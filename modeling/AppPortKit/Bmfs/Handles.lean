import AppPortKit.Bmfs.CrashPoints

/-!
# Open files and directory entries

An open file is a copy of an entry's blocks together with the slot the entry had.
Removing a file clears the slot, and a descriptor still open on it is severed: it
goes on naming the slot and the blocks, which the next created file may be given.
The invariant below ties every descriptor that is not severed to its entry and
keeps severed ones clear of the files that are there.
-/

namespace AppPortKit.Bmfs

open Libc SectorStore

/-- The blocks of an open file. -/
def File.extent (f : File) : Set Nat :=
  Set.Ico f.startBlock.toNat (f.startBlock.toNat + f.reservedBlocks.toNat)

theorem File.SameHandle.extent {before after : File} (same : before.SameHandle after) :
    after.extent = before.extent := by
  rw [File.extent, File.extent, same.startBlock, same.reservedBlocks]

theorem File.SameHandle.cap {before after : File} (same : before.SameHandle after) :
    after.cap = before.cap := by
  rw [File.cap, File.cap, same.reservedBlocks]

/-- The size of an open file is within its reservation. -/
def File.Fits (f : File) : Prop := f.size.toNat ≤ f.cap

/-- Byte address of an offset in the file of an entry. -/
def Dirent.address (entry : Dirent) (off : Nat) : Nat := entry.startBlock.toNat * 2097152 + off

/-- The byte addresses of an entry's blocks. -/
def Dirent.bytes (entry : Dirent) : Set Nat :=
  Set.Ico (entry.startBlock.toNat * 2097152)
    ((entry.startBlock.toNat + entry.reservedBlocks.toNat) * 2097152)

/-- A record and an entry have the same blocks. -/
def File.Holds (f : File) (entry : Dirent) : Prop :=
  f.startBlock = entry.startBlock ∧ f.reservedBlocks = entry.reservedBlocks

theorem File.Holds.extent {f : File} {entry : Dirent} (holds : f.Holds entry) :
    f.extent = entry.extent := by
  rw [File.extent, Dirent.extent, holds.1, holds.2]

theorem File.Holds.of_sameFile {f : File} {left right : Dirent} (holds : f.Holds left)
    (same : Dirent.SameFile left right) : f.Holds right :=
  ⟨holds.1.trans same.startBlock.symm, holds.2.trans same.reservedBlocks.symm⟩

theorem File.Holds.of_sameHandle {before after : File} {entry : Dirent}
    (holds : before.Holds entry) (same : before.SameHandle after) : after.Holds entry :=
  ⟨same.startBlock.trans holds.1, same.reservedBlocks.trans holds.2⟩

/-- The open files and the directory, with the descriptors whose files have been
removed. -/
structure Handles (table : Dir) (files : Fin 8 → File) (severed : Fin 8 → Bool) : Prop where
  wellFormed : table.WellFormed
  entriesFit : table.SizesFit
  filesFit : ∀ index, (files index).used = true → (files index).Fits
  idle : ∀ index, (files index).used = false → severed index = false
  own : ∀ index, (files index).used = true → severed index = false →
    (table (files index).dirIndex).Live ∧
      (files index).Holds (table (files index).dirIndex)
  stray : ∀ index slot, (files index).used = true → severed index = true →
    (table slot).Live →
      (files index).dirIndex ≠ slot ∧ Disjoint (files index).extent (table slot).extent

namespace Handles

variable {table : Dir} {files : Fin 8 → File} {severed : Fin 8 → Bool}

/-- A descriptor keeps clear of every live entry but its own. -/
theorem foreign (handles : Handles table files severed) {index : Fin 8} {slot : Fin 64}
    (used : (files index).used = true) (live : (table slot).Live)
    (other : ¬(severed index = false ∧ (files index).dirIndex = slot)) :
    (files index).dirIndex ≠ slot ∧ Disjoint (files index).extent (table slot).extent := by
  cases cut : severed index with
  | true => exact handles.stray index slot used cut live
  | false =>
      have different : (files index).dirIndex ≠ slot := fun same => other ⟨cut, same⟩
      obtain ⟨ownLive, holds⟩ := handles.own index used cut
      refine ⟨different, ?_⟩
      rw [holds.extent]
      exact handles.wellFormed.apart _ _ ownLive live different

/-- A new file may be put in a free slot that no open file names, in blocks that no
open file has. -/
theorem create (handles : Handles table files severed) (bounded : table.Bounded)
    {name : CString} {slot : Fin 64} (valid : validName name)
    (missing : dirFind table name = none) (free : dirFindFreeSlot table = some slot)
    (clear : ∀ index, (files index).used = true → (files index).dirIndex ≠ slot ∧
      Disjoint (files index).extent (createEntry table slot name slot).extent) :
    Handles (createEntry table slot name) files severed where
  wellFormed := handles.wellFormed.createEntry bounded valid missing slot
  entriesFit other live := by
    by_cases same : other = slot
    · subst same
      rw [createEntry_self, Dirent.Fits]
      exact Nat.zero_le _
    · rw [createEntry_of_ne name same] at live ⊢
      exact handles.entriesFit other live
  filesFit := handles.filesFit
  idle := handles.idle
  own index used cut := by
    rw [createEntry_of_ne name (clear index used).1]
    exact handles.own index used cut
  stray index other used cut live := by
    by_cases same : other = slot
    · subst same
      exact clear index used
    · rw [createEntry_of_ne name same] at live ⊢
      exact handles.stray index other used cut live

/-- Where nothing is severed, creation keeps clear of open files by itself. -/
theorem clear (handles : Handles table files fun _ => false) (bounded : table.Bounded)
    {slot : Fin 64} (free : dirFindFreeSlot table = some slot) (name : CString) (index : Fin 8)
    (used : (files index).used = true) :
    (files index).dirIndex ≠ slot ∧
      Disjoint (files index).extent (createEntry table slot name slot).extent := by
  obtain ⟨live, holds⟩ := handles.own index used rfl
  have taken : (files index).dirIndex ≠ slot := by
    intro same
    rw [same] at live
    exact dirFindFreeSlot_some free live
  have above := (createEntry_startBlock bounded slot name).2.2 _ taken live
  refine ⟨taken, ?_⟩
  rw [holds.extent, Dirent.extent, Dirent.extent, Set.Ico_disjoint_Ico]
  omega

/-- The size of an entry may change within its reservation. -/
theorem resize (handles : Handles table files severed) {slot : Fin 64} {size : UInt64}
    (fits : (table slot).Live → size.toNat ≤ (table slot).reservedBlocks.toNat * 2097152) :
    Handles (table.resize slot size) files severed where
  wellFormed := handles.wellFormed.of_kept fun other _ => table.sameFile_resize slot size other
  entriesFit other live := by
    have same := table.sameFile_resize slot size other
    have alive := same.live_iff.mp live
    rw [Dirent.Fits, same.reservedBlocks]
    by_cases target : other = slot
    · subst target
      rw [Dir.resize, Function.update_self]
      exact fits alive
    · rw [Dir.resize, Function.update_of_ne target]
      exact handles.entriesFit other alive
  filesFit := handles.filesFit
  idle := handles.idle
  own index used cut := by
    obtain ⟨live, holds⟩ := handles.own index used cut
    have same := table.sameFile_resize slot size (files index).dirIndex
    exact ⟨same.live_iff.mpr live, holds.of_sameFile same⟩
  stray index other used cut live := by
    have same := table.sameFile_resize slot size other
    rw [same.extent]
    exact handles.stray index other used cut (same.live_iff.mp live)

/-- Descriptors open on a slot are severed when the slot is cleared. -/
def sever (files : Fin 8 → File) (severed : Fin 8 → Bool) (slot : Fin 64) (index : Fin 8) :
    Bool :=
  severed index || ((files index).used && (files index).dirIndex == slot)

theorem sever_eq_false_iff (index : Fin 8) (slot : Fin 64)
    (used : (files index).used = true) :
    sever files severed slot index = false ↔
      severed index = false ∧ (files index).dirIndex ≠ slot := by
  simp [sever, used]

/-- Removing a file severs its descriptors and leaves the other files. -/
theorem remove (handles : Handles table files severed) (slot : Fin 64) :
    Handles (Function.update table slot Dirent.zero) files (sever files severed slot) := by
  have kept : ∀ other, (Function.update table slot Dirent.zero other).Live →
      other ≠ slot ∧ Function.update table slot Dirent.zero other = table other := by
    intro other alive
    by_cases same : other = slot
    · rw [same, Function.update_self] at alive
      exact absurd alive Dirent.not_live_zero
    · exact ⟨same, Function.update_of_ne same _ _⟩
  constructor
  · apply handles.wellFormed.of_kept
    intro other alive
    rw [(kept other alive).2]
    exact .refl _
  · intro other alive
    have same := (kept other alive).2
    rw [same] at alive ⊢
    exact handles.entriesFit other alive
  · exact handles.filesFit
  · intro index unused
    simp [sever, handles.idle index unused, unused]
  · intro index used cut
    obtain ⟨uncut, elsewhere⟩ := (sever_eq_false_iff index slot used).mp cut
    rw [Function.update_of_ne elsewhere]
    exact handles.own index used uncut
  · intro index other used cut alive
    obtain ⟨different, same⟩ := kept other alive
    rw [same] at alive ⊢
    apply handles.foreign used alive
    -- The descriptor was severed before, or has just lost the slot that was cleared.
    rintro ⟨uncut, named⟩
    have still : sever files severed slot index = false :=
      (sever_eq_false_iff index slot used).mpr ⟨uncut, named ▸ different⟩
    rw [still] at cut
    contradiction

/-- One record is replaced and the rest stay as they are. -/
theorem replace (handles : Handles table files severed) {index : Fin 8} {file : File}
    {severed' : Fin 8 → Bool} (others : ∀ other, other ≠ index → severed' other = severed other)
    (fits : file.used = true → file.Fits) (idle : file.used = false → severed' index = false)
    (own : file.used = true → severed' index = false →
      (table file.dirIndex).Live ∧ file.Holds (table file.dirIndex))
    (stray : ∀ slot, file.used = true → severed' index = true → (table slot).Live →
      file.dirIndex ≠ slot ∧ Disjoint file.extent (table slot).extent) :
    Handles table (Function.update files index file) severed' where
  wellFormed := handles.wellFormed
  entriesFit := handles.entriesFit
  filesFit := by
    rw [Function.forall_update_iff files fun _ f => f.used = true → f.Fits]
    exact ⟨fits, fun other _ => handles.filesFit other⟩
  idle := by
    rw [Function.forall_update_iff files fun other f => f.used = false → severed' other = false]
    refine ⟨idle, fun other different => ?_⟩
    rw [others other different]
    exact handles.idle other
  own := by
    rw [Function.forall_update_iff files fun other f =>
      f.used = true → severed' other = false → (table f.dirIndex).Live ∧
        f.Holds (table f.dirIndex)]
    refine ⟨own, fun other different => ?_⟩
    rw [others other different]
    exact handles.own other
  stray := by
    rw [Function.forall_update_iff files fun other f => ∀ slot,
      f.used = true → severed' other = true → (table slot).Live →
        f.dirIndex ≠ slot ∧ Disjoint f.extent (table slot).extent]
    refine ⟨stray, fun other different => ?_⟩
    rw [others other different]
    exact handles.stray other

/-- A record may change as long as it stands for the same file. -/
theorem update (handles : Handles table files severed) {index : Fin 8} {file : File}
    (same : (files index).SameHandle file) (fits : file.used = true → file.Fits) :
    Handles table (Function.update files index file) severed := by
  apply handles.replace (fun _ _ => rfl) fits
  · rw [same.used]
    exact handles.idle index
  · rw [same.used, same.dirIndex]
    intro used cut
    obtain ⟨live, holds⟩ := handles.own index used cut
    exact ⟨live, holds.of_sameHandle same⟩
  · rw [same.used, same.dirIndex, same.extent]
    intro slot
    exact handles.stray index slot

/-- Opening a live entry fills a free record. -/
theorem attach (handles : Handles table files severed) {slot : Fin 8} {di : Fin 64}
    (free : (files slot).used = false) (live : (table di).Live) (flags : UInt32) :
    Handles table (Function.update files slot (openedFile (table di) di flags)) severed := by
  have uncut := handles.idle slot free
  apply handles.replace (fun _ _ => rfl)
  · intro _
    exact handles.entriesFit di live
  · intro _
    exact uncut
  · intro _ _
    exact ⟨live, rfl, rfl⟩
  · intro _ _ cut
    rw [uncut] at cut
    contradiction

/-- Closing empties a record, and a severed descriptor is gone. -/
theorem detach (handles : Handles table files severed) (index : Fin 8) :
    Handles table (Function.update files index { files index with used := false })
      (Function.update severed index false) := by
  apply handles.replace
  · intro other different
    exact Function.update_of_ne different _ _
  · intro used
    contradiction
  · intro _
    exact Function.update_self _ _ _
  · intro used
    contradiction
  · intro _ used
    contradiction

end Handles

/-! ## Bytes on the drive -/

/-- A byte of one file is none of an entry apart from it. -/
theorem not_mem_bytes_of_disjoint {f : File} {entry : Dirent}
    (apart : Disjoint f.extent entry.extent) {address : Nat}
    (inside : f.address 0 ≤ address ∧ address < f.address f.cap) :
    address ∉ entry.bytes := by
  intro membership
  obtain ⟨first, last⟩ := Set.mem_Ico.mp membership
  rw [File.address, File.address, File.cap] at inside
  have inFile : address / 2097152 ∈ f.extent := by
    rw [File.extent, Set.mem_Ico]
    omega
  have inEntry : address / 2097152 ∈ entry.extent := by
    rw [Dirent.extent, Set.mem_Ico]
    omega
  exact Set.disjoint_left.mp apart inFile inEntry

/-- Writes within the blocks of one file spare the bytes of an entry apart from it. -/
theorem cell_of_disjoint {before after : Device} {writes : List (Nat × Sector)}
    (wrote : Device.Wrote before after writes) {f : File}
    (within : ∀ write ∈ writes, f.startBlock.toNat * 512 ≤ write.1 ∧
      write.1 < (f.startBlock.toNat + f.reservedBlocks.toNat) * 512)
    {entry : Dirent} (apart : Disjoint f.extent entry.extent) {address : Nat}
    (inside : address ∈ entry.bytes) : cell after.disk address = cell before.disk address := by
  rw [wrote.disk]
  apply cell_replay_of_forall_ne
  intro write membership same
  obtain ⟨low, high⟩ := within write membership
  refine not_mem_bytes_of_disjoint apart ?_ inside
  rw [File.address, File.address, File.cap]
  omega

/-- A flush of the directory spares the bytes of every file. -/
theorem cell_of_edit {s : State} (reliable : s.device.Reliable) (dir : Dir) {entry : Dirent}
    (placed : entry.Placed) {address : Nat} (inside : address ∈ entry.bytes) :
    cell (s.edit dir).device.disk address = cell s.device.disk address := by
  rw [(edit_wrote dir reliable).disk]
  apply cell_replay_of_forall_ne
  intro write membership same
  rw [List.mem_singleton] at membership
  subst membership
  have := placed.1
  have := (Set.mem_Ico.mp inside).1
  omega

/-! ## Changes -/

/-- A write keeps a file within its reservation. -/
theorem fits_bmfsPwrite {s : State} {index : Fin 8}
    (addressable : (s.files index).Addressable) (fits : (s.files index).Fits)
    (buf : Nat → UInt8) {len : UInt64} (off : UInt64)
    (short : len.toNat < 9223372036854775808) :
    ((bmfsPwrite s index buf len off).2.files index).Fits := by
  rcases bmfsPwrite_cases s index buf len off with
    ⟨-, refused⟩ | ⟨n, base, count, -, inside, -, stored⟩
  · rw [refused]
    exact fits
  · have small := addressable.cap_le
    have capacity := addressable.cap_toNat
    rw [UInt64.lt_iff_toNat_lt, capacity] at inside
    have clamped : n.toNat = min len.toNat ((s.files index).cap - off.toNat) := by
      rw [count, clampLen_toNat (by rw [capacity]; exact inside) (by omega), capacity]
    have noWrap : off.toNat + n.toNat < 18446744073709551616 := by omega
    rw [stored, files_setFile, Function.update_self, File.Fits, size_grownFile _ noWrap,
      (sameHandle_grownFile (s.files index) n off).cap]
    rw [File.Fits] at fits
    omega

/-- A call that creates a file, and is not refused for its name or for want of a
descriptor, finds a slot that no open file names, and a block that no open file has. -/
def AvoidsOpenFiles (s : State) : Call → Prop
  | .open path flags =>
      validName (bmfsName path) → (findFreeFile s.files).isSome = true →
        dirFind s.table (bmfsName path) = none → hasFlag flags oCreat = true →
          ∀ slot, dirFindFreeSlot s.table = some slot →
            ∀ index, (s.files index).used = true → (s.files index).dirIndex ≠ slot ∧
              Disjoint (s.files index).extent
                (createEntry s.table slot (bmfsName path) slot).extent
  | _ => True

instance (f : File) (entry : Dirent) : Decidable (Disjoint f.extent entry.extent) :=
  decidable_of_iff _ Set.Ico_disjoint_Ico.symm

instance (s : State) : (call : Call) → Decidable (AvoidsOpenFiles s call)
  | .open path flags =>
      inferInstanceAs (Decidable (validName (bmfsName path) →
        (findFreeFile s.files).isSome = true →
          dirFind s.table (bmfsName path) = none → hasFlag flags oCreat = true →
            ∀ slot, dirFindFreeSlot s.table = some slot →
              ∀ index, (s.files index).used = true → (s.files index).dirIndex ≠ slot ∧
                Disjoint (s.files index).extent
                  (createEntry s.table slot (bmfsName path) slot).extent))
  | .read _ _ | .write _ _ _ | .lseek _ _ _ | .close _ | .fstat _ | .fstatat _ | .unlink _ =>
      isTrue trivial

namespace Handles

variable {severed : Fin 8 → Bool}

/-- What a close records fits: the slot is the file's own, or nobody's. -/
theorem fits_of_used {table : Dir} {files : Fin 8 → File}
    (handles : Handles table files severed) {index : Fin 8}
    (used : (files index).used = true) (live : (table (files index).dirIndex).Live) :
    (files index).size.toNat ≤
      (table (files index).dirIndex).reservedBlocks.toNat * 2097152 := by
  cases cut : severed index with
  | true => exact absurd rfl (handles.stray index _ used cut live).1
  | false =>
      rw [← (handles.own index used cut).2.2]
      exact handles.filesFit index used

/-- Changes other than those of a close or a removal sever nothing. -/
theorem change {origin : State} {call : Call} {before after : State}
    (inRange : InRange origin call) (avoids : AvoidsOpenFiles origin call)
    (noClose : ∀ fd, call ≠ .close fd) (noUnlink : ∀ path, call ≠ .unlink path)
    (sound : Sound before) (handles : Handles before.table before.files severed)
    (change : Change origin call before after) :
    Handles after.table after.files severed := by
  cases change with
  | load unloaded =>
      rw [table_dirLoad, files_dirLoad]
      exact handles
  | edit edit =>
      have loaded := sound.loaded_of_edit edit
      rw [table_edit _ loaded, files_edit]
      cases edit with
      | @create path flags slot called asked valid missing free record =>
          rw [table_dirLoad, files_dirLoad] at handles
          rw [files_dirLoad]
          subst called
          exact handles.create inRange.1 valid missing free
            (avoids valid record missing asked slot free)
      | truncate called asked loaded found =>
          rw [← table_of_loaded loaded]
          exact handles.resize fun _ => Nat.zero_le _
      | commit called opened dirty => exact absurd called (noClose _)
      | remove called loaded found => exact absurd called (noUnlink _)
  | attach called loaded free found =>
      rw [table_setFile, files_setFile, ← table_of_loaded loaded]
      rw [← table_of_loaded loaded] at found
      exact handles.attach (findFreeFile_some free) (dirFind_some found).1 _
  | fetch opened media =>
      rw [table_transfer (sound.loaded_of_openIndex opened)]
      exact handles
  | @store fd buf len index called opened =>
      have used := ((openIndex_eq_some_iff _ _ _).mp opened).2
      have placed := sound.opened index used
      subst called
      have fits := fits_bmfsPwrite placed.addressable (handles.filesFit index used) buf
        (before.files index).pos inRange.2
      obtain ⟨scratch, device, file, state, same, -⟩ :=
        bmfsPwrite_state before index buf len (before.files index).pos
      rw [state, files_setFile, Function.update_self] at fits
      rw [state, table_setFile, files_setFile, table_transfer (sound.loaded used)]
      exact handles.update same fun _ => fits
  | @move fd index pos opened =>
      have used := ((openIndex_eq_some_iff _ _ _).mp opened).2
      rw [table_setFile, files_setFile]
      exact handles.update ⟨rfl, rfl, rfl, rfl, rfl⟩ fun _ => handles.filesFit index used
  | detach called opened => exact absurd called (noClose _)

end Handles

end AppPortKit.Bmfs
