import AppPortKit.Bmfs.Handles
import AppPortKit.Bmfs.Reference
import Mathlib.Data.Finset.Image
import Mathlib.Data.Fintype.Card

/-!
# Refinement of the reference store

Callers that open a name only while no descriptor is open on it, and remove it
only then, cannot tell the file system from the reference store.  The relation
below reads the store off the directory, the records of open files and the bytes
of the drive; each operation is then matched by the store's.
-/

namespace AppPortKit.Bmfs

open Libc SectorStore Transition

/-! ## The relation -/

/-- The names of a directory. -/
def Dir.names (dir : Dir) : Finset CString :=
  (Finset.univ.filter fun slot => (dir slot).Live).image fun slot => (dir slot).nameString

theorem Dir.mem_names {dir : Dir} {name : CString} :
    name ∈ dir.names ↔ ∃ slot, (dir slot).Live ∧ (dir slot).nameString = name := by
  simp [Dir.names]

/-- A file of the store is the one of an entry. -/
structure Dirent.Represents (entry : Dirent) (disk : Disk) (file : RefFile) : Prop where
  cap : file.cap = entry.reservedBlocks.toNat * 2097152
  size : file.size = entry.size.toNat
  data : ∀ index < file.cap, file.data index = cell disk (entry.address index)

/-- The descriptor a record in use stands for. -/
def File.handle (f : File) (table : Dir) : RefHandle :=
  { name := (table f.dirIndex).nameString
    append := f.append
    pos := f.pos.toNat
    size := f.size.toNat }

/-- The descriptor a record stands for, if it is in use. -/
def File.view (f : File) (table : Dir) : Option RefHandle :=
  if f.used then some (f.handle table) else none

/-- A state of the file system and the store it implements. -/
structure Related (s : State) (a : RefStore) : Prop where
  synced : Synced s
  handles : Handles s.table s.files fun _ => false
  single : ∀ index other, (s.files index).used = true → (s.files other).used = true →
    (s.files index).dirIndex = (s.files other).dirIndex → index = other
  names : a.names = s.table.names
  contents : ∀ slot, (s.table slot).Live →
    (s.table slot).Represents s.device.disk (a.file (s.table slot).nameString)
  fds : ∀ index, a.fds index = (s.files index).view s.table
  clean : ∀ index, (s.files index).used = true → (s.files index).dirty = false →
    (s.files index).size = (s.table (s.files index).dirIndex).size
  seeks : ∀ index, (s.files index).used = true →
    (s.files index).pos.toNat < 9223372036854775808

/-- The bytes of an entry's reservation. -/
theorem Dirent.address_mem_bytes {entry : Dirent} {index : Nat}
    (inside : index < entry.reservedBlocks.toNat * 2097152) :
    entry.address index ∈ entry.bytes := by
  rw [Dirent.address, Dirent.bytes, Set.mem_Ico]
  omega

/-- A file stays the one of an entry if the drive keeps the entry's bytes. -/
theorem Dirent.Represents.of_cells {entry : Dirent} {disk disk' : Disk} {file : RefFile}
    (represents : entry.Represents disk file)
    (kept : ∀ address ∈ entry.bytes, cell disk' address = cell disk address) :
    entry.Represents disk' file where
  cap := represents.cap
  size := represents.size
  data index inside := by
    rw [kept _ (address_mem_bytes (represents.cap ▸ inside))]
    exact represents.data index inside

namespace Related

variable {s : State} {a : RefStore}

/-- Two live entries with one name are in one slot. -/
theorem slot_eq (related : Related s a) {slot other : Fin 64} (live : (s.table slot).Live)
    (otherLive : (s.table other).Live)
    (same : (s.table slot).nameString = (s.table other).nameString) : slot = other := by
  by_contra different
  exact related.handles.wellFormed.distinct slot other live otherLive different same

/-- Loading the directory is invisible. -/
theorem load (related : Related s a) : Related (dirLoad s) a := by
  have media := dirLoad_sameMedia s
  have synced : Synced (dirLoad s) := by
    refine ⟨⟨?_, ?_, ?_⟩, related.synced.reliable.of_fails_eq media.fails, ?_⟩
    · intro unloaded
      rw [dirLoaded_dirLoad] at unloaded
      contradiction
    · rw [table_dirLoad]
      exact related.synced.sound.entries
    · rw [files_dirLoad]
      exact related.synced.sound.opened
    · rw [table_dirLoad, media.disk]
      exact related.synced.agrees
  constructor
  · exact synced
  · rw [table_dirLoad, files_dirLoad]
    exact related.handles
  · rw [files_dirLoad]
    exact related.single
  · rw [table_dirLoad]
    exact related.names
  · rw [table_dirLoad, media.disk]
    exact related.contents
  · rw [table_dirLoad, files_dirLoad]
    exact related.fds
  · rw [table_dirLoad, files_dirLoad]
    exact related.clean
  · rw [files_dirLoad]
    exact related.seeks

/-- An edit of the directory that keeps the entries of open files. -/
theorem edit (related : Related s a) (loaded : s.dirLoaded = true) {dir : Dir} {a' : RefStore}
    (placed : ∀ slot, (dir slot).Live → (dir slot).Placed)
    (handles : Handles dir s.files fun _ => false) (names : a'.names = dir.names)
    (fds : a'.fds = a.fds)
    (contents : ∀ slot, (dir slot).Live →
      (dir slot).Represents (s.edit dir).device.disk (a'.file (dir slot).nameString))
    (kept : ∀ index, (s.files index).used = true →
      (dir (s.files index).dirIndex).nameString =
          (s.table (s.files index).dirIndex).nameString ∧
        ((s.files index).dirty = false →
          (s.files index).size = (dir (s.files index).dirIndex).size)) :
    Related (s.edit dir) a' := by
  have table := table_edit (s := s) dir loaded
  constructor
  · exact related.synced.edit loaded placed
  · rw [table]
    exact handles
  · exact related.single
  · rw [table]
    exact names
  · rw [table]
    exact contents
  · intro index
    rw [fds, related.fds, table, files_edit, File.view, File.view]
    split
    next used => rw [File.handle, File.handle, (kept index used).1]
    next unused => rfl
  · intro index used
    rw [table]
    exact (kept index used).2
  · exact related.seeks

/-- An edit writes no byte of a live file. -/
theorem contents_edit (related : Related s a) (dir : Dir) {slot : Fin 64}
    (live : (s.table slot).Live) :
    (s.table slot).Represents (s.edit dir).device.disk (a.file (s.table slot).nameString) :=
  (related.contents slot live).of_cells fun _ inside =>
    cell_of_edit related.synced.reliable dir (related.synced.sound.entries slot live) inside

/-- The names after a file is created in a free slot. -/
theorem names_createEntry {dir : Dir} {slot : Fin 64} {name : CString}
    (valid : validName name) (free : dirFindFreeSlot dir = some slot) :
    (createEntry dir slot name).names = insert name dir.names := by
  ext other
  rw [Finset.mem_insert, Dir.mem_names, Dir.mem_names]
  constructor
  · rintro ⟨target, live, named⟩
    by_cases same : target = slot
    · subst same
      rw [nameString_createEntry valid] at named
      exact .inl named.symm
    · rw [createEntry_of_ne name same] at live named
      exact .inr ⟨target, live, named⟩
  · rintro (rfl | ⟨target, live, named⟩)
    · exact ⟨slot, live_createEntry valid dir slot, nameString_createEntry valid dir slot⟩
    · have other : target ≠ slot := by
        rintro rfl
        exact dirFindFreeSlot_some free live
      refine ⟨target, ?_, ?_⟩ <;> rw [createEntry_of_ne name other]
      · exact live
      · exact named

/-- Creating a file is creating one in the store, with the bytes its block happens
to hold. -/
theorem create (related : Related s a) (bounded : s.table.Bounded) {path : CString}
    {flags : UInt32} {slot : Fin 64} (asked : hasFlag flags oCreat = true)
    (valid : validName (bmfsName path)) (missing : dirFind s.table (bmfsName path) = none)
    (free : dirFindFreeSlot s.table = some slot)
    (record : (findFreeFile s.files).isSome = true) :
    ∃ init, Related ((dirLoad s).edit (createEntry s.table slot (bmfsName path)))
      (a.create (bmfsName path) init) := by
  have loaded := related.load
  have fresh := (related.handles.wellFormed.dirFind_eq_none_iff (bmfsName path)).mp missing
  have clear := related.handles.clear bounded free (bmfsName path)
  have created : Edit s (.open path flags) (dirLoad s) _ :=
    .create rfl asked valid missing free record
  have placed := created.placed bounded related.synced.sound.entries
  let entry := createEntry s.table slot (bmfsName path) slot
  let disk := ((dirLoad s).edit (createEntry s.table slot (bmfsName path))).device.disk
  refine ⟨fun index => cell disk (entry.address index), ?_⟩
  refine loaded.edit (dirLoaded_dirLoad s) placed ?_ ?_ rfl ?_ ?_
  · rw [files_dirLoad]
    exact related.handles.create bounded valid missing free clear
  · rw [names_createEntry valid free, ← related.names]
    rfl
  · intro target live
    by_cases same : target = slot
    · subst same
      rw [nameString_createEntry valid, RefStore.file_create, Function.update_self]
      refine ⟨?_, ?_, fun index _ => rfl⟩
      · simp [createEntry_self, defaultBlocks]
      · simp [createEntry_self]
    · rw [createEntry_of_ne _ same] at live ⊢
      rw [RefStore.file_create, Function.update_of_ne (fresh target live)]
      have kept : ((dirLoad s).table target).Live → _ :=
        loaded.contents_edit (createEntry s.table slot (bmfsName path))
      rw [table_dirLoad] at kept
      exact kept live
  · intro index used
    rw [files_dirLoad] at used ⊢
    rw [createEntry_of_ne _ (clear index used).1, table_dirLoad]
    exact ⟨rfl, related.clean index used⟩

/-- Changing the size of an entry is committing it in the store. -/
theorem resize (related : Related s a) (loaded : s.dirLoaded = true) {slot : Fin 64}
    {size : UInt64} (live : (s.table slot).Live)
    (fits : size.toNat ≤ (s.table slot).reservedBlocks.toNat * 2097152)
    (alone : ∀ index, (s.files index).used = true → (s.files index).dirIndex = slot →
      (s.files index).size = size) :
    Related (s.edit (s.table.resize slot size))
      (a.commit (s.table slot).nameString size.toNat) := by
  have same := s.table.sameFile_resize slot size
  have placed : ∀ other, (s.table.resize slot size other).Live →
      (s.table.resize slot size other).Placed := fun other alive =>
    (same other).placed (related.synced.sound.entries other ((same other).live_iff.mp alive))
  apply related.edit loaded placed (related.handles.resize fun _ => fits)
  · rw [RefStore.commit, related.names]
    ext name
    simp only [Dir.mem_names, (same _).live_iff, (same _).nameString]
  · rfl
  · intro target targetLive
    have alive := (same target).live_iff.mp targetLive
    rw [(same target).nameString, RefStore.file_commit]
    have kept := related.contents_edit (s.table.resize slot size) alive
    by_cases equal : target = slot
    · subst equal
      rw [Function.update_self, Dir.resize, Function.update_self]
      exact ⟨kept.cap, rfl, kept.data⟩
    · have other : (s.table target).nameString ≠ (s.table slot).nameString :=
        fun named => equal (related.slot_eq alive live named)
      rw [Function.update_of_ne other, Dir.resize, Function.update_of_ne equal]
      exact kept
  · intro index used
    refine ⟨(same _).nameString, fun clean => ?_⟩
    by_cases equal : (s.files index).dirIndex = slot
    · rw [equal, Dir.resize, Function.update_self]
      exact alone index used equal
    · rw [Dir.resize, Function.update_of_ne equal]
      exact related.clean index used clean

/-- Clearing an entry nobody has open is removing its name from the store. -/
theorem remove (related : Related s a) (loaded : s.dirLoaded = true) {slot : Fin 64}
    (live : (s.table slot).Live)
    (unopened : ∀ index, (s.files index).used = true → (s.files index).dirIndex ≠ slot) :
    Related (s.edit (Function.update s.table slot Dirent.zero))
      { a with names := a.names.erase (s.table slot).nameString } := by
  have unsevered : Handles.sever s.files (fun _ => false) slot = fun _ => false := by
    funext index
    cases used : (s.files index).used with
    | false => simp [Handles.sever, used]
    | true => simp [Handles.sever, used, unopened index used]
  have kept : ∀ other, (Function.update s.table slot Dirent.zero other).Live →
      other ≠ slot ∧ (s.table other).Live := by
    intro other alive
    by_cases same : other = slot
    · rw [same, Function.update_self] at alive
      exact absurd alive Dirent.not_live_zero
    · rw [Function.update_of_ne same] at alive
      exact ⟨same, alive⟩
  apply related.edit loaded
  · intro other alive
    obtain ⟨elsewhere, otherLive⟩ := kept other alive
    rw [Function.update_of_ne elsewhere]
    exact related.synced.sound.entries other otherLive
  · have removed := related.handles.remove slot
    rw [unsevered] at removed
    exact removed
  · ext name
    rw [Finset.mem_erase, related.names, Dir.mem_names, Dir.mem_names]
    constructor
    · rintro ⟨different, other, alive, rfl⟩
      have elsewhere : other ≠ slot := by
        rintro rfl
        exact different rfl
      exact ⟨other, by rwa [Function.update_of_ne elsewhere],
        by rw [Function.update_of_ne elsewhere]⟩
    · rintro ⟨other, alive, rfl⟩
      obtain ⟨elsewhere, otherLive⟩ := kept other alive
      rw [Function.update_of_ne elsewhere]
      exact ⟨fun named => elsewhere (related.slot_eq otherLive live named),
        other, otherLive, rfl⟩
  · rfl
  · intro other alive
    obtain ⟨elsewhere, otherLive⟩ := kept other alive
    rw [Function.update_of_ne elsewhere]
    exact related.contents_edit _ otherLive
  · intro index used
    rw [Function.update_of_ne (unopened index used)]
    exact ⟨rfl, related.clean index used⟩

/-! ### Records of open files -/

/-- A record may be replaced by one that fits the directory and shares no entry. -/
theorem replace (related : Related s a) (index : Fin 8) (file : File)
    (usable : file.used = true → s.dirLoaded = true ∧ file.Placed)
    (handles : Handles s.table (Function.update s.files index file) fun _ => false)
    (single : file.used = true → ∀ other, other ≠ index → (s.files other).used = true →
      (s.files other).dirIndex ≠ file.dirIndex)
    (clean : file.used = true → file.dirty = false →
      file.size = (s.table file.dirIndex).size)
    (seeks : file.used = true → file.pos.toNat < 9223372036854775808) :
    Related (s.setFile index file) (a.setFd index (file.view s.table)) := by
  constructor
  · refine ⟨related.synced.sound.setFile index usable, related.synced.reliable, ?_⟩
    rw [table_setFile]
    exact related.synced.agrees
  · rw [table_setFile]
    exact handles
  · intro left right leftUsed rightUsed same
    rw [files_setFile] at leftUsed rightUsed same
    by_cases atLeft : left = index <;> by_cases atRight : right = index
    · rw [atLeft, atRight]
    · subst atLeft
      rw [Function.update_self] at leftUsed same
      rw [Function.update_of_ne atRight] at rightUsed same
      exact absurd same.symm (single leftUsed right atRight rightUsed)
    · subst atRight
      rw [Function.update_self] at rightUsed same
      rw [Function.update_of_ne atLeft] at leftUsed same
      exact absurd same (single rightUsed left atLeft leftUsed)
    · rw [Function.update_of_ne atLeft] at leftUsed same
      rw [Function.update_of_ne atRight] at rightUsed same
      exact related.single left right leftUsed rightUsed same
  · rw [table_setFile]
    exact related.names
  · rw [table_setFile]
    exact related.contents
  · intro other
    rw [table_setFile, files_setFile, RefStore.fds_setFd]
    by_cases same : other = index
    · rw [same, Function.update_self, Function.update_self]
    · rw [Function.update_of_ne same, Function.update_of_ne same]
      exact related.fds other
  · intro other used
    rw [table_setFile]
    rw [files_setFile] at used ⊢
    by_cases same : other = index
    · rw [same, Function.update_self] at used ⊢
      exact clean used
    · rw [Function.update_of_ne same] at used ⊢
      exact related.clean other used
  · intro other used
    rw [files_setFile] at used ⊢
    by_cases same : other = index
    · rw [same, Function.update_self] at used ⊢
      exact seeks used
    · rw [Function.update_of_ne same] at used ⊢
      exact related.seeks other used

/-- The position and the size of an open file change. -/
theorem update (related : Related s a) {index : Fin 8} {file : File}
    (used : (s.files index).used = true) (same : (s.files index).SameHandle file)
    (fits : file.Fits)
    (clean : file.dirty = false → file.size = (s.table (s.files index).dirIndex).size)
    (seeks : file.pos.toNat < 9223372036854775808) :
    Related (s.setFile index file) (a.setFd index (file.view s.table)) := by
  apply related.replace
  · intro _
    exact ⟨related.synced.sound.loaded used,
      same.placed (related.synced.sound.opened index used)⟩
  · exact related.handles.update same fun _ => fits
  · intro _ other different otherUsed entry
    rw [same.dirIndex] at entry
    exact different (related.single other index otherUsed used entry)
  · intro _
    rw [same.dirIndex]
    exact clean
  · exact fun _ => seeks

/-- An entry nobody has open is attached to a free record. -/
theorem attach (related : Related s a) (loaded : s.dirLoaded = true) {index : Fin 8}
    {slot : Fin 64} (free : (s.files index).used = false) (live : (s.table slot).Live)
    (unopened : ∀ other, (s.files other).used = true → (s.files other).dirIndex ≠ slot)
    (flags : UInt32) :
    Related (s.setFile index (openedFile (s.table slot) slot flags))
      (a.attach index (s.table slot).nameString (hasFlag flags oAppend)) := by
  have placed := related.synced.sound.entries slot live
  have size := (related.contents slot live).size
  have attached := related.replace index (openedFile (s.table slot) slot flags)
    (fun _ => ⟨loaded, placed.openedFile slot flags⟩) (related.handles.attach free live flags)
    (fun _ other _ used => unopened other used) (fun _ _ => rfl) ?_
  · have view : (openedFile (s.table slot) slot flags).view s.table = some
        { name := (s.table slot).nameString
          append := hasFlag flags oAppend
          pos := if hasFlag flags oAppend then (a.file (s.table slot).nameString).size else 0
          size := (a.file (s.table slot).nameString).size } := by
      rw [size]
      cases appends : hasFlag flags oAppend <;> simp [File.view, File.handle, openedFile, appends]
    rw [view] at attached
    exact attached
  · intro _
    have fits := related.handles.entriesFit slot live
    have capacity := (placed.openedFile slot flags).addressable.cap_le
    rw [Dirent.Fits] at fits
    rw [File.cap] at capacity
    simp only [openedFile] at capacity ⊢
    split
    · omega
    · decide

/-- A closed record stands for no descriptor. -/
theorem detach (related : Related s a) (index : Fin 8) :
    Related (s.setFile index { s.files index with used := false }) (a.setFd index none) := by
  have unsevered : Function.update (fun _ : Fin 8 => false) index false = fun _ => false :=
    Function.update_eq_self index _
  have handles := related.handles.detach index
  rw [unsevered] at handles
  exact related.replace index { s.files index with used := false } nofun handles nofun nofun
    nofun

/-! ### Transfers -/

/-- Reading sectors is invisible. -/
theorem fetch (related : Related s a) (loaded : s.dirLoaded = true) (scratch : Sector)
    {device : Device} (media : Device.SameMedia s.device device) :
    Related { s with scratch, device } a := by
  have table := table_transfer loaded scratch device
  constructor
  · refine ⟨related.synced.sound.transfer loaded scratch device,
      related.synced.reliable.of_fails_eq media.fails, ?_⟩
    rw [table, device_transfer, media.disk]
    exact related.synced.agrees
  · rw [table]
    exact related.handles
  · exact related.single
  · rw [table]
    exact related.names
  · rw [table, device_transfer, media.disk]
    exact related.contents
  · rw [table]
    exact related.fds
  · rw [table]
    exact related.clean
  · exact related.seeks

/-- Bytes stored in an open file are stored in its file of the store, and nowhere
else. -/
theorem store (related : Related s a) {index : Fin 8} (used : (s.files index).used = true)
    (scratch : Sector) {device : Device} {buf : Nat → UInt8} {off n : Nat}
    (fails : device.fails = s.device.fails) (directory : device.disk 1 = s.device.disk 1)
    (room : off + n ≤ (s.files index).cap)
    (cells : ∀ address, cell device.disk address =
      if (s.files index).address off ≤ address ∧ address < (s.files index).address off + n then
        buf (address - (s.files index).address off)
      else
        cell s.device.disk address) :
    Related { s with scratch, device }
      (a.store (s.table (s.files index).dirIndex).nameString fun offset =>
        if off ≤ offset ∧ offset < off + n then
          buf (offset - off)
        else
          (a.file (s.table (s.files index).dirIndex).nameString).data offset) := by
  have loaded := related.synced.sound.loaded used
  have table := table_transfer loaded scratch device
  obtain ⟨live, holds⟩ := related.handles.own index used rfl
  constructor
  · refine ⟨related.synced.sound.transfer loaded scratch device,
      related.synced.reliable.of_fails_eq fails, ?_⟩
    rw [table, device_transfer, directory]
    exact related.synced.agrees
  · rw [table]
    exact related.handles
  · exact related.single
  · rw [table]
    exact related.names
  · intro slot slotLive
    rw [table] at slotLive ⊢
    rw [device_transfer, RefStore.file_store]
    by_cases own : slot = (s.files index).dirIndex
    · -- The file's own bytes: addresses are offsets moved by its first block.
      subst own
      have before := related.contents _ live
      rw [Function.update_self]
      refine ⟨before.cap, before.size, fun offset inside => ?_⟩
      have address : (s.table (s.files index).dirIndex).address offset =
          (s.files index).address offset := by
        rw [Dirent.address, File.address, holds.1]
      simp only [cells, before.data offset inside, address, File.address, Nat.add_assoc,
        Nat.add_le_add_iff_left, Nat.add_lt_add_iff_left, Nat.add_sub_add_left]
    · have apart := (related.handles.foreign used slotLive fun same => own same.2.symm).2
      have other : (s.table slot).nameString ≠
          (s.table (s.files index).dirIndex).nameString :=
        fun same => own (related.slot_eq slotLive live same)
      rw [Function.update_of_ne other]
      apply (related.contents slot slotLive).of_cells
      intro address inside
      rw [cells, if_neg]
      intro written
      refine not_mem_bytes_of_disjoint apart ?_ inside
      rw [File.address, File.address]
      rw [File.address] at written
      exact ⟨by omega, by omega⟩
  · rw [table]
    exact related.fds
  · rw [table]
    exact related.clean
  · exact related.seeks

end Related

end AppPortKit.Bmfs
