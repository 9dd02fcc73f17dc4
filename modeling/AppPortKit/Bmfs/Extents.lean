import AppPortKit.Bmfs.Isolation

/-!
# Reads and reservations

A read is cut off at the size of the open file and nowhere else, so it stays inside
the file's blocks as long as sizes stay within reservations.  Creation, truncation,
removal and writes see to that.  The close of a file that grew stores its size in the
slot the file was opened from, and the entry there may by then be another file's,
with a smaller reservation.
-/

namespace AppPortKit.Bmfs

open Libc SectorStore Transition

/-- Every live entry and every open file has its size within its reservation. -/
structure State.Fits (s : State) : Prop where
  entries : s.table.SizesFit
  files : ∀ index, (s.files index).used = true → (s.files index).Fits

/-- The bytes a read returns lie in the blocks of the open file, and on a drive that
serves every call they are the bytes found there. -/
def ReadsInside (s : State) (call : Call) : Prop :=
  ∀ fd index len, call = .read fd len → openIndex s fd = some index →
    ∀ offset < (fileSystem.reply s call).bytes.length,
      (s.files index).address ((s.files index).pos.toNat + offset) ∈
          Set.Ico ((s.files index).startBlock.toNat * 2097152)
            (((s.files index).startBlock.toNat + (s.files index).reservedBlocks.toNat) * 2097152) ∧
        (s.device.Reliable → (fileSystem.reply s call).bytes[offset]? = some
          (cell s.device.disk ((s.files index).address ((s.files index).pos.toNat + offset))))

/-- A call leaves all sizes within their reservations and reads inside them. -/
def KeepsInside (s : State) (call : Call) : Prop :=
  (fileSystem.next s call).Fits ∧ ReadsInside s call

/-- A close stores a size that fits the entry its slot holds now. -/
def CommitsFit (s : State) : Call → Prop
  | .close fd =>
      ∀ index, openIndex s fd = some index → (s.files index).dirty = true →
        (s.table (s.files index).dirIndex).Live →
          (s.files index).size.toNat ≤
            (s.table (s.files index).dirIndex).reservedBlocks.toNat * 2097152
  | _ => True

instance (s : State) : (call : Call) → Decidable (CommitsFit s call)
  | .close fd =>
      inferInstanceAs (Decidable (∀ index, openIndex s fd = some index →
        (s.files index).dirty = true → (s.table (s.files index).dirIndex).Live →
          (s.files index).size.toNat ≤
            (s.table (s.files index).dirIndex).reservedBlocks.toNat * 2097152))
  | .open _ _ | .read _ _ | .write _ _ _ | .lseek _ _ _ | .fstat _ | .fstatat _ | .unlink _ =>
      isTrue trivial

/-! ## The invariant -/

/-- An entry's size is within its reservation, at addresses below `2 ^ 63`. -/
def Dirent.Contained (entry : Dirent) : Prop :=
  entry.Fits ∧ entry.startBlock.toNat + entry.reservedBlocks.toNat ≤ 4398046511104 ∧
    entry.reservedBlocks.toNat < 4398046511104

/-- The same of an open file. -/
def File.Contained (f : File) : Prop := f.Fits ∧ f.Addressable

/-- A record opened from an entry has the entry's size and blocks. -/
theorem Dirent.Contained.openedFile {entry : Dirent} (contained : entry.Contained)
    (di : Fin 64) (flags : UInt32) : (openedFile entry di flags).Contained := contained

/-- Nothing is open before the directory is loaded, and all sizes are within
reservations. -/
structure Contained (s : State) : Prop where
  idle : s.dirLoaded = false → ∀ index, (s.files index).used = false
  entries : ∀ slot, (s.table slot).Live → (s.table slot).Contained
  files : ∀ index, (s.files index).used = true → (s.files index).Contained

namespace Contained

variable {s : State}

theorem fits (contained : Contained s) : s.Fits :=
  ⟨fun slot live => (contained.entries slot live).1,
    fun index used => (contained.files index used).1⟩

theorem loaded (contained : Contained s) {fd : Int} {index : Fin 8}
    (opened : openIndex s fd = some index) : s.dirLoaded = true := by
  have used := ((openIndex_eq_some_iff _ _ _).mp opened).2
  cases loaded : s.dirLoaded with
  | true => rfl
  | false =>
      rw [contained.idle loaded index] at used
      contradiction

theorem edit (contained : Contained s) (loaded : s.dirLoaded = true) {dir : Dir}
    (entries : ∀ slot, (dir slot).Live → (dir slot).Contained) : Contained (s.edit dir) where
  idle unloaded := by
    rw [dirLoaded_edit, loaded] at unloaded
    contradiction
  entries := by
    rw [table_edit dir loaded]
    exact entries
  files := contained.files

theorem setFile (contained : Contained s) (index : Fin 8) {file : File}
    (usable : file.used = true → s.dirLoaded = true ∧ file.Contained) :
    Contained (s.setFile index file) where
  idle unloaded := by
    rw [files_setFile, Function.forall_update_iff s.files fun _ f => f.used = false]
    refine ⟨?_, fun other _ => contained.idle unloaded other⟩
    rw [← Bool.not_eq_true]
    exact fun used => absurd ((usable used).1.symm.trans unloaded) (by decide)
  entries := by
    rw [table_setFile]
    exact contained.entries
  files := by
    rw [files_setFile, Function.forall_update_iff s.files fun _ f => f.used = true → f.Contained]
    exact ⟨fun used => (usable used).2, fun other _ => contained.files other⟩

theorem transfer (contained : Contained s) (loaded : s.dirLoaded = true) (scratch : Sector)
    (device : Device) : Contained { s with scratch, device } where
  idle := contained.idle
  entries := by
    rw [table_transfer loaded]
    exact contained.entries
  files := contained.files

/-- A change of size that fits its entry. -/
theorem resize (contained : Contained s) (loaded : s.dirLoaded = true) {slot : Fin 64}
    {size : UInt64}
    (fits : (s.table slot).Live → size.toNat ≤ (s.table slot).reservedBlocks.toNat * 2097152) :
    Contained (s.edit (s.dir.resize slot size)) := by
  rw [← table_of_loaded loaded]
  apply contained.edit loaded
  intro other live
  have same := s.table.sameFile_resize slot size other
  have alive := same.live_iff.mp live
  rw [Dirent.Contained, Dirent.Fits, same.startBlock, same.reservedBlocks]
  refine ⟨?_, (contained.entries other alive).2⟩
  by_cases target : other = slot
  · subst target
    rw [Dir.resize, Function.update_self]
    exact fits alive
  · rw [Dir.resize, Function.update_of_ne target]
    exact (contained.entries other alive).1

theorem create {origin : State} (contained : Contained (dirLoad origin))
    (bounded : origin.table.Bounded) (slot : Fin 64) (name : CString) :
    Contained ((dirLoad origin).edit (createEntry origin.table slot name)) := by
  apply contained.edit (dirLoaded_dirLoad origin)
  intro other live
  by_cases same : other = slot
  · subst same
    have start := (createEntry_startBlock bounded other name).2.1
    rw [createEntry_self] at start ⊢
    have oneBlock : defaultBlocks.toNat < 4398046511104 := by decide
    exact ⟨Nat.zero_le _, start, oneBlock⟩
  · rw [createEntry_of_ne name same] at live ⊢
    have entries := contained.entries other
    rw [table_dirLoad] at entries
    exact entries live

/-- Every change but those of a close keeps sizes within reservations. -/
theorem change {origin : State} {call : Call} {before after : State}
    (inRange : InRange origin call) (noClose : ∀ fd, call ≠ .close fd)
    (contained : Contained before) (change : Change origin call before after) :
    Contained after := by
  cases change with
  | load unloaded =>
      refine ⟨?_, ?_, ?_⟩
      · intro still
        rw [dirLoaded_dirLoad] at still
        contradiction
      · rw [table_dirLoad]
        exact contained.entries
      · rw [files_dirLoad]
        exact contained.files
  | edit edit =>
      cases edit with
      | create called asked valid missing free record => exact contained.create inRange.1 _ _
      | truncate called asked loaded found => exact contained.resize loaded fun _ => Nat.zero_le _
      | commit called opened dirty => exact absurd called (noClose _)
      | @remove _ path di called loaded found =>
          apply contained.edit loaded
          intro slot live
          by_cases same : slot = di
          · rw [same, Function.update_self] at live
            exact absurd live Dirent.not_live_zero
          · rw [Function.update_of_ne same, ← table_of_loaded loaded] at live ⊢
            exact contained.entries slot live
  | attach called loaded free found =>
      apply contained.setFile
      intro _
      rw [← table_of_loaded loaded] at found ⊢
      exact ⟨loaded, (contained.entries _ (dirFind_some found).1).openedFile _ _⟩
  | fetch opened media => exact contained.transfer (contained.loaded opened) _ _
  | @store fd buf len index called opened =>
      have used := ((openIndex_eq_some_iff _ _ _).mp opened).2
      have loaded := contained.loaded opened
      have addressable := (contained.files index used).2
      subst called
      have fits := fits_bmfsPwrite addressable (contained.files index used).1 buf
        (before.files index).pos inRange.2
      obtain ⟨scratch, device, file, state, same, -⟩ :=
        bmfsPwrite_state before index buf len (before.files index).pos
      rw [state, files_setFile, Function.update_self] at fits
      rw [state]
      apply (contained.transfer loaded scratch device).setFile
      exact fun _ => ⟨loaded, fits, same.addressable addressable⟩
  | @move fd index pos opened =>
      have used := ((openIndex_eq_some_iff _ _ _).mp opened).2
      apply contained.setFile
      exact fun _ => ⟨contained.loaded opened, contained.files index used⟩
  | detach called opened => exact absurd called (noClose _)

/-- A close keeps them there if the size it stores fits. -/
theorem close {fd : Int} {index : Fin 8} (contained : Contained s)
    (opened : openIndex s fd = some index) (commits : CommitsFit s (.close fd)) :
    Contained (bmfsClose s index).2 := by
  have loaded := contained.loaded opened
  by_cases dirty : (s.files index).dirty = true
  · rw [bmfsClose_of_dirty dirty]
    exact (contained.resize loaded (commits index opened dirty)).setFile index nofun
  · rw [bmfsClose_of_clean dirty]
    exact contained.setFile index nofun

theorem next {call : Call} (contained : Contained s) (inRange : InRange s call)
    (commits : CommitsFit s call) : Contained (fileSystem.next s call) := by
  cases call with
  | close fd =>
      cases opened : openIndex s fd with
      | none =>
          simp only [Machine.next, fileSystem, serve, opened]
          exact contained
      | some index =>
          simp only [Machine.next, fileSystem, serve_close opened, Reply.ofResult]
          exact contained.close opened commits
  | «open» | read | write | lseek | fstat | fstatat | unlink =>
      exact next_of_changes _
        (fun _ _ holds changed => holds.change inRange (fun _ => Call.noConfusion) changed)
        contained

theorem boot {disk : Disk} (fails : Nat → Bool) (bounded : (Dir.decode (disk 1)).Bounded)
    (fits : (Dir.decode (disk 1)).SizesFit) :
    Contained (State.boot disk fails) where
  idle _ _ := rfl
  entries slot live := by
    rcases table_boot disk fails with table | dead
    · rw [table] at live ⊢
      have below := bounded slot live
      exact ⟨fits slot live, Nat.le_of_lt below, by omega⟩
    · exact absurd live (dead slot)
  files _ used := by
    contradiction

/-! ## Reads -/

/-- A read of a contained file returns bytes of its blocks. -/
theorem readsInside {call : Call} (contained : Contained s) (short : call.ShortRead) :
    ReadsInside s call := by
  rintro fd index len rfl opened offset bound
  have used := ((openIndex_eq_some_iff _ _ _).mp opened).2
  obtain ⟨fits, addressable⟩ := contained.files index used
  have small := addressable.cap_le
  have served : (fileSystem.reply s (.read fd len)).bytes =
      (bmfsPread s (s.files index) len (s.files index).pos).2.1 := by
    simp only [Machine.reply, fileSystem, serve_read opened, bmfsRead]
  rw [served] at bound ⊢
  by_cases past : (s.files index).size.toNat ≤ (s.files index).pos.toNat
  · rw [bmfsPread_of_past s len past] at bound
    exact absurd bound (Nat.not_lt_zero _)
  · rw [Nat.not_le] at past
    rw [File.Fits] at fits
    have short : len.toNat < 9223372036854775808 := short
    have count : (bmfsPread s (s.files index) len (s.files index).pos).2.1.length =
        min len.toNat ((s.files index).size.toNat - (s.files index).pos.toNat) := by
      obtain ⟨state, result⟩ := bmfsPread_of_lt s len past
      rw [result, preadLoop_length]
      exact clampLen_toNat past (by omega)
    rw [count] at bound
    refine ⟨?_, fun reliable => ?_⟩
    · rw [File.cap] at fits
      rw [Set.mem_Ico, File.address]
      omega
    · rw [(bmfsPread_of_inside reliable addressable fits short past).2, List.getElem?_map,
        List.getElem?_range bound, Option.map_some, File.address, File.address, Nat.add_assoc]

/-- A step keeps sizes within reservations exactly if what it commits fits. -/
theorem keepsInside_iff {call : Call} (contained : Contained s) (inRange : InRange s call)
    (short : call.ShortRead) : KeepsInside s call ↔ CommitsFit s call := by
  constructor
  · rintro ⟨fits, -⟩
    cases call with
    | close fd =>
        intro index opened dirty live
        have loaded := contained.loaded opened
        -- The entry of the slot has just been given the size in question.
        have table : (fileSystem.next s (.close fd)).table =
            s.table.resize (s.files index).dirIndex (s.files index).size := by
          simp only [Machine.next, fileSystem, serve_close opened, Reply.ofResult]
          rw [bmfsClose_of_dirty dirty, table_setFile, table_edit _ loaded, table_of_loaded loaded]
        have entry := fits.entries (s.files index).dirIndex
        rw [table] at entry
        have same := s.table.sameFile_resize (s.files index).dirIndex (s.files index).size
          (s.files index).dirIndex
        have stored := entry (same.live_iff.mpr live)
        rw [Dirent.Fits, same.reservedBlocks, Dir.resize, Function.update_self] at stored
        exact stored
    | «open» | read | write | lseek | fstat | fstatat | unlink => trivial
  · intro commits
    exact ⟨(contained.next inRange commits).fits, contained.readsInside short⟩

end Contained

/-- From any drive whose live entries have sizes within their reservations, and
whatever device calls fail, a run keeps all sizes within reservations and reads inside
the blocks of open files exactly if every close that stores a size stores one that
fits the entry its slot then holds. -/
theorem reads_inside_iff_commits_fit (disk : Disk) (fails : Nat → Bool) (calls : List Call)
    (bounded : (Dir.decode (disk 1)).Bounded)
    (fits : (Dir.decode (disk 1)).SizesFit)
    (inRange : fileSystem.Along (fun s call => InRange s call ∧ call.ShortRead)
      (State.boot disk fails) calls) :
    fileSystem.Along KeepsInside (State.boot disk fails) calls ↔
      fileSystem.Along CommitsFit (State.boot disk fails) calls := by
  have agree : ∀ s call, Contained s → InRange s call ∧ call.ShortRead →
      (KeepsInside s call ↔ CommitsFit s call) :=
    fun _ _ contained guard => contained.keepsInside_iff guard.1 guard.2
  apply Machine.along_iff_of_invariant agree _ (Contained.boot fails bounded fits) inRange
  intro s call contained guard keeps
  exact contained.next guard.1 ((agree s call contained guard).mp keeps)

/-- A volume with the file `a` of three million bytes in two blocks. -/
def twoBlockDisk : Disk :=
  Function.update blankDisk 1 (Dir.encode (Dir.single
    { namedEntry nameA with startBlock := 1, reservedBlocks := 2, size := 3000000 }))

/-- Grow a file of two blocks, remove it while it is open, and create another one. -/
def replaceGrown : List Call :=
  [.open nameA oAppend, .write 3 (fun _ => 7) 1, .unlink nameA, .open nameB oCreat]

/-- The new file has one block and the slot of the removed one, whose close then
makes it larger than that. -/
theorem closeAfterReplace_exceeds :
    (Dir.decode (twoBlockDisk 1)).SizesFit ∧
      fileSystem.Along (fun s call => InRange s call ∧ call.ShortRead)
        (State.boot twoBlockDisk fun _ => false) (replaceGrown ++ [.close 3]) ∧
      ¬fileSystem.Along KeepsInside (State.boot twoBlockDisk fun _ => false)
        (replaceGrown ++ [.close 3]) := by
  refine ⟨by decide +kernel, by decide +kernel, fun along => ?_⟩
  have fits := ((fileSystem.along_append KeepsInside _ _ _).mp along).2.1.1
  have exceeds : ¬(fileSystem.run (State.boot twoBlockDisk fun _ => false)
      (replaceGrown ++ [.close 3])).table.SizesFit := by
    decide +kernel
  rw [fileSystem.run_append] at exceeds
  exact exceeds fits.entries

/-- With the file closed before it is removed, every size fits and the new file is
read inside its block. -/
theorem closeBeforeReplace_keepsInside :
    fileSystem.Along KeepsInside (State.boot twoBlockDisk fun _ => false)
      [.open nameA oAppend, .write 3 (fun _ => 7) 1, .close 3, .unlink nameA,
        .open nameB oCreat, .write 3 (fun _ => 5) 2, .lseek 3 0 0, .read 3 10] :=
  (reads_inside_iff_commits_fit twoBlockDisk (fun _ => false) _ (by decide +kernel)
    (by decide +kernel) (by decide +kernel)).mpr (by decide +kernel)

end AppPortKit.Bmfs
