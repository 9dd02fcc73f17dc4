import AppPortKit.Bmfs.Handles

/-!
# Isolation of files

A tracked state records, besides the file system, which descriptors are severed:
open on a file that has been removed since.  A severed descriptor belongs to no
live file, any other one to the file in its slot.  Operations on a descriptor
leave all other live files alone as long as no file is created in a slot or in
blocks that a descriptor still names.
-/

namespace AppPortKit.Bmfs

open Libc SectorStore Transition

/-- The file system with the descriptors whose files have been removed. -/
structure Tracked where
  fs : State
  severed : Fin 8 → Bool

namespace Tracked

def boot (disk : Disk) : Tracked :=
  { fs := State.boot disk fun _ => false, severed := fun _ => false }

/-- A removal severs the descriptors open on the slot it clears; a close forgets
its descriptor. -/
def track (t : Tracked) : Call → Fin 8 → Bool
  | .close fd =>
      match openIndex t.fs fd with
      | none => t.severed
      | some index => Function.update t.severed index false
  | .unlink path =>
      match dirFind t.fs.table (bmfsName path) with
      | none => t.severed
      | some di => Handles.sever t.fs.files t.severed di
  | _ => t.severed

end Tracked

/-- The file system as a machine over calls, with its severed descriptors. -/
def tracked : Machine Tracked Call Reply where
  step t call := ((serve t.fs call).1, { fs := (serve t.fs call).2, severed := t.track call })

/-- A live entry of another file than the one a descriptor was opened for. -/
def Foreign (t : Tracked) (index : Fin 8) (slot : Fin 64) : Prop :=
  (t.fs.table slot).Live ∧
    ¬(t.severed index = false ∧ (t.fs.files index).dirIndex = slot)

/-- An entry, in memory and on the drive, and the bytes of its file are the same in
two states. -/
def Untouched (before after : State) (slot : Fin 64) : Prop :=
  after.table slot = before.table slot ∧
    Dir.decode (after.device.disk 1) slot = Dir.decode (before.device.disk 1) slot ∧
    ∀ address ∈ (before.table slot).bytes,
      cell after.device.disk address = cell before.device.disk address

/-- The state over a drive with other contents. -/
def State.onDisk (s : State) (disk : Disk) : State :=
  { s with device := { s.device with disk } }

/-- A call on a descriptor touches no foreign file: a write or a close leaves it
untouched, and a read answers the same whatever its bytes are. -/
def Isolates (t : Tracked) (call : Call) : Prop :=
  ∀ fd index slot, openIndex t.fs fd = some index → Foreign t index slot →
    (call = .close fd ∨ (∃ buf len, call = .write fd buf len) →
      Untouched t.fs (tracked.next t call).fs slot) ∧
    (∀ len, call = .read fd len → ∀ disk : Disk,
      (∀ address, address ∉ (t.fs.table slot).bytes →
        cell disk address = cell t.fs.device.disk address) →
      (serve (t.fs.onDisk disk) call).1 = (serve t.fs call).1)

/-- Reads are shorter than `2 ^ 63` bytes. -/
def Call.ShortRead : Call → Prop
  | .read _ len => len.toNat < 9223372036854775808
  | _ => True

instance : (call : Call) → Decidable call.ShortRead
  | .read _ len => inferInstanceAs (Decidable (len.toNat < 9223372036854775808))
  | .open _ _ | .write _ _ _ | .lseek _ _ _ | .close _ | .fstat _ | .fstatat _ | .unlink _ =>
      isTrue trivial

/-- What isolation asks of a step: numbers in range, and no creation over the slot
or the blocks of an open file. -/
def KeepsClear (t : Tracked) (call : Call) : Prop :=
  InRange t.fs call ∧ call.ShortRead ∧ AvoidsOpenFiles t.fs call

instance (t : Tracked) (call : Call) : Decidable (KeepsClear t call) :=
  inferInstanceAs (Decidable (_ ∧ _ ∧ _))

/-! ## The invariant -/

/-- Memory and drive agree, and descriptors keep clear of files not their own. -/
structure Apart (t : Tracked) : Prop where
  synced : Synced t.fs
  handles : Handles t.fs.table t.fs.files t.severed

namespace Apart

variable {t : Tracked}

theorem boot {disk : Disk} (wellFormed : (Dir.decode (disk 1)).WellFormed)
    (bounded : (Dir.decode (disk 1)).Bounded)
    (fits : (Dir.decode (disk 1)).SizesFit) :
    Apart (Tracked.boot disk) := by
  have synced := Synced.boot (wellFormed.placed bounded)
  refine ⟨synced, ?_⟩
  have table : (Tracked.boot disk).fs.table = Dir.decode (disk 1) := synced.agrees
  rw [table]
  constructor
  · exact wellFormed
  · exact fits
  · intro index used
    contradiction
  · intro index unused
    rfl
  · intro index used
    contradiction
  · intro index slot used
    contradiction

theorem synced_next {call : Call} (apart : Apart t) (inRange : InRange t.fs call) :
    Synced (tracked.next t call).fs :=
  apart.synced.next inRange

/-- Closing records the size in the file's own slot, or in a cleared one. -/
theorem handles_close (apart : Apart t) {fd : Int} {index : Fin 8}
    (opened : openIndex t.fs fd = some index) :
    Handles (bmfsClose t.fs index).2.table (bmfsClose t.fs index).2.files
      (Function.update t.severed index false) := by
  have used := ((openIndex_eq_some_iff _ _ _).mp opened).2
  have loaded := apart.synced.sound.loaded used
  by_cases dirty : (t.fs.files index).dirty = true
  · rw [bmfsClose_of_dirty dirty, table_setFile, files_setFile, table_edit _ loaded, files_edit,
      ← table_of_loaded loaded]
    exact (apart.handles.resize (apart.handles.fits_of_used used)).detach index
  · rw [bmfsClose_of_clean dirty, table_setFile, files_setFile]
    exact apart.handles.detach index

theorem handles_unlink (apart : Apart t) (path : CString) :
    Handles (bmfsUnlink t.fs path).2.table (bmfsUnlink t.fs path).2.files
      (t.track (.unlink path)) := by
  cases found : dirFind t.fs.table (bmfsName path) with
  | none =>
      simp only [Tracked.track, found]
      rw [bmfsUnlink_of_missing found, table_dirLoad, files_dirLoad]
      exact apart.handles
  | some di =>
      simp only [Tracked.track, found]
      rw [bmfsUnlink_of_found found, table_edit _ (dirLoaded_dirLoad t.fs), files_edit,
        files_dirLoad]
      exact apart.handles.remove di

/-- Every step that keeps clear keeps the descriptors apart. -/
theorem next {call : Call} (apart : Apart t) (clear : KeepsClear t call) :
    Apart (tracked.next t call) := by
  obtain ⟨inRange, -, avoids⟩ := clear
  refine ⟨apart.synced_next inRange, ?_⟩
  -- Calls that sever nothing are followed change by change.
  have quiet : (∀ fd, call ≠ .close fd) → (∀ path, call ≠ .unlink path) →
      Handles (fileSystem.next t.fs call).table (fileSystem.next t.fs call).files t.severed := by
    intro noClose noUnlink
    have both : Synced (fileSystem.next t.fs call) ∧
        Handles (fileSystem.next t.fs call).table (fileSystem.next t.fs call).files
          t.severed := by
      apply next_of_changes fun s => Synced s ∧ Handles s.table s.files t.severed
      case holds => exact ⟨apart.synced, apart.handles⟩
      intro before after holds changed
      exact ⟨holds.1.change inRange changed,
        holds.2.change inRange avoids noClose noUnlink holds.1.sound changed⟩
    exact both.2
  cases call with
  | close fd =>
      cases opened : openIndex t.fs fd with
      | none =>
          simp only [Machine.next, tracked, serve, Tracked.track, opened]
          exact apart.handles
      | some index =>
          simp only [Machine.next, tracked, serve, Tracked.track, opened, Reply.ofResult]
          exact apart.handles_close opened
  | unlink path => exact apart.handles_unlink path
  | «open» | read | write | lseek | fstat | fstatat =>
      exact quiet (fun _ => Call.noConfusion) (fun _ => Call.noConfusion)

end Apart

/-! ## Isolation of one step -/

namespace Apart

variable {t : Tracked} {index : Fin 8} {slot : Fin 64}

/-- The entry on the drive follows the one in memory. -/
theorem untouched {call : Call} (apart : Apart t) (inRange : InRange t.fs call)
    (table : (tracked.next t call).fs.table slot = t.fs.table slot)
    (bytes : ∀ address ∈ (t.fs.table slot).bytes,
      cell (tracked.next t call).fs.device.disk address = cell t.fs.device.disk address) :
    Untouched t.fs (tracked.next t call).fs slot := by
  refine ⟨table, ?_, bytes⟩
  rw [← (apart.synced_next inRange).agrees, ← apart.synced.agrees, table]

theorem write_untouched {fd : Int} {buf : Nat → UInt8} {len : UInt64} (apart : Apart t)
    (inRange : InRange t.fs (.write fd buf len)) (opened : openIndex t.fs fd = some index)
    (foreign : Foreign t index slot) :
    Untouched t.fs (tracked.next t (.write fd buf len)).fs slot := by
  have used := ((openIndex_eq_some_iff _ _ _).mp opened).2
  have sound := apart.synced.sound
  have after : (tracked.next t (.write fd buf len)).fs = (bmfsWrite t.fs index buf len).2 := by
    simp only [Machine.next, tracked, serve, opened, Reply.ofResult]
  apply apart.untouched inRange
  · obtain ⟨scratch, device, file, state, -⟩ := bmfsWrite_state t.fs index buf len
    rw [after, state, table_setFile, table_transfer (sound.loaded used)]
  · intro address inside
    obtain ⟨writes, wrote, within⟩ :=
      bmfsWrite_wrote (sound.opened index used).addressable buf inRange.2
    rw [after]
    exact cell_of_disjoint wrote within
      (apart.handles.foreign used foreign.1 foreign.2).2 inside

theorem close_untouched {fd : Int} (apart : Apart t) (inRange : InRange t.fs (.close fd))
    (opened : openIndex t.fs fd = some index) (foreign : Foreign t index slot) :
    Untouched t.fs (tracked.next t (.close fd)).fs slot := by
  have used := ((openIndex_eq_some_iff _ _ _).mp opened).2
  have loaded := apart.synced.sound.loaded used
  have other := (apart.handles.foreign used foreign.1 foreign.2).1
  have after : (tracked.next t (.close fd)).fs = (bmfsClose t.fs index).2 := by
    simp only [Machine.next, tracked, serve, opened, Reply.ofResult]
  by_cases dirty : (t.fs.files index).dirty = true
  · apply apart.untouched inRange
    · rw [after, bmfsClose_of_dirty dirty, table_setFile, table_edit _ loaded,
        table_of_loaded loaded, Dir.resize, Function.update_of_ne other.symm]
    · intro address inside
      rw [after, bmfsClose_of_dirty dirty, device_setFile]
      exact cell_of_edit apart.synced.reliable _
        (apart.synced.sound.entries slot foreign.1) inside
  · apply apart.untouched inRange
    · rw [after, bmfsClose_of_clean dirty, table_setFile]
    · intro address inside
      rw [after, bmfsClose_of_clean dirty, device_setFile]

theorem read_reply {fd : Int} {len : UInt64} (apart : Apart t)
    (short : len.toNat < 9223372036854775808) (opened : openIndex t.fs fd = some index)
    (foreign : Foreign t index slot) (disk : Disk)
    (agree : ∀ address, address ∉ (t.fs.table slot).bytes →
      cell disk address = cell t.fs.device.disk address) :
    (serve (t.fs.onDisk disk) (.read fd len)).1 = (serve t.fs (.read fd len)).1 := by
  have used := ((openIndex_eq_some_iff _ _ _).mp opened).2
  have placed := apart.synced.sound.opened index used
  have fits := apart.handles.filesFit index used
  have disjoint := (apart.handles.foreign used foreign.1 foreign.2).2
  have reopened : openIndex (t.fs.onDisk disk) fd = some index := opened
  have reliable : (t.fs.onDisk disk).device.Reliable := apart.synced.reliable
  have same := bmfsPread_congr apart.synced.reliable reliable placed fits
    (t.fs.files index).pos short
    fun address inside => agree address (not_mem_bytes_of_disjoint disjoint inside)
  simp only [serve, opened, reopened, bmfsRead]
  rw [← same.1, ← same.2]
  rfl

/-- A step that keeps clear isolates files from one another. -/
theorem isolates {call : Call} (apart : Apart t) (clear : KeepsClear t call) :
    Isolates t call := by
  obtain ⟨inRange, shortRead, -⟩ := clear
  intro fd index slot opened foreign
  refine ⟨?_, ?_⟩
  · rintro (rfl | ⟨buf, len, rfl⟩)
    · exact apart.close_untouched inRange opened foreign
    · exact apart.write_untouched inRange opened foreign
  · rintro len rfl disk agree
    exact apart.read_reply shortRead opened foreign disk agree

end Apart

/-- In a run in which no file is created over a slot or blocks that an open file
still names, every operation on a descriptor leaves all other live files alone. -/
theorem files_isolated_if_clear (disk : Disk) (calls : List Call)
    (wellFormed : (Dir.decode (disk 1)).WellFormed) (bounded : (Dir.decode (disk 1)).Bounded)
    (fits : (Dir.decode (disk 1)).SizesFit)
    (clear : tracked.Along KeepsClear (Tracked.boot disk) calls) :
    tracked.Along Isolates (Tracked.boot disk) calls :=
  Machine.along_of_invariant (fun _ _ => Apart.next) (fun _ _ => Apart.isolates)
    (Apart.boot wellFormed bounded fits) clear

/-- Remove a file while it is open and create another one. -/
def reuse : List Call := [.open nameA oCreat, .unlink nameA, .open nameB oCreat]

/-- The new file is given the slot and the block of the removed one, so a write
through the old descriptor lands in it. -/
theorem writeAfterReuse_not_isolated :
    ¬tracked.Along Isolates (Tracked.boot blankDisk)
      (reuse ++ [.write 3 (fun _ => 7) 1]) := by
  intro along
  have isolates := ((tracked.along_append Isolates _ _ _).mp along).2.1
  have untouched := (isolates 3 0 0 (by decide +kernel)
    ⟨by decide +kernel, by decide +kernel⟩).1 (.inr ⟨_, _, rfl⟩)
  have landed : cell (tracked.next (tracked.run (Tracked.boot blankDisk) reuse)
      (.write 3 (fun _ => 7) 1)).fs.device.disk 2097152 ≠
      cell (tracked.run (Tracked.boot blankDisk) reuse).fs.device.disk 2097152 := by
    decide +kernel
  exact landed (untouched.2.2 2097152 (Set.mem_Ico.mpr (by decide +kernel)))

/-- With the second file created first, the removed one's descriptor stays clear
of it. -/
theorem writeAfterUnlink_isolated :
    tracked.Along Isolates (Tracked.boot blankDisk)
      [.open nameA oCreat, .open nameB oCreat, .unlink nameA, .write 3 (fun _ => 7) 1,
        .read 4 1, .close 3] :=
  files_isolated_if_clear blankDisk _ blankDisk_wellFormed blankDisk_bounded
    (fun slot live => absurd live (blankDisk_dead slot)) (by decide +kernel)

end AppPortKit.Bmfs
