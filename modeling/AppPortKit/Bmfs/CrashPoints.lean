import AppPortKit.Bmfs.Invariant

/-!
# The drive between two sector writes

The drive performs sector writes one at a time, and the machine may stop between
any two of them.  What it finds at the next start is the initial contents with a
prefix of the log applied.  The directory in every such state is well formed: the
only writes of its sector are flushes, each of them of a table that every edit so
far has kept well formed.
-/

namespace AppPortKit.Bmfs

open Libc SectorStore Transition

/-- Edits keep the directory well formed. -/
theorem Edit.wellFormed {origin s : State} {call : Call} {dir : Dir}
    (edit : Edit origin call s dir) (bounded : origin.table.Bounded)
    (wellFormed : s.dir.WellFormed) : dir.WellFormed := by
  cases edit with
  | create called asked valid missing =>
      exact wellFormed.createEntry bounded valid missing _
  | truncate called asked loaded found =>
      exact wellFormed.of_kept fun slot _ => s.dir.sameFile_resize _ 0 slot
  | commit called opened dirty =>
      exact wellFormed.of_kept fun slot _ => s.dir.sameFile_resize _ _ slot
  | @remove _ path di called loaded found =>
      apply wellFormed.of_kept
      intro slot live
      by_cases same : slot = di
      · rw [same, Function.update_self] at live
        exact absurd live Dirent.not_live_zero
      · rw [Function.update_of_ne same]
        exact .refl _

/-- A write of the log spares the superblock, and leaves a well-formed directory
if it is the directory's sector. -/
def Orderly (write : Nat × Sector) : Prop :=
  write.1 ≠ 0 ∧ (write.1 = 1 → (Dir.decode write.2).WellFormed)

/-- The state of a drive that started from `disk` and has only performed orderly
writes. -/
structure Journaled (disk : Disk) (s : State) : Prop where
  synced : Synced s
  wellFormed : s.table.WellFormed
  replayed : s.device.disk = replay disk s.device.log
  orderly : ∀ write ∈ s.device.log, Orderly write

namespace Journaled

variable {disk : Disk}

/-- The log after further writes. -/
theorem extend {before : State} (journaled : Journaled disk before) {after : State}
    {writes : List (Nat × Sector)} (synced : Synced after)
    (wellFormed : after.table.WellFormed)
    (wrote : Device.Wrote before.device after.device writes)
    (orderly : ∀ write ∈ writes, Orderly write) : Journaled disk after where
  synced := synced
  wellFormed := wellFormed
  replayed := by
    rw [wrote.disk, wrote.log, replay_append, journaled.replayed]
  orderly := by
    intro write membership
    rw [wrote.log, List.mem_append] at membership
    rcases membership with earlier | later
    · exact journaled.orderly write earlier
    · exact orderly write later

theorem change {origin : State} {call : Call} {before after : State}
    (inRange : InRange origin call) (journaled : Journaled disk before)
    (change : Change origin call before after) : Journaled disk after := by
  have synced := journaled.synced.change inRange change
  cases change.effect journaled.synced.sound inRange.2 with
  | quiet table media =>
      exact journaled.extend synced (by rw [table]; exact journaled.wellFormed) media.wrote
        (by simp)
  | @edit dir loaded edit =>
      have wellFormed : dir.WellFormed := by
        apply edit.wellFormed inRange.1
        rw [← table_of_loaded loaded]
        exact journaled.wellFormed
      apply journaled.extend synced
      · rw [table_edit dir loaded]
        exact wellFormed
      · exact edit_wrote dir journaled.synced.reliable
      · intro write membership
        rw [List.mem_singleton] at membership
        subst membership
        refine ⟨by simp, fun _ => ?_⟩
        rw [Dir.decode_encode]
        exact wellFormed
  | store table wrote data =>
      apply journaled.extend synced (by rw [table]; exact journaled.wellFormed) wrote
      intro write membership
      have := data write membership
      exact ⟨by omega, fun directory => absurd directory (by omega)⟩

theorem next {s : State} {call : Call} (journaled : Journaled disk s)
    (inRange : InRange s call) : Journaled disk (fileSystem.next s call) :=
  next_of_changes _ (fun _ _ holds changed => holds.change inRange changed) journaled

/-- Any prefix of an orderly log leaves the superblock alone and a well-formed
directory behind. -/
theorem directory_of_take {s : State} (journaled : Journaled disk s)
    (wellFormed : (Dir.decode (disk 1)).WellFormed) (count : Nat) :
    (Dir.decode (replay disk (s.device.log.take count) 1)).WellFormed := by
  rcases replay_cases disk (s.device.log.take count) 1 with
    untouched | ⟨write, membership, number, contents⟩
  · rw [untouched]
    exact wellFormed
  · rw [contents]
    exact (journaled.orderly write (List.mem_of_mem_take membership)).2 number

end Journaled

theorem Dir.WellFormed.placed {dir : Dir} (wellFormed : dir.WellFormed)
    (bounded : dir.Bounded) (slot : Fin 64) (live : (dir slot).Live) : (dir slot).Placed :=
  ⟨wellFormed.positive slot live, Nat.le_of_lt (bounded slot live)⟩

theorem Journaled.boot {disk : Disk} (wellFormed : (Dir.decode (disk 1)).WellFormed)
    (bounded : (Dir.decode (disk 1)).Bounded) :
    Journaled disk (State.boot disk fun _ => false) where
  synced := .boot (wellFormed.placed bounded)
  wellFormed := by
    rw [(Synced.boot (wellFormed.placed bounded)).agrees]
    exact wellFormed
  replayed := rfl
  orderly := by simp [State.boot]

/-- Whatever prefix of its sector writes a run gets to perform, the directory on
the drive is well formed and the superblock has not been written. -/
theorem directory_wellFormed_at_crash (disk : Disk) (calls : List Call)
    (wellFormed : (Dir.decode (disk 1)).WellFormed) (bounded : (Dir.decode (disk 1)).Bounded)
    (inRange : fileSystem.Along InRange (State.boot disk fun _ => false) calls) :
    let device := (fileSystem.run (State.boot disk fun _ => false) calls).device
    device.disk = replay disk device.log ∧
      ∀ count, (Dir.decode (replay disk (device.log.take count) 1)).WellFormed ∧
        ∀ write ∈ device.log.take count, write.1 ≠ 0 := by
  intro device
  have journaled := Machine.run_invariant (fun _ _ => Journaled.next)
    (Journaled.boot wellFormed bounded) inRange
  refine ⟨journaled.replayed, fun count => ⟨journaled.directory_of_take wellFormed count, ?_⟩⟩
  intro write membership
  exact (journaled.orderly write (List.mem_of_mem_take membership)).1

/-- A volume without files. -/
def blankDisk : Disk := fun _ _ => 0

theorem blankDisk_dead (slot : Fin 64) : ¬(Dir.decode (blankDisk 1) slot).Live := by
  simp [Dirent.Live, Dir.decode, Dirent.decode, blankDisk]

theorem blankDisk_wellFormed : (Dir.decode (blankDisk 1)).WellFormed where
  terminated slot live := absurd live (blankDisk_dead slot)
  noSlash slot live := absurd live (blankDisk_dead slot)
  distinct slot _ live := absurd live (blankDisk_dead slot)
  positive slot live := absurd live (blankDisk_dead slot)
  apart slot _ live := absurd live (blankDisk_dead slot)

theorem blankDisk_bounded : (Dir.decode (blankDisk 1)).Bounded :=
  fun slot live => absurd live (blankDisk_dead slot)

/-- The file names `a` and `b`. -/
def nameA : CString := ⟨[97], by decide⟩

@[inherit_doc nameA] def nameB : CString := ⟨[98], by decide⟩

/-- Create a file, write two bytes, remove it while it is open, and close it. -/
def unlinkWhileOpen : List Call :=
  [.open nameA oCreat, .write 3 (fun _ => 7) 2, .unlink nameA, .close 3]

theorem unlinkWhileOpen_wellFormed_at_crash :
    (fileSystem.run (State.boot blankDisk fun _ => false)
      unlinkWhileOpen).device.log.length = 4 ∧
    ∀ count, (Dir.decode (replay blankDisk
      ((fileSystem.run (State.boot blankDisk fun _ => false)
        unlinkWhileOpen).device.log.take count) 1)).WellFormed := by
  refine ⟨by decide +kernel, fun count => ?_⟩
  have result := directory_wellFormed_at_crash blankDisk unlinkWhileOpen
    blankDisk_wellFormed blankDisk_bounded (by decide +kernel)
  exact (result.2 count).1

end AppPortKit.Bmfs
