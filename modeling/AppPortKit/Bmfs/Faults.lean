import AppPortKit.Bmfs.CrashPoints

/-!
# Failing drives

Neither the load of the directory nor its flush looks at the number of sectors
the drive reports.  A flush that fails leaves the older directory in place, which
does no harm to the entries in it.  A load that fails is different: the table in
memory stays as it was, empty after a start, and is marked as loaded, so the next
edit flushes a directory without any of the files.  If the one load succeeds, no
pattern of later failures loses an entry.
-/

namespace AppPortKit.Bmfs

open Libc SectorStore Transition

theorem Dirent.SameFile.trans {first second third : Dirent} (left : SameFile first second)
    (right : SameFile second third) : SameFile first third :=
  ⟨right.name.trans left.name, right.startBlock.trans left.startBlock,
    right.reservedBlocks.trans left.reservedBlocks⟩

/-- A call does not remove a file of the name in an entry. -/
def Call.Spares (entry : Dirent) : Call → Prop
  | .unlink path => strncmp entry.nameChar (bmfsName path).char 32 ≠ 0
  | _ => True

instance (entry : Dirent) : (call : Call) → Decidable (call.Spares entry)
  | .unlink path =>
      inferInstanceAs (Decidable (strncmp entry.nameChar (bmfsName path).char 32 ≠ 0))
  | .open _ _ | .read _ _ | .write _ _ _ | .lseek _ _ _ | .close _ | .fstat _ | .fstatat _ =>
      isTrue trivial

/-- An edit on behalf of a call that spares a live entry leaves the entry's file in
its slot. -/
theorem Edit.spared {origin s : State} {call : Call} {dir : Dir} {entry : Dirent}
    {slot : Fin 64} (edit : Edit origin call s dir) (spares : call.Spares entry)
    (live : entry.Live) (kept : Dirent.SameFile entry (s.dir slot)) :
    Dirent.SameFile entry (dir slot) := by
  cases edit with
  | @create path flags target called asked valid missing free record =>
      have taken : slot ≠ target := by
        intro same
        subst same
        exact dirFindFreeSlot_some free (kept.live_iff.mpr live)
      rw [createEntry_of_ne _ taken]
      exact kept
  | truncate called asked loaded found => exact kept.trans (s.dir.sameFile_resize _ 0 slot)
  | commit called opened dirty => exact kept.trans (s.dir.sameFile_resize _ _ slot)
  | @remove _ path di called loaded found =>
      have other : slot ≠ di := by
        intro same
        subst same
        have matched := (dirFind_some found).2
        subst called
        rw [kept.nameChar] at matched
        exact spares matched
      rw [Function.update_of_ne other]
      exact kept

/-- The file of an entry stands in its slot, in memory and on the drive. -/
structure Retained (entry : Dirent) (slot : Fin 64) (s : State) : Prop where
  sound : Sound s
  inMemory : Dirent.SameFile entry (s.table slot)
  onDrive : Dirent.SameFile entry (Dir.decode (s.device.disk 1) slot)

namespace Retained

variable {entry : Dirent} {slot : Fin 64}

/-- No change loses the file, whether or not the drive performs it. -/
theorem change {origin : State} {call : Call} {before after : State}
    (inRange : InRange origin call) (spares : call.Spares entry) (live : entry.Live)
    (retained : Retained entry slot before) (change : Change origin call before after) :
    Retained entry slot after := by
  have sound := retained.sound.change inRange.1 change
  cases change.effect retained.sound inRange.2 with
  | quiet table media =>
      refine ⟨sound, ?_, ?_⟩
      · rw [table]
        exact retained.inMemory
      · rw [media.disk]
        exact retained.onDrive
  | @edit dir loaded edit =>
      have kept : Dirent.SameFile entry (dir slot) := by
        apply edit.spared spares live
        rw [← table_of_loaded loaded]
        exact retained.inMemory
      refine ⟨sound, ?_, ?_⟩
      · rw [table_edit dir loaded]
        exact kept
      · rcases edit_cases before dir with failed | written
        · rw [failed.disk, replay_nil]
          exact retained.onDrive
        · rw [written.disk, replay_singleton, Function.update_self, Dir.decode_encode]
          exact kept
  | store table wrote data =>
      refine ⟨sound, ?_, ?_⟩
      · rw [table]
        exact retained.inMemory
      · rw [wrote.disk_of_data data (by omega)]
        exact retained.onDrive

theorem next {s : State} {call : Call} (live : entry.Live) (retained : Retained entry slot s)
    (guard : InRange s call ∧ call.Spares entry) :
    Retained entry slot (fileSystem.next s call) :=
  next_of_changes _ (fun _ _ holds changed => holds.change guard.1 guard.2 live changed) retained

/-- At the start the drive's directory is what the load will deliver. -/
theorem boot {disk : Disk} {fails : Nat → Bool}
    (placed : ∀ slot, (Dir.decode (disk 1) slot).Live → (Dir.decode (disk 1) slot).Placed)
    (loads : fails 0 = false) (slot : Fin 64) :
    Retained (Dir.decode (disk 1) slot) slot (State.boot disk fails) where
  sound := .boot fails placed
  inMemory := by
    have table : (State.boot disk fails).table = Dir.decode (disk 1) := by
      simp [State.table, dirLoad, State.boot, Device.nvsRead, loads]
    rw [table]
    exact .refl _
  onDrive := .refl _

end Retained

/-- If the first sector read, which loads the directory, succeeds, then under every
pattern of later failures each entry that no call removes by name keeps its name
and its blocks on the drive. -/
theorem entries_survive_if_loaded (disk : Disk) (fails : Nat → Bool) (calls : List Call)
    (positive : ∀ slot, (Dir.decode (disk 1) slot).Live →
      1 ≤ (Dir.decode (disk 1) slot).startBlock.toNat)
    (bounded : (Dir.decode (disk 1)).Bounded)
    (inRange : fileSystem.Along InRange (State.boot disk fails) calls)
    (loads : fails 0 = false) (slot : Fin 64) (live : (Dir.decode (disk 1) slot).Live)
    (spared : ∀ call ∈ calls, call.Spares (Dir.decode (disk 1) slot)) :
    Dirent.SameFile (Dir.decode (disk 1) slot)
      (Dir.decode ((fileSystem.run (State.boot disk fails) calls).device.disk 1) slot) := by
  have placed : ∀ slot, (Dir.decode (disk 1) slot).Live →
      (Dir.decode (disk 1) slot).Placed :=
    fun slot live => ⟨positive slot live, Nat.le_of_lt (bounded slot live)⟩
  have guarded := inRange.and_of_forall_mem spared
  exact (Machine.run_invariant (fun _ _ => Retained.next live)
    (Retained.boot placed loads slot) guarded).onDrive

/-- A volume with the file `a` of five bytes in the first slot. -/
def oneFileDisk : Disk :=
  Function.update blankDisk 1 (Dir.encode (Dir.single
    { namedEntry nameA with startBlock := 1, reservedBlocks := 1, size := 5 }))

/-- The read of the directory fails, and creating `b` then flushes a directory that
holds nothing else. -/
theorem failedLoad_destroys_entry :
    (Dir.decode (oneFileDisk 1) 0).Live ∧
      fileSystem.Along InRange (State.boot oneFileDisk fun call => call == 0)
        [.open nameB oCreat] ∧
      (∀ call ∈ [Call.open nameB oCreat], call.Spares (Dir.decode (oneFileDisk 1) 0)) ∧
      ∀ slot, ¬Dirent.SameFile (Dir.decode (oneFileDisk 1) 0)
        (Dir.decode ((fileSystem.run (State.boot oneFileDisk fun call => call == 0)
          [.open nameB oCreat]).device.disk 1) slot) := by
  have lost : ∀ slot, (Dir.decode ((fileSystem.run
      (State.boot oneFileDisk fun call => call == 0)
      [.open nameB oCreat]).device.disk 1) slot).name 0 ≠
        (Dir.decode (oneFileDisk 1) 0).name 0 := by
    decide +kernel
  refine ⟨by decide +kernel, by decide +kernel, by decide +kernel, ?_⟩
  intro slot same
  exact lost slot (congrFun same.name 0)

/-- With the load served and every later call failing, the entry stays. -/
theorem failedFlush_keeps_entry :
    Dirent.SameFile (Dir.decode (oneFileDisk 1) 0)
      (Dir.decode ((fileSystem.run (State.boot oneFileDisk fun call => call != 0)
        [.open nameB oCreat]).device.disk 1) 0) :=
  entries_survive_if_loaded oneFileDisk (fun call => call != 0) [.open nameB oCreat]
    (by decide +kernel) (by decide +kernel) (by decide +kernel) (by decide) 0
    (by decide +kernel) (by decide +kernel)

end AppPortKit.Bmfs
