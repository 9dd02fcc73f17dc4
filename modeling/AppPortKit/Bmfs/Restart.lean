import AppPortKit.Bmfs.CrashPoints
import AppPortKit.Bmfs.Lockstep

/-!
# Starting again

A start of the image over the drive as it is forgets the open files and the cached
directory.  The cache always agrees with the drive, so if nothing is open the start
cannot be told from carrying on.
-/

namespace AppPortKit.Bmfs

open Libc Transition

/-- The image started over the same drive, with nothing open and no directory
loaded. -/
def State.restart (s : State) : State := State.boot s.device.disk s.device.fails

/-- With nothing open, a start leaves everything a call looks at as it was. -/
theorem Synced.restart {s : State} (synced : Synced s)
    (closed : ∀ index, (s.files index).used = false) :
    Alike (fun disk disk' => disk' = disk) s s.restart where
  reliable := synced.reliable
  reliable' := synced.reliable
  idle _ := closed
  idle' _ _ := rfl
  table := by
    have reliable : s.restart.device.Reliable := synced.reliable
    rw [table_of_unloaded reliable rfl, synced.agrees]
    rfl
  used index := (closed index).symm
  files index used := by
    rw [closed index] at used
    contradiction
  disk := rfl

/-- States alike over drives with equal contents answer every call alike. -/
theorem Alike.serves_of_eq {s s' : State} (alike : Alike (fun disk disk' => disk' = disk) s s')
    (call : Call) : Serves (fun disk disk' => disk' = disk) s s' call := by
  apply alike.serves
  · intro disk disk' sector same
    rw [same]
  · intro fd index len _ opened
    rw [bmfsPread, bmfsPread]
    split
    · rfl
    · exact preadLoop_congr alike.reliable alike.reliable' alike.disk _ _ _ _
  · intro fd index buf len _ opened n base _ _ _ _
    exact pwriteLoop_congr alike.reliable alike.reliable' alike.disk _ _ _ _ _

/-- From any drive whose entries start after the first block, the cached directory
is the one on the drive whenever it is loaded; and if nothing is open, a start changes
neither the replies to any further calls nor the contents of the drive after them. -/
theorem cached_directory_in_step (disk : Disk) (calls : List Call)
    (positive : ∀ slot, (Dir.decode (disk 1) slot).Live →
      1 ≤ (Dir.decode (disk 1) slot).startBlock.toNat)
    (bounded : (Dir.decode (disk 1)).Bounded)
    (inRange : fileSystem.Along InRange (State.boot disk fun _ => false) calls) :
    let s := fileSystem.run (State.boot disk fun _ => false) calls
    (s.dirLoaded = true → s.dir = Dir.decode (s.device.disk 1)) ∧
      ((∀ index, (s.files index).used = false) → ∀ later,
        fileSystem.replies s.restart later = fileSystem.replies s later ∧
          (fileSystem.run s.restart later).device.disk =
            (fileSystem.run s later).device.disk) := by
  intro s
  have placed : ∀ slot, (Dir.decode (disk 1) slot).Live → (Dir.decode (disk 1) slot).Placed :=
    fun slot live => ⟨positive slot live, Nat.le_of_lt (bounded slot live)⟩
  have synced : Synced s :=
    Machine.run_invariant (fun _ _ => Synced.next) (Synced.boot placed) inRange
  refine ⟨fun loaded => ?_, fun closed later => ?_⟩
  · rw [← table_of_loaded loaded]
    exact synced.agrees
  · have unguarded : fileSystem.Along (fun _ _ => True) s later :=
      Machine.along_of_forall (fun _ _ => trivial) s later
    obtain ⟨replies, alike⟩ := Machine.lockstep
      (fun _ _ call alike _ => alike.serves_of_eq call) (synced.restart closed) unguarded
    exact ⟨replies, alike.disk⟩

/-- The removed file of `unlinkWhileOpen` stays removed across a start, and its block
is given to the next file either way. -/
theorem unlinkWhileOpen_restarts :
    let s := fileSystem.run (State.boot blankDisk fun _ => false) unlinkWhileOpen
    fileSystem.replies s.restart [.open nameA 0, .open nameB oCreat, .read 3 1, .fstatat nameB] =
      fileSystem.replies s [.open nameA 0, .open nameB oCreat, .read 3 1, .fstatat nameB] :=
  ((cached_directory_in_step blankDisk unlinkWhileOpen
    (fun slot live => absurd live (blankDisk_dead slot)) blankDisk_bounded
    (by decide +kernel)).2 (by decide +kernel) _).1

end AppPortKit.Bmfs
