import AppPortKit.Bmfs.Offsets

/-!
# Calls that fail

A call that returns an error finds out before it changes anything, with one exception:
a write to a file opened for appending first moves the position to the end of the file
and only then looks for room.
-/

namespace AppPortKit.Bmfs

open Libc Transition

/-- The drive's contents, the directory and the records an application can tell apart
are the same. -/
structure Unchanged (before after : State) : Prop where
  disk : after.device.disk = before.device.disk
  dir : after.dir = before.dir
  used : ∀ index, (after.files index).used = (before.files index).used
  size : ∀ index, (after.files index).size = (before.files index).size
  dirty : ∀ index, (after.files index).dirty = (before.files index).dirty
  pos : ∀ index, (after.files index).pos = (before.files index).pos

/-- A call that returns an error changes nothing. -/
def FailsClean (s : State) (call : Call) : Prop :=
  (fileSystem.reply s call).ret < 0 → Unchanged s (fileSystem.next s call)

/-- A write of `len` bytes finds no room, or has nothing to store. -/
def File.Refuses (f : File) (len : UInt64) : Prop :=
  f.reservedBlocks * blockBytes ≤ f.offset ∨ len = 0

/-- A write that is refused is made at the position of its file. -/
def RefusedInPlace (s : State) : Call → Prop
  | .write fd _ len =>
      ∀ index, openIndex s fd = some index → (s.files index).Refuses len →
        (s.files index).append = true → (s.files index).pos = (s.files index).size
  | _ => True

/-- The number of bytes a write would store is below `2 ^ 63`. -/
def CountsSigned (s : State) : Call → Prop
  | .write fd _ len =>
      ∀ index, openIndex s fd = some index →
        (clampLen ((s.files index).reservedBlocks * blockBytes) (s.files index).offset len).toNat <
          9223372036854775808
  | _ => True

theorem Unchanged.refl (s : State) : Unchanged s s :=
  ⟨rfl, rfl, fun _ => rfl, fun _ => rfl, fun _ => rfl, fun _ => rfl⟩

/-- A change of one position is seen at that record only. -/
theorem unchanged_setFile_pos_iff (s : State) (index : Fin 8) (pos : UInt64) :
    Unchanged s (s.setFile index { s.files index with pos }) ↔ pos = (s.files index).pos := by
  constructor
  · intro unchanged
    have same := unchanged.pos index
    rw [files_setFile, Function.update_self] at same
    exact same
  · intro same
    have record : { s.files index with pos } = s.files index := by rw [same]
    rw [record, setFile_self]
    exact .refl s

theorem File.offset_eq_pos_iff (f : File) :
    f.offset = f.pos ↔ (f.append = true → f.pos = f.size) := by
  rw [File.offset]
  cases f.append with
  | false => simp
  | true => simp [eq_comm]

/-- A write returns an error if it is refused, and then has moved to its offset. -/
theorem write_failsClean_iff (s : State) (index : Fin 8) (buf : Nat → UInt8) {len : UInt64}
    (signed : (clampLen ((s.files index).reservedBlocks * blockBytes)
      (s.files index).offset len).toNat < 9223372036854775808) :
    ((bmfsWrite s index buf len).1 < 0 → Unchanged s (bmfsWrite s index buf len).2) ↔
      ((s.files index).Refuses len →
        (s.files index).append = true → (s.files index).pos = (s.files index).size) := by
  rw [File.Refuses, ← File.offset_eq_pos_iff]
  rcases bmfsWrite_cases s index buf len with
    ⟨reason, refused⟩ | ⟨n, base, count, -, inside, nonzero, stored⟩
  · have refuses : (s.files index).reservedBlocks * blockBytes ≤ (s.files index).offset ∨
        len = 0 := by
      by_cases past : (s.files index).reservedBlocks * blockBytes ≤ (s.files index).offset
      · exact .inl past
      · exact .inr ((clampLen_eq_zero_iff (UInt64.not_le.mp past) len).mp
          (reason.resolve_left past))
    have negative : -ENOSPC < 0 := by decide
    rw [refused, unchanged_setFile_pos_iff]
    simp only [negative, forall_const, refuses]
  · have accepts : ¬((s.files index).reservedBlocks * blockBytes ≤ (s.files index).offset ∨
        len = 0) := by
      rintro (past | rfl)
      · exact UInt64.not_le.mpr inside past
      · exact nonzero (count.trans ((clampLen_eq_zero_iff inside 0).mpr rfl))
    have nonneg : ¬Word64.signed n < 0 := by
      rw [count, Word64.signed_of_lt signed]
      omega
    rw [stored]
    exact iff_of_true (fun negative => absurd negative nonneg) fun refuses => absurd refuses accepts

/-- Every call but a write that returns an error changes nothing. -/
theorem failsClean_of_not_write {s : State} (loaded : s.dirLoaded = true) {call : Call}
    (noWrite : ∀ fd buf len, call ≠ .write fd buf len) : FailsClean s call := by
  intro failed
  have outcome := outcome_of_call s call
  generalize (fileSystem.reply s call).ret = ret at outcome failed
  generalize fileSystem.next s call = result at outcome ⊢
  cases outcome with
  | still => exact .refl s
  | opened path flags =>
      have opened := bmfsOpen_outcome s path flags
      generalize bmfsOpen s path flags = result at opened failed ⊢
      cases opened with
      | badName => exact .refl s
      | tooMany | missing | dirFull | exclusive =>
          rw [dirLoad_of_loaded loaded]
          exact .refl s
      | created | opened => exact absurd failed (Int.not_lt.mpr (openEntry_nonneg _ _ _ _))
  | @read fd index opened len =>
      obtain ⟨scratch, device, state, media⟩ :=
        bmfsPread_state s (s.files index) len (s.files index).pos
      have still : (bmfsRead s index len).2.2 = { s with scratch, device } := by
        have failed : (bmfsPread s (s.files index) len (s.files index).pos).1 < 0 := failed
        simp only [bmfsRead, state, advance, gt_iff_lt, if_neg (Int.lt_asymm failed)]
      rw [still]
      exact ⟨media.disk, rfl, fun _ => rfl, fun _ => rfl, fun _ => rfl, fun _ => rfl⟩
  | write opened buf len => exact absurd rfl (noWrite _ _ _)
  | @lseek fd index opened offset whence =>
      rcases bmfsLseek_cases s index offset whence with refused | ⟨np, nonneg, moved⟩
      · rw [refused]
        exact .refl s
      · rw [moved] at failed
        rw [Int64.le_iff_toInt_le, Int64.toInt_zero] at nonneg
        exact absurd failed (Int.not_lt.mpr nonneg)
  | close opened => exact absurd failed (Int.lt_irrefl 0)
  | fstatat path =>
      rw [bmfsFstatat_state, dirLoad_of_loaded loaded]
      exact .refl s
  | unlink path =>
      cases found : dirFind s.table (bmfsName path) with
      | none =>
          rw [bmfsUnlink_of_missing found, dirLoad_of_loaded loaded]
          exact .refl s
      | some di =>
          rw [bmfsUnlink_of_found found] at failed
          contradiction

theorem failsClean_write_iff {s : State} {fd : Int} {index : Fin 8}
    (opened : openIndex s fd = some index) (buf : Nat → UInt8) {len : UInt64}
    (signed : CountsSigned s (.write fd buf len)) :
    FailsClean s (.write fd buf len) ↔
      ((s.files index).Refuses len →
        (s.files index).append = true → (s.files index).pos = (s.files index).size) := by
  rw [FailsClean, reply_eq_serve, next_eq_serve, serve_write opened, Reply.ret_ofResult,
    Reply.state_ofResult]
  exact write_failsClean_iff s index buf (signed index opened)

/-- A call on a loaded directory that fails changes nothing, exactly if it is no write
refused away from the end of a file opened for appending. -/
theorem failing_call_changes_nothing_iff (s : State) (loaded : s.dirLoaded = true) (call : Call)
    (signed : CountsSigned s call) : FailsClean s call ↔ RefusedInPlace s call := by
  cases call with
  | write fd buf len =>
      cases opened : openIndex s fd with
      | none =>
          refine iff_of_true ?_ fun index found => ?_
          · simp only [FailsClean, Machine.next, fileSystem, serve, opened]
            exact fun _ => .refl s
          · rw [opened] at found
            contradiction
      | some index =>
          rw [failsClean_write_iff opened buf signed]
          simp only [RefusedInPlace, opened, Option.some.injEq, forall_eq']
  | «open» | read | lseek | close | fstat | fstatat | unlink =>
      exact iff_of_true (failsClean_of_not_write loaded fun _ _ _ => Call.noConfusion) trivial

/-- A volume with the file `a`, which fills its one block. -/
def fullDisk : Disk :=
  Function.update blankDisk 1 (Dir.encode (Dir.single
    { namedEntry nameA with startBlock := 1, reservedBlocks := 1, size := 2097152 }))

/-- The full file, opened for appending and read from its start. -/
def rewoundAppend : State :=
  fileSystem.run (State.boot fullDisk fun _ => false) [.open nameA oAppend, .lseek 3 0 0]

/-- A write to it fails and leaves the position at the end of the file. -/
theorem refusedAppend_moves :
    rewoundAppend.dirLoaded = true ∧ CountsSigned rewoundAppend (.write 3 (fun _ => 7) 1) ∧
      ¬FailsClean rewoundAppend (.write 3 (fun _ => 7) 1) := by
  have opened : openIndex rewoundAppend 3 = some 0 := by decide +kernel
  have signed : CountsSigned rewoundAppend (.write 3 (fun _ => 7) 1) := by
    intro index found
    rw [opened, Option.some.injEq] at found
    subst found
    decide +kernel
  refine ⟨by decide +kernel, signed, ?_⟩
  rw [failsClean_write_iff opened _ signed]
  simp only [File.Refuses]
  decide +kernel

/-- A write at the end of the full file fails and changes nothing. -/
theorem refusedAppendAtEnd_failsClean :
    FailsClean (fileSystem.run (State.boot fullDisk fun _ => false) [.open nameA oAppend])
      (.write 3 (fun _ => 7) 1) := by
  have opened : openIndex (fileSystem.run (State.boot fullDisk fun _ => false)
      [.open nameA oAppend]) 3 = some 0 := by
    decide +kernel
  refine (failing_call_changes_nothing_iff _ (by decide +kernel) _ ?_).mpr ?_
  · intro index found
    rw [opened, Option.some.injEq] at found
    subst found
    decide +kernel
  · intro index found _ _
    rw [opened, Option.some.injEq] at found
    subst found
    decide +kernel

end AppPortKit.Bmfs
