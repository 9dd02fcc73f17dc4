import AppPortKit.Bmfs.Clamps

/-!
# Arithmetic of offsets

Offsets and lengths come from the application as 64-bit words.  The clamps of the
transfers and the sum of a seek are right as long as they do not wrap, and positions
and sizes stay below `2 ^ 63`, so that is a condition on the arguments alone.  A sum that
wraps makes a clamp pass a length it should cut off, and the count is wrong.
-/

namespace AppPortKit.Bmfs

open Libc SectorStore Transition

/-- Result and effect of a call are what its arguments say in numbers that do not wrap,
and the drive is asked for no sector outside the blocks of the file. -/
def Exact (s : State) : Call → Prop
  | .read fd len =>
      ∀ index, openIndex s fd = some index →
        (fileSystem.reply s (.read fd len)).ret = (s.files index).left len (s.files index).pos ∧
        (fileSystem.reply s (.read fd len)).bytes.length =
          (s.files index).left len (s.files index).pos ∧
        (s.device.Reliable → (fileSystem.reply s (.read fd len)).bytes =
          (List.range ((s.files index).left len (s.files index).pos)).map fun offset =>
            cell s.device.disk ((s.files index).address (s.files index).pos.toNat + offset)) ∧
        s.device.Within (fileSystem.next s (.read fd len)).device (s.files index).sectors
  | .write fd buf len =>
      ∀ index, openIndex s fd = some index →
        (fileSystem.reply s (.write fd buf len)).ret =
          (if (s.files index).room len (s.files index).offset = 0 then -ENOSPC
            else ((s.files index).room len (s.files index).offset : Int)) ∧
        (s.device.Reliable → ∀ address,
          cell (fileSystem.next s (.write fd buf len)).device.disk address =
            if (s.files index).address (s.files index).offset.toNat ≤ address ∧
                address < (s.files index).address (s.files index).offset.toNat +
                  (s.files index).room len (s.files index).offset then
              buf (address - (s.files index).address (s.files index).offset.toNat)
            else
              cell s.device.disk address) ∧
        s.device.Within (fileSystem.next s (.write fd buf len)).device (s.files index).sectors
  | .lseek fd offset whence =>
      ∀ index, openIndex s fd = some index →
        (fileSystem.reply s (.lseek fd offset whence)).ret =
          match seekBase (s.files index).pos.toNat (s.files index).size.toNat whence with
          | none => -EINVAL
          | some base => if base + offset.toInt < 0 then -EINVAL else base + offset.toInt
  | _ => True

/-- The sums a call computes do not wrap. -/
def NoOverflow (s : State) : Call → Prop
  | .read fd len =>
      ∀ index, openIndex s fd = some index →
        (s.files index).pos.toNat < (s.files index).size.toNat →
          (s.files index).pos.toNat + len.toNat < 18446744073709551616
  | .write fd _ len =>
      ∀ index, openIndex s fd = some index →
        (s.files index).offset.toNat < (s.files index).cap →
          (s.files index).offset.toNat + len.toNat < 18446744073709551616
  | .lseek fd offset whence =>
      ∀ index, openIndex s fd = some index →
        ∀ base ∈ seekBase (s.files index).pos.toNat (s.files index).size.toNat whence,
          base + offset.toInt < 9223372036854775808
  | _ => True

instance (s : State) : (call : Call) → Decidable (NoOverflow s call)
  | .read fd len =>
      inferInstanceAs (Decidable (∀ index, openIndex s fd = some index →
        (s.files index).pos.toNat < (s.files index).size.toNat →
          (s.files index).pos.toNat + len.toNat < 18446744073709551616))
  | .write fd _ len =>
      inferInstanceAs (Decidable (∀ index, openIndex s fd = some index →
        (s.files index).offset.toNat < (s.files index).cap →
          (s.files index).offset.toNat + len.toNat < 18446744073709551616))
  | .lseek fd offset whence =>
      inferInstanceAs (Decidable (∀ index, openIndex s fd = some index →
        ∀ base ∈ seekBase (s.files index).pos.toNat (s.files index).size.toNat whence,
          base + offset.toInt < 9223372036854775808))
  | .open _ _ | .close _ | .fstat _ | .fstatat _ | .unlink _ => isTrue trivial

/-- Sizes are within reservations, and positions below `2 ^ 63`. -/
structure Seekable (s : State) : Prop where
  contained : Contained s
  positions : ∀ index, (s.files index).used = true →
    (s.files index).pos.toNat < 9223372036854775808

/-- The end of an open fills one record. -/
theorem files_openEntry (s : State) (slot : Fin 8) (di : Fin 64) (flags : UInt32) :
    ∃ entry, (openEntry s slot di flags).2.files =
      Function.update s.files slot (openedFile entry di flags) := by
  cases asked : hasFlag flags oTrunc with
  | false =>
      rw [openEntry_of_keep s slot di asked]
      exact ⟨_, rfl⟩
  | true =>
      rw [openEntry_of_trunc s slot di asked]
      exact ⟨_, rfl⟩

/-- Looking a file up changes nothing once the directory is loaded. -/
theorem bmfsFstatat_state (s : State) (path : CString) : (bmfsFstatat s path).2.2 = dirLoad s := by
  simp only [bmfsFstatat]
  split <;> rfl

/-- An open leaves the records as they are, or fills a free one. -/
theorem files_bmfsOpen (s : State) (path : CString) (flags : UInt32) :
    (bmfsOpen s path flags).2.files = s.files ∨
      ∃ slot entry di, (bmfsOpen s path flags).2.files =
        Function.update s.files slot (openedFile entry di flags) := by
  have outcome := bmfsOpen_outcome s path flags
  generalize bmfsOpen s path flags = result at outcome ⊢
  cases outcome with
  | badName => exact .inl rfl
  | tooMany | missing | dirFull | exclusive => exact .inl (files_dirLoad s)
  | @created slot di =>
      obtain ⟨entry, opened⟩ := files_openEntry
        ((dirLoad s).edit (createEntry s.table di (bmfsName path))) slot di flags
      rw [files_edit, files_dirLoad] at opened
      exact .inr ⟨slot, entry, di, opened⟩
  | @opened slot di =>
      obtain ⟨entry, opened⟩ := files_openEntry (dirLoad s) slot di flags
      rw [files_dirLoad] at opened
      exact .inr ⟨slot, entry, di, opened⟩

/-- A file is opened at its start or at its end. -/
theorem pos_openedFile_lt {entry : Dirent} {di : Fin 64} {flags : UInt32}
    (contained : (openedFile entry di flags).Contained) :
    (openedFile entry di flags).pos.toNat < 9223372036854775808 := by
  have size : entry.size.toNat < 9223372036854775808 :=
    Nat.lt_of_le_of_lt contained.1 contained.2.cap_le
  simp only [openedFile]
  split
  · exact size
  · decide

namespace Seekable

variable {s : State} {call : Call}

theorem size_lt (seekable : Seekable s) {index : Fin 8} (used : (s.files index).used = true) :
    (s.files index).size.toNat < 9223372036854775808 := by
  obtain ⟨fits, addressable⟩ := seekable.contained.files index used
  exact Nat.lt_of_le_of_lt fits addressable.cap_le

/-- A read does what its arguments say exactly if its sum does not wrap. -/
theorem exact_read_iff (seekable : Seekable s) (fd : Int) (len : UInt64) :
    Exact s (.read fd len) ↔ NoOverflow s (.read fd len) := by
  refine forall_congr' fun index => forall_congr' fun opened => ?_
  have used := ((openIndex_eq_some_iff _ _ _).mp opened).2
  have contained := seekable.contained.files index used
  rw [reply_eq_serve, next_eq_serve, serve_read opened]
  constructor
  · rintro ⟨ret, -⟩ inside
    by_contra wraps
    have negative := bmfsRead_of_wrap contained inside (Nat.le_of_not_lt wraps)
    rw [show (bmfsRead s index len).1 = _ from ret] at negative
    omega
  · intro noWrap
    rcases bmfsRead_exact contained noWrap with
      ⟨left, nothing⟩ | ⟨n, base, count, -, start, inside, ret, bytes, device⟩
    · rw [left, nothing]
      exact ⟨rfl, rfl, fun _ => rfl, .refl _ _⟩
    · have inRange : base.toNat + n.toNat < 18446744073709551616 := by
        have := contained.2.address_add_lt inside
        omega
      refine ⟨by rw [ret, count], by rw [bytes, preadLoop_length, count], fun reliable => ?_, ?_⟩
      · rw [bytes, preadLoop_bytes reliable s.scratch inRange, count, start]
      · rw [device]
        refine (preadLoop_within s.device s.scratch inRange).mono ?_
        rw [start]
        exact sectorsOf_subset_sectors inside

/-- A write does what its arguments say exactly if its sum does not wrap. -/
theorem exact_write_iff (seekable : Seekable s) (fd : Int) (buf : Nat → UInt8) (len : UInt64) :
    Exact s (.write fd buf len) ↔ NoOverflow s (.write fd buf len) := by
  refine forall_congr' fun index => forall_congr' fun opened => ?_
  have used := ((openIndex_eq_some_iff _ _ _).mp opened).2
  have addressable := (seekable.contained.files index used).2
  rw [reply_eq_serve, next_eq_serve, serve_write opened, Reply.ret_ofResult, Reply.state_ofResult]
  constructor
  · rintro ⟨ret, -⟩ inside
    by_contra wraps
    -- There is room for a byte, so a negative count is not the refusal either.
    have negative := bmfsWrite_of_wrap addressable buf inside (Nat.le_of_not_lt wraps)
    have small := addressable.cap_le
    rw [ret, if_neg (by rw [File.room]; omega)] at negative
    omega
  · intro noWrap
    rcases bmfsWrite_exact addressable buf noWrap with
      ⟨room, ret, device⟩ | ⟨n, base, count, nonzero, start, inside, ret, device⟩
    · rw [ret, device, room]
      refine ⟨rfl, fun _ address => ?_, .refl _ _⟩
      rw [if_neg (by omega)]
    · have inRange : base.toNat + n.toNat < 18446744073709551616 := by
        have := addressable.address_add_lt inside
        omega
      rw [ret, device, ← count, if_neg nonzero]
      refine ⟨rfl, fun reliable address => ?_, ?_⟩
      · rw [pwriteLoop_cell reliable s.scratch buf inRange, start]
      · refine (pwriteLoop_within s.device s.scratch buf inRange).mono ?_
        rw [start]
        exact sectorsOf_subset_sectors inside

/-- A seek goes where its arguments say exactly if its sum does not overflow. -/
theorem exact_lseek_iff (seekable : Seekable s) (fd : Int) (offset : Int64) (whence : Int32) :
    Exact s (.lseek fd offset whence) ↔ NoOverflow s (.lseek fd offset whence) := by
  refine forall_congr' fun index => forall_congr' fun opened => ?_
  have used := ((openIndex_eq_some_iff _ _ _).mp opened).2
  have pos := seekable.positions index used
  have size := seekable.size_lt used
  rw [reply_eq_serve, serve_lseek opened, Reply.ret_ofResult]
  cases found : seekBase (s.files index).pos.toNat (s.files index).size.toNat whence with
  | none =>
      rw [bmfsLseek_of_no_base pos size found]
      exact iff_of_true rfl fun _ missing => absurd missing (Option.not_mem_none _)
  | some base =>
      simp only [Option.mem_some_iff, forall_eq']
      by_cases target : (base : Int) + offset.toInt < 9223372036854775808
      · refine iff_of_true ?_ target
        rcases bmfsLseek_of_base pos size found target with
          ⟨negative, refused⟩ | ⟨pos, landed, moved⟩
        · rw [refused, if_pos negative]
        · rw [moved, if_neg (by omega)]
      · refine iff_of_false ?_ target
        rw [bmfsLseek_of_overflow pos size found (Int.not_lt.mp target), if_neg (by omega), EINVAL]
        omega

theorem exact_iff (seekable : Seekable s) : Exact s call ↔ NoOverflow s call := by
  cases call with
  | read fd len => exact seekable.exact_read_iff fd len
  | write fd buf len => exact seekable.exact_write_iff fd buf len
  | lseek fd offset whence => exact seekable.exact_lseek_iff fd offset whence
  | «open» | close | fstat | fstatat | unlink => exact Iff.rfl

/-- Replacing one record by one with a position in range. -/
theorem positions_update (seekable : Seekable s) (index : Fin 8) {file : File}
    (position : file.used = true → file.pos.toNat < 9223372036854775808) :
    ∀ other, (Function.update s.files index file other).used = true →
      (Function.update s.files index file other).pos.toNat < 9223372036854775808 := by
  rw [Function.forall_update_iff s.files
    fun _ f => f.used = true → f.pos.toNat < 9223372036854775808]
  exact ⟨position, fun other _ => seekable.positions other⟩

/-- Where a write stores is in range, like every size and position. -/
theorem offset_lt (seekable : Seekable s) {index : Fin 8}
    (used : (s.files index).used = true) :
    (s.files index).offset.toNat < 9223372036854775808 := by
  rw [File.offset]
  split
  · exact seekable.size_lt used
  · exact seekable.positions index used

theorem contained_next (seekable : Seekable s) (bounded : s.table.Bounded)
    (commits : CommitsFit s call) (noOverflow : NoOverflow s call) :
    Contained (fileSystem.next s call) := by
  cases call with
  | write fd buf len =>
      cases opened : openIndex s fd with
      | none =>
          simp only [Machine.next, fileSystem, serve, opened]
          exact seekable.contained
      | some index =>
          have used := ((openIndex_eq_some_iff _ _ _).mp opened).2
          have addressable := (seekable.contained.files index used).2
          obtain ⟨len', short, -, same⟩ := exists_short_write addressable
            (noOverflow index opened)
          have kept := seekable.contained.next
            (show InRange s (.write fd buf len') from ⟨bounded, short⟩) trivial
          simp only [Machine.next, fileSystem, serve_write opened, Reply.state_ofResult]
            at kept ⊢
          rw [← same]
          exact kept
  | «open» | read | lseek | close | fstat | fstatat | unlink =>
      exact seekable.contained.next ⟨bounded, trivial⟩ commits

theorem positions_next (seekable : Seekable s) (noOverflow : NoOverflow s call)
    (after : Contained (fileSystem.next s call)) :
    ∀ index, ((fileSystem.next s call).files index).used = true →
      ((fileSystem.next s call).files index).pos.toNat < 9223372036854775808 := by
  have outcome := outcome_of_call s call
  generalize (fileSystem.reply s call).ret = ret at outcome
  generalize fileSystem.next s call = result at outcome after ⊢
  cases outcome with
  | still => exact seekable.positions
  | opened path flags =>
      rcases files_bmfsOpen s path flags with same | ⟨slot, entry, di, filled⟩
      · rw [same]
        exact seekable.positions
      · rw [filled]
        refine seekable.positions_update slot fun used => ?_
        have contained := after.files slot
        rw [filled, Function.update_self] at contained
        exact pos_openedFile_lt (contained used)
  | @read fd index opened len =>
      have used := ((openIndex_eq_some_iff _ _ _).mp opened).2
      rw [files_bmfsRead]
      refine seekable.positions_update index fun _ => ?_
      exact pos_bmfsRead_lt (seekable.contained.files index used) (seekable.positions index used)
        (noOverflow index opened)
  | @write fd index opened buf len =>
      have used := ((openIndex_eq_some_iff _ _ _).mp opened).2
      have addressable := (seekable.contained.files index used).2
      have small := addressable.cap_le
      obtain ⟨len', short, -, same⟩ := exists_short_write addressable (noOverflow index opened)
      rw [← same]
      by_cases full : (s.files index).cap ≤ (s.files index).offset.toNat ∨ len' = 0
      · rw [bmfsWrite_of_full addressable buf full]
        exact seekable.positions_update index fun _ => seekable.offset_lt used
      · obtain ⟨room, nonempty⟩ := not_or.mp full
        rw [Nat.not_le] at room
        obtain ⟨n, base, count, start, stored⟩ :=
          bmfsWrite_of_room addressable buf short nonempty room
        rw [stored]
        refine seekable.positions_update index fun _ => ?_
        rw [pos_writtenFile _ (by omega) (by omega)]
        omega
  | @lseek fd index opened offset whence =>
      rcases bmfsLseek_cases s index offset whence with refused | ⟨np, nonneg, moved⟩
      · rw [refused]
        exact seekable.positions
      · rw [moved]
        refine seekable.positions_update index fun _ => ?_
        rw [Int64.le_iff_toInt_le, Int64.toInt_zero] at nonneg
        have high := np.toInt_lt
        have target := Word64.toNat_toUInt64 nonneg
        change np.toUInt64.toNat < 9223372036854775808
        omega
  | @close fd index opened =>
      by_cases dirty : (s.files index).dirty = true
      · rw [bmfsClose_of_dirty dirty]
        exact seekable.positions_update index nofun
      · rw [bmfsClose_of_clean dirty]
        exact seekable.positions_update index nofun
  | fstatat path =>
      rw [bmfsFstatat_state, files_dirLoad]
      exact seekable.positions
  | unlink path =>
      cases found : dirFind s.table (bmfsName path) with
      | none =>
          rw [bmfsUnlink_of_missing found, files_dirLoad]
          exact seekable.positions
      | some di =>
          rw [bmfsUnlink_of_found found, files_edit, files_dirLoad]
          exact seekable.positions

theorem next (seekable : Seekable s) (bounded : s.table.Bounded) (commits : CommitsFit s call)
    (noOverflow : NoOverflow s call) : Seekable (fileSystem.next s call) := by
  have contained := seekable.contained_next bounded commits noOverflow
  exact ⟨contained, seekable.positions_next noOverflow contained⟩

end Seekable

/-- From any drive whose live entries have sizes within their reservations, and
whatever device calls fail, reads, writes and seeks of a run do exactly what their
arguments say, within the blocks of their files, if and only if their sums do not
wrap. -/
theorem offsets_exact_iff (disk : Disk) (fails : Nat → Bool) (calls : List Call)
    (bounded : (Dir.decode (disk 1)).Bounded)
    (fits : (Dir.decode (disk 1)).SizesFit)
    (inRange : fileSystem.Along (fun s call => s.table.Bounded ∧ CommitsFit s call)
      (State.boot disk fails) calls) :
    fileSystem.Along Exact (State.boot disk fails) calls ↔
      fileSystem.Along NoOverflow (State.boot disk fails) calls := by
  have agree : ∀ s call, Seekable s → s.table.Bounded ∧ CommitsFit s call →
      (Exact s call ↔ NoOverflow s call) :=
    fun _ _ seekable _ => seekable.exact_iff
  have initial : Seekable (State.boot disk fails) := ⟨.boot fails bounded fits, nofun⟩
  apply Machine.along_iff_of_invariant agree _ initial inRange
  intro s call seekable guard holds
  exact seekable.next guard.1 guard.2 (seekable.exact_iff.mp holds)

/-- A seek to a new file's second byte. -/
def seekTwice : List Call := [.open nameA oCreat, .lseek 3 1 0]

/-- A seek to the last byte of a new file's block. -/
def seekLast : List Call := [.open nameA oCreat, .lseek 3 2097151 0]

/-- A seek whose sum is `2 ^ 63`, and a write of one byte that asks for so many that the
sum wraps: it is not cut off and returns a negative number. -/
theorem offsets_wrap :
    (fileSystem.Along (fun s call => s.table.Bounded ∧ CommitsFit s call)
        (State.boot blankDisk fun _ => false)
        (seekTwice ++ [.lseek 3 9223372036854775807 1]) ∧
      ¬fileSystem.Along Exact (State.boot blankDisk fun _ => false)
        (seekTwice ++ [.lseek 3 9223372036854775807 1])) ∧
    (fileSystem.Along (fun s call => s.table.Bounded ∧ CommitsFit s call)
        (State.boot blankDisk fun _ => false)
        (seekLast ++ [.write 3 (fun _ => 7) 18446744073707454465]) ∧
      ¬fileSystem.Along Exact (State.boot blankDisk fun _ => false)
        (seekLast ++ [.write 3 (fun _ => 7) 18446744073707454465])) := by
  refine ⟨⟨by decide +kernel, ?_⟩, ⟨by decide +kernel, ?_⟩⟩
  · rw [Machine.along_append, Machine.along_cons]
    rintro ⟨-, sought, -⟩
    have ret := sought 0 (by decide +kernel)
    revert ret
    decide +kernel
  · rw [Machine.along_append, Machine.along_cons]
    rintro ⟨-, stored, -⟩
    have opened : openIndex (fileSystem.run (State.boot blankDisk fun _ => false) seekLast) 3 =
        some 0 := by
      decide +kernel
    have ret := (stored 0 opened).1
    have negative : (bmfsWrite (fileSystem.run (State.boot blankDisk fun _ => false) seekLast) 0
        (fun _ => 7) 18446744073707454465).1 < 0 :=
      bmfsWrite_of_wrap (by simp only [File.Addressable]; decide +kernel) _ (by decide +kernel)
        (by decide +kernel)
    rw [reply_eq_serve, serve_write opened, Reply.ret_ofResult] at ret
    rw [ret] at negative
    revert negative
    decide +kernel

/-- Reads, writes and seeks up to and past the end of a new file's block, the write
cut off there. -/
theorem offsetsInRange_exact :
    fileSystem.Along Exact (State.boot blankDisk fun _ => false)
      [.open nameA oCreat, .write 3 (fun _ => 7) 2, .lseek 3 2097151 0, .write 3 (fun _ => 8) 5,
        .lseek 3 (-4) 2, .read 3 9223372036854775807, .lseek 3 9223372036854775807 0, .read 3 1] :=
  (offsets_exact_iff blankDisk (fun _ => false) _ blankDisk_bounded
    (fun slot live => absurd live (blankDisk_dead slot)) (by decide +kernel)).mpr
    (by decide +kernel)

end AppPortKit.Bmfs
