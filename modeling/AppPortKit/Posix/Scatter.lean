import AppPortKit.Posix.Gather

/-!
# Scattered reads

`readv` makes one read for each element.  On a file that is one read of the whole length.
On the console a read waits for its first byte, so it is one read unless the keys waiting
end just where an element does: then `readv` goes on to wait for more.
-/

namespace AppPortKit.Posix

open Libc Bmfs

/-- The length of a vector. -/
def capacity (iov : List (UInt64 × Turn)) : Nat := (iov.map fun element => element.1.toNat).sum

/-- `readv` from the next element on, after some bytes were delivered. -/
def State.readLoop (s : State) (fd : Int) (done : List UInt8) (iov : List (UInt64 × Turn)) :
    State.Result :=
  Vectored.loop (fun s element => s.sysRead fd element.1 element.2)
    (fun element => element.1.toNat) (.ofData done) iov s

namespace Console

variable (c : Console)

/-- So many keys come without a pause. -/
def Holds (count : Nat) : Prop := ∀ offset < count, c.keys (c.first + offset) ≠ 0

/-- Just so many keys come without a pause. -/
def Pauses (count : Nat) : Prop := c.Holds count ∧ c.keys (c.first + count) = 0

/-- The first keys that come. -/
def burst (count : Nat) : List UInt8 :=
  (List.range count).map fun offset => c.keys (c.first + offset)

/-- Results up to a number have been taken. -/
def upTo (next : Nat) : Console := { c with next }

/-- After so many keys. -/
def skip (count : Nat) : Console := if count = 0 then c else c.upTo (c.first + count)

end Console

section Vectors

variable (len : UInt64) (turn : Turn) (iov : List (UInt64 × Turn))

@[simp] theorem capacity_nil : capacity [] = 0 := rfl

@[simp] theorem capacity_cons : capacity ((len, turn) :: iov) = len.toNat + capacity iov := rfl

end Vectors

section Rules

variable {s s' : State} {fd : Int} {len : UInt64} {turn : Turn} {done data : List UInt8}
  {rest : List (UInt64 × Turn)} (served : s.sysRead fd len turn = .ok (some (.ofData data), s'))

include served

theorem readLoop_of_short (short : data.length < len.toNat) :
    s.readLoop fd done ((len, turn) :: rest) = .ok (some (.ofData (done ++ data)), s') :=
  Vectored.loop_of_short_data served short

theorem readLoop_of_full (full : data.length = len.toNat) :
    s.readLoop fd done ((len, turn) :: rest) = s'.readLoop fd (done ++ data) rest :=
  Vectored.loop_of_full_data served full

end Rules

/-! ## Files -/

section File

variable {s : State} {files : Bmfs.State} {fd : Int} {index : Fin 8}

theorem sysRead_file (opened : openIndex s.files fd = some index) (len : UInt64) (turn : Turn) :
    s.sysRead fd len turn =
      .ok (some { ret := (bmfsRead s.files index len).1, data := (bmfsRead s.files index len).2.1 },
        { s with files := (bmfsRead s.files index len).2.2 }) := by
  simp only [State.sysRead, opened]

theorem sysRead_moves (opened : openIndex s.files fd = some index)
    (reliable : s.files.device.Reliable) (len : UInt64) (turn : Turn)
    (short : len.toNat < 9223372036854775808)
    (noWrap : (s.files.files index).pos.toNat < (s.files.files index).size.toNat →
      (s.files.files index).pos.toNat + len.toNat < 18446744073709551616) :
    ∃ files, s.sysRead fd len turn =
        .ok (some (.ofData (ahead s.files index (min len.toNat (s.files.files index).unread))),
          { s with files := files }) ∧
      Moves s.files files index (min len.toNat (s.files.files index).unread) := by
  obtain ⟨count, bytes, moves⟩ := bmfsRead_moves reliable short noWrap
  refine ⟨_, ?_, moves⟩
  rw [sysRead_file opened, count, bytes, Vectored.Transfer.ofData, length_ahead]

/-- The loop on a file, after some bytes were delivered, delivers what is ahead. -/
theorem loop_moves (opened : openIndex s.files fd = some index)
    (reliable : s.files.device.Reliable) {iov : List (UInt64 × Turn)} {done : Nat}
    (inside : done ≤ (s.files.files index).unread)
    (short : done + capacity iov < 9223372036854775808)
    (noWrap : (s.files.files index).pos.toNat < (s.files.files index).size.toNat →
      (s.files.files index).pos.toNat + (done + capacity iov) < 18446744073709551616)
    (moves : Moves s.files files index done) :
    ∃ files', { s with files }.readLoop fd (ahead s.files index done) iov =
        .ok (some (.ofData (ahead s.files index
          (min (done + capacity iov) (s.files.files index).unread))), { s with files := files' }) ∧
      Moves s.files files' index (min (done + capacity iov) (s.files.files index).unread) := by
  induction iov generalizing done files with
  | nil =>
      refine ⟨files, ?_, ?_⟩
      all_goals rw [capacity_nil, Nat.add_zero, Nat.min_eq_left inside]
      · rfl
      · exact moves
  | cons element rest ih =>
      obtain ⟨len, turn⟩ := element
      rw [capacity_cons] at short noWrap ⊢
      have position := moves.pos_toNat inside
      have left := moves.unread_eq inside
      have size : (files.files index).size = (s.files.files index).size := by rw [moves.file]
      obtain ⟨files', served, moved⟩ : ∃ files', { s with files }.sysRead fd len turn =
          .ok (some (.ofData (ahead files index (min len.toNat (files.files index).unread))),
            { s with files := files' }) ∧
          Moves files files' index (min len.toNat (files.files index).unread) :=
        sysRead_moves (s := { s with files }) ((moves.openIndex_eq fd).trans opened)
          (reliable.of_fails_eq moves.media.fails) len turn (by omega)
          (by rw [position, size]; omega)
      by_cases fits : len.toNat ≤ (files.files index).unread
      · rw [Nat.min_eq_left fits] at served moved
        obtain ⟨files'', looped, ends⟩ := ih (by omega) (by omega) (by omega) (moves.trans moved)
        rw [Nat.add_assoc] at looped ends
        refine ⟨files'', ?_, ends⟩
        rw [readLoop_of_full served (length_ahead ..), moves.ahead_append]
        exact looped
      · rw [Nat.min_eq_right (Nat.le_of_not_le fits)] at served moved
        have all : min (done + (len.toNat + capacity rest)) (s.files.files index).unread =
            done + (files.files index).unread := by
          omega
        rw [all]
        refine ⟨files', ?_, moves.trans moved⟩
        rw [readLoop_of_short served (by rw [length_ahead]; exact Nat.lt_of_not_le fits),
          moves.ahead_append]

theorem sameEffect_read_file (opened : openIndex s.files fd = some index)
    (reliable : s.files.device.Reliable) {iov : List (UInt64 × Turn)} (turn : Turn)
    (short : capacity iov < 9223372036854775808)
    (noWrap : (s.files.files index).pos.toNat < (s.files.files index).size.toNat →
      (s.files.files index).pos.toNat + capacity iov < 18446744073709551616) :
    SameEffect (s.sysReadv fd iov) (s.sysRead fd (.ofNat (capacity iov)) turn) := by
  have length : (UInt64.ofNat (capacity iov)).toNat = capacity iov :=
    UInt64.toNat_ofNat_of_lt' (by rw [UInt64.size]; omega)
  obtain ⟨files, plain, moves⟩ := sysRead_moves opened reliable (.ofNat (capacity iov)) turn
    (by rw [length]; exact short) (by rw [length]; exact noWrap)
  obtain ⟨files', scattered, moves'⟩ := loop_moves opened reliable (Nat.zero_le _)
    (by rw [Nat.zero_add]; exact short) (by rw [Nat.zero_add]; exact noWrap)
    (Moves.zero s.files index)
  rw [length] at plain moves
  rw [Nat.zero_add] at scattered moves'
  exact ⟨_, _, _, scattered, plain, moves'.sameVolume moves, rfl, rfl, rfl⟩

end File

/-! ## The console -/

namespace Console

variable (c : Console)

theorem keys_first : c.keys c.first ≠ 0 := (Nat.find_spec (c.live c.next)).2

/-- The first key is the one at a given place. -/
theorem first_eq {position : Nat} (later : c.next ≤ position) (pressed : c.keys position ≠ 0)
    (before : ∀ earlier < position, c.next ≤ earlier → c.keys earlier = 0) :
    c.first = position := by
  rw [first, Nat.find_eq_iff]
  refine ⟨⟨later, pressed⟩, fun earlier sooner found => ?_⟩
  exact found.2 (before earlier sooner found.1)

@[simp] theorem length_burst (count : Nat) : (c.burst count).length = count := by simp [burst]

/-- Keys that come without a pause are drained together. -/
theorem drain_add {keys : Nat → UInt8} {count position : Nat}
    (holds : ∀ offset < count, keys (position + offset) ≠ 0) (room : Nat) :
    drain keys (count + room) position =
      (((List.range count).map fun offset => keys (position + offset)) ++
        (drain keys room (position + count)).1, (drain keys room (position + count)).2) := by
  induction count generalizing position with
  | zero => rw [Nat.zero_add]; rfl
  | succ count ih =>
      have shift (offset : Nat) : position + 1 + offset = position + (offset + 1) := by omega
      have head : keys position ≠ 0 := holds 0 (Nat.succ_pos count)
      have rest := @ih (position + 1) fun offset inside => by
        rw [shift]
        exact holds (offset + 1) (Nat.succ_lt_succ inside)
      rw [Nat.add_right_comm, drain, if_neg head, rest, List.range_succ_eq_map]
      simp only [List.map_cons, List.map_map, Nat.add_zero, Function.comp_def, shift,
        Nat.succ_eq_add_one, List.cons_append]

theorem read_eq {len : Nat} (positive : 0 < len) :
    c.read len = ((drain c.keys len c.first).1, c.upTo (drain c.keys len c.first).2) := by
  obtain ⟨rest, rfl⟩ := Nat.exists_eq_succ_of_ne_zero positive.ne'
  rw [drain, if_neg c.keys_first]
  rfl

section Reading

variable {c} {len count : Nat}

/-- A read of keys that come without a pause gets them all. -/
theorem read_of_holds (positive : 0 < len) (holds : c.Holds len) :
    c.read len = (c.burst len, c.skip len) := by
  rw [c.read_eq positive, ← Nat.add_zero len, drain_add holds, drain, List.append_nil, skip,
    if_neg (by omega)]
  rfl

/-- A read of more keys gets those before the pause, and takes note of it. -/
theorem read_of_pauses (pauses : c.Pauses count) (inside : count < len) :
    c.read len = (c.burst count, c.upTo (c.first + count + 1)) := by
  obtain ⟨room, rfl⟩ := Nat.exists_eq_add_of_lt inside
  rw [c.read_eq (by omega), Nat.add_assoc, drain_add pauses.1, drain, if_pos pauses.2,
    List.append_nil]
  rfl

variable (c) in
theorem holds_or_pauses (len : Nat) : c.Holds len ∨ ∃ count < len, c.Pauses count := by
  induction len with
  | zero => exact .inl fun offset inside => absurd inside (Nat.not_lt_zero offset)
  | succ len ih =>
      rcases ih with holds | ⟨count, inside, pauses⟩
      · by_cases pressed : c.keys (c.first + len) = 0
        · exact .inr ⟨len, Nat.lt_succ_self len, holds, pressed⟩
        · refine .inl fun offset inside => ?_
          rcases Nat.lt_succ_iff_lt_or_eq.mp inside with before | rfl
          · exact holds offset before
          · exact pressed
      · exact .inr ⟨count, Nat.lt_succ_of_lt inside, pauses⟩

/-- A read gets something. -/
theorem read_length_pos (c : Console) (len : Nat) : 0 < (c.read len).1.length := by
  rw [read, List.length_cons]
  exact Nat.succ_pos _

theorem read_length_le (c : Console) (positive : 0 < len) : (c.read len).1.length ≤ len := by
  rcases c.holds_or_pauses len with holds | ⟨count, inside, pauses⟩
  · rw [read_of_holds positive holds, length_burst]
  · rw [read_of_pauses pauses inside, length_burst]
    exact inside.le

theorem Holds.mono (holds : c.Holds len) (fewer : count ≤ len) : c.Holds count :=
  fun offset inside => holds offset (Nat.lt_of_lt_of_le inside fewer)

section Skipping

variable (goesOn : c.keys (c.first + count) ≠ 0)

include goesOn

theorem first_skip : (c.skip count).first = c.first + count := by
  rw [skip]
  split
  next zero => rw [zero, Nat.add_zero]
  next => exact first_eq _ (Nat.le_refl _) goesOn fun earlier sooner later =>
    absurd sooner (Nat.not_lt.mpr later)

omit goesOn in
theorem keys_skip : (c.skip count).keys = c.keys := by
  rw [skip]
  split <;> rfl

omit goesOn in
theorem upTo_skip (next : Nat) : (c.skip count).upTo next = c.upTo next := by
  rw [skip]
  split <;> rfl

theorem skip_skip (more : Nat) : (c.skip count).skip more = c.skip (count + more) := by
  by_cases zero : more = 0
  · rw [zero, Nat.add_zero, skip, if_pos rfl]
  · rw [skip, if_neg zero, first_skip goesOn, upTo_skip, Nat.add_assoc]
    rw [skip, if_neg (by omega)]

theorem burst_skip (more : Nat) : c.burst count ++ (c.skip count).burst more =
    c.burst (count + more) := by
  simp only [burst, List.range_add, List.map_append, List.map_map, keys_skip, first_skip goesOn,
    Function.comp_def, Nat.add_assoc]

theorem holds_skip_iff (holds : c.Holds count) (more : Nat) :
    (c.skip count).Holds more ↔ c.Holds (count + more) := by
  simp only [Holds, keys_skip, first_skip goesOn, Nat.add_assoc]
  constructor
  · intro after offset inside
    by_cases before : offset < count
    · exact holds offset before
    · rw [← Nat.add_sub_cancel' (Nat.le_of_not_lt before)]
      exact after (offset - count) (by omega)
  · intro all offset inside
    exact all (count + offset) (Nat.add_lt_add_left inside count)

theorem pauses_skip_iff (holds : c.Holds count) (more : Nat) :
    (c.skip count).Pauses more ↔ c.Pauses (count + more) := by
  rw [Pauses, holds_skip_iff goesOn holds, keys_skip, first_skip goesOn, Nat.add_assoc, Pauses]

end Skipping

end Reading

end Console

section Console

variable {s : State} {c : Console}

/-- A read from the console; a read of nothing does not wait. -/
theorem sysRead_console (len : UInt64) (turn : Turn) (short : len.toNat < 9223372036854775808) :
    s.sysRead 0 len turn = if len.toNat = 0 then .ok (some (.ofData []), s) else
      .ok (some (.ofData (s.console.read len.toNat).1),
        { s with console := (s.console.read len.toNat).2 }) := by
  have noFile : openIndex s.files 0 = none := openIndex_of_lt s.files (by decide)
  have noSocket : s.shim.net.isFd 0 = false := Net.State.isFd_of_lt s.shim.net (by decide)
  simp only [State.sysRead, noFile, noSocket, Bool.false_eq_true, if_false, ne_eq, not_true,
    Word64.signed_of_lt short, Int.natCast_nonpos_iff]
  rfl

/-- Whatever happens, the loop on the console delivers more as long as there is room. -/
theorem readLoop_grows {iov : List (UInt64 × Turn)} (short : capacity iov < 9223372036854775808)
    (done : List UInt8) :
    ∃ data s', s.readLoop 0 done iov = .ok (some (.ofData (done ++ data)), s') ∧
      (0 < capacity iov → data ≠ []) := by
  induction iov generalizing s done with
  | nil =>
      refine ⟨[], s, ?_, fun room => absurd room (Nat.lt_irrefl 0)⟩
      rw [List.append_nil]
      rfl
  | cons element rest ih =>
      obtain ⟨len, turn⟩ := element
      rw [capacity_cons] at short ⊢
      have served := sysRead_console (s := s) len turn (by omega)
      by_cases nothing : len.toNat = 0
      · rw [if_pos nothing] at served
        obtain ⟨data, s', looped, more⟩ := ih (s := s) (by omega) done
        refine ⟨data, s', ?_, fun room => more (by omega)⟩
        rw [readLoop_of_full served nothing.symm, List.append_nil, looped]
      · rw [if_neg nothing] at served
        have nonempty := List.ne_nil_of_length_pos (s.console.read_length_pos len.toNat)
        by_cases fits : (s.console.read len.toNat).1.length < len.toNat
        · exact ⟨_, _, readLoop_of_short served fits, fun _ => nonempty⟩
        · have whole : (s.console.read len.toNat).1.length = len.toNat :=
            Nat.le_antisymm (s.console.read_length_le (Nat.pos_of_ne_zero nothing))
              (Nat.le_of_not_lt fits)
          obtain ⟨data, s', looped, -⟩ := ih (by omega) (done ++ (s.console.read len.toNat).1)
          refine ⟨(s.console.read len.toNat).1 ++ data, s', ?_, fun _ => by simp [nonempty]⟩
          rw [readLoop_of_full served whole, looped, List.append_assoc]

/-- The loop on the console after some keys, if they do not pause before its end. -/
theorem readLoop_holds {iov : List (UInt64 × Turn)} {done : Nat}
    (short : capacity iov < 9223372036854775808) (room : 0 < done + capacity iov)
    (holds : c.Holds done)
    (goesOn : ∀ count, capacity (iov.take count) < capacity iov →
      ¬c.Pauses (done + capacity (iov.take count))) :
    { s with console := c.skip done }.readLoop 0 (c.burst done) iov =
      .ok (some (.ofData (c.read (done + capacity iov)).1),
        { s with console := (c.read (done + capacity iov)).2 }) := by
  induction iov generalizing done with
  | nil =>
      rw [capacity_nil, Nat.add_zero] at room ⊢
      rw [Console.read_of_holds room holds]
      rfl
  | cons element rest ih =>
      obtain ⟨len, turn⟩ := element
      rw [capacity_cons] at short room goesOn ⊢
      have later (count : Nat) (inside : capacity (rest.take count) < capacity rest) :
          ¬c.Pauses (done + len.toNat + capacity (rest.take count)) := by
        have := goesOn (count + 1)
        rw [List.take_succ_cons, capacity_cons, ← Nat.add_assoc] at this
        exact this (by omega)
      have served := sysRead_console (s := { s with console := c.skip done }) len turn (by omega)
      by_cases nothing : len.toNat = 0
      · rw [if_pos nothing] at served
        rw [readLoop_of_full served nothing.symm, List.append_nil]
        simp only [nothing, Nat.zero_add, Nat.add_zero] at later room ⊢
        exact ih (by omega) room holds later
      · rw [if_neg nothing] at served
        have pressed : c.keys (c.first + done) ≠ 0 := fun pause =>
          goesOn 0 (by rw [List.take_zero, capacity_nil]; omega) ⟨holds, pause⟩
        rcases (c.skip done).holds_or_pauses len.toNat with all | ⟨count, inside, pauses⟩
        · have both := (Console.holds_skip_iff pressed holds len.toNat).mp all
          rw [Console.read_of_holds (Nat.pos_of_ne_zero nothing) all] at served
          rw [readLoop_of_full served (Console.length_burst _ _), Console.burst_skip pressed,
            Console.skip_skip pressed, ← Nat.add_assoc]
          exact ih (by omega) (by omega) both later
        · have paused := (Console.pauses_skip_iff pressed holds count).mp pauses
          rw [Console.read_of_pauses pauses inside] at served
          rw [readLoop_of_short served (by rw [Console.length_burst]; exact inside),
            Console.burst_skip pressed, Console.read_of_pauses paused (by omega),
            Console.upTo_skip, Console.first_skip pressed, Nat.add_assoc c.first]

/-- The loop on the console after some keys, if they pause where an element ends, waits for
more. -/
theorem readLoop_pauses {iov : List (UInt64 × Turn)} {done count : Nat}
    (short : capacity iov < 9223372036854775808) (holds : c.Holds done)
    (inside : capacity (iov.take count) < capacity iov)
    (pauses : c.Pauses (done + capacity (iov.take count))) :
    ∃ data s', { s with console := c.skip done }.readLoop 0 (c.burst done) iov =
        .ok (some (.ofData data), s') ∧ done + capacity (iov.take count) < data.length := by
  induction iov generalizing done count with
  | nil =>
      rw [List.take_nil] at inside
      exact absurd inside (Nat.lt_irrefl _)
  | cons element rest ih =>
      obtain ⟨len, turn⟩ := element
      cases count with
      | zero =>
          rw [List.take_zero, capacity_nil] at inside ⊢
          obtain ⟨data, s', looped, more⟩ := readLoop_grows
            (s := { s with console := c.skip done }) short (c.burst done)
          refine ⟨_, s', looped, ?_⟩
          have := List.length_pos_iff.mpr (more inside)
          rw [List.length_append, Console.length_burst, Nat.add_zero]
          omega
      | succ count =>
          rw [List.take_succ_cons, capacity_cons] at inside pauses ⊢
          rw [capacity_cons] at short inside
          rw [← Nat.add_assoc] at pauses ⊢
          have served := sysRead_console (s := { s with console := c.skip done }) len turn
            (by omega)
          by_cases nothing : len.toNat = 0
          · rw [if_pos nothing] at served
            rw [nothing, Nat.add_zero] at pauses ⊢
            rw [readLoop_of_full served nothing.symm, List.append_nil]
            exact ih (by omega) holds (by omega) pauses
          · rw [if_neg nothing] at served
            have pressed : c.keys (c.first + done) ≠ 0 := pauses.1 done (by omega)
            have both : c.Holds (done + len.toNat) := pauses.1.mono (Nat.le_add_right _ _)
            have all := (Console.holds_skip_iff pressed holds len.toNat).mpr both
            rw [Console.read_of_holds (Nat.pos_of_ne_zero nothing) all] at served
            rw [readLoop_of_full served (Console.length_burst _ _), Console.burst_skip pressed,
              Console.skip_skip pressed]
            exact ih (by omega) both (by omega) pauses

/-- On the console, a scattered read is a plain one exactly if the keys waiting do not end
where an element does. -/
theorem sameEffect_read_console_iff {iov : List (UInt64 × Turn)} (turn : Turn)
    (room : 0 < capacity iov) (short : capacity iov < 9223372036854775808) :
    SameEffect (s.sysReadv 0 iov) (s.sysRead 0 (.ofNat (capacity iov)) turn) ↔
      ∀ count, capacity (iov.take count) < capacity iov →
        ¬s.console.Pauses (capacity (iov.take count)) := by
  have length : (UInt64.ofNat (capacity iov)).toNat = capacity iov :=
    UInt64.toNat_ofNat_of_lt' (by rw [UInt64.size]; omega)
  have drained : s.console.Holds 0 := fun offset inside => absurd inside (Nat.not_lt_zero offset)
  have plain := sysRead_console (s := s) (.ofNat (capacity iov)) turn (by rw [length]; exact short)
  rw [length, if_neg room.ne'] at plain
  constructor
  · intro same count inside pauses
    obtain ⟨data, s', scattered, longer⟩ := readLoop_pauses (s := s) short drained inside
      (by rw [Nat.zero_add]; exact pauses)
    have counts := Int.ofNat_inj.mp (same.ret_eq scattered plain)
    rw [Console.read_of_pauses pauses inside, Console.length_burst] at counts
    omega
  · intro goesOn
    have scattered := readLoop_holds (s := s) short (by omega) drained
      (by simpa only [Nat.zero_add] using goesOn)
    rw [Nat.zero_add] at scattered
    exact ⟨_, _, _, scattered, plain, .refl _, rfl, rfl, rfl⟩

end Console

/-- A scattered read into at least one byte does what a read of the whole length does: on a
file always, on the console exactly if the keys waiting do not end where an element does. -/
theorem scattered_read_iff (s : State) (fd : Int) (iov : List (UInt64 × Turn)) (turn : Turn)
    (room : 0 < capacity iov) (short : capacity iov < 9223372036854775808) :
    (∀ index, openIndex s.files fd = some index → s.files.device.Reliable →
      ((s.files.files index).pos.toNat < (s.files.files index).size.toNat →
        (s.files.files index).pos.toNat + capacity iov < 18446744073709551616) →
      SameEffect (s.sysReadv fd iov) (s.sysRead fd (.ofNat (capacity iov)) turn)) ∧
    (SameEffect (s.sysReadv 0 iov) (s.sysRead 0 (.ofNat (capacity iov)) turn) ↔
      ∀ count, capacity (iov.take count) < capacity iov →
        ¬s.console.Pauses (capacity (iov.take count))) :=
  ⟨fun _ opened reliable noWrap => sameEffect_read_file opened reliable turn short noWrap,
    sameEffect_read_console_iff turn room short⟩

/-- Two elements of one byte. -/
def twoBytes : List (UInt64 × Turn) := [(1, .idle), (1, .idle)]

/-- Two bytes of a new file and of a key that is held down. -/
theorem twoBytes_alike :
    SameEffect (newFile.sysReadv 3 twoBytes) (newFile.sysRead 3 2 .idle) ∧
      SameEffect (newFile.sysReadv 0 twoBytes) (newFile.sysRead 0 2 .idle) := by
  obtain ⟨file, console⟩ := scattered_read_iff newFile 3 twoBytes .idle (by decide) (by decide)
  refine ⟨file 0 newFile_opened newFile_reliable (fun _ => by decide +kernel), console.mpr ?_⟩
  intro count _ pauses
  exact absurd (show (97 : UInt8) = 0 from pauses.2) (by decide)

/-- One key, a pause, and then a key that is held down. -/
def pausedKey : Console :=
  { keys := fun position => if position = 1 then 0 else 97
    live := fun start => ⟨start + 2, by omega, by simp⟩
    next := 0, output := [] }

/-- With one key waiting, two elements of one byte wait for a second key. -/
theorem pausedKey_waits :
    (∃ s, { newFile with console := pausedKey }.sysReadv 0 twoBytes =
        .ok (some { ret := 2, data := [97, 97] }, s) ∧ s.console.next = 3) ∧
      (∃ s, { newFile with console := pausedKey }.sysRead 0 2 .idle =
        .ok (some { ret := 1, data := [97] }, s) ∧ s.console.next = 2) ∧
      ¬SameEffect ({ newFile with console := pausedKey }.sysReadv 0 twoBytes)
        ({ newFile with console := pausedKey }.sysRead 0 2 .idle) := by
  have start : pausedKey.first = 0 :=
    Console.first_eq _ (Nat.le_refl 0) (by decide) fun earlier sooner =>
      absurd sooner (Nat.not_lt_zero earlier)
  have resumed : (pausedKey.upTo 1).first = 2 := by
    refine Console.first_eq _ (show 1 ≤ 2 by decide) (show (97 : UInt8) ≠ 0 by decide) ?_
    intro earlier sooner later
    exact if_pos (Nat.le_antisymm (Nat.le_of_lt_succ sooner) later)
  have plain : { newFile with console := pausedKey }.sysRead 0 2 .idle =
      .ok (some { ret := 1, data := [97] }, { newFile with console := pausedKey.upTo 2 }) := by
    rw [sysRead_console 2 .idle (by decide), if_neg (by decide), Console.read, start]
    rfl
  have first : { newFile with console := pausedKey }.sysRead 0 1 .idle =
      .ok (some (.ofData [97]), { newFile with console := pausedKey.upTo 1 }) := by
    rw [sysRead_console 1 .idle (by decide), if_neg (by decide), Console.read, start]
    rfl
  have second : { newFile with console := pausedKey.upTo 1 }.sysRead 0 1 .idle =
      .ok (some (.ofData [97]), { newFile with console := pausedKey.upTo 3 }) := by
    rw [sysRead_console 1 .idle (by decide), if_neg (by decide), Console.read, resumed]
    rfl
  have scattered : { newFile with console := pausedKey }.sysReadv 0 twoBytes =
      .ok (some { ret := 2, data := [97, 97] }, { newFile with console := pausedKey.upTo 3 }) := by
    change State.readLoop _ 0 [] [(1, .idle), (1, .idle)] = _
    rw [readLoop_of_full first rfl, readLoop_of_full second rfl]
    rfl
  refine ⟨⟨_, scattered, rfl⟩, ⟨_, plain, rfl⟩, fun same => ?_⟩
  exact absurd (same.ret_eq scattered plain) (by decide)

end AppPortKit.Posix
