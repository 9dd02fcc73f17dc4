import AppPortKit.Stdio.Destination

/-!
# Streams that are written

What one call does to a stream and its destination.  A call may put its bytes into the
buffer, or hand over the buffer and more with `writev`; then the destination takes all of it,
or what it has room for, and the call fails.
-/

namespace AppPortKit.Stdio

open Libc Posix Program

/-! ## `__stdio_write` -/

namespace IoFile

theorem flatten_advance {iov : List (List UInt8)} (two : iov.length ≤ 2) (cnt : Nat) :
    (advance iov cnt).flatten = iov.flatten.drop cnt := by
  match iov, two with
  | [], _ => rw [advance, List.flatten_nil, List.drop_nil]
  | [first], _ => simp only [advance, List.flatten_cons, List.flatten_nil, List.append_nil]
  | [first, second], _ =>
      rw [advance]
      split
      next past =>
        simp only [List.flatten_cons, List.flatten_nil, List.append_nil]
        rw [List.drop_append, List.drop_eq_nil_of_le past.le, List.nil_append]
      next within =>
        simp only [List.flatten_cons, List.flatten_nil, List.append_nil]
        rw [List.drop_append_of_le_length (Nat.le_of_not_lt within)]

theorem advance_zero (iov : List (List UInt8)) : advance iov 0 = iov := by
  match iov with
  | [] | [_] | _ :: _ :: _ => simp [advance]

theorem length_advance_le {iov : List (List UInt8)} (two : iov.length ≤ 2) (cnt : Nat) :
    (advance iov cnt).length ≤ 2 := by
  match iov, two with
  | [], _ => exact Nat.zero_le 2
  | [first], _ => exact Nat.le_succ 1
  | [first, second], _ =>
      rw [advance]
      split
      · exact Nat.le_succ 1
      · exact Nat.le_refl 2

section Loop

variable {fd : Int} (dest : Destination fd) {f : IoFile} {w : World} {iov : List (List UInt8)}
  {turns : Nat → Turn} {later : List (Nat → Turn)} (here : f.fd = fd)
  (ready : dest.Ready w.system) (two : iov.length ≤ 2)
  (short : iov.flatten.length < 9223372036854775808) (len fuel : Nat)

include here ready two short

/-- Everything is taken. -/
theorem stdioWriteLoop_fits (next : w.turns = turns :: later) (head : iov.headD [] ≠ [])
    (nonempty : iov.flatten ≠ []) (fits : Fits (dest.room w.system) iov.flatten.length) :
    Returns (stdioWriteLoop f len (fuel + 1) iov iov.flatten.length) w fun result w' =>
      result = (len, { f with write := some [] }) ∧
        dest.Put w.system w'.system iov.flatten ∧ w'.turns = later := by
  subst here
  have roomy : dest.room w.system ≠ some 0 := fun full =>
    nonempty (List.length_eq_zero_iff.mp (Nat.le_zero.mp (fits 0 full)))
  obtain ⟨s', served, put⟩ := dest.writev turns ready two short head roomy
  rw [accepted_of_fits fits] at served put
  rw [stdioWriteLoop]
  refine (returns_bmosSyscall next served).bind ?_
  rintro _ _ ⟨rfl, rfl⟩
  simp only [Reply.code, syscallRet_natCast, if_true]
  exact returns_pure ⟨rfl, put, rfl⟩

/-- Nothing is taken. -/
theorem stdioWriteLoop_full (next : w.turns = turns :: later) (nonempty : iov.flatten ≠ [])
    (full : dest.room w.system = some 0) :
    Returns (stdioWriteLoop f len (fuel + 1) iov iov.flatten.length) w fun result w' =>
      result = (if iov.length = 2 then 0 else len - (iov.headD []).length,
        { f with write := none, err := true }) ∧
        dest.Put w.system w'.system [] ∧ w'.turns = later := by
  subst here
  obtain ⟨s', served, put⟩ := dest.writev_full turns ready two short nonempty full
  rw [stdioWriteLoop]
  refine (returns_bmosSyscall next served).bind ?_
  rintro _ _ ⟨rfl, rfl⟩
  have failed : syscallRet (Reply.code (-ENOSPC)).ret = -1 := by decide
  have other : ¬ (-1 : Int) = iov.flatten.length := by omega
  simp only [failed, if_neg other, Int.reduceNeg, Int.reduceLT, if_true]
  exact returns_pure ⟨rfl, put, rfl⟩

/-- The first pass fills the destination, and the second fails. -/
theorem stdioWriteLoop_cut {turns' : Nat → Turn} (next : w.turns = turns :: turns' :: later)
    (head : iov.headD [] ≠ []) {most : Nat} (limit : dest.room w.system = some most)
    (positive : most ≠ 0) (beyond : most < iov.flatten.length) :
    Returns (stdioWriteLoop f len (fuel + 2) iov iov.flatten.length) w fun result w' =>
      result = (if (advance iov most).length = 2 then 0 else
        len - ((advance iov most).headD []).length, { f with write := none, err := true }) ∧
        dest.Put w.system w'.system (iov.flatten.take most) ∧ w'.turns = later := by
  subst here
  have roomy : dest.room w.system ≠ some 0 := by
    rw [limit]
    exact fun full => positive (Option.some_inj.mp full)
  obtain ⟨s', served, put⟩ := dest.writev turns ready two short head roomy
  rw [limit, accepted_some] at served put
  have length : (iov.flatten.take most).length = most := by
    rw [List.length_take, Nat.min_eq_left beyond.le]
  have fits : Fits (dest.room w.system) (iov.flatten.take most).length := by
    rw [length]
    exact Sink.fits_self limit
  have ready' := dest.ready ready put fits
  have full : dest.room s' = some 0 := by
    rw [dest.room_eq ready put fits, limit, length, Option.map_some, Nat.sub_self]
  rw [stdioWriteLoop]
  rw [length] at served
  refine (returns_bmosSyscall next served).bind ?_
  rintro _ _ ⟨rfl, rfl⟩
  have notWhole : ¬ (most : Int) = iov.flatten.length := by omega
  have notNegative : ¬ (most : Int) < 0 := by omega
  simp only [Reply.code, syscallRet_natCast, if_neg notWhole, if_neg notNegative,
    Int.toNat_natCast]
  have rest := flatten_advance two most
  have left : iov.flatten.length - most = (advance iov most).flatten.length := by
    rw [rest, List.length_drop]
  rw [left]
  have again : Returns _ _ _ := stdioWriteLoop_full dest (w := ⟨s', turns' :: later⟩) rfl ready'
    (length_advance_le two most) (by rw [rest, List.length_drop]; omega) len fuel rfl
    (by rw [rest, Ne, List.drop_eq_nil_iff]; omega) full
  refine again.mono ?_
  rintro _ w'' ⟨rfl, put', rest'⟩
  have both := dest.put_append ready put put' (by rwa [List.length_nil, Nat.add_zero])
  rw [List.append_nil] at both
  exact ⟨rfl, both, rest'⟩

end Loop

section Write

variable {fd : Int} (dest : Destination fd) {f : IoFile} {w : World} {buf : List UInt8}

theorem flatten_iovs (f : IoFile) (buf : List UInt8) : (f.iovs buf).flatten = f.pending ++ buf := by
  rw [iovs]
  split
  next empty =>
    rw [List.length_eq_zero_iff.mp empty, List.nil_append, List.flatten_cons, List.flatten_nil,
      List.append_nil]
  next => simp only [List.flatten_cons, List.flatten_nil, List.append_nil]

theorem length_iovs_le (f : IoFile) (buf : List UInt8) : (f.iovs buf).length ≤ 2 := by
  rw [iovs]
  split
  · exact Nat.le_succ 1
  · exact Nat.le_refl 2

theorem head_iovs (remains : f.pending ++ buf ≠ []) : (f.iovs buf).headD [] ≠ [] := by
  rw [iovs]
  split
  next empty =>
    rw [List.length_eq_zero_iff.mp empty, List.nil_append] at remains
    exact remains
  next held => exact fun empty => held (List.length_eq_zero_iff.mpr empty)

/-- How much of the buffer was written when the loop fails after so many bytes. -/
theorem advance_iovs {most : Nat} (beyond : most < (f.pending ++ buf).length) :
    (if (advance (f.iovs buf) most).length = 2 then 0 else
      buf.length - ((advance (f.iovs buf) most).headD []).length) = most - f.pending.length := by
  rw [List.length_append] at beyond
  rw [iovs]
  split
  next empty =>
    simp only [advance, List.length_cons, List.length_nil, List.headD_cons, List.length_drop]
    rw [if_neg (by decide)]
    omega
  next =>
    rw [advance]
    split
    next past =>
      simp only [List.length_cons, List.length_nil, List.headD_cons, List.length_drop]
      rw [if_neg (by decide)]
      omega
    next within =>
      simp only [List.length_cons, List.length_nil, Nat.reduceAdd, if_true]
      omega

variable (here : f.fd = fd) (ready : dest.Ready w.system) (turns : 2 ≤ w.turns.length)
  (remains : f.pending ++ buf ≠ []) (short : (f.pending ++ buf).length < 9223372036854775808)

include here ready turns remains short

theorem stdioWrite_fits (fits : Fits (dest.room w.system) (f.pending ++ buf).length) :
    Returns (f.stdioWrite buf) w fun result w' =>
      result = (buf.length, { f with write := some [] }) ∧
        dest.Put w.system w'.system (f.pending ++ buf) ∧
        w.turns.length ≤ w'.turns.length + 2 := by
  have whole := flatten_iovs f buf
  obtain ⟨turn, later, next⟩ := List.exists_cons_of_length_pos (show 0 < w.turns.length by omega)
  have returns := stdioWriteLoop_fits dest here ready (length_iovs_le f buf) (by rwa [whole])
    buf.length w.turns.length next (head_iovs remains) (by rwa [whole]) (by rwa [whole])
  rw [whole, List.length_append] at returns
  refine returns.mono ?_
  rintro _ w' ⟨rfl, put, rest⟩
  refine ⟨rfl, put, ?_⟩
  rw [next, rest, List.length_cons]
  omega

theorem stdioWrite_cut {most : Nat} (limit : dest.room w.system = some most)
    (beyond : most < (f.pending ++ buf).length) :
    Returns (f.stdioWrite buf) w fun result w' =>
      result = (most - f.pending.length, { f with write := none, err := true }) ∧
        dest.Put w.system w'.system ((f.pending ++ buf).take most) ∧
        w.turns.length ≤ w'.turns.length + 2 := by
  have whole := flatten_iovs f buf
  obtain ⟨turn, later, next⟩ := List.exists_cons_of_length_pos (show 0 < w.turns.length by omega)
  rw [next, List.length_cons] at turns
  obtain ⟨turn', later', next'⟩ := List.exists_cons_of_length_pos (show 0 < later.length by omega)
  rw [next'] at next
  have count : w.turns.length = later'.length + 2 := by
    rw [next, List.length_cons, List.length_cons]
  by_cases full : most = 0
  · have returns := stdioWriteLoop_full dest here ready (length_iovs_le f buf) (by rwa [whole])
      buf.length w.turns.length next (by rwa [whole]) (by rw [limit, full])
    rw [whole, List.length_append] at returns
    refine returns.mono ?_
    rintro _ w' ⟨rfl, put, rest⟩
    refine ⟨?_, ?_, ?_⟩
    · have failed := advance_iovs beyond
      rw [full, advance_zero] at failed
      rw [failed, full]
    · rwa [full, List.take_zero]
    · rw [count, rest, List.length_cons]
      omega
  · have returns := stdioWriteLoop_cut dest here ready (length_iovs_le f buf) (by rwa [whole])
      buf.length (w.turns.length - 1) next (head_iovs remains) limit full (by rwa [whole])
    rw [whole, List.length_append, advance_iovs beyond, show w.turns.length - 1 + 2 =
      w.turns.length + 1 by omega] at returns
    refine returns.mono ?_
    rintro _ w' ⟨rfl, put, rest⟩
    refine ⟨rfl, put, ?_⟩
    rw [count, rest]

end Write

/-! ## Streams that are written -/

/-- The stream was given `items` for a destination, and holds back a part of a buffer, and no
whole line if it is line buffered.  `lost` says whether its destination could not take
something. -/
structure Writing {start : IoFile} (dest : Destination start.fd) (origin : State) (f : IoFile)
    (s : State) (items : List UInt8) (lost : Bool) : Prop where
  fixed : ∃ write read err, f = { start with write, read, err }
  delivered : dest.Delivered origin s items f.pending lost
  within : f.pending.length ≤ f.bufSize
  writable : f.noWrite = false
  notReading : f.read = none
  lines : f.lbf = none ∨ f.lbf = some 10 ∧ 10 ∉ f.pending

section Newline

theorem throughNewline_le (s : List UInt8) : throughNewline s ≤ s.length := by
  rw [throughNewline, ← s.length_reverse]
  exact (List.dropWhile_suffix _).length_le

theorem drop_throughNewline (s : List UInt8) :
    s.drop (throughNewline s) = (s.reverse.takeWhile (· ≠ 10)).reverse := by
  have split := congrArg List.reverse
    (List.takeWhile_append_dropWhile (p := (· ≠ 10)) (l := s.reverse))
  rw [List.reverse_append, List.reverse_reverse] at split
  calc
    s.drop (throughNewline s) =
        ((s.reverse.dropWhile (· ≠ 10)).reverse ++ (s.reverse.takeWhile (· ≠ 10)).reverse).drop
          (throughNewline s) := by rw [split]
    _ = (s.reverse.takeWhile (· ≠ 10)).reverse := by
      rw [throughNewline, ← List.length_reverse, List.drop_left]

theorem newline_notMem_drop (s : List UInt8) : 10 ∉ s.drop (throughNewline s) := by
  rw [drop_throughNewline, List.mem_reverse]
  intro among
  simpa using List.mem_takeWhile_imp among

end Newline

namespace Writing

variable {start : IoFile} {dest : Destination start.fd} {origin s : State} {f : IoFile}
  {w : World} {items more : List UInt8} {lost : Bool}

theorem here (writing : Writing dest origin f s items lost) : f.fd = start.fd := by
  obtain ⟨write, read, err, same⟩ := writing.fixed
  rw [same]

/-- Bytes are put into the buffer. -/
theorem hold (writing : Writing dest origin f s items lost) (more : List UInt8)
    (room : (f.pending ++ more).length ≤ f.bufSize) (line : f.lbf = none ∨ 10 ∉ more) :
    Writing dest origin { f with write := some (f.pending ++ more) } s (items ++ more) lost where
  fixed := by
    obtain ⟨write, read, err, same⟩ := writing.fixed
    exact ⟨some (f.pending ++ more), read, err, by rw [same]⟩
  delivered := writing.delivered.hold more
  within := room
  writable := writing.writable
  notReading := writing.notReading
  lines := by
    obtain unbuffered | ⟨buffered, noLine⟩ := writing.lines
    · exact .inl unbuffered
    · obtain unbuffered | within := line
      · exact .inl unbuffered
      · exact .inr ⟨buffered, fun among => (List.mem_append.mp among).elim noLine within⟩

/-- The buffer is empty. -/
theorem clear (writing : Writing dest origin f s items lost) {f' : IoFile} {s' : State}
    {items' : List UInt8} {lost' : Bool}
    (same : ∃ write read err, f' = { f with write, read, err } ∧ read = none)
    (empty : f'.pending = []) (delivered : dest.Delivered origin s' items' [] lost') :
    Writing dest origin f' s' items' lost' := by
  obtain ⟨write, read, err, rfl, notReading⟩ := same
  refine ⟨?_, empty ▸ delivered, empty ▸ Nat.zero_le _, writing.writable, notReading,
    writing.lines.imp_right fun buffered => ⟨buffered.1, by simp [empty]⟩⟩
  obtain ⟨_, _, _, fixed⟩ := writing.fixed
  exact ⟨write, read, err, by rw [fixed]⟩

/-- The buffer is written out, with more. -/
theorem stdioWrite (writing : Writing dest origin f w.system items lost)
    (ready : dest.Ready origin) (turns : 2 ≤ w.turns.length) (remains : f.pending ++ more ≠ [])
    (short : (items ++ more).length < 9223372036854775808) :
    Returns (f.stdioWrite more) w fun result w' =>
      w.turns.length ≤ w'.turns.length + 2 ∧
        (lost = false ∧ result.1 = more.length ∧ result.2 = { f with write := some [] } ∧
            Writing dest origin result.2 w'.system (items ++ more) false ∨
          result.2 = { f with write := none, err := true } ∧
            (more ≠ [] → result.1 < more.length) ∧
            Writing dest origin result.2 w'.system (items ++ more) true) := by
  have held := writing.delivered.length_le
  have ready' := writing.delivered.ready ready
  have short' : (f.pending ++ more).length < 9223372036854775808 := by
    rw [List.length_append] at short ⊢
    omega
  by_cases fits : Fits (dest.room w.system) (f.pending ++ more).length
  · refine (stdioWrite_fits dest writing.here ready' turns remains short' fits).mono ?_
    rintro _ w' ⟨rfl, put, rest⟩
    obtain ⟨sound, delivered⟩ := writing.delivered.hand ready remains put fits
    exact ⟨rest, .inl ⟨sound, rfl, rfl,
      writing.clear ⟨_, _, _, rfl, writing.notReading⟩ rfl delivered⟩⟩
  · obtain ⟨most, limit, beyond⟩ := exists_of_not_fits fits
    refine (stdioWrite_cut dest writing.here ready' turns remains short' limit beyond).mono ?_
    rintro _ w' ⟨rfl, put, rest⟩
    have delivered := writing.delivered.overrun ready limit beyond put
    refine ⟨rest, .inr ⟨rfl, fun nonempty => ?_,
      writing.clear ⟨_, _, _, rfl, writing.notReading⟩ rfl delivered⟩⟩
    have positive := List.length_pos_iff.mpr nonempty
    rw [List.length_append] at beyond
    show most - f.pending.length < more.length
    omega

/-- A stream is made ready for writing. -/
theorem towrite (writing : Writing dest origin f s items lost) :
    ∃ f', (if f.write.isNone then f.towrite else (true, f)) = (true, f') ∧ f'.write.isSome ∧
      f'.lbf = f.lbf ∧ Writing dest origin f' s items lost := by
  cases buffer : f.write with
  | none =>
      have empty : f.pending = [] := by rw [pending, buffer, Option.getD_none]
      have delivered := writing.delivered
      rw [empty] at delivered
      refine ⟨{ f with write := some [] }, ?_, rfl, rfl,
        writing.clear ⟨_, _, _, rfl, writing.notReading⟩ rfl delivered⟩
      simp only [Option.isNone_none, if_true, IoFile.towrite, writing.writable, Bool.false_eq_true,
        if_false, writing.notReading]
  | some pending => exact ⟨f, by simp, by rw [buffer]; rfl, rfl, writing⟩

theorem writeRoom_eq (buffer : f.write.isSome) : f.writeRoom = f.bufSize - f.pending.length := by
  obtain ⟨pending, found⟩ := Option.isSome_iff_exists.mp buffer
  rw [writeRoom, IoFile.pending, found, Option.getD_some]

section Steps

variable (writing : Writing dest origin f w.system items lost) (ready : dest.Ready origin)
  (turns : 2 ≤ w.turns.length)

include writing ready turns

theorem fwritex (short : (items ++ more).length < 9223372036854775808) :
    Returns (IoFile.fwritex more f) w fun result w' =>
      w.turns.length ≤ w'.turns.length + 2 ∧ result.1 ≤ more.length ∧
        Writing dest origin result.2 w'.system (items ++ more)
          (lost || decide (result.1 < more.length)) := by
  obtain ⟨f, made, buffer, sameLbf, writing⟩ := writing.towrite
  rw [IoFile.fwritex, made]
  simp only [Bool.not_true, Bool.false_eq_true, if_false]
  have space := writeRoom_eq buffer
  split
  next beyond =>
    have nonempty : more ≠ [] := List.length_pos_iff.mp (by omega)
    refine (writing.stdioWrite ready turns (by simp [nonempty]) short).mono ?_
    rintro _ w' ⟨rest, ⟨sound, count, -, writing'⟩ | ⟨-, count, writing'⟩⟩
    · refine ⟨rest, count.le, ?_⟩
      rwa [sound, count, decide_eq_false (Nat.lt_irrefl _), Bool.or_false]
    · have less := count nonempty
      refine ⟨rest, less.le, ?_⟩
      rwa [decide_eq_true less, Bool.or_true]
  next inside =>
    have within := writing.within
    have fits : (f.pending ++ more).length ≤ f.bufSize := by
      rw [List.length_append]
      omega
    by_cases lines : (if f.lbf.isSome then throughNewline more else 0) = 0
    · rw [if_pos lines]
      refine returns_pure ⟨by omega, Nat.le_refl _, ?_⟩
      rw [decide_eq_false (Nat.lt_irrefl _), Bool.or_false]
      refine writing.hold more fits ?_
      cases kind : f.lbf with
      | none => exact .inl rfl
      | some byte =>
          rw [kind, Option.isSome_some, if_pos rfl] at lines
          have line := newline_notMem_drop more
          rw [lines, List.drop_zero] at line
          exact .inr line
    · have buffered : f.lbf.isSome := by
        by_contra noLines
        exact lines (if_neg noLines)
      rw [if_pos buffered] at lines ⊢
      rw [if_neg lines]
      have part := throughNewline_le more
      have length : (more.take (throughNewline more)).length = throughNewline more := by
        rw [List.length_take, Nat.min_eq_left part]
      have nonempty : more.take (throughNewline more) ≠ [] := by
        rw [← List.length_pos_iff, length]
        omega
      have short' : (items ++ more.take (throughNewline more)).length < 9223372036854775808 := by
        rw [List.length_append] at short ⊢
        omega
      refine (writing.stdioWrite ready turns (by simp [nonempty]) short').bind ?_
      rintro ⟨count, f'⟩ w' ⟨rest, ⟨sound, all, same, writing'⟩ | ⟨same, less, writing'⟩⟩
      · dsimp only at all same writing' ⊢
        rw [if_neg (by omega)]
        refine returns_pure ⟨rest, Nat.le_refl _, ?_⟩
        rw [decide_eq_false (Nat.lt_irrefl _), Bool.or_false, sound]
        have bound : (f'.pending ++ more.drop (throughNewline more)).length ≤ f'.bufSize := by
          rw [List.length_append] at fits
          simp only [same, pending, Option.getD_some, List.nil_append, List.length_drop]
          omega
        have held := writing'.hold _ bound (.inr (newline_notMem_drop more))
        rwa [List.append_assoc, List.take_append_drop] at held
      · have less := less nonempty
        dsimp only at same less writing' ⊢
        rw [if_pos (by omega)]
        refine returns_pure ⟨rest, by omega, ?_⟩
        dsimp only
        rw [decide_eq_true (by omega), Bool.or_true]
        have dropped := writing'.delivered.lose (more.drop (throughNewline more))
        rw [List.append_assoc, List.take_append_drop] at dropped
        exact writing'.clear ⟨_, _, _, rfl, writing'.notReading⟩ (by rw [same]; rfl) dropped

theorem fwrite {src : List UInt8} {size nmemb : Nat} (whole : size * nmemb ≤ src.length)
    (short : (items ++ src.take (size * nmemb)).length < 9223372036854775808) :
    Returns (IoFile.fwrite src size nmemb f) w fun result w' =>
      w.turns.length ≤ w'.turns.length + 2 ∧
        Writing dest origin result.2 w'.system (items ++ src.take (size * nmemb))
          (lost || !decide (size = 0 ∨ result.1 = nmemb)) := by
  have length : (src.take (size * nmemb)).length = size * nmemb := by
    rw [List.length_take, Nat.min_eq_left whole]
  refine (writing.fwritex ready turns short).bind ?_
  rintro ⟨count, f'⟩ w' ⟨rest, least, writing'⟩
  refine returns_pure ⟨rest, ?_⟩
  rw [length] at least writing'
  dsimp only at least writing' ⊢
  by_cases all : count = size * nmemb
  · have complete : size = 0 ∨ (if count = size * nmemb then if size = 0 then 0 else nmemb else
        count / size) = nmemb := by
      rw [if_pos all]
      exact or_iff_not_imp_left.mpr fun nonzero => if_neg nonzero
    rw [decide_eq_false (by omega)] at writing'
    rwa [decide_eq_true complete]
  · have less : count < size * nmemb := by omega
    have positive : 0 < size := Nat.pos_of_ne_zero fun zero => by
      rw [zero, Nat.zero_mul] at less
      exact Nat.not_lt_zero _ less
    have partly : ¬ (size = 0 ∨ (if count = size * nmemb then if size = 0 then 0 else nmemb else
        count / size) = nmemb) := by
      rw [if_neg all]
      have blocks := (Nat.div_lt_iff_lt_mul positive).mpr (Nat.mul_comm size nmemb ▸ less)
      omega
    rw [decide_eq_true less] at writing'
    rwa [decide_eq_false partly]

omit ready turns in
/-- A byte is put into the buffer if there is space for it. -/
theorem holdByte {c : UInt8} (space : f.writeRoom ≠ 0) (notLast : some c ≠ f.lbf) :
    Writing dest origin { f with write := some (f.pending ++ [c]) } w.system (items ++ [c])
      lost := by
  have buffer : f.write.isSome := by
    by_contra notWriting
    rw [Option.not_isSome_iff_eq_none] at notWriting
    exact space (by rw [writeRoom, notWriting])
  rw [writeRoom_eq buffer] at space
  refine writing.hold [c] ?_ ?_
  · rw [List.length_append, List.length_singleton]
    omega
  · refine writing.lines.imp_right fun buffered among => notLast ?_
    rw [buffered.1, List.mem_singleton.mp among]

theorem overflow {c : UInt8} (short : (items ++ [c]).length < 9223372036854775808) :
    Returns (f.overflow c) w fun result w' =>
      w.turns.length ≤ w'.turns.length + 2 ∧
        Writing dest origin result.2 w'.system (items ++ [c]) (lost || !result.1.isSome) := by
  obtain ⟨f, made, buffer, -, writing⟩ := writing.towrite
  rw [IoFile.overflow, made]
  simp only [Bool.not_true, Bool.false_eq_true, if_false]
  split
  next space =>
    refine returns_pure ⟨by omega, ?_⟩
    rw [Option.isSome_some, Bool.not_true, Bool.or_false]
    exact writing.holdByte space.1 space.2
  next =>
    refine (writing.stdioWrite ready turns (by simp) short).bind ?_
    rintro ⟨count, f'⟩ w' ⟨rest, ⟨sound, all, -, writing'⟩ | ⟨-, less, writing'⟩⟩
    · refine returns_pure ⟨rest, ?_⟩
      dsimp only at all writing' ⊢
      rwa [all, List.length_singleton, if_neg (by decide), Option.isSome_some, Bool.not_true,
        Bool.or_false, sound]
    · refine returns_pure ⟨rest, ?_⟩
      have less : count < 1 := less (by simp)
      dsimp only at writing' ⊢
      rwa [if_pos (by omega), Option.isSome_none, Bool.not_false, Bool.or_true]

theorem fputc {c : UInt8} (short : (items ++ [c]).length < 9223372036854775808) :
    Returns (f.fputc c) w fun result w' =>
      w.turns.length ≤ w'.turns.length + 2 ∧
        Writing dest origin result.2 w'.system (items ++ [c]) (lost || !result.1.isSome) := by
  rw [IoFile.fputc]
  split
  next space =>
    refine returns_pure ⟨by omega, ?_⟩
    rw [Option.isSome_some, Bool.not_true, Bool.or_false]
    exact writing.holdByte space.2 space.1
  next => exact writing.overflow ready turns short

omit ready turns in
/-- There is nothing to read that the position has to go back for. -/
theorem sync (empty : f.pending = []) : Returns (do
    let _ ← if f.unread ≠ [] then f.stdioSeek (-Int64.ofNat f.unread.length) 1 else pure 0
    pure (true, { f with write := none, read := none })) w fun result w' =>
      w' = w ∧ result.1 = true ∧ result.2.pending = [] ∧
        Writing dest origin result.2 w.system items lost := by
  have nothing : f.unread = [] := by rw [unread, writing.notReading, Option.getD_none]
  have delivered := writing.delivered
  rw [empty] at delivered
  simp only [nothing, ne_eq, not_true_eq_false, if_false]
  exact ⟨_, w, rfl, rfl, rfl, rfl, writing.clear ⟨_, _, _, rfl, rfl⟩ rfl delivered⟩

/-- After a flush nothing is held back. -/
theorem fflush (short : items.length < 9223372036854775808) :
    Returns f.fflush w fun result w' =>
      w.turns.length ≤ w'.turns.length + 2 ∧ result.2.pending = [] ∧
        Writing dest origin result.2 w'.system items (lost || !result.1) := by
  rw [IoFile.fflush]
  have nothing : items ++ [] = items := List.append_nil items
  by_cases held : f.pending = []
  · simp only [held, ne_eq, not_true_eq_false, if_false, false_and]
    refine returns_pure_bind ((writing.sync held).mono ?_)
    rintro result _ ⟨rfl, done, empty, writing'⟩
    refine ⟨by omega, empty, ?_⟩
    rwa [done, Bool.not_true, Bool.or_false]
  · rw [if_pos held]
    refine (writing.stdioWrite ready turns (by rwa [List.append_nil]) (by rwa [nothing])).bind ?_
    rintro ⟨count, f'⟩ w' ⟨rest, ⟨sound, -, same, writing'⟩ | ⟨same, -, writing'⟩⟩
    · dsimp only at same writing' ⊢
      rw [nothing] at writing'
      rw [if_neg (by rw [same]; exact fun failed => Bool.false_ne_true failed.2)]
      refine (writing'.sync (by rw [same]; rfl)).mono ?_
      rintro result _ ⟨rfl, done, empty, writing''⟩
      refine ⟨rest, empty, ?_⟩
      rwa [done, Bool.not_true, Bool.or_false, sound]
    · dsimp only at same writing' ⊢
      rw [nothing] at writing'
      rw [if_pos ⟨held, by rw [same]; rfl⟩]
      refine returns_pure ⟨rest, by rw [same]; rfl, ?_⟩
      rwa [Bool.not_false, Bool.or_true]

end Steps

end Writing

end IoFile

end AppPortKit.Stdio
