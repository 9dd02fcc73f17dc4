import AppPortKit.Foundation.Feed
import AppPortKit.Transport.Receive

/-!
# Pieces of a stream

Segments carry pieces of what the peer writes.  The queue has pieces in order and apart, and
stays so when segments are dropped, cut and put in.
-/

namespace AppPortKit.Transport

open Serial

/-! ## Segments -/

theorem flatten_pbufReallocLoop (p : List (List UInt8)) (remLen : Nat) :
    (pbufReallocLoop p remLen).flatten = p.flatten.take remLen := by
  induction p generalizing remLen with
  | nil => rw [pbufReallocLoop, List.flatten_nil, List.take_nil]
  | cons q next ih =>
      rw [pbufReallocLoop, List.flatten_cons]
      split
      next longer =>
        rw [List.flatten_cons, ih, List.take_append, List.take_of_length_le longer.le]
      next inside =>
        rw [List.flatten_singleton, List.take_append_of_le_length (Nat.le_of_not_lt inside)]

theorem flatten_pbufRealloc (p : List (List UInt8)) (newLen : UInt16) :
    (pbufRealloc p newLen).flatten = p.flatten.take newLen.toNat := by
  rw [pbufRealloc]
  split
  next short => rw [List.take_of_length_le short]
  next => exact flatten_pbufReallocLoop p _

theorem trimFront_eq_ok {p : List (List UInt8)} {off : Nat} (positive : 0 < off)
    (inside : off ≤ p.flatten.length) :
    ∃ p', trimFront p off = .ok p' ∧ p'.flatten = p.flatten.drop off := by
  induction p generalizing off with
  | nil =>
      rw [List.flatten_nil, List.length_nil] at inside
      omega
  | cons q next ih =>
      rw [trimFront]
      by_cases shorter : q.length < off
      · rw [List.flatten_cons, List.length_append] at inside
        obtain ⟨rest, trimmed, flat⟩ :=
          ih (show 0 < off - q.length by omega) (by omega)
        refine ⟨[] :: rest, by rw [if_pos shorter, trimmed]; rfl, ?_⟩
        rw [List.flatten_cons, List.nil_append, flat, List.flatten_cons, List.drop_append,
          List.drop_of_length_le shorter.le, List.nil_append]
      · refine ⟨q.drop off :: next, if_neg shorter, ?_⟩
        rw [List.flatten_cons, List.flatten_cons,
          List.drop_append_of_le_length (Nat.le_of_not_lt shorter)]

namespace Seg

/-- How many sequence numbers the segment takes. -/
def size (seg : Seg) : Nat := seg.len.toNat + seg.fin.toNat

theorem toNat_tcplen (seg : Seg) : seg.tcplen.toNat = seg.size := by
  have small := seg.len.toNat_lt
  rw [tcplen, size]
  cases seg.fin with
  | false => simp
  | true =>
      rw [if_pos rfl, UInt32.toNat_add, UInt16.toNat_toUInt32, UInt32.toNat_one, Bool.toNat_true]
      omega

/-- The segment carries a piece of a feed, whose position 0 has number `base`. -/
structure Carries (base : UInt32) (feed : Feed UInt8) (seg : Seg) (position : Nat) : Prop where
  seqno : seg.seqno = number base position
  len : seg.len.toNat = seg.p.flatten.length
  short : seg.len.toNat < 65535
  data : feed.Carries position seg.p.flatten seg.fin

section Carries

variable {base : UInt32} {feed : Feed UInt8} {seg : Seg} {position : Nat}

theorem Carries.toNat_toUInt16_tcplen (carries : seg.Carries base feed position) :
    seg.tcplen.toUInt16.toNat = seg.size := by
  have short := carries.short
  have fin := Bool.toNat_le seg.fin
  rw [UInt32.toNat_toUInt16, toNat_tcplen, size]
  omega

theorem Carries.seqno_add_tcplen (carries : seg.Carries base feed position) :
    seg.seqno + seg.tcplen.toUInt16.toUInt32 = number base (position + seg.size) := by
  rw [carries.seqno, number_add_toUInt32, carries.toNat_toUInt16_tcplen]

theorem Carries.seqno_add_len (carries : seg.Carries base feed position) :
    seg.seqno + seg.len.toUInt32 = number base (position + seg.len.toNat) := by
  rw [carries.seqno, number_add_toUInt32]

theorem Carries.inside (carries : seg.Carries base feed position) :
    position + seg.len.toNat ≤ feed.items.length := by
  rw [carries.len]
  exact carries.data.inside

theorem Carries.ends (carries : seg.Carries base feed position) (fin : seg.fin) :
    feed.closed ∧ position + seg.len.toNat = feed.items.length := by
  have data := carries.data
  rw [fin] at data
  rw [carries.len]
  exact data.ends

theorem Carries.of_ends (carries : seg.Carries base feed position) (closed : feed.closed)
    (total : feed.items.length ≤ position + seg.len.toNat) :
    { seg with fin := true }.Carries base feed position :=
  { carries with data := carries.data.of_ends closed (carries.len ▸ total) }

theorem Carries.withoutFin (carries : seg.Carries base feed position) :
    { seg with fin := false }.Carries base feed position := by
  have data := carries.data.take seg.p.flatten.length
  rw [List.take_length] at data
  exact { carries with data }

theorem size_eq_len (notFin : seg.fin = false) : seg.size = seg.len.toNat := by
  rw [size, notFin, Bool.toNat_false, Nat.add_zero]

theorem Carries.trim (carries : seg.Carries base feed position) (notFin : seg.fin = false)
    {len : UInt16} (inside : len.toNat ≤ seg.len.toNat) :
    (seg.trim len).Carries base feed position where
  seqno := carries.seqno
  len := by
    have whole := carries.len
    change len.toNat = (pbufRealloc seg.p len).flatten.length
    rw [flatten_pbufRealloc, List.length_take]
    omega
  short := inside.trans_lt carries.short
  data := by
    rw [Seg.trim, flatten_pbufRealloc, notFin]
    exact carries.data.take _

/-- A segment is cut at a position. -/
theorem Carries.trimTo (carries : seg.Carries base feed position) (notFin : seg.fin = false)
    {cut : Nat} (after : position ≤ cut) (inside : cut ≤ position + seg.len.toNat) :
    (seg.trim (number base cut - seg.seqno).toUInt16).Carries base feed position ∧
      position + (seg.trim (number base cut - seg.seqno).toUInt16).len.toNat = cut := by
  have short := carries.short
  have distance : ((number base cut - number base position).toUInt16.toNat : Int) =
      cut - position := toNat_toUInt16_sub (by omega) (by omega)
  rw [← carries.seqno] at distance
  refine ⟨carries.trim notFin (by omega), ?_⟩
  rw [trim_len]
  omega

end Carries

end Seg

/-! ## The queue -/

/-- Segments that carry pieces from a position on, in order and apart.  They begin before
`edge` and end at `limit` at the latest. -/
inductive Queue (base : UInt32) (feed : Feed UInt8) (edge limit : Nat) : Nat → List Seg → Prop where
  | nil (first : Nat) : Queue base feed edge limit first []
  | cons {first position : Nat} {seg : Seg} {later : List Seg} (after : first ≤ position)
      (before : position < edge) (within : position + seg.size ≤ limit)
      (carries : seg.Carries base feed position) (nonempty : 0 < seg.size)
      (last : seg.fin → later = []) (rest : Queue base feed edge limit
        (position + seg.len.toNat) later) : Queue base feed edge limit first (seg :: later)

section Queue

variable {base : UInt32} {feed : Feed UInt8} {edge edge' limit limit' first first' : Nat}
  {segs : List Seg}

theorem Queue.mono (queue : Queue base feed edge limit first segs) (edges : edge ≤ edge')
    (limits : limit ≤ limit') (firsts : first' ≤ first) :
    Queue base feed edge' limit' first' segs := by
  induction queue generalizing first' with
  | nil => exact .nil first'
  | cons after before within carries nonempty last rest ih =>
      exact .cons (firsts.trans after) (before.trans_le edges) (within.trans limits) carries
        nonempty last (ih (Nat.le_refl _))

/-- A segment that covers queued ones takes their place. -/
theorem Queue.dropCovered {inseg : Seg} {position : Nat}
    (queue : Queue base feed edge limit first segs) (extent : Seg → UInt32)
    (carries : inseg.Carries base feed position) (notFin : inseg.fin = false)
    (whole : extent inseg = inseg.len.toUInt32) (after : position ≤ first)
    (narrow : edge ≤ position + 65536) :
    (∃ fin, Transport.dropCovered extent inseg segs = ({ inseg with fin }, []) ∧
        { inseg with fin }.Carries base feed position ∧
        (fin → position + inseg.len.toNat + 1 ≤ limit)) ∨
      ∃ next later position', Transport.dropCovered extent inseg segs = (inseg, next :: later) ∧
        first ≤ position' ∧ position' < edge ∧ next.seqno = number base position' ∧
        position + inseg.len.toNat < position' + next.len.toNat ∧
        Queue base feed edge limit position' (next :: later) := by
  induction queue with
  | nil first =>
      refine .inl ⟨inseg.fin, rfl, carries, fun fin => ?_⟩
      rw [notFin] at fin
      cases fin
  | @cons first position' next later after' before within carries' nonempty last rest ih =>
      have short := carries.short
      have short' := carries'.short
      rw [Transport.dropCovered]
      simp (disch := omega) only [whole, carries.seqno_add_len, carries'.seqno_add_len,
        tcpSeqGeq_number, decide_eq_true_eq]
      by_cases covered : position' + next.len.toNat ≤ position + inseg.len.toNat
      · rw [if_pos (by omega), notFin, Bool.false_or]
        by_cases fin : next.fin
        · -- the covered segment ends the feed, so this one does
          obtain rfl := last fin
          obtain ⟨closed, total⟩ := carries'.ends fin
          have inside := carries.inside
          rw [Seg.size, fin] at within
          refine .inl ⟨true, by rw [fin]; rfl, carries.of_ends closed (by omega), fun _ => ?_⟩
          rw [Bool.toNat_true] at within
          omega
        · have same : { inseg with fin := next.fin } = inseg := by
            rw [Bool.eq_false_of_not_eq_true fin, ← notFin]
          rw [same]
          obtain stopped | ⟨beyond, further, position'', stopped, first, before', rest⟩ :=
            ih (by omega)
          · exact .inl stopped
          · exact .inr ⟨beyond, further, position'', stopped, by omega, before', rest⟩
      · rw [if_neg (by omega)]
        exact .inr ⟨next, later, position', rfl, after', before, carries'.seqno, by omega,
          .cons (Nat.le_refl _) before within carries' nonempty last rest⟩

theorem Queue.insertSegment {cseg : Seg} {position : Nat}
    (queue : Queue base feed edge limit (position + 1) segs)
    (carries : cseg.Carries base feed position) (nonempty : 0 < cseg.size)
    (before : position < edge) (within : position + cseg.size ≤ limit)
    (narrow : edge ≤ position + 65536) :
    Queue base feed edge limit position (tcpOosInsertSegment cseg segs) := by
  rw [tcpOosInsertSegment]
  by_cases fin : cseg.fin
  · rw [if_pos fin]
    exact .cons (Nat.le_refl _) before within carries nonempty (fun _ => rfl) (.nil _)
  · rw [if_neg fin]
    have notFin := Bool.eq_false_of_not_eq_true fin
    have size := Seg.size_eq_len notFin
    obtain ⟨fin', dropped, carries', within'⟩ |
        ⟨next, later, position', dropped, after, before', number, -, rest⟩ :=
      queue.dropCovered (fun cseg => cseg.len.toUInt32) carries notFin rfl (by omega) narrow
    · rw [dropped]
      have size' : { cseg with fin := fin' }.size = cseg.len.toNat + fin'.toNat := rfl
      refine .cons (Nat.le_refl _) before ?_ carries' (by omega) (fun _ => rfl) (.nil _)
      cases fin' with
      | false =>
          rw [size', Bool.toNat_false]
          omega
      | true => exact within' rfl
    · rw [dropped]
      have short := carries.short
      simp (disch := omega) only [carries.seqno_add_len, number, tcpSeqGt_number,
        decide_eq_true_eq]
      by_cases overlap : position' < position + cseg.len.toNat
      · rw [if_pos (by omega)]
        obtain ⟨cut, len⟩ := carries.trimTo notFin (by omega) overlap.le
        have size' : (cseg.trim (Serial.number base position' - cseg.seqno).toUInt16).size = _ :=
          Seg.size_eq_len notFin
        exact .cons (Nat.le_refl _) before (by omega) cut (by omega)
          (fun fin' => absurd fin' fin) (rest.mono (Nat.le_refl _) (Nat.le_refl _) (by omega))
      · rw [if_neg (by omega)]
        exact .cons (Nat.le_refl _) before within carries nonempty (fun fin' => absurd fin' fin)
          (rest.mono (Nat.le_refl _) (Nat.le_refl _) (by omega))

/-- A segment in sequence, and what is left of the queue. -/
structure Joined (base : UInt32) (feed : Feed UInt8) (edge limit position : Nat)
    (inseg seg : Seg) (rest : List Seg) : Prop where
  carries : seg.Carries base feed position
  queue : Queue base feed edge limit (position + seg.len.toNat) rest
  last : seg.fin → rest = []
  within : seg.size ≤ inseg.size ∨ position + seg.size ≤ limit
  /-- What is cut off, the queue has. -/
  whole : inseg.len.toNat ≤ seg.len.toNat ∨ ∃ next later, rest = next :: later ∧
    next.seqno = number base (position + seg.len.toNat) ∧
    inseg.len.toNat < seg.len.toNat + next.len.toNat
  finished : inseg.fin → seg = inseg

theorem Queue.joinOoseq {inseg : Seg} {position : Nat}
    (queue : Queue base feed edge limit (position + 1) segs)
    (carries : inseg.Carries base feed position) (nonempty : 0 < inseg.size)
    (narrow : edge ≤ position + 65536) :
    ∃ seg rest, Transport.joinOoseq inseg segs = .ok (seg, rest) ∧
      Joined base feed edge limit position inseg seg rest := by
  rw [Transport.joinOoseq]
  by_cases fin : inseg.fin
  · rw [if_pos fin]
    exact ⟨inseg, [], rfl, carries, .nil _, fun _ => rfl, .inl (Nat.le_refl _),
      .inl (Nat.le_refl _), fun _ => rfl⟩
  · rw [if_neg fin]
    have notFin := Bool.eq_false_of_not_eq_true fin
    have size := Seg.size_eq_len notFin
    have whole : inseg.tcplen.toUInt16.toUInt32 = inseg.len.toUInt32 := by
      apply UInt32.toNat_inj.mp
      rw [UInt16.toNat_toUInt32, UInt16.toNat_toUInt32, carries.toNat_toUInt16_tcplen, size]
    obtain ⟨fin', dropped, carries', within'⟩ |
        ⟨next, later, position', dropped, after, before', number, ends, rest⟩ :=
      queue.dropCovered (fun inseg => inseg.tcplen.toUInt16.toUInt32) carries notFin whole
        (by omega) narrow
    · rw [dropped]
      have size' : { inseg with fin := fin' }.size = inseg.len.toNat + fin'.toNat := rfl
      refine ⟨_, [], rfl, carries', .nil _, fun _ => rfl, ?_, .inl (Nat.le_refl _),
        fun fin' => absurd fin' fin⟩
      cases fin' with
      | false =>
          rw [size', Bool.toNat_false]
          exact .inl (by omega)
      | true => exact .inr (within' rfl)
    · rw [dropped]
      have short := carries.short
      dsimp only
      simp (disch := omega) only [carries.seqno_add_tcplen, number, tcpSeqGt_number,
        decide_eq_true_eq]
      by_cases overlap : position' < position + inseg.len.toNat
      · rw [if_pos (by omega)]
        obtain ⟨cut, len⟩ := carries.trimTo notFin (by omega) overlap.le
        have size' : (inseg.trim (Serial.number base position' - inseg.seqno).toUInt16).size = _ :=
          Seg.size_eq_len notFin
        rw [if_pos (by rw [cut.seqno_add_tcplen]; congr 1; omega)]
        refine ⟨_, _, rfl, cut, ?_, fun fin' => absurd fin' fin, .inl (by omega),
          .inr ⟨next, later, rfl, ?_, by omega⟩, fun fin' => absurd fin' fin⟩
        · exact rest.mono (Nat.le_refl _) (Nat.le_refl _) (by omega)
        · rw [number]
          congr 1
          omega
      · rw [if_neg (by omega)]
        exact ⟨inseg, _, rfl, carries, rest.mono (Nat.le_refl _) (Nat.le_refl _) (by omega),
          fun fin' => absurd fin' fin, .inl (Nat.le_refl _), .inl (Nat.le_refl _),
          fun fin' => absurd fin' fin⟩

end Queue

/-! ## The place of a segment -/

section Place

variable {base : UInt32} {feed : Feed UInt8} {edge limit first position : Nat}
  {inseg seg next : Seg} {segs later : List Seg}

theorem Seg.Carries.trimBefore {cut : Nat} (carries : seg.Carries base feed position)
    (notFin : seg.fin = false) (after : position < cut) (near : cut ≤ position + 65536) :
    (seg.trimBefore (number base cut)).Carries base feed position ∧
      (seg.trimBefore (number base cut)).fin = false ∧
      (seg.trimBefore (number base cut)).len.toNat = min seg.len.toNat (cut - position) := by
  have short := carries.short
  rw [Seg.trimBefore]
  simp (disch := omega) only [carries.seqno_add_len, tcpSeqGt_number, decide_eq_true_eq]
  by_cases overlap : cut < position + seg.len.toNat
  · rw [if_pos (by omega)]
    obtain ⟨trimmed, len⟩ := carries.trimTo notFin after.le overlap.le
    exact ⟨trimmed, notFin, by omega⟩
  · rw [if_neg (by omega)]
    exact ⟨carries, notFin, by omega⟩

theorem Seg.Carries.trimLast (carries : inseg.Carries base feed position)
    (nonempty : 0 < inseg.size) (before : position < edge) (near : edge ≤ position + 65536) :
    ∃ last, inseg.trimLast (number base edge) = .ok last ∧ last.Carries base feed position ∧
      0 < last.size ∧ last.size ≤ inseg.size := by
  have short := carries.short
  have fin := Bool.toNat_le inseg.fin
  have size : inseg.size = inseg.len.toNat + inseg.fin.toNat := rfl
  rw [Seg.trimLast, UInt32.add_comm]
  simp (disch := omega) only [carries.seqno_add_tcplen, tcpSeqGt_number, decide_eq_true_eq]
  by_cases beyond : edge < position + inseg.size
  · rw [if_pos (by omega)]
    obtain ⟨trimmed, len⟩ := carries.withoutFin.trimTo rfl before.le
      (show edge ≤ position + inseg.len.toNat by omega)
    change ({ inseg with fin := false }.trim (number base edge - inseg.seqno).toUInt16).Carries
      base feed position at trimmed
    have size' : ({ inseg with fin := false }.trim
        (number base edge - inseg.seqno).toUInt16).size = _ := Seg.size_eq_len rfl
    dsimp only at len
    refine ⟨_, if_pos ?_, trimmed, by omega, by omega⟩
    rw [trimmed.seqno_add_tcplen]
    congr 1
    omega
  · rw [if_neg (by omega)]
    exact ⟨inseg, rfl, carries, nonempty, Nat.le_refl _⟩

/-- A segment goes before others, cut where they begin. -/
theorem Queue.cons_trimBefore {cut : Nat} (after : first ≤ position) (before : position < edge)
    (within : position + seg.size ≤ limit) (carries : seg.Carries base feed position)
    (nonempty : 0 < seg.size) (notFin : seg.fin = false) (earlier : position < cut)
    (near : cut ≤ position + 65536) (queue : Queue base feed edge limit cut segs) :
    Queue base feed edge limit first (seg.trimBefore (number base cut) :: segs) := by
  obtain ⟨trimmed, notFin', len⟩ := carries.trimBefore notFin earlier near
  have size := Seg.size_eq_len notFin
  have size' := Seg.size_eq_len notFin'
  exact .cons after before (by omega) trimmed (by omega)
    (fun fin => absurd (notFin' ▸ fin) Bool.false_ne_true)
    (queue.mono (Nat.le_refl _) (Nat.le_refl _) (by omega))

/-- A longer segment takes the place of one with its number. -/
theorem Queue.insertSegment_same (queue : Queue base feed edge limit position (next :: later))
    (carries : inseg.Carries base feed position) (same : inseg.seqno = next.seqno)
    (longer : next.len.toNat < inseg.len.toNat) (before : position < edge)
    (within : position + inseg.size ≤ limit) (narrow : edge ≤ position + 65536) :
    Queue base feed edge limit position (tcpOosInsertSegment inseg (next :: later)) := by
  have nonempty : 0 < inseg.size := by
    rw [Seg.size]
    omega
  cases queue with
  | @cons _ position' _ _ after before' within' carries' nonempty' last rest =>
      have place : position' = position := by
        have numbers := carries'.seqno.symm.trans (same.symm.trans carries.seqno)
        rw [number_inj (by omega), Nat.cast_inj] at numbers
        exact numbers
      subst place
      -- a segment that ends the feed is not shorter
      have notFin' : next.fin = false := by
        refine Bool.eq_false_of_not_eq_true fun fin => ?_
        obtain ⟨-, total⟩ := carries'.ends fin
        have inside := carries.inside
        omega
      have size' := Seg.size_eq_len notFin'
      have skipped : tcpOosInsertSegment inseg (next :: later) =
          tcpOosInsertSegment inseg later := by
        have short := carries.short
        rw [tcpOosInsertSegment, tcpOosInsertSegment, Transport.dropCovered]
        simp (disch := omega) only [carries.seqno_add_len, carries'.seqno_add_len,
          tcpSeqGeq_number, decide_eq_true_eq, notFin', Bool.or_false]
        rw [if_pos (show (position' : Int) + next.len.toNat ≤ position' + inseg.len.toNat by omega)]
      rw [skipped]
      exact (rest.mono (Nat.le_refl _) (Nat.le_refl _) (by omega)).insertSegment carries nonempty
        before within narrow

/-- The walk has passed only segments that begin before a position. -/
def Behind (base : UInt32) (position : Nat) (prev : Option Seg) : Prop :=
  ∀ seg ∈ prev, ∃ place : Nat, seg.seqno = number base place ∧ place < position ∧
    position ≤ place + 65536

theorem Behind.goesBefore {prev : Option Seg} {place : Nat} (behind : Behind base position prev)
    (seqno : next.seqno = number base place)
    (near : position ≤ place + 65536 ∧ place ≤ position + 65536) :
    Transport.goesBefore (number base position) prev next = decide (position < place) := by
  cases prev with
  | none =>
      rw [Transport.goesBefore, seqno, tcpSeqLt_number (by omega), decide_eq_decide]
      omega
  | some seg =>
      obtain ⟨earlier, seqno', before, near'⟩ := behind seg rfl
      rw [Transport.goesBefore, seqno, seqno', number_add_one, number_sub_one,
        tcpSeqBetween_number (by omega) (by omega), decide_eq_decide]
      omega

/-- What follows the segment before it may change. -/
theorem Queue.behind {prev : Option Seg}
    (queue : Queue base feed edge limit first (prev.toList ++ next :: later))
    (behind : Behind base position prev) (after : first ≤ position) (before : position < edge)
    (narrow : edge ≤ first + 65536) :
    ∃ start, first ≤ start ∧ Queue base feed edge limit start (next :: later) ∧
      (∀ segs, Queue base feed edge limit start segs →
        Queue base feed edge limit first (prev.toList ++ segs)) ∧
      ∀ segs, Queue base feed edge limit position segs → Queue base feed edge limit first
        ((prev.map fun seg => seg.trimBefore (number base position)).toList ++ segs) := by
  cases prev with
  | none =>
      exact ⟨first, Nat.le_refl _, queue, fun _ rest => rest, fun _ rest =>
        rest.mono (Nat.le_refl _) (Nat.le_refl _) after⟩
  | some seg =>
      cases queue with
      | @cons _ place _ _ after' before' within carries nonempty last rest =>
          obtain ⟨place', seqno, earlier, near⟩ := behind seg rfl
          have same : place = place' := by
            rw [carries.seqno, number_inj (by omega), Nat.cast_inj] at seqno
            exact seqno
          subst same
          have notFin : seg.fin = false :=
            Bool.eq_false_of_not_eq_true fun fin => absurd (last fin) (List.cons_ne_nil _ _)
          refine ⟨place + seg.len.toNat, by omega, rest, fun segs rest => ?_, fun segs rest => ?_⟩
          · exact .cons after' before' within carries nonempty
              (fun fin => absurd (notFin ▸ fin) Bool.false_ne_true) rest
          · exact .cons_trimBefore after' before' within carries nonempty notFin earlier near rest

/-- The place of a segment is found, and it is queued there. -/
theorem Queue.queueOoseq {prev : Option Seg}
    (queue : Queue base feed edge limit first (prev.toList ++ segs))
    (behind : Behind base position prev)
    (carries : inseg.Carries base feed position) (nonempty : 0 < inseg.size)
    (after : first ≤ position) (before : position < edge)
    (within : position + inseg.size ≤ limit) (narrow : edge ≤ first + 65536) (memory : Bool) :
    ∃ result, Transport.queueOoseq inseg (number base edge) memory prev segs = .ok result ∧
      Queue base feed edge limit first result := by
  induction segs generalizing prev first with
  | nil =>
      rw [List.append_nil] at queue
      exact ⟨prev.toList, rfl, queue⟩
  | cons next later ih =>
      obtain ⟨start, further, rest, replace, replaceCut⟩ := queue.behind behind after before narrow
      cases rest with
      | @cons _ place _ _ after' before' within' carries' nonempty' last rest =>
          have whole : Queue base feed edge limit place (next :: later) :=
            .cons (Nat.le_refl _) before' within' carries' nonempty' last rest
          have same : inseg.seqno = next.seqno ↔ position = place := by
            rw [carries.seqno, carries'.seqno, number_inj (by omega), Nat.cast_inj]
          have earlier := behind.goesBefore carries'.seqno (by omega)
          rw [← carries.seqno] at earlier replaceCut
          rw [Transport.queueOoseq]
          simp only [same, earlier, decide_eq_true_eq]
          rcases Nat.lt_trichotomy position place with less | equal | greater
          · rw [if_neg (by omega), if_pos less]
            cases memory with
            | false => exact ⟨_, rfl, queue⟩
            | true =>
                refine ⟨_, rfl, replaceCut _ (Queue.insertSegment ?_ carries nonempty before within
                  (by omega))⟩
                exact whole.mono (Nat.le_refl _) (Nat.le_refl _) (by omega)
          · rw [if_pos equal]
            split
            next longer =>
              subst equal
              rw [UInt16.lt_iff_toNat_lt] at longer
              refine ⟨_, rfl, replace _ ?_⟩
              exact (whole.insertSegment_same carries (same.mpr rfl) longer.1 before within
                (by omega)).mono (Nat.le_refl _) (Nat.le_refl _) after'
            next => exact ⟨_, rfl, queue⟩
          · rw [if_neg (by omega), if_neg (by omega), carries.seqno, carries'.seqno,
              tcpSeqGt_number (by omega)]
            by_cases alone : later = []
            · subst alone
              rw [if_pos ⟨rfl, decide_eq_true (by omega)⟩]
              split
              next => exact ⟨_, rfl, queue⟩
              next more =>
                rw [not_or] at more
                obtain ⟨last, trimmed, carries'', nonempty'', fits⟩ :=
                  carries.trimLast nonempty before (by omega)
                rw [trimmed]
                refine ⟨_, rfl, replace _ ?_⟩
                refine .cons_trimBefore after' before' within' carries' nonempty'
                  (Bool.eq_false_of_not_eq_true more.1) greater (by omega) ?_
                exact .cons (Nat.le_refl _) before (by omega) carries'' nonempty'' (fun _ => rfl)
                  (.nil _)
            · rw [if_neg fun both => alone both.1]
              have behind' : Behind base position (some next) := by
                intro seg same
                obtain rfl := Option.some.inj same
                exact ⟨place, carries'.seqno, greater, by omega⟩
              obtain ⟨result, queued, kept⟩ :=
                ih (show Queue base feed edge limit place ((some next).toList ++ later)
                  from whole) behind' (by omega) (by omega)
              rw [queued]
              exact ⟨_, rfl, replace _ (kept.mono (Nat.le_refl _) (Nat.le_refl _) after')⟩

end Place

end AppPortKit.Transport
