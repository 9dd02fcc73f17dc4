import AppPortKit.Foundation.Result
import AppPortKit.Transport.Pieces

/-!
# Reassembly

Segments may arrive in any order, more than once and cut in any way; what `tcp_receive` passes
on is what the peer has written, in order and once.
-/

namespace AppPortKit.Transport

open Fallible Serial

/-! ## Data in sequence -/

/-- What is passed on, from one position of the feed to another. -/
structure Passing (feed : Feed UInt8) (start taken : Nat) (passed : Passed) : Prop where
  data : feed.items.take start ++ passed.data.flatten = feed.items.take taken
  inside : taken ≤ feed.items.length
  ends : passed.gotFin → feed.closed ∧ taken = feed.items.length

section Passing

variable {base : UInt32} {feed : Feed UInt8} {start taken : Nat} {passed : Passed} {seg : Seg}

theorem Passing.nothing (inside : start ≤ feed.items.length) :
    Passing feed start start .nothing :=
  ⟨List.append_nil _, inside, fun fin => absurd fin Bool.false_ne_true⟩

theorem Passing.add (passing : Passing feed start taken passed)
    (carries : seg.Carries base feed taken) :
    Passing feed start (taken + seg.len.toNat) (passed.add seg) where
  data := by
    have flat : (passed.add seg).data.flatten = passed.data.flatten ++ seg.p.flatten := by
      rw [Passed.add]
      split
      next => exact List.flatten_append
      next empty =>
        rw [List.length_eq_zero_iff.mp (Nat.eq_zero_of_not_pos empty), List.append_nil]
    rw [flat, ← List.append_assoc, passing.data, carries.data.take_append, carries.len]
  inside := carries.inside
  ends := by
    intro fin
    rcases Bool.or_eq_true_iff.mp fin with before | now
    · obtain ⟨closed, total⟩ := passing.ends before
      have inside := carries.inside
      exact ⟨closed, by omega⟩
    · exact carries.ends now

end Passing

theorem tcpUpdateRcvAnnWnd_eq_ok {pcb : Pcb} {updated : UInt32 × Pcb}
    (ok : pcb.tcpUpdateRcvAnnWnd = .ok updated) :
    updated.2 = { pcb with rcvAnnWnd := updated.2.rcvAnnWnd } := by
  simp only [Pcb.tcpUpdateRcvAnnWnd] at ok
  split at ok
  · cases ok
    rfl
  · split at ok
    · cases ok
      rfl
    · split at ok
      · cases ok
        rfl
      · cases ok

/-- The window goes from what was passed on to `edge`. -/
structure Abreast (base : UInt32) (edge : Nat) (pcb : Pcb) (next : Nat) : Prop where
  rcvNxt : pcb.rcvNxt = number base next
  edge : next + pcb.rcvWnd.toNat = edge

section Drain

variable {base : UInt32} {feed : Feed UInt8} {edge limit start taken : Nat} {segs : List Seg}
  {pcb : Pcb} {passed : Passed}

/-- The sequence numbers of a segment are taken from the window. -/
theorem Abreast.advance {next : Nat} {seg : Seg} (abreast : Abreast base edge pcb next)
    (short : seg.len.toNat < 65535) (room : seg.size ≤ pcb.rcvWnd.toNat) :
    Abreast base edge { pcb with
      rcvNxt := pcb.rcvNxt + seg.tcplen
      rcvWnd := pcb.rcvWnd - seg.tcplen.toUInt16 } (next + seg.size) := by
  have fin := Bool.toNat_le seg.fin
  have tcplen : seg.tcplen.toUInt16.toNat = seg.size := by
    rw [UInt32.toNat_toUInt16, Seg.toNat_tcplen, Seg.size]
    omega
  have total := abreast.edge
  constructor
  · have same : seg.tcplen = seg.tcplen.toUInt16.toUInt32 := by
      apply UInt32.toNat_inj.mp
      rw [UInt16.toNat_toUInt32, tcplen, Seg.toNat_tcplen]
    change pcb.rcvNxt + seg.tcplen = _
    rw [abreast.rcvNxt, same, number_add_toUInt32, tcplen]
    rfl
  · change next + seg.size + (pcb.rcvWnd - seg.tcplen.toUInt16).toNat = edge
    rw [UInt16.toNat_sub_of_le _ _ (by rw [UInt16.le_iff_toNat_le, tcplen]; exact room), tcplen]
    omega

/-- Queued segments that follow are passed on. -/
theorem Queue.drainOoseq (queue : Queue base feed edge limit taken segs)
    (passing : Passing feed start taken passed) (finished : passed.gotFin → segs = [])
    (abreast : Abreast base edge pcb (taken + passed.gotFin.toNat))
    (narrow : edge ≤ taken + 65536) {drained : Passed × Pcb}
    (ok : pcb.drainOoseq passed segs = .ok drained) :
    ∃ taken', taken ≤ taken' ∧ Passing feed start taken' drained.1 ∧
      Abreast base edge drained.2 (taken' + drained.1.gotFin.toNat) ∧
      Queue base feed edge limit (taken' + 1) drained.2.ooseq ∧
      (drained.1.gotFin → drained.2.ooseq = []) ∧
      ∀ seg later, segs = seg :: later → seg.seqno = number base taken →
        taken + seg.len.toNat ≤ taken' := by
  induction queue generalizing pcb passed with
  | nil taken =>
      cases ok
      exact ⟨taken, Nat.le_refl _, passing, ⟨abreast.rcvNxt, abreast.edge⟩, .nil _,
        fun _ => rfl, fun _ _ same => absurd same (List.cons_ne_nil _ _).symm⟩
  | @cons taken position cseg later after before within carries nonempty last rest ih =>
      have notYet : passed.gotFin = false :=
        Bool.eq_false_of_not_eq_true fun fin => absurd (finished fin) (List.cons_ne_nil _ _)
      rw [notYet, Bool.toNat_false, Nat.add_zero] at abreast
      have place : cseg.seqno = pcb.rcvNxt ↔ position = taken := by
        rw [carries.seqno, abreast.rcvNxt, number_inj (by omega), Nat.cast_inj]
      rw [Pcb.drainOoseq] at ok
      by_cases next : position = taken
      · subst next
        rw [if_pos (place.mpr rfl)] at ok
        split at ok
        next => cases ok
        next room =>
          obtain ⟨updated, announced, ok⟩ := bind_eq_ok.mp ok
          rw [UInt32.lt_iff_toNat_lt, Seg.toNat_tcplen, UInt16.toNat_toUInt32,
            Nat.not_lt] at room
          have ahead := abreast.advance carries.short room
          have same := tcpUpdateRcvAnnWnd_eq_ok announced
          have gotFin : (passed.add cseg).gotFin = cseg.fin := by
            rw [Passed.add, notYet, Bool.false_or]
          obtain ⟨taken', further, passing, abreast, queue, ends, -⟩ := ih
            (passing.add carries)
            (fun fin => last (gotFin ▸ fin))
            (by
              rw [gotFin, same, Nat.add_assoc]
              exact ⟨ahead.rcvNxt, ahead.edge⟩)
            (by omega) ok
          refine ⟨taken', by omega, passing, abreast, queue, ends, fun seg _ same _ => ?_⟩
          obtain ⟨rfl, -⟩ := List.cons.inj same
          exact further
      · rw [if_neg (place.not.mpr next)] at ok
        cases ok
        refine ⟨taken, Nat.le_refl _, passing, ?_, ?_, fun fin => ?_, fun seg _ same first => ?_⟩
        · rw [notYet]
          exact ⟨abreast.rcvNxt, abreast.edge⟩
        · exact .cons (by omega) before within carries nonempty last rest
        · exact absurd (notYet ▸ fin) Bool.false_ne_true
        · obtain ⟨rfl, -⟩ := List.cons.inj same
          exact absurd (place.mp (first.trans abreast.rcvNxt.symm)) next

/-- The connection has passed on what the peer has written, up to a position; `eof` tells
whether it has passed on that nothing more comes.  The queue has later pieces, which end at
`limit` at the latest. -/
structure Receiving (base : UInt32) (feed : Feed UInt8) (limit : Nat) (pcb : Pcb) (taken : Nat)
    (eof : Bool) : Prop where
  rcvNxt : pcb.rcvNxt = number base ((taken + eof.toNat : Nat) : Int)
  inside : taken ≤ feed.items.length
  window : pcb.rcvWnd.toNat ≤ 5840
  queue : Queue base feed (taken + eof.toNat + pcb.rcvWnd.toNat) limit (taken + 1) pcb.ooseq
  ends : eof → feed.closed ∧ taken = feed.items.length ∧ pcb.ooseq = []

/-- The connection, which has passed on what is before `taken` and whose window ends at `edge`,
passes on what is before `next`. -/
structure Continues (base : UInt32) (feed : Feed UInt8) (limit edge taken : Nat) (passed : Passed)
    (pcb : Pcb) (next : Nat) : Prop where
  more : taken ≤ next
  data : feed.items.take taken ++ passed.data.flatten = feed.items.take next
  edge : next + passed.gotFin.toNat + pcb.rcvWnd.toNat = edge
  receiving : Receiving base feed limit pcb next passed.gotFin

theorem Seg.Carries.trimToWindow {inseg : Seg} {rcvWnd : UInt16}
    (carries : inseg.Carries base feed taken) (nonempty : 0 < inseg.size)
    (room : 0 < rcvWnd.toNat) :
    ∃ seg, inseg.trimToWindow (number base taken) rcvWnd = .ok seg ∧
      seg.Carries base feed taken ∧ 0 < seg.size ∧ seg.size ≤ rcvWnd.toNat ∧
      seg.size ≤ inseg.size ∧ min inseg.len.toNat rcvWnd.toNat ≤ seg.len.toNat ∧
      (inseg.size ≤ rcvWnd.toNat → seg = inseg) := by
  have compared : rcvWnd < inseg.tcplen.toUInt16 ↔ rcvWnd.toNat < inseg.size := by
    rw [UInt16.lt_iff_toNat_lt, carries.toNat_toUInt16_tcplen]
  rw [Seg.trimToWindow]
  by_cases beyond : rcvWnd.toNat < inseg.size
  · rw [if_pos (compared.mpr beyond)]
    have fin := Bool.toNat_le inseg.fin
    have whole : inseg.size = inseg.len.toNat + inseg.fin.toNat := rfl
    have inside : rcvWnd.toNat ≤ inseg.len.toNat := by omega
    have cut := carries.withoutFin.trim rfl inside
    have size : ({ inseg with fin := false }.trim rcvWnd).size = rcvWnd.toNat :=
      Seg.size_eq_len rfl
    refine ⟨_, if_pos ?_, cut, by omega, by omega, by omega, Nat.min_le_right _ _, by omega⟩
    rw [cut.seqno_add_tcplen, number_add_toUInt32, size]
  · rw [if_neg (compared.not.mpr beyond)]
    exact ⟨inseg, rfl, carries, nonempty, by omega, Nat.le_refl _, Nat.min_le_left _ _,
      fun _ => rfl⟩

theorem Receiving.inSequence {inseg : Seg} {taken' : Passed × Pcb}
    (receiving : Receiving base feed limit pcb taken false)
    (carries : inseg.Carries base feed taken) (nonempty : 0 < inseg.size)
    (room : 0 < pcb.rcvWnd.toNat) (ok : pcb.inSequence inseg = .ok taken') :
    ∃ next, taken + min inseg.len.toNat pcb.rcvWnd.toNat ≤ next ∧
      (inseg.fin → inseg.size ≤ pcb.rcvWnd.toNat → taken'.1.gotFin) ∧
      Continues base feed limit (taken + pcb.rcvWnd.toNat) taken taken'.1 taken'.2 next := by
  have rcvNxt := receiving.rcvNxt
  have queue := receiving.queue
  have window := receiving.window
  rw [Bool.toNat_false, Nat.add_zero] at rcvNxt queue
  rw [Pcb.inSequence, rcvNxt] at ok
  obtain ⟨cut, trimmed, carries, nonempty, fits, -, most, whole⟩ :=
    carries.trimToWindow nonempty room
  obtain ⟨seg, rest, joined, facts⟩ := queue.joinOoseq carries nonempty (by omega)
  obtain ⟨_, trimmed', ok⟩ := bind_eq_ok.mp ok
  obtain rfl := Except.ok.inj (trimmed'.symm.trans trimmed)
  obtain ⟨_, joined', ok⟩ := bind_eq_ok.mp ok
  obtain rfl := Except.ok.inj (joined'.symm.trans joined)
  dsimp only at ok
  split at ok
  next => cases ok
  next room' =>
    obtain ⟨updated, announced, ok⟩ := bind_eq_ok.mp ok
    obtain ⟨drained, further, ok⟩ := bind_eq_ok.mp ok
    cases ok
    have tcplen := facts.carries.toNat_toUInt16_tcplen
    rw [UInt16.lt_iff_toNat_lt, tcplen, Nat.not_lt] at room'
    have ahead : Abreast base (taken + pcb.rcvWnd.toNat) updated.2
        (taken + seg.len.toNat + (Passed.nothing.add seg).gotFin.toNat) := by
      rw [tcpUpdateRcvAnnWnd_eq_ok announced]
      refine ⟨?_, ?_⟩
      · change seg.seqno + seg.tcplen.toUInt16.toUInt32 = _
        rw [facts.carries.seqno_add_tcplen, Nat.add_assoc]
        rfl
      · change _ + (pcb.rcvWnd - seg.tcplen.toUInt16).toNat = _
        rw [UInt16.toNat_sub_of_le _ _ (by rw [UInt16.le_iff_toNat_le, tcplen]; exact room'),
          tcplen, Nat.add_assoc taken]
        change taken + seg.size + _ = _
        omega
    obtain ⟨next, least, passing, abreast, queue, ends, drains⟩ := facts.queue.drainOoseq
      ((Passing.nothing receiving.inside).add facts.carries) facts.last ahead (by omega) further
    have edge := abreast.edge
    refine ⟨next, ?_, fun fin fits => ?_, by omega, passing.data, ?_, ?_⟩
    · obtain all | ⟨following, later, rfl, seqno, beyond⟩ := facts.whole
      · omega
      · have further := drains following later rfl seqno
        omega
    · obtain rfl := whole fits
      obtain rfl := facts.finished fin
      obtain rfl := facts.last fin
      cases further
      exact fin
    · rw [Pcb.tcpAck_eq]
      exact edge
    · rw [← edge] at queue
      rw [Pcb.tcpAck_eq]
      refine ⟨abreast.rcvNxt, passing.inside, ?_, queue, fun fin => ?_⟩
      · dsimp only
        omega
      · obtain ⟨closed, total⟩ := passing.ends fin
        exact ⟨closed, total, ends fin⟩

end Drain

/-! ## Any segment -/

section Receive

variable {base : UInt32} {feed : Feed UInt8} {limit taken position : Nat} {inseg : Seg} {pcb : Pcb}
  {memory eof : Bool} {accepted : Accepted}

theorem Seg.Carries.trimLeft (carries : inseg.Carries base feed position)
    (before : position < taken) (inside : taken < position + inseg.size) :
    ∃ seg, inseg.trimLeft (number base taken) = .ok seg ∧ seg.Carries base feed taken ∧
      seg.fin = inseg.fin ∧ taken + seg.len.toNat = position + inseg.len.toNat := by
  have short := carries.short
  have fin := Bool.toNat_le inseg.fin
  have size : inseg.size = inseg.len.toNat + inseg.fin.toNat := rfl
  have off32 := toNat_sub_number base taken position
  have off : ((number base taken - number base position).toUInt16.toNat : Int) =
      taken - position := toNat_toUInt16_sub (by omega) (by omega)
  rw [← carries.seqno] at off32 off
  have small : number base taken - inseg.seqno < 0xffff := by
    rw [UInt32.lt_iff_toNat_lt, off32]
    change _ < 65535
    omega
  have whole := carries.len
  obtain ⟨p, trimmed, flat⟩ := trimFront_eq_ok (p := inseg.p)
    (show 0 < (number base taken - inseg.seqno).toUInt16.toNat by omega) (by omega)
  have len : (inseg.len - (number base taken - inseg.seqno).toUInt16).toNat =
      inseg.len.toNat - (taken - position) := by
    rw [UInt16.toNat_sub_of_le _ _ (by rw [UInt16.le_iff_toNat_le]; omega)]
    omega
  refine ⟨{ inseg with
    seqno := number base taken
    len := inseg.len - (number base taken - inseg.seqno).toUInt16
    p }, ?_, ?_, rfl, ?_⟩
  · rw [Seg.trimLeft, if_neg (not_not.mpr small), if_neg (by omega), trimmed]
    rfl
  · have data := carries.data.drop
      (show (number base taken - inseg.seqno).toUInt16.toNat ≤ _ by omega)
    rw [show position + (number base taken - inseg.seqno).toUInt16.toNat = taken by omega,
      ← flat] at data
    refine ⟨rfl, ?_, ?_, data⟩
    · dsimp only
      rw [flat, List.length_drop, len]
      omega
    · dsimp only
      omega
  · dsimp only
    omega

theorem Receiving.outOfSequence (receiving : Receiving base feed limit pcb taken false)
    (carries : inseg.Carries base feed position) (nonempty : 0 < inseg.size)
    (after : taken < position) (before : position < taken + pcb.rcvWnd.toNat)
    (within : position + inseg.size ≤ limit) (memory : Bool) :
    ∃ ooseq, pcb.outOfSequence inseg memory = .ok { pcb with ooseq } ∧
      Receiving base feed limit { pcb with ooseq } taken false := by
  have rcvNxt := receiving.rcvNxt
  have queue := receiving.queue
  have window := receiving.window
  rw [Bool.toNat_false, Nat.add_zero] at rcvNxt queue
  suffices queued : ∃ ooseq, pcb.outOfSequence inseg memory = .ok { pcb with ooseq } ∧
      Queue base feed (taken + pcb.rcvWnd.toNat) limit (taken + 1) ooseq by
    obtain ⟨ooseq, done, kept⟩ := queued
    refine ⟨ooseq, done, { receiving with queue := kept, ends := fun eof => ?_ }⟩
    exact absurd eof Bool.false_ne_true
  rw [Pcb.outOfSequence, rcvNxt, number_add_toUInt32]
  by_cases empty : pcb.ooseq = []
  · rw [if_pos empty]
    cases memory with
    | false => exact ⟨[], rfl, .nil _⟩
    | true =>
        exact ⟨[inseg], rfl,
          .cons (by omega) before within carries nonempty (fun _ => rfl) (.nil _)⟩
  · rw [if_neg empty]
    have behind : Behind base position none := fun _ among => absurd among (Option.not_mem_none _)
    obtain ⟨ooseq, done, kept⟩ := Queue.queueOoseq
      (show Queue base feed _ _ _ ((none : Option Seg).toList ++ pcb.ooseq) from queue) behind
      carries nonempty (by omega) before within (by omega) memory
    exact ⟨ooseq, by rw [← Nat.cast_add, done]; rfl, kept⟩

theorem Receiving.ackNow (receiving : Receiving base feed limit pcb taken eof) :
    Receiving base feed limit pcb.tcpAckNow taken eof :=
  ⟨receiving.rcvNxt, receiving.inside, receiving.window, receiving.queue, receiving.ends⟩

theorem Receiving.continues (receiving : Receiving base feed limit pcb taken false) :
    Continues base feed limit (taken + pcb.rcvWnd.toNat) taken .nothing pcb taken :=
  ⟨Nat.le_refl _, List.append_nil _, rfl, receiving⟩

theorem Receiving.inWindow (receiving : Receiving base feed limit pcb taken false)
    (carries : inseg.Carries base feed position)
    (near : position ≤ taken + 1073741824 ∧ taken ≤ position + 1073741824) :
    pcb.inWindow inseg.seqno =
      decide (taken ≤ position ∧ position < taken + pcb.rcvWnd.toNat) := by
  have window := receiving.window
  rw [Pcb.inWindow, receiving.rcvNxt, Bool.toNat_false, Nat.add_zero, carries.seqno,
    number_add_toUInt32, number_sub_one, tcpSeqBetween_number (by omega) (by omega),
    decide_eq_decide]
  omega

theorem Receiving.rcvNxt_eq_seqno (receiving : Receiving base feed limit pcb taken false)
    (carries : inseg.Carries base feed position)
    (near : position ≤ taken + 1073741824 ∧ taken ≤ position + 1073741824) :
    pcb.rcvNxt = inseg.seqno ↔ taken = position := by
  rw [receiving.rcvNxt, Bool.toNat_false, Nat.add_zero, carries.seqno, number_inj (by omega),
    Nat.cast_inj]

/-- The segment begins before what is next, and ends after it. -/
theorem Receiving.beginsBefore (receiving : Receiving base feed limit pcb taken false)
    (carries : inseg.Carries base feed position) (nonempty : 0 < inseg.size)
    (near : position ≤ taken + 1073741824 ∧ taken ≤ position + 1073741824) :
    tcpSeqBetween pcb.rcvNxt (inseg.seqno + 1)
        (inseg.seqno + inseg.tcplen.toUInt16.toUInt32 - 1) =
      decide (position < taken ∧ taken < position + inseg.size) := by
  have short := carries.short
  have fin := Bool.toNat_le inseg.fin
  have size : inseg.size = inseg.len.toNat + inseg.fin.toNat := rfl
  rw [carries.seqno_add_tcplen, carries.seqno, receiving.rcvNxt, Bool.toNat_false, Nat.add_zero,
    number_add_one, number_sub_one, tcpSeqBetween_number (by omega) (by omega), decide_eq_decide]
  omega

theorem Receiving.place (receiving : Receiving base feed limit pcb taken false)
    (carries : inseg.Carries base feed position) (nonempty : 0 < inseg.size)
    (near : position ≤ taken + 1073741824 ∧ taken ≤ position + 1073741824)
    (within : position + inseg.size ≤ limit)
    (ok : pcb.place inseg memory = .ok accepted) :
    ∃ next, (position = taken → taken + min inseg.len.toNat pcb.rcvWnd.toNat ≤ next ∧
        (inseg.fin → inseg.size ≤ pcb.rcvWnd.toNat → accepted.passed.gotFin)) ∧
      Continues base feed limit (taken + pcb.rcvWnd.toNat) taken accepted.passed accepted.pcb
        next := by
  rw [Pcb.place] at ok
  simp only [receiving.inWindow carries near, receiving.rcvNxt_eq_seqno carries near,
    decide_eq_true_eq] at ok
  split at ok
  next inWindow =>
    split at ok
    next first =>
      subst first
      obtain ⟨passed, done, ok⟩ := bind_eq_ok.mp ok
      cases ok
      obtain ⟨next, least, fin, continues⟩ := receiving.inSequence carries nonempty (by omega) done
      exact ⟨next, fun _ => ⟨least, fin⟩, continues⟩
    next later =>
      obtain ⟨ooseq, queued, kept⟩ := receiving.outOfSequence carries nonempty (by omega)
        inWindow.2 within memory
      rw [queued] at ok
      cases ok
      exact ⟨taken, fun first => absurd first.symm later, kept.continues⟩
  next =>
    cases ok
    exact ⟨taken, fun first => ⟨by omega, fun _ fits => by omega⟩, receiving.continues⟩

/-- What the data of a segment does: nothing is left out, repeated or made up. -/
theorem Receiving.receiveData (receiving : Receiving base feed limit pcb taken eof)
    (opened : pcb.state.receives = !eof) (carries : inseg.Carries base feed position)
    (near : position ≤ taken + 1073741824 ∧ taken ≤ position + 1073741824)
    (within : position + inseg.size ≤ limit) (ok : pcb.receiveData inseg memory = .ok accepted) :
    ∃ next, taken ≤ next ∧
      feed.items.take taken ++ accepted.passed.data.flatten = feed.items.take next ∧
      next + (eof || accepted.passed.gotFin).toNat + accepted.pcb.rcvWnd.toNat =
        taken + eof.toNat + pcb.rcvWnd.toNat ∧
      Receiving base feed limit accepted.pcb next (eof || accepted.passed.gotFin) ∧
      (eof = false → position ≤ taken →
        min (position + inseg.len.toNat) (taken + pcb.rcvWnd.toNat) ≤ next ∧
        (inseg.fin → position + inseg.size ≤ taken + pcb.rcvWnd.toNat →
          accepted.passed.gotFin)) := by
  have short := carries.short
  have fin := Bool.toNat_le inseg.fin
  have size : inseg.size = inseg.len.toNat + inseg.fin.toNat := rfl
  have compared : 0 < inseg.tcplen.toUInt16 ↔ 0 < inseg.size := by
    rw [UInt16.lt_iff_toNat_lt, carries.toNat_toUInt16_tcplen]
    rfl
  rw [Pcb.receiveData] at ok
  split at ok
  next more =>
    obtain ⟨nonempty, receives⟩ := more
    rw [compared] at nonempty
    obtain rfl : eof = false := by
      rw [receives] at opened
      exact (Bool.not_eq_true' eof).mp opened.symm
    have rcvNxt := receiving.rcvNxt
    rw [Bool.toNat_false, Nat.add_zero] at rcvNxt
    simp only [receiving.beginsBefore carries nonempty near, decide_eq_true_eq] at ok
    rw [Bool.false_or, Bool.toNat_false, Nat.add_zero]
    split at ok
    next both =>
      obtain ⟨seg, trimmed, carries, sameFin, len⟩ := carries.trimLeft both.1 both.2
      have size' : seg.size = seg.len.toNat + seg.fin.toNat := rfl
      rw [sameFin] at size'
      rw [rcvNxt, trimmed] at ok
      obtain ⟨next, least, continues⟩ :=
        receiving.place carries (by omega) (by omega) (by omega) ok
      exact ⟨next, continues.more, continues.data, continues.edge, continues.receiving,
        fun _ _ => ⟨by omega, fun fin fits => (least rfl).2 (sameFin ▸ fin) (by omega)⟩⟩
    next apart =>
      obtain ⟨next, least, continues⟩ : ∃ next,
          (position = taken → taken + min inseg.len.toNat pcb.rcvWnd.toNat ≤ next ∧
            (inseg.fin → inseg.size ≤ pcb.rcvWnd.toNat → accepted.passed.gotFin)) ∧
          Continues base feed limit (taken + pcb.rcvWnd.toNat) taken accepted.passed accepted.pcb
            next := by
        split at ok
        next => exact receiving.ackNow.place carries nonempty near within ok
        next => exact receiving.place carries nonempty near within ok
      have more := continues.more
      refine ⟨next, more, continues.data, continues.edge, continues.receiving,
        fun _ first => ⟨by omega, fun fin fits => ?_⟩⟩
      -- the end of the feed is not before what is next
      have whole := (carries.ends fin).2
      have inside := receiving.inside
      rw [fin, Bool.toNat_true] at size
      exact (least (by omega)).2 fin (by omega)
  next nothing =>
    have least : eof = false → position ≤ taken →
        min (position + inseg.len.toNat) (taken + pcb.rcvWnd.toNat) ≤ taken ∧
          (inseg.fin → position + inseg.size ≤ taken + pcb.rcvWnd.toNat → false = true) := by
      rintro rfl first
      have empty : ¬0 < inseg.size := fun nonempty => nothing ⟨compared.mpr nonempty, opened⟩
      refine ⟨by omega, fun fin => ?_⟩
      rw [fin, Bool.toNat_true] at size
      omega
    split at ok
    next =>
      cases ok
      rw [Passed.nothing, Bool.or_false]
      exact ⟨taken, Nat.le_refl _, List.append_nil _, rfl, receiving, least⟩
    next =>
      cases ok
      rw [Passed.nothing, Bool.or_false]
      exact ⟨taken, Nat.le_refl _, List.append_nil _, rfl, receiving.ackNow, least⟩

end Receive

end AppPortKit.Transport
