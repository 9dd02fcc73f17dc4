import AppPortKit.Transport.Delivery

/-!
# Announced windows

The edge of the window that the peer was told last does not move back.  As long as the peer
stays before it, no assertion fails, and what comes in sequence is taken.
-/

namespace AppPortKit.Transport

open Fallible Serial Transition

/-- The peer was told that it may send what is before `told`; the window ends at `edge`. -/
structure Told (base : UInt32) (told edge : Nat) (pcb : Pcb) (next : Nat) : Prop
    extends Abreast base edge pcb next where
  rightEdge : pcb.rcvAnnRightEdge = number base told
  least : next ≤ told
  kept : told ≤ next + pcb.rcvAnnWnd.toNat
  most : pcb.rcvAnnWnd.toNat ≤ pcb.rcvWnd.toNat

section Told

variable {base : UInt32} {feed : Feed UInt8} {told edge next taken position : Nat} {pcb later : Pcb}
  {inseg : Seg} {segs : List Seg} {passed : Passed} {memory eof : Bool}

theorem Told.of_same (tells : Told base told edge pcb next) (rcvNxt : later.rcvNxt = pcb.rcvNxt)
    (rcvWnd : later.rcvWnd = pcb.rcvWnd) (rcvAnnWnd : later.rcvAnnWnd = pcb.rcvAnnWnd)
    (rightEdge : later.rcvAnnRightEdge = pcb.rcvAnnRightEdge) : Told base told edge later next where
  rcvNxt := rcvNxt.trans tells.rcvNxt
  edge := rcvWnd ▸ tells.edge
  rightEdge := rightEdge.trans tells.rightEdge
  least := tells.least
  kept := rcvAnnWnd ▸ tells.kept
  most := rcvWnd ▸ rcvAnnWnd ▸ tells.most

/-- The window to announce keeps the edge, or moves it forward. -/
theorem Abreast.tcpUpdateRcvAnnWnd (abreast : Abreast base edge pcb next)
    (rightEdge : pcb.rcvAnnRightEdge = number base told) (least : next ≤ told)
    (most : told ≤ edge) :
    ∃ updated, pcb.tcpUpdateRcvAnnWnd = .ok updated ∧ Told base told edge updated.2 next := by
  have small := pcb.rcvWnd.toNat_lt
  have step := (min (tcpWnd / 2) pcb.mss).toNat_lt
  have total := abreast.edge
  have new : pcb.rcvNxt + pcb.rcvWnd.toUInt32 = number base edge := by
    rw [abreast.rcvNxt, number_add_toUInt32, ← total]
    rfl
  suffices updated : ∃ updated, pcb.tcpUpdateRcvAnnWnd = .ok updated ∧
      told ≤ next + updated.2.rcvAnnWnd.toNat ∧
        updated.2.rcvAnnWnd.toNat ≤ pcb.rcvWnd.toNat by
    obtain ⟨updated, ok, kept, fits⟩ := updated
    have same := tcpUpdateRcvAnnWnd_eq_ok ok
    rw [same] at kept fits
    refine ⟨updated, ok, ?_⟩
    rw [same]
    exact ⟨⟨abreast.rcvNxt, total⟩, rightEdge, least, kept, fits⟩
  rw [Pcb.tcpUpdateRcvAnnWnd]
  simp only [new, rightEdge, number_add_toUInt32]
  rw [abreast.rcvNxt, tcpSeqGeq_number (by omega), tcpSeqGt_number (by omega)]
  split
  next => exact ⟨_, rfl, by dsimp only; omega, by dsimp only; omega⟩
  next =>
    rw [if_neg (by rw [decide_eq_true_eq]; omega)]
    have distance := toNat_sub_number base told next
    have inside : number base told - number base next ≤ 0xffff := by
      rw [UInt32.le_iff_toNat_le, distance]
      change _ ≤ 65535
      omega
    have back : ((number base told - number base next).toUInt16.toNat : Int) = told - next :=
      toNat_toUInt16_sub (by omega) (by omega)
    rw [if_pos inside]
    exact ⟨_, rfl, by dsimp only; omega, by dsimp only; omega⟩

theorem Queue.drainOoseq_told (queue : Queue base feed edge told taken segs)
    (tells : Told base told edge pcb (taken + passed.gotFin.toNat))
    (finished : passed.gotFin → segs = []) (narrow : edge ≤ taken + 65535) :
    ∃ drained next, pcb.drainOoseq passed segs = .ok drained ∧
      Told base told edge drained.2 next := by
  induction queue generalizing pcb passed with
  | nil taken =>
      exact ⟨_, _, rfl, tells.of_same rfl rfl rfl rfl⟩
  | @cons taken position cseg later after before within carries nonempty last rest ih =>
      have notYet : passed.gotFin = false :=
        Bool.eq_false_of_not_eq_true fun fin => absurd (finished fin) (List.cons_ne_nil _ _)
      rw [notYet, Bool.toNat_false, Nat.add_zero] at tells
      have place : cseg.seqno = pcb.rcvNxt ↔ position = taken := by
        rw [carries.seqno, tells.rcvNxt, number_inj (by omega), Nat.cast_inj]
      rw [Pcb.drainOoseq]
      by_cases following : position = taken
      · subst following
        have total := tells.edge
        have kept := tells.kept
        have most := tells.most
        have room : cseg.size ≤ pcb.rcvWnd.toNat := by omega
        rw [if_pos (place.mpr rfl), if_neg (by
          rw [UInt32.lt_iff_toNat_lt, Seg.toNat_tcplen, UInt16.toNat_toUInt32]
          omega)]
        obtain ⟨updated, ok, tells'⟩ := (tells.toAbreast.advance carries.short
          room).tcpUpdateRcvAnnWnd tells.rightEdge (by omega) (by omega)
        have gotFin : (passed.add cseg).gotFin = cseg.fin := by
          rw [Passed.add, notYet, Bool.false_or]
        rw [ok]
        refine ih ?_ (fun fin => last (gotFin ▸ fin)) (by omega)
        rw [gotFin, Nat.add_assoc]
        exact tells'.of_same rfl rfl rfl rfl
      · rw [if_neg (place.not.mpr following)]
        exact ⟨_, taken, rfl, tells.of_same rfl rfl rfl rfl⟩

theorem Receiving.inSequence_told (receiving : Receiving base feed told pcb taken false)
    (tells : Told base told (taken + pcb.rcvWnd.toNat) pcb taken)
    (carries : inseg.Carries base feed taken) (nonempty : 0 < inseg.size)
    (within : taken + inseg.size ≤ told) (room : 0 < pcb.rcvWnd.toNat) :
    ∃ result next, pcb.inSequence inseg = .ok result ∧
      Told base told (taken + pcb.rcvWnd.toNat) result.2 next := by
  have window := receiving.window
  have queue := receiving.queue
  have kept := tells.kept
  have most := tells.most
  rw [Bool.toNat_false, Nat.add_zero] at queue
  obtain ⟨cut, trimmed, carries, nonempty, fits, shorter, -, -⟩ :=
    carries.trimToWindow nonempty room
  obtain ⟨seg, rest, joined, facts⟩ := queue.joinOoseq carries nonempty (by omega)
  have before : taken + seg.size ≤ told := by
    rcases facts.within with shorter' | before
    · omega
    · exact before
  have tcplen := facts.carries.toNat_toUInt16_tcplen
  have ahead : Abreast base (taken + pcb.rcvWnd.toNat)
      { pcb with
        rcvNxt := seg.seqno + seg.tcplen.toUInt16.toUInt32
        rcvWnd := pcb.rcvWnd - seg.tcplen.toUInt16 } (taken + seg.size) := by
    refine ⟨facts.carries.seqno_add_tcplen.trans rfl, ?_⟩
    change taken + seg.size + (pcb.rcvWnd - seg.tcplen.toUInt16).toNat = _
    rw [UInt16.toNat_sub_of_le _ _ (by rw [UInt16.le_iff_toNat_le, tcplen]; omega), tcplen]
    omega
  obtain ⟨updated, announced, tells'⟩ :=
    ahead.tcpUpdateRcvAnnWnd tells.rightEdge before (by omega)
  have size : seg.size = seg.len.toNat + (Passed.nothing.add seg).gotFin.toNat := rfl
  rw [size, ← Nat.add_assoc] at tells'
  obtain ⟨drained, next, further, tells''⟩ :=
    facts.queue.drainOoseq_told tells' facts.last (by omega)
  refine ⟨(drained.1, drained.2.tcpAck), next, ?_, ?_⟩
  · rw [Pcb.inSequence, tells.rcvNxt]
    refine bind_eq_ok.mpr ⟨cut, trimmed, bind_eq_ok.mpr ⟨(seg, rest), joined, ?_⟩⟩
    dsimp only
    rw [if_neg (by rw [UInt16.lt_iff_toNat_lt, tcplen]; omega)]
    exact bind_eq_ok.mpr ⟨updated, announced, bind_eq_ok.mpr ⟨drained, further, rfl⟩⟩
  · rw [Pcb.tcpAck_eq]
    exact tells''.of_same rfl rfl rfl rfl

theorem Receiving.place_told (receiving : Receiving base feed told pcb taken false)
    (tells : Told base told (taken + pcb.rcvWnd.toNat) pcb taken)
    (carries : inseg.Carries base feed position) (nonempty : 0 < inseg.size)
    (near : position ≤ taken + 1073741824 ∧ taken ≤ position + 1073741824)
    (within : position + inseg.size ≤ told) (memory : Bool) :
    ∃ accepted next, pcb.place inseg memory = .ok accepted ∧
      Told base told (taken + pcb.rcvWnd.toNat) accepted.pcb next := by
  rw [Pcb.place]
  simp only [receiving.inWindow carries near, receiving.rcvNxt_eq_seqno carries near,
    decide_eq_true_eq]
  split
  next inWindow =>
    split
    next first =>
      subst first
      obtain ⟨result, next, done, tells⟩ :=
        receiving.inSequence_told tells carries nonempty within (by omega)
      exact ⟨_, next, bind_eq_ok.mpr ⟨result, done, rfl⟩, tells⟩
    next later =>
      obtain ⟨ooseq, queued, -⟩ := receiving.outOfSequence carries nonempty (by omega) inWindow.2
        within memory
      exact ⟨_, taken, bind_eq_ok.mpr ⟨_, queued, rfl⟩, tells.of_same rfl rfl rfl rfl⟩
  next => exact ⟨_, taken, rfl, tells⟩

/-- The data of a segment that stays in the announced window does not stop the machine. -/
theorem Receiving.receiveData_told (receiving : Receiving base feed told pcb taken eof)
    (opened : pcb.state.receives = !eof)
    (tells : Told base told (taken + eof.toNat + pcb.rcvWnd.toNat) pcb (taken + eof.toNat))
    (carries : inseg.Carries base feed position)
    (near : position ≤ taken + 1073741824 ∧ taken ≤ position + 1073741824)
    (within : position + inseg.size ≤ told) (memory : Bool) :
    ∃ accepted next, pcb.receiveData inseg memory = .ok accepted ∧
      Told base told (taken + eof.toNat + pcb.rcvWnd.toNat) accepted.pcb next := by
  have ackNow : Told base told (taken + eof.toNat + pcb.rcvWnd.toNat) pcb.tcpAckNow
      (taken + eof.toNat) :=
    tells.of_same rfl rfl rfl rfl
  rw [Pcb.receiveData]
  split
  next more =>
    obtain ⟨nonempty, receives⟩ := more
    rw [UInt16.lt_iff_toNat_lt, carries.toNat_toUInt16_tcplen] at nonempty
    change 0 < inseg.size at nonempty
    obtain rfl : eof = false := by
      rw [receives] at opened
      exact (Bool.not_eq_true' eof).mp opened.symm
    simp only [receiving.beginsBefore carries nonempty near, decide_eq_true_eq]
    rw [Bool.toNat_false, Nat.add_zero] at tells ackNow ⊢
    split
    next both =>
      obtain ⟨seg, trimmed, carries, sameFin, len⟩ := carries.trimLeft both.1 both.2
      have size : inseg.size = inseg.len.toNat + inseg.fin.toNat := rfl
      have size' : seg.size = seg.len.toNat + seg.fin.toNat := rfl
      rw [sameFin] at size'
      obtain ⟨accepted, next, done, tells'⟩ :=
        receiving.place_told tells carries (by omega) (by omega) (by omega) memory
      exact ⟨accepted, next, bind_eq_ok.mpr ⟨seg, by rw [tells.rcvNxt, trimmed], done⟩, tells'⟩
    next =>
      split
      next => exact receiving.ackNow.place_told ackNow carries nonempty near within memory
      next => exact receiving.place_told tells carries nonempty near within memory
  next =>
    split
    next => exact ⟨_, _, rfl, tells⟩
    next => exact ⟨_, _, rfl, ackNow⟩

/-- An announcement tells what the window to announce has become. -/
theorem Told.tells (told' : Told base told (next + pcb.rcvWnd.toNat) pcb next)
    (tells : pcb.Tells later) (window : pcb.rcvWnd.toNat ≤ 5840) :
    ∃ more, told ≤ more ∧ Told base more (next + later.rcvWnd.toNat) later next := by
  have rcvNxt := tells.rcvNxt.trans told'.rcvNxt
  have most : later.rcvAnnWnd.toNat ≤ later.rcvWnd.toNat := by
    rw [tells.rcvAnnWnd]
    exact told'.most.trans (tells.window window).1
  rcases tells.rcvAnnRightEdge with same | announced
  · refine ⟨told, Nat.le_refl _, ⟨rcvNxt, rfl⟩, same.trans told'.rightEdge, told'.least, ?_, most⟩
    rw [tells.rcvAnnWnd]
    exact told'.kept
  · refine ⟨next + pcb.rcvAnnWnd.toNat, told'.kept, ⟨rcvNxt, rfl⟩, ?_, Nat.le_add_right _ _, ?_,
      most⟩
    · rw [announced, told'.rcvNxt, number_add_toUInt32]
      rfl
    · rw [tells.rcvAnnWnd]

theorem Told.tcpRecved (told' : Told base told (next + pcb.rcvWnd.toNat) pcb next)
    (window : pcb.rcvWnd.toNat ≤ 5840) (len : UInt16) :
    ∃ later, pcb.tcpRecved len = .ok later ∧
      Told base told (next + later.rcvWnd.toNat) later next := by
  have wider := (recved_window len window).1
  have kept := told'.kept
  have most := told'.most
  obtain ⟨updated, ok, told''⟩ := Abreast.tcpUpdateRcvAnnWnd
    (show Abreast base _ { pcb with
      rcvWnd := if tcpWnd < pcb.rcvWnd + len ∨ pcb.rcvWnd + len < pcb.rcvWnd then tcpWnd
        else pcb.rcvWnd + len } next from ⟨told'.rcvNxt, rfl⟩)
    told'.rightEdge told'.least (by dsimp only; omega)
  refine ⟨_, bind_eq_ok.mpr ⟨updated, ok, rfl⟩, ?_⟩
  split
  all_goals exact ⟨⟨told''.rcvNxt, rfl⟩, told''.rightEdge, told''.least, told''.kept, told''.most⟩

theorem Receiving.tcpProcess_told (receiving : Receiving base feed told pcb taken eof)
    (opened : pcb.state.receives = !eof)
    (tells : Told base told (taken + eof.toNat + pcb.rcvWnd.toNat) pcb (taken + eof.toNat))
    (carries : inseg.Carries base feed position)
    (near : position ≤ taken + 1073741824 ∧ taken ≤ position + 1073741824)
    (within : position + inseg.size ≤ told) (allAcked : Bool) (resources : Resources) :
    ∃ processed next more, pcb.tcpProcess inseg allAcked resources = .ok processed ∧
      told ≤ more ∧ next ≤ feed.items.length ∧ processed.2.rcvWnd.toNat ≤ 5840 ∧
      feed.items.take taken ++ processed.1.data.flatten = feed.items.take next ∧
      Told base more (next + (eof || processed.1.gotFin).toNat + processed.2.rcvWnd.toNat)
        processed.2 (next + (eof || processed.1.gotFin).toNat) := by
  obtain ⟨accepted, place, received, tells⟩ :=
    receiving.receiveData_told opened tells carries near within resources.segCopy
  obtain ⟨next, -, data, edge, receiving, -⟩ :=
    receiving.receiveData opened carries near within received
  have total := tells.edge
  obtain rfl : place = next + (eof || accepted.passed.gotFin).toNat := by omega
  rw [← edge] at tells
  have sent := tcpProcess_tells accepted pcb.state allAcked resources
  obtain ⟨more, further, tells⟩ := tells.tells sent receiving.window
  exact ⟨_, next, more, bind_eq_ok.mpr ⟨accepted, received, rfl⟩, further, receiving.inside,
    (sent.window receiving.window).2, data, tells⟩

end Told

/-! ## Sessions -/

/-- Where the announced window ends. -/
def Session.announcedEnd (session : Session) : Nat :=
  session.read.length + session.eof.toNat +
    (session.endpoint.pcb.rcvAnnRightEdge - session.endpoint.pcb.rcvNxt).toNat

/-- The connection, while it lasts, has told the peer that it may send what is before `told`. -/
def Session.Tells (base : UInt32) (told : Nat) (session : Session) : Prop :=
  session.endpoint.alive → Told base told
    (session.read.length + session.eof.toNat + session.endpoint.pcb.rcvWnd.toNat)
    session.endpoint.pcb (session.read.length + session.eof.toNat)

/-- Everything that was queued is in the window that the peer was told. -/
structure Session.Heeded (base : UInt32) (feed : Feed UInt8) (told : Nat) (session : Session) :
    Prop where
  sound : session.Sound base feed told
  tells : session.Tells base told

namespace Session

variable {base : UInt32} {feed : Feed UInt8} {told : Nat} {session later : Session}

theorem Heeded.announcedEnd (heeded : session.Heeded base feed told)
    (alive : session.endpoint.alive) : session.announcedEnd = told := by
  have tells := heeded.tells alive
  have least := tells.least
  have kept := tells.kept
  have small := session.endpoint.pcb.rcvAnnWnd.toNat_lt
  rw [Session.announcedEnd, tells.rightEdge, tells.rcvNxt, toNat_sub_number]
  omega

/-- A segment that stays in the announced window does not stop the machine. -/
theorem Heeded.tcpInput (heeded : session.Heeded base feed told) {inseg : Seg} {position : Nat}
    (arriving : Arriving base feed session inseg position)
    (within : position + inseg.size ≤ told) (allAcked : Bool) (resources : Resources)
    (alive : session.endpoint.alive) :
    ∃ stepped more, session.endpoint.tcpInput inseg allAcked resources = .ok stepped ∧
      told ≤ more ∧ (session.after stepped).Tells base more := by
  have tells := heeded.tells alive
  have receiving := heeded.sound.receiving alive
  rw [Endpoint.tcpInput]
  by_cases waiting : session.endpoint.pcb.state = .timeWait
  · obtain ⟨more, further, tells⟩ :=
      tells.tells (tcpTimewaitInput_tells session.endpoint.pcb inseg).1 receiving.window
    refine ⟨_, more, if_pos waiting, further, ?_⟩
    rw [after_nothing]
    exact fun _ => tells
  · rw [if_neg waiting]
    obtain ⟨processed, next, more, processes, further, inside, window, data, tells⟩ :=
      receiving.tcpProcess_told (heeded.sound.opened alive) tells arriving.carries
        ⟨arriving.ahead, arriving.behind⟩ within allAcked resources
    by_cases last : session.endpoint.pcb.state = .lastAck ∧ allAcked
    · exact ⟨_, told, bind_eq_ok.mpr ⟨processed, processes, if_pos last⟩, Nat.le_refl _,
        fun still => absurd still Bool.false_ne_true⟩
    · by_cases lost : processed.1.data ≠ [] ∧ session.endpoint.rxClosed
      · exact ⟨_, told, bind_eq_ok.mpr ⟨processed, processes, (if_neg last).trans (if_pos lost)⟩,
          Nat.le_refl _, fun still => absurd still Bool.false_ne_true⟩
      · rw [← heeded.sound.kept] at data
        have length : (session.read ++ processed.1.data.flatten).length = next := by
          rw [data, List.length_take, Nat.min_eq_left inside]
        have corrected : processed.2.Tells
            (if processed.1.gotFin then processed.2.correctRcvWnd else processed.2) := by
          split
          next => exact (correctRcvWnd_tells _).1
          next => exact .refl _
        obtain ⟨more', further', tells⟩ := tells.tells corrected window
        refine ⟨_, more', bind_eq_ok.mpr ⟨processed, processes,
          (if_neg last).trans (if_neg lost)⟩, further.trans further', fun _ => ?_⟩
        rw [after, length]
        exact tells

/-- Nothing is passed on, and the window to announce is the same. -/
theorem Heeded.silent (heeded : session.Heeded base feed told) (alive : session.endpoint.alive)
    {event : Event} {endpoint : Endpoint}
    (done : session.endpoint.step event = .ok (.nothing, endpoint))
    (tells : endpoint.alive → session.endpoint.pcb.Tells endpoint.pcb) :
    ∃ stepped more, session.endpoint.step event = .ok stepped ∧ told ≤ more ∧
      (session.after stepped).Tells base more := by
  by_cases still : endpoint.alive
  · obtain ⟨more, further, tells⟩ := (heeded.tells alive).tells (tells still)
      (heeded.sound.receiving alive).window
    refine ⟨_, more, done, further, ?_⟩
    rw [after_nothing]
    exact fun _ => tells
  · exact ⟨_, told, done, Nat.le_refl _, fun still' => absurd still' still⟩

theorem Heeded.endpoint_step (heeded : session.Heeded base feed told)
    (alive : session.endpoint.alive) {event : Event}
    (arrives : ∀ inseg allAcked resources, event = .input inseg allAcked resources →
      ∃ position, Arriving base feed session inseg position ∧ position + inseg.size ≤ told) :
    ∃ stepped more, session.endpoint.step event = .ok stepped ∧ told ≤ more ∧
      (session.after stepped).Tells base more := by
  cases event with
  | input inseg allAcked resources =>
      obtain ⟨position, arriving, within⟩ := arrives inseg allAcked resources rfl
      exact heeded.tcpInput arriving within allAcked resources alive
  | recved len =>
      obtain ⟨pcb, recved, tells⟩ := (heeded.tells alive).tcpRecved
        (heeded.sound.receiving alive).window len
      refine ⟨_, told, bind_eq_ok.mpr ⟨pcb, recved, rfl⟩, Nat.le_refl _, ?_⟩
      rw [after_nothing]
      exact fun _ => tells
  | outputSegment sent => exact heeded.silent alive rfl fun _ => (tcpOutputSegment_tells _ sent).1
  | sendEmptyAck allocated sent =>
      exact heeded.silent alive rfl fun _ => (tcpSendEmptyAck_tells _ allocated sent).1
  | freeOoseq => exact heeded.silent alive rfl fun _ => (tcpFreeOoseq_tells _).1
  | close queued => exact heeded.silent alive rfl fun still => (tcpClose_tells still).1
  | closeShutdownFin queued =>
      exact heeded.silent alive rfl fun _ => (tcpCloseShutdownFin_tells _ queued).1
  | remove => exact heeded.silent alive rfl fun still => absurd still Bool.false_ne_true

/-- No event stops the machine, and the announced edge does not move back. -/
theorem Heeded.step (heeded : session.Heeded base feed told) {event : Event}
    (arrives : ∀ inseg allAcked resources, event = .input inseg allAcked resources →
      ∃ position, Arriving base feed session inseg position ∧
        position + inseg.size ≤ session.announcedEnd) :
    ∃ later more, session.step event = .ok later ∧ told ≤ more ∧
      later.Heeded base feed more := by
  by_cases alive : session.endpoint.alive
  · rw [heeded.announcedEnd alive] at arrives
    obtain ⟨stepped, more, done, further, tells⟩ := heeded.endpoint_step alive arrives
    have ok := (step_eq_ok alive).mpr ⟨stepped, done, rfl⟩
    exact ⟨_, more, ok, further, (heeded.sound.step arrives ok).mono further, tells⟩
  · rw [Session.step, if_neg alive]
    exact ⟨session, told, rfl, Nat.le_refl _, heeded⟩

theorem heeded_established (irs : UInt32) (mss : UInt16) (passive : Bool) (feed : Feed UInt8) :
    (established irs mss passive).Heeded (irs + 1) feed (if passive then 5840 else 0) := by
  refine ⟨sound_established irs mss passive feed _, fun _ =>
    ⟨⟨(number_zero _).symm, rfl⟩, ?_, Nat.zero_le _, ?_, Nat.le_refl _⟩⟩
  · cases passive with
    | false => exact (number_zero _).symm
    | true =>
        change irs + 1 + tcpWnd.toUInt32 = number (irs + 1) (0 + (tcpWnd.toNat : Int))
        rw [← number_add_toUInt32, number_zero]
  · cases passive with
    | false => exact Nat.zero_le _
    | true => exact Nat.le_refl _

end Session

/-- The segments that arrive carry what the peer has written, and the peer stays in the window
that it was told. -/
def StaysInside (base : UInt32) (feed : Feed UInt8) : Except Halt Session → Event → Prop
  | .ok session, .input inseg _ _ => ∃ position, Arriving base feed session inseg position ∧
      position + inseg.size ≤ session.announcedEnd
  | _, _ => True

section Runs

variable {base : UInt32} {feed : Feed UInt8} {told : Nat} {session later : Session}
  {events : List Event}

theorem Session.Heeded.run (heeded : session.Heeded base feed told)
    (stays : transport.Along (StaysInside base feed) (.ok session) events) :
    ∃ later more, transport.run (.ok session) events = .ok later ∧ told ≤ more ∧
      later.Heeded base feed more := by
  induction events generalizing session told with
  | nil => exact ⟨session, told, rfl, Nat.le_refl _, heeded⟩
  | cons event rest ih =>
      have arrives : ∀ inseg allAcked resources, event = .input inseg allAcked resources →
          ∃ position, Arriving base feed session inseg position ∧
            position + inseg.size ≤ session.announcedEnd := by
        rintro inseg allAcked resources rfl
        exact stays.1
      obtain ⟨middle, more, ok, further, heeded⟩ := heeded.step arrives
      have next : transport.next (.ok session) event = .ok middle := ok
      rw [Machine.along_cons, next] at stays
      obtain ⟨later, most, reached, further', heeded⟩ := ih heeded stays.2
      rw [Machine.run_cons, next]
      exact ⟨later, most, reached, further.trans further', heeded⟩

/-- A connection that has ended stays as it is. -/
theorem run_of_ended (ended : ¬session.endpoint.alive) (events : List Event) :
    transport.run (.ok session) events = .ok session := by
  induction events with
  | nil => rfl
  | cons event rest ih =>
      have next : transport.next (.ok session) event = .ok session := if_neg ended
      rw [Machine.run_cons, next, ih]

end Runs

variable {irs : UInt32} {mss : UInt16} {passive : Bool} {feed : Feed UInt8}

/-- No assertion fails if the peer stays in the window that it was told. -/
theorem transport_never_halts {events : List Event}
    (stays : transport.Along (StaysInside (irs + 1) feed) (.ok (.established irs mss passive))
      events) :
    ∃ session, transport.run (.ok (.established irs mss passive)) events = .ok session := by
  obtain ⟨session, -, reached, -⟩ := (Session.heeded_established irs mss passive feed).run stays
  exact ⟨session, reached⟩

theorem transport_never_halts_swapped :
    ∃ session, transport.run (.ok (.established 0xfffffffd 1460 true)) swapped = .ok session := by
  have stays : transport.Along (StaysInside (0xfffffffd + 1) shortFeed)
      (.ok (.established 0xfffffffd 1460 true)) swapped :=
    ⟨⟨2, swapped_second _ (by decide), by decide⟩, ⟨0, swapped_first _ (by decide), by decide⟩,
      trivial⟩
  exact transport_never_halts stays

/-- The window that the peer was told is not taken back. -/
theorem announced_window_kept {front back : List Event} {session later : Session}
    (stays : transport.Along (StaysInside (irs + 1) feed) (.ok (.established irs mss passive))
      (front ++ back))
    (reached : transport.run (.ok (.established irs mss passive)) front = .ok session)
    (last : transport.run (.ok (.established irs mss passive)) (front ++ back) = .ok later)
    (alive : later.endpoint.alive) : session.announcedEnd ≤ later.announcedEnd := by
  obtain ⟨staysFront, staysBack⟩ := (Machine.along_append _ _ _ _ _).mp stays
  rw [Machine.run_append, reached] at last
  rw [reached] at staysBack
  obtain ⟨_, told, reached', -, heeded⟩ :=
    (Session.heeded_established irs mss passive feed).run staysFront
  obtain rfl := Except.ok.inj (reached.symm.trans reached')
  by_cases alive' : session.endpoint.alive
  · obtain ⟨_, more, last', further, heeded'⟩ := heeded.run staysBack
    obtain rfl := Except.ok.inj (last.symm.trans last')
    rw [heeded.announcedEnd alive', heeded'.announcedEnd alive]
    exact further
  · rw [run_of_ended alive'] at last
    exact Except.ok.inj last ▸ Nat.le_refl _

/-- The application takes the three bytes, and the window is announced again. -/
theorem announced_window_kept_swapped :
    ∃ session later, transport.run (.ok (.established 0xfffffffd 1460 true)) swapped = .ok session ∧
      transport.run (.ok (.established 0xfffffffd 1460 true))
        (swapped ++ [.recved 3, .sendEmptyAck true true]) = .ok later ∧
      session.announcedEnd ≤ later.announcedEnd := by
  have stays : transport.Along (StaysInside (0xfffffffd + 1) shortFeed)
      (.ok (.established 0xfffffffd 1460 true)) (swapped ++ [.recved 3, .sendEmptyAck true true]) :=
    ⟨⟨2, swapped_second _ (by decide), by decide⟩, ⟨0, swapped_first _ (by decide), by decide⟩,
      trivial, trivial, trivial⟩
  have kept (session later : Session)
      (reached : transport.run (.ok (.established 0xfffffffd 1460 true)) swapped = .ok session)
      (last : transport.run (.ok (.established 0xfffffffd 1460 true))
        (swapped ++ [.recved 3, .sendEmptyAck true true]) = .ok later)
      (alive : later.endpoint.alive) := announced_window_kept stays reached last alive
  exact ⟨_, _, rfl, rfl, kept _ _ rfl rfl rfl⟩

/-- A segment in the announced window that begins with what is next or before is taken, with or
without memory, and so is the end of the data. -/
theorem announced_data_taken {events : List Event} {session : Session} {inseg : Seg}
    {position : Nat}
    (stays : transport.Along (StaysInside (irs + 1) feed) (.ok (.established irs mss passive))
      events)
    (reached : transport.run (.ok (.established irs mss passive)) events = .ok session)
    (alive : session.endpoint.alive) (reading : session.endpoint.rxClosed = false)
    (more : session.eof = false) (arriving : Arriving (irs + 1) feed session inseg position)
    (within : position + inseg.size ≤ session.announcedEnd) (due : position ≤ session.read.length)
    (allAcked : Bool) (resources : Resources) :
    ∃ later, session.step (.input inseg allAcked resources) = .ok later ∧
      position + inseg.len.toNat ≤ later.read.length ∧
      (inseg.fin → later.eof ∧ later.read = feed.items) := by
  obtain ⟨_, told, reached', -, heeded⟩ :=
    (Session.heeded_established irs mss passive feed).run stays
  obtain rfl := Except.ok.inj (reached.symm.trans reached')
  have arrives : ∀ inseg' allAcked' resources',
      Event.input inseg allAcked resources = .input inseg' allAcked' resources' →
      ∃ position, Arriving (irs + 1) feed session inseg' position ∧
        position + inseg'.size ≤ session.announcedEnd := by
    rintro _ _ _ ⟨⟩
    exact ⟨position, arriving, within⟩
  obtain ⟨later, _, ok, -⟩ := heeded.step arrives
  have tells := heeded.tells alive
  have kept := tells.kept
  have most := tells.most
  have size : inseg.size = inseg.len.toNat + inseg.fin.toNat := rfl
  rw [heeded.announcedEnd alive] at within
  rw [more, Bool.toNat_false] at kept
  obtain ⟨sound, taken⟩ := heeded.sound.input arriving within alive ok
  obtain ⟨least, fin⟩ := taken reading more due
  refine ⟨later, ok, by omega, fun ends => ?_⟩
  have eof := fin ends (by omega)
  exact ⟨eof, (sound.ends eof).2⟩

/-- The first two of three bytes come last. -/
theorem announced_data_taken_swapped :
    ∃ session later, transport.run (.ok (.established 0xfffffffd 1460 true))
        (swapped.take 1) = .ok session ∧
      session.step (.input { seqno := 0xfffffffe, len := 2, p := [[104], [105]], fin := false }
        false ⟨false, false, false⟩) = .ok later ∧ 2 ≤ later.read.length := by
  have stays : transport.Along (StaysInside (0xfffffffd + 1) shortFeed)
      (.ok (.established 0xfffffffd 1460 true)) (swapped.take 1) :=
    ⟨⟨2, swapped_second _ (by decide), by decide⟩, trivial⟩
  obtain ⟨session, reached, few, alive, reading, more, within⟩ : ∃ session,
      transport.run (.ok (.established 0xfffffffd 1460 true)) (swapped.take 1) = .ok session ∧
      session.read.length = 0 ∧ session.endpoint.alive ∧ session.endpoint.rxClosed = false ∧
      session.eof = false ∧ 2 ≤ session.announcedEnd :=
    ⟨_, rfl, rfl, rfl, rfl, rfl, by decide⟩
  obtain ⟨later, ok, taken, -⟩ := announced_data_taken stays reached alive reading more
    (swapped_first session (few ▸ Nat.zero_le _)) within (Nat.zero_le _) false
    ⟨false, false, false⟩
  exact ⟨session, later, reached, ok, taken⟩

end AppPortKit.Transport
