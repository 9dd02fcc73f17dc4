import AppPortKit.Transport.Endpoint
import AppPortKit.Transport.Reassembly

/-!
# Delivery

Whatever happens to a connection, the application has got a first part of what the peer has
written, in order and once, and it is told the end after all of it.  A peer that stays in the
window that it was told does not make an assertion fail, and what it sends is taken.
-/

namespace AppPortKit.Transport

open Fallible Serial Transition

/-! ## What events keep -/

/-- What was passed on stays so.  The window may grow, and the queue may be dropped. -/
structure Pcb.Keeps (pcb later : Pcb) : Prop where
  rcvNxt : later.rcvNxt = pcb.rcvNxt
  window : pcb.rcvWnd.toNat ≤ 5840 →
    pcb.rcvWnd.toNat ≤ later.rcvWnd.toNat ∧ later.rcvWnd.toNat ≤ 5840
  ooseq : later.ooseq = pcb.ooseq ∨ later.ooseq = []

/-- The window to announce is the same; it may have been announced. -/
structure Pcb.Tells (pcb later : Pcb) : Prop extends pcb.Keeps later where
  rcvAnnWnd : later.rcvAnnWnd = pcb.rcvAnnWnd
  rcvAnnRightEdge : later.rcvAnnRightEdge = pcb.rcvAnnRightEdge ∨
    later.rcvAnnRightEdge = pcb.rcvNxt + pcb.rcvAnnWnd.toUInt32

section Keeps

variable {base : UInt32} {feed : Feed UInt8} {limit limit' taken : Nat} {pcb later : Pcb}
  {eof : Bool}

theorem Pcb.Keeps.of_same (nxt : later.rcvNxt = pcb.rcvNxt) (wnd : later.rcvWnd = pcb.rcvWnd)
    (ooseq : later.ooseq = pcb.ooseq ∨ later.ooseq = []) : pcb.Keeps later :=
  ⟨nxt, fun fits => by rw [wnd]; exact ⟨Nat.le_refl _, fits⟩, ooseq⟩

theorem Pcb.Tells.refl (pcb : Pcb) : pcb.Tells pcb :=
  ⟨.of_same rfl rfl (.inl rfl), rfl, .inl rfl⟩

theorem Pcb.Tells.trans {last : Pcb} (first : pcb.Tells later) (second : later.Tells last) :
    pcb.Tells last where
  rcvNxt := second.rcvNxt.trans first.rcvNxt
  window := by
    intro fits
    obtain ⟨wider, fits'⟩ := first.window fits
    obtain ⟨wider', fits''⟩ := second.window fits'
    exact ⟨wider.trans wider', fits''⟩
  ooseq := second.ooseq.elim (fun same => first.ooseq.imp same.trans same.trans) .inr
  rcvAnnWnd := second.rcvAnnWnd.trans first.rcvAnnWnd
  rcvAnnRightEdge := by
    rcases second.rcvAnnRightEdge with same | announced
    · exact first.rcvAnnRightEdge.imp same.trans same.trans
    · rw [first.rcvNxt, first.rcvAnnWnd] at announced
      exact .inr announced

theorem Receiving.keeps (receiving : Receiving base feed limit pcb taken eof)
    (keeps : pcb.Keeps later) : Receiving base feed limit later taken eof where
  rcvNxt := keeps.rcvNxt.trans receiving.rcvNxt
  inside := receiving.inside
  window := (keeps.window receiving.window).2
  queue := by
    rcases keeps.ooseq with same | dropped
    · rw [same]
      exact receiving.queue.mono (Nat.add_le_add_left (keeps.window receiving.window).1 _)
        (Nat.le_refl _) (Nat.le_refl _)
    · rw [dropped]
      exact .nil _
  ends := by
    intro ended
    obtain ⟨closed, total, empty⟩ := receiving.ends ended
    exact ⟨closed, total, keeps.ooseq.elim (·.trans empty) id⟩

theorem Receiving.mono (receiving : Receiving base feed limit pcb taken eof)
    (limits : limit ≤ limit') : Receiving base feed limit' pcb taken eof :=
  { receiving with queue := receiving.queue.mono (Nat.le_refl _) limits (Nat.le_refl _) }

theorem tcpSendEmptyAck_tells (pcb : Pcb) (allocated sent : Bool) :
    pcb.Tells (pcb.tcpSendEmptyAck allocated sent) ∧
      (pcb.tcpSendEmptyAck allocated sent).state = pcb.state := by
  rw [Pcb.tcpSendEmptyAck]
  split
  next => exact ⟨⟨.of_same rfl rfl (.inl rfl), rfl, .inr rfl⟩, rfl⟩
  next => exact ⟨⟨.of_same rfl rfl (.inl rfl), rfl, .inl rfl⟩, rfl⟩

theorem tcpOutputSegment_tells (pcb : Pcb) (sent : Bool) :
    pcb.Tells (pcb.tcpOutputSegment sent) ∧ (pcb.tcpOutputSegment sent).state = pcb.state := by
  rw [Pcb.tcpOutputSegment]
  split
  all_goals exact ⟨⟨.of_same rfl rfl (.inl rfl), rfl, .inr rfl⟩, rfl⟩

theorem tcpFreeOoseq_tells (pcb : Pcb) :
    pcb.Tells pcb.tcpFreeOoseq ∧ pcb.tcpFreeOoseq.state = pcb.state :=
  ⟨⟨.of_same rfl rfl (.inr rfl), rfl, .inl rfl⟩, rfl⟩

theorem tcpTimewaitInput_tells (pcb : Pcb) (inseg : Seg) :
    pcb.Tells (pcb.tcpTimewaitInput inseg) ∧ (pcb.tcpTimewaitInput inseg).state = pcb.state := by
  rw [Pcb.tcpTimewaitInput]
  split
  all_goals exact ⟨⟨.of_same rfl rfl (.inl rfl), rfl, .inl rfl⟩, rfl⟩

theorem tcpCloseShutdownFin_tells (pcb : Pcb) (queued : Bool) :
    pcb.Tells (pcb.tcpCloseShutdownFin queued) ∧
      (pcb.tcpCloseShutdownFin queued).state.receives = pcb.state.receives := by
  rw [Pcb.tcpCloseShutdownFin]
  cases found : pcb.state
  all_goals cases queued
  all_goals
    exact ⟨⟨.of_same rfl rfl (.inl rfl), rfl, .inl rfl⟩, by simp [found, TcpState.receives]⟩

/-- A connection that is not reset when it is closed. -/
theorem tcpClose_tells {endpoint : Endpoint} {queued : Bool}
    (alive : (endpoint.tcpClose queued).alive) :
    endpoint.pcb.Tells (endpoint.tcpClose queued).pcb ∧
      (endpoint.tcpClose queued).pcb.state.receives = endpoint.pcb.state.receives := by
  rw [Endpoint.tcpClose] at alive ⊢
  split
  next reset =>
    rw [if_pos reset] at alive
    exact absurd alive Bool.false_ne_true
  next => exact tcpCloseShutdownFin_tells endpoint.pcb queued

theorem correctRcvWnd_tells (pcb : Pcb) :
    pcb.Tells pcb.correctRcvWnd ∧ pcb.correctRcvWnd.state = pcb.state := by
  rw [Pcb.correctRcvWnd]
  split
  next less =>
    have different : pcb.rcvWnd.toNat ≠ 5840 := fun same => less (UInt16.toNat_inj.mp same)
    refine ⟨⟨⟨rfl, fun fits => ?_, .inl rfl⟩, rfl, .inl rfl⟩, rfl⟩
    dsimp only
    rw [UInt16.toNat_add, UInt16.toNat_one]
    omega
  next => exact ⟨.refl pcb, rfl⟩

theorem recved_window {rcvWnd : UInt16} (len : UInt16) (fits : rcvWnd.toNat ≤ 5840) :
    rcvWnd.toNat ≤
        (if tcpWnd < rcvWnd + len ∨ rcvWnd + len < rcvWnd then tcpWnd else rcvWnd + len).toNat ∧
      (if tcpWnd < rcvWnd + len ∨ rcvWnd + len < rcvWnd then tcpWnd
        else rcvWnd + len).toNat ≤ 5840 := by
  have most : tcpWnd.toNat = 5840 := rfl
  split
  next => omega
  next more =>
    rw [not_or, UInt16.lt_iff_toNat_lt, UInt16.lt_iff_toNat_lt] at more
    omega

theorem tcpRecved_keeps {len : UInt16} (ok : pcb.tcpRecved len = .ok later) :
    pcb.Keeps later ∧ later.state = pcb.state := by
  obtain ⟨updated, announced, ok⟩ := bind_eq_ok.mp ok
  have same := tcpUpdateRcvAnnWnd_eq_ok announced
  suffices kept : pcb.Keeps updated.2 ∧ updated.2.state = pcb.state by
    cases ok
    split
    next => exact ⟨⟨kept.1.rcvNxt, kept.1.window, kept.1.ooseq⟩, kept.2⟩
    next => exact kept
  rw [same]
  exact ⟨⟨rfl, recved_window len, .inl rfl⟩, rfl⟩

end Keeps

/-! ## States -/

section States

variable {pcb : Pcb} {inseg : Seg} {memory : Bool}

theorem drainOoseq_state {passed : Passed} {segs : List Seg} {drained : Passed × Pcb}
    (ok : pcb.drainOoseq passed segs = .ok drained) (more : drained.1.gotFin = false) :
    passed.gotFin = false ∧ drained.2.state = pcb.state := by
  induction segs generalizing pcb passed with
  | nil =>
      cases ok
      exact ⟨more, rfl⟩
  | cons cseg later ih =>
      rw [Pcb.drainOoseq] at ok
      split at ok
      next =>
        split at ok
        next => cases ok
        next =>
          obtain ⟨updated, announced, ok⟩ := bind_eq_ok.mp ok
          obtain ⟨added, state⟩ := ih ok
          obtain ⟨earlier, notFin⟩ := Bool.or_eq_false_iff.mp added
          refine ⟨earlier, state.trans ?_⟩
          dsimp only
          rw [if_neg fun both => absurd (notFin ▸ both.1) Bool.false_ne_true,
            tcpUpdateRcvAnnWnd_eq_ok announced]
      next =>
        cases ok
        exact ⟨more, rfl⟩

theorem inSequence_state {taken : Passed × Pcb} (ok : pcb.inSequence inseg = .ok taken)
    (more : taken.1.gotFin = false) : taken.2.state = pcb.state := by
  obtain ⟨cut, -, ok⟩ := bind_eq_ok.mp ok
  obtain ⟨joined, -, ok⟩ := bind_eq_ok.mp ok
  dsimp only at ok
  split at ok
  next => cases ok
  next =>
    obtain ⟨updated, announced, ok⟩ := bind_eq_ok.mp ok
    obtain ⟨drained, further, ok⟩ := bind_eq_ok.mp ok
    cases ok
    rw [Pcb.tcpAck_eq]
    obtain ⟨-, state⟩ := drainOoseq_state further more
    rw [tcpUpdateRcvAnnWnd_eq_ok announced] at state
    exact state

theorem place_state {accepted : Accepted} (ok : pcb.place inseg memory = .ok accepted)
    (more : accepted.passed.gotFin = false) : accepted.pcb.state = pcb.state := by
  rw [Pcb.place] at ok
  split at ok
  next =>
    split at ok
    next =>
      obtain ⟨taken, done, ok⟩ := bind_eq_ok.mp ok
      cases ok
      exact inSequence_state done more
    next =>
      obtain ⟨queued, done, ok⟩ := bind_eq_ok.mp ok
      obtain ⟨ooseq, -, done⟩ := bind_eq_ok.mp done
      cases done
      cases ok
      rfl
  next =>
    cases ok
    rfl

/-- Only a FIN changes the state, and only if the peer had not closed its direction. -/
theorem receiveData_state {accepted : Accepted}
    (ok : pcb.receiveData inseg memory = .ok accepted) :
    (accepted.passed.gotFin → pcb.state.receives) ∧
      (accepted.passed.gotFin = false → accepted.pcb.state = pcb.state) := by
  rw [Pcb.receiveData] at ok
  split at ok
  next both =>
    refine ⟨fun _ => both.2, fun more => ?_⟩
    split at ok
    next =>
      obtain ⟨cut, -, ok⟩ := bind_eq_ok.mp ok
      exact place_state ok more
    next =>
      split at ok
      next =>
        have state := place_state ok more
        exact state
      next => exact place_state ok more
  next =>
    split at ok
    all_goals
      cases ok
      exact ⟨fun fin => absurd fin Bool.false_ne_true, fun _ => rfl⟩

theorem afterReceive_tells (pcb : Pcb) (found : TcpState) (gotFin allAcked : Bool) :
    pcb.Tells (pcb.afterReceive found gotFin allAcked) := by
  cases found
  all_goals cases gotFin
  all_goals cases allAcked
  all_goals first
    | exact ⟨.of_same rfl rfl (.inl rfl), rfl, .inl rfl⟩
    | exact ⟨.of_same rfl rfl (.inr rfl), rfl, .inl rfl⟩

/-- What is left of `tcp_process` after the data of a segment was taken. -/
theorem tcpProcess_tells (accepted : Accepted) (found : TcpState) (allAcked : Bool)
    (resources : Resources) :
    accepted.pcb.Tells ((if accepted.emptyAck then
        accepted.pcb.tcpSendEmptyAck resources.ackBuffer resources.ackSent
      else accepted.pcb).afterReceive found accepted.passed.gotFin allAcked) := by
  refine .trans ?_ (afterReceive_tells _ _ _ _)
  split
  next => exact (tcpSendEmptyAck_tells _ _ _).1
  next => exact .refl _

/-- The states that receive data are those before the end of the data. -/
theorem afterReceive_receives {found : TcpState} {gotFin eof : Bool} (allAcked : Bool)
    (opened : found.receives = !eof) (fresh : gotFin → found.receives)
    (same : gotFin = false → pcb.state = found) :
    (pcb.afterReceive found gotFin allAcked).state.receives = !(eof || gotFin) := by
  cases gotFin with
  | true =>
      rw [Bool.or_true]
      cases found
      all_goals first
        | exact absurd (fresh rfl) Bool.false_ne_true
        | (cases allAcked <;> rfl)
  | false =>
      rw [Bool.or_false, ← opened]
      have state := same rfl
      cases found
      all_goals cases allAcked
      all_goals simp [Pcb.afterReceive, state, TcpState.receives]

theorem Receiving.tcpProcess {base : UInt32} {feed : Feed UInt8} {limit taken position : Nat}
    {eof allAcked : Bool} {resources : Resources} {processed : Passed × Pcb}
    (receiving : Receiving base feed limit pcb taken eof)
    (opened : pcb.state.receives = !eof) (carries : inseg.Carries base feed position)
    (near : position ≤ taken + 1073741824 ∧ taken ≤ position + 1073741824)
    (within : position + inseg.size ≤ limit)
    (ok : pcb.tcpProcess inseg allAcked resources = .ok processed) :
    ∃ next, taken ≤ next ∧
      feed.items.take taken ++ processed.1.data.flatten = feed.items.take next ∧
      Receiving base feed limit processed.2 next (eof || processed.1.gotFin) ∧
      processed.2.state.receives = !(eof || processed.1.gotFin) ∧
      (eof = false → position ≤ taken →
        min (position + inseg.len.toNat) (taken + pcb.rcvWnd.toNat) ≤ next ∧
        (inseg.fin → position + inseg.size ≤ taken + pcb.rcvWnd.toNat →
          processed.1.gotFin)) := by
  obtain ⟨accepted, received, ok⟩ := bind_eq_ok.mp ok
  cases ok
  obtain ⟨next, more, data, -, receiving, least⟩ :=
    receiving.receiveData opened carries near within received
  obtain ⟨fresh, same⟩ := receiveData_state received
  refine ⟨next, more, data, ?_, ?_, least⟩
  · exact receiving.keeps (tcpProcess_tells accepted pcb.state allAcked resources).toKeeps
  · refine afterReceive_receives allAcked opened fresh fun notFin => ?_
    split
    next => exact (tcpSendEmptyAck_tells _ _ _).2.trans (same notFin)
    next => exact same notFin

end States

/-! ## Sessions -/

/-- A segment carries what the peer has written, and is not from long ago: less than 2^30
bytes were passed on since it was sent. -/
structure Arriving (base : UInt32) (feed : Feed UInt8) (session : Session) (inseg : Seg)
    (position : Nat) : Prop where
  carries : inseg.Carries base feed position
  ahead : position ≤ session.read.length + 1073741824
  behind : session.read.length ≤ position + 1073741824

/-- The application has got a first part of the feed. -/
structure Session.Sound (base : UInt32) (feed : Feed UInt8) (limit : Nat) (session : Session) :
    Prop where
  kept : session.read = feed.items.take session.read.length
  ends : session.eof → feed.closed ∧ session.read = feed.items
  receiving : session.endpoint.alive →
    Receiving base feed limit session.endpoint.pcb session.read.length session.eof
  opened : session.endpoint.alive → session.endpoint.pcb.state.receives = !session.eof

namespace Session

variable {base : UInt32} {feed : Feed UInt8} {limit limit' : Nat} {session later : Session}

theorem sound_established (irs : UInt32) (mss : UInt16) (passive : Bool) (feed : Feed UInt8)
    (limit : Nat) : (established irs mss passive).Sound (irs + 1) feed limit where
  kept := rfl
  ends := fun eof => absurd eof Bool.false_ne_true
  receiving := fun _ =>
    ⟨(number_zero _).symm, Nat.zero_le _, Nat.le_refl _, .nil _,
      fun eof => absurd eof Bool.false_ne_true⟩
  opened := fun _ => rfl

theorem Sound.mono (sound : session.Sound base feed limit) (limits : limit ≤ limit') :
    session.Sound base feed limit' :=
  { sound with receiving := fun alive => (sound.receiving alive).mono limits }

/-- Nothing is passed on. -/
theorem Sound.silent (sound : session.Sound base feed limit) {endpoint : Endpoint}
    (kept : endpoint.alive → session.endpoint.pcb.Keeps endpoint.pcb ∧
      endpoint.pcb.state.receives = session.endpoint.pcb.state.receives)
    (alive : session.endpoint.alive) :
    (session.after (.nothing, endpoint)).Sound base feed limit := by
  rw [after_nothing]
  exact
    { sound with
      receiving := fun still => (sound.receiving alive).keeps (kept still).1
      opened := fun still => (kept still).2.trans (sound.opened alive) }

/-- What a segment brings is passed on.  If it begins with what is next or before, all of it
that the window has room for is taken, unless the application has closed the connection. -/
theorem Sound.input (sound : session.Sound base feed limit) {inseg : Seg} {position : Nat}
    (arriving : Arriving base feed session inseg position)
    (within : position + inseg.size ≤ limit) {allAcked : Bool} {resources : Resources}
    (alive : session.endpoint.alive)
    (ok : session.step (.input inseg allAcked resources) = .ok later) :
    later.Sound base feed limit ∧
      (session.endpoint.rxClosed = false → session.eof = false → position ≤ session.read.length →
        min (position + inseg.len.toNat)
            (session.read.length + session.endpoint.pcb.rcvWnd.toNat) ≤ later.read.length ∧
          (inseg.fin →
            position + inseg.size ≤ session.read.length + session.endpoint.pcb.rcvWnd.toNat →
            later.eof)) := by
  have opened := sound.opened alive
  -- in these states the end has been passed on
  have ended : session.endpoint.pcb.state.receives = false → session.eof = false → False := by
    intro closed more
    rw [closed, more] at opened
    exact Bool.false_ne_true opened
  obtain ⟨stepped, done, rfl⟩ := (step_eq_ok alive).mp ok
  change session.endpoint.tcpInput inseg allAcked resources = _ at done
  rw [Endpoint.tcpInput] at done
  split at done
  next waiting =>
    cases done
    obtain ⟨tells, state⟩ := tcpTimewaitInput_tells session.endpoint.pcb inseg
    refine ⟨sound.silent (fun _ => ⟨tells.toKeeps, congrArg _ state⟩) alive, fun _ more => ?_⟩
    exact absurd more (ended (waiting ▸ rfl))
  next =>
    obtain ⟨processed, processes, done⟩ := bind_eq_ok.mp done
    split at done
    next last =>
      cases done
      refine ⟨sound.silent (fun still => absurd still Bool.false_ne_true) alive, fun _ more => ?_⟩
      exact absurd more (ended (last.1 ▸ rfl))
    next =>
      split at done
      next lost =>
        cases done
        refine ⟨sound.silent (fun still => absurd still Bool.false_ne_true) alive, fun taking => ?_⟩
        rw [taking] at lost
        exact absurd lost.2 Bool.false_ne_true
      next =>
        cases done
        obtain ⟨next, -, data, receiving, state, least⟩ := (sound.receiving alive).tcpProcess
          opened arriving.carries ⟨arriving.ahead, arriving.behind⟩ within processes
        rw [← sound.kept] at data
        have length : (session.read ++ processed.1.data.flatten).length = next := by
          rw [data, List.length_take, Nat.min_eq_left receiving.inside]
        rw [after]
        refine ⟨⟨?_, fun eof => ?_, fun _ => ?_, fun _ => ?_⟩, fun _ more first => ?_⟩
        · rw [length, data]
        · obtain ⟨closed, total, -⟩ := receiving.ends eof
          exact ⟨closed, by rw [data, total, List.take_length]⟩
        · rw [length]
          dsimp only
          split
          next => exact receiving.keeps (correctRcvWnd_tells _).1.toKeeps
          next => exact receiving
        · dsimp only
          split
          next => exact (congrArg _ (correctRcvWnd_tells _).2).trans state
          next => exact state
        · obtain ⟨least, fin⟩ := least more first
          rw [length]
          exact ⟨least, fun ends fits => Bool.or_eq_true_iff.mpr (.inr (fin ends fits))⟩

/-- An event. -/
theorem Sound.step (sound : session.Sound base feed limit) {event : Event}
    (arrives : ∀ inseg allAcked resources, event = .input inseg allAcked resources →
      ∃ position, Arriving base feed session inseg position ∧ position + inseg.size ≤ limit)
    (ok : session.step event = .ok later) : later.Sound base feed limit := by
  by_cases alive : session.endpoint.alive
  · cases event with
    | input inseg allAcked resources =>
        obtain ⟨position, arriving, within⟩ := arrives inseg allAcked resources rfl
        exact (sound.input arriving within alive ok).1
    | recved len =>
        obtain ⟨stepped, done, rfl⟩ := (step_eq_ok alive).mp ok
        obtain ⟨pcb, recved, done⟩ := bind_eq_ok.mp done
        cases done
        obtain ⟨keeps, state⟩ := tcpRecved_keeps recved
        exact sound.silent (fun _ => ⟨keeps, congrArg _ state⟩) alive
    | outputSegment sent =>
        obtain ⟨_, ⟨⟩, rfl⟩ := (step_eq_ok alive).mp ok
        obtain ⟨tells, state⟩ := tcpOutputSegment_tells session.endpoint.pcb sent
        exact sound.silent (fun _ => ⟨tells.toKeeps, congrArg _ state⟩) alive
    | sendEmptyAck allocated sent =>
        obtain ⟨_, ⟨⟩, rfl⟩ := (step_eq_ok alive).mp ok
        obtain ⟨tells, state⟩ := tcpSendEmptyAck_tells session.endpoint.pcb allocated sent
        exact sound.silent (fun _ => ⟨tells.toKeeps, congrArg _ state⟩) alive
    | freeOoseq =>
        obtain ⟨_, ⟨⟩, rfl⟩ := (step_eq_ok alive).mp ok
        obtain ⟨tells, state⟩ := tcpFreeOoseq_tells session.endpoint.pcb
        exact sound.silent (fun _ => ⟨tells.toKeeps, congrArg _ state⟩) alive
    | close queued =>
        obtain ⟨_, ⟨⟩, rfl⟩ := (step_eq_ok alive).mp ok
        refine sound.silent (fun still => ?_) alive
        obtain ⟨tells, state⟩ := tcpClose_tells still
        exact ⟨tells.toKeeps, state⟩
    | closeShutdownFin queued =>
        obtain ⟨_, ⟨⟩, rfl⟩ := (step_eq_ok alive).mp ok
        obtain ⟨tells, state⟩ := tcpCloseShutdownFin_tells session.endpoint.pcb queued
        exact sound.silent (fun _ => ⟨tells.toKeeps, state⟩) alive
    | remove =>
        obtain ⟨_, ⟨⟩, rfl⟩ := (step_eq_ok alive).mp ok
        exact sound.silent (fun still => absurd still Bool.false_ne_true) alive
  · rw [Session.step, if_neg alive] at ok
    cases ok
    exact sound

end Session

/-- The segments that arrive carry what the peer has written. -/
def Arrives (base : UInt32) (feed : Feed UInt8) : Except Halt Session → Event → Prop
  | .ok session, .input inseg _ _ => ∃ position, Arriving base feed session inseg position
  | _, _ => True

theorem Session.Sound.arrives {base : UInt32} {feed : Feed UInt8} {reached : Except Halt Session}
    {event : Event} (sound : Holds (fun session => ∃ limit, session.Sound base feed limit) reached)
    (arrives : Arrives base feed reached event) :
    Holds (fun session => ∃ limit, session.Sound base feed limit)
      (transport.next reached event) := by
  intro later ok
  cases reached with
  | error halt => cases ok
  | ok session =>
      obtain ⟨limit, sound⟩ := sound session rfl
      cases event with
      | input inseg allAcked resources =>
          obtain ⟨position, arriving⟩ := arrives
          refine ⟨_, (sound.mono (Nat.le_max_left limit (position + inseg.size))).step ?_ ok⟩
          intro _ _ _ same
          obtain ⟨rfl, -, -⟩ := Event.input.inj same
          exact ⟨position, arriving, Nat.le_max_right _ _⟩
      | _ => exact ⟨limit, sound.step (fun _ _ _ same => by cases same) ok⟩

/-- The application gets what the peer has written, in order and once, and is told the end
after all of it.  Segments may be lost, come in any order, more than once and cut in any way. -/
theorem received_in_order {irs : UInt32} {mss : UInt16} {passive : Bool} {feed : Feed UInt8}
    {events : List Event} {session : Session}
    (arrives : transport.Along (Arrives (irs + 1) feed) (.ok (.established irs mss passive)) events)
    (reached : transport.run (.ok (.established irs mss passive)) events = .ok session) :
    session.read <+: feed.items ∧ (session.eof → feed.closed ∧ session.read = feed.items) := by
  have initial : Holds (fun session => ∃ limit, session.Sound (irs + 1) feed limit)
      (.ok (.established irs mss passive) : Except Halt Session) :=
    holds_ok.mpr ⟨0, Session.sound_established irs mss passive feed 0⟩
  obtain ⟨limit, sound⟩ :=
    transport.run_invariant (fun _ _ => Session.Sound.arrives) initial arrives session reached
  rw [sound.kept]
  exact ⟨List.take_prefix _ _, fun eof => by rw [← sound.kept]; exact sound.ends eof⟩

/-- Three bytes. -/
def shortFeed : Feed UInt8 := { items := [104, 105, 33], closed := true }

/-- The three bytes in two segments that come in the wrong order, while the numbers wrap. -/
def swapped : List Event :=
  [.input { seqno := 0, len := 1, p := [[33]], fin := true } false ⟨true, true, true⟩,
    .input { seqno := 0xfffffffe, len := 2, p := [[104], [105]], fin := false } false
      ⟨true, true, true⟩]

theorem swapped_second (session : Session) (few : session.read.length ≤ 1073741824) :
    Arriving 0xfffffffe shortFeed session { seqno := 0, len := 1, p := [[33]], fin := true } 2 where
  carries := ⟨rfl, rfl, by decide, [104, 105], [], rfl, rfl, fun _ => ⟨rfl, rfl⟩⟩
  ahead := Nat.le_add_left_of_le (by decide)
  behind := few.trans (by decide)

theorem swapped_first (session : Session) (few : session.read.length ≤ 1073741824) :
    Arriving 0xfffffffe shortFeed session
      { seqno := 0xfffffffe, len := 2, p := [[104], [105]], fin := false } 0 where
  carries := ⟨rfl, rfl, by decide, [], [33], rfl, rfl, fun fin => absurd fin Bool.false_ne_true⟩
  ahead := Nat.zero_le _
  behind := few.trans (by decide)

theorem received_in_order_swapped :
    ∃ session, transport.run (.ok (.established 0xfffffffd 1460 true)) swapped = .ok session ∧
      session.eof = true ∧ session.read <+: shortFeed.items ∧
        (session.eof → shortFeed.closed ∧ session.read = shortFeed.items) := by
  have arrives : transport.Along (Arrives (0xfffffffd + 1) shortFeed)
      (.ok (.established 0xfffffffd 1460 true)) swapped :=
    ⟨⟨2, swapped_second _ (by decide)⟩, ⟨0, swapped_first _ (by decide)⟩, trivial⟩
  have whole (session : Session)
      (reached : transport.run (.ok (.established 0xfffffffd 1460 true)) swapped = .ok session) :=
    received_in_order arrives reached
  exact ⟨_, rfl, rfl, whole _ rfl⟩

end AppPortKit.Transport
