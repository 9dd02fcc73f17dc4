import AppPortKit.Net.Ownership

/-!
# Connections waiting to be accepted

A connection that `on_accept` takes gets a slot and waits in the queue of its listening
socket until `accept` hands it to the application.  As long as the application passes only
descriptors it holds, a slot in use is held or waits, and never both.
-/

namespace AppPortKit.Net

/-- The indices of a queue fit together. -/
structure Bsock.Ring (s : Bsock) : Prop where
  count : s.acceptqCount ≤ 8
  tail : s.acceptqTail = s.acceptqHead + Fin.ofNat 8 s.acceptqCount

/-- Two sockets with the same queue. -/
structure Bsock.SameRing (s s' : Bsock) : Prop where
  acceptq : s'.acceptq = s.acceptq
  acceptqHead : s'.acceptqHead = s.acceptqHead
  acceptqTail : s'.acceptqTail = s.acceptqTail
  acceptqCount : s'.acceptqCount = s.acceptqCount

namespace Bsock

variable {s s' : Bsock}

theorem SameRing.refl (s : Bsock) : s.SameRing s := ⟨rfl, rfl, rfl, rfl⟩

theorem Control.sameRing (control : s.Control s') : s.SameRing s' :=
  ⟨control.acceptq, control.acceptqHead, control.acceptqTail, control.acceptqCount⟩

theorem SameRing.pending (same : s.SameRing s') : s'.pending = s.pending := by
  rw [Bsock.pending, Bsock.pending, same.acceptq, same.acceptqHead, same.acceptqCount]

theorem SameRing.ring (same : s.SameRing s') (ring : s.Ring) : s'.Ring := by
  refine ⟨?_, ?_⟩
  · rw [same.acceptqCount]
    exact ring.count
  · rw [same.acceptqTail, same.acceptqHead, same.acceptqCount]
    exact ring.tail

theorem ring_zero : zero.Ring := ⟨Nat.zero_le 8, rfl⟩

theorem ring_enqueue (ring : s.Ring) (room : s.acceptqCount < 8) (k : Fin 16) :
    (s.enqueue k).Ring := by
  refine ⟨room, ?_⟩
  simp only [enqueue, ring.tail]
  apply Fin.ext
  simp [Fin.val_add, Nat.add_assoc]

theorem pending_enqueue (ring : s.Ring) (room : s.acceptqCount < 8) (k : Fin 16) :
    (s.enqueue k).pending = s.pending ++ [k] := by
  rw [Bsock.pending, enqueue, ring.tail]
  exact Ring.contents_push s.acceptq s.acceptqHead room k

theorem ring_dequeue (ring : s.Ring) (pending : s.acceptqCount ≠ 0) : s.dequeue.Ring := by
  refine ⟨Nat.le_trans (Nat.sub_le _ _) ring.count, ?_⟩
  obtain ⟨count, one⟩ := Nat.exists_eq_succ_of_ne_zero pending
  simp only [dequeue, ring.tail, one]
  apply Fin.ext
  simp [Fin.val_add, Nat.add_assoc, Nat.add_comm 1]

theorem pending_dequeue (pending : s.acceptqCount ≠ 0) :
    s.pending = s.acceptq s.acceptqHead :: s.dequeue.pending := by
  obtain ⟨count, one⟩ := Nat.exists_eq_succ_of_ne_zero pending
  simp only [Bsock.pending, dequeue, one]
  exact Ring.contents_pop s.acceptq s.acceptqHead count

end Bsock

namespace State

variable (n : State) (l slot j : Fin 16)

theorem state_handOut : ((n.handOut l slot).socks j).state = (n.socks j).state := by
  by_cases here : j = l
  · simp [handOut, here, Bsock.dequeue]
  · simp [handOut, here]

theorem socks_handOut_self : (n.handOut l slot).socks l = (n.socks l).dequeue := by
  simp [handOut]

theorem held_handOut :
    ((n.handOut l slot).history j).held = if j = slot then true else (n.history j).held := by
  by_cases isSlot : j = slot
  · simp [handOut, isSlot]
  · by_cases here : j = l
    · subst here
      simp [handOut, isSlot]
    · simp [handOut, isSlot, here]

theorem accepted_handOut :
    ((n.handOut l slot).history j).accepted =
      if j = l then (n.history j).accepted ++ [slot] else (n.history j).accepted := by
  by_cases here : j = l
  · subst here
    by_cases isSlot : slot = j
    · simp [handOut, isSlot]
    · simp [handOut, Ne.symm isSlot]
  · by_cases isSlot : j = slot
    · subst isSlot
      simp [handOut, here]
    · simp [handOut, isSlot, here]

theorem offered_handOut :
    ((n.handOut l slot).history j).offered = (n.history j).offered := by
  by_cases isSlot : j = slot
  · subst isSlot
    by_cases here : j = l
    · simp [handOut, here]
    · simp [handOut, here]
  · by_cases here : j = l
    · subst here
      simp [handOut, isSlot]
    · simp [handOut, isSlot, here]

variable {j l}

theorem socks_handOut_of_ne (different : j ≠ l) : (n.handOut l slot).socks j = n.socks j := by
  simp [handOut, different]

end State

/-- A slot waits in the queue of a socket in use. -/
def State.Waits (n : State) (l k : Fin 16) : Prop :=
  (n.socks l).state ≠ .free ∧ k ∈ (n.socks l).pending

structure Queued (n : State) : Prop where
  ring : ∀ l, (n.socks l).Ring
  fifo : ∀ l, (n.history l).offered = (n.history l).accepted ++ (n.socks l).pending
  idle : ∀ l, (n.socks l).state ≠ .free → (n.socks l).state ≠ .listening →
    (n.socks l).acceptqCount = 0
  nodup : ∀ l, (n.socks l).state ≠ .free → (n.socks l).pending.Nodup
  apart : ∀ l l' k, n.Waits l k → n.Waits l' k → l = l'
  waits : ∀ l k, n.Waits l k →
    (n.socks k).state ≠ .free ∧ (n.socks k).state ≠ .closed ∧ (n.history k).held = false
  held : ∀ k, (n.history k).held = true → (n.socks k).state ≠ .free

namespace Queued

variable {s : Shim} {n n' : State} {k l : Fin 16}

theorem boot : Queued .boot := by
  constructor <;>
    simp [State.boot, Bsock.zero, Bsock.pending, History.none, State.Waits]
  exact Bsock.ring_zero

/-- No queue and no part of the history changes, and no slot is taken or given back. -/
theorem agree (queued : Queued n) (ring : ∀ l, (n.socks l).SameRing (n'.socks l))
    (history : ∀ l, (n.history l).Control (n'.history l))
    (free : ∀ l, (n'.socks l).state = .free ↔ (n.socks l).state = .free)
    (idle : ∀ l, (n'.socks l).state ≠ .free → (n'.socks l).state ≠ .listening →
      (n.socks l).acceptqCount = 0)
    (closed : ∀ l, (n'.socks l).state = .closed → (n.socks l).state = .closed) :
    Queued n' := by
  have waits : ∀ l k, n'.Waits l k → n.Waits l k := by
    intro l k member
    rw [State.Waits, (ring l).pending, ne_eq, free] at member
    exact member
  constructor
  · exact fun l => (ring l).ring (queued.ring l)
  · intro l
    rw [(history l).offered, (history l).accepted, (ring l).pending]
    exact queued.fifo l
  · intro l used notListening
    rw [(ring l).acceptqCount]
    exact idle l used notListening
  · intro l used
    rw [(ring l).pending]
    exact queued.nodup l (mt (free l).mpr used)
  · exact fun l l' k first second => queued.apart l l' k (waits l k first) (waits l' k second)
  · intro l k member
    obtain ⟨used, notClosed, notHeld⟩ := queued.waits l k (waits l k member)
    exact ⟨mt (free k).mp used, mt (closed k) notClosed, (history k).held.trans notHeld⟩
  · intro k held
    rw [(history k).held] at held
    exact mt (free k).mp (queued.held k held)

/-- A socket in use changes its state. -/
theorem restate (queued : Queued n) (k : Fin 16)
    (others : ∀ j ≠ k, n'.socks j = n.socks j) (ring : (n.socks k).SameRing (n'.socks k))
    (history : n'.history = n.history) (used : (n.socks k).state ≠ .free)
    (used' : (n'.socks k).state ≠ .free) (notClosed : (n'.socks k).state ≠ .closed)
    (idle : (n'.socks k).state ≠ .listening → (n.socks k).acceptqCount = 0) : Queued n' := by
  refine queued.agree (fun l => ?_) (fun l => history ▸ .refl _) (fun l => ?_)
    (fun l inUse notListening => ?_) (fun l isClosed => ?_)
  · by_cases here : l = k
    · exact here ▸ ring
    · rw [others l here]
      exact .refl _
  · by_cases here : l = k
    · simp [here, used, used']
    · rw [others l here]
  · by_cases here : l = k
    · subst here
      exact idle notListening
    · rw [others l here] at inUse notListening
      exact queued.idle l inUse notListening
  · by_cases here : l = k
    · exact absurd (here ▸ isClosed) notClosed
    · rwa [others l here] at isClosed

/-- A free slot is taken. -/
theorem fill (queued : Queued n) (free : (n.socks k).state = .free)
    (others : ∀ j ≠ k, n'.socks j = n.socks j) (zero : Bsock.zero.SameRing (n'.socks k))
    (histories : ∀ j ≠ k, n'.history j = n.history j) (offered : (n'.history k).offered = [])
    (accepted : (n'.history k).accepted = [])
    (held : (n'.history k).held = true → (n'.socks k).state ≠ .free) : Queued n' := by
  have empty : (n'.socks k).pending = [] := zero.pending
  have waits : ∀ l j, n'.Waits l j → l ≠ k ∧ j ≠ k ∧ n.Waits l j := by
    rintro l j ⟨used, member⟩
    have notEmpty : l ≠ k := by
      rintro rfl
      rw [empty] at member
      exact absurd member List.not_mem_nil
    rw [others l notEmpty] at used member
    refine ⟨notEmpty, ?_, used, member⟩
    rintro rfl
    exact (queued.waits l j ⟨used, member⟩).1 free
  constructor
  · intro l
    by_cases here : l = k
    · exact here ▸ zero.ring Bsock.ring_zero
    · rw [others l here]
      exact queued.ring l
  · intro l
    by_cases here : l = k
    · rw [here, offered, accepted, empty, List.append_nil]
    · rw [others l here, histories l here]
      exact queued.fifo l
  · intro l
    by_cases here : l = k
    · exact fun _ _ => here ▸ zero.acceptqCount
    · rw [others l here]
      exact queued.idle l
  · intro l
    by_cases here : l = k
    · rw [here, empty]
      exact fun _ => List.nodup_nil
    · rw [others l here]
      exact queued.nodup l
  · exact fun l l' j first second =>
      queued.apart l l' j (waits l j first).2.2 (waits l' j second).2.2
  · intro l j member
    obtain ⟨_, different, before⟩ := waits l j member
    rw [others j different, histories j different]
    exact queued.waits l j before
  · intro j
    by_cases here : j = k
    · exact here ▸ held
    · rw [others j here, histories j here]
      exact queued.held j

/-- A slot in use that nobody has yet goes to the end of a queue. -/
theorem push (queued : Queued n) (apart : l ≠ k) (listening : (n.socks l).state = .listening)
    (room : (n.socks l).acceptqCount < 8) (used : (n.socks k).state = .connected)
    (notHeld : (n.history k).held = false) (nowhere : ∀ j, ¬n.Waits j k) :
    Queued ((n.setSock l ((n.socks l).enqueue k)).setHistory l
      { n.history l with offered := (n.history l).offered ++ [k] }) := by
  have inUse : (n.socks l).state ≠ .free := by simp [listening]
  have pending := Bsock.pending_enqueue (queued.ring l) room k
  have waits : ∀ j i, ((n.setSock l ((n.socks l).enqueue k)).setHistory l
      { n.history l with offered := (n.history l).offered ++ [k] }).Waits j i →
      n.Waits j i ∨ j = l ∧ i = k := by
    rintro j i ⟨usedNow, member⟩
    by_cases here : j = l
    · subst here
      rw [State.socks_setHistory, State.socks_setSock, Function.update_self, pending,
        List.mem_append, List.mem_singleton] at member
      exact member.imp (fun before => ⟨inUse, before⟩) fun new => ⟨rfl, new⟩
    · left
      simpa [State.Waits, here] using And.intro usedNow member
  constructor
  · intro j
    by_cases here : j = l
    · subst here
      simpa using Bsock.ring_enqueue (queued.ring j) room k
    · simpa [here] using queued.ring j
  · intro j
    by_cases here : j = l
    · subst here
      simp [pending, queued.fifo j]
    · simpa [here] using queued.fifo j
  · intro j
    by_cases here : j = l
    · subst here
      simp [Bsock.enqueue, listening]
    · simpa [here] using queued.idle j
  · intro j
    by_cases here : j = l
    · subst here
      have fresh : k ∉ (n.socks j).pending := fun member => nowhere j ⟨inUse, member⟩
      simpa [pending, List.nodup_append, fresh] using
        fun _ => ⟨queued.nodup j inUse, fun i member same => fresh (same ▸ member)⟩
    · simpa [here] using queued.nodup j
  · intro j j' i first second
    rcases waits j i first with before | ⟨rfl, rfl⟩
    · rcases waits j' i second with before' | ⟨rfl, rfl⟩
      · exact queued.apart j j' i before before'
      · exact absurd before (nowhere j)
    · rcases waits j' i second with before' | ⟨rfl, _⟩
      · exact absurd before' (nowhere j')
      · rfl
  · intro j i member
    have edited : ∀ i, (Function.update n.socks l ((n.socks l).enqueue k) i).state =
        (n.socks i).state := by
      intro i
      by_cases here : i = l
      · simp [here, Bsock.enqueue]
      · simp [here]
    have sameHeld : ∀ i, (Function.update n.history l { n.history l with
        offered := (n.history l).offered ++ [k] } i).held = (n.history i).held := by
      intro i
      by_cases here : i = l
      · simp [here]
      · simp [here]
    simp only [State.socks_setHistory, State.socks_setSock, State.history_setHistory,
      State.history_setSock, edited, sameHeld]
    rcases waits j i member with before | ⟨_, rfl⟩
    · exact queued.waits j i before
    · rw [used]
      exact ⟨nofun, nofun, notHeld⟩
  · intro i
    by_cases here : i = l
    · simp [here, Bsock.enqueue, listening]
    · simpa [here] using queued.held i

/-- The first slot of a queue goes to the application. -/
theorem pop (queued : Queued n) (held : (n.history l).held = true)
    (pending : (n.socks l).acceptqCount ≠ 0) :
    Queued (n.handOut l ((n.socks l).acceptq (n.socks l).acceptqHead)) := by
  generalize first : (n.socks l).acceptq (n.socks l).acceptqHead = slot
  have used := queued.held l held
  have split : (n.socks l).pending = slot :: (n.socks l).dequeue.pending :=
    first ▸ Bsock.pending_dequeue pending
  have waiting : n.Waits l slot := ⟨used, by simp [split]⟩
  obtain ⟨slotUsed, _⟩ := queued.waits l slot waiting
  have notAgain : slot ∉ (n.socks l).dequeue.pending := by
    have nodup := queued.nodup l used
    rw [split] at nodup
    exact (List.nodup_cons.mp nodup).1
  have waits : ∀ j i, (n.handOut l slot).Waits j i → n.Waits j i ∧ i ≠ slot := by
    rintro j i ⟨inUse, member⟩
    rw [n.state_handOut] at inUse
    by_cases here : j = l
    · subst here
      rw [n.socks_handOut_self] at member
      refine ⟨⟨inUse, ?_⟩, fun same => notAgain (same ▸ member)⟩
      rw [split]
      exact List.mem_cons_of_mem _ member
    · rw [n.socks_handOut_of_ne slot here] at member
      refine ⟨⟨inUse, member⟩, ?_⟩
      rintro rfl
      exact here (queued.apart j l i ⟨inUse, member⟩ waiting)
  constructor
  · intro j
    by_cases here : j = l
    · subst here
      rw [n.socks_handOut_self]
      exact Bsock.ring_dequeue (queued.ring j) pending
    · rw [n.socks_handOut_of_ne slot here]
      exact queued.ring j
  · intro j
    have before := queued.fifo j
    rw [n.accepted_handOut, n.offered_handOut]
    by_cases here : j = l
    · subst here
      rw [split] at before
      rw [if_pos rfl, n.socks_handOut_self, before, List.append_assoc]
      rfl
    · rw [if_neg here, n.socks_handOut_of_ne slot here, ← before]
  · intro j
    rw [n.state_handOut]
    intro inUse notListening
    have before := queued.idle j inUse notListening
    by_cases here : j = l
    · subst here
      exact absurd before pending
    · rwa [n.socks_handOut_of_ne slot here]
  · intro j
    rw [n.state_handOut]
    intro inUse
    have before := queued.nodup j inUse
    by_cases here : j = l
    · subst here
      rw [split] at before
      rw [n.socks_handOut_self]
      exact (List.nodup_cons.mp before).2
    · rwa [n.socks_handOut_of_ne slot here]
  · exact fun j j' i one two => queued.apart j j' i (waits j i one).1 (waits j' i two).1
  · intro j i member
    obtain ⟨before, different⟩ := waits j i member
    rw [n.state_handOut, n.held_handOut, if_neg different]
    exact queued.waits j i before
  · intro i
    rw [n.state_handOut, n.held_handOut]
    split
    next isSlot => exact fun _ => isSlot ▸ slotUsed
    · exact queued.held i

/-- A socket the application holds is given back. -/
theorem close {sock : Bsock} {tcp : Tcp} {pbufs : Pbufs} (queued : Queued n)
    (held : (n.history k).held = true) (ring : (n.socks k).SameRing sock)
    (free : sock.state = .free) :
    Queued (({ n with tcp, pbufs }.setSock k sock).setHistory k
      { n.history k with held := false }) := by
  have waits : ∀ j i, (({ n with tcp, pbufs }.setSock k sock).setHistory k
      { n.history k with held := false }).Waits j i → j ≠ k ∧ i ≠ k ∧ n.Waits j i := by
    rintro j i ⟨inUse, member⟩
    have different : j ≠ k := by
      rintro rfl
      simp [free] at inUse
    have before : n.Waits j i := by
      simpa [State.Waits, different] using And.intro inUse member
    refine ⟨different, ?_, before⟩
    rintro rfl
    exact absurd ((queued.waits j i before).2.2.symm.trans held) nofun
  constructor
  · intro j
    by_cases here : j = k
    · subst here
      simpa using ring.ring (queued.ring j)
    · simpa [here] using queued.ring j
  · intro j
    by_cases here : j = k
    · subst here
      simpa [ring.pending] using queued.fifo j
    · simpa [here] using queued.fifo j
  · intro j
    by_cases here : j = k
    · simp [here, free]
    · simpa [here] using queued.idle j
  · intro j
    by_cases here : j = k
    · simp [here, free]
    · simpa [here] using queued.nodup j
  · exact fun j j' i one two => queued.apart j j' i (waits j i one).2.2 (waits j' i two).2.2
  · intro j i member
    obtain ⟨_, different, before⟩ := waits j i member
    simpa [different] using queued.waits j i before
  · intro i
    by_cases here : i = k
    · simp [here]
    · simpa [here] using queued.held i

/-- Every step keeps the queues in order, if calls are made on sockets that are held. -/
theorem step {input : Input} (queued : Queued s.net) (owned : Owned s.net)
    (held : ∀ k, s.Uses k input → (s.net.history k).held = true)
    (effect : Effect s input n') : Queued n' := by
  cases effect with
  | quiet =>
      exact queued.agree (fun _ => .refl _) (fun _ => .refl _) (fun _ => .rfl) queued.idle
        fun _ => id
  | data control =>
      refine queued.agree (fun l => (control.socks l).sameRing) control.history (fun l => ?_)
        (fun l => ?_) (fun l => ?_)
      · rw [(control.socks l).state]
      · rw [(control.socks l).state]
        exact queued.idle l
      · rw [(control.socks l).state]
        exact id
  | @reset k _ free =>
      refine queued.fill free (fun j different => ?_) ?_ (fun j different => ?_) ?_ ?_ ?_
      all_goals simp_all [State.resetSock, History.none]
      exact .refl _
  | @socket k _ free =>
      refine queued.fill free (fun j different => ?_) ?_ (fun j different => ?_) ?_ ?_ ?_
      all_goals simp_all [History.none]
      exact ⟨rfl, rfl, rfl, rfl⟩
  | @listen k p b listener uses pcb stored closed listens =>
      refine queued.restate k (fun j different => by simp [different])
        (by simpa using ⟨rfl, rfl, rfl, rfl⟩) rfl (queued.held k (held k uses)) (by simp) (by simp)
        (by simp)
  | @accept k accepts pending => exact queued.pop (held k accepts.uses) pending
  | @connect k p b b' state uses pcb stored connection serves _ outcome =>
      have used := queued.held k (held k uses)
      have fits := ((owned.slots k).owns p b used pcb stored).2
      have idle := queued.idle k used (mt fits.listen_iff.mpr connection)
      refine queued.restate k (fun j different => by simp [different])
        (by simpa using ⟨rfl, rfl, rfl, rfl⟩) rfl used ?_ ?_ fun _ => idle
      · rcases outcome with ⟨_, _, _, rfl⟩ | ⟨_, _, rfl⟩ <;> simp
      · rcases outcome with ⟨_, _, _, rfl⟩ | ⟨_, _, rfl⟩ <;> simp
  | @unconnected k uses pcb =>
      have used := queued.held k (held k uses)
      have error := (owned.slots k).null used pcb
      exact queued.restate k (fun j different => by simp [different])
        (by simpa using ⟨rfl, rfl, rfl, rfl⟩) rfl used (by simp) (by simp)
        fun _ => queued.idle k used (by simp [error])
  | @close k tcp pbufs closes =>
      exact queued.close (held k closes.uses) ⟨rfl, rfl, rfl, rfl⟩ rfl
  | silent =>
      exact queued.agree (fun _ => .refl _) (fun _ => .refl _) (fun _ => .rfl) queued.idle
        fun _ => id
  | @lost p b k _ stored errf arg =>
      obtain ⟨used, _, fits⟩ := owned.owner stored (.inr (.inl errf)) arg
      have notListening : (s.net.socks k).state ≠ .listening := by
        intro listening
        exact absurd (errf.symm.trans (fits.errf_iff.mpr (.inr listening))) (by simp)
      exact queued.restate k (fun j different => by simp [different])
        (by simpa using ⟨rfl, rfl, rfl, rfl⟩) rfl used (by simp) (by simp)
        fun _ => queued.idle k used notListening
  | @established p b stored synSent noCallback =>
      have callback := (owned.pcbs p b stored).connected synSent
      exact absurd (noCallback.symm.trans callback) (by simp)
  | @connected p b k stored synSent callback arg =>
      obtain ⟨used, _, fits⟩ :=
        owned.owner stored (.inr (.inr (.inr ⟨synSent, callback⟩))) arg
      have notListening := mt fits.listen_iff.mpr (by simp [synSent])
      exact queued.restate k (fun j different => by simp [different])
        (by simpa using ⟨rfl, rfl, rfl, rfl⟩) rfl used (by simp) (by simp)
        fun _ => queued.idle k used notListening
  | @offered q b new l k taken stored listening accept arg room free state serves isTaken =>
      obtain ⟨_, _, fits⟩ := owned.owner stored (.inr (.inr (.inl ⟨listening, accept⟩))) arg
      obtain ⟨_, apart⟩ := owned.listener stored listening accept arg free
      have filled : Queued taken := by
        subst isTaken
        refine queued.fill free (fun j different => ?_) ?_ (fun j different => ?_) ?_ ?_ ?_
        all_goals simp_all [State.resetSock, History.none]
        exact ⟨rfl, rfl, rfl, rfl⟩
      have listener : taken.socks l = s.net.socks l := by simp [isTaken, State.resetSock, apart]
      have slot : taken.socks k = acceptedSock s.net.tcp.fresh := by simp [isTaken]
      refine filled.push apart ?_ ?_ ?_ ?_ fun j waiting => ?_
      · rw [listener]
        exact fits.listen_iff.mp listening
      · rw [listener]
        exact room
      · rw [slot]
        rfl
      · simp [isTaken, State.resetSock, History.none]
      · obtain ⟨inUse, member⟩ := waiting
        by_cases here : j = k
        · rw [here, slot] at member
          exact List.not_mem_nil member
        · have same : taken.socks j = s.net.socks j := by simp [isTaken, State.resetSock, here]
          rw [same] at inUse member
          exact (queued.waits j k ⟨inUse, member⟩).1 free

end Queued

end AppPortKit.Net
