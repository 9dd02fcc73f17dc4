import AppPortKit.Net.Discipline

/-!
# Accepting connections

Connections are handed out once and in order, and no slot is lost.  Handing one out with
the address of its peer is not safe: the connection may have been reset while it waited,
and its control block is then gone.
-/

namespace AppPortKit.Net

open Fallible

/-! ## No slot is lost -/

/-- Every slot in use is held or waits. -/
def State.Complete (n : State) : Prop :=
  ∀ k, (n.socks k).state ≠ .free → (n.history k).held = true ∨ ∃ l, n.Waits l k

/-- No socket is closed while connections wait for it. -/
def Shim.KeepsQueues (s : Shim) (input : Input) : Prop :=
  ∀ k, input.Closes k → (s.net.socks k).acceptqCount = 0

namespace State.Complete

variable {s : Shim} {n n' : State} {k l : Fin 16}

theorem boot : State.boot.Complete := fun _ used => absurd rfl used

theorem agree (complete : n.Complete)
    (free : ∀ l, (n'.socks l).state = .free ↔ (n.socks l).state = .free)
    (pending : ∀ l, (n'.socks l).pending = (n.socks l).pending)
    (held : ∀ l, (n'.history l).held = (n.history l).held) : n'.Complete := by
  intro k used
  rw [held]
  refine (complete k (mt (free k).mpr used)).imp_right ?_
  rintro ⟨l, inUse, member⟩
  exact ⟨l, mt (free l).mp inUse, pending l ▸ member⟩

theorem restate (complete : n.Complete) (k : Fin 16) {sock : Bsock}
    (socks : n'.socks = Function.update n.socks k sock) (history : n'.history = n.history)
    (used : (n.socks k).state ≠ .free) (used' : sock.state ≠ .free)
    (ring : (n.socks k).SameRing sock) : n'.Complete := by
  refine complete.agree (fun l => ?_) (fun l => ?_) (fun l => history ▸ rfl)
  · by_cases here : l = k
    · simp [socks, here, used, used']
    · simp [socks, here]
  · by_cases here : l = k
    · simp [socks, here, ring.pending]
    · simp [socks, here]

/-- A free slot is taken, or stays free. -/
theorem fill (complete : n.Complete) (free : (n.socks k).state = .free)
    (others : ∀ j ≠ k, n'.socks j = n.socks j)
    (histories : ∀ j ≠ k, (n'.history j).held = (n.history j).held)
    (mine : (n'.socks k).state ≠ .free → (n'.history k).held = true ∨ ∃ l, n'.Waits l k) :
    n'.Complete := by
  intro j used
  by_cases here : j = k
  · exact here ▸ mine (here ▸ used)
  · rw [others j here] at used
    rw [histories j here]
    refine (complete j used).imp_right ?_
    rintro ⟨l, inUse, member⟩
    have different : l ≠ k := by
      rintro rfl
      exact inUse free
    exact ⟨l, by rw [Waits, others l different]; exact ⟨inUse, member⟩⟩

theorem handOut (complete : n.Complete) (pending : (n.socks l).acceptqCount ≠ 0) :
    (n.handOut l ((n.socks l).acceptq (n.socks l).acceptqHead)).Complete := by
  intro j used
  rw [n.state_handOut] at used
  rw [n.held_handOut]
  split
  · exact .inl rfl
  next different =>
    refine (complete j used).imp_right ?_
    rintro ⟨l', inUse, member⟩
    refine ⟨l', by rwa [n.state_handOut], ?_⟩
    by_cases here : l' = l
    · subst here
      rw [Bsock.pending_dequeue pending, List.mem_cons] at member
      rw [n.socks_handOut_self]
      exact member.resolve_left different
    · rwa [n.socks_handOut_of_ne _ here]

theorem close {sock : Bsock} {tcp : Tcp} {pbufs : Pbufs} (complete : n.Complete)
    (free : sock.state = .free) (empty : (n.socks k).acceptqCount = 0) :
    (({ n with tcp, pbufs }.setSock k sock).setHistory k
      { n.history k with held := false }).Complete := by
  intro j used
  have different : j ≠ k := by
    rintro rfl
    simp [free] at used
  have before := complete j (by simpa [different] using used)
  refine before.imp (fun held => by simpa [different] using held) ?_
  rintro ⟨l, inUse, member⟩
  have notClosed : l ≠ k := by
    rintro rfl
    simp [Bsock.pending, empty] at member
  exact ⟨l, by simpa [Waits, notClosed] using And.intro inUse member⟩

theorem offered (complete : n.Complete) (free : (n.socks k).state = .free)
    (used : (n.socks l).state ≠ .free) (apart : l ≠ k) (ring : (n.socks l).Ring)
    (room : (n.socks l).acceptqCount < 8) (view : n.Offered n' l k) : n'.Complete := by
  have pending : (n'.socks l).pending = (n.socks l).pending ++ [k] := by
    rw [view.listener]
    exact Bsock.pending_enqueue ring room k
  have state : ∀ j ≠ k, (n'.socks j).state = (n.socks j).state := by
    intro j different
    by_cases isListener : j = l
    · rw [isListener, view.listener]
      rfl
    · rw [view.others j isListener different]
  intro j inUse
  by_cases here : j = k
  · refine .inr ⟨l, ?_, ?_⟩
    · rwa [state l apart]
    · simp [pending, here]
  · rw [state j here] at inUse
    refine (complete j inUse).imp (fun held => ?_) ?_
    · by_cases isListener : j = l
      · rw [isListener] at held
        rwa [isListener, view.listenerHistory]
      · rwa [view.otherHistories j isListener here]
    · rintro ⟨i, inUse', member⟩
      have different : i ≠ k := by
        rintro rfl
        exact inUse' free
      refine ⟨i, by rwa [state i different], ?_⟩
      by_cases isListener : i = l
      · rw [isListener] at member
        rw [isListener, pending]
        exact List.mem_append_left _ member
      · rwa [view.others i isListener different]

theorem step {input : Input} (complete : s.net.Complete) (owned : Owned s.net)
    (queued : Queued s.net) (held : ∀ k, s.Uses k input → (s.net.history k).held = true)
    (keeps : s.KeepsQueues input) (effect : Effect s input n') : n'.Complete := by
  have inUse := fun k uses => queued.held k (held k uses)
  cases effect with
  | quiet => exact complete
  | data control =>
      exact complete.agree (fun l => by rw [(control.socks l).state])
        (fun l => (control.socks l).sameRing.pending) fun l => (control.history l).held
  | reset free =>
      refine complete.fill free (fun j different => ?_) (fun j different => ?_) ?_
      all_goals simp_all [State.resetSock, Bsock.zero]
  | socket free =>
      refine complete.fill free (fun j different => ?_) (fun j different => ?_) ?_
      all_goals simp_all
  | @listen k p b listener uses =>
      exact complete.restate k rfl rfl (inUse k uses) (by simp) ⟨rfl, rfl, rfl, rfl⟩
  | accept _ pending => exact complete.handOut pending
  | @connect k p b b' state uses _ _ _ _ _ outcome =>
      refine complete.restate k rfl rfl (inUse k uses) ?_ ⟨rfl, rfl, rfl, rfl⟩
      rcases outcome with ⟨_, _, _, rfl⟩ | ⟨_, _, rfl⟩ <;> simp
  | @unconnected k uses =>
      exact complete.restate k rfl rfl (inUse k uses) (by simp) ⟨rfl, rfl, rfl, rfl⟩
  | close closes => exact complete.close rfl (keeps _ closes)
  | silent => exact complete
  | @lost p b k _ stored errf arg =>
      obtain ⟨used, _⟩ := owned.owner stored (.inr (.inl errf)) arg
      exact complete.restate k rfl rfl used (by simp) ⟨rfl, rfl, rfl, rfl⟩
  | established => exact complete
  | @connected p b k stored synSent callback arg =>
      obtain ⟨used, _⟩ := owned.owner stored (.inr (.inr (.inr ⟨synSent, callback⟩))) arg
      exact complete.restate k rfl rfl used (by simp) ⟨rfl, rfl, rfl, rfl⟩
  | @offered q b new l k taken stored listening accept arg room free state serves isTaken =>
      obtain ⟨used, apart⟩ := owned.listener stored listening accept arg free
      exact complete.offered free used apart (queued.ring l) room
        (State.offered_of_ne apart isTaken)

end State.Complete

/-! ## What `accept` returns -/

/-- One pass of `accept`: it goes on waiting, fails, or takes out the oldest connection. -/
theorem State.acceptStep_cases {n : State} {k : Fin 16} {addr : Bool}
    {addrlen : Option UInt32} {result : Progress × State}
    (served : n.acceptStep k addr addrlen = .ok result) :
    (n.socks k).acceptqCount = 0 ∧ result.2 = n ∧
      (result.1 = .polls (.accept k addr addrlen) ∨
        result.1 = .returned (.code (-Libc.EINVAL))) ∨
      (n.socks k).acceptqCount ≠ 0 ∧ ∃ slot peer,
        slot = (n.socks k).acceptq (n.socks k).acceptqHead ∧
        result = (.returned { Reply.code (100 + (slot.val : Int)) with peer },
          n.handOut k slot) := by
  simp only [acceptStep] at served
  split at served
  next empty =>
    left
    split at served
    · obtain rfl := Except.ok.inj served
      exact ⟨empty, rfl, .inr rfl⟩
    · obtain rfl := Except.ok.inj served
      exact ⟨empty, rfl, .inl rfl⟩
  next pending =>
    right
    refine ⟨pending, ?_⟩
    split at served
    · obtain ⟨peer, _, rest⟩ := bind_eq_ok.mp served
      exact ⟨_, some peer, rfl, (Except.ok.inj rest).symm⟩
    · exact ⟨_, none, rfl, (Except.ok.inj served).symm⟩

/-- A step of `accept` hands out the oldest connection, or changes nothing and reports no
descriptor. -/
theorem Shim.step_accept {s : Shim} {l : Fin 16} {input : Input} {result : Option Reply × Shim}
    (accepts : s.Accepts l input) (stepped : s.step input = .ok result) :
    result.2.net = s.net ∧ (∀ reply, result.1 = some reply → reply.ret < 0) ∨
      ∃ (slot : Fin 16) (reply : Reply), result.1 = some reply ∧
        reply.ret = 100 + (slot.val : Int) ∧ result.2.net = s.net.handOut l slot := by
  have settled : ∀ addr addrlen start served, s.net.acceptStep l addr addrlen = .ok served →
      result = settle start served →
      result.2.net = s.net ∧ (∀ reply, result.1 = some reply → reply.ret < 0) ∨
        ∃ (slot : Fin 16) (reply : Reply), result.1 = some reply ∧
          reply.ret = 100 + (slot.val : Int) ∧ result.2.net = s.net.handOut l slot := by
    rintro addr addrlen start ⟨progress, n'⟩ served rfl
    rcases State.acceptStep_cases served with ⟨_, rfl, rfl | rfl⟩ | ⟨_, slot, peer, _, same⟩
    · exact .inl ⟨rfl, by simp [settle]⟩
    · refine .inl ⟨rfl, fun reply returned => ?_⟩
      obtain rfl := Option.some.inj returned
      exact Int.neg_neg_of_pos (by decide)
    · obtain ⟨rfl, rfl⟩ := Prod.mk.inj same
      exact .inr ⟨slot, _, rfl, rfl, rfl⟩
  cases input with
  | call call now answers =>
      cases call with
      | accept fd addr addrlen =>
          have slot : State.sockOfFd fd = .ok l := accepts
          simp only [step, State.enter, slot, bind, Except.bind] at stepped
          split at stepped
          · obtain rfl := Except.ok.inj stepped
            exact .inl ⟨rfl, by simp⟩
          · obtain ⟨served, accepted, rfl⟩ := map_eq_ok.mp stepped
            exact settled addr addrlen now served accepted rfl
      | _ => exact accepts.elim
  | lwip event => exact accepts.elim
  | tick now answers =>
      obtain ⟨addr, addrlen, start, polling⟩ := accepts
      simp only [step, polling] at stepped
      split at stepped
      · obtain ⟨served, expired, rfl⟩ := map_eq_ok.mp stepped
        obtain rfl := Except.ok.inj expired
        refine .inl ⟨rfl, fun reply returned => ?_⟩
        obtain rfl := Option.some.inj returned
        exact Int.neg_neg_of_pos (by decide)
      · obtain ⟨served, accepted, rfl⟩ := map_eq_ok.mp stepped
        exact settled addr addrlen start served accepted rfl

/-- The slots logged as accepted on a socket are the descriptors that `accept` returned for
it, from the time its slot was taken. -/
def Shim.Logs (s : Shim) (input : Input) : Prop :=
  ∀ result l, s.step input = .ok result →
    (∀ reply, s.Accepts l input → result.1 = some reply → 0 ≤ reply.ret →
      ∃ slot : Fin 16, reply.ret = 100 + (slot.val : Int) ∧
        (result.2.net.history l).accepted = (s.net.history l).accepted ++ [slot]) ∧
    ((result.2.net.history l).accepted ≠ (s.net.history l).accepted →
      (s.net.socks l).state ≠ .free →
      s.Accepts l input ∧ ∃ reply, result.1 = some reply ∧ 0 ≤ reply.ret)

/-- The slots logged as offered to a socket are those of the connections that `on_accept`
answered with `ERR_OK`, from the time the slot of the socket was taken: such an answer adds
the free slot that now has the new control block, and nothing else changes the log. -/
def Shim.LogsTaken (s : Shim) (input : Input) : Prop :=
  ∀ result l, s.step input = .ok result →
    (s.Takes l input → ∃ (k : Fin 16) (new : Pcb), (s.net.socks k).state = .free ∧
      result.2.net.socks k = acceptedSock s.net.tcp.fresh ∧
      result.2.net.tcp.pcbs s.net.tcp.fresh = some new ∧ new.Serves k ∧
      (result.2.net.history l).offered = (s.net.history l).offered ++ [k]) ∧
    ((result.2.net.history l).offered ≠ (s.net.history l).offered →
      (s.net.socks l).state ≠ .free → s.Takes l input) ∧
    ((s.net.socks l).state = .free → (result.2.net.socks l).state ≠ .free →
      (result.2.net.history l).offered = [] ∧ (result.2.net.history l).accepted = [])

namespace Effect

variable {s : Shim} {input : Input} {n' : State} {l : Fin 16}

/-- The logs of a socket in use change by `accept` and `on_accept` only. -/
theorem logs (effect : Effect s input n') (owned : Owned s.net)
    (used : (s.net.socks l).state ≠ .free) :
    ((n'.history l).accepted = (s.net.history l).accepted ∨ s.Accepts l input) ∧
      ((n'.history l).offered = (s.net.history l).offered ∨ s.Takes l input) := by
  have same : n'.history l = s.net.history l →
      ((n'.history l).accepted = (s.net.history l).accepted ∨ s.Accepts l input) ∧
        ((n'.history l).offered = (s.net.history l).offered ∨ s.Takes l input) := by
    intro history
    simp [history]
  cases effect with
  | data control => exact ⟨.inl (control.history l).accepted, .inl (control.history l).offered⟩
  | @reset k _ free =>
      have different : l ≠ k := fun same => used (same ▸ free)
      exact same (by simp [State.resetSock, different])
  | @socket k _ free =>
      have different : l ≠ k := fun same => used (same ▸ free)
      exact same (by simp [different])
  | @accept k accepts =>
      refine ⟨?_, .inl (s.net.offered_handOut k _ l)⟩
      by_cases here : l = k
      · exact .inr (here ▸ accepts)
      · rw [s.net.accepted_handOut, if_neg here]
        exact .inl rfl
  | @close k =>
      by_cases here : l = k
      · simp [here]
      · exact same (by simp [here])
  | @offered q b new l' k taken stored listening accept arg room free state serves isTaken takes =>
      obtain ⟨_, apart⟩ := owned.listener stored listening accept arg free
      have different : l ≠ k := fun same => used (same ▸ free)
      have view := State.offered_of_ne apart isTaken
      by_cases isListener : l = l'
      · subst isListener
        exact ⟨.inl (by rw [view.listenerHistory]), .inr takes⟩
      · exact same (view.otherHistories l isListener different)
  | _ => exact same rfl

/-- The logs of a socket begin empty. -/
theorem logs_of_free (effect : Effect s input n') (owned : Owned s.net)
    (inUse : ∀ k, s.Uses k input → (s.net.socks k).state ≠ .free)
    (free : (s.net.socks l).state = .free) (used : (n'.socks l).state ≠ .free) :
    (n'.history l).offered = [] ∧ (n'.history l).accepted = [] := by
  -- Only `socket` and `on_accept` take a free slot; every other effect leaves it free.
  have changed : ∀ k sock, (s.net.socks k).state ≠ .free →
      Function.update s.net.socks k sock l = s.net.socks l := by
    intro k sock taken
    apply Function.update_of_ne
    rintro rfl
    exact taken free
  cases effect with
  | data control => exact absurd ((control.socks l).state.trans free) used
  | @reset k =>
      by_cases here : l = k
      · subst here
        exact absurd (by simp [State.resetSock, Bsock.zero]) used
      · exact absurd (by simpa [State.resetSock, here] using free) used
  | @socket k =>
      by_cases here : l = k
      · subst here
        simp [History.none]
      · exact absurd (by simpa [here] using free) used
  | @accept k => exact absurd ((s.net.state_handOut ..).trans free) used
  | @listen k _ _ _ uses | @connect k _ _ _ _ uses | @unconnected k uses =>
      simp only [State.socks_setSock, changed k _ (inUse k uses)] at used
      exact absurd free used
  | @close k =>
      by_cases here : l = k
      · subst here
        exact absurd (by simp) used
      · exact absurd (by simpa [here] using free) used
  | @lost p b k _ stored errf arg =>
      obtain ⟨taken, _⟩ := owned.owner stored (.inr (.inl errf)) arg
      simp only [State.socks_setSock, changed k _ taken] at used
      exact absurd free used
  | @connected p b k stored synSent callback arg =>
      obtain ⟨taken, _⟩ := owned.owner stored (.inr (.inr (.inr ⟨synSent, callback⟩))) arg
      simp only [State.socks_setSock, changed k _ taken] at used
      exact absurd free used
  | @offered q b new l' k taken stored listening accept arg room isFree state serves isTaken =>
      obtain ⟨listens, apart⟩ := owned.listener stored listening accept arg isFree
      have view := State.offered_of_ne apart isTaken
      by_cases here : l = k
      · subst here
        simp [view.slotHistory, History.none]
      · have notListener : l ≠ l' := fun same => listens (same ▸ free)
        rw [view.others l notListener here] at used
        exact absurd free used
  | _ => exact absurd free used

end Effect

/-- A connection that `on_accept` takes gets a free slot, and this slot is logged. -/
theorem Shim.step_takes {s : Shim} {l : Fin 16} {input : Input} {result : Option Reply × Shim}
    (owned : Owned s.net) (takes : s.Takes l input) (stepped : s.step input = .ok result) :
    ∃ (k : Fin 16) (new : Pcb), (s.net.socks k).state = .free ∧
      result.2.net.socks k = acceptedSock s.net.tcp.fresh ∧
      result.2.net.tcp.pcbs s.net.tcp.fresh = some new ∧ new.Serves k ∧
      (result.2.net.history l).offered = (s.net.history l).offered ++ [k] := by
  cases input with
  | call call now answers => exact takes.elim
  | tick now answers => exact takes.elim
  | lwip event =>
      cases event with
      | accept q ip port =>
          obtain ⟨b, n', stored, listening, accept, arg, answered⟩ := takes
          have offered : s.net.offer b ip port = .ok n' := by
            simp only [State.offer, if_pos accept, answered, bind, Except.bind, if_true]
          obtain ⟨after, dispatched, rfl⟩ := map_eq_ok.mp stepped
          simp only [State.dispatch, stored, if_pos listening, offered] at dispatched
          obtain rfl := Except.ok.inj dispatched
          rcases State.onAccept_incoming answered with
            ⟨notOk, _⟩ | ⟨l', k, new, taken, arg', _, free, _, serves, isTaken, same⟩
          · exact absurd rfl notOk
          · obtain rfl := Option.some.inj (arg.symm.trans arg')
            obtain rfl := (Prod.mk.inj same).2
            obtain ⟨_, apart⟩ := owned.listener stored listening accept arg free
            have view := State.offered_of_ne apart isTaken
            refine ⟨k, new, free, view.slot, ?_, serves, by rw [view.listenerHistory]⟩
            rw [isTaken]
            exact Tcp.pcbs_alloc _ _
      | _ => exact takes.elim

theorem Shim.Orderly.logs {s : Shim} (orderly : s.Orderly) (input : Input) : s.Logs input := by
  intro result l stepped
  constructor
  · intro reply accepts returned success
    rcases step_accept accepts stepped with ⟨_, negative⟩ | ⟨slot, other, same, fd, net⟩
    · exact absurd (negative reply returned) (Int.not_lt.mpr success)
    · obtain rfl := Option.some.inj (same.symm.trans returned)
      refine ⟨slot, fd, ?_⟩
      rw [net, s.net.accepted_handOut, if_pos rfl]
  · intro changed used
    have accepts := ((Effect.of_step stepped).logs orderly.owned used).1.resolve_left changed
    refine ⟨accepts, ?_⟩
    rcases step_accept accepts stepped with ⟨same, _⟩ | ⟨slot, reply, returned, fd, _⟩
    · rw [same] at changed
      exact absurd rfl changed
    · exact ⟨reply, returned, by omega⟩

theorem Shim.Orderly.logsTaken {s : Shim} {input : Input} (orderly : s.Orderly)
    (disciplined : s.HeldOnly input) : s.LogsTaken input := by
  intro result l stepped
  have effect := Effect.of_step stepped
  refine ⟨fun takes => step_takes orderly.owned takes stepped, fun changed used => ?_,
    fun free used => ?_⟩
  · exact (effect.logs orderly.owned used).2.resolve_left changed
  · exact effect.logs_of_free orderly.owned
      (fun k uses => orderly.queued.held k (orderly.held disciplined k uses)) free used

theorem State.onAccept_refused {n : State} {arg : Option (Fin 16)} {newpcb : Option Nat}
    {err : ErrT} {result : ErrT × State} (answered : n.onAccept arg newpcb err = .ok result)
    (refused : result.1 ≠ .ok) : result.2 = n := by
  rcases onAccept_cases answered with ⟨_, same⟩ | ⟨_, _, _, _, _, _, _, _, _, rfl⟩
  · exact same
  · exact absurd rfl refused

/-- A slot is the application's alone. -/
def State.Held (n : State) (k : Fin 16) : Prop :=
  (n.history k).held = true ∧
    ∀ l, (n.socks l).state = .listening → k ∉ (n.socks l).pending

/-- A slot waits once in one queue, and the application does not have it. -/
def State.WaitsOnce (n : State) (k : Fin 16) : Prop :=
  (n.history k).held = false ∧
    ∃ l, (n.socks l).state = .listening ∧ (n.socks l).pending.count k = 1 ∧
      ∀ l', (n.socks l').state = .listening → l' ≠ l → k ∉ (n.socks l').pending

theorem Queued.held_or_waitsOnce {n : State} {k : Fin 16} (queued : Queued n)
    (complete : n.Complete) (used : (n.socks k).state ≠ .free) : n.Held k ∨ n.WaitsOnce k := by
  have inUse : ∀ l, (n.socks l).state = .listening → (n.socks l).state ≠ .free := by
    intro l listening
    simp [listening]
  by_cases held : (n.history k).held = true
  · refine .inl ⟨held, fun l listening member => ?_⟩
    obtain ⟨_, _, notHeld⟩ := queued.waits l k ⟨inUse l listening, member⟩
    exact absurd (notHeld.symm.trans held) nofun
  · obtain ⟨l, waits⟩ := (complete k used).resolve_left held
    have listening : (n.socks l).state = .listening := by
      by_contra other
      have member := waits.2
      rw [Bsock.pending, queued.idle l waits.1 other] at member
      exact List.not_mem_nil member
    refine .inr ⟨by simpa using held, l, listening, ?_, fun l' listening' different member => ?_⟩
    · exact List.count_eq_one_of_mem (queued.nodup l waits.1) waits.2
    · exact different (queued.apart l' l k ⟨inUse l' listening', member⟩ waits)

theorem Bsock.Ring.tail_val {s : Bsock} (ring : s.Ring) :
    s.acceptqTail.val = (s.acceptqHead.val + s.acceptqCount) % 8 := by
  rw [ring.tail, Fin.val_add, Fin.val_ofNat, Nat.add_mod_mod]

/-- Each connection is handed out once and in order, and no slot is lost.  The log of a
listening socket has one entry for each `ERR_OK` of its `on_accept`. -/
theorem accept_queues_in_order {inputs : List Input}
    (disciplined : Shim.Guarded Shim.HeldOnly inputs) :
    Holds (fun s =>
      (∀ l, (s.net.socks l).state = .listening →
        (s.net.socks l).acceptqCount ≤ 8 ∧
        (s.net.socks l).acceptqTail.val =
          ((s.net.socks l).acceptqHead.val + (s.net.socks l).acceptqCount) % 8 ∧
        (s.net.history l).offered =
          (s.net.history l).accepted ++ (s.net.socks l).pending) ∧
      (Shim.Guarded Shim.KeepsQueues inputs →
        ∀ k, (s.net.socks k).state ≠ .free → s.net.Held k ∨ s.net.WaitsOnce k))
      (shim.run (.ok .boot) inputs) ∧
    Shim.Guarded Shim.Logs inputs ∧ Shim.Guarded Shim.LogsTaken inputs ∧
    ∀ (n : State) (arg : Option (Fin 16)) (newpcb : Option Nat) (err : ErrT)
      (result : ErrT × State), n.onAccept arg newpcb err = .ok result → result.1 ≠ .ok →
      result.2.socks = n.socks := by
  refine ⟨fun s reached => ⟨fun l _ => ?_, fun keeps k used => ?_⟩, ?_, ?_, ?_⟩
  · have queued := (Shim.Orderly.run disciplined s reached).queued
    exact ⟨(queued.ring l).count, (queued.ring l).tail_val, queued.fifo l⟩
  · have both : Holds (fun s => s.Orderly ∧ s.net.Complete) (shim.run (.ok .boot) inputs) := by
      refine Shim.run_holds ⟨.boot, .boot⟩ ?_ (disciplined.and keeps)
      rintro s input result ⟨orderly, complete⟩ ⟨held, kept⟩ stepped
      exact ⟨orderly.step held stepped, complete.step orderly.owned orderly.queued
        (orderly.held held) kept (Effect.of_step stepped)⟩
    obtain ⟨orderly, complete⟩ := both s reached
    exact orderly.queued.held_or_waitsOnce complete used
  · exact Shim.Orderly.along (fun _ input orderly _ => orderly.logs input) disciplined
  · exact Shim.Orderly.along (fun _ _ orderly held => orderly.logsTaken held) disciplined
  · intro n arg newpcb err result answered refused
    rw [State.onAccept_refused answered refused]

/-- A listening socket, two connections, and an `accept`. -/
def twoConnections : List Input :=
  [.call (.socket 2 1) 0 .granted, .call (.bind 100 16 0 8080) 0 .granted,
    .call (.listen 100) 0 .granted, .lwip (.accept 1 0x0A000202 40000),
    .lwip (.accept 1 0x0A000203 40001), .call (.accept 100 true (some 16)) 1 .granted]

theorem twoConnections_in_order :
    (shim.replies (.ok .boot) twoConnections).map (Option.map Reply.ret) =
      [some 100, some 0, some 0, none, none, some 101] ∧
    (shim.run (.ok .boot) twoConnections).toOption.map (fun s => (s.net.history 0).offered) =
      some [1, 2] ∧
    Shim.Guarded Shim.Logs twoConnections ∧ Shim.Guarded Shim.LogsTaken twoConnections :=
  have inOrder := @accept_queues_in_order twoConnections (by decide +kernel)
  ⟨by decide +kernel, by decide +kernel, inOrder.2.1, inOrder.2.2.1⟩

/-! ## Connections that were reset while they waited -/

/-- The oldest connection waiting for a socket. -/
def State.oldest (n : State) (l : Fin 16) : Fin 16 :=
  (n.socks l).acceptq (n.socks l).acceptqHead

/-- `accept` goes on waiting, reports an error, or delivers the oldest connection, with the
address of its peer if that was asked for. -/
def State.AcceptAnswers (n : State) (l : Fin 16) (wantsPeer : Bool) (progress : Progress) :
    Prop :=
  (∃ waiting, progress = .polls waiting) ∨
    ∃ reply, progress = .returned reply ∧
      (reply.ret < 0 ∨ reply.ret = 100 + ((n.oldest l).val : Int) ∧
        (wantsPeer = true → ∃ p b, (n.socks (n.oldest l)).pcb = some p ∧
          n.tcp.pcbs p = some b ∧ reply.peer = some (b.remoteIp, b.remotePort)))

/-- The connection that `accept` would deliver was reset, and its address is asked for. -/
def State.LostPeer (n : State) (l : Fin 16) (wantsPeer : Bool) : Prop :=
  wantsPeer = true ∧ (n.socks l).acceptqCount ≠ 0 ∧ (n.socks (n.oldest l)).pcb = none

namespace State

variable {n : State} {l slot : Fin 16}

theorem peerOf_handOut (n : State) (l slot : Fin 16) :
    (n.handOut l slot).peerOf slot = n.peerOf slot := by
  have pcb : ((n.handOut l slot).socks slot).pcb = (n.socks slot).pcb := by
    by_cases here : slot = l
    · rw [here, socks_handOut_self, Bsock.dequeue]
    · rw [n.socks_handOut_of_ne slot here]
  simp only [peerOf, pcb]
  rfl

theorem peerOf_of_null (null : (n.socks slot).pcb = none) :
    n.peerOf slot = .error .nullPointer := by
  rw [peerOf, null]

theorem peerOf_of_alive {p : Nat} {b : Pcb} (pcb : (n.socks slot).pcb = some p)
    (stored : n.tcp.pcbs p = some b) : n.peerOf slot = .ok (b.remoteIp, b.remotePort) := by
  simp only [peerOf, pcb, Tcp.get, stored]
  rfl

/-- A connection that waits has its control block, unless it was reset. -/
theorem alive_of_waits (owned : Owned n) (queued : Queued n) (waits : n.Waits l slot)
    (notReset : (n.socks slot).pcb ≠ none) :
    ∃ p b, (n.socks slot).pcb = some p ∧ n.tcp.pcbs p = some b := by
  obtain ⟨used, notClosed, _⟩ := queued.waits l slot waits
  obtain ⟨p, pcb⟩ := Option.ne_none_iff_exists'.mp notReset
  have kept : n.tcp.pcbs p ≠ none := fun gone =>
    notClosed ((owned.slots slot).gone p used pcb gone)
  obtain ⟨b, stored⟩ := Option.ne_none_iff_exists'.mp kept
  exact ⟨p, b, pcb, stored⟩

theorem waits_oldest (used : (n.socks l).state ≠ .free)
    (pending : (n.socks l).acceptqCount ≠ 0) : n.Waits l (n.oldest l) :=
  ⟨used, by simp [Bsock.pending_dequeue pending, oldest]⟩

theorem acceptStep_faults {addr : Bool} {addrlen : Option UInt32}
    (lost : n.LostPeer l (usableAddr addr addrlen)) :
    n.acceptStep l addr addrlen = .error .nullPointer := by
  obtain ⟨wants, pending, null⟩ := lost
  have peer := peerOf_of_null null
  rw [oldest] at peer
  simp only [acceptStep, if_neg pending, wants, if_true, peerOf_handOut, peer]
  rfl

theorem acceptStep_answers {addr : Bool} {addrlen : Option UInt32} (owned : Owned n)
    (queued : Queued n) (used : (n.socks l).state ≠ .free)
    (notLost : ¬n.LostPeer l (usableAddr addr addrlen)) :
    ∃ result, n.acceptStep l addr addrlen = .ok result ∧
      n.AcceptAnswers l (usableAddr addr addrlen) result.1 := by
  by_cases empty : (n.socks l).acceptqCount = 0
  · simp only [acceptStep, if_pos empty]
    split
    · exact ⟨_, rfl, .inr ⟨_, rfl, .inl (Int.neg_neg_of_pos (by decide))⟩⟩
    · exact ⟨_, rfl, .inl ⟨_, rfl⟩⟩
  · simp only [acceptStep, if_neg empty, peerOf_handOut]
    split
    next wants =>
      have notReset : (n.socks (n.oldest l)).pcb ≠ none := fun null =>
        notLost ⟨wants, empty, null⟩
      obtain ⟨p, b, pcb, stored⟩ :=
        alive_of_waits owned queued (waits_oldest used empty) notReset
      have peer := peerOf_of_alive pcb stored
      rw [oldest] at peer
      rw [peer]
      exact ⟨_, rfl, .inr ⟨_, rfl, .inr ⟨rfl, fun _ => ⟨p, b, pcb, stored, rfl⟩⟩⟩⟩
    next plain => exact ⟨_, rfl, .inr ⟨_, rfl, .inr ⟨rfl, fun wants => absurd wants plain⟩⟩⟩

end State

/-- In every state that a disciplined application can reach, `accept` is safe exactly if the
connection it delivers was not reset while it waited, or its address is not asked for. -/
theorem accept_safe_iff {inputs : List Input}
    (disciplined : Shim.Guarded Shim.HeldOnly inputs) :
    Holds (fun s => ∀ l addr addrlen, (s.net.history l).held = true →
      ((∃ result, s.net.acceptStep l addr addrlen = .ok result ∧
          s.net.AcceptAnswers l (usableAddr addr addrlen) result.1) ↔
        ¬s.net.LostPeer l (usableAddr addr addrlen)))
      (shim.run (.ok .boot) inputs) := by
  intro s reached l addr addrlen held
  have orderly := Shim.Orderly.run disciplined s reached
  constructor
  · rintro ⟨result, served, _⟩ lost
    rw [State.acceptStep_faults lost] at served
    exact absurd served nofun
  · exact State.acceptStep_answers orderly.owned orderly.queued (orderly.queued.held l held)

theorem accept_safe_iff_twoConnections :
    Shim.fault (shim.run (.ok .boot) twoConnections) = none ∧
    Holds (fun s => ∀ l addr addrlen, (s.net.history l).held = true →
      ((∃ result, s.net.acceptStep l addr addrlen = .ok result ∧
          s.net.AcceptAnswers l (usableAddr addr addrlen) result.1) ↔
        ¬s.net.LostPeer l (usableAddr addr addrlen)))
      (shim.run (.ok .boot) twoConnections) :=
  ⟨by decide +kernel, accept_safe_iff (by decide +kernel)⟩

/-- A server waits in `accept`; a connection is made and reset in the same poll. -/
def resetWhileQueued : List Input :=
  [.call (.socket 2 1) 0 .granted, .call (.bind 100 16 0 8080) 0 .granted,
    .call (.listen 100) 0 .granted, .call (.accept 100 true (some 16)) 0 .granted,
    .lwip (.accept 1 0x0A000202 40000), .lwip (.abort 2), .tick 10 .granted]

theorem resetWhileQueued_faults :
    Shim.Guarded Shim.HeldOnly resetWhileQueued ∧
      Shim.fault (shim.run (.ok .boot) resetWhileQueued) = some .nullPointer := by
  constructor <;> decide +kernel

end AppPortKit.Net
