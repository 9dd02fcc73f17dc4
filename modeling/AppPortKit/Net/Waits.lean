import AppPortKit.Net.Streams

/-!
# Calls that time out

A call that waits looks at the clock after it has polled, and does not look again at what
it waits for.  What happened in the last poll is reported as a timeout.
-/

namespace AppPortKit.Net

open Fallible Libc

/-- The step is a pass of a blocking call. -/
def Shim.Serves (s : Shim) (waiting : Waiting) : Input → Prop
  | .call (.accept fd addr addrlen) _ _ =>
      s.waiting = none ∧ ∃ k, State.sockOfFd fd = .ok k ∧ waiting = .accept k addr addrlen
  | .call (.connect fd _ _ _) _ _ =>
      s.waiting = none ∧ ∃ k, State.sockOfFd fd = .ok k ∧ waiting = .connect k
  | .call (.recv fd len) _ _ =>
      s.waiting = none ∧ ∃ k, State.sockOfFd fd = .ok k ∧ waiting = .recv k len
  | .tick _ _ => ∃ start, s.waiting = some (waiting, start)
  | _ => False

/-- What a call waits for has not happened. -/
def Waiting.Unmet (n : State) : Waiting → Prop
  | .connect k => (n.socks k).state = .connecting
  | .accept k _ _ => (n.socks k).acceptqCount = 0
  | .recv k _ =>
      (n.socks k).rxHead = none ∧ (n.socks k).eof = false ∧ (n.socks k).state ≠ .error
  | .send _ _ | .ready _ _ => True

/-- The result of a call is in accord with the state at its return. -/
def Waiting.Truthful (reply : Reply) (n : State) : Waiting → Prop
  | .connect k =>
      (reply.ret = -ETIMEDOUT → (n.socks k).state = .connecting) ∧
        (reply.ret = 0 → (n.socks k).state = .connected)
  | .accept k addr addrlen => reply.ret = -EAGAIN → (Waiting.accept k addr addrlen).Unmet n
  | .recv k len => reply.ret = -ETIMEDOUT → (Waiting.recv k len).Unmet n
  | .send _ _ | .ready _ _ => True

/-- A timeout is reported only if what the call waited for has not happened. -/
def Shim.Truthful (s : Shim) (input : Input) : Prop :=
  ∀ waiting reply s', s.Serves waiting input → s.step input = .ok (some reply, s') →
    waiting.Truthful reply s'.net

/-- When the time of a call is up, what it waits for did not happen in the last poll. -/
def Shim.Timely (s : Shim) (input : Input) : Prop :=
  ∀ now answers waiting start, input = .tick now answers →
    s.waiting = some (waiting, start) → now - start ≥ 30000 → waiting.Unmet s.net

namespace State

variable {n n' : State} {k : Fin 16} {reply : Reply}

theorem connectStep_truthful (served : n.connectStep k = .returned reply) :
    (Waiting.connect k).Truthful reply n := by
  rw [connectStep] at served
  split at served
  · exact absurd served (by simp)
  · split at served
    next connected =>
      obtain rfl := Progress.returned.inj served
      exact ⟨fun timeout => absurd timeout (by decide), fun _ => connected⟩
    · obtain rfl := Progress.returned.inj served
      exact ⟨fun timeout => absurd timeout (by decide), fun zero => absurd zero (by decide)⟩

theorem netShimConnect_truthful {addrlen : UInt64} {ip : UInt32} {port : UInt16}
    {answers : Answers}
    (served : n.netShimConnect k addrlen ip port answers = .ok (.returned reply, n')) :
    (Waiting.connect k).Truthful reply n' := by
  rw [netShimConnect] at served
  split at served
  · obtain ⟨returned, rfl⟩ := Prod.mk.inj (Except.ok.inj served)
    obtain rfl := Progress.returned.inj returned
    exact ⟨fun timeout => absurd timeout (by decide), fun zero => absurd zero (by decide)⟩
  · obtain ⟨_, _, rest⟩ := bind_eq_ok.mp served
    obtain ⟨_, _, rest⟩ := bind_eq_ok.mp rest
    obtain ⟨_, _, rest⟩ := bind_eq_ok.mp rest
    obtain ⟨_, _, rest⟩ := bind_eq_ok.mp rest
    split at rest
    · obtain ⟨returned, rfl⟩ := Prod.mk.inj (Except.ok.inj rest)
      exact connectStep_truthful returned
    · obtain ⟨returned, rfl⟩ := Prod.mk.inj (Except.ok.inj rest)
      obtain rfl := Progress.returned.inj returned
      exact ⟨fun timeout => absurd timeout (by decide), fun zero => absurd zero (by decide)⟩

theorem acceptStep_truthful {addr : Bool} {addrlen : Option UInt32}
    (served : n.acceptStep k addr addrlen = .ok (.returned reply, n')) :
    (Waiting.accept k addr addrlen).Truthful reply n' := by
  intro timeout
  rcases acceptStep_cases served with ⟨empty, rfl, _⟩ | ⟨_, slot, peer, _, same⟩
  · exact empty
  · obtain ⟨returned, rfl⟩ := Prod.mk.inj same
    obtain rfl := Progress.returned.inj returned
    have descriptor : 100 + (slot.val : Int) = -11 := timeout
    omega

theorem recvStep_truthful {items : Fin 16 → List (Nat × List UInt8)}
    (received : Received n items) {len : UInt64}
    (served : n.recvStep k len = .ok (.returned reply, n')) :
    (Waiting.recv k len).Truthful reply n' := by
  intro timeout
  cases received.recvStep_outcome served with
  | ended | reset => exact absurd timeout (by decide)
  | data _ _ _ _ ret =>
      have count : (reply.bytes.length : Int) = -110 := ret.symm.trans timeout
      omega

end State

namespace Shim

variable {s s' : Shim} {input : Input} {waiting : Waiting} {reply : Reply}

theorem enter_truthful {call : Call} {now : UInt32} {answers : Answers} (healthy : s.Healthy)
    (serves : s.Serves waiting (.call call now answers))
    (stepped : s.step (.call call now answers) = .ok (some reply, s')) :
    waiting.Truthful reply s'.net := by
  obtain ⟨items, received⟩ := healthy.received
  cases call with
  | accept fd addr addrlen =>
      obtain ⟨idle, k, slot, rfl⟩ := serves
      simp only [step, idle, State.enter, slot, bind, Except.bind] at stepped
      obtain ⟨served, accepts, settled⟩ := map_eq_ok.mp stepped
      rw [settle_returns settled] at accepts
      exact State.acceptStep_truthful accepts
  | connect fd addrlen ip port =>
      obtain ⟨idle, k, slot, rfl⟩ := serves
      simp only [step, idle, State.enter, slot, bind, Except.bind] at stepped
      obtain ⟨served, connects, settled⟩ := map_eq_ok.mp stepped
      rw [settle_returns settled] at connects
      exact State.netShimConnect_truthful connects
  | recv fd len =>
      obtain ⟨idle, k, slot, rfl⟩ := serves
      simp only [step, idle, State.enter, slot, bind, Except.bind] at stepped
      obtain ⟨served, receives, settled⟩ := map_eq_ok.mp stepped
      rw [settle_returns settled] at receives
      split at receives
      · obtain ⟨returned, _⟩ := Prod.mk.inj (Except.ok.inj receives)
        obtain rfl := Progress.returned.inj returned
        exact fun timeout => absurd timeout (by decide)
      · exact State.recvStep_truthful received receives
  | _ => exact serves.elim

theorem resume_truthful {start : UInt32} {answers : Answers} (healthy : s.Healthy)
    (served : (s.net.resume answers waiting).map (settle start) = .ok (some reply, s')) :
    waiting.Truthful reply s'.net := by
  obtain ⟨items, received⟩ := healthy.received
  obtain ⟨result, passes, settled⟩ := map_eq_ok.mp served
  rw [settle_returns settled] at passes
  cases waiting with
  | ready | send => trivial
  | accept k addr addrlen => exact State.acceptStep_truthful passes
  | connect k =>
      obtain ⟨returned, same⟩ := Prod.mk.inj (Except.ok.inj passes)
      exact same ▸ State.connectStep_truthful returned
  | recv k len => exact State.recvStep_truthful received passes

/-- A call whose time is up leaves everything as it is. -/
theorem expire_truthful {start : UInt32} {answers : Answers} (unmet : waiting.Unmet s.net)
    (served : (s.net.expire answers waiting).map (settle start) = .ok (some reply, s')) :
    waiting.Truthful reply s'.net := by
  obtain ⟨result, expires, settled⟩ := map_eq_ok.mp served
  rw [settle_returns settled] at expires
  cases waiting with
  | ready | send => trivial
  | accept k addr addrlen =>
      obtain ⟨_, same⟩ := Prod.mk.inj (Except.ok.inj expires)
      exact fun _ => same ▸ unmet
  | connect k =>
      obtain ⟨returned, same⟩ := Prod.mk.inj (Except.ok.inj expires)
      obtain rfl := Progress.returned.inj returned
      exact ⟨fun _ => same ▸ unmet, fun zero => absurd zero (by decide)⟩
  | recv k len =>
      obtain ⟨_, same⟩ := Prod.mk.inj (Except.ok.inj expires)
      exact fun _ => same ▸ unmet

theorem timely_of_truthful (truthful : s.Truthful input) : s.Timely input := by
  rintro now answers waiting start rfl polling late
  have expires : ∀ ret, s.net.expire answers waiting = .ok (.returned (.code ret), s.net) →
      waiting.Truthful (.code ret) s.net := by
    intro ret expired
    refine truthful waiting (.code ret) { net := s.net, waiting := none } ⟨start, polling⟩ ?_
    simp only [step, polling, if_pos late, expired]
    rfl
  cases waiting with
  | ready | send => trivial
  | accept k addr addrlen => exact expires _ rfl rfl
  | connect k => exact (expires _ rfl).1 rfl
  | recv k len => exact expires _ rfl rfl

theorem truthful_of_timely (healthy : s.Healthy) (timely : s.Timely input) :
    s.Truthful input := by
  intro waiting reply s' serves stepped
  cases input with
  | call call now answers => exact enter_truthful healthy serves stepped
  | lwip event => exact serves.elim
  | tick now answers =>
      obtain ⟨start, polling⟩ := serves
      simp only [step, polling] at stepped
      split at stepped
      next late =>
        exact expire_truthful (timely now answers waiting start rfl polling late) stepped
      · exact resume_truthful healthy stepped

end Shim

/-- Timeouts are truthful exactly if nothing that a call waits for happens in the poll
after which its time is up. -/
theorem timeouts_truthful_iff {inputs : List Input}
    (disciplined : Shim.Guarded Shim.HeldOnly inputs) :
    Shim.Guarded Shim.Truthful inputs ↔ Shim.Guarded Shim.Timely inputs :=
  Shim.Healthy.guarded_iff (fun _ _ healthy _ =>
    ⟨Shim.timely_of_truthful, Shim.truthful_of_timely healthy⟩) disciplined

theorem timeouts_truthful_iff_threeBytes :
    Shim.Guarded Shim.HeldOnly threeBytes ∧
      (Shim.Guarded Shim.Truthful threeBytes ↔ Shim.Guarded Shim.Timely threeBytes) :=
  ⟨by decide +kernel, timeouts_truthful_iff (by decide +kernel)⟩

/-- A connection is established in the last poll before the time is up. -/
def connectedLate : List Input :=
  [.call (.socket 2 1) 0 .granted, .call (.connect 100 16 0x0A000202 80) 0 .granted,
    .lwip (.connected 0), .tick 30000 .granted]

theorem connectedLate_times_out :
    Shim.Guarded Shim.HeldOnly connectedLate ∧
    (shim.replies (.ok .boot) connectedLate).map (Option.map Reply.ret) =
      [some 100, none, none, some (-ETIMEDOUT)] ∧
    (shim.run (.ok .boot) connectedLate).toOption.map (fun s => (s.net.socks 0).state) =
      some .connected := by
  refine ⟨?_, ?_, ?_⟩ <;> decide +kernel

end AppPortKit.Net
