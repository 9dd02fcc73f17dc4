import AppPortKit.Net.Queues

/-!
# Runs of the socket layer

What holds after every step holds in every state of a run that has not come to a
fault.  The discipline below is that of an application that passes only descriptors it
holds; under it control blocks and queues stay in order.
-/

namespace AppPortKit.Net

open Fallible Transition

/-- The fault a run has come to. -/
def Shim.fault : Except Fault Shim → Option Fault
  | .ok _ => none
  | .error fault => some fault

/-- A condition on steps, as long as there was no fault. -/
def Shim.Lift (guard : Shim → Input → Prop) : Except Fault Shim → Input → Prop
  | .ok s, input => guard s input
  | .error _, _ => True

instance (guard : Shim → Input → Prop) [∀ s input, Decidable (guard s input)]
    (state : Except Fault Shim) (input : Input) : Decidable (Shim.Lift guard state input) :=
  match state with
  | .ok s => inferInstanceAs (Decidable (guard s input))
  | .error _ => inferInstanceAs (Decidable True)

/-- Every step of a run from boot meets a condition. -/
abbrev Shim.Guarded (guard : Shim → Input → Prop) (inputs : List Input) : Prop :=
  shim.Along (Shim.Lift guard) (.ok .boot) inputs

theorem Shim.Guarded.and {first second : Shim → Input → Prop} {inputs : List Input}
    (one : Shim.Guarded first inputs) (two : Shim.Guarded second inputs) :
    Shim.Guarded (fun s input => first s input ∧ second s input) inputs := by
  refine Machine.Along.combine one two fun state input left right => ?_
  cases state with
  | error fault => trivial
  | ok s => exact ⟨left, right⟩

theorem Shim.Guarded.mono {first second : Shim → Input → Prop} {inputs : List Input}
    (one : Shim.Guarded first inputs)
    (weaker : ∀ s input, first s input → second s input) : Shim.Guarded second inputs := by
  refine Machine.Along.combine one one fun state input holds _ => ?_
  cases state with
  | error fault => trivial
  | ok s => exact weaker s input holds

namespace Shim

variable {invariant : Shim → Prop} {guard : Shim → Input → Prop}

theorem next_of_ok {s : Shim} {input : Input} {result : Option Reply × Shim}
    (stepped : s.step input = .ok result) : shim.next (.ok s) input = .ok result.2 := by
  simp only [Machine.next, shim, stepped]

theorem next_of_error {s : Shim} {input : Input} {fault : Fault}
    (stepped : s.step input = .error fault) : shim.next (.ok s) input = .error fault := by
  simp only [Machine.next, shim, stepped]

theorem next_preserves
    (step : ∀ s input result, invariant s → guard s input → s.step input = .ok result →
      invariant result.2) (state : Except Fault Shim) (input : Input)
    (before : Holds invariant state) (guarded : Lift guard state input) :
    Holds invariant (shim.next state input) := by
  cases state with
  | error fault => exact holds_error
  | ok s =>
      cases stepped : s.step input with
      | error fault =>
          rw [next_of_error stepped]
          exact holds_error
      | ok result =>
          rw [next_of_ok stepped]
          exact holds_ok.mpr (step s input result (holds_ok.mp before) guarded stepped)

/-- What every guarded step preserves holds after every guarded run. -/
theorem run_holds (boot : invariant .boot)
    (step : ∀ s input result, invariant s → guard s input → s.step input = .ok result →
      invariant result.2) {inputs : List Input} (guarded : Guarded guard inputs) :
    Holds invariant (shim.run (.ok .boot) inputs) :=
  Machine.run_invariant (next_preserves step) (holds_ok.mpr boot) guarded

/-- The fault of a guarded run is one of those that its steps may come to. -/
theorem run_fails {allowed : Fault → Prop} (boot : invariant .boot)
    (step : ∀ s input result, invariant s → guard s input → s.step input = .ok result →
      invariant result.2)
    (fails : ∀ s input, invariant s → guard s input → FailsOnly allowed (s.step input))
    {inputs : List Input} (guarded : Guarded guard inputs) :
    FailsOnly allowed (shim.run (.ok .boot) inputs) := by
  let both := fun state => Holds invariant state ∧ FailsOnly allowed state
  suffices after : both (shim.run (.ok .boot) inputs) from after.2
  refine Machine.run_invariant ?_ ⟨holds_ok.mpr boot, .ok _⟩ guarded
  rintro state input ⟨before, failsOnly⟩ meets
  refine ⟨next_preserves step state input before meets, ?_⟩
  cases state with
  | error fault => exact failsOnly
  | ok s =>
      cases stepped : s.step input with
      | error fault =>
          rw [next_of_error stepped]
          exact .error (fails s input (holds_ok.mp before) meets fault stepped)
      | ok result =>
          rw [next_of_ok stepped]
          exact .ok _

/-- What follows from the invariant holds of every step of a guarded run. -/
theorem along_holds {property : Shim → Input → Prop} (boot : invariant .boot)
    (step : ∀ s input result, invariant s → guard s input → s.step input = .ok result →
      invariant result.2)
    (established : ∀ s input, invariant s → guard s input → property s input)
    {inputs : List Input} (guarded : Guarded guard inputs) : Guarded property inputs := by
  refine Machine.along_of_invariant (next_preserves step) (fun state input before allowed => ?_)
    (holds_ok.mpr boot) guarded
  cases state with
  | error fault => trivial
  | ok s => exact established s input (holds_ok.mp before) allowed

end Shim

/-! ## The application's discipline -/

/-- The application passes only descriptors it holds. -/
def Shim.HeldOnly (s : Shim) : Input → Prop
  | .call call _ _ =>
      match call.fd with
      | none => True
      | some fd => ∃ k : Fin 16, fd = 100 + (k.val : Int) ∧ (s.net.history k).held = true
  | .lwip _ | .tick _ _ => True

instance (s : Shim) (input : Input) : Decidable (s.HeldOnly input) :=
  match input with
  | .call call _ _ =>
      match about : call.fd with
      | none => isTrue (by simp only [Shim.HeldOnly, about])
      | some fd => decidable_of_iff
          (∃ k : Fin 16, fd = 100 + (k.val : Int) ∧ (s.net.history k).held = true)
          (by simp only [Shim.HeldOnly, about])
  | .lwip _ => isTrue trivial
  | .tick _ _ => isTrue trivial

theorem State.sockOfFd_eq_ok {fd : Int} {k : Fin 16} :
    State.sockOfFd fd = .ok k ↔ fd = 100 + (k.val : Int) := by
  rw [State.sockOfFd]
  split
  next bound =>
    rw [Except.ok.injEq, Fin.ext_iff]
    have same : (⟨(fd - 100).toNat, by omega⟩ : Fin 16).val = (fd - 100).toNat := rfl
    omega
  next outside =>
    have := k.isLt
    simp only [reduceCtorEq, false_iff]
    omega

/-! ## Calls that wait -/

namespace State

variable {n n' : State} {k : Fin 16} {waiting : Waiting} {answers : Answers}

theorem not_polls_of_map {call : Except Fault (Reply × State)}
    (served : call.map Progress.ofResult = .ok (.polls waiting, n')) : False := by
  obtain ⟨r, _, same⟩ := map_eq_ok.mp served
  exact absurd (Prod.mk.inj same).1 nofun

theorem acceptStep_polls {addr : Bool} {addrlen : Option UInt32}
    (served : n.acceptStep k addr addrlen = .ok (.polls waiting, n')) :
    waiting.slot = some k := by
  simp only [acceptStep] at served
  split at served
  · split at served
    · simp at served
    · simp only [Except.ok.injEq, Prod.mk.injEq, Progress.polls.injEq] at served
      rw [← served.1, Waiting.slot]
  · split at served
    · obtain ⟨_, _, rest⟩ := bind_eq_ok.mp served
      simp at rest
    · simp at served

theorem connectStep_polls (served : n.connectStep k = .polls waiting) :
    waiting.slot = some k := by
  simp only [connectStep] at served
  split at served
  · rw [← Progress.polls.inj served, Waiting.slot]
  · split at served
    · simp at served
    · simp at served

theorem netShimConnect_polls {addrlen : UInt64} {ip : UInt32} {port : UInt16}
    (served : n.netShimConnect k addrlen ip port answers = .ok (.polls waiting, n')) :
    waiting.slot = some k := by
  simp only [netShimConnect] at served
  split at served
  · simp at served
  · obtain ⟨_, _, rest⟩ := bind_eq_ok.mp served
    obtain ⟨_, _, rest⟩ := bind_eq_ok.mp rest
    obtain ⟨_, _, rest⟩ := bind_eq_ok.mp rest
    obtain ⟨_, _, rest⟩ := bind_eq_ok.mp rest
    split at rest
    · exact connectStep_polls (Prod.mk.inj (Except.ok.inj rest)).1
    · simp at rest

theorem recvStep_polls {len : UInt64}
    (served : n.recvStep k len = .ok (.polls waiting, n')) : waiting.slot = some k := by
  simp only [recvStep] at served
  split at served
  · obtain ⟨_, _, rest⟩ := bind_eq_ok.mp served
    simp at rest
  · split at served
    · simp at served
    · split at served
      · simp at served
      · simp only [Except.ok.injEq, Prod.mk.injEq, Progress.polls.injEq] at served
        rw [← served.1, Waiting.slot]

theorem sendStep_polls {data : List UInt8}
    (served : n.sendStep k data answers = .ok (.polls waiting, n')) :
    waiting.slot = some k := by
  obtain ⟨_, _, rest⟩ := bind_eq_ok.mp served
  split at rest
  · simp at rest
  · split at rest
    · simp at rest
    · simp only [Except.ok.injEq, Prod.mk.injEq, Progress.polls.injEq] at rest
      rw [← rest.1, Waiting.slot]

theorem readyStep_polls {domain type : UInt64}
    (served : n.readyStep domain type answers = .ok (.polls waiting, n')) :
    waiting.slot = none := by
  simp only [readyStep] at served
  split at served
  · obtain ⟨_, _, rest⟩ := bind_eq_ok.mp served
    simp at rest
  · simp only [Except.ok.injEq, Prod.mk.injEq, Progress.polls.injEq] at served
    rw [← served.1, Waiting.slot]

/-- A call that waits does so on the socket it was made on, and is no `close`. -/
theorem enter_polls {call : Call} (served : n.enter answers call = .ok (.polls waiting, n'))
    (about : waiting.slot = some k) :
    (∃ fd, call.fd = some fd ∧ sockOfFd fd = .ok k) ∧ ∀ fd, call ≠ .close fd := by
  cases call with
  | socket domain type =>
      simp only [enter] at served
      split at served
      · exact (not_polls_of_map served).elim
      · exact absurd ((readyStep_polls served).symm.trans about) (by simp)
  | bind fd addrlen ip port =>
      obtain ⟨j, _, served⟩ := bind_eq_ok.mp served
      exact (not_polls_of_map served).elim
  | listen fd =>
      obtain ⟨j, _, served⟩ := bind_eq_ok.mp served
      exact (not_polls_of_map served).elim
  | accept fd addr addrlen =>
      obtain ⟨j, slot, served⟩ := bind_eq_ok.mp served
      obtain rfl := Option.some.inj ((acceptStep_polls served).symm.trans about)
      exact ⟨⟨fd, rfl, slot⟩, (by simp)⟩
  | connect fd addrlen ip port =>
      obtain ⟨j, slot, served⟩ := bind_eq_ok.mp served
      obtain rfl := Option.some.inj ((netShimConnect_polls served).symm.trans about)
      exact ⟨⟨fd, rfl, slot⟩, (by simp)⟩
  | recv fd len =>
      obtain ⟨j, slot, served⟩ := bind_eq_ok.mp served
      split at served
      · simp at served
      · obtain rfl := Option.some.inj ((recvStep_polls served).symm.trans about)
        exact ⟨⟨fd, rfl, slot⟩, (by simp)⟩
  | send fd data =>
      obtain ⟨j, slot, served⟩ := bind_eq_ok.mp served
      split at served
      · simp at served
      · obtain rfl := Option.some.inj ((sendStep_polls served).symm.trans about)
        exact ⟨⟨fd, rfl, slot⟩, (by simp)⟩
  | close fd =>
      obtain ⟨j, _, served⟩ := bind_eq_ok.mp served
      exact (not_polls_of_map served).elim

theorem resume_polls {before : Waiting}
    (served : n.resume answers before = .ok (.polls waiting, n')) :
    waiting.slot = before.slot := by
  cases before with
  | ready domain type => exact readyStep_polls served
  | accept k addr addrlen => exact acceptStep_polls served
  | connect k => exact connectStep_polls (Prod.mk.inj (Except.ok.inj served)).1
  | recv k len => exact recvStep_polls served
  | send k data => exact sendStep_polls served

theorem expire_returns {before : Waiting}
    (served : n.expire answers before = .ok (.polls waiting, n')) : False := by
  cases before with
  | ready domain type => exact not_polls_of_map served
  | accept k addr addrlen => exact absurd (Prod.mk.inj (Except.ok.inj served)).1 nofun
  | connect k => exact absurd (Prod.mk.inj (Except.ok.inj served)).1 nofun
  | recv k len => exact absurd (Prod.mk.inj (Except.ok.inj served)).1 nofun
  | send k data => exact absurd (Prod.mk.inj (Except.ok.inj served)).1 nofun

end State

namespace Shim

variable {s : Shim} {input : Input} {result : Option Reply × Shim} {k : Fin 16}

theorem settle_returns {start : UInt32} {served : Progress × State} {reply : Reply} {s' : Shim}
    (settled : settle start served = (some reply, s')) :
    served = (.returned reply, s'.net) := by
  obtain ⟨progress, n'⟩ := served
  cases progress with
  | polls waiting => exact absurd (Prod.mk.inj settled).1 nofun
  | returned other =>
      obtain ⟨same, after⟩ := Prod.mk.inj settled
      rw [Option.some.inj same, ← after]

theorem settle_waiting {at' start : UInt32} {served : Progress × State} {waiting : Waiting}
    (polling : (settle at' served).2.waiting = some (waiting, start)) :
    served.1 = .polls waiting := by
  rw [settle] at polling
  split at polling
  · simp at polling
  next other is =>
    simp only [Option.some.injEq, Prod.mk.injEq] at polling
    rw [is, polling.1]

/-- A call that waits is the one just made, or the one that waited before. -/
theorem step_waiting {waiting : Waiting} {start : UInt32}
    (stepped : s.step input = .ok result) (polling : result.2.waiting = some (waiting, start))
    (about : waiting.slot = some k) :
    s.Uses k input ∧ ¬input.Closes k ∨
      s.waiting = some (waiting, start) ∧ (result.2 = s ∨ ¬input.Closes k) := by
  cases input with
  | call call now answers =>
      simp only [step] at stepped
      split at stepped
      · obtain rfl := Except.ok.inj stepped
        exact .inr ⟨polling, .inl rfl⟩
      · obtain ⟨⟨progress, n'⟩, served, rfl⟩ := map_eq_ok.mp stepped
        obtain rfl : progress = .polls waiting := settle_waiting polling
        obtain ⟨uses, notClose⟩ := State.enter_polls served about
        refine .inl ⟨uses, fun closes => ?_⟩
        cases call with
        | close fd => exact notClose fd rfl
        | _ => exact closes
  | lwip event =>
      obtain ⟨n', _, rfl⟩ := map_eq_ok.mp stepped
      exact .inr ⟨polling, .inr id⟩
  | tick now answers =>
      simp only [step] at stepped
      split at stepped
      next idle =>
        obtain rfl := Except.ok.inj stepped
        exact .inr ⟨polling, .inl rfl⟩
      next before began was =>
        split at stepped
        · obtain ⟨⟨progress, n'⟩, served, rfl⟩ := map_eq_ok.mp stepped
          obtain rfl : progress = .polls waiting := settle_waiting polling
          exact (State.expire_returns served).elim
        · obtain ⟨⟨progress, n'⟩, served, rfl⟩ := map_eq_ok.mp stepped
          obtain rfl : progress = .polls waiting := settle_waiting polling
          have same := State.resume_polls served
          exact .inl ⟨⟨before, began, was, same.symm.trans about⟩, id⟩

end Shim

/-! ## Order under the discipline -/

/-- A descriptor stays with the application until it is closed. -/
theorem Queued.held_step {s : Shim} {input : Input} {n' : State} {k : Fin 16}
    (queued : Queued s.net) (effect : Effect s input n')
    (held : (s.net.history k).held = true) (notClosed : ¬input.Closes k) :
    (n'.history k).held = true := by
  have used := queued.held k held
  cases effect with
  | quiet => exact held
  | data control => exact (control.history k).held.trans held
  | @reset j _ free =>
      have different : k ≠ j := fun same => used (same ▸ free)
      simpa [State.resetSock, different] using held
  | @socket j _ free =>
      have different : k ≠ j := fun same => used (same ▸ free)
      simpa [different] using held
  | listen => exact held
  | @accept l =>
      rw [State.held_handOut]
      split
      · rfl
      · exact held
  | connect => exact held
  | unconnected => exact held
  | @close j _ _ closes =>
      have different : k ≠ j := fun same => notClosed (same ▸ closes)
      simpa [different] using held
  | silent => exact held
  | lost => exact held
  | established => exact held
  | connected => exact held
  | @offered q b new l j taken _ _ _ _ _ free _ _ isTaken =>
      have different : k ≠ j := fun same => used (same ▸ free)
      have before : (taken.history k).held = true := by
        simpa [isTaken, State.resetSock, different] using held
      by_cases listener : k = l
      · subst listener
        simpa using before
      · simpa [listener] using before

structure Shim.Orderly (s : Shim) : Prop where
  owned : Owned s.net
  queued : Queued s.net
  waiting : ∀ waiting start k, s.waiting = some (waiting, start) → waiting.slot = some k →
    (s.net.history k).held = true

namespace Shim.Orderly

variable {s : Shim} {input : Input} {result : Option Reply × Shim}

theorem boot : Shim.boot.Orderly := ⟨.boot, .boot, nofun⟩

theorem held (orderly : s.Orderly) (disciplined : s.HeldOnly input) (k : Fin 16)
    (uses : s.Uses k input) : (s.net.history k).held = true := by
  cases input with
  | call call now answers =>
      obtain ⟨fd, about, slot⟩ := uses
      simp only [HeldOnly, about] at disciplined
      obtain ⟨j, is, held⟩ := disciplined
      rw [State.sockOfFd_eq_ok.mpr is] at slot
      exact Except.ok.inj slot ▸ held
  | lwip event => exact uses.elim
  | tick now answers =>
      obtain ⟨waiting, start, polling, about⟩ := uses
      exact orderly.waiting waiting start k polling about

theorem step (orderly : s.Orderly) (disciplined : s.HeldOnly input)
    (stepped : s.step input = .ok result) : result.2.Orderly := by
  have effect := Effect.of_step stepped
  refine ⟨orderly.owned.step effect,
    orderly.queued.step orderly.owned (orderly.held disciplined) effect,
    fun waiting start k polling about => ?_⟩
  rcases step_waiting stepped polling about with ⟨uses, notClosed⟩ | ⟨before, same | notClosed⟩
  · exact orderly.queued.held_step effect (orderly.held disciplined k uses) notClosed
  · rw [same]
    exact orderly.waiting waiting start k before about
  · exact orderly.queued.held_step effect (orderly.waiting waiting start k before about) notClosed

/-- Every state that a disciplined application can reach is in order. -/
theorem run {inputs : List Input} (disciplined : Guarded HeldOnly inputs) :
    Holds Orderly (shim.run (.ok .boot) inputs) :=
  run_holds boot (fun _ _ _ orderly held stepped => orderly.step held stepped) disciplined

/-- What order gives holds of every step of a disciplined application. -/
theorem along {property : Shim → Input → Prop}
    (established : ∀ s input, s.Orderly → s.HeldOnly input → property s input)
    {inputs : List Input} (disciplined : Guarded HeldOnly inputs) : Guarded property inputs :=
  along_holds boot (fun _ _ _ orderly held stepped => orderly.step held stepped) established
    disciplined

end Shim.Orderly

end AppPortKit.Net
