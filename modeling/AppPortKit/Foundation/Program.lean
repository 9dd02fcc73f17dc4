import AppPortKit.Foundation.Machine

/-!
# Programs that call a system

A program runs on the state of the system it calls.  A call may fail for good, and it may
not return; then the program does not either.  `Returns` says that a program returns from
a state, and what holds then; its rules follow the program's text.
-/

universe u v

/-- A program with results of type `α`: it fails, or leaves a state, with a result if it
returns. -/
def Program (φ : Type u) (σ α : Type v) : Type (max u v) := σ → Except φ (Option α × σ)

namespace Program

variable {φ : Type u} {σ α β : Type v}

/-- The program has not returned. -/
def hangs : Program φ σ α := fun s => .ok (none, s)

instance monad : Monad (Program φ σ) where
  pure value := fun s => .ok (some value, s)
  bind program next := fun s =>
    match program s with
    | .error failure => .error failure
    | .ok (none, s) => .ok (none, s)
    | .ok (some value, s) => next value s

/-- The program returns from a state, with a result and a state that satisfy `post`. -/
def Returns (program : Program φ σ α) (s : σ) (post : α → σ → Prop) : Prop :=
  ∃ value s', program s = .ok (some value, s') ∧ post value s'

variable {program : Program φ σ α} {next : α → Program φ σ β} {s : σ} {post : β → σ → Prop}
  {middle weaker : α → σ → Prop}

theorem returns_pure {value : β} (holds : post value s) :
    Returns (pure value : Program φ σ β) s post :=
  ⟨value, s, rfl, holds⟩

theorem returns_pure_bind {value : α} (rest : Returns (next value) s post) :
    Returns (pure value >>= next) s post :=
  rest

theorem Returns.bind (first : Returns program s middle)
    (rest : ∀ value s', middle value s' → Returns (next value) s' post) :
    Returns (program >>= next) s post := by
  obtain ⟨value, s', returned, holds⟩ := first
  obtain ⟨result, s'', returned', holds'⟩ := rest value s' holds
  refine ⟨result, s'', ?_, holds'⟩
  simp only [Bind.bind, returned, returned']

theorem Returns.mono (returns : Returns program s middle)
    (implied : ∀ value s', middle value s' → weaker value s') : Returns program s weaker := by
  obtain ⟨value, s', returned, holds⟩ := returns
  exact ⟨value, s', returned, implied value s' holds⟩

/-! ## One call after another -/

section Each

variable {θ ι ο κ : Type v}

/-- Calls on an object, one after another, with their results. -/
def each (call : ι → θ → Program φ σ (ο × θ)) : List ι → θ → Program φ σ (List ο × θ)
  | [], object => pure ([], object)
  | input :: later, object => do
      let first ← call input object
      let rest ← each call later first.2
      pure (first.1 :: rest.1, rest.2)

open Transition

/-- A machine says what the calls return, if every call has the machine's reply and keeps a
relation to the machine's state.  A call may use up a share of a budget. -/
theorem returns_each {call : ι → θ → Program φ σ (ο × θ)} {machine : Machine κ ι ο}
    {guard : κ → ι → Prop} {related : κ → θ → σ → Prop} {budget : σ → Nat} {cost : Nat}
    (step : ∀ state input object s, related state object s → guard state input →
      cost ≤ budget s → Returns (call input object) s fun result s' =>
        budget s ≤ budget s' + cost ∧ result.1 = machine.reply state input ∧
          related (machine.next state input) result.2 s')
    {state : κ} {inputs : List ι} {object : θ} {s : σ} (initial : related state object s)
    (guarded : machine.Along guard state inputs) (enough : cost * inputs.length ≤ budget s) :
    Returns (each call inputs object) s fun result s' =>
      result.1 = machine.replies state inputs ∧
        related (machine.run state inputs) result.2 s' := by
  induction inputs generalizing state object s with
  | nil => exact returns_pure ⟨rfl, initial⟩
  | cons input later ih =>
      rw [List.length_cons, Nat.mul_succ] at enough
      refine (step state input object s initial guarded.1 (by omega)).bind ?_
      rintro ⟨reply, object'⟩ s' ⟨rest, same, kept⟩
      refine (ih kept guarded.2 (by omega)).bind ?_
      rintro ⟨replies, object''⟩ s'' ⟨sameLater, keptLater⟩
      exact returns_pure ⟨congrArg₂ List.cons same sameLater, keptLater⟩

end Each

end Program
