import Mathlib.Logic.Basic

/-!
# Runs of deterministic machines

A component that serves one call at a time is a function from a state and an
input to a reply and the next state.  This module develops what holds along a
whole run of such a function: invariants, properties of every step taken, and
forward simulation by a possibly nondeterministic specification.

The rules take a guard on steps.  A guard is a property of the state before a
step and of its input, so the discipline a caller promises and the defects a
run must avoid are both expressed without instrumenting the state.
-/

namespace Transition

universe u v w x

/-- A deterministic machine: every input yields one reply and one next state. -/
structure Machine (σ : Type u) (ι : Type v) (ο : Type w) where
  step : σ → ι → ο × σ

namespace Machine

variable {σ : Type u} {ι : Type v} {ο : Type w} (machine : Machine σ ι ο)

/-- State after one input. -/
def next (state : σ) (input : ι) : σ := (machine.step state input).2

/-- Reply to one input. -/
def reply (state : σ) (input : ι) : ο := (machine.step state input).1

/-- State after a list of inputs, served in order. -/
def run : σ → List ι → σ
  | state, [] => state
  | state, input :: rest => run (machine.next state input) rest

/-- Replies to a list of inputs, in order. -/
def replies : σ → List ι → List ο
  | _, [] => []
  | state, input :: rest =>
      machine.reply state input :: replies (machine.next state input) rest

@[simp] theorem run_nil (state : σ) : machine.run state [] = state := rfl

@[simp] theorem run_cons (state : σ) (input : ι) (rest : List ι) :
    machine.run state (input :: rest) =
      machine.run (machine.next state input) rest := rfl

@[simp] theorem run_append (state : σ) (front back : List ι) :
    machine.run state (front ++ back) =
      machine.run (machine.run state front) back := by
  induction front generalizing state with
  | nil => rfl
  | cons input rest ih => exact ih (machine.next state input)

theorem replies_append (state : σ) (front back : List ι) :
    machine.replies state (front ++ back) =
      machine.replies state front ++ machine.replies (machine.run state front) back := by
  induction front generalizing state with
  | nil => rfl
  | cons input rest ih => exact congrArg _ (ih (machine.next state input))

/-- Every step of a run has a property of the state before it and its input. -/
def Along (property : σ → ι → Prop) : σ → List ι → Prop
  | _, [] => True
  | state, input :: rest =>
      property state input ∧ Along property (machine.next state input) rest

@[simp] theorem along_nil (property : σ → ι → Prop) (state : σ) :
    machine.Along property state [] := trivial

@[simp] theorem along_cons (property : σ → ι → Prop) (state : σ) (input : ι)
    (rest : List ι) :
    machine.Along property state (input :: rest) ↔
      property state input ∧
        machine.Along property (machine.next state input) rest := Iff.rfl

@[simp] theorem along_append (property : σ → ι → Prop) (state : σ)
    (front back : List ι) :
    machine.Along property state (front ++ back) ↔
      machine.Along property state front ∧
        machine.Along property (machine.run state front) back := by
  induction front generalizing state with
  | nil => simp
  | cons input rest ih => simp [ih, and_assoc]

instance decidableAlong (property : σ → ι → Prop)
    [decidableProperty : ∀ state input, Decidable (property state input)] :
    (state : σ) → (inputs : List ι) → Decidable (machine.Along property state inputs)
  | _, [] => isTrue trivial
  | state, input :: rest =>
      have := decidableAlong property (machine.next state input) rest
      inferInstanceAs (Decidable (property state input ∧
        machine.Along property (machine.next state input) rest))

variable {machine}

/-- A run along which a property fails has a first step without it. -/
theorem exists_first_of_not_along {property : σ → ι → Prop} {state : σ} {inputs : List ι}
    (fails : ¬machine.Along property state inputs) :
    ∃ front input back, inputs = front ++ input :: back ∧
      machine.Along property state front ∧ ¬property (machine.run state front) input := by
  induction inputs generalizing state with
  | nil => exact absurd trivial fails
  | cons input rest ih =>
      by_cases holds : property state input
      · obtain ⟨front, first, back, split, along, missing⟩ :=
          ih fun later => fails ⟨holds, later⟩
        exact ⟨input :: front, first, back, congrArg _ split, ⟨holds, along⟩, missing⟩
      · exact ⟨[], input, rest, rfl, trivial, holds⟩

/-- Two properties of every step join to one. -/
theorem Along.combine {first second both : σ → ι → Prop} {state : σ} {inputs : List ι}
    (one : machine.Along first state inputs) (two : machine.Along second state inputs)
    (joined : ∀ state input, first state input → second state input → both state input) :
    machine.Along both state inputs := by
  induction inputs generalizing state with
  | nil => trivial
  | cons input rest ih =>
      exact ⟨joined state input one.1 two.1, ih one.2 two.2⟩

/-- A property of every input joins a property of every step. -/
theorem Along.and_of_forall_mem {property : σ → ι → Prop} {admissible : ι → Prop}
    {state : σ} {inputs : List ι} (along : machine.Along property state inputs)
    (every : ∀ input ∈ inputs, admissible input) :
    machine.Along (fun state input => property state input ∧ admissible input)
      state inputs := by
  induction inputs generalizing state with
  | nil => trivial
  | cons input rest ih =>
      refine ⟨⟨along.1, every input (by simp)⟩, ih along.2 ?_⟩
      intro later membership
      exact every later (by simp [membership])

/-- What every guarded step preserves holds after every guarded run. -/
theorem run_invariant {invariant : σ → Prop} {guard : σ → ι → Prop}
    (preserved : ∀ state input, invariant state → guard state input →
      invariant (machine.next state input))
    {state : σ} {inputs : List ι} (initial : invariant state)
    (guarded : machine.Along guard state inputs) :
    invariant (machine.run state inputs) := by
  induction inputs generalizing state with
  | nil => exact initial
  | cons input rest ih =>
      exact ih (preserved state input initial guarded.1) guarded.2

/-- What holds of every step holds along every run. -/
theorem along_of_forall {property : σ → ι → Prop}
    (always : ∀ state input, property state input) (state : σ) (inputs : List ι) :
    machine.Along property state inputs := by
  induction inputs generalizing state with
  | nil => trivial
  | cons input rest ih => exact ⟨always state input, ih (machine.next state input)⟩

/-- Two runs on the same inputs: a relation between the states that every guarded
step keeps, with equal replies, holds to the end, and all replies are equal. -/
theorem lockstep {related : σ → σ → Prop} {guard : σ → ι → Prop}
    (matched : ∀ state other input, related state other → guard state input →
      machine.reply other input = machine.reply state input ∧
        related (machine.next state input) (machine.next other input))
    {state other : σ} {inputs : List ι} (initial : related state other)
    (guarded : machine.Along guard state inputs) :
    machine.replies other inputs = machine.replies state inputs ∧
      related (machine.run state inputs) (machine.run other inputs) := by
  induction inputs generalizing state other with
  | nil => exact ⟨rfl, initial⟩
  | cons input rest ih =>
      obtain ⟨same, kept⟩ := matched state other input initial guarded.1
      obtain ⟨later, last⟩ := ih kept guarded.2
      exact ⟨congrArg₂ List.cons same later, last⟩

/-- A property of single steps that follows from a preserved invariant holds of
every step of a guarded run. -/
theorem along_of_invariant {invariant : σ → Prop} {guard property : σ → ι → Prop}
    (preserved : ∀ state input, invariant state → guard state input →
      invariant (machine.next state input))
    (established : ∀ state input, invariant state → guard state input →
      property state input)
    {state : σ} {inputs : List ι} (initial : invariant state)
    (guarded : machine.Along guard state inputs) :
    machine.Along property state inputs := by
  induction inputs generalizing state with
  | nil => trivial
  | cons input rest ih =>
      exact ⟨established state input initial guarded.1,
        ih (preserved state input initial guarded.1) guarded.2⟩

/-- Two properties of single steps that agree wherever an invariant holds, which the
first of them keeps, hold along the same runs. -/
theorem along_iff_of_invariant {invariant : σ → Prop} {guard left right : σ → ι → Prop}
    (agree : ∀ state input, invariant state → guard state input →
      (left state input ↔ right state input))
    (preserved : ∀ state input, invariant state → guard state input → left state input →
      invariant (machine.next state input))
    {state : σ} {inputs : List ι} (initial : invariant state)
    (guarded : machine.Along guard state inputs) :
    machine.Along left state inputs ↔ machine.Along right state inputs := by
  induction inputs generalizing state with
  | nil => exact Iff.rfl
  | cons input rest ih =>
      rw [along_cons, along_cons, ← agree state input initial guarded.1]
      exact and_congr_right fun holds =>
        ih (preserved state input initial guarded.1 holds) guarded.2

end Machine

/-- A specification relates a state and an input to the outputs it allows and
the states they lead to. -/
structure Spec (τ : Type u) (ι : Type v) (ω : Type w) where
  step : τ → ι → ω → τ → Prop

/-- The specification allows a list of outputs for a list of inputs. -/
inductive Spec.Run {τ : Type u} {ι : Type v} {ω : Type w} (spec : Spec τ ι ω) :
    τ → List ι → List ω → τ → Prop where
  | nil (state : τ) : Spec.Run spec state [] [] state
  | cons {first middle last : τ} {input : ι} {rest : List ι} {output : ω}
      {outputs : List ω} :
      spec.step first input output middle →
      Spec.Run spec middle rest outputs last →
      Spec.Run spec first (input :: rest) (output :: outputs) last

/-- Forward simulation: if every guarded step is matched by a step of the
specification with the same observation, so is every guarded run. -/
theorem Machine.run_simulated {σ : Type u} {ι : Type v} {ο : Type w} {τ : Type x}
    {ω : Type w} {machine : Machine σ ι ο} {spec : Spec τ ι ω}
    {observe : ο → ω} {related : σ → τ → Prop} {guard : σ → ι → Prop}
    (matched : ∀ state abstract input, related state abstract →
      guard state input →
      ∃ abstract', spec.step abstract input (observe (machine.reply state input))
          abstract' ∧
        related (machine.next state input) abstract')
    {state : σ} {abstract : τ} {inputs : List ι} (initial : related state abstract)
    (guarded : machine.Along guard state inputs) :
    ∃ abstract', spec.Run abstract inputs
        ((machine.replies state inputs).map observe) abstract' ∧
      related (machine.run state inputs) abstract' := by
  induction inputs generalizing state abstract with
  | nil => exact ⟨abstract, .nil abstract, initial⟩
  | cons input rest ih =>
      obtain ⟨middle, stepped, relatedMiddle⟩ :=
        matched state abstract input initial guarded.1
      obtain ⟨last, ran, relatedLast⟩ := ih relatedMiddle guarded.2
      exact ⟨last, .cons stepped ran, relatedLast⟩

end Transition
