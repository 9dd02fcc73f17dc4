import Mathlib.Init

/-!
# Computations that may fail

Inversion of sequences and maps in `Except`: what the parts did is read off the
result of the whole.  `FailsOnly` bounds the failures of a computation by those of its
parts.
-/

universe u v w

namespace Fallible

variable {ε : Type u} {α β : Type v}

theorem bind_eq_ok {result : Except ε α} {next : α → Except ε β} {value : β} :
    result >>= next = .ok value ↔ ∃ first, result = .ok first ∧ next first = .ok value := by
  cases result with
  | error failure => simp [bind, Except.bind]
  | ok first => simp [bind, Except.bind]

theorem map_eq_ok {result : Except ε α} {change : α → β} {value : β} :
    result.map change = .ok value ↔ ∃ first, result = .ok first ∧ change first = value := by
  cases result with
  | error failure => simp [Except.map]
  | ok first => simp [Except.map]

/-- A map over what a computation may yield beside its state. -/
theorem map_some_eq_ok {σ : Type v} {result : Except ε (Option α × σ)} {change : α → β}
    {value : β} {state : σ} :
    (result.map fun r => (r.1.map change, r.2)) = .ok (some value, state) ↔
      ∃ first, result = .ok (some first, state) ∧ change first = value := by
  rw [map_eq_ok]
  constructor
  · rintro ⟨⟨yielded, last⟩, same, mapped⟩
    obtain ⟨changed, rfl⟩ := Prod.mk.inj mapped
    obtain ⟨first, rfl, changes⟩ := Option.map_eq_some_iff.mp changed
    exact ⟨first, same, changes⟩
  · rintro ⟨first, same, rfl⟩
    exact ⟨_, same, rfl⟩

/-- The value of a computation, if it has one, has a property. -/
def Holds (property : α → Prop) (result : Except ε α) : Prop :=
  ∀ value, result = .ok value → property value

theorem holds_ok {property : α → Prop} {value : α} :
    Holds property (.ok value : Except ε α) ↔ property value :=
  ⟨fun holds => holds value rfl, fun holds _ same => Except.ok.inj same ▸ holds⟩

theorem holds_error {property : α → Prop} {failure : ε} :
    Holds property (.error failure : Except ε α) := nofun

/-- Every failure of a computation is one of these. -/
def FailsOnly (allowed : ε → Prop) (result : Except ε α) : Prop :=
  ∀ failure, result = .error failure → allowed failure

namespace FailsOnly

variable {allowed : ε → Prop} {result : Except ε α}

theorem ok (value : α) : FailsOnly allowed (.ok value) := nofun

theorem error {failure : ε} (holds : allowed failure) :
    FailsOnly allowed (.error failure : Except ε α) := by
  rintro _ ⟨⟩
  exact holds

theorem of_eq_ok {value : α} (succeeds : result = .ok value) : FailsOnly allowed result :=
  succeeds ▸ ok value

theorem bind {next : α → Except ε β} (first : FailsOnly allowed result)
    (rest : ∀ value, result = .ok value → FailsOnly allowed (next value)) :
    FailsOnly allowed (result >>= next) := by
  cases result with
  | error failure =>
      exact fun other failed => first other (by simpa [Bind.bind, Except.bind] using failed)
  | ok value => exact rest value rfl

/-- The first part fails. -/
theorem bind_error {failure : ε} {next : α → Except ε β} (failed : result = .error failure)
    (holds : allowed failure) : FailsOnly allowed (result >>= next) := by
  rw [failed]
  exact error holds

theorem map (fails : FailsOnly allowed result) (change : α → β) :
    FailsOnly allowed (result.map change) := by
  cases result with
  | error failure => exact fun other failed => fails other (by simpa [Except.map] using failed)
  | ok value => exact ok (change value)

theorem mono {more : ε → Prop} (fails : FailsOnly allowed result)
    (weaker : ∀ failure, allowed failure → more failure) : FailsOnly more result :=
  fun failure failed => weaker failure (fails failure failed)

end FailsOnly

end Fallible
