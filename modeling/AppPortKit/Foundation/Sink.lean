import Mathlib.Data.List.Basic
import Mathlib.Order.Basic

/-!
# Sinks and what is held back from them

A sink takes items in order, possibly only so many.  A writer that buffers holds some items
back; `Delivered` relates what it was given to what the sink has and what is still held
back, and says whether items were lost.  The rules follow what such a writer does: it holds
more items back, hands over everything, or is cut short by the sink.
-/

universe u v

/-- A number of items is within a limit, if there is one. -/
def Fits (limit : Option Nat) (count : Nat) : Prop := ∀ most ∈ limit, count ≤ most

/-- The items within a limit. -/
def accepted {α : Type u} (limit : Option Nat) (items : List α) : List α :=
  limit.elim items items.take

section Limits

variable {α : Type u} {limit : Option Nat} {items : List α} {count : Nat}

instance decidableFits (limit : Option Nat) (count : Nat) : Decidable (Fits limit count) :=
  inferInstanceAs (Decidable (∀ most ∈ limit, count ≤ most))

theorem fits_some_iff {most : Nat} : Fits (some most) count ↔ count ≤ most :=
  ⟨fun fits => fits most rfl, by rintro inside _ ⟨rfl⟩; exact inside⟩

theorem accepted_none (items : List α) : accepted none items = items := rfl

theorem accepted_some (most : Nat) (items : List α) :
    accepted (some most) items = items.take most :=
  rfl

theorem accepted_of_fits (fits : Fits limit items.length) : accepted limit items = items := by
  cases limit with
  | none => rfl
  | some most => exact List.take_of_length_le (fits most rfl)

theorem exists_of_not_fits (beyond : ¬ Fits limit count) :
    ∃ most, limit = some most ∧ most < count := by
  cases limit with
  | none => exact absurd (fun _ among => nomatch among) beyond
  | some most =>
      exact ⟨most, rfl, Nat.lt_of_not_le fun inside => beyond (fits_some_iff.mpr inside)⟩

end Limits

/-- States that items can be put into, as far as there is room. -/
structure Sink (σ : Type u) (α : Type v) where
  Ready : σ → Prop
  room : σ → Option Nat
  Put : σ → σ → List α → Prop
  put_nil : ∀ s, Put s s []
  put_append : ∀ {s s' s'' items more}, Ready s → Put s s' items → Put s' s'' more →
    Fits (room s) (items.length + more.length) → Put s s'' (items ++ more)
  ready : ∀ {s s' items}, Ready s → Put s s' items → Fits (room s) items.length → Ready s'
  room_eq : ∀ {s s' items}, Ready s → Put s s' items → Fits (room s) items.length →
    room s' = (room s).map (· - items.length)

namespace Sink

variable {σ : Type u} {α : Type v}

/-- A writer was given `items` and holds back `pending`.  Either the sink has the others, or
it took what it had room for and the rest is lost. -/
inductive Delivered (sink : Sink σ α) (origin s : σ) : List α → List α → Bool → Prop where
  | kept {stored : List α} (pending : List α) (put : sink.Put origin s stored)
      (fits : Fits (sink.room origin) stored.length) :
      Delivered sink origin s (stored ++ pending) pending false
  | cut {stored dropped pending : List α} (put : sink.Put origin s stored)
      (full : sink.room origin = some stored.length) (nonempty : dropped ≠ [])
      (held : pending <:+ dropped) : Delivered sink origin s (stored ++ dropped) pending true

theorem fits_self {limit : Option Nat} {count : Nat} (full : limit = some count) :
    Fits limit count := by
  exact full ▸ fits_some_iff.mpr (Nat.le_refl count)

variable {sink : Sink σ α} {origin s s' : σ} {items pending more : List α} {lost : Bool}

namespace Delivered

theorem start (sink : Sink σ α) (origin : σ) : sink.Delivered origin origin [] [] false :=
  .kept [] (sink.put_nil origin) fun _ _ => Nat.zero_le _

theorem length_le (delivered : sink.Delivered origin s items pending lost) :
    pending.length ≤ items.length := by
  cases delivered with
  | kept _ put fits => exact (List.suffix_append _ _).length_le
  | cut put full nonempty held => exact (held.trans (List.suffix_append _ _)).length_le

theorem ready (delivered : sink.Delivered origin s items pending lost)
    (ready : sink.Ready origin) : sink.Ready s := by
  cases delivered with
  | kept _ put fits => exact sink.ready ready put fits
  | cut put full nonempty held => exact sink.ready ready put (fits_self full)

/-- Items are held back. -/
theorem hold (delivered : sink.Delivered origin s items pending lost) (more : List α) :
    sink.Delivered origin s (items ++ more) (pending ++ more) lost := by
  cases delivered with
  | kept _ put fits =>
      rw [List.append_assoc]
      exact .kept _ put fits
  | cut put full nonempty held =>
      rw [List.append_assoc]
      refine .cut put full (fun empty => nonempty (List.append_eq_nil_iff.mp empty).1) ?_
      obtain ⟨before, rfl⟩ := held
      exact ⟨before, (List.append_assoc _ _ _).symm⟩

/-- Once items are lost, others may be dropped as well. -/
theorem lose (delivered : sink.Delivered origin s items pending true) (more : List α) :
    sink.Delivered origin s (items ++ more) [] true := by
  cases delivered with
  | cut put full nonempty held =>
      rw [List.append_assoc]
      exact .cut put full (fun empty => nonempty (List.append_eq_nil_iff.mp empty).1)
        List.nil_suffix

/-- The sink takes what was held back and more. -/
theorem hand (delivered : sink.Delivered origin s items pending lost) (ready : sink.Ready origin)
    (remains : pending ++ more ≠ []) (put : sink.Put s s' (pending ++ more))
    (fits : Fits (sink.room s) (pending ++ more).length) :
    lost = false ∧ sink.Delivered origin s' (items ++ more) [] false := by
  cases delivered with
  | @kept stored _ put' fits' =>
      rw [sink.room_eq ready put' fits'] at fits
      have both : Fits (sink.room origin) (stored.length + (pending ++ more).length) := by
        intro most among
        have first := fits' most among
        have second := fits _ (Option.mem_map_of_mem _ among)
        omega
      have all := sink.put_append ready put' put both
      rw [← List.length_append] at both
      have taken : sink.Delivered origin s' (stored ++ (pending ++ more) ++ []) [] false :=
        .kept [] all both
      rw [List.append_nil] at taken
      rw [List.append_assoc]
      exact ⟨rfl, taken⟩
  | cut put' full _ _ =>
      have roomLeft := sink.room_eq ready put' (fits_self full)
      rw [full, Option.map_some, Nat.sub_self] at roomLeft
      have empty := fits 0 roomLeft
      exact absurd (List.length_eq_zero_iff.mp (Nat.le_zero.mp empty)) remains

/-- The sink takes only what it has room for. -/
theorem overrun (delivered : sink.Delivered origin s items pending lost)
    (ready : sink.Ready origin) {most : Nat} (limit : sink.room s = some most)
    (beyond : most < (pending ++ more).length)
    (put : sink.Put s s' ((pending ++ more).take most)) :
    sink.Delivered origin s' (items ++ more) [] true := by
  cases delivered with
  | @kept stored _ put' fits' =>
      rw [sink.room_eq ready put' fits'] at limit
      obtain ⟨whole, origin_eq, rfl⟩ := Option.map_eq_some_iff.mp limit
      have stored_le := fits' whole origin_eq
      have length : (stored ++ (pending ++ more).take (whole - stored.length)).length = whole := by
        rw [List.length_append, List.length_take]
        omega
      have full : sink.room origin =
          some (stored ++ (pending ++ more).take (whole - stored.length)).length := by
        rw [length]
        exact origin_eq
      have all := sink.put_append ready put' put (by
        rw [← List.length_append]
        exact fits_self full)
      have rest : (pending ++ more).drop (whole - stored.length) ≠ [] := by
        rw [Ne, List.drop_eq_nil_iff, Nat.not_le]
        exact beyond
      have cut := Delivered.cut all full rest List.nil_suffix
      rwa [List.append_assoc, List.take_append_drop, ← List.append_assoc] at cut
  | cut put' full nonempty _ =>
      have fits' := fits_self full
      rw [sink.room_eq ready put' fits', full, Option.map_some, Nat.sub_self,
        Option.some_inj] at limit
      subst limit
      rw [List.take_zero] at put
      have all := sink.put_append ready put' put fits'
      rw [List.append_nil] at all
      rw [List.append_assoc]
      exact .cut all full (fun empty => nonempty (List.append_eq_nil_iff.mp empty).1)
        List.nil_suffix

/-- A sink without a limit takes everything. -/
theorem of_unlimited (delivered : sink.Delivered origin s items pending lost)
    (unlimited : sink.room origin = none) :
    lost = false ∧ ∃ stored, stored ++ pending = items ∧ sink.Put origin s stored := by
  cases delivered with
  | kept _ put _ => exact ⟨rfl, _, rfl, put⟩
  | cut _ full _ _ => exact absurd (full.symm.trans unlimited) nofun

/-- Once nothing is held back, the sink has what it had room for. -/
theorem settled (delivered : sink.Delivered origin s items [] lost) :
    sink.Put origin s (accepted (sink.room origin) items) ∧
      (lost = false ↔ Fits (sink.room origin) items.length) := by
  cases delivered with
  | kept _ put fits =>
      rw [List.append_nil, accepted_of_fits fits]
      exact ⟨put, iff_of_true rfl fits⟩
  | cut put full nonempty _ =>
      rw [full, accepted_some, List.take_left]
      refine ⟨put, iff_of_false nofun fun fits => ?_⟩
      have within := fits _ rfl
      rw [List.length_append] at within
      exact nonempty (List.length_eq_zero_iff.mp (by omega))

end Delivered

end Sink
