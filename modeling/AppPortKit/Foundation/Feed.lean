import Mathlib.Data.List.Infix

/-!
# Feeds

A feed is a sequence of items that one side produces bit by bit, until it closes it.  The
other side gets pieces of it, each for some position: items that the feed has there, and
perhaps the news that nothing comes after them.
-/

universe u

/-- What has been produced so far, and whether that is all. -/
structure Feed (α : Type u) where
  items : List α
  closed : Bool

namespace Feed

variable {α : Type u}

/-- The feed has these items at a position; nothing comes after them if they are `last`. -/
def Carries (feed : Feed α) (position : Nat) (items : List α) (last : Bool) : Prop :=
  ∃ before after, feed.items = before ++ items ++ after ∧ before.length = position ∧
    (last → feed.closed ∧ after = [])

namespace Carries

variable {feed : Feed α} {position count : Nat} {items : List α} {last : Bool}

theorem inside (carries : feed.Carries position items last) :
    position + items.length ≤ feed.items.length := by
  obtain ⟨before, after, whole, rfl, -⟩ := carries
  rw [whole, List.length_append, List.length_append]
  omega

/-- The last items of a feed. -/
theorem ends (carries : feed.Carries position items true) :
    feed.closed ∧ position + items.length = feed.items.length := by
  obtain ⟨before, after, whole, rfl, ends⟩ := carries
  obtain ⟨closed, rfl⟩ := ends rfl
  rw [whole, List.append_nil, List.length_append]
  exact ⟨closed, rfl⟩

theorem of_ends (carries : feed.Carries position items last) (closed : feed.closed)
    (total : feed.items.length ≤ position + items.length) : feed.Carries position items true := by
  obtain ⟨before, after, whole, rfl, -⟩ := carries
  refine ⟨before, after, whole, rfl, fun _ => ⟨closed, ?_⟩⟩
  rw [whole, List.length_append, List.length_append] at total
  exact List.length_eq_zero_iff.mp (by omega)

theorem take (carries : feed.Carries position items last) (count : Nat) :
    feed.Carries position (items.take count) false := by
  obtain ⟨before, after, whole, rfl, -⟩ := carries
  refine ⟨before, items.drop count ++ after, ?_, rfl, fun last => absurd last Bool.false_ne_true⟩
  rw [whole, List.append_assoc, List.append_assoc, ← List.append_assoc (items.take count),
    List.take_append_drop]

theorem drop (carries : feed.Carries position items last) (inside : count ≤ items.length) :
    feed.Carries (position + count) (items.drop count) last := by
  obtain ⟨before, after, whole, rfl, ends⟩ := carries
  refine ⟨before ++ items.take count, after, ?_, ?_, ends⟩
  · rw [whole, List.append_assoc before (items.take count), List.take_append_drop]
  · rw [List.length_append, List.length_take, Nat.min_eq_left inside]

/-- Items for the next position continue what there is. -/
theorem take_append (carries : feed.Carries position items last) :
    feed.items.take position ++ items = feed.items.take (position + items.length) := by
  obtain ⟨before, after, whole, rfl, -⟩ := carries
  rw [whole, List.append_assoc, List.take_left, ← List.length_append, ← List.append_assoc,
    List.take_left]

end Carries

end Feed
