import Mathlib.Algebra.Group.Fin.Basic
import Mathlib.Algebra.GroupWithZero.Nat
import Mathlib.Data.List.Basic
import Mathlib.Logic.Function.Basic

/-!
# Ring buffers

A queue kept in a fixed array, with the index of its first element and a count.  It is read
as the list of its elements, the oldest first.
-/

universe u

namespace Ring

variable {α : Type u} {n : Nat} [NeZero n]

/-- The elements of a ring, from the first one on. -/
def contents (cells : Fin n → α) (first : Fin n) (count : Nat) : List α :=
  (List.range count).map fun i => cells (first + Fin.ofNat n i)

@[simp] theorem contents_zero (cells : Fin n → α) (first : Fin n) :
    contents cells first 0 = [] := rfl

@[simp] theorem length_contents (cells : Fin n → α) (first : Fin n) (count : Nat) :
    (contents cells first count).length = count := by
  simp [contents]

/-- The first element is taken out by moving the start. -/
theorem contents_pop (cells : Fin n → α) (first : Fin n) (count : Nat) :
    contents cells first (count + 1) =
      cells first :: contents cells (first + 1) count := by
  have shift : ∀ i, first + Fin.ofNat n (i + 1) = first + 1 + Fin.ofNat n i := by
    intro i
    apply Fin.ext
    simp [Fin.val_add, Nat.add_assoc, Nat.add_comm i 1]
  rw [contents, List.range_succ_eq_map, List.map_cons, List.map_map]
  congr 1
  · simp
  · exact List.map_congr_left fun i _ => congrArg cells (shift i)

/-- The cell after the last element is none of the cells in use. -/
theorem last_ne (first : Fin n) {i count : Nat} (earlier : i < count) (room : count < n) :
    first + Fin.ofNat n i ≠ first + Fin.ofNat n count := by
  intro same
  have := congrArg Fin.val (add_right_injective first same)
  simp only [Fin.val_ofNat] at this
  rw [Nat.mod_eq_of_lt room, Nat.mod_eq_of_lt (by omega)] at this
  omega

/-- A new element goes to the cell after the last one. -/
theorem contents_push (cells : Fin n → α) (first : Fin n) {count : Nat} (room : count < n)
    (item : α) :
    contents (Function.update cells (first + Fin.ofNat n count) item) first (count + 1) =
      contents cells first count ++ [item] := by
  rw [contents, List.range_succ, List.map_append, List.map_singleton,
    Function.update_self, contents]
  congr 1
  apply List.map_congr_left
  intro i member
  exact Function.update_of_ne (last_ne first (List.mem_range.mp member) room) _ _

end Ring
