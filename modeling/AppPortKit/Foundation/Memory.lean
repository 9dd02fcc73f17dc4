import Mathlib.Data.List.Basic

/-!
# Contiguous memory

A block of memory is the list of its cells.  Data that is stored replaces the cells from an
address on, and data stored piece by piece at consecutive addresses is stored as a whole.
-/

universe u

namespace Memory

variable {α : Type u} {memory data more : List α} {start : Nat}

/-- The block with data in the cells from `start` on. -/
def overwrite (memory : List α) (start : Nat) (data : List α) : List α :=
  memory.take start ++ data ++ memory.drop (start + data.length)

theorem length_overwrite (fits : start + data.length ≤ memory.length) :
    (overwrite memory start data).length = memory.length := by
  simp only [overwrite, List.length_append, List.length_take, List.length_drop]
  omega

@[simp] theorem overwrite_nil (memory : List α) (start : Nat) :
    overwrite memory start [] = memory := by
  simp [overwrite]

/-- Two pieces of data at consecutive addresses. -/
theorem overwrite_overwrite (fits : start + data.length ≤ memory.length) :
    overwrite (overwrite memory start data) (start + data.length) more =
      overwrite memory start (data ++ more) := by
  have front : (memory.take start ++ data).length = start + data.length := by
    rw [List.length_append, List.length_take]
    omega
  have behind : (overwrite memory start data).drop (start + data.length + more.length) =
      memory.drop (start + (data ++ more).length) := by
    rw [overwrite, List.drop_append, List.drop_eq_nil_of_le (by omega), front, List.drop_drop,
      List.nil_append, List.length_append]
    congr 1
    omega
  rw [overwrite, behind, overwrite, List.take_left' front, overwrite, List.append_assoc _ data]

theorem take_overwrite_zero (memory data : List α) :
    (overwrite memory 0 data).take data.length = data := by
  simp [overwrite]

/-- Data replaces the part of a block that is as long as it is. -/
theorem overwrite_middle {front part : List α} (rest : List α) (here : front.length = start)
    (same : part.length = data.length) :
    overwrite (front ++ (part ++ rest)) start data = front ++ (data ++ rest) := by
  subst here
  simp [overwrite, ← same]

theorem overwrite_all (same : memory.length = data.length) : overwrite memory 0 data = data := by
  simp [overwrite, same]

end Memory
