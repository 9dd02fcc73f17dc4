import Mathlib.Algebra.GroupWithZero.Nat
import Mathlib.Data.List.Induction
import Mathlib.Logic.Function.Basic

/-!
# Sector stores

A store of fixed-width sectors, seen both as the sectors a device transfers and
as the flat array of cells they make up.  A partial overwrite reads a sector,
splices the new cells into it and writes it back; the lemmas below say what
that does to the flat array.  A log of sector writes replays to a store, so a
statement about every intermediate image is a statement about prefixes of it.
-/

namespace SectorStore

universe u

/-- The contents of one sector. -/
abbrev Sector (α : Type u) (width : Nat) := Fin width → α

/-- A store maps sector numbers to contents. -/
abbrev Store (α : Type u) (width : Nat) := Nat → Sector α width

variable {α : Type u} {width : Nat}

/-- Replace `count` cells of a sector from `offset` on. -/
def splice (sector : Sector α width) (offset count : Nat) (source : Nat → α) :
    Sector α width :=
  fun index =>
    if offset ≤ index.val ∧ index.val < offset + count then
      source (index.val - offset)
    else
      sector index

/-- Cells outside the spliced range do not matter when the range is the whole
sector. -/
theorem splice_full (left right : Sector α width) (source : Nat → α) :
    splice left 0 width source = splice right 0 width source := by
  funext index
  simp [splice, index.isLt]

/-- Apply a log of sector writes, oldest first. -/
def replay (store : Store α width) (log : List (Nat × Sector α width)) :
    Store α width :=
  log.foldl (fun current write => Function.update current write.1 write.2) store

@[simp] theorem replay_nil (store : Store α width) : replay store [] = store := rfl

@[simp] theorem replay_append (store : Store α width)
    (front back : List (Nat × Sector α width)) :
    replay store (front ++ back) = replay (replay store front) back := by
  simp [replay, List.foldl_append]

@[simp] theorem replay_singleton (store : Store α width)
    (write : Nat × Sector α width) :
    replay store [write] = Function.update store write.1 write.2 := rfl

/-- A sector no write names keeps its contents. -/
theorem replay_of_forall_ne {store : Store α width}
    {log : List (Nat × Sector α width)} {number : Nat}
    (other : ∀ write ∈ log, write.1 ≠ number) :
    replay store log number = store number := by
  induction log generalizing store with
  | nil => rfl
  | cons write rest ih =>
      have headOther := other write (by simp)
      have tailOther : ∀ later ∈ rest, later.1 ≠ number := by
        intro later membership
        exact other later (by simp [membership])
      calc replay store (write :: rest) number
          = replay (Function.update store write.1 write.2) rest number := rfl
        _ = Function.update store write.1 write.2 number := ih tailOther
        _ = store number := Function.update_of_ne headOther.symm _ _

/-- After a log, a sector holds what it held before or what some write put
there. -/
theorem replay_cases (store : Store α width) (log : List (Nat × Sector α width))
    (number : Nat) :
    replay store log number = store number ∨
      ∃ write ∈ log, write.1 = number ∧ replay store log number = write.2 := by
  induction log using List.reverseRecOn with
  | nil => exact .inl rfl
  | append_singleton rest write ih =>
      by_cases same : write.1 = number
      · refine .inr ⟨write, by simp, same, ?_⟩
        simp [← same]
      · have kept : replay store (rest ++ [write]) number = replay store rest number := by
          simp [Function.update_of_ne (Ne.symm same)]
        rw [kept]
        rcases ih with unchanged | ⟨earlier, membership, named, held⟩
        · exact .inl unchanged
        · exact .inr ⟨earlier, by simp [membership], named, held⟩

section Cells

variable [positive : Fact (0 < width)]

/-- Where an address falls in its sector. -/
def place (width : Nat) [Fact (0 < width)] (address : Nat) : Fin width :=
  ⟨address % width, Nat.mod_lt address Fact.out⟩

@[simp] theorem val_place (address : Nat) : (place width address).val = address % width := rfl

/-- The cell at an address of the flat array. -/
def cell (store : Store α width) (address : Nat) : α :=
  store (address / width) (place width address)

/-- A store is determined by its cells. -/
theorem ext_cell {store other : Store α width}
    (agree : ∀ address, cell store address = cell other address) : store = other := by
  funext number index
  have same := agree (width * number + index.val)
  have here : place width (width * number + index.val) = index := by
    simp [Fin.ext_iff, Nat.mod_eq_of_lt index.isLt]
  rwa [cell, cell, Nat.mul_add_div positive.out, Nat.div_eq_of_lt index.isLt, Nat.add_zero, here]
    at same

/-- A cell of the sector that contains an address. -/
theorem cell_add {store : Store α width} {base index : Nat}
    (fits : base % width + index < width) :
    cell store (base + index) =
      store (base / width) (place width (base % width + index)) := by
  have sameSector : (base + index) / width = base / width := by
    rw [← Nat.div_add_mod base width, Nat.add_assoc, Nat.mul_add_div positive.out,
      Nat.mul_add_div positive.out, Nat.div_eq_of_lt fits,
      Nat.div_eq_of_lt (Nat.mod_lt _ positive.out)]
  have sameIndex : place width (base + index) =
      place width (base % width + index) := by
    simp [Fin.ext_iff]
  rw [cell, sameSector, sameIndex]

/-- Overwriting a sector leaves the cells of the others alone. -/
theorem cell_update_of_ne {store : Store α width} {number address : Nat}
    (sector : Sector α width) (other : address / width ≠ number) :
    cell (Function.update store number sector) address = cell store address := by
  simp [cell, Function.update_of_ne other]

/-- Writing back a spliced sector changes exactly the spliced cells. -/
theorem cell_update_splice (store : Store α width) {base count : Nat}
    (fits : base % width + count ≤ width) (source : Nat → α) (address : Nat) :
    cell (Function.update store (base / width)
        (splice (store (base / width)) (base % width) count source)) address =
      if base ≤ address ∧ address < base + count then source (address - base)
      else cell store address := by
  have baseSplit := Nat.div_add_mod base width
  have addressSplit := Nat.div_add_mod address width
  have addressBound := Nat.mod_lt address positive.out
  by_cases same : address / width = base / width
  · rw [same] at addressSplit
    have placed : (place width address).val = address % width := val_place address
    simp only [cell, same, Function.update_self, splice]
    by_cases inside : base ≤ address ∧ address < base + count
    · rw [if_pos inside, if_pos (by omega)]
      congr 1
      omega
    · rw [if_neg inside, if_neg (by omega)]
  · rw [cell_update_of_ne _ same, if_neg]
    rintro ⟨lower, upper⟩
    -- An address between `base` and the end of its sector lies in that sector.
    have least : base / width ≤ address / width := Nat.div_le_div_right lower
    have greater : base / width + 1 ≤ address / width := by omega
    have scaled := Nat.mul_le_mul_left width greater
    rw [Nat.mul_add, Nat.mul_one] at scaled
    omega

/-- Replace one cell. -/
def poke (store : Store α width) (address : Nat) (value : α) : Store α width :=
  Function.update store (address / width)
    (Function.update (store (address / width)) (place width address) value)

theorem cell_poke (store : Store α width) (address : Nat) (value : α) (other : Nat) :
    cell (poke store address value) other =
      if other = address then value else cell store other := by
  by_cases sector : other / width = address / width
  · by_cases index : place width other = place width address
    · have same : other = address := by
        have offsets : other % width = address % width := by simpa [Fin.ext_iff] using index
        rw [← Nat.div_add_mod other width, ← Nat.div_add_mod address width, sector, offsets]
      rw [if_pos same, same, cell, poke, Function.update_self, Function.update_self]
    · have different : other ≠ address := fun same => index (same ▸ rfl)
      rw [if_neg different, cell, poke, sector, Function.update_self,
        Function.update_of_ne index, cell, sector]
  · have different : other ≠ address := fun same => sector (same ▸ rfl)
    rw [if_neg different, poke, cell_update_of_ne _ sector]

/-- Cells of sectors a log does not write keep their contents. -/
theorem cell_replay_of_forall_ne {store : Store α width}
    {log : List (Nat × Sector α width)} {address : Nat}
    (other : ∀ write ∈ log, write.1 ≠ address / width) :
    cell (replay store log) address = cell store address := by
  rw [cell, replay_of_forall_ne other, cell]

end Cells

end SectorStore
