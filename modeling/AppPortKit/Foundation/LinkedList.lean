import Mathlib.Data.Finset.Card
import Mathlib.Data.Finset.Range
import Mathlib.Logic.Function.Basic

/-!
# Linked lists in a heap

A heap maps addresses to nodes, and a node may point to a next one.  `Linked` reads
such a list as a list of addresses with the items their nodes carry.  The list an
address starts is unique, so it has no cycle, and it does not notice writes to
other addresses.
-/

universe u v

namespace LinkedList

variable {α : Type u} {β : Type v} {next : α → Option Nat} {carries : α → β → Prop}

/-- The nodes from an address to the end of the list, with the items they carry. -/
def Linked (next : α → Option Nat) (carries : α → β → Prop) (cells : Nat → Option α) :
    Option Nat → List (Nat × β) → Prop
  | head, [] => head = none
  | head, (address, item) :: rest =>
      head = some address ∧ ∃ node, cells address = some node ∧ carries node item ∧
        Linked next carries cells (next node) rest

/-- The addresses of a list. -/
def addresses (items : List (Nat × β)) : List Nat := items.map Prod.fst

@[simp] theorem addresses_nil : addresses ([] : List (Nat × β)) = [] := rfl

@[simp] theorem addresses_cons (entry : Nat × β) (rest : List (Nat × β)) :
    addresses (entry :: rest) = entry.1 :: addresses rest := rfl

@[simp] theorem addresses_append (front back : List (Nat × β)) :
    addresses (front ++ back) = addresses front ++ addresses back := List.map_append

namespace Linked

variable {cells cells' : Nat → Option α} {head : Option Nat} {items : List (Nat × β)}

/-- Only the nodes of the list matter. -/
theorem congr (linked : Linked next carries cells head items)
    (same : ∀ address ∈ addresses items, cells' address = cells address) :
    Linked next carries cells' head items := by
  induction items generalizing head with
  | nil => exact linked
  | cons entry rest ih =>
      obtain ⟨start, node, stored, carried, tail⟩ := linked
      refine ⟨start, node, ?_, carried, ih tail fun address member => ?_⟩
      · rw [same entry.1 (List.mem_cons_self ..), stored]
      · exact same address (List.mem_cons_of_mem _ member)

/-- A write elsewhere does not change the list. -/
theorem update (linked : Linked next carries cells head items) {address : Nat}
    (elsewhere : address ∉ addresses items) (node : Option α) :
    Linked next carries (Function.update cells address node) head items := by
  apply linked.congr
  intro other member
  apply Function.update_of_ne
  rintro rfl
  exact elsewhere member

/-- Two readings of one list have the same addresses. -/
theorem unique {others : List (Nat × β)} (linked : Linked next carries cells head items)
    (other : Linked next carries cells head others) : addresses items = addresses others := by
  induction items generalizing head others with
  | nil =>
      cases others with
      | nil => rfl
      | cons entry rest => exact absurd (linked.symm.trans other.1) nofun
  | cons entry rest ih =>
      obtain ⟨start, node, stored, _, tail⟩ := linked
      cases others with
      | nil => exact absurd (other.symm.trans start) nofun
      | cons entry' rest' =>
          obtain ⟨start', node', stored', _, tail'⟩ := other
          have sameAddress : entry.1 = entry'.1 := Option.some.inj (start.symm.trans start')
          have sameNode : node = node' := by
            rw [sameAddress, stored'] at stored
            exact (Option.some.inj stored).symm
          rw [← sameNode] at tail'
          rw [addresses_cons, addresses_cons, sameAddress, ih tail tail']

/-- The list from one of its nodes on. -/
theorem suffix {entry : Nat × β} {front back : List (Nat × β)}
    (linked : Linked next carries cells head (front ++ entry :: back)) :
    Linked next carries cells (some entry.1) (entry :: back) := by
  induction front generalizing head with
  | nil =>
      obtain ⟨_, rest⟩ := linked
      exact ⟨rfl, rest⟩
  | cons first front ih =>
      obtain ⟨_, _, _, _, tail⟩ := linked
      exact ih tail

/-- A list that ends has no cycle. -/
theorem nodup (linked : Linked next carries cells head items) : (addresses items).Nodup := by
  induction items generalizing head with
  | nil => exact List.nodup_nil
  | cons entry rest ih =>
      have whole := linked
      obtain ⟨start, _, _, _, tail⟩ := linked
      refine List.nodup_cons.mpr ⟨fun again => ?_, ih tail⟩
      -- If the address came again, the list from there on would be the whole list.
      obtain ⟨repeated, member, same⟩ := List.mem_map.mp again
      obtain ⟨front, back, split⟩ := List.append_of_mem member
      rw [split] at tail
      have later := tail.suffix
      rw [same, ← start] at later
      have lengths := congrArg List.length (whole.unique later)
      rw [split] at lengths
      simp only [addresses_cons, addresses_append, List.length_cons, List.length_append]
        at lengths
      omega

/-- A list of addresses below a bound is no longer than the bound. -/
theorem length_le (linked : Linked next carries cells head items) {bound : Nat}
    (below : ∀ address ∈ addresses items, address < bound) : items.length ≤ bound := by
  have subset : (addresses items).toFinset ⊆ Finset.range bound := by
    intro address member
    exact Finset.mem_range.mpr (below address (List.mem_toFinset.mp member))
  have card := Finset.card_le_card subset
  rwa [List.toFinset_card_of_nodup linked.nodup, addresses, List.length_map,
    Finset.card_range] at card

end Linked

end LinkedList
