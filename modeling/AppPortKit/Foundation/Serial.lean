import Mathlib.Data.Nat.Bitwise
import Mathlib.Data.UInt

/-!
# Serial numbers

Positions in an unbounded sequence are numbered with 32 bits, from some number on.  Numbers
of positions that are less than 2^31 apart tell which position is first, and differences of
numbers tell how far the positions are apart.
-/

namespace Serial

/-- The number of a position, if position 0 has number `base`. -/
def number (base : UInt32) (position : Int) : UInt32 := base + UInt32.ofInt position

variable {base : UInt32} {position other : Int}

@[simp] theorem number_zero (base : UInt32) : number base 0 = base := by
  simp [number, UInt32.ofInt]

theorem toNat_ofInt (position : Int) :
    (UInt32.ofInt position).toNat = (position % 4294967296).toNat := by
  rw [UInt32.ofInt, UInt32.toNat_ofNat']
  omega

theorem number_add (base : UInt32) (position count : Int) :
    number base position + UInt32.ofInt count = number base (position + count) := by
  rw [number, number, UInt32.ofInt_add, UInt32.add_assoc]

theorem number_add_one (base : UInt32) (position : Int) :
    number base position + 1 = number base (position + 1) :=
  number_add base position 1

theorem number_sub_one (base : UInt32) (position : Int) :
    number base position - 1 = number base (position - 1) := by
  have minus : -1 = UInt32.ofInt (-1) := by decide
  rw [UInt32.sub_eq_add_neg, minus, number_add]
  rfl

theorem number_add_toUInt32 (base : UInt32) (position : Int) (count : UInt16) :
    number base position + count.toUInt32 = number base (position + count.toNat) := by
  rw [← number_add]
  congr 1
  apply UInt32.toNat_inj.mp
  have small := count.toNat_lt
  rw [toNat_ofInt, UInt16.toNat_toUInt32]
  omega

theorem toNat_sub_number (base : UInt32) (position other : Int) :
    (number base position - number base other).toNat = ((position - other) % 4294967296).toNat := by
  have low := base.toNat_lt
  rw [number, number, UInt32.toNat_sub, UInt32.toNat_add, UInt32.toNat_add, toNat_ofInt,
    toNat_ofInt]
  omega

/-- The highest bit of a difference is its sign. -/
theorem and_highBit_ne_zero (x : UInt32) :
    (x &&& 0x80000000 != 0) = decide (2147483648 ≤ x.toNat) := by
  have small := x.toNat_lt
  have power : (0x80000000 : UInt32).toNat = 2 ^ 31 := rfl
  rw [Bool.eq_iff_iff, bne_iff_ne, decide_eq_true_iff, Ne, ← UInt32.toNat_inj,
    UInt32.toNat_and, power, Nat.and_two_pow, Nat.testBit_eq_decide_div_mod_eq,
    UInt32.toNat_zero]
  by_cases high : x.toNat / 2 ^ 31 % 2 = 1
  · simp only [high, decide_true, Bool.toNat_true]
    omega
  · simp only [high, decide_false, Bool.toNat_false]
    omega

/-- A number tells its position among those nearby. -/
theorem number_inj (near : position < other + 4294967296 ∧ other < position + 4294967296) :
    number base position = number base other ↔ position = other := by
  constructor
  · intro same
    have distance := toNat_sub_number base position other
    rw [same, UInt32.sub_self, UInt32.toNat_zero] at distance
    omega
  · exact congrArg _

/-- How far a position is behind another. -/
theorem toNat_toUInt16_sub (behind : other ≤ position) (near : position < other + 65536) :
    ((number base position - number base other).toUInt16.toNat : Int) = position - other := by
  rw [UInt32.toNat_toUInt16, toNat_sub_number]
  omega

end Serial
