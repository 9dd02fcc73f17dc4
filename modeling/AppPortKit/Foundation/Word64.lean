import Mathlib.Data.Nat.Bitwise

/-!
# Sixty-four bit words

Machine words wrap around.  A proof about a computation that does not wrap
moves to natural numbers once, by the lemmas of this module.
-/

namespace Word64

/-- The words compared and added here are at most this many. -/
theorem toNat_lt_size (word : UInt64) : word.toNat < 18446744073709551616 :=
  word.toNat_lt

theorem toNat_add_of_lt {left right : UInt64}
    (bound : left.toNat + right.toNat < 18446744073709551616) :
    (left + right).toNat = left.toNat + right.toNat := by
  rw [UInt64.toNat_add, Nat.mod_eq_of_lt bound]

theorem toNat_mul_of_lt {left right : UInt64}
    (bound : left.toNat * right.toNat < 18446744073709551616) :
    (left * right).toNat = left.toNat * right.toNat := by
  rw [UInt64.toNat_mul, Nat.mod_eq_of_lt bound]

/-- A word read as a signed number. -/
def signed (word : UInt64) : Int := word.toInt64.toInt

theorem signed_of_lt {word : UInt64} (small : word.toNat < 9223372036854775808) :
    signed word = word.toNat := by
  change word.toBitVec.toInt = word.toNat
  rw [BitVec.toInt_eq_toNat_cond, if_pos]
  · rfl
  · change 2 * word.toNat < 2 ^ 64
    omega

theorem signed_neg_of_le {word : UInt64} (large : 9223372036854775808 ≤ word.toNat) :
    signed word < 0 := by
  change word.toBitVec.toInt < 0
  have bound := word.toBitVec.isLt
  have same : word.toBitVec.toNat = word.toNat := rfl
  rw [BitVec.toInt_eq_toNat_cond]
  split <;> omega

/-- Signed addition is exact while the sum is in range. -/
theorem toInt_add_of_mem {left right : Int64}
    (low : -9223372036854775808 ≤ left.toInt + right.toInt)
    (high : left.toInt + right.toInt < 9223372036854775808) :
    (left + right).toInt = left.toInt + right.toInt := by
  rw [Int64.toInt_add]
  apply Int.bmod_eq_of_le <;> omega

/-- A signed sum that is too large comes out negative. -/
theorem toInt_add_of_le {left right : Int64}
    (beyond : 9223372036854775808 ≤ left.toInt + right.toInt) :
    (left + right).toInt = left.toInt + right.toInt - 18446744073709551616 := by
  have leftBound := left.toInt_lt
  have rightBound := right.toInt_lt
  rw [Int64.toInt_add, Int.bmod_def]
  split <;> omega

/-- Signed subtraction is exact while the difference is in range. -/
theorem toInt_sub_of_mem {left right : Int64}
    (low : -9223372036854775808 ≤ left.toInt - right.toInt)
    (high : left.toInt - right.toInt < 9223372036854775808) :
    (left - right).toInt = left.toInt - right.toInt := by
  rw [Int64.toInt_sub]
  apply Int.bmod_eq_of_le <;> omega

/-- A signed word that is not negative is unchanged as an unsigned one. -/
theorem toNat_toUInt64 {word : Int64} (nonneg : 0 ≤ word.toInt) :
    (word.toUInt64.toNat : Int) = word.toInt := by
  change 0 ≤ word.toBitVec.toInt at nonneg
  change (word.toBitVec.toNat : Int) = word.toBitVec.toInt
  rw [BitVec.toInt_eq_toNat_of_msb (BitVec.msb_eq_false_iff_two_mul_lt.mpr ?_)]
  rw [BitVec.toInt_eq_toNat_cond] at nonneg
  have := word.toBitVec.isLt
  split at nonneg <;> omega

/-- Clearing the low bits of a number rounds it down to a multiple. -/
theorem and_two_pow_sub_two_pow {value : Nat} (bits width : Nat)
    (fits : value < 2 ^ bits) (narrow : width ≤ bits) :
    value &&& (2 ^ bits - 2 ^ width) = value / 2 ^ width * 2 ^ width := by
  have positive := Nat.two_pow_pos width
  have narrowPow : 2 ^ width ≤ 2 ^ bits := Nat.pow_le_pow_right (by omega) narrow
  have mask : 2 ^ bits - 2 ^ width = 2 ^ bits - ((2 ^ width - 1) + 1) := by omega
  apply Nat.eq_of_testBit_eq
  intro index
  rw [Nat.testBit_and, mask, Nat.testBit_two_pow_sub_succ (by omega),
    Nat.testBit_two_pow_sub_one, ← Nat.shiftLeft_eq, ← Nat.shiftRight_eq_div_pow,
    Nat.testBit_shiftLeft, Nat.testBit_shiftRight]
  by_cases low : index < width
  · simp [low]
  · have above : width ≤ index := by omega
    by_cases high : index < bits
    · simp [low, high, above]
    · have clear : value.testBit index = false := by
        apply Nat.testBit_lt_two_pow
        exact lt_of_lt_of_le fits (Nat.pow_le_pow_right (by omega) (by omega))
      simp [clear, above]

end Word64
