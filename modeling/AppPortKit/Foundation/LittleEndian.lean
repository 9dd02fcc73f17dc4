import Mathlib.Tactic.Ring
import Mathlib.Algebra.Order.Ring.Nat

/-!
# Little-endian numbers

A number of `count` bytes is stored least significant byte first.  Bytes are
given by a function of the offset from the start of the field, so a field of a
larger record needs no copying.
-/

namespace LittleEndian

/-- Value of the `count` bytes from offset zero. -/
def ofBytes : (count : Nat) → (Nat → UInt8) → Nat
  | 0, _ => 0
  | count + 1, bytes =>
      (bytes 0).toNat + 256 * ofBytes count fun offset => bytes (offset + 1)

/-- Byte of a number at an offset. -/
def byte (value offset : Nat) : UInt8 := UInt8.ofNat (value / 256 ^ offset)

/-- A field depends only on its own bytes. -/
theorem ofBytes_congr {count : Nat} {left right : Nat → UInt8}
    (agree : ∀ offset < count, left offset = right offset) :
    ofBytes count left = ofBytes count right := by
  induction count generalizing left right with
  | zero => rfl
  | succ count ih =>
      rw [ofBytes, ofBytes, agree 0 (Nat.succ_pos count)]
      rw [ih fun offset bound => agree (offset + 1) (Nat.succ_lt_succ bound)]

/-- Reading a number back from its bytes. -/
theorem ofBytes_byte {count value : Nat} (bound : value < 256 ^ count) :
    ofBytes count (byte value) = value := by
  induction count generalizing value with
  | zero => simp at bound; simp [ofBytes, bound]
  | succ count ih =>
      have rest : value / 256 < 256 ^ count := by
        rw [Nat.div_lt_iff_lt_mul (by omega), ← pow_succ]
        exact bound
      have shifted : (fun offset => byte value (offset + 1)) = byte (value / 256) := by
        funext offset
        rw [byte, byte, pow_succ', ← Nat.div_div_eq_div_mul]
      rw [ofBytes, shifted, ih rest, byte, UInt8.toNat_ofNat', pow_zero, Nat.div_one]
      omega

end LittleEndian
