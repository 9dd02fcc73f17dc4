import Mathlib.Algebra.GroupWithZero.Nat
import Mathlib.Order.Nat
import Mathlib.Tactic.ByContra

/-!
# Strings and error numbers of the C library

The file system looks names up with the string functions of the vendored C
library, and reports failures with its error numbers.  A string is the bytes
before its terminator; a fixed-width field is a function of the offset.
-/

namespace AppPortKit.Libc

/-! ## Error numbers -/

def ENOENT : Int := 2
def EBADF : Int := 9
def EAGAIN : Int := 11
def ENOMEM : Int := 12
def EEXIST : Int := 17
def EINVAL : Int := 22
def EMFILE : Int := 24
def ENOSPC : Int := 28
def ESPIPE : Int := 29
def EAFNOSUPPORT : Int := 97
def EADDRINUSE : Int := 98
def ECONNRESET : Int := 104
def ETIMEDOUT : Int := 110
def ECONNREFUSED : Int := 111

/-! ## Strings -/

/-- The byte `'/'`. -/
def slash : UInt8 := 47

/-- A NUL-terminated string: the bytes before the terminator. -/
structure CString where
  bytes : List UInt8
  noNul : 0 ∉ bytes
  deriving DecidableEq

namespace CString

/-- The byte at an offset; the terminator stands at the length. -/
def char (string : CString) (offset : Nat) : UInt8 := string.bytes.getD offset 0

/-- The string after its first byte. -/
def tail (string : CString) : CString :=
  ⟨string.bytes.tail, fun membership => string.noNul (List.mem_of_mem_tail membership)⟩

/-- `strnlen(string, limit)`. -/
def strnlen (string : CString) (limit : Nat) : Nat := min string.bytes.length limit

/-- `strchr(string, byte) != NULL`, for a byte other than the terminator. -/
def strchr (string : CString) (byte : UInt8) : Bool := string.bytes.contains byte

theorem char_of_lt {string : CString} {offset : Nat}
    (bound : offset < string.bytes.length) :
    string.char offset = string.bytes[offset] := by
  simp [char, bound]

theorem char_of_ge {string : CString} {offset : Nat}
    (bound : string.bytes.length ≤ offset) : string.char offset = 0 := by
  simp [char, bound]

/-- Only the terminator is zero. -/
theorem char_eq_zero_iff (string : CString) (offset : Nat) :
    string.char offset = 0 ↔ string.bytes.length ≤ offset := by
  constructor
  · intro zero
    by_contra short
    rw [char_of_lt (by omega)] at zero
    exact string.noNul (zero ▸ List.getElem_mem _)
  · exact char_of_ge

/-- A string is determined by its bytes, terminator included. -/
theorem ext_char {left right : CString}
    (agree : ∀ offset ≤ left.bytes.length, left.char offset = right.char offset) :
    left = right := by
  have atEnd := agree left.bytes.length le_rfl
  rw [char_of_ge le_rfl, eq_comm, char_eq_zero_iff] at atEnd
  have sameLength : left.bytes.length = right.bytes.length := by
    by_contra different
    have zero := agree right.bytes.length (by omega)
    rw [(right.char_eq_zero_iff _).mpr le_rfl, char_eq_zero_iff] at zero
    omega
  obtain ⟨leftBytes, leftNoNul⟩ := left
  obtain ⟨rightBytes, rightNoNul⟩ := right
  congr 1
  apply List.ext_getElem sameLength
  intro offset leftBound rightBound
  have same := agree offset (Nat.le_of_lt leftBound)
  rwa [char_of_lt leftBound, char_of_lt rightBound] at same

end CString

/-- The loop of `strncmp` from an offset on, with `n` bytes left to compare. -/
def strncmpFrom (left right : Nat → UInt8) (offset : Nat) : (n : Nat) → Int
  | 0 => 0
  | n + 1 =>
      if left offset ≠ 0 ∧ right offset ≠ 0 ∧ n ≠ 0 ∧ left offset = right offset then
        strncmpFrom left right (offset + 1) n
      else
        ((left offset).toNat : Int) - (right offset).toNat

def strncmp (left right : Nat → UInt8) (n : Nat) : Int := strncmpFrom left right 0 n

/-- Two strings compare equal within `n` bytes exactly if they agree up to and
including the first terminator among those bytes. -/
theorem strncmpFrom_eq_zero_iff (left right : Nat → UInt8) (offset n : Nat) :
    strncmpFrom left right offset n = 0 ↔
      ∀ index < n, (∀ earlier < index, left (offset + earlier) ≠ 0) →
        left (offset + index) = right (offset + index) := by
  induction n generalizing offset with
  | zero => simp [strncmpFrom]
  | succ n ih =>
      rw [strncmpFrom]
      split
      next continues =>
        obtain ⟨leftNonzero, -, -, same⟩ := continues
        rw [ih]
        constructor
        · intro agree index bound before
          cases index with
          | zero => simpa using same
          | succ index =>
              have shifted := agree index (by omega) fun earlier earlierBound => by
                have := before (earlier + 1) (by omega)
                rwa [Nat.add_right_comm, Nat.add_assoc]
              rwa [Nat.add_right_comm, Nat.add_assoc] at shifted
        · intro agree index bound before
          have shifted := agree (index + 1) (by omega) fun earlier earlierBound => by
            cases earlier with
            | zero => simpa using leftNonzero
            | succ earlier =>
                have := before earlier (by omega)
                rwa [Nat.add_right_comm, Nat.add_assoc] at this
          rwa [Nat.add_right_comm, Nat.add_assoc]
      next stops =>
        constructor
        · intro equal index bound before
          have same : left offset = right offset := by
            apply UInt8.toNat_inj.mp
            omega
          cases index with
          | zero => simpa using same
          | succ index =>
              have leftNonzero : left offset ≠ 0 := by
                simpa using before 0 (by omega)
              exact absurd ⟨leftNonzero, same ▸ leftNonzero, by omega, same⟩ stops
        · intro agree
          have same : left offset = right offset := by
            simpa using agree 0 (by omega) (by simp)
          rw [same]
          omega

end AppPortKit.Libc
