import AppPortKit.Foundation.Machine
import AppPortKit.Foundation.Word64

/-!
# The heap arena

The break and anonymous mappings are served from one bump pointer that starts
at the end of the image and is capped by the memory the machine was configured
with.  Addresses are 64-bit words.

A sum of pointers that leaves the address space has no meaning in C.  The program is
built without `-fwrapv`, and the model follows what the compiler makes of `heap_alloc`:
the sum that is compared with `heap_end` and stored wraps, and the test for overflow,
`p + n < p`, is reduced to the sign of `n`.
-/

namespace AppPortKit.Heap

open Transition

/-- What the linker and the kernel fix before the first heap call: the symbols
`__bss_stop` and `__image_base`, and the answer to `b_system(FREE_MEMORY, 0, 0)`
in MiB. -/
structure Layout where
  bssStop : UInt64
  imageBase : UInt64
  freeMemory : UInt64
  deriving Repr, DecidableEq

/-- The two static pointers of the arena; both are null until the first call. -/
structure Arena where
  heapCur : UInt64
  heapEnd : UInt64
  deriving Repr, DecidableEq

/-- The statics as the image is loaded. -/
def Arena.boot : Arena := { heapCur := 0, heapEnd := 0 }

/-- `MAP_ANONYMOUS`. -/
def mapAnonymous : UInt64 := 0x20

/-- `-ENODEV` and `-ENOMEM` as the words a system call returns. -/
def enodev : UInt64 := -19

@[inherit_doc enodev] def enomem : UInt64 := -12

variable (layout : Layout)

def heapInit (heap : Arena) : Arena :=
  if heap.heapCur ≠ 0 then
    heap
  else
    { heapCur := layout.bssStop
      heapEnd := layout.imageBase + layout.freeMemory * 1024 * 1024 }

/-- The range test of `sys_brk`, on an initialised arena. -/
def inArena (heap : Arena) (req : UInt64) : Prop :=
  layout.bssStop ≤ req ∧ req ≤ heap.heapEnd

instance (heap : Arena) (req : UInt64) : Decidable (inArena layout heap req) :=
  inferInstanceAs (Decidable (_ ∧ _))

def sysBrk (heap : Arena) (addr : UInt64) : UInt64 × Arena :=
  let heap := heapInit layout heap
  let heap := if inArena layout heap addr then { heap with heapCur := addr } else heap
  (heap.heapCur, heap)

/-- Null is the answer on exhaustion. -/
def heapAlloc (heap : Arena) (n : UInt64) : UInt64 × Arena :=
  let heap := heapInit layout heap
  let p := heap.heapCur
  -- The second test is what is left of `p + n < p`: the sign bit of `n`.
  if p + n > heap.heapEnd ∨ n ≥ 0x8000000000000000 then
    (0, heap)
  else
    (p, { heap with heapCur := p + n })

/-- Length rounded up to whole pages, in word arithmetic. -/
def roundToPages (len : UInt64) : UInt64 := (len + 4095) &&& ~~~4095

/-- The address, protection, descriptor and offset arguments are ignored by the
source. -/
def sysMmap (heap : Arena) (len : Int64) (flags : UInt64) : UInt64 × Arena :=
  if flags &&& mapAnonymous = 0 ∨ len ≤ 0 then
    (enodev, heap)
  else
    let (p, heap) := heapAlloc layout heap (roundToPages len.toUInt64)
    if p = 0 then (enomem, heap) else (p, heap)

def sysMunmap (heap : Arena) (_addr _len : UInt64) : UInt64 × Arena := (0, heap)

/-- The heap calls of the system call table. -/
inductive Call where
  | brk (addr : UInt64)
  | mmap (len : Int64) (flags : UInt64)
  | munmap (addr len : UInt64)
  deriving Repr, DecidableEq

def serve (heap : Arena) : Call → UInt64 × Arena
  | .brk addr => sysBrk layout heap addr
  | .mmap len flags => sysMmap layout heap len flags
  | .munmap addr len => sysMunmap heap addr len

/-! ## Specifications of the operations -/

@[simp] theorem heapInit_idem (heap : Arena) :
    heapInit layout (heapInit layout heap) = heapInit layout heap := by
  by_cases fresh : heap.heapCur = 0
  · by_cases low : layout.bssStop = 0 <;> simp [heapInit, fresh, low]
  · simp [heapInit, fresh]

/-- Once the pointer is where `heapInit` may leave it, initialising again does
not move it. -/
theorem heapInit_heapCur {heap : Arena} (above : layout.bssStop ≤ heap.heapCur) :
    (heapInit layout heap).heapCur = heap.heapCur := by
  by_cases fresh : heap.heapCur = 0
  · rw [fresh] at above
    have low : layout.bssStop = 0 := by simpa using above
    simp [heapInit, fresh, low]
  · simp [heapInit, fresh]

variable {layout}

/-- An honoured request becomes the pointer. -/
theorem sysBrk_of_inArena {heap : Arena} {addr : UInt64}
    (honoured : inArena layout (heapInit layout heap) addr) :
    sysBrk layout heap addr =
      (addr, { heapInit layout heap with heapCur := addr }) := by
  simp [sysBrk, honoured]

/-- A refused request reports the pointer and leaves it. -/
theorem sysBrk_of_not_inArena {heap : Arena} {addr : UInt64}
    (refused : ¬inArena layout (heapInit layout heap) addr) :
    sysBrk layout heap addr =
      ((heapInit layout heap).heapCur, heapInit layout heap) := by
  simp [sysBrk, refused]

theorem roundToPages_toNat {len : Int64} (positive : 0 < len) :
    (roundToPages len.toUInt64).toNat = (len.toUInt64.toNat + 4095) / 4096 * 4096 := by
  have nonneg : (0 : Int64) ≤ len := Int64.le_of_lt positive
  have small : len.toUInt64.toNat < 9223372036854775808 := by
    rw [Int64.toNat_toUInt64_of_le nonneg, ← Int64.toNat_toInt]
    have upper := Int64.toInt_lt len
    omega
  have sum : (len.toUInt64 + 4095).toNat = len.toUInt64.toNat + 4095 :=
    Word64.toNat_add_of_lt (by simp; omega)
  rw [roundToPages, UInt64.toNat_and, ← sum]
  exact Word64.and_two_pow_sub_two_pow 64 12 (len.toUInt64 + 4095).toNat_lt (by omega)

/-- A length rounded up to whole pages. -/
def roundUp (len : Int64) : Nat := (len.toInt.toNat + 4095) / 4096 * 4096

theorem roundToPages_eq_roundUp {len : Int64} (positive : 0 < len) :
    (roundToPages len.toUInt64).toNat = roundUp len := by
  have nonneg : 0 ≤ len.toInt := Int64.le_iff_toInt_le.mp (Int64.le_of_lt positive)
  have same := Word64.toNat_toUInt64 nonneg
  rw [roundToPages_toNat positive, roundUp]
  omega

/-- A mapping has at least one page. -/
theorem roundUp_pos {len : Int64} (positive : 0 < len) : 0 < roundUp len := by
  have page : 0 < len.toInt := Int64.lt_iff_toInt_lt.mp positive
  rw [roundUp]
  omega

/-! ## Granted lengths -/

/-- Where the arena goes on: `heap_cur`, once `heap_init` has run. -/
def pointer (layout : Layout) (heap : Arena) : Nat := (heapInit layout heap).heapCur.toNat

/-- The tests of `heap_alloc` in numbers: the sign bit of the length is clear, and the
wrapped sum is not beyond the end. -/
def Granted (layout : Layout) (heap : Arena) (n : Nat) : Prop :=
  n < 9223372036854775808 ∧
    (pointer layout heap + n) % 18446744073709551616 ≤ (heapInit layout heap).heapEnd.toNat

instance (layout : Layout) (heap : Arena) (n : Nat) : Decidable (Granted layout heap n) :=
  inferInstanceAs (Decidable (_ ∧ _))

/-- The arena after `n` bytes were taken from the pointer. -/
def taken (layout : Layout) (heap : Arena) (n : UInt64) : Arena :=
  { heapInit layout heap with heapCur := (heapInit layout heap).heapCur + n }

theorem heapAlloc_eq (layout : Layout) (heap : Arena) (n : UInt64) :
    heapAlloc layout heap n =
      if Granted layout heap n.toNat then
        ((heapInit layout heap).heapCur, taken layout heap n)
      else
        (0, heapInit layout heap) := by
  have test : ((heapInit layout heap).heapCur + n > (heapInit layout heap).heapEnd ∨
      n ≥ 0x8000000000000000) ↔ ¬Granted layout heap n.toNat := by
    have signBit : (0x8000000000000000 : UInt64).toNat = 9223372036854775808 := rfl
    rw [gt_iff_lt, UInt64.lt_iff_toNat_lt, UInt64.toNat_add, ge_iff_le, UInt64.le_iff_toNat_le,
      signBit, Granted, pointer]
    omega
  simp only [heapAlloc, test, ite_not]
  rfl

theorem taken_heapCur (layout : Layout) (heap : Arena) (n : UInt64) :
    (taken layout heap n).heapCur.toNat =
      (pointer layout heap + n.toNat) % 18446744073709551616 :=
  UInt64.toNat_add _ _

/-- Unless the sum wraps to null, taking bytes leaves an arena that needs no
initialisation. -/
theorem heapInit_taken {heap : Arena} {n : UInt64}
    (nonnull : 0 < (pointer layout heap + n.toNat) % 18446744073709551616) :
    heapInit layout (taken layout heap n) = taken layout heap n := by
  have address : (taken layout heap n).heapCur ≠ 0 := by
    intro null
    rw [← taken_heapCur, null] at nonnull
    exact absurd nonnull (by decide)
  rw [heapInit, if_pos address]

/-- Everything `sysMmap` can do: fail and leave the pointer, or take whole pages
from it.  Pages at address zero are taken and still reported as exhaustion. -/
theorem sysMmap_cases (layout : Layout) (heap : Arena) (len : Int64)
    (flags : UInt64) :
    (((sysMmap layout heap len flags).1 = enodev ∨
        (sysMmap layout heap len flags).1 = enomem) ∧
      heapInit layout (sysMmap layout heap len flags).2 = heapInit layout heap) ∨
    (flags &&& mapAnonymous ≠ 0 ∧ 0 < len ∧ Granted layout heap (roundUp len) ∧
      (sysMmap layout heap len flags).2 =
        taken layout heap (roundToPages len.toUInt64) ∧
      ((sysMmap layout heap len flags).1 = enomem ∨
        (sysMmap layout heap len flags).1 = (heapInit layout heap).heapCur)) := by
  by_cases refused : flags &&& mapAnonymous = 0 ∨ len ≤ 0
  · left
    simp only [sysMmap, if_pos refused]
    simp
  · obtain ⟨anonymous, nonpositive⟩ := not_or.mp refused
    have positive : 0 < len := Int64.not_le.mp nonpositive
    have allocated := heapAlloc_eq layout heap (roundToPages len.toUInt64)
    rw [roundToPages_eq_roundUp positive] at allocated
    by_cases granted : Granted layout heap (roundUp len)
    · right
      rw [if_pos granted] at allocated
      refine ⟨anonymous, positive, granted, ?_⟩
      by_cases null : (heapInit layout heap).heapCur = 0
      · simp [sysMmap, refused, allocated, null]
      · simp [sysMmap, refused, allocated, null]
    · left
      rw [if_neg granted] at allocated
      simp [sysMmap, refused, allocated]

/-- No mapping is granted by a sum that wraps: the sum stays in the address space, or the
call is refused all the same, for the sign of its length or since the wrapped sum is
beyond the end too. -/
def SumFits (layout : Layout) (heap : Arena) : Call → Prop
  | .mmap len flags =>
      flags &&& mapAnonymous ≠ 0 → 0 < len →
        pointer layout heap + roundUp len < 18446744073709551616 ∨
          ¬Granted layout heap (roundUp len)
  | _ => True

instance (layout : Layout) (heap : Arena) : (call : Call) → Decidable (SumFits layout heap call)
  | .mmap len flags =>
      inferInstanceAs (Decidable (flags &&& mapAnonymous ≠ 0 → 0 < len →
        pointer layout heap + roundUp len < 18446744073709551616 ∨
          ¬Granted layout heap (roundUp len)))
  | .brk _ | .munmap _ _ => isTrue trivial

section Fitting

variable {heap : Arena} {len : Int64} (positive : 0 < len)
  (fits : pointer layout heap + roundUp len < 18446744073709551616)

include positive fits

theorem heapInit_taken_pages :
    heapInit layout (taken layout heap (roundToPages len.toUInt64)) =
      taken layout heap (roundToPages len.toUInt64) := by
  apply heapInit_taken
  rw [roundToPages_eq_roundUp positive, Nat.mod_eq_of_lt fits]
  exact Nat.lt_of_lt_of_le (roundUp_pos positive) (Nat.le_add_left _ _)

/-- Without a wrap, taking pages moves the pointer by as many bytes. -/
theorem pointer_taken :
    pointer layout (taken layout heap (roundToPages len.toUInt64)) =
      pointer layout heap + roundUp len := by
  rw [pointer, heapInit_taken_pages positive fits, taken_heapCur,
    roundToPages_eq_roundUp positive, Nat.mod_eq_of_lt fits]

omit positive in
/-- Without a wrap, a granted length ends within the arena. -/
theorem Granted.room (granted : Granted layout heap (roundUp len)) :
    pointer layout heap + roundUp len ≤ (heapInit layout heap).heapEnd.toNat := by
  rw [← Nat.mod_eq_of_lt fits]
  exact granted.2

end Fitting

end AppPortKit.Heap
