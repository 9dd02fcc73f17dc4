import AppPortKit.Heap.Bounds

/-!
# Alignment of mappings

Lengths are rounded up to pages and the pointer is not, so the addresses of mappings
are as aligned as the address the first of them starts at.  A pointer that wraps to null
is set to the end of the image once more, and starts over.
-/

namespace AppPortKit.Heap

open Transition

/-- An address at the start of a page. -/
def PageAligned (address : Nat) : Prop := address % 4096 = 0

instance (address : Nat) : Decidable (PageAligned address) := inferInstanceAs (Decidable (_ = _))

/-- The break is queried, or set to the start of a page. -/
def BreaksAtPages : Call → Prop
  | .brk addr => addr = 0 ∨ PageAligned addr.toNat
  | _ => True

instance : (call : Call) → Decidable (BreaksAtPages call)
  | .brk addr => inferInstanceAs (Decidable (addr = 0 ∨ PageAligned addr.toNat))
  | .mmap _ _ | .munmap _ _ => isTrue trivial

/-- A mapping starts at the start of a page. -/
def MapsPages (layout : Layout) (heap : Arena) : Call → Prop
  | .mmap len flags =>
      Succeeds (serve layout heap (.mmap len flags)).1 →
        PageAligned (serve layout heap (.mmap len flags)).1.toNat
  | _ => True

instance (layout : Layout) (heap : Arena) :
    (call : Call) → Decidable (MapsPages layout heap call)
  | .mmap len flags =>
      inferInstanceAs (Decidable (Succeeds (serve layout heap (.mmap len flags)).1 →
        PageAligned (serve layout heap (.mmap len flags)).1.toNat))
  | .brk _ | .munmap _ _ => isTrue trivial

/-- A mapping that is granted is not made from the end of the image, unless that is the
start of a page. -/
def MapsAfterBreak (layout : Layout) (heap : Arena) : Call → Prop
  | .mmap len flags =>
      flags &&& mapAnonymous ≠ 0 → 0 < len → Granted layout heap (roundUp len) →
        PageAligned layout.bssStop.toNat ∨ pointer layout heap ≠ layout.bssStop.toNat
  | _ => True

instance (layout : Layout) (heap : Arena) :
    (call : Call) → Decidable (MapsAfterBreak layout heap call)
  | .mmap len flags =>
      inferInstanceAs (Decidable (flags &&& mapAnonymous ≠ 0 → 0 < len →
        Granted layout heap (roundUp len) →
          PageAligned layout.bssStop.toNat ∨ pointer layout heap ≠ layout.bssStop.toNat))
  | .brk _ | .munmap _ _ => isTrue trivial

/-- The pointer is at the end of the image or at the start of a page. -/
def Stepped (layout : Layout) (heap : Arena) : Prop :=
  pointer layout heap = layout.bssStop.toNat ∨ PageAligned (pointer layout heap)

/-- Whole pages above the start of a page is the start of a page, also around the top of
the address space. -/
theorem pageAligned_add_roundUp {address : Nat} (aligned : PageAligned address) (len : Int64) :
    PageAligned ((address + roundUp len) % 18446744073709551616) := by
  rw [PageAligned] at aligned ⊢
  rw [roundUp]
  omega

/-- No error is the start of a page. -/
theorem succeeds_of_pageAligned {address : UInt64} (aligned : PageAligned address.toNat) :
    Succeeds address := by
  constructor <;> intro same <;> rw [same] at aligned <;> exact absurd aligned (by decide)

namespace Stepped

variable {layout : Layout} {heap : Arena}

theorem boot : Stepped layout .boot := .inl rfl

variable (stepped : Stepped layout heap)

include stepped

theorem heapInit : Stepped layout (heapInit layout heap) := by
  rw [Stepped, pointer, heapInit_idem]
  exact stepped

/-- The pointer is no error, if the image ends a page below the top. -/
theorem succeeds (below : layout.bssStop.toNat < 18446744073709547520) :
    Succeeds (Heap.heapInit layout heap).heapCur := by
  rcases stepped with start | aligned
  · apply succeeds_of_lt
    rw [← pointer, start]
    exact below
  · exact succeeds_of_pageAligned aligned

variable (started : 0 < layout.bssStop.toNat)
  (below : layout.bssStop.toNat < 18446744073709547520)

include started below

/-- A mapping starts at a page exactly if it is not made from an unaligned end of the
image. -/
theorem mapsPages_iff (call : Call) :
    MapsPages layout heap call ↔ MapsAfterBreak layout heap call := by
  cases call with
  | brk addr => exact Iff.rfl
  | munmap addr size => exact Iff.rfl
  | mmap len flags =>
      simp only [MapsPages, MapsAfterBreak, serve]
      have outcome := mmapOutcome started heap len flags
      generalize sysMmap layout heap len flags = served at outcome ⊢
      cases outcome with
      | invalid contradicts =>
          exact iff_of_true (fun success => absurd success not_succeeds_enodev)
            fun anonymous positive => absurd positive (contradicts anonymous)
      | refused anonymous positive refused =>
          exact iff_of_true (fun success => absurd success not_succeeds_enomem)
            fun _ _ granted => absurd granted refused
      | granted anonymous positive granted =>
          rw [forall_prop_of_true (stepped.succeeds below), forall_prop_of_true anonymous,
            forall_prop_of_true positive, forall_prop_of_true granted, ← pointer]
          rcases stepped with start | aligned
          · rw [start]
            exact ⟨.inl, fun either => either.resolve_right fun moved => moved rfl⟩
          · exact iff_of_true aligned (or_iff_not_imp_right.mpr fun start =>
              not_not.mp start ▸ aligned)

theorem next {call : Call} (breaks : BreaksAtPages call) (maps : MapsPages layout heap call) :
    Stepped layout ((arenas layout).next heap call) := by
  cases call with
  | brk addr =>
      by_cases honoured : inArena layout (Heap.heapInit layout heap) addr
      · simp only [Machine.next, arenas, serve, sysBrk_of_inArena honoured]
        have moved : (Heap.heapInit layout
            { Heap.heapInit layout heap with heapCur := addr }).heapCur = addr :=
          heapInit_heapCur layout honoured.1
        right
        rw [pointer, moved]
        rcases breaks with query | aligned
        · rw [query]
          rfl
        · exact aligned
      · simp only [Machine.next, arenas, serve, sysBrk_of_not_inArena honoured]
        exact stepped.heapInit
  | munmap addr size => exact stepped
  | mmap len flags =>
      simp only [Machine.next, arenas, serve]
      simp only [MapsPages, serve] at maps
      have outcome := mmapOutcome started heap len flags
      generalize sysMmap layout heap len flags = served at outcome maps ⊢
      cases outcome with
      | invalid => exact stepped
      | refused => exact stepped.heapInit
      | granted anonymous positive granted =>
          have aligned := maps (stepped.succeeds below)
          refine (pointer_taken_cases positive layout heap).imp And.left fun moved => ?_
          rw [moved]
          exact pageAligned_add_roundUp aligned len

end Stepped

/-- With breaks at the starts of pages only, all mappings start at pages exactly if none
is granted while the pointer is at an unaligned end of the image. -/
theorem mappings_aligned_iff (layout : Layout) (calls : List Call)
    (started : 0 < layout.bssStop.toNat) (below : layout.bssStop.toNat < 2 ^ 64 - 4096)
    (breaks : ∀ call ∈ calls, BreaksAtPages call) :
    (arenas layout).Along (MapsPages layout) .boot calls ↔
      (arenas layout).Along (MapsAfterBreak layout) .boot calls := by
  have always : (arenas layout).Along (fun _ _ => True) .boot calls :=
    Machine.along_of_forall (fun _ _ => trivial) _ _
  have agree : ∀ heap call, Stepped layout heap → True ∧ BreaksAtPages call →
      (MapsPages layout heap call ↔ MapsAfterBreak layout heap call) :=
    fun _ call stepped _ => stepped.mapsPages_iff started below call
  apply Machine.along_iff_of_invariant agree _ Stepped.boot (always.and_of_forall_mem breaks)
  intro heap call stepped guard maps
  exact stepped.next started below guard.2 maps

/-- The end of the image as the linker script leaves it, sixteen bytes into a page, is
the address of a mapping made first. -/
theorem firstMapping_unaligned :
    (∀ call ∈ [Call.mmap 131072 0x22], BreaksAtPages call) ∧
      ¬(arenas sampleLayout).Along (MapsPages sampleLayout) .boot [.mmap 131072 0x22] := by
  decide

/-- With a break before it, the mapping is aligned. -/
theorem mappingAfterBreak_aligned :
    (arenas sampleLayout).Along (MapsPages sampleLayout) .boot
      [.brk 0, .brk 0xFFFF800000102000, .mmap 131072 0x22, .mmap 5000 0x22] :=
  (mappings_aligned_iff sampleLayout _ (by decide) (by decide) (by decide)).mpr (by decide)

end AppPortKit.Heap
