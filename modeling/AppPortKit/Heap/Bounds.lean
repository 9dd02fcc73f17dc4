import AppPortKit.Heap.Regions

/-!
# Bounds of the arena

The arena lies near the top of the address space, where sums of words wrap.  This
module says what the calls should do in numbers that do not: the pointer stays in the
arena, a mapping is made exactly if there is room for it, and a failed call moves nothing.
They do so as long as no mapping is granted by a sum that wraps, and no longer.
-/

namespace AppPortKit.Heap

open Transition

/-- The heap as a machine over its calls. -/
def arenas (layout : Layout) : Machine Arena Call UInt64 := ⟨serve layout⟩

/-- The end of the configured memory. -/
def Layout.memoryEnd (layout : Layout) : Nat :=
  layout.imageBase.toNat + layout.freeMemory.toNat * 1048576

/-- The image is loaded above address zero, and the memory does not end beyond the
address space.  It may end below the end of the image. -/
structure Layout.Mapped (layout : Layout) : Prop where
  base : 0 < layout.imageBase.toNat
  image : layout.imageBase.toNat ≤ layout.bssStop.toNat
  noWrap : layout.memoryEnd < 18446744073709551616

theorem Layout.Mapped.started {layout : Layout} (mapped : layout.Mapped) :
    0 < layout.bssStop.toNat :=
  Nat.lt_of_lt_of_le mapped.base mapped.image

/-- The result of a mapping is an address. -/
def Succeeds (result : UInt64) : Prop := result ≠ enodev ∧ result ≠ enomem

instance (result : UInt64) : Decidable (Succeeds result) := inferInstanceAs (Decidable (_ ∧ _))

theorem not_succeeds_enodev : ¬Succeeds enodev := fun success => success.1 rfl

theorem not_succeeds_enomem : ¬Succeeds enomem := fun success => success.2 rfl

/-- An address a page below the top is not taken for an error. -/
theorem succeeds_of_lt {address : UInt64} (below : address.toNat < 18446744073709547520) :
    Succeeds address := by
  constructor <;> intro same <;> rw [same] at below <;> exact absurd below (by decide)

/-- Once the image ends above address zero, the pointer is never null. -/
theorem pointer_pos {layout : Layout} (started : 0 < layout.bssStop.toNat) (heap : Arena) :
    0 < pointer layout heap := by
  rw [pointer, heapInit]
  split
  next set => exact Nat.pos_of_ne_zero fun null => set (UInt64.toNat_inj.mp null)
  next => exact started

/-! ## Mappings -/

section Mapping

variable {layout : Layout} {heap : Arena} {len : Int64} {flags : UInt64}

theorem sysMmap_of_invalid (invalid : flags &&& mapAnonymous = 0 ∨ len ≤ 0) :
    sysMmap layout heap len flags = (enodev, heap) := by
  rw [sysMmap, if_pos invalid]

variable (anonymous : flags &&& mapAnonymous ≠ 0) (positive : 0 < len)

include anonymous positive

theorem sysMmap_of_refused (refused : ¬Granted layout heap (roundUp len)) :
    sysMmap layout heap len flags = (enomem, heapInit layout heap) := by
  rw [← roundToPages_eq_roundUp positive] at refused
  have valid : ¬(flags &&& mapAnonymous = 0 ∨ len ≤ 0) :=
    not_or.mpr ⟨anonymous, Int64.not_le.mpr positive⟩
  rw [sysMmap, if_neg valid, heapAlloc_eq, if_neg refused]
  rfl

theorem sysMmap_of_granted (nonnull : 0 < pointer layout heap)
    (granted : Granted layout heap (roundUp len)) :
    sysMmap layout heap len flags =
      ((heapInit layout heap).heapCur, taken layout heap (roundToPages len.toUInt64)) := by
  rw [← roundToPages_eq_roundUp positive] at granted
  have valid : ¬(flags &&& mapAnonymous = 0 ∨ len ≤ 0) :=
    not_or.mpr ⟨anonymous, Int64.not_le.mpr positive⟩
  have address : (heapInit layout heap).heapCur ≠ 0 := by
    intro null
    rw [pointer, null] at nonnull
    exact absurd nonnull (by decide)
  rw [sysMmap, if_neg valid, heapAlloc_eq, if_pos granted]
  exact if_neg address

omit anonymous positive

/-- The outcomes of `sys_mmap`, once the pointer is not null. -/
inductive MmapOutcome (layout : Layout) (heap : Arena) (len : Int64) (flags : UInt64) :
    UInt64 × Arena → Prop where
  | invalid (contradicts : flags &&& mapAnonymous ≠ 0 → ¬0 < len) :
      MmapOutcome layout heap len flags (enodev, heap)
  | refused (anonymous : flags &&& mapAnonymous ≠ 0) (positive : 0 < len)
      (refused : ¬Granted layout heap (roundUp len)) :
      MmapOutcome layout heap len flags (enomem, heapInit layout heap)
  | granted (anonymous : flags &&& mapAnonymous ≠ 0) (positive : 0 < len)
      (granted : Granted layout heap (roundUp len)) :
      MmapOutcome layout heap len flags
        ((heapInit layout heap).heapCur, taken layout heap (roundToPages len.toUInt64))

theorem mmapOutcome (started : 0 < layout.bssStop.toNat) (heap : Arena) (len : Int64)
    (flags : UInt64) : MmapOutcome layout heap len flags (sysMmap layout heap len flags) := by
  by_cases invalid : flags &&& mapAnonymous = 0 ∨ len ≤ 0
  · rw [sysMmap_of_invalid invalid]
    exact .invalid fun anonymous positive =>
      invalid.elim anonymous (Int64.not_le.mpr positive)
  · obtain ⟨anonymous, nonpositive⟩ := not_or.mp invalid
    have positive := Int64.not_le.mp nonpositive
    by_cases granted : Granted layout heap (roundUp len)
    · rw [sysMmap_of_granted anonymous positive (pointer_pos started heap) granted]
      exact .granted anonymous positive granted
    · rw [sysMmap_of_refused anonymous positive granted]
      exact .refused anonymous positive granted

include positive

/-- A sum that wraps to null has the arena initialised again. -/
theorem pointer_taken_cases (layout : Layout) (heap : Arena) :
    pointer layout (taken layout heap (roundToPages len.toUInt64)) = layout.bssStop.toNat ∧
        (pointer layout heap + roundUp len) % 18446744073709551616 = 0 ∨
      pointer layout (taken layout heap (roundToPages len.toUInt64)) =
        (pointer layout heap + roundUp len) % 18446744073709551616 := by
  have moved := taken_heapCur layout heap (roundToPages len.toUInt64)
  rw [roundToPages_eq_roundUp positive] at moved
  rcases Nat.eq_zero_or_pos
    ((pointer layout heap + roundUp len) % 18446744073709551616) with null | nonnull
  · left
    rw [null] at moved
    refine ⟨?_, null⟩
    rw [pointer, heapInit, if_neg (not_not.mpr (UInt64.toNat_inj.mp moved))]
  · right
    rw [pointer, heapInit_taken, moved]
    rw [roundToPages_eq_roundUp positive]
    exact nonnull

/-- The address of a mapping lies too far below the top to be taken for an error, unless
the sum wraps. -/
theorem succeeds_of_fits
    (fits : pointer layout heap + roundUp len < 18446744073709551616) :
    Succeeds (heapInit layout heap).heapCur := by
  have page : 0 < len.toInt := Int64.lt_iff_toInt_lt.mp positive
  apply succeeds_of_lt
  rw [pointer, roundUp] at fits
  omega

omit positive

/-- Where there is room, a length without a sign bit is granted. -/
theorem granted_of_room (signless : roundUp len < 9223372036854775808)
    (room : pointer layout heap + roundUp len ≤ (heapInit layout heap).heapEnd.toNat) :
    Granted layout heap (roundUp len) := by
  refine ⟨signless, ?_⟩
  have top := Word64.toNat_lt_size (heapInit layout heap).heapEnd
  rw [Nat.mod_eq_of_lt (Nat.lt_of_le_of_lt room top)]
  exact room

include positive

/-- Pages at an address that reads as an error are lost, since the pointer moves on. -/
theorem succeeds_or_moves (signless : roundUp len < 9223372036854775808) :
    Succeeds (heapInit layout heap).heapCur ∨
      pointer layout (taken layout heap (roundToPages len.toUInt64)) ≠ pointer layout heap := by
  refine or_iff_not_imp_left.mpr fun fails kept => ?_
  have positiveLength := roundUp_pos positive
  have pages : roundUp len % 4096 = 0 := Nat.mul_mod_left _ _
  have reported : pointer layout heap = enodev.toNat ∨ pointer layout heap = enomem.toNat := by
    rw [Succeeds, not_and_or, not_not, not_not] at fails
    exact fails.imp (congrArg UInt64.toNat) (congrArg UInt64.toNat)
  have offPage : pointer layout heap % 4096 ≠ 0 := by
    rcases reported with same | same <;> rw [same] <;> decide
  have small : pointer layout heap < 18446744073709551616 := UInt64.toNat_lt _
  -- Off the start of a page the sum does not wrap to null.
  rcases pointer_taken_cases positive layout heap with ⟨-, null⟩ | moved <;> omega

end Mapping

/-! ## Bounds -/

/-- The pointers are set, to the end of the image or an address of the arena, and to the
end of the memory. -/
structure Ready (layout : Layout) (heap : Arena) : Prop where
  limit : heap.heapEnd.toNat = layout.memoryEnd
  current : heap.heapCur = layout.bssStop ∨
    layout.bssStop.toNat ≤ heap.heapCur.toNat ∧ heap.heapCur.toNat ≤ layout.memoryEnd

/-- The arena is as it was loaded, or in bounds. -/
def InBounds (layout : Layout) (heap : Arena) : Prop := heap = .boot ∨ Ready layout heap

/-- What a call does, in numbers that do not wrap. -/
def ServedExactly (layout : Layout) (heap : Arena) : Call → Prop
  | .brk addr =>
      ((serve layout heap (.brk addr)).1 = addr ↔
        layout.bssStop.toNat ≤ addr.toNat ∧ addr.toNat ≤ layout.memoryEnd ∨
          addr.toNat = pointer layout heap) ∧
      (serve layout heap (.brk addr)).1.toNat = pointer layout (serve layout heap (.brk addr)).2 ∧
      ((serve layout heap (.brk addr)).1 ≠ addr →
        pointer layout (serve layout heap (.brk addr)).2 = pointer layout heap)
  | .mmap len flags =>
      (Succeeds (serve layout heap (.mmap len flags)).1 ↔
        flags &&& mapAnonymous ≠ 0 ∧ 0 < len ∧
          pointer layout heap + roundUp len ≤ layout.memoryEnd) ∧
      (Succeeds (serve layout heap (.mmap len flags)).1 →
        (serve layout heap (.mmap len flags)).1.toNat = pointer layout heap ∧
          pointer layout (serve layout heap (.mmap len flags)).2 =
            pointer layout heap + roundUp len) ∧
      (¬Succeeds (serve layout heap (.mmap len flags)).1 →
        pointer layout (serve layout heap (.mmap len flags)).2 = pointer layout heap)
  | .munmap addr size =>
      pointer layout (serve layout heap (.munmap addr size)).2 = pointer layout heap

/-- A length there is room for has no sign bit when it is rounded up.  Only an arena of
more than half the address space has room for another. -/
def SignClear (layout : Layout) (heap : Arena) : Call → Prop
  | .mmap len flags =>
      flags &&& mapAnonymous ≠ 0 → 0 < len →
        pointer layout heap + roundUp len ≤ layout.memoryEnd →
          roundUp len < 9223372036854775808
  | _ => True

instance (layout : Layout) (heap : Arena) : (call : Call) → Decidable (SignClear layout heap call)
  | .mmap len flags =>
      inferInstanceAs (Decidable (flags &&& mapAnonymous ≠ 0 → 0 < len →
        pointer layout heap + roundUp len ≤ layout.memoryEnd →
          roundUp len < 9223372036854775808))
  | .brk _ | .munmap _ _ => isTrue trivial

namespace Ready

variable {layout : Layout} {heap : Arena}

theorem above (ready : Ready layout heap) : layout.bssStop.toNat ≤ heap.heapCur.toNat := by
  rcases ready.current with start | ⟨above, -⟩
  · rw [start]
  · exact above

variable (mapped : layout.Mapped) (ready : Ready layout heap)

include mapped ready

/-- Nothing is left to initialise. -/
theorem heapInit_eq : heapInit layout heap = heap := by
  have nonnull := Nat.lt_of_lt_of_le mapped.started ready.above
  rw [heapInit, if_pos]
  intro null
  rw [null] at nonnull
  exact absurd nonnull (by decide)

end Ready

/-- `heap_init` computes the end of the memory. -/
theorem Ready.start {layout : Layout} (mapped : layout.Mapped) :
    Ready layout (heapInit layout .boot) := by
  have noWrap := mapped.noWrap
  rw [Layout.memoryEnd] at noWrap
  have unit : (1024 : UInt64).toNat = 1024 := rfl
  have kib : (layout.freeMemory * 1024).toNat = layout.freeMemory.toNat * 1024 := by
    apply Word64.toNat_mul_of_lt
    rw [unit]
    omega
  have mib : (layout.freeMemory * 1024 * 1024).toNat = layout.freeMemory.toNat * 1048576 := by
    rw [Word64.toNat_mul_of_lt, kib, unit]
    · omega
    · rw [kib, unit]
      omega
  constructor
  · change (layout.imageBase + layout.freeMemory * 1024 * 1024).toNat = layout.memoryEnd
    rw [Word64.toNat_add_of_lt, mib, Layout.memoryEnd]
    rw [mib]
    exact noWrap
  · exact .inl rfl

namespace InBounds

variable {layout : Layout} {heap : Arena} (mapped : layout.Mapped)
  (inBounds : InBounds layout heap)

include mapped inBounds

/-- Every call works on an arena that is ready. -/
theorem heapInit : Ready layout (heapInit layout heap) := by
  rcases inBounds with rfl | ready
  · exact Ready.start mapped
  · rw [ready.heapInit_eq mapped]
    exact ready

theorem next {call : Call} (sums : SumFits layout heap call) :
    InBounds layout ((arenas layout).next heap call) := by
  have ready := inBounds.heapInit mapped
  cases call with
  | brk addr =>
      right
      by_cases honoured : inArena layout (Heap.heapInit layout heap) addr
      · simp only [Machine.next, arenas, serve, sysBrk_of_inArena honoured]
        obtain ⟨above, below⟩ := honoured
        rw [UInt64.le_iff_toNat_le] at above below
        rw [ready.limit] at below
        exact ⟨ready.limit, .inr ⟨above, below⟩⟩
      · simp only [Machine.next, arenas, serve, sysBrk_of_not_inArena honoured]
        exact ready
  | mmap len flags =>
      simp only [Machine.next, arenas, serve]
      have outcome := mmapOutcome mapped.started heap len flags
      generalize sysMmap layout heap len flags = served at outcome ⊢
      cases outcome with
      | invalid => exact inBounds
      | refused => exact .inr ready
      | granted anonymous positive granted =>
          have fits := (sums anonymous positive).resolve_right (not_not.mpr granted)
          have room := granted.room fits
          have moved := pointer_taken positive fits
          rw [pointer, heapInit_taken_pages positive fits] at moved
          rw [ready.limit] at room
          refine .inr ⟨ready.limit, .inr ⟨?_, moved.trans_le room⟩⟩
          rw [moved]
          exact Nat.le_trans ready.above (Nat.le_add_right _ _)
  | munmap addr size => exact inBounds

theorem servedExactly_brk (addr : UInt64) : ServedExactly layout heap (.brk addr) := by
  have ready := inBounds.heapInit mapped
  simp only [ServedExactly, serve]
  by_cases honoured : inArena layout (Heap.heapInit layout heap) addr
  · rw [sysBrk_of_inArena honoured]
    have range := honoured
    rw [inArena, UInt64.le_iff_toNat_le, UInt64.le_iff_toNat_le, ready.limit] at range
    have moved : (Heap.heapInit layout
        { Heap.heapInit layout heap with heapCur := addr }).heapCur = addr :=
      heapInit_heapCur layout honoured.1
    refine ⟨iff_of_true rfl (.inl range), ?_, fun other => absurd rfl other⟩
    rw [pointer, moved]
  · rw [sysBrk_of_not_inArena honoured]
    have range := honoured
    rw [inArena, UInt64.le_iff_toNat_le, UInt64.le_iff_toNat_le, ready.limit] at range
    refine ⟨?_, ?_, ?_⟩
    · rw [or_iff_right range, pointer, UInt64.toNat_inj, eq_comm]
    · rw [pointer, heapInit_idem]
    · intro _
      rw [pointer, heapInit_idem, pointer]

/-- A mapping is exact if and only if it is neither granted by a sum that wraps nor refused
for a sign. -/
theorem servedExactly_mmap_iff (len : Int64) (flags : UInt64) :
    ServedExactly layout heap (.mmap len flags) ↔
      SumFits layout heap (.mmap len flags) ∧ SignClear layout heap (.mmap len flags) := by
  have ready := inBounds.heapInit mapped
  simp only [ServedExactly, SumFits, SignClear, serve]
  have outcome := mmapOutcome mapped.started heap len flags
  generalize sysMmap layout heap len flags = served at outcome ⊢
  cases outcome with
  | invalid contradicts =>
      refine iff_of_true ⟨iff_of_false not_succeeds_enodev fun accepted => ?_,
        fun success => absurd success not_succeeds_enodev, fun _ => rfl⟩
        ⟨fun anonymous positive => absurd positive (contradicts anonymous),
          fun anonymous positive => absurd positive (contradicts anonymous)⟩
      exact contradicts accepted.1 accepted.2.1
  | granted anonymous positive granted =>
      rw [forall_prop_of_true anonymous, forall_prop_of_true positive,
        forall_prop_of_true anonymous, forall_prop_of_true positive, ← ready.limit,
        or_iff_left (not_not.mpr granted), and_iff_left fun _ => granted.1]
      by_cases fits : pointer layout heap + roundUp len < 18446744073709551616
      · have success := succeeds_of_fits positive fits
        exact iff_of_true ⟨iff_of_true success ⟨anonymous, positive, granted.room fits⟩,
          fun _ => ⟨rfl, pointer_taken positive fits⟩, fun fails => absurd success fails⟩ fits
      · refine iff_of_false ?_ fits
        rintro ⟨succeeds, -, kept⟩
        have top := Word64.toNat_lt_size (Heap.heapInit layout heap).heapEnd
        have fails : ¬Succeeds (Heap.heapInit layout heap).heapCur :=
          fun success => fits (Nat.lt_of_le_of_lt (succeeds.mp success).2.2 top)
        exact (succeeds_or_moves positive granted.1).elim fails fun moved => moved (kept fails)
  | refused anonymous positive refused =>
      rw [forall_prop_of_true anonymous, forall_prop_of_true positive,
        forall_prop_of_true anonymous, forall_prop_of_true positive, ← ready.limit]
      constructor
      · rintro ⟨succeeds, -, -⟩
        refine ⟨.inr refused, fun room => ?_⟩
        exact absurd (succeeds.mpr ⟨anonymous, positive, room⟩) not_succeeds_enomem
      · rintro ⟨-, signClear⟩
        refine ⟨iff_of_false not_succeeds_enomem fun accepted => refused ?_,
          fun success => absurd success not_succeeds_enomem, fun _ => ?_⟩
        · exact granted_of_room (signClear accepted.2.2) accepted.2.2
        · rw [pointer, heapInit_idem, pointer]

theorem servedExactly_iff (call : Call) :
    ServedExactly layout heap call ↔ SumFits layout heap call ∧ SignClear layout heap call := by
  cases call with
  | brk addr => exact iff_of_true (inBounds.servedExactly_brk mapped addr) ⟨trivial, trivial⟩
  | mmap len flags => exact inBounds.servedExactly_mmap_iff mapped len flags
  | munmap addr size => exact iff_of_true rfl ⟨trivial, trivial⟩

end InBounds

/-- In a run the pointer stays the end of the image or within the arena and every call
does exactly what the numbers say, if and only if no mapping is granted by a sum that
wraps, and none there is room for is refused for its sign. -/
theorem arena_bound_exact_iff (layout : Layout) (mapped : layout.Mapped) (calls : List Call) :
    InBounds layout ((arenas layout).run .boot calls) ∧
        (arenas layout).Along (ServedExactly layout) .boot calls ↔
      (arenas layout).Along (fun heap call => SumFits layout heap call ∧ SignClear layout heap call)
        .boot calls := by
  have agree : ∀ heap call, InBounds layout heap → True →
      (ServedExactly layout heap call ↔
        SumFits layout heap call ∧ SignClear layout heap call) :=
    fun _ call inBounds _ => inBounds.servedExactly_iff mapped call
  have kept : ∀ heap call, InBounds layout heap →
      SumFits layout heap call ∧ SignClear layout heap call →
      InBounds layout ((arenas layout).next heap call) :=
    fun _ _ inBounds fits => inBounds.next mapped fits.1
  have always : (arenas layout).Along (fun _ _ => True) .boot calls :=
    Machine.along_of_forall (fun _ _ => trivial) _ _
  have same := Machine.along_iff_of_invariant agree
    (fun heap call inBounds _ served => kept heap call inBounds
      ((agree heap call inBounds trivial).mp served)) (.inl rfl) always
  exact ⟨fun exact => same.mp exact.2, fun fits =>
    ⟨Machine.run_invariant kept (.inl rfl) fits, same.mpr fits⟩⟩

theorem sampleLayout_mapped : sampleLayout.Mapped := ⟨by decide, by decide, by decide⟩

/-- A quarter of the address space is mapped from an arena of sixteen MiB, and the
pointer wraps to an address below the image. -/
theorem quarterMapping_granted :
    sampleLayout.Mapped ∧
      ¬(arenas sampleLayout).Along (ServedExactly sampleLayout) .boot
        [.mmap 0x4000000000000000 0x22] ∧
      (serve sampleLayout .boot (.mmap 0x4000000000000000 0x22)).1 = sampleLayout.bssStop ∧
      ((arenas sampleLayout).run .boot [.mmap 0x4000000000000000 0x22]).heapCur =
        0x3FFF800000100010 ∧
      ¬InBounds sampleLayout ((arenas sampleLayout).run .boot [.mmap 0x4000000000000000 0x22]) := by
  have pointer : ((arenas sampleLayout).run .boot [.mmap 0x4000000000000000 0x22]).heapCur =
      0x3FFF800000100010 := by decide
  have success : Succeeds (serve sampleLayout .boot (.mmap 0x4000000000000000 0x22)).1 := by
    decide
  refine ⟨sampleLayout_mapped, ?_, by decide, pointer, ?_⟩
  · rintro ⟨exact, -⟩
    exact absurd (exact.1.mp success).2.2 (by decide)
  · rintro (boot | ready)
    · rw [boot] at pointer
      exact absurd pointer (by decide)
    · have above := ready.above
      rw [pointer] at above
      exact absurd above (by decide)

/-- Two mappings and a break in between, with the last one refused for the sign of its
rounded length. -/
theorem mapBreakMap_exact :
    InBounds sampleLayout ((arenas sampleLayout).run .boot
        [.mmap 5000 0x22, .brk 0xFFFF800000200000, .mmap 0x7FFFFFFFFFFFFFFF 0x22]) ∧
      (arenas sampleLayout).Along (ServedExactly sampleLayout) .boot
        [.mmap 5000 0x22, .brk 0xFFFF800000200000, .mmap 0x7FFFFFFFFFFFFFFF 0x22] :=
  (arena_bound_exact_iff sampleLayout ⟨by decide, by decide, by decide⟩ _).mpr (by decide)

end AppPortKit.Heap
