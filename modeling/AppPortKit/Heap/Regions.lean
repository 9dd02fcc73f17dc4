import AppPortKit.Heap.Core
import Mathlib.Order.CompletePartialOrder
import Mathlib.Order.Interval.Set.Disjoint

/-!
# Ranges handed out by the arena

A session is the arena together with what its caller has learned: the break it
was last given, and every range of bytes a call has handed to it.  The arena is
sound for a caller as long as these ranges stay apart.

Mappings are taken from the pointer upwards, as long as the sum with their length stays
in the address space.  The break is not: a request is honoured wherever it falls in the
arena, so a caller that extends the break it remembers after a mapping has been made is
given the mapping's bytes a second time, and pulls the pointer back under it.
-/

namespace AppPortKit.Heap

open Transition

/-- A half-open range of addresses. -/
structure Region where
  first : Nat
  limit : Nat
  deriving Repr, DecidableEq

namespace Region

/-- The addresses of a range. -/
def bytes (region : Region) : Set Nat := Set.Ico region.first region.limit

/-- Two ranges share no byte. -/
def Apart (left right : Region) : Prop := Disjoint left.bytes right.bytes

theorem apart_iff (left right : Region) :
    left.Apart right ↔ min left.limit right.limit ≤ max left.first right.first :=
  Set.Ico_disjoint_Ico

instance (left right : Region) : Decidable (left.Apart right) :=
  decidable_of_iff _ (apart_iff left right).symm

/-- A range that starts at or after the limit of another is apart from it. -/
theorem apart_of_le {left right : Region} (after : right.limit ≤ left.first) :
    left.Apart right := by
  rw [apart_iff]
  omega

end Region

/-- An arena and its caller. -/
structure Session where
  arena : Arena
  ownBreak : UInt64
  handedOut : List Region
  deriving Repr, DecidableEq

variable (layout : Layout)

/-- Before the first call the break is the end of the image. -/
def Session.start : Session :=
  { arena := .boot, ownBreak := layout.bssStop, handedOut := [] }

namespace Session

/-- The range a call hands out, given its result: the pages of a mapping, or the
bytes by which a successful request moved the caller's break upwards. -/
def granted (session : Session) (call : Call) (result : UInt64) : List Region :=
  match call with
  | .brk addr =>
      if result = addr ∧ session.ownBreak < addr then
        [⟨session.ownBreak.toNat, addr.toNat⟩]
      else
        []
  | .mmap len _ =>
      if result = enodev ∨ result = enomem then
        []
      else
        [⟨result.toNat, result.toNat + (roundToPages len.toUInt64).toNat⟩]
  | .munmap _ _ => []

/-- The break the caller remembers: the answer to a query, or a request that was
granted. -/
def rememberedBreak (session : Session) (call : Call) (result : UInt64) : UInt64 :=
  match call with
  | .brk addr => if addr = 0 ∨ result = addr then result else session.ownBreak
  | _ => session.ownBreak

def step (session : Session) (call : Call) : UInt64 × Session :=
  let (result, arena) := serve layout session.arena call
  (result,
    { arena
      ownBreak := session.rememberedBreak call result
      handedOut := session.granted call result ++ session.handedOut })

end Session

/-- Sessions as a machine over heap calls. -/
def sessions : Machine Session Call UInt64 := ⟨Session.step layout⟩

/-- The caller queries the break, or asks for one at or above its own. -/
def AsksUpwards (session : Session) : Call → Prop
  | .brk addr => addr = 0 ∨ session.ownBreak ≤ addr
  | _ => True

/-- A request that `sys_brk` will honour finds the pointer at the caller's own
break, so nothing has been mapped since that break was given. -/
def BreakIsCurrent (session : Session) : Call → Prop
  | .brk addr =>
      inArena layout (heapInit layout session.arena) addr →
        session.ownBreak ≤ addr ∧
          (heapInit layout session.arena).heapCur = session.ownBreak
  | _ => True

instance (session : Session) : (call : Call) → Decidable (AsksUpwards session call)
  | .brk addr => inferInstanceAs (Decidable (addr = 0 ∨ session.ownBreak ≤ addr))
  | .mmap _ _ | .munmap _ _ => isTrue trivial

instance (session : Session) :
    (call : Call) → Decidable (BreakIsCurrent layout session call)
  | .brk addr =>
      inferInstanceAs (Decidable (inArena layout (heapInit layout session.arena) addr →
        session.ownBreak ≤ addr ∧
          (heapInit layout session.arena).heapCur = session.ownBreak))
  | .mmap _ _ | .munmap _ _ => isTrue trivial

/-- What a session keeps while every honoured request is current: the ranges lie
apart below the pointer, and the pointer is the caller's break or within the
arena. -/
structure Frontier (session : Session) : Prop where
  below : ∀ region ∈ session.handedOut,
    region.limit ≤ (heapInit layout session.arena).heapCur.toNat
  apart : session.handedOut.Pairwise Region.Apart
  started : layout.bssStop ≤ (heapInit layout session.arena).heapCur
  capped : (heapInit layout session.arena).heapCur = session.ownBreak ∨
    (heapInit layout session.arena).heapCur ≤ (heapInit layout session.arena).heapEnd

variable {layout}

theorem Frontier.start : Frontier layout (Session.start layout) where
  below := by simp [Session.start]
  apart := by simp [Session.start]
  started := by simp [Session.start, Arena.boot, heapInit]
  capped := by simp [Session.start, Arena.boot, heapInit]

/-- Handing out a range that starts at the pointer and moving the pointer to its
limit or beyond keeps the ranges apart. -/
theorem Frontier.extend {session : Session} (frontier : Frontier layout session)
    (region : Region) (limit : Nat)
    (atPointer : region.first = (heapInit layout session.arena).heapCur.toNat)
    (ordered : region.first ≤ limit) (inside : region.limit ≤ limit) :
    (∀ other ∈ region :: session.handedOut, other.limit ≤ limit) ∧
      (region :: session.handedOut).Pairwise Region.Apart := by
  constructor
  · intro other membership
    rcases List.mem_cons.mp membership with rfl | earlier
    · exact inside
    · have := frontier.below other earlier
      omega
  · refine List.pairwise_cons.mpr ⟨?_, frontier.apart⟩
    intro other earlier
    apply Region.apart_of_le
    rw [atPointer]
    exact frontier.below other earlier

theorem Frontier.brk {session : Session} (frontier : Frontier layout session)
    {addr : UInt64} (current : BreakIsCurrent layout session (.brk addr)) :
    Frontier layout (session.step layout (.brk addr)).2 := by
  by_cases honoured : inArena layout (heapInit layout session.arena) addr
  · obtain ⟨upwards, atBreak⟩ := current honoured
    have moved : (heapInit layout
        { heapInit layout session.arena with heapCur := addr }).heapCur = addr :=
      heapInit_heapCur layout honoured.1
    rw [UInt64.le_iff_toNat_le] at upwards
    have extended := frontier.extend ⟨session.ownBreak.toNat, addr.toNat⟩ addr.toNat
      (by rw [atBreak]) upwards le_rfl
    simp only [Session.step, serve, sysBrk_of_inArena honoured]
    constructor
    · intro region membership
      rw [moved]
      simp only [Session.granted, List.mem_append] at membership
      split at membership
      · exact extended.1 region (by simpa using membership)
      · exact extended.1 region (by simp at membership; simp [membership])
    · simp only [Session.granted]
      split
      · exact extended.2
      · exact frontier.apart
    · rw [moved]
      exact honoured.1
    · left
      rw [moved]
      simp [Session.rememberedBreak]
  · simp only [Session.step, serve, sysBrk_of_not_inArena honoured]
    -- A refused request the caller takes for granted asked for the pointer
    -- itself, above the arena: then its break is the pointer already.
    have nothing : session.granted (.brk addr)
        (heapInit layout session.arena).heapCur = [] := by
      simp only [Session.granted, ite_eq_right_iff]
      rintro ⟨same, above⟩
      rcases frontier.capped with atBreak | within
      · rw [← same, atBreak] at above
        exact absurd above (UInt64.lt_irrefl _)
      · exact absurd ⟨same ▸ frontier.started, same ▸ within⟩ honoured
    constructor
    · simpa [nothing] using frontier.below
    · simpa [nothing] using frontier.apart
    · simpa using frontier.started
    · simp only [heapInit_idem, Session.rememberedBreak]
      split
      · exact .inl rfl
      · exact frontier.capped

theorem Frontier.mmap {session : Session} (frontier : Frontier layout session)
    {len : Int64} {flags : UInt64} (sums : SumFits layout session.arena (.mmap len flags)) :
    Frontier layout (session.step layout (.mmap len flags)).2 := by
  simp only [Session.step, serve, Session.rememberedBreak]
  generalize outcome : sysMmap layout session.arena len flags = served
  have cases := sysMmap_cases layout session.arena len flags
  rw [outcome] at cases
  rcases cases with ⟨failed, kept⟩ | ⟨anonymous, positive, granted, moved, result⟩
  · have nothing : session.granted (.mmap len flags) served.1 = [] := by
      simp [Session.granted, failed]
    exact ⟨by simpa [nothing, kept] using frontier.below,
      by simpa [nothing] using frontier.apart,
      by simpa [kept] using frontier.started,
      by simpa [kept] using frontier.capped⟩
  · have fits := (sums anonymous positive).resolve_right (not_not.mpr granted)
    have ahead := pointer_taken positive fits
    have extended := frontier.extend
      ⟨pointer layout session.arena, pointer layout session.arena + roundUp len⟩
      (pointer layout session.arena + roundUp len) rfl (Nat.le_add_right _ _) le_rfl
    have suffix : session.granted (.mmap len flags) served.1 ++ session.handedOut <:+
        ⟨pointer layout session.arena, pointer layout session.arena + roundUp len⟩ ::
          session.handedOut := by
      rcases result with reported | atPointer
      · simp [Session.granted, reported]
      · simp only [Session.granted, roundToPages_eq_roundUp positive]
        split
        · simp
        · simp [atPointer, pointer]
    have started := UInt64.le_iff_toNat_le.mp frontier.started
    simp only [moved]
    rw [pointer] at ahead
    constructor
    · intro region membership
      rw [ahead]
      exact extended.1 region (suffix.subset membership)
    · exact extended.2.sublist suffix.sublist
    · rw [UInt64.le_iff_toNat_le, ahead]
      exact Nat.le_trans started (Nat.le_add_right _ _)
    · right
      rw [UInt64.le_iff_toNat_le, ahead, heapInit_taken_pages positive fits]
      exact granted.room fits

theorem Frontier.next {session : Session} (frontier : Frontier layout session)
    {call : Call} (current : BreakIsCurrent layout session call)
    (sums : SumFits layout session.arena call) :
    Frontier layout ((sessions layout).next session call) := by
  cases call with
  | brk addr => exact frontier.brk current
  | mmap len flags => exact frontier.mmap sums
  | munmap addr len => exact ⟨frontier.below, frontier.apart, frontier.started, frontier.capped⟩

/-- Ranges handed out in any run stay apart, as long as no honoured request for
a break comes after a mapping the caller's break does not account for, and no mapping
is granted by a sum that wraps. -/
theorem handedOut_apart_of_breakIsCurrent (layout : Layout) (calls : List Call)
    (guarded : (sessions layout).Along
      (fun session call => AsksUpwards session call ∧ BreakIsCurrent layout session call ∧
        SumFits layout session.arena call)
      (Session.start layout) calls) :
    ((sessions layout).run (Session.start layout) calls).handedOut.Pairwise
      Region.Apart := by
  have preserved : ∀ session call, Frontier layout session →
      AsksUpwards session call ∧ BreakIsCurrent layout session call ∧
        SumFits layout session.arena call →
      Frontier layout ((sessions layout).next session call) :=
    fun _ _ frontier guard => frontier.next guard.2.1 guard.2.2
  exact (Machine.run_invariant preserved Frontier.start guarded).apart

/-- A layout with the image at its load address and sixteen MiB of memory. -/
def sampleLayout : Layout :=
  { bssStop := 0xFFFF800000100010, imageBase := 0xFFFF800000000000, freeMemory := 16 }

/-- What the allocator's `alloc_meta` asks for the first two times: it queries
the break, extends it by two pages, maps a guard page, and extends its own break
by one page more. -/
def allocMetaTwice : List Call :=
  [.brk 0, .brk 0xFFFF800000103000, .mmap 4096 0x32, .brk 0xFFFF800000104000]

/-- The second extension is granted the page that was mapped. -/
theorem allocMetaTwice_overlaps :
    sampleLayout.imageBase.toNat + sampleLayout.freeMemory.toNat * 2 ^ 20 < 2 ^ 64 ∧
      (sessions sampleLayout).Along AsksUpwards (Session.start sampleLayout)
        allocMetaTwice ∧
      ¬((sessions sampleLayout).run (Session.start sampleLayout)
        allocMetaTwice).handedOut.Pairwise Region.Apart := by
  decide

/-- With the guard page left out, the same extensions are sound. -/
theorem allocMetaTwice_apart_without_guard :
    ((sessions sampleLayout).run (Session.start sampleLayout)
      [.brk 0, .brk 0xFFFF800000103000, .brk 0xFFFF800000104000,
        .mmap 4096 0x32]).handedOut.Pairwise Region.Apart := by
  apply handedOut_apart_of_breakIsCurrent
  decide

end AppPortKit.Heap
