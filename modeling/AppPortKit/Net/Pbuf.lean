import AppPortKit.Foundation.LinkedList
import Mathlib.Algebra.GroupWithZero.Nat

/-!
# Packet buffers

lwIP hands received data to the socket layer in chains of packet buffers
(`struct pbuf`).  The heap of packet buffers below is at the level of pointers:
chains are linked through `next`, a buffer is given back when its reference count
drops to zero, and touching one that has been given back is a fault.  `pbuf_cat` and
`pbuf_free` are those of lwIP.
-/

namespace AppPortKit.Net

open LinkedList

/-- What C leaves undefined, or an assertion of lwIP stops. -/
inductive Fault where
  | outOfBounds
  | nullPointer
  | freedPcb
  | listeningPcb
  | freedPbuf
  | pbufAssertion
  /-- A walk along a chain that never ends. -/
  | endlessChain
  deriving DecidableEq, Repr

/-- The fields of `struct pbuf` that are used; `payload` is the memory it points to. -/
structure Pbuf where
  next : Option Nat
  payload : List UInt8
  totLen : UInt16
  len : UInt16
  ref : UInt8
  deriving DecidableEq

/-- The packet buffers in use, the number ever allocated, and the order in which they
were given back. -/
structure Pbufs where
  cells : Nat → Option Pbuf
  fresh : Nat
  freed : List Nat

namespace Pbufs

def get (h : Pbufs) (p : Nat) : Except Fault Pbuf :=
  match h.cells p with
  | some b => .ok b
  | none => .error .freedPbuf

def set (h : Pbufs) (p : Nat) (b : Pbuf) : Pbufs :=
  { h with cells := Function.update h.cells p (some b) }

def memFree (h : Pbufs) (p : Nat) : Pbufs :=
  { h with cells := Function.update h.cells p none, freed := h.freed ++ [p] }

/-- The loop of `pbuf_free`: buffers are given back up to the first one that is still
referenced. -/
def pbufFreeLoop : Nat → Pbufs → Option Nat → Except Fault Pbufs
  | _, h, none => .ok h
  | 0, _, some _ => .error .endlessChain
  | fuel + 1, h, some p => do
      let b ← h.get p
      if b.ref = 0 then .error .pbufAssertion
      else if b.ref - 1 = 0 then pbufFreeLoop fuel (h.memFree p) b.next
      else .ok (h.set p { b with ref := b.ref - 1 })

def pbufFree (h : Pbufs) (p : Nat) : Except Fault Pbufs :=
  pbufFreeLoop (h.fresh + 1) h (some p)

/-- The loop of `pbuf_cat`: total lengths grow along the first chain, and its last
buffer is linked to the second. -/
def pbufCatLoop (t : Nat) : Nat → Pbufs → Nat → Except Fault Pbufs
  | 0, _, _ => .error .endlessChain
  | fuel + 1, h, p => do
      let b ← h.get p
      let tail ← h.get t
      match b.next with
      | some q => pbufCatLoop t fuel (h.set p { b with totLen := b.totLen + tail.totLen }) q
      | none =>
          if b.totLen ≠ b.len then .error .pbufAssertion
          else .ok (h.set p { b with totLen := b.totLen + tail.totLen, next := some t })

def pbufCat (h : Pbufs) (p t : Nat) : Except Fault Pbufs := pbufCatLoop t (h.fresh + 1) h p

/-- The loop of `net_shim_close`: every buffer is detached and freed by itself. -/
def drain : Nat → Pbufs → Option Nat → Except Fault Pbufs
  | _, h, none => .ok h
  | 0, _, some _ => .error .endlessChain
  | fuel + 1, h, some p => do
      let b ← h.get p
      let h ← (h.set p { b with next := none }).pbufFree p
      drain fuel h b.next

end Pbufs

/-- The payload of one buffer of a received chain. -/
abbrev Segment := { bytes : List UInt8 // bytes.length < 65536 }

/-- The chain lwIP builds for received data: every buffer has one reference, and its
total length counts the rest of the chain. -/
def Pbufs.allocChain (h : Pbufs) : List Segment → Option Nat × Pbufs
  | [] => (none, h)
  | segment :: rest =>
      let tail := h.allocChain rest
      (some tail.2.fresh, { tail.2 with
        cells := Function.update tail.2.cells tail.2.fresh (some
          { next := tail.1
            payload := segment.val
            totLen := UInt16.ofNat ((segment :: rest).map fun each => each.val.length).sum
            len := UInt16.ofNat segment.val.length
            ref := 1 })
        fresh := tail.2.fresh + 1 })

/-! ## Chains -/

/-- A buffer with one reference that holds the given bytes. -/
structure Pbuf.Carries (b : Pbuf) (bytes : List UInt8) : Prop where
  payload : b.payload = bytes
  len : b.len.toNat = bytes.length
  ref : b.ref = 1
  totLen : b.next = none → b.totLen = b.len

/-- A chain of buffers, as addresses and the bytes held there. -/
abbrev Pbufs.Chain (h : Pbufs) (head : Option Nat) (items : List (Nat × List UInt8)) : Prop :=
  Linked Pbuf.next Pbuf.Carries h.cells head items

namespace Pbufs

variable {h : Pbufs} {p t : Nat} {items front : List (Nat × List UInt8)}

theorem get_of_cell {b : Pbuf} (stored : h.cells p = some b) : h.get p = .ok b := by
  rw [get, stored]

@[simp] theorem fresh_set (h : Pbufs) (p : Nat) (b : Pbuf) : (h.set p b).fresh = h.fresh := rfl

@[simp] theorem freed_set (h : Pbufs) (p : Nat) (b : Pbuf) : (h.set p b).freed = h.freed := rfl

@[simp] theorem cells_set (h : Pbufs) (p : Nat) (b : Pbuf) :
    (h.set p b).cells = Function.update h.cells p (some b) := rfl

@[simp] theorem memFree_set (h : Pbufs) (p : Nat) (b : Pbuf) :
    (h.set p b).memFree p = h.memFree p := by
  simp [memFree, set]

/-- A single buffer with one reference is given back. -/
theorem pbufFree_of_single {b : Pbuf} (stored : h.cells p = some b) (ref : b.ref = 1)
    (last : b.next = none) : h.pbufFree p = .ok (h.memFree p) := by
  rw [pbufFree, pbufFreeLoop, get_of_cell stored]
  simp [bind, Except.bind, ref, last, pbufFreeLoop]

/-- Buffers given back one after another. -/
def freeAll (h : Pbufs) (addresses : List Nat) : Pbufs := addresses.foldl memFree h

@[simp] theorem freeAll_cons (h : Pbufs) (p : Nat) (rest : List Nat) :
    h.freeAll (p :: rest) = (h.memFree p).freeAll rest := rfl

theorem fresh_freeAll (h : Pbufs) (addresses : List Nat) :
    (h.freeAll addresses).fresh = h.fresh := by
  induction addresses generalizing h with
  | nil => rfl
  | cons p rest ih => rw [freeAll_cons, ih, memFree]

theorem freed_freeAll (h : Pbufs) (addresses : List Nat) :
    (h.freeAll addresses).freed = h.freed ++ addresses := by
  induction addresses generalizing h with
  | nil => simp [freeAll]
  | cons p rest ih => rw [freeAll_cons, ih, memFree, List.append_assoc, List.singleton_append]

theorem cells_freeAll (h : Pbufs) {addresses : List Nat} {p : Nat} (kept : p ∉ addresses) :
    (h.freeAll addresses).cells p = h.cells p := by
  induction addresses generalizing h with
  | nil => rfl
  | cons first rest ih =>
      obtain ⟨different, later⟩ := not_or.mp (mt List.mem_cons.mpr kept)
      rw [freeAll_cons, ih _ later]
      exact Function.update_of_ne different _ _

/-- `pbuf_free` gives back a chain whose buffers nobody else refers to, each once. -/
theorem pbufFreeLoop_of_chain {head : Option Nat} {fuel : Nat} (enough : items.length ≤ fuel)
    (chain : h.Chain head items) :
    pbufFreeLoop fuel h head = .ok (h.freeAll (addresses items)) := by
  induction items generalizing h head fuel with
  | nil =>
      rw [show head = none from chain, pbufFreeLoop]
      rfl
  | cons entry rest ih =>
      have distinct := chain.nodup
      obtain ⟨start, b, stored, carries, tail⟩ := chain
      cases fuel with
      | zero => exact absurd enough (Nat.not_succ_le_zero _)
      | succ fuel =>
          have after : (h.memFree entry.1).Chain b.next rest :=
            tail.update (List.nodup_cons.mp distinct).1 none
          rw [start, pbufFreeLoop, get_of_cell stored]
          simp only [bind, Except.bind, carries.ref]
          exact ih (Nat.le_of_succ_le_succ enough) after

theorem pbufFree_of_chain (below : ∀ address ∈ addresses items, address < h.fresh)
    (chain : h.Chain (some p) items) :
    h.pbufFree p = .ok (h.freeAll (addresses items)) :=
  pbufFreeLoop_of_chain (Nat.le_succ_of_le (chain.length_le below)) chain

/-- Closing gives back the buffers of a chain one by one. -/
theorem drain_of_chain {head : Option Nat} {fuel : Nat} (enough : items.length ≤ fuel)
    (chain : h.Chain head items) : drain fuel h head = .ok (h.freeAll (addresses items)) := by
  induction items generalizing h head fuel with
  | nil =>
      rw [show head = none from chain, drain]
      rfl
  | cons entry rest ih =>
      have distinct := (List.nodup_cons.mp chain.nodup).1
      obtain ⟨start, b, stored, carries, tail⟩ := chain
      cases fuel with
      | zero => exact absurd enough (Nat.not_succ_le_zero _)
      | succ fuel =>
          have detached : (h.set entry.1 { b with next := none }).pbufFree entry.1 =
              .ok (h.memFree entry.1) := by
            rw [pbufFree_of_single (b := { b with next := none }) (by simp) carries.ref rfl,
              memFree_set]
          rw [start, drain, get_of_cell stored]
          simp only [bind, Except.bind, detached]
          exact ih (Nat.le_of_succ_le_succ enough) (tail.update distinct none)

/-- `pbuf_cat` joins two chains that share no buffer. -/
theorem pbufCatLoop_of_chain {fuel : Nat} (enough : front.length ≤ fuel)
    (chain : h.Chain (some p) front) (tail : h.Chain (some t) items)
    (apart : (addresses front).Disjoint (addresses items)) :
    ∃ h', pbufCatLoop t fuel h p = .ok h' ∧ h'.fresh = h.fresh ∧ h'.freed = h.freed ∧
      (∀ address ∉ addresses front, h'.cells address = h.cells address) ∧
      h'.Chain (some p) (front ++ items) := by
  induction front generalizing h p fuel with
  | nil => exact absurd chain nofun
  | cons entry rest ih =>
      have distinct := (List.nodup_cons.mp chain.nodup).1
      obtain ⟨start, b, stored, carries, more⟩ := chain
      obtain rfl : p = entry.1 := Option.some.inj start
      obtain ⟨outside, restApart⟩ := List.disjoint_cons_left.mp apart
      cases fuel with
      | zero => exact absurd enough (Nat.not_succ_le_zero _)
      | succ fuel =>
          cases items with
          | nil => exact absurd tail nofun
          | cons first others =>
              have whole := tail
              obtain ⟨startTail, tb, storedTail, _, _⟩ := tail
              obtain rfl : t = first.1 := Option.some.inj startTail
              rw [pbufCatLoop, get_of_cell stored, get_of_cell storedTail]
              simp only [bind, Except.bind]
              cases following : b.next with
              | none =>
                  rw [following] at more
                  cases rest with
                  | cons second later => exact absurd more.1 nofun
                  | nil =>
                      rw [if_neg (not_not.mpr (carries.totLen following))]
                      refine ⟨_, rfl, rfl, rfl, ?_, rfl, _, Function.update_self .., ?_, ?_⟩
                      · intro address elsewhere
                        apply Function.update_of_ne
                        rintro rfl
                        exact elsewhere (List.mem_cons_self ..)
                      · exact ⟨carries.payload, carries.len, carries.ref, nofun⟩
                      · exact whole.update outside _
              | some q =>
                  rw [following] at more
                  let node : Pbuf := { b with totLen := b.totLen + tb.totLen, next := some q }
                  let grown := h.set entry.1 node
                  have moreGrown : grown.Chain (some q) rest := more.update distinct _
                  have wholeGrown : grown.Chain (some first.1) (first :: others) :=
                    whole.update outside _
                  obtain ⟨h', result, fresh, freed, kept, joined⟩ :=
                    ih (Nat.le_of_succ_le_succ enough) moreGrown wholeGrown restApart
                  refine ⟨h', result, fresh, freed, ?_, rfl, node, ?_, ?_, joined⟩
                  · intro address elsewhere
                    obtain ⟨different, later⟩ := not_or.mp (mt List.mem_cons.mpr elsewhere)
                    rw [kept address later]
                    exact Function.update_of_ne different _ _
                  · rw [kept entry.1 distinct]
                    exact Function.update_self ..
                  · exact ⟨carries.payload, carries.len, carries.ref, nofun⟩

theorem pbufCat_of_chain (below : ∀ address ∈ addresses front, address < h.fresh)
    (chain : h.Chain (some p) front) (tail : h.Chain (some t) items)
    (apart : (addresses front).Disjoint (addresses items)) :
    ∃ h', h.pbufCat p t = .ok h' ∧ h'.fresh = h.fresh ∧ h'.freed = h.freed ∧
      (∀ address ∉ addresses front, h'.cells address = h.cells address) ∧
      h'.Chain (some p) (front ++ items) :=
  pbufCatLoop_of_chain (Nat.le_succ_of_le (chain.length_le below)) chain tail apart

/-- A received chain is new: it uses the next addresses and nothing else changes. -/
theorem allocChain_spec (h : Pbufs) (segments : List Segment) :
    ∃ items, (h.allocChain segments).2.Chain (h.allocChain segments).1 items ∧
      items.map Prod.snd = segments.map Subtype.val ∧
      addresses items = (List.range' h.fresh segments.length).reverse ∧
      (h.allocChain segments).2.fresh = h.fresh + segments.length ∧
      (h.allocChain segments).2.freed = h.freed ∧
      ∀ address < h.fresh, (h.allocChain segments).2.cells address = h.cells address := by
  induction segments with
  | nil => exact ⟨[], rfl, rfl, rfl, rfl, rfl, fun _ _ => rfl⟩
  | cons segment rest ih =>
      obtain ⟨items, chain, bytes, used, fresh, freed, kept⟩ := ih
      have new : (h.allocChain rest).2.fresh ∉ addresses items := by
        rw [used, fresh, List.mem_reverse, List.mem_range'_1]
        omega
      refine ⟨((h.allocChain rest).2.fresh, segment.val) :: items,
        ⟨rfl, _, Function.update_self .., ?_, chain.update new _⟩, ?_, ?_, ?_, freed, ?_⟩
      · refine ⟨rfl, UInt16.toNat_ofNat_of_lt' segment.property, rfl, fun last => ?_⟩
        cases rest with
        | nil => simp
        | cons second later => exact absurd last nofun
      · rw [List.map_cons, List.map_cons, bytes]
      · rw [addresses_cons, used, fresh, List.length_cons, List.range'_concat]
        simp
      · rw [allocChain, fresh, List.length_cons]
        rfl
      · intro address below
        have old : address ≠ (h.allocChain rest).2.fresh := by omega
        exact (Function.update_of_ne old _ _).trans (kept address below)

end Pbufs

end AppPortKit.Net
