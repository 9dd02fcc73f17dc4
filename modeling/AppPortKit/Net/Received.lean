import AppPortKit.Net.Discipline

/-!
# Received bytes

The packet buffers lwIP delivers to a socket are linked into one chain, which `recv` reads
from the front and `close` gives back.  The invariant says what is in the chain and where
every packet buffer is: in the chain of one socket, or freed, but never both.
-/

namespace AppPortKit.Net

open Fallible LinkedList

/-- The bytes in a chain. -/
def chainBytes (items : List (Nat × List UInt8)) : List UInt8 := items.flatMap Prod.snd

/-- The receive queue of a socket is a chain, and its bytes are what was delivered and
not returned yet.  A buffer whose last byte was returned is not in the chain. -/
structure State.Receives (n : State) (k : Fin 16) (items : List (Nat × List UInt8)) :
    Prop where
  chain : n.pbufs.Chain (n.socks k).rxHead items
  start : (n.socks k).state ≠ .free → items = [] → (n.socks k).rxOff = 0
  offset : ∀ p bytes rest, items = (p, bytes) :: rest →
    (n.socks k).rxOff.toNat ≤ bytes.length
  unread : ∀ p bytes rest, items = (p, bytes) :: rest →
    (n.socks k).rxOff = 0 ∨ (n.socks k).rxOff.toNat < bytes.length
  stream : (n.socks k).state ≠ .free → (n.history k).delivered =
    (n.history k).returned ++ (chainBytes items).drop (n.socks k).rxOff.toNat
  before : (n.history k).returned <+: (n.history k).delivered
  credit : (n.socks k).pcb ≠ none →
    (n.history k).credited = (n.history k).returned.length
  drained : (n.socks k).state = .free → items = []

/-- Two histories of the same bytes. -/
structure History.SameBytes (h h' : History) : Prop where
  delivered : h'.delivered = h.delivered
  returned : h'.returned = h.returned
  credited : h'.credited = h.credited

theorem History.SameBytes.refl (h : History) : h.SameBytes h := ⟨rfl, rfl, rfl⟩

/-- A socket whose chain and history of bytes are as before. -/
theorem State.Receives.frame {n n' : State} {k : Fin 16} {items : List (Nat × List UInt8)}
    (receives : n.Receives k items) (chain : n'.pbufs.Chain (n.socks k).rxHead items)
    (head : (n'.socks k).rxHead = (n.socks k).rxHead)
    (off : (n'.socks k).rxOff = (n.socks k).rxOff)
    (free : (n'.socks k).state = .free ↔ (n.socks k).state = .free)
    (pcb : (n'.socks k).pcb ≠ none → (n.socks k).pcb ≠ none)
    (history : (n.history k).SameBytes (n'.history k)) : n'.Receives k items := by
  obtain ⟨_, start, offset, unread, stream, before, credit, drained⟩ := receives
  obtain ⟨delivered, returned, credited⟩ := history
  constructor
  · rwa [head]
  · rwa [off, ne_eq, free]
  · rwa [off]
  · rwa [off]
  · rwa [off, ne_eq, free, delivered, returned]
  · rwa [delivered, returned]
  · rw [credited, returned]
    exact fun has => credit (pcb has)
  · rwa [free]

/-- Every packet buffer ever allocated is in one chain or was freed once. -/
structure Pbufs.Accounted (h : Pbufs) (items : Fin 16 → List (Nat × List UInt8)) : Prop where
  once : h.freed.Nodup
  apart : ∀ j k p, p ∈ addresses (items j) → p ∈ addresses (items k) → j = k
  kept : ∀ k p, p ∈ addresses (items k) → p ∉ h.freed
  all : ∀ p, p < h.fresh ↔ p ∈ h.freed ∨ ∃ k, p ∈ addresses (items k)

structure Received (n : State) (items : Fin 16 → List (Nat × List UInt8)) : Prop where
  queues : ∀ k, n.Receives k (items k)
  accounted : n.pbufs.Accounted items

namespace Pbufs.Accounted

variable {h h' : Pbufs} {items : Fin 16 → List (Nat × List UInt8)} {k : Fin 16}

theorem below (accounted : h.Accounted items) {p : Nat} (member : p ∈ addresses (items k)) :
    p < h.fresh :=
  (accounted.all p).mpr (.inr ⟨k, member⟩)

/-- Some buffers leave a chain and are freed. -/
theorem release (accounted : h.Accounted items) {gone rest : List (Nat × List UInt8)}
    (split : items k = gone ++ rest) (nodup : (addresses (items k)).Nodup)
    (freed : h'.freed = h.freed ++ addresses gone) (fresh : h'.fresh = h.fresh) :
    h'.Accounted (Function.update items k rest) := by
  have mine : addresses (items k) = addresses gone ++ addresses rest := by
    rw [split, addresses_append]
  have inGone : ∀ p ∈ addresses gone, p ∈ addresses (items k) := by
    intro p member
    rw [mine]
    exact List.mem_append_left _ member
  have later : ∀ j p, p ∈ addresses (Function.update items k rest j) →
      p ∈ addresses (items j) ∧ p ∉ addresses gone := by
    intro j p member
    by_cases here : j = k
    · subst here
      rw [Function.update_self] at member
      rw [mine] at nodup ⊢
      exact ⟨List.mem_append_right _ member, fun also =>
        List.disjoint_of_nodup_append nodup also member⟩
    · rw [Function.update_of_ne here] at member
      exact ⟨member, fun also => here (accounted.apart j k p member (inGone p also))⟩
  constructor
  · rw [freed, List.nodup_append]
    refine ⟨accounted.once, ?_, fun p old q new same => ?_⟩
    · rw [mine] at nodup
      exact nodup.of_append_left
    · exact accounted.kept k q (inGone q new) (same ▸ old)
  · exact fun i j p one two => accounted.apart i j p (later i p one).1 (later j p two).1
  · intro j p member
    obtain ⟨before, notGone⟩ := later j p member
    rw [freed, List.mem_append, not_or]
    exact ⟨accounted.kept j p before, notGone⟩
  · intro p
    rw [fresh, accounted.all p, freed, List.mem_append]
    constructor
    · rintro (old | ⟨j, member⟩)
      · exact .inl (.inl old)
      · by_cases here : j = k
        · subst here
          rw [mine, List.mem_append] at member
          exact member.imp .inr fun stays => ⟨j, by rwa [Function.update_self]⟩
        · exact .inr ⟨j, by rwa [Function.update_of_ne here]⟩
    · rintro ((old | new) | ⟨j, member⟩)
      · exact .inl old
      · exact .inr ⟨k, inGone p new⟩
      · exact .inr ⟨j, (later j p member).1⟩

/-- New buffers are added to a chain. -/
theorem extend (accounted : h.Accounted items) {new : List (Nat × List UInt8)} {count : Nat}
    (used : addresses new = (List.range' h.fresh count).reverse)
    (freed : h'.freed = h.freed) (fresh : h'.fresh = h.fresh + count) :
    h'.Accounted (Function.update items k (items k ++ new)) := by
  have isNew : ∀ p, p ∈ addresses new ↔ h.fresh ≤ p ∧ p < h.fresh + count := by
    intro p
    rw [used, List.mem_reverse, List.mem_range'_1]
  have later : ∀ j p, p ∈ addresses (Function.update items k (items k ++ new) j) ↔
      p ∈ addresses (items j) ∨ j = k ∧ p ∈ addresses new := by
    intro j p
    by_cases here : j = k
    · subst here
      simp
    · simp [here]
  constructor
  · exact freed ▸ accounted.once
  · intro i j p one two
    rcases (later i p).mp one with old | ⟨rfl, new⟩
    · rcases (later j p).mp two with old' | ⟨rfl, new⟩
      · exact accounted.apart i j p old old'
      · exact absurd (accounted.below old) (Nat.not_lt.mpr ((isNew p).mp new).1)
    · rcases (later j p).mp two with old' | ⟨rfl, _⟩
      · exact absurd (accounted.below old') (Nat.not_lt.mpr ((isNew p).mp new).1)
      · rfl
  · intro j p member
    rw [freed]
    rcases (later j p).mp member with old | ⟨_, new⟩
    · exact accounted.kept j p old
    · intro gone
      have := (accounted.all p).mpr (.inl gone)
      exact absurd this (Nat.not_lt.mpr ((isNew p).mp new).1)
  · intro p
    rw [fresh, freed]
    constructor
    · intro below
      by_cases old : p < h.fresh
      · refine ((accounted.all p).mp old).imp_right ?_
        rintro ⟨j, member⟩
        exact ⟨j, (later j p).mpr (.inl member)⟩
      · exact .inr ⟨k, (later k p).mpr (.inr ⟨rfl, (isNew p).mpr ⟨Nat.not_lt.mp old, below⟩⟩)⟩
    · rintro (gone | ⟨j, member⟩)
      · exact Nat.lt_add_right _ ((accounted.all p).mpr (.inl gone))
      · rcases (later j p).mp member with old | ⟨_, new⟩
        · exact Nat.lt_add_right _ (accounted.below old)
        · exact ((isNew p).mp new).2

/-- New buffers are freed at once. -/
theorem drop (accounted : h.Accounted items) {new : List (Nat × List UInt8)} {count : Nat}
    (used : addresses new = (List.range' h.fresh count).reverse)
    (freed : h'.freed = h.freed ++ addresses new) (fresh : h'.fresh = h.fresh + count) :
    h'.Accounted items := by
  have isNew : ∀ p, p ∈ addresses new ↔ h.fresh ≤ p ∧ p < h.fresh + count := by
    intro p
    rw [used, List.mem_reverse, List.mem_range'_1]
  have notNew : ∀ p < h.fresh, p ∉ addresses new := fun p old member =>
    absurd old (Nat.not_lt.mpr ((isNew p).mp member).1)
  constructor
  · rw [freed, List.nodup_append]
    refine ⟨accounted.once, ?_, fun p old q member same => ?_⟩
    · rw [used]
      exact List.nodup_reverse.mpr List.nodup_range'
    · exact notNew q (same ▸ (accounted.all p).mpr (.inl old)) member
  · exact accounted.apart
  · intro k p member
    rw [freed, List.mem_append, not_or]
    exact ⟨accounted.kept k p member, notNew p (accounted.below member)⟩
  · intro p
    rw [fresh, freed, List.mem_append, isNew]
    have old := accounted.all p
    constructor
    · intro below
      by_cases before : p < h.fresh
      · exact (old.mp before).imp_left .inl
      · exact .inl (.inr ⟨Nat.not_lt.mp before, below⟩)
    · rintro ((gone | ⟨_, below⟩) | member)
      · exact Nat.lt_add_right _ (old.mpr (.inl gone))
      · exact below
      · exact Nat.lt_add_right _ (old.mpr (.inr member))

end Pbufs.Accounted

namespace Received

variable {s : Shim} {n n' : State} {items : Fin 16 → List (Nat × List UInt8)} {k : Fin 16}

theorem boot : Received .boot fun _ => [] := by
  constructor
  · intro k
    constructor <;> simp [State.boot, Bsock.zero, Linked, chainBytes, History.none]
  · constructor <;> simp [State.boot]

/-- Nothing is received or read, and no slot is taken or given back. -/
theorem agree (received : Received n items) (pbufs : n'.pbufs = n.pbufs)
    (head : ∀ k, (n'.socks k).rxHead = (n.socks k).rxHead)
    (off : ∀ k, (n'.socks k).rxOff = (n.socks k).rxOff)
    (free : ∀ k, (n'.socks k).state = .free ↔ (n.socks k).state = .free)
    (pcb : ∀ k, (n'.socks k).pcb ≠ none → (n.socks k).pcb ≠ none)
    (history : ∀ k, (n.history k).SameBytes (n'.history k)) : Received n' items :=
  ⟨fun k => (received.queues k).frame (pbufs ▸ (received.queues k).chain) (head k) (off k)
    (free k) (pcb k) (history k), pbufs ▸ received.accounted⟩

/-- A socket in use changes its state or its control block. -/
theorem restate (received : Received n items) (k : Fin 16) {sock : Bsock}
    (socks : n'.socks = Function.update n.socks k sock) (pbufs : n'.pbufs = n.pbufs)
    (history : n'.history = n.history) (used : (n.socks k).state ≠ .free)
    (used' : sock.state ≠ .free) (head : sock.rxHead = (n.socks k).rxHead)
    (off : sock.rxOff = (n.socks k).rxOff)
    (pcb : sock.pcb ≠ none → (n.socks k).pcb ≠ none) : Received n' items := by
  have elsewhere : ∀ j ≠ k, n'.socks j = n.socks j := by
    intro j different
    rw [socks, Function.update_of_ne different]
  have here : n'.socks k = sock := by rw [socks, Function.update_self]
  refine received.agree pbufs (fun j => ?_) (fun j => ?_) (fun j => ?_) (fun j => ?_)
    fun j => history ▸ .refl _
  all_goals
    by_cases same : j = k
    · subst same
      simp_all
    · simp [elsewhere j same]

/-- A free slot is taken. -/
theorem fill (received : Received n items) (free : (n.socks k).state = .free)
    (pbufs : n'.pbufs = n.pbufs) (head : (n'.socks k).rxHead = none)
    (off : (n'.socks k).rxOff = 0) (mine : History.none.SameBytes (n'.history k))
    (others : ∀ j ≠ k, (n'.socks j).rxHead = (n.socks j).rxHead ∧
      (n'.socks j).rxOff = (n.socks j).rxOff ∧ (n'.socks j).state = (n.socks j).state ∧
      (n'.socks j).pcb = (n.socks j).pcb)
    (histories : ∀ j ≠ k, (n.history j).SameBytes (n'.history j)) : Received n' items := by
  refine ⟨fun j => ?_, pbufs ▸ received.accounted⟩
  by_cases here : j = k
  · subst here
    obtain ⟨delivered, returned, credited⟩ := mine
    rw [(received.queues j).drained free]
    constructor
    · exact head
    · exact fun _ _ => off
    · nofun
    · nofun
    · simp [delivered, returned, chainBytes, History.none]
    · simp [delivered, returned, History.none]
    · simp [credited, returned, History.none]
    · exact fun _ => rfl
  · obtain ⟨sameHead, sameOff, sameState, samePcb⟩ := others j here
    exact (received.queues j).frame (pbufs ▸ (received.queues j).chain) sameHead sameOff
      (by rw [sameState]) (by rw [samePcb]; exact id) (histories j here)

/-- One socket's chain changes; the buffers of the others stay where they are. -/
theorem edit (received : Received n items) (rest : List (Nat × List UInt8))
    (mine : n'.Receives k rest)
    (accounted : n'.pbufs.Accounted (Function.update items k rest))
    (kept : ∀ j ≠ k, ∀ p ∈ addresses (items j), n'.pbufs.cells p = n.pbufs.cells p)
    (others : ∀ j ≠ k, n'.socks j = n.socks j)
    (histories : ∀ j ≠ k, n'.history j = n.history j) :
    Received n' (Function.update items k rest) := by
  refine ⟨fun j => ?_, accounted⟩
  by_cases here : j = k
  · subst here
    rwa [Function.update_self]
  · rw [Function.update_of_ne here]
    have socks := others j here
    exact (received.queues j).frame ((received.queues j).chain.congr (kept j here))
      (by rw [socks]) (by rw [socks]) (by rw [socks]) (by rw [socks]; exact id)
      (histories j here ▸ .refl _)

end Received

/-! ## Arrival -/

namespace State

variable {n n' : State} {k : Fin 16} {items new : List (Nat × List UInt8)}

theorem chainBytes_append (front back : List (Nat × List UInt8)) :
    chainBytes (front ++ back) = chainBytes front ++ chainBytes back :=
  List.flatMap_append

theorem chainBytes_of_map {segments : List Segment}
    (bytes : items.map Prod.snd = segments.map Subtype.val) :
    chainBytes items = segments.flatMap Subtype.val := by
  rw [chainBytes, List.flatMap_def, List.flatMap_def, bytes]

theorem Receives.offset_le (receives : n.Receives k items) (used : (n.socks k).state ≠ .free) :
    (n.socks k).rxOff.toNat ≤ (chainBytes items).length := by
  cases items with
  | nil => simp [receives.start used rfl]
  | cons entry rest =>
      have := receives.offset entry.1 entry.2 rest rfl
      simp only [chainBytes, List.flatMap_cons, List.length_append]
      omega

/-- Buffers added to the chain of a socket in use are delivered. -/
theorem Receives.extend (receives : n.Receives k items) (used : (n.socks k).state ≠ .free)
    (chain : n'.pbufs.Chain (n'.socks k).rxHead (items ++ new)) (nonempty : new ≠ [])
    (off : (n'.socks k).rxOff = (n.socks k).rxOff)
    (state : (n'.socks k).state = (n.socks k).state)
    (pcb : (n'.socks k).pcb = (n.socks k).pcb)
    (history : n'.history k = { n.history k with
      delivered := (n.history k).delivered ++ chainBytes new }) :
    n'.Receives k (items ++ new) := by
  have stream := receives.stream used
  constructor
  · exact chain
  · exact fun _ empty => absurd (List.append_eq_nil_iff.mp empty).2 nonempty
  · intro p bytes rest split
    rw [off]
    cases items with
    | nil => simp [receives.start used rfl]
    | cons entry others =>
        obtain ⟨rfl, _⟩ := List.cons.inj split
        exact receives.offset _ _ others rfl
  · intro p bytes rest split
    rw [off]
    cases items with
    | nil => exact .inl (receives.start used rfl)
    | cons entry others =>
        obtain ⟨rfl, _⟩ := List.cons.inj split
        exact receives.unread _ _ others rfl
  · intro _
    rw [history, off, chainBytes_append,
      List.drop_append_of_le_length (receives.offset_le used), ← List.append_assoc, ← stream]
  · rw [history]
    exact receives.before.trans (List.prefix_append _ _)
  · rw [pcb, history]
    exact receives.credit
  · rw [state]
    exact fun free => absurd free used

end State

namespace Received

variable {n : State} {items : Fin 16 → List (Nat × List UInt8)} {k : Fin 16}

/-- Data that arrives for a socket in use is added to its chain. -/
theorem deliver (received : Received n items) (used : (n.socks k).state ≠ .free)
    {p : Nat} {pbufs : Pbufs} {new : List (Nat × List UInt8)} {count : Nat}
    (chain : pbufs.Chain (some p) new)
    (place : addresses new = (List.range' n.pbufs.fresh count).reverse)
    (fresh : pbufs.fresh = n.pbufs.fresh + count) (freed : pbufs.freed = n.pbufs.freed)
    (kept : ∀ q < n.pbufs.fresh, pbufs.cells q = n.pbufs.cells q) :
    ∃ n', { n with pbufs }.onRecv (some k) (some p) .ok = .ok n' ∧ n'.history = n.history ∧
      n'.pbufs.freed = n.pbufs.freed ∧ Received (n'.setHistory k { n'.history k with
        delivered := (n'.history k).delivered ++ chainBytes new })
        (Function.update items k (items k ++ new)) := by
  have mine := received.queues k
  have older : ∀ j, ∀ q ∈ addresses (items j), pbufs.cells q = n.pbufs.cells q :=
    fun j q member => kept q (received.accounted.below member)
  have someNew : new ≠ [] := by
    rintro rfl
    exact absurd chain nofun
  cases head : (n.socks k).rxHead with
  | none =>
      have empty : items k = [] := by
        cases held : items k with
        | nil => rfl
        | cons entry rest =>
            have chained := mine.chain
            rw [held, head] at chained
            exact absurd chained.1 nofun
      refine ⟨{ n with pbufs }.setSock k { n.socks k with rxHead := some p }, ?_, rfl, freed, ?_⟩
      · simp [State.onRecv, State.sockOfArg, bind, Except.bind, head]
      · refine received.edit _ (mine.extend used ?_ someNew ?_ ?_ ?_ ?_)
          (received.accounted.extend place freed fresh)
          (fun j _ => older j) (fun j different => ?_) (fun j different => ?_)
        · simpa [empty] using chain
        all_goals simp_all
  | some first =>
      have front : pbufs.Chain (some first) (items k) := by
        rw [← head]
        exact mine.chain.congr (older k)
      have apart : (addresses (items k)).Disjoint (addresses new) := by
        intro q old isNew
        rw [place, List.mem_reverse, List.mem_range'_1] at isNew
        exact absurd (received.accounted.below old) (Nat.not_lt.mpr isNew.1)
      have below : ∀ q ∈ addresses (items k), q < pbufs.fresh := by
        intro q member
        rw [fresh]
        exact Nat.lt_add_right _ (received.accounted.below member)
      obtain ⟨joined, cat, sameFresh, sameFreed, elsewhere, whole⟩ :=
        Pbufs.pbufCat_of_chain below front chain apart
      refine ⟨{ n with pbufs := joined }, ?_, rfl, sameFreed.trans freed, ?_⟩
      · simp [State.onRecv, State.sockOfArg, bind, Except.bind, head, cat]
      · refine received.edit _ (mine.extend used ?_ someNew rfl rfl rfl ?_)
          (received.accounted.extend place (sameFreed.trans freed) (sameFresh.trans fresh))
          (fun j different q member => ?_) (fun _ _ => rfl) (fun j different => ?_)
        · simpa [head] using whole
        · simp
        · have notMine : q ∉ addresses (items k) := fun also =>
            different (received.accounted.apart j k q member also)
          exact (elsewhere q notMine).trans (older j q member)
        · simp [different]

/-- Whatever arrives, no packet buffer is lost, and those freed at once are new. -/
theorem arrive (received : Received n items) {b : Pcb} (segments : List Segment)
    (target : b.recv = true → ∃ k, b.arg = some k ∧ (n.socks k).state ≠ .free) :
    ∃ n' items' gone, n.arrive b segments = .ok n' ∧ Received n' items' ∧
      n'.pbufs.freed = n.pbufs.freed ++ gone ∧ ∀ p ∈ gone, n.pbufs.fresh ≤ p := by
  obtain ⟨new, chain, bytes, place, fresh, freed, kept⟩ := n.pbufs.allocChain_spec segments
  have content := State.chainBytes_of_map bytes
  rw [State.arrive]
  cases head : (n.pbufs.allocChain segments).1 with
  | none => exact ⟨n, items, [], rfl, received, (List.append_nil _).symm, by simp⟩
  | some p =>
      rw [head] at chain
      cases recv : b.recv with
      | true =>
          obtain ⟨k, arg, used⟩ := target recv
          obtain ⟨n', delivered, _, sameFreed, after⟩ :=
            received.deliver used chain place fresh freed kept
          rw [content] at after
          refine ⟨_, _, [], ?_, after, sameFreed.trans (List.append_nil _).symm, by simp⟩
          simp [arg, delivered, bind, Except.bind]
      | false =>
          have below : ∀ q ∈ addresses new, q < (n.pbufs.allocChain segments).2.fresh := by
            intro q member
            rw [place, List.mem_reverse, List.mem_range'_1] at member
            omega
          have freedAll := Pbufs.pbufFree_of_chain below chain
          refine ⟨{ n with
            pbufs := (n.pbufs.allocChain segments).2.freeAll (addresses new) }, items,
            addresses new, ?_, ⟨fun k => ?_, ?_⟩, ?_, fun q member => ?_⟩
          · simp [freedAll, bind, Except.bind]
          · refine (received.queues k).frame ?_ rfl rfl .rfl id (.refl _)
            refine (received.queues k).chain.congr fun q member => ?_
            have old := received.accounted.below member
            have notNew : q ∉ addresses new := by
              rw [place, List.mem_reverse, List.mem_range'_1]
              omega
            rw [Pbufs.cells_freeAll _ notNew, kept q old]
          · apply received.accounted.drop place
            · rw [Pbufs.freed_freeAll, freed]
            · rw [Pbufs.fresh_freeAll, fresh]
          · rw [Pbufs.freed_freeAll, freed]
          · rw [place, List.mem_reverse, List.mem_range'_1] at member
            exact member.1

end Received

/-! ## Reading -/

/-- A socket whose chain starts here. -/
theorem State.Receives.first {n : State} {k : Fin 16} {items : List (Nat × List UInt8)}
    {p : Nat} (receives : n.Receives k items) (head : (n.socks k).rxHead = some p) :
    ∃ bytes rest b, items = (p, bytes) :: rest ∧ n.pbufs.cells p = some b ∧ b.Carries bytes ∧
      n.pbufs.Chain b.next rest ∧ (n.socks k).state ≠ .free := by
  have chain := receives.chain
  cases items with
  | nil => exact absurd (chain.symm.trans head) nofun
  | cons entry rest =>
      obtain ⟨start, b, stored, carries, tail⟩ := chain
      obtain rfl : p = entry.1 := Option.some.inj (head.symm.trans start)
      exact ⟨entry.2, rest, b, rfl, stored, carries, tail,
        fun free => absurd (receives.drained free) nofun⟩

/-- The bytes of a chain beyond an offset into its first buffer. -/
theorem drop_chainBytes (p : Nat) (rest : List (Nat × List UInt8)) {bytes : List UInt8}
    {off : Nat} (inside : off ≤ bytes.length) :
    (chainBytes ((p, bytes) :: rest)).drop off = bytes.drop off ++ chainBytes rest := by
  rw [chainBytes, List.flatMap_cons, List.drop_append_of_le_length inside]
  rfl

namespace Received

variable {n : State} {items : Fin 16 → List (Nat × List UInt8)} {k : Fin 16} {p : Nat}
  {b : Pbuf} {bytes : List UInt8} {rest : List (Nat × List UInt8)}

/-- The first buffer of a chain was read to its end: it is freed alone. -/
theorem finish (received : Received n items) (used : (n.socks k).state ≠ .free)
    (split : items k = (p, bytes) :: rest) (stored : n.pbufs.cells p = some b)
    (tail : n.pbufs.Chain b.next rest) {history : History}
    (delivered : history.delivered = (n.history k).delivered)
    (returned : history.returned =
      (n.history k).returned ++ bytes.drop (n.socks k).rxOff.toNat)
    (credited : (n.socks k).pcb ≠ none → history.credited = history.returned.length) :
    Received (({ n with pbufs := n.pbufs.memFree p }.setSock k
      { n.socks k with rxHead := b.next, rxOff := 0 }).setHistory k history)
      (Function.update items k rest) := by
  have mine := received.queues k
  have inside := mine.offset p bytes rest split
  have nodup : (addresses (items k)).Nodup := mine.chain.nodup
  have notAgain : p ∉ addresses rest := by
    rw [split] at nodup
    exact (List.nodup_cons.mp nodup).1
  have stream : history.delivered = history.returned ++ chainBytes rest := by
    rw [delivered, returned, mine.stream used, split, drop_chainBytes p rest inside,
      List.append_assoc]
  refine received.edit rest ?_ ?_ (fun j different q member => ?_) (fun j different => ?_)
    (fun j different => ?_)
  · constructor
    · simpa [Pbufs.memFree] using tail.update notAgain none
    · simp
    · simp
    · simp
    · simpa using fun _ => stream
    · simp [stream]
    · simpa using credited
    · simpa using fun free => absurd free used
  · have front : items k = [(p, bytes)] ++ rest := split
    exact received.accounted.release front nodup rfl rfl
  · have other : q ≠ p := by
      rintro rfl
      refine different (received.accounted.apart j k q member ?_)
      rw [split]
      exact List.mem_cons_self ..
    simp [Pbufs.memFree, other]
  · simp [different]
  · simp [different]

/-- Part of the first buffer of a chain was read. -/
theorem advance (received : Received n items) (used : (n.socks k).state ≠ .free)
    (split : items k = (p, bytes) :: rest) {off : UInt16} {count : Nat}
    (moved : off.toNat = (n.socks k).rxOff.toNat + count) (inside : off.toNat < bytes.length)
    {history : History} (delivered : history.delivered = (n.history k).delivered)
    (returned : history.returned =
      (n.history k).returned ++ (bytes.drop (n.socks k).rxOff.toNat).take count)
    (credited : (n.socks k).pcb ≠ none → history.credited = history.returned.length) :
    Received ((n.setSock k { n.socks k with rxOff := off }).setHistory k history)
      (Function.update items k (items k)) := by
  have mine := received.queues k
  have stream : history.delivered =
      history.returned ++ (chainBytes (items k)).drop off.toNat := by
    rw [delivered, returned, mine.stream used, split,
      drop_chainBytes p rest (mine.offset p bytes rest split),
      drop_chainBytes p rest (Nat.le_of_lt inside), moved, ← List.drop_drop, List.append_assoc,
      ← List.append_assoc (List.take _ _), List.take_append_drop]
  refine received.edit (items k) ?_ ?_ (fun j different q member => rfl)
    (fun j different => ?_) (fun j different => ?_)
  · constructor
    · simpa using mine.chain
    · simp [split]
    · intro q bytes' rest' same
      rw [split] at same
      obtain ⟨rfl, rfl⟩ := Prod.mk.inj (List.cons.inj same).1
      simpa using Nat.le_of_lt inside
    · intro q bytes' rest' same
      rw [split] at same
      obtain ⟨rfl, rfl⟩ := Prod.mk.inj (List.cons.inj same).1
      simpa using .inr inside
    · simpa using fun _ => stream
    · simp [stream]
    · simpa using credited
    · simpa using fun free => absurd free used
  · rw [Function.update_eq_self]
    exact received.accounted
  · simp [different]
  · simp [different]

end Received

theorem toNat_readCount (len : UInt64) {b : Pbuf} {off : UInt16}
    (inside : off.toNat ≤ b.len.toNat) :
    (readCount len b off).toNat = min len.toNat (b.len.toNat - off.toNat) := by
  have avail : (b.len.toUInt64 - off.toUInt64).toNat = b.len.toNat - off.toNat := by
    rw [UInt64.toNat_sub_of_le _ _ (UInt64.le_iff_toNat_le.mpr (by simpa using inside))]
    simp
  simp only [readCount]
  split
  next less =>
    rw [UInt64.lt_iff_toNat_lt, avail] at less
    omega
  next more =>
    rw [UInt64.lt_iff_toNat_lt, avail] at more
    omega

theorem toNat_toUInt16_readCount (len : UInt64) {b : Pbuf} {off : UInt16}
    (inside : off.toNat ≤ b.len.toNat) :
    (readCount len b off).toUInt16.toNat = (readCount len b off).toNat := by
  have count := toNat_readCount len inside
  have bound := b.len.toNat_lt
  rw [UInt64.toNat_toUInt16, Nat.mod_eq_of_lt]
  omega

theorem toNat_off_readCount (len : UInt64) {b : Pbuf} {off : UInt16}
    (inside : off.toNat ≤ b.len.toNat) :
    (off + (readCount len b off).toUInt16).toNat = off.toNat + (readCount len b off).toNat := by
  have count := toNat_readCount len inside
  have bound := b.len.toNat_lt
  rw [UInt16.toNat_add, toNat_toUInt16_readCount len inside, Nat.mod_eq_of_lt]
  omega

/-- What may go wrong when bytes are credited to a control block. -/
def State.CreditFault (n : State) (k : Fin 16) (fault : Fault) : Prop :=
  ∃ q, (n.socks k).pcb = some q ∧
    (fault = .freedPcb ∧ n.tcp.pcbs q = none ∨
      fault = .listeningPcb ∧ ∃ b, n.tcp.pcbs q = some b ∧ b.state = .listen)

namespace State

variable {n n' : State} {k : Fin 16} {p : Nat}

theorem connection_fails {t : Tcp} : FailsOnly (fun fault =>
    fault = .freedPcb ∧ t.pcbs p = none ∨
      fault = .listeningPcb ∧ ∃ b, t.pcbs p = some b ∧ b.state = .listen) (t.connection p) := by
  rw [Tcp.connection, Tcp.get]
  cases stored : t.pcbs p with
  | none => exact .error (.inl ⟨rfl, rfl⟩)
  | some b =>
      simp only [bind, Except.bind]
      split
      next listening => exact .error (.inr ⟨rfl, b, rfl, listening⟩)
      · exact .ok b

theorem credit_fails {count : UInt16} : FailsOnly (n.CreditFault k) (n.credit k count) := by
  rw [credit]
  split
  · exact .ok n
  next q pcb =>
    refine .bind (connection_fails.mono fun fault cause => ⟨q, pcb, cause⟩) fun _ _ => .ok _

/-- The history after bytes were credited. -/
theorem credit_eq_ok {count : UInt16} (credited : n.credit k count = .ok n') :
    n' = n ∧ (n.socks k).pcb = none ∨
      n' = n.setHistory k { n.history k with
        credited := (n.history k).credited + count.toNat } := by
  rw [credit] at credited
  split at credited
  next noPcb => exact .inl ⟨(Except.ok.inj credited).symm, noPcb⟩
  · obtain ⟨_, _, rest⟩ := bind_eq_ok.mp credited
    exact .inr (Except.ok.inj rest).symm

/-- Bytes are taken from the first buffer, and freed with it if they are its last. -/
theorem consume_eq {b : Pbuf} {off : UInt16} (ref : b.ref = 1) :
    n.consume k p b off = .ok (
      if off = b.len then { n with pbufs := n.pbufs.memFree p }.setSock k
        { n.socks k with rxHead := b.next, rxOff := 0 }
      else n.setSock k { n.socks k with rxOff := off }) := by
  rw [consume]
  split
  · have detached : (n.pbufs.set p { b with next := none }).pbufFree p =
        .ok (n.pbufs.memFree p) := by
      rw [Pbufs.pbufFree_of_single (b := { b with next := none }) (by simp) ref rfl,
        Pbufs.memFree_set]
    rw [detached]
    rfl
  · rfl

end State

namespace Received

variable {n n' : State} {items : Fin 16 → List (Nat × List UInt8)} {k : Fin 16} {p : Nat}

/-- The socket after one `bsock_read`, up to the window credit. -/
theorem consume (received : Received n items) (head : (n.socks k).rxHead = some p)
    (len : UInt64) :
    ∃ b consumed, n.pbufs.get p = .ok b ∧ (n.socks k).rxOff.toNat ≤ b.len.toNat ∧
      n.consume k p b ((n.socks k).rxOff +
        (readCount len b (n.socks k).rxOff).toUInt16) = .ok consumed ∧
      n.Control consumed ∧ consumed.history = n.history ∧
      ∀ history : History, history.delivered = (n.history k).delivered →
        history.returned = (n.history k).returned ++
          (b.payload.drop (n.socks k).rxOff.toNat).take
            (readCount len b (n.socks k).rxOff).toNat →
        ((n.socks k).pcb ≠ none → history.credited = history.returned.length) →
        ∃ items', Received (consumed.setHistory k history) items' := by
  have mine := received.queues k
  obtain ⟨bytes, rest, b, split, stored, carries, tail, used⟩ := mine.first head
  have inside : (n.socks k).rxOff.toNat ≤ b.len.toNat := by
    rw [carries.len]
    exact mine.offset p bytes rest split
  have count := toNat_readCount len inside
  have moved := toNat_off_readCount len inside
  refine ⟨b, _, Pbufs.get_of_cell stored, inside, State.consume_eq carries.ref,
    State.consume_control (State.consume_eq carries.ref), ?_, ?_⟩
  · split <;> rfl
  · intro history delivered returned credited
    rw [carries.payload] at returned
    split
    next finished =>
      -- All that was left of the buffer has been copied.
      have whole : (bytes.drop (n.socks k).rxOff.toNat).take
          (readCount len b (n.socks k).rxOff).toNat =
          bytes.drop (n.socks k).rxOff.toNat := by
        apply List.take_of_length_le
        rw [List.length_drop, ← carries.len, ← finished, moved]
        omega
      rw [whole] at returned
      exact ⟨_, received.finish used split stored tail delivered returned credited⟩
    next unfinished =>
      have different : ((n.socks k).rxOff +
          (readCount len b (n.socks k).rxOff).toUInt16).toNat ≠ b.len.toNat :=
        fun same => unfinished (UInt16.toNat_inj.mp same)
      refine ⟨_, received.advance used split moved ?_ delivered returned credited⟩
      rw [moved] at different
      rw [moved, ← carries.len]
      omega

theorem read_fails (received : Received n items) (head : (n.socks k).rxHead = some p)
    (len : UInt64) : FailsOnly (n.CreditFault k) (n.bsockRead k p len) := by
  obtain ⟨b, consumed, found, _, consumes, control, _⟩ := received.consume head len
  have credits : FailsOnly (n.CreditFault k) (consumed.credit k
      (readCount len b (n.socks k).rxOff).toUInt16) := by
    refine State.credit_fails.mono fun fault cause => ?_
    rwa [State.CreditFault, control.tcp, (control.socks k).pcb] at cause
  refine .bind (found ▸ .ok b) fun b' found' => ?_
  obtain rfl := Except.ok.inj (found.symm.trans found')
  refine .bind (consumes ▸ .ok consumed) fun consumed' consumes' => ?_
  obtain rfl := Except.ok.inj (consumes.symm.trans consumes')
  exact .bind credits fun _ _ => .ok _

/-- `bsock_read` returns the next bytes and credits them. -/
theorem read (received : Received n items) (head : (n.socks k).rxHead = some p)
    {len : UInt64} {reply : Reply} (result : n.bsockRead k p len = .ok (reply, n')) :
    ∃ items', Received n' items' := by
  obtain ⟨b, consumed, found, inside, consumes, control, sameHistory, after⟩ :=
    received.consume head len
  have mine := received.queues k
  obtain ⟨_, found', rest⟩ := bind_eq_ok.mp result
  obtain rfl := Except.ok.inj (found.symm.trans found')
  obtain ⟨_, consumes', rest⟩ := bind_eq_ok.mp rest
  obtain rfl := Except.ok.inj (consumes.symm.trans consumes')
  obtain ⟨credited, credits, rest⟩ := bind_eq_ok.mp rest
  obtain ⟨_, rfl⟩ := Prod.mk.inj (Except.ok.inj rest)
  have carries : b.len.toNat = b.payload.length := by
    obtain ⟨bytes, _, b', _, stored, carries, _⟩ := mine.first head
    obtain rfl := Except.ok.inj (found.symm.trans (Pbufs.get_of_cell stored))
    rw [carries.len, carries.payload]
  have count := toNat_readCount len inside
  have length : ((b.payload.drop (n.socks k).rxOff.toNat).take
      (readCount len b (n.socks k).rxOff).toNat).length =
      (readCount len b (n.socks k).rxOff).toNat := by
    rw [List.length_take, List.length_drop, ← carries]
    omega
  rcases State.credit_eq_ok credits with ⟨rfl, noPcb⟩ | rfl
  · apply after
    · rw [sameHistory]
    · rw [sameHistory]
    · rw [(control.socks k).pcb] at noPcb
      exact fun has => absurd noPcb has
  · have same : ∀ (m : State) (first second : History),
        (m.setHistory k first).setHistory k second = m.setHistory k second := by
      intro m first second
      simp [State.setHistory]
    rw [same]
    apply after
    · simp [sameHistory]
    · simp only [State.history_setHistory, Function.update_self, sameHistory]
    · intro has
      simp only [State.history_setHistory, Function.update_self, sameHistory,
        List.length_append]
      rw [mine.credit has]
      have := toNat_toUInt16_readCount len inside
      exact congrArg _ (this.trans length.symm)

theorem drain (received : Received n items) (k : Fin 16) :
    Pbufs.drain (n.pbufs.fresh + 1) n.pbufs (n.socks k).rxHead =
      .ok (n.pbufs.freeAll (addresses (items k))) := by
  have chain := (received.queues k).chain
  refine Pbufs.drain_of_chain (Nat.le_succ_of_le (chain.length_le fun p member => ?_)) chain
  exact received.accounted.below member

/-- What is left in the chain of a socket is freed when the socket is closed. -/
theorem close (received : Received n items) (tcp : Tcp) {pbufs : Pbufs}
    (drained : Pbufs.drain (n.pbufs.fresh + 1) n.pbufs (n.socks k).rxHead = .ok pbufs) :
    Received (({ n with tcp, pbufs }.setSock k
      { n.socks k with rxHead := none, state := .free }).setHistory k
      { n.history k with held := false }) (Function.update items k []) := by
  obtain rfl := Except.ok.inj ((received.drain k).symm.trans drained)
  have mine := received.queues k
  have split : items k = items k ++ [] := (List.append_nil _).symm
  refine received.edit [] ?_ ?_ (fun j different q member => ?_) (fun j different => ?_)
    (fun j different => ?_)
  · constructor
    · simp [Linked]
    · simp
    · nofun
    · nofun
    · simp
    · simpa using mine.before
    · simpa using mine.credit
    · exact fun _ => rfl
  · apply received.accounted.release split mine.chain.nodup
    · exact Pbufs.freed_freeAll _ _
    · exact Pbufs.fresh_freeAll _ _
  · exact Pbufs.cells_freeAll _ fun also => different (received.accounted.apart j k q member also)
  · simp [different]
  · simp [different]

theorem handOut (received : Received n items) (l slot : Fin 16) :
    Received (n.handOut l slot) items := by
  have sock : ∀ j, ((n.handOut l slot).socks j).rxHead = (n.socks j).rxHead ∧
      ((n.handOut l slot).socks j).rxOff = (n.socks j).rxOff ∧
      ((n.handOut l slot).socks j).pcb = (n.socks j).pcb := by
    intro j
    by_cases here : j = l
    · rw [here, n.socks_handOut_self]
      exact ⟨rfl, rfl, rfl⟩
    · rw [n.socks_handOut_of_ne slot here]
      exact ⟨rfl, rfl, rfl⟩
  refine received.agree rfl (fun j => (sock j).1) (fun j => (sock j).2.1)
    (fun j => by rw [n.state_handOut]) (fun j => by rw [(sock j).2.2]; exact id) fun j => ?_
  by_cases isSlot : j = slot
  · subst isSlot
    by_cases here : j = l
    · subst here
      simpa [State.handOut] using ⟨rfl, rfl, rfl⟩
    · simpa [State.handOut, here] using ⟨rfl, rfl, rfl⟩
  · by_cases here : j = l
    · subst here
      simpa [State.handOut, isSlot] using ⟨rfl, rfl, rfl⟩
    · simpa [State.handOut, isSlot, here] using .refl _

theorem offered {l : Fin 16} (received : Received n items) (free : (n.socks k).state = .free)
    (pbufs : n'.pbufs = n.pbufs) (view : n.Offered n' l k) : Received n' items := by
  refine received.fill free pbufs ?_ ?_ ?_ (fun j different => ?_) (fun j different => ?_)
  · rw [view.slot]
    rfl
  · rw [view.slot]
    rfl
  · rw [view.slotHistory]
    exact .refl _
  · by_cases isListener : j = l
    · rw [isListener, view.listener]
      exact ⟨rfl, rfl, rfl, rfl⟩
    · rw [view.others j isListener different]
      exact ⟨rfl, rfl, rfl, rfl⟩
  · by_cases isListener : j = l
    · rw [isListener, view.listenerHistory]
      exact ⟨rfl, rfl, rfl⟩
    · rw [view.otherHistories j isListener different]
      exact .refl _

/-- Every step keeps the bytes and the packet buffers in order. -/
theorem step {s : Shim} {input : Input} (received : Received s.net items) (owned : Owned s.net)
    (inUse : ∀ k, s.Uses k input → (s.net.socks k).state ≠ .free)
    (effect : Effect s input n') : ∃ items', Received n' items' := by
  have unchanged : ∀ m : State, m.socks = s.net.socks → m.pbufs = s.net.pbufs →
      m.history = s.net.history → ∃ items', Received m items' := by
    intro m socks pbufs history
    refine ⟨items, received.agree pbufs ?_ ?_ ?_ ?_ fun k => history ▸ .refl _⟩
    all_goals simp [socks]
  cases effect with
  | quiet => exact unchanged _ rfl rfl rfl
  | data control moves =>
      cases moves with
      | @arrive q b segments _ stored _ result =>
          obtain ⟨arrived, items', _, arrives, after, _⟩ := received.arrive segments fun recv => by
            obtain ⟨k, arg, used, _⟩ := (owned.pcbs q b stored).registered (.inl recv)
            exact ⟨k, arg, used⟩
          obtain rfl := Except.ok.inj (arrives.symm.trans result)
          exact ⟨items', after⟩
      | @fin q b _ stored _ recv result =>
          obtain ⟨k, arg, ended⟩ := bind_eq_ok.mp result
          obtain ⟨used, _⟩ := owned.owner stored (.inl recv) (State.sockOfArg_eq_ok.mp arg)
          obtain rfl := Except.ok.inj ended
          exact ⟨items, received.restate k rfl rfl rfl used used rfl rfl id⟩
      | read _ head result => exact received.read head result
  | @reset k _ free =>
      refine ⟨items, received.fill free rfl ?_ ?_ ?_ (fun j different => ?_)
        (fun j different => ?_)⟩
      all_goals simp_all [State.resetSock, Bsock.zero, History.SameBytes.refl]
  | @socket k _ free =>
      refine ⟨items, received.fill free rfl ?_ ?_ ?_ (fun j different => ?_)
        (fun j different => ?_)⟩
      all_goals simp_all [Bsock.zero, History.SameBytes.refl]
      exact ⟨rfl, rfl, rfl⟩
  | @listen k p b listener uses pcb =>
      exact ⟨items, received.restate k rfl rfl rfl (inUse k uses) (by simp) rfl rfl (by simp [pcb])⟩
  | @accept l accepts => exact ⟨items, received.handOut l _⟩
  | @connect k p b b' state uses _ _ _ _ _ outcome =>
      refine ⟨items, received.restate k rfl rfl rfl (inUse k uses) ?_ rfl rfl id⟩
      rcases outcome with ⟨_, _, _, rfl⟩ | ⟨_, _, rfl⟩ <;> simp
  | @unconnected k uses =>
      exact ⟨items, received.restate k rfl rfl rfl (inUse k uses) (by simp) rfl rfl id⟩
  | close _ _ drained => exact ⟨_, received.close _ drained⟩
  | silent => exact unchanged _ rfl rfl rfl
  | @lost p b k _ stored errf arg =>
      obtain ⟨used, _⟩ := owned.owner stored (.inr (.inl errf)) arg
      exact ⟨items, received.restate k rfl rfl rfl used (by simp) rfl rfl (by simp)⟩
  | established => exact unchanged _ rfl rfl rfl
  | @connected p b k stored synSent callback arg =>
      obtain ⟨used, _⟩ := owned.owner stored (.inr (.inr (.inr ⟨synSent, callback⟩))) arg
      exact ⟨items, received.restate k rfl rfl rfl used (by simp) rfl rfl id⟩
  | @offered q b new l k taken stored listening accept arg room free state serves isTaken =>
      obtain ⟨_, apart⟩ := owned.listener stored listening accept arg free
      have view := State.offered_of_ne apart isTaken
      exact ⟨items, received.offered free (isTaken ▸ rfl) view⟩

end Received

end AppPortKit.Net
