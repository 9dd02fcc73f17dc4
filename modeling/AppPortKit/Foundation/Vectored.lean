import Mathlib.Init

/-!
# Vectored transfers

The loop that makes one transfer for each element of a vector of buffers.  It stops at the
first transfer that fails or comes up short, and returns what was transferred so far; only
if that is nothing does it return the failure.  A transfer may have to wait, and is then
not over when what is known of its surroundings ends.
-/

universe u v w

namespace Vectored

/-- What a transfer returns, and the values it delivers. -/
structure Transfer (β : Type w) where
  ret : Int
  data : List β
  deriving DecidableEq

variable {σ : Type w} {ε : Type v} {β : Type w} {φ : Type u}

/-- Nothing yet. -/
def Transfer.zero : Transfer β := { ret := 0, data := [] }

/-- One transfer after another. -/
def Transfer.add (total part : Transfer β) : Transfer β :=
  { ret := total.ret + part.ret, data := total.data ++ part.data }

/-- A transfer fails after others. -/
def Transfer.fail (total part : Transfer β) : Transfer β :=
  { ret := if total.ret ≠ 0 then total.ret else part.ret, data := total.data ++ part.data }

/-- A transfer that delivers some values returns their number. -/
def Transfer.ofData (data : List β) : Transfer β := { ret := data.length, data }

theorem Transfer.ofData_add (first second : List β) :
    (ofData first).add (ofData second) = ofData (first ++ second) := by
  rw [ofData, ofData, add, ofData, List.length_append, Int.natCast_add]

theorem Transfer.zero_add (part : Transfer β) : zero.add part = part := by
  rw [zero, add, Int.zero_add, List.nil_append]

theorem Transfer.zero_fail (part : Transfer β) : zero.fail part = part := by
  rw [zero, fail, if_neg (fun nonzero => nonzero rfl), List.nil_append]

/-- The loop, with the sum of the transfers made. -/
def loop (transfer : σ → ε → Except φ (Option (Transfer β) × σ)) (size : ε → Nat)
    (total : Transfer β) : List ε → σ → Except φ (Option (Transfer β) × σ)
  | [], s => .ok (some total, s)
  | element :: rest, s => do
      let result ← transfer s element
      match result.1 with
      | none => .ok (none, result.2)
      | some part =>
          if part.ret < 0 then .ok (some (total.fail part), result.2)
          else if part.ret.toNat < size element then .ok (some (total.add part), result.2)
          else loop transfer size (total.add part) rest result.2

section Rules

variable {transfer : σ → ε → Except φ (Option (Transfer β) × σ)} {size : ε → Nat}
  {total part : Transfer β} {element : ε} {rest : List ε} {s s' : σ}

theorem loop_nil : loop transfer size total [] s = .ok (some total, s) := rfl

/-- A transfer that fails ends the loop. -/
theorem loop_of_failed (served : transfer s element = .ok (some part, s')) (failed : part.ret < 0) :
    loop transfer size total (element :: rest) s = .ok (some (total.fail part), s') := by
  simp only [loop, served, bind, Except.bind, if_pos failed]

/-- So does one that comes up short. -/
theorem loop_of_short (served : transfer s element = .ok (some part, s'))
    (nonneg : 0 ≤ part.ret) (short : part.ret.toNat < size element) :
    loop transfer size total (element :: rest) s = .ok (some (total.add part), s') := by
  simp only [loop, served, bind, Except.bind, if_neg (Int.not_lt.mpr nonneg), if_pos short]

/-- After a whole transfer the loop goes on. -/
theorem loop_of_full (served : transfer s element = .ok (some part, s'))
    (nonneg : 0 ≤ part.ret) (full : size element ≤ part.ret.toNat) :
    loop transfer size total (element :: rest) s =
      loop transfer size (total.add part) rest s' := by
  simp only [loop, served, bind, Except.bind, if_neg (Int.not_lt.mpr nonneg),
    if_neg (Nat.not_lt.mpr full)]

/-- A loop that returns has made its first transfer, and returned with it or gone on. -/
theorem loop_returned (returned : loop transfer size total (element :: rest) s =
      .ok (some part, s')) :
    ∃ first t, transfer s element = .ok (some first, t) ∧
      (t = s' ∧ (first.ret < 0 ∧ part = total.fail first ∨
          0 ≤ first.ret ∧ first.ret.toNat < size element ∧ part = total.add first) ∨
        0 ≤ first.ret ∧ size element ≤ first.ret.toNat ∧
          loop transfer size (total.add first) rest t = .ok (some part, s')) := by
  cases served : transfer s element with
  | error fault =>
      simp only [loop, served, bind, Except.bind] at returned
      exact absurd returned nofun
  | ok result =>
      obtain ⟨reply, t⟩ := result
      cases reply with
      | none =>
          simp only [loop, served, bind, Except.bind] at returned
          exact absurd (Prod.mk.inj (Except.ok.inj returned)).1 nofun
      | some first =>
          refine ⟨first, t, rfl, ?_⟩
          by_cases failed : first.ret < 0
          · rw [loop_of_failed served failed] at returned
            obtain ⟨same, rfl⟩ := Prod.mk.inj (Except.ok.inj returned)
            exact .inl ⟨rfl, .inl ⟨failed, (Option.some.inj same).symm⟩⟩
          · have nonneg := Int.not_lt.mp failed
            by_cases short : first.ret.toNat < size element
            · rw [loop_of_short served nonneg short] at returned
              obtain ⟨same, rfl⟩ := Prod.mk.inj (Except.ok.inj returned)
              exact .inl ⟨rfl, .inr ⟨nonneg, short, (Option.some.inj same).symm⟩⟩
            · rw [loop_of_full served nonneg (Nat.not_lt.mp short)] at returned
              exact .inr ⟨nonneg, Nat.not_lt.mp short, returned⟩

variable {done data : List β}

/-- So does a delivery that comes up short. -/
theorem loop_of_short_data (served : transfer s element = .ok (some (.ofData data), s'))
    (short : data.length < size element) :
    loop transfer size (.ofData done) (element :: rest) s =
      .ok (some (.ofData (done ++ data)), s') := by
  rw [loop_of_short served (Int.natCast_nonneg _) short, Transfer.ofData_add]

/-- After a whole delivery the loop goes on. -/
theorem loop_of_full_data (served : transfer s element = .ok (some (.ofData data), s'))
    (full : data.length = size element) :
    loop transfer size (.ofData done) (element :: rest) s =
      loop transfer size (.ofData (done ++ data)) rest s' := by
  rw [loop_of_full served (Int.natCast_nonneg _) (Nat.le_of_eq full.symm),
    Transfer.ofData_add]

/-- After a transfer of something no failure is returned. -/
theorem loop_pos {iov : List ε} (positive : 0 < total.ret)
    (returned : loop transfer size total iov s = .ok (some part, s')) : 0 < part.ret := by
  induction iov generalizing s total with
  | nil => exact Option.some.inj (Prod.mk.inj (Except.ok.inj returned)).1 ▸ positive
  | cons element rest ih =>
      obtain ⟨first, t, _, ⟨_, ⟨_, rfl⟩ | ⟨nonneg, _, rfl⟩⟩ | ⟨nonneg, _, later⟩⟩ :=
        loop_returned returned
      · rw [Transfer.fail, if_pos (Int.ne_of_gt positive)]
        exact positive
      · exact Int.add_pos_of_pos_of_nonneg positive nonneg
      · exact ih (Int.add_pos_of_pos_of_nonneg positive nonneg) later

/-- A loop returns a failure with the first transfer of something. -/
theorem loop_failed_of_returned
    (empty : ∀ element, size element = 0 → transfer s element = .ok (some .zero, s))
    {iov : List ε} (returned : loop transfer size .zero iov s = .ok (some part, s'))
    (failed : part.ret < 0) :
    ∃ element ∈ iov, size element ≠ 0 ∧
      ∃ first, transfer s element = .ok (some first, s') ∧ first.ret < 0 := by
  induction iov with
  | nil =>
      obtain rfl := Option.some.inj (Prod.mk.inj (Except.ok.inj returned)).1
      exact absurd failed (Int.lt_irrefl 0)
  | cons element rest ih =>
      by_cases nothing : size element = 0
      · rw [loop_of_full (empty element nothing) (Int.le_refl 0) (Nat.le_of_eq nothing)]
          at returned
        obtain ⟨other, among, found⟩ := ih returned
        exact ⟨other, List.mem_cons_of_mem _ among, found⟩
      · obtain ⟨first, t, served, ⟨rfl, ⟨short, rfl⟩ | ⟨nonneg, _, rfl⟩⟩ | ⟨_, full, later⟩⟩ :=
          loop_returned returned
        · exact ⟨element, List.mem_cons_self, nothing, first, served, short⟩
        · rw [Transfer.zero_add] at failed
          exact absurd failed (Int.not_lt.mpr nonneg)
        · rw [Transfer.zero_add] at later
          have positive := loop_pos (by omega) later
          omega

/-- If all transfers of something fail, so does a loop that makes one. -/
theorem loop_fails {after : σ → Prop}
    (empty : ∀ element, size element = 0 → transfer s element = .ok (some .zero, s))
    {iov : List ε}
    (fails : ∀ element ∈ iov, size element ≠ 0 →
      ∃ first t, transfer s element = .ok (some first, t) ∧ first.ret < 0 ∧ after t)
    (makes : ∃ element ∈ iov, size element ≠ 0) :
    ∃ part t, loop transfer size .zero iov s = .ok (some part, t) ∧ part.ret < 0 ∧ after t := by
  induction iov with
  | nil => exact absurd makes (by simp)
  | cons element rest ih =>
      by_cases nothing : size element = 0
      · rw [loop_of_full (empty element nothing) (Int.le_refl 0) (Nat.le_of_eq nothing)]
        refine ih (fun other among => fails other (List.mem_cons_of_mem _ among)) ?_
        obtain ⟨other, among, nonempty⟩ := makes
        rcases List.mem_cons.mp among with rfl | later
        · exact absurd nothing nonempty
        · exact ⟨other, later, nonempty⟩
      · obtain ⟨first, t, served, failed, holds⟩ := fails element List.mem_cons_self nothing
        refine ⟨_, t, loop_of_failed served failed, ?_, holds⟩
        rw [Transfer.zero_fail]
        exact failed

/-- What every transfer that returns keeps, the loop keeps. -/
theorem loop_invariant {invariant : σ → Prop}
    (kept : ∀ s element part s', invariant s → transfer s element = .ok (some part, s') →
      invariant s')
    {iov : List ε} (initial : invariant s)
    (returned : loop transfer size total iov s = .ok (some part, s')) : invariant s' := by
  induction iov generalizing s total with
  | nil => exact (Prod.mk.inj (Except.ok.inj returned)).2 ▸ initial
  | cons element rest ih =>
      obtain ⟨first, t, served, rest⟩ := loop_returned returned
      have after := kept s element first t initial served
      rcases rest with ⟨rfl, -⟩ | ⟨_, _, later⟩
      · exact after
      · exact ih after later

end Rules

end Vectored
