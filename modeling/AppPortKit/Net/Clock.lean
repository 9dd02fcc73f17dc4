import AppPortKit.Net.Discipline

/-!
# Deadlines

`sys_now` counts milliseconds in 32 bits and wraps every 49 days.  The loops that wait take
differences of two counts, so they keep their deadlines wherever the count wraps, as long as
the difference itself is counted in 32 bits.
-/

namespace AppPortKit.Net

open Fallible Transition

/-- `sys_now`, from the nanoseconds of `TIMECOUNTER`. -/
def sysNow (counter : UInt64) : UInt32 := (counter / 1000000).toUInt32

/-- `(u32_t)(sys_now() - start) >= timeout`. -/
def timedOut (timeout start : UInt32) (reading : UInt64) : Bool :=
  sysNow reading - start ≥ timeout

/-- A pass of a loop that waits: what it waits for, if that has come, and the reading of
`TIMECOUNTER` after `net_poll`. -/
structure Pass (ρ : Type) where
  met : Option ρ
  reading : UInt64

/-- How a loop ends: with what it waited for, or without. -/
inductive Ending (ρ : Type) where
  | met (result : ρ)
  | gaveUp
  deriving DecidableEq

/-- The pass in which a loop ends, and how. -/
def waitLoop {ρ : Type} (late : UInt64 → Bool) : List (Pass ρ) → Option (Nat × Ending ρ)
  | [] => none
  | pass :: rest =>
      match pass.met with
      | some result => some (0, .met result)
      | none =>
          if late pass.reading then some (0, .gaveUp)
          else (waitLoop late rest).map fun ending => (ending.1 + 1, ending.2)

/-- `net_wait_ready`, from its reading of the clock on; it waits for an address. -/
def netWaitReady (timeout : UInt32) (entered : UInt64) (passes : List (Pass Unit)) :
    Option (Nat × Ending Unit) :=
  waitLoop (timedOut timeout (sysNow entered)) passes

/-! ## Numbers that do not wrap -/

/-- Milliseconds since the counter was zero. -/
def millis (counter : UInt64) : Nat := counter.toNat / 1000000

/-- The time between two readings, in milliseconds, has reached a timeout. -/
def Overdue (timeout : Nat) (entered reading : UInt64) : Prop :=
  (timeout : Int) ≤ (millis reading : Int) - millis entered

instance (timeout : Nat) (entered reading : UInt64) :
    Decidable (Overdue timeout entered reading) :=
  inferInstanceAs (Decidable ((timeout : Int) ≤ (millis reading : Int) - millis entered))

/-- Two readings in order, whose difference in milliseconds has 32 bits. -/
def Comparable (entered reading : UInt64) : Prop :=
  entered ≤ reading ∧ millis reading - millis entered < 4294967296

instance (entered reading : UInt64) : Decidable (Comparable entered reading) :=
  inferInstanceAs (Decidable (_ ∧ _))

section Test

variable {entered reading : UInt64}

theorem toNat_sysNow (counter : UInt64) : (sysNow counter).toNat = millis counter % 4294967296 := by
  rw [sysNow, UInt64.toNat_toUInt32, UInt64.toNat_div, millis]
  rfl

theorem millis_mono (later : entered ≤ reading) : millis entered ≤ millis reading :=
  Nat.div_le_div_right (UInt64.le_iff_toNat_le.mp later)

/-- The wrapped difference of two counts. -/
theorem toNat_sysNow_sub (later : entered ≤ reading) :
    (sysNow reading - sysNow entered).toNat =
      (millis reading - millis entered) % 4294967296 := by
  have ordered := millis_mono later
  rw [UInt32.toNat_sub, toNat_sysNow, toNat_sysNow]
  omega

theorem timedOut_iff_mod (timeout : UInt32) (later : entered ≤ reading) :
    timedOut timeout (sysNow entered) reading = true ↔
      timeout.toNat ≤ (millis reading - millis entered) % 4294967296 := by
  rw [timedOut, decide_eq_true_iff, ge_iff_le, UInt32.le_iff_toNat_le, toNat_sysNow_sub later]

theorem overdue_iff (timeout : Nat) (later : entered ≤ reading) :
    Overdue timeout entered reading ↔ timeout ≤ millis reading - millis entered := by
  have ordered := millis_mono later
  rw [Overdue]
  omega

/-- The wrapped test is the one on numbers. -/
theorem timedOut_iff (timeout : UInt32) (comparable : Comparable entered reading) :
    timedOut timeout (sysNow entered) reading = true ↔
      Overdue timeout.toNat entered reading := by
  obtain ⟨later, short⟩ := comparable
  rw [timedOut_iff_mod timeout later, overdue_iff timeout.toNat later, Nat.mod_eq_of_lt short]

/-- Within `2 ^ 32` milliseconds the tests differ in one case: the counts have advanced by
just `2 ^ 32`. -/
theorem timedOut_agrees_iff (timeout : UInt32) (later : entered ≤ reading)
    (soon : reading.toNat - entered.toNat < 4294967296 * 1000000) :
    (timedOut timeout (sysNow entered) reading = true ↔ Overdue timeout.toNat entered reading) ↔
      timeout = 0 ∨ Comparable entered reading := by
  have ordered := millis_mono later
  have small := timeout.toNat_lt
  rw [timedOut_iff_mod timeout later, overdue_iff timeout.toNat later, Comparable,
    ← UInt32.toNat_inj, UInt32.toNat_zero, and_iff_right later]
  have within : millis reading - millis entered ≤ 4294967296 := by
    rw [millis, millis]
    omega
  by_cases wrapped : millis reading - millis entered = 4294967296
  · rw [wrapped]
    omega
  · rw [Nat.mod_eq_of_lt (by omega)]
    exact iff_of_true Iff.rfl (.inr (by omega))

end Test

/-! ## The loop of `net_wait_ready` -/

section Loop

variable {ρ : Type} {late : UInt64 → Bool} {overdue : UInt64 → Prop}

/-- The passes before the one at an index go on. -/
def GoesOn (overdue : UInt64 → Prop) (passes : List (Pass ρ)) (index : Nat) : Prop :=
  ∀ earlier < index, ∀ pass, passes[earlier]? = some pass →
    pass.met = none ∧ ¬overdue pass.reading

theorem goesOn_zero (passes : List (Pass ρ)) : GoesOn overdue passes 0 :=
  fun _ before => absurd before (Nat.not_lt_zero _)

theorem goesOn_cons (pass : Pass ρ) (rest : List (Pass ρ)) (index : Nat) :
    GoesOn overdue (pass :: rest) (index + 1) ↔
      (pass.met = none ∧ ¬overdue pass.reading) ∧ GoesOn overdue rest index := by
  constructor
  · intro goesOn
    refine ⟨goesOn 0 (Nat.succ_pos index) pass rfl, fun earlier before other found => ?_⟩
    exact goesOn (earlier + 1) (Nat.succ_lt_succ before) other found
  · rintro ⟨first, goesOn⟩ earlier before other found
    cases earlier with
    | zero => exact Option.some.inj found ▸ first
    | succ earlier => exact goesOn earlier (Nat.lt_of_succ_lt_succ before) other found

/-- A loop gives up in the first pass that is late, if what it waits for does not come
before. -/
theorem waitLoop_gaveUp_iff (passes : List (Pass ρ)) (index : Nat)
    (exact : ∀ pass ∈ passes, pass.met = none →
      (late pass.reading = true ↔ overdue pass.reading)) :
    waitLoop late passes = some (index, .gaveUp) ↔
      GoesOn overdue passes index ∧
        ∃ pass, passes[index]? = some pass ∧ pass.met = none ∧ overdue pass.reading := by
  induction passes generalizing index with
  | nil => simp [waitLoop]
  | cons pass rest ih =>
      have here := exact pass List.mem_cons_self
      cases index with
      | zero =>
          rw [and_iff_right (goesOn_zero _), waitLoop]
          cases met : pass.met with
          | some result => simp [met]
          | none =>
              by_cases passed : overdue pass.reading
              · simp [met, passed, (here met).mpr passed]
              · simp [met, passed, mt (here met).mp passed]
      | succ index =>
          rw [goesOn_cons, List.getElem?_cons_succ, and_assoc,
            ← ih index fun other later => exact other (List.mem_cons_of_mem _ later), waitLoop]
          cases met : pass.met with
          | some result => simp
          | none =>
              by_cases passed : overdue pass.reading
              · simp [passed, (here met).mpr passed]
              · simp [passed, mt (here met).mp passed, Prod.ext_iff]

end Loop

/-! ## The loops of the socket calls -/

/-- What happens to the socket layer, with the readings of `TIMECOUNTER`. -/
inductive Timed where
  | call (call : Call) (reading : UInt64) (answers : Answers)
  | lwip (event : Event)
  | tick (reading : UInt64) (answers : Answers)

/-- The socket layer sees a reading through `sys_now`. -/
def Timed.input : Timed → Input
  | .call made reading answers => .call made (sysNow reading) answers
  | .lwip event => .lwip event
  | .tick reading answers => .tick (sysNow reading) answers

/-- The socket layer, and the reading at which the call it serves was made. -/
structure Clocked where
  shim : Except Fault Shim
  entered : UInt64

def Clocked.boot : Clocked := { shim := .ok .boot, entered := 0 }

/-- A call is made, unless one is being served. -/
def Clocked.enter (c : Clocked) : Timed → UInt64
  | .call _ reading _ =>
      match c.shim with
      | .ok { waiting := none, .. } => reading
      | _ => c.entered
  | _ => c.entered

def clocked : Machine Clocked Timed (Option Reply) where
  step c timed :=
    let result := shim.step c.shim timed.input
    (result.1, { shim := result.2, entered := c.enter timed })

/-- A waiting call examines the reading of a tick. -/
def Clocked.Examines (c : Clocked) (reading : UInt64) : Timed → Prop
  | .tick other _ => other = reading ∧ ∃ s call, c.shim = .ok s ∧ s.waiting = some call
  | _ => False

/-- Readings are in order, and not too far apart. -/
def Clocked.Ordered (c : Clocked) (timed : Timed) : Prop :=
  ∀ reading, c.Examines reading timed → Comparable c.entered reading

/-- A call that waits gives up, and returns, if its time is up, and else goes on. -/
def Clocked.Punctual (c : Clocked) (timed : Timed) : Prop :=
  ∀ s waiting start reading answers, c.shim = .ok s → s.waiting = some (waiting, start) →
    timed = .tick reading answers →
    s.step timed.input =
        (if Overdue 30000 c.entered reading then s.net.expire answers waiting
          else s.net.resume answers waiting).map (Shim.settle start) ∧
      (Overdue 30000 c.entered reading → ∀ result, s.step timed.input = .ok result →
        (∃ reply, result.1 = some reply) ∧ result.2.waiting = none)

/-- The time kept is that of the call. -/
def Clocked.Started (c : Clocked) : Prop :=
  ∀ s waiting start, c.shim = .ok s → s.waiting = some (waiting, start) →
    start = sysNow c.entered

section Runs

variable {s : Shim} {start : UInt32}

theorem settle_start {at' : UInt32} {served : Progress × State} {waiting : Waiting}
    (polling : (Shim.settle at' served).2.waiting = some (waiting, start)) : start = at' := by
  rw [Shim.settle] at polling
  split at polling
  · exact absurd polling (by simp)
  · exact (Prod.mk.inj (Option.some.inj polling)).2.symm

/-- A call that waits keeps the time at which it was made. -/
theorem step_start {input : Input} {result : Option Reply × Shim} {waiting : Waiting}
    (stepped : s.step input = .ok result) (polling : result.2.waiting = some (waiting, start)) :
    (∃ call answers, input = .call call start answers ∧ s.waiting = none) ∨
      ∃ before, s.waiting = some (before, start) := by
  cases input with
  | call call now answers =>
      rw [Shim.step] at stepped
      split at stepped
      · obtain rfl := Except.ok.inj stepped
        exact .inr ⟨waiting, polling⟩
      next idle =>
        obtain ⟨served, _, rfl⟩ := map_eq_ok.mp stepped
        exact .inl ⟨call, answers, settle_start polling ▸ rfl, idle⟩
  | lwip event =>
      obtain ⟨net, _, rfl⟩ := map_eq_ok.mp stepped
      exact .inr ⟨waiting, polling⟩
  | tick now answers =>
      rw [Shim.step] at stepped
      split at stepped
      · obtain rfl := Except.ok.inj stepped
        exact .inr ⟨waiting, polling⟩
      next before began waits =>
        refine .inr ⟨before, ?_⟩
        split at stepped
        · obtain ⟨served, _, rfl⟩ := map_eq_ok.mp stepped
          rw [waits, settle_start polling]
        · obtain ⟨served, _, rfl⟩ := map_eq_ok.mp stepped
          rw [waits, settle_start polling]

/-- A call whose time is up returns. -/
theorem settle_expire {answers : Answers} {waiting : Waiting} {result : Option Reply × Shim}
    (stepped : (s.net.expire answers waiting).map (Shim.settle start) = .ok result) :
    (∃ reply, result.1 = some reply) ∧ result.2.waiting = none := by
  obtain ⟨⟨progress, net⟩, served, rfl⟩ := map_eq_ok.mp stepped
  cases progress with
  | returned reply => exact ⟨⟨reply, rfl⟩, rfl⟩
  | polls other => exact (State.expire_returns served).elim

namespace Clocked

variable {c : Clocked} {timed : Timed}

theorem started_boot : boot.Started := by
  intro s waiting start booted polling
  obtain rfl := Except.ok.inj booted
  exact absurd polling nofun

theorem enter_of_waiting {call : Waiting × UInt32} (running : c.shim = .ok s)
    (waits : s.waiting = some call) : c.enter timed = c.entered := by
  obtain ⟨net, waiting⟩ := s
  obtain rfl := waits
  cases timed with
  | call other reading answers => simp only [enter, running]
  | lwip event => rfl
  | tick reading answers => rfl

theorem Started.next (started : c.Started) (timed : Timed) : (clocked.next c timed).Started := by
  intro s waiting start running polling
  cases before : c.shim with
  | error fault =>
      simp only [Machine.next, clocked, before, Net.shim] at running
      exact absurd running (by simp)
  | ok s₀ =>
      obtain ⟨result, stepped, rfl⟩ :
          ∃ result, s₀.step timed.input = .ok result ∧ result.2 = s := by
        simp only [Machine.next, clocked, before, Net.shim] at running
        split at running
        · exact absurd running (by simp)
        next result stepped => exact ⟨result, stepped, Except.ok.inj running⟩
      show start = sysNow (c.enter timed)
      rcases step_start stepped polling with ⟨call, answers, made, idle⟩ | ⟨other, waits⟩
      · cases timed with
        | call call' reading answers' =>
            obtain ⟨net, underway⟩ := s₀
            obtain rfl := idle
            simp only [enter, before]
            simp only [Timed.input, Input.call.injEq] at made
            exact made.2.1.symm
        | lwip event => exact absurd made (by simp [Timed.input])
        | tick reading answers' => exact absurd made (by simp [Timed.input])
      · rw [enter_of_waiting before waits]
        exact started s₀ other start before waits

theorem Started.punctual (started : c.Started) (ordered : c.Ordered timed) : c.Punctual timed := by
  rintro s waiting start reading answers running polling rfl
  have comparable := ordered reading ⟨rfl, s, _, running, polling⟩
  have test := timedOut_iff 30000 comparable
  rw [timedOut, decide_eq_true_iff, ← started s waiting start running polling] at test
  by_cases overdue : Overdue 30000 c.entered reading
  · have stepped : s.step (Timed.tick reading answers).input =
        (s.net.expire answers waiting).map (Shim.settle start) := by
      simp only [Timed.input, Shim.step, polling, if_pos (test.mpr overdue)]
    rw [if_pos overdue]
    exact ⟨stepped, fun _ result served => settle_expire (stepped ▸ served)⟩
  · rw [if_neg overdue]
    refine ⟨?_, fun passed => absurd passed overdue⟩
    simp only [Timed.input, Shim.step, polling, if_neg (mt test.mp overdue)]

end Clocked

end Runs

/-- Deadlines are kept wherever the clock wraps.  Of two readings in order, less than
`2 ^ 32` milliseconds apart, the wrapped test is the one on numbers unless the counts of
milliseconds differ by just `2 ^ 32`; where it is, `net_wait_ready` and every blocking
socket call give up at the first reading at which their time is up. -/
theorem deadlines_kept :
    (∀ entered reading : UInt64, entered ≤ reading →
      reading.toNat - entered.toNat < 4294967296 * 1000000 → ∀ timeout : UInt32,
      ((timedOut timeout (sysNow entered) reading = true ↔
          Overdue timeout.toNat entered reading) ↔
        timeout = 0 ∨ Comparable entered reading)) ∧
    (∀ entered reading : UInt64, Comparable entered reading → ∀ timeout : UInt32,
      (timedOut timeout (sysNow entered) reading = true ↔
        Overdue timeout.toNat entered reading)) ∧
    (∀ (timeout : UInt32) (entered : UInt64) (passes : List (Pass Unit)),
      (∀ pass ∈ passes, pass.met = none → Comparable entered pass.reading) → ∀ index,
      (netWaitReady timeout entered passes = some (index, .gaveUp) ↔
        GoesOn (Overdue timeout.toNat entered) passes index ∧
          ∃ pass, passes[index]? = some pass ∧ pass.met = none ∧
            Overdue timeout.toNat entered pass.reading)) ∧
    ∀ inputs : List Timed, clocked.Along Clocked.Ordered .boot inputs →
      clocked.Along Clocked.Punctual .boot inputs := by
  refine ⟨fun entered reading later soon timeout => timedOut_agrees_iff timeout later soon,
    fun entered reading comparable timeout => timedOut_iff timeout comparable, ?_, ?_⟩
  · intro timeout entered passes ordered index
    exact waitLoop_gaveUp_iff passes index fun pass among unmet =>
      timedOut_iff timeout (ordered pass among unmet)
  · intro inputs ordered
    exact Machine.along_of_invariant (fun c timed started _ => started.next timed)
      (fun c timed started here => started.punctual here) Clocked.started_boot ordered

/-- The last nanosecond before the count wraps. -/
def beforeWrap : UInt64 := 4294967295999999

/-- Almost 30000 seconds later. -/
def afterWrap : UInt64 := 4324967295000000

/-- A call of `socket` without an address, made before the count wraps. -/
def wrappedWait : List Timed :=
  [.call (.socket 2 1) beforeWrap { Answers.granted with ready := false },
    .tick afterWrap { Answers.granted with ready := false }]

theorem wrappedWait_ordered : clocked.Along Clocked.Ordered .boot wrappedWait := by
  refine ⟨fun reading examines => examines.elim, ?_, trivial⟩
  rintro reading ⟨rfl, _⟩
  show Comparable beforeWrap afterWrap
  decide +kernel

theorem wrappedWait_punctual :
    (timedOut 30000 (sysNow beforeWrap) afterWrap = true ∧
      netWaitReady 30000 beforeWrap [{ met := none, reading := afterWrap }] =
        some (0, .gaveUp)) ∧
    clocked.Along Clocked.Ordered .boot wrappedWait ∧
      clocked.Along Clocked.Punctual .boot wrappedWait := by
  obtain ⟨_, test, loop, runs⟩ := deadlines_kept
  have overdue : Overdue 30000 beforeWrap afterWrap := by decide +kernel
  have comparable : Comparable beforeWrap afterWrap := by decide +kernel
  refine ⟨⟨(test beforeWrap afterWrap comparable 30000).mpr overdue, ?_⟩,
    wrappedWait_ordered, runs wrappedWait wrappedWait_ordered⟩
  refine (loop 30000 beforeWrap _ ?_ 0).mpr ⟨goesOn_zero _, _, rfl, rfl, overdue⟩
  intro pass among _
  rw [List.mem_singleton.mp among]
  exact comparable

/-- Less than `2 ^ 32` milliseconds after a call began at the end of a millisecond, the test
of its deadline of 30 seconds fails. -/
theorem lateReading_missed :
    (999999 : UInt64) ≤ 4294967296999998 ∧
      (4294967296999998 : UInt64).toNat - (999999 : UInt64).toNat < 4294967296 * 1000000 ∧
      Overdue 30000 999999 4294967296999998 ∧
      timedOut 30000 (sysNow 999999) 4294967296999998 = false := by
  decide +kernel

end AppPortKit.Net
