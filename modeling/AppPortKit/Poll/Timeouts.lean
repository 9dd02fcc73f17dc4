import AppPortKit.Foundation.Machine
import AppPortKit.Foundation.Result
import Mathlib.Algebra.GroupWithZero.Nat
import Mathlib.Data.List.Sort

/-!
# Timers

lwIP's timers (`timeouts.c`), which `net_poll` serves once it has drained the network card.
In this configuration there are five: that of TCP, which runs as long as there are
connections, and four cyclic ones.

Times are milliseconds in 32 bits, and wrap.  What is done with them is an argument of the
definitions below, so that the same definitions also tell what the timers are for: timers
on a clock that never wraps.
-/

namespace AppPortKit.Poll

open Fallible Transition

/-! ## Times -/

/-- What the list of timers does with times. -/
class Ticks (τ : Type) where
  later : τ → Nat → τ
  lessThan : τ → τ → Bool

/-- `TIME_LESS_THAN`. -/
def timeLessThan (t compareTo : UInt32) : Bool := t - compareTo > 0x7fffffff

/-- The source's arithmetic. -/
instance wrappedTicks : Ticks UInt32 where
  later time ms := time + UInt32.ofNat ms
  lessThan := timeLessThan

/-- Milliseconds since the machine was started. -/
instance countedTicks : Ticks Nat where
  later time ms := time + ms
  lessThan time compareTo := decide (time < compareTo)

/-! ## The list of timers -/

/-- The entries of `lwip_cyclic_timers` but for that of TCP. -/
inductive Cyclic where
  | ipReass
  | arp
  | dhcpCoarse
  | dhcpFine
  deriving DecidableEq, Repr

def Cyclic.intervalMs : Cyclic → Nat
  | .ipReass => 1000
  | .arp => 1000
  | .dhcpCoarse => 60000
  | .dhcpFine => 500

/-- `TCP_TMR_INTERVAL`. -/
def tcpTmrInterval : Nat := 250

/-- The handler of a timer with its argument: `tcpip_tcp_timer`, or `lwip_cyclic_timer`. -/
inductive Handler where
  | tcp
  | cyclic (timer : Cyclic)
  deriving DecidableEq, Repr

def Handler.intervalMs : Handler → Nat
  | .tcp => tcpTmrInterval
  | .cyclic timer => timer.intervalMs

/-- `struct sys_timeo`. -/
structure Timeo (τ : Type) where
  time : τ
  handler : Handler
  deriving DecidableEq

/-- The statics of `timeouts.c`. -/
structure Timers (τ : Type) where
  nextTimeout : List (Timeo τ)
  tcpTimerActive : Bool
  currentTimeoutDueTime : τ
  deriving DecidableEq

/-- A pass does not return: there is no memory for a timer, which lwIP asserts there is, or
the surroundings of the pass end while a handler is to be called. -/
inductive Halt where
  | assertion
  | unfinished
  deriving DecidableEq, Repr

section Operations

variable {τ : Type} [Ticks τ]

/-- A timer is put before the first that expires after it. -/
def Timeo.Precedes (timeout other : Timeo τ) : Prop :=
  Ticks.lessThan timeout.time other.time = true

instance (timeout other : Timeo τ) : Decidable (timeout.Precedes other) :=
  inferInstanceAs (Decidable (_ = true))

/-- A call of `tcp_timer_needed`: whether there are connections, the time, and whether
there is memory for a timer. -/
structure Need (τ : Type) where
  pcbs : Bool
  now : τ
  memory : Bool

/-- The surroundings of the call of a handler: the calls of `tcp_timer_needed` made by what
it runs, then the time, whether there are connections, and whether there is memory for a
timer. -/
structure Handling (τ : Type) where
  needs : List (Need τ)
  now : τ
  pcbs : Bool
  memory : Bool

namespace Timers

def sysTimeoutAbs (t : Timers τ) (absTime : τ) (handler : Handler) (memory : Bool) :
    Except Halt (Timers τ) :=
  if memory then
    .ok { t with
      nextTimeout := t.nextTimeout.orderedInsert Timeo.Precedes { time := absTime, handler } }
  else .error .assertion

/-- The intervals are short enough for the assertion of `sys_timeout`. -/
def sysTimeout (t : Timers τ) (now : τ) (msecs : Nat) (handler : Handler) (memory : Bool) :
    Except Halt (Timers τ) :=
  t.sysTimeoutAbs (Ticks.later now msecs) handler memory

def tcpTimerNeeded (t : Timers τ) (need : Need τ) : Except Halt (Timers τ) :=
  if !t.tcpTimerActive && need.pcbs then
    { t with tcpTimerActive := true }.sysTimeout need.now tcpTmrInterval .tcp need.memory
  else .ok t

/-- What the handlers of the protocols do to the timers. -/
def protocols (t : Timers τ) : List (Need τ) → Except Halt (Timers τ)
  | [] => .ok t
  | need :: rest => do
      let t ← t.tcpTimerNeeded need
      t.protocols rest

def tcpipTcpTimer (t : Timers τ) (handling : Handling τ) : Except Halt (Timers τ) := do
  let t ← t.protocols handling.needs
  if handling.pcbs then t.sysTimeout handling.now tcpTmrInterval .tcp handling.memory
  else .ok { t with tcpTimerActive := false }

def lwipCyclicTimer (t : Timers τ) (timer : Cyclic) (handling : Handling τ) :
    Except Halt (Timers τ) := do
  let t ← t.protocols handling.needs
  let nextTimeoutTime := Ticks.later t.currentTimeoutDueTime timer.intervalMs
  if Ticks.lessThan nextTimeoutTime handling.now then
    t.sysTimeoutAbs (Ticks.later handling.now timer.intervalMs) (.cyclic timer) handling.memory
  else t.sysTimeoutAbs nextTimeoutTime (.cyclic timer) handling.memory

/-- The call of a handler. -/
def call (t : Timers τ) : Handler → Handling τ → Except Halt (Timers τ)
  | .tcp, handling => t.tcpipTcpTimer handling
  | .cyclic timer, handling => t.lwipCyclicTimer timer handling

/-- The first timer, if it has expired, and the others. -/
def expired (t : Timers τ) (now : τ) : Option (Timeo τ × Timers τ) :=
  match t.nextTimeout with
  | [] => none
  | first :: rest =>
      if Ticks.lessThan now first.time then none
      else some (first, { t with nextTimeout := rest, currentTimeoutDueTime := first.time })

/-- The timers whose handlers are called, in order, and the timers afterwards. -/
def sysCheckTimeouts (now : τ) :
    List (Handling τ) → Timers τ → Except Halt (List (Timeo τ) × Timers τ)
  | [], t =>
      match t.expired now with
      | none => .ok ([], t)
      | some _ => .error .unfinished
  | handling :: later, t =>
      match t.expired now with
      | none => .ok ([], t)
      | some (first, t) => do
          let t ← t.call first.handler handling
          let result ← sysCheckTimeouts now later t
          .ok (first :: result.1, result.2)

/-- The statics as the image is loaded. -/
def boot (zero : τ) : Timers τ :=
  { nextTimeout := [], tcpTimerActive := false, currentTimeoutDueTime := zero }

/-- The cyclic timers in the order in which they are started. -/
def started : List Cyclic := [.ipReass, .arp, .dhcpCoarse, .dhcpFine]

/-- The loop of `sys_timeouts_init`, with the time at which each timer is started and
whether there is memory for it. -/
def startTimers (start : Cyclic → τ) (memory : Cyclic → Bool) :
    List Cyclic → Timers τ → Except Halt (Timers τ)
  | [], t => .ok t
  | timer :: rest, t => do
      let t ← t.sysTimeout (start timer) timer.intervalMs (.cyclic timer) (memory timer)
      startTimers start memory rest t

def sysTimeoutsInit (t : Timers τ) (start : Cyclic → τ) (memory : Cyclic → Bool) :
    Except Halt (Timers τ) :=
  startTimers start memory started t

end Timers

/-- What the timers are used for: a connection is made, or `net_poll` serves them. -/
inductive Input (τ : Type) where
  | needed (need : Need τ)
  | check (now : τ) (handlings : List (Handling τ))

def Timers.serve (t : Timers τ) : Input τ → Except Halt (List (Timeo τ) × Timers τ)
  | .needed need => do
      let t ← t.tcpTimerNeeded need
      .ok ([], t)
  | .check now handlings => t.sysCheckTimeouts now handlings

/-- The timers as a machine.  It replies with the timers whose handlers it calls, and stops
when a pass does not return. -/
def agenda : Machine (Option (Timers τ)) (Input τ) (List (Timeo τ)) where
  step state input :=
    match state with
    | none => ([], none)
    | some t =>
        match t.serve input with
        | .ok result => (result.1, some result.2)
        | .error _ => ([], none)

section Runs

variable {t t' : Timers τ} {input : Input τ} {fired : List (Timeo τ)} {halt : Halt}

theorem step_of_ok (returned : t.serve input = .ok (fired, t')) :
    agenda.step (some t) input = (fired, some t') := by
  simp only [agenda, returned]

theorem step_of_error (halted : t.serve input = .error halt) :
    agenda.step (some t) input = ([], none) := by
  simp only [agenda, halted]

theorem run_none (inputs : List (Input τ)) : agenda.run none inputs = none := by
  induction inputs with
  | nil => rfl
  | cons input rest ih => exact ih

theorem replies_none (inputs : List (Input τ)) :
    agenda.replies none inputs = inputs.map fun _ => [] := by
  induction inputs with
  | nil => rfl
  | cons input rest ih => exact congrArg _ ih

/-- A run that does not stop, from its first input on. -/
theorem run_cons_eq_some {rest : List (Input τ)} {last : Timers τ}
    (ran : agenda.run (some t) (input :: rest) = some last) :
    ∃ fired t', t.serve input = .ok (fired, t') ∧ agenda.run (some t') rest = some last ∧
      agenda.replies (some t) (input :: rest) = fired :: agenda.replies (some t') rest := by
  rw [Machine.run_cons, Machine.next] at ran
  rw [Machine.replies, Machine.next, Machine.reply]
  cases returned : t.serve input with
  | error halt =>
      rw [step_of_error returned, run_none] at ran
      cases ran
  | ok result =>
      rw [step_of_ok returned] at ran ⊢
      exact ⟨result.1, result.2, rfl, ran, rfl⟩

end Runs

end Operations

end AppPortKit.Poll
