import AppPortKit.Poll.Schedule

/-!
# Timers across the wrap of the clock

The list of timers only ever compares times that are less than 2^31 ms apart, as long as
`net_poll` is called often enough.  Then the timers of the source, whose times wrap, are
those on a clock that does not, reduced modulo 2^32: the same handlers are called, in the
same order and in the same passes.
-/

namespace AppPortKit.Poll

open Fallible Transition

/-! ## Times that wrap -/

/-- Times that are compared right. -/
def InWindow (base time : Nat) : Prop := base ≤ time ∧ time < base + 2147483648

theorem timeLessThan_ofNat {base time other : Nat} (inside : InWindow base time)
    (inside' : InWindow base other) :
    timeLessThan (UInt32.ofNat time) (UInt32.ofNat other) = decide (time < other) := by
  obtain ⟨lower, upper⟩ := inside
  obtain ⟨lower', upper'⟩ := inside'
  rw [timeLessThan, decide_eq_decide, gt_iff_lt, UInt32.lt_iff_toNat_lt, UInt32.toNat_sub,
    UInt32.toNat_ofNat', UInt32.toNat_ofNat']
  simp only [UInt32.reduceToNat]
  omega

def Timeo.wrapped (timeout : Timeo Nat) : Timeo UInt32 :=
  { time := UInt32.ofNat timeout.time, handler := timeout.handler }

def Timers.wrapped (t : Timers Nat) : Timers UInt32 :=
  { nextTimeout := t.nextTimeout.map Timeo.wrapped
    tcpTimerActive := t.tcpTimerActive
    currentTimeoutDueTime := UInt32.ofNat t.currentTimeoutDueTime }

def Need.wrapped (need : Need Nat) : Need UInt32 :=
  { pcbs := need.pcbs, now := UInt32.ofNat need.now, memory := need.memory }

def Handling.wrapped (handling : Handling Nat) : Handling UInt32 :=
  { needs := handling.needs.map Need.wrapped
    now := UInt32.ofNat handling.now
    pcbs := handling.pcbs
    memory := handling.memory }

def Input.wrapped : Input Nat → Input UInt32
  | .needed need => .needed need.wrapped
  | .check now handlings => .check (UInt32.ofNat now) (handlings.map Handling.wrapped)

theorem later_ofNat (time ms : Nat) :
    Ticks.later (UInt32.ofNat time) ms = UInt32.ofNat (Ticks.later time ms) := by
  simp [Ticks.later]

namespace Timers

variable {t t' : Timers Nat} {base : Nat}

/-- All timers are compared right. -/
def Comparable (t : Timers Nat) (base : Nat) : Prop :=
  ∀ timeout ∈ t.nextTimeout, InWindow base timeout.time

theorem sysTimeoutAbs_wrapped (comparable : t.Comparable base) {time : Nat}
    (inside : InWindow base time) (handler : Handler) (memory : Bool) :
    t.wrapped.sysTimeoutAbs (UInt32.ofNat time) handler memory =
      (t.sysTimeoutAbs time handler memory).map wrapped := by
  have agree (timeout other : Timeo Nat) (one : InWindow base timeout.time)
      (two : InWindow base other.time) :
      timeout.Precedes other ↔ timeout.wrapped.Precedes other.wrapped := by
    rw [Timeo.precedes_iff, Timeo.Precedes, Timeo.wrapped, Timeo.wrapped]
    simp only [Ticks.lessThan]
    rw [timeLessThan_ofNat one two, decide_eq_true_eq]
  have inserted := List.map_orderedInsert Timeo.Precedes Timeo.Precedes Timeo.wrapped
    t.nextTimeout { time, handler } (fun other among => agree _ _ (comparable other among) inside)
    fun other among => agree _ _ inside (comparable other among)
  cases memory with
  | false => rfl
  | true =>
      simp only [sysTimeoutAbs, Except.map, ↓reduceIte, wrapped, inserted]
      rfl

theorem tcpTimerNeeded_wrapped (comparable : t.Comparable base) {need : Need Nat}
    (inside : InWindow base (need.now + 250)) :
    t.wrapped.tcpTimerNeeded need.wrapped = (t.tcpTimerNeeded need).map wrapped := by
  have started := sysTimeoutAbs_wrapped (t := { t with tcpTimerActive := true }) comparable
    inside .tcp need.memory
  rw [tcpTimerNeeded, tcpTimerNeeded, apply_ite (Except.map wrapped)]
  refine if_congr Iff.rfl ?_ rfl
  rw [sysTimeout, Need.wrapped, later_ofNat]
  exact started

variable {running : Option Handler} {swept seen start : Nat}

/-- Between two passes, and in a pass, all timers are compared right. -/
theorem Kept.comparable (kept : t.Kept running swept seen) (above : base ≤ swept)
    (below : seen + 60000 < base + 2147483648) : t.Comparable base := by
  intro timeout among
  have after := kept.after timeout among
  have soon := kept.time_le among
  exact ⟨by omega, by omega⟩

theorem Kept.protocols_wrapped {needs : List (Need Nat)} (kept : t.Kept running swept seen)
    (inside : ∀ need ∈ needs, start ≤ need.now ∧ need.now ≤ seen) (late : swept ≤ start)
    (above : base ≤ swept) (below : seen + 60000 < base + 2147483648) :
    t.wrapped.protocols (needs.map Need.wrapped) = (t.protocols needs).map wrapped := by
  induction needs generalizing t with
  | nil => rfl
  | cons need rest ih =>
      have within := inside need List.mem_cons_self
      have soon : InWindow base (need.now + 250) := ⟨by omega, by omega⟩
      have first := tcpTimerNeeded_wrapped (kept.comparable above below) soon
      rw [List.map_cons, Timers.protocols, Timers.protocols, first]
      cases needed : t.tcpTimerNeeded need with
      | error halt => rfl
      | ok middle =>
          exact ih (kept.needed within late needed).1 fun other among =>
            inside other (List.mem_cons_of_mem _ among)

theorem tcpipTcpTimer_wrapped {handling : Handling Nat} (kept : t.Kept (some .tcp) swept start)
    (runs : Runs handling start) (late : swept ≤ start) (above : base ≤ swept)
    (below : handling.now + 60000 < base + 2147483648) :
    t.wrapped.tcpipTcpTimer handling.wrapped = (t.tcpipTcpTimer handling).map wrapped := by
  have kept := kept.mono runs.forward
  have forward := runs.forward
  have ran := kept.protocols_wrapped runs.needs late above below
  simp only [tcpipTcpTimer, Handling.wrapped, ran]
  cases protocols : t.protocols handling.needs with
  | error halt => rfl
  | ok middle =>
      have comparable := (kept.protocols runs.needs late protocols).1.comparable above below
      have inside : InWindow base (handling.now + 250) := ⟨by omega, by omega⟩
      have started := sysTimeoutAbs_wrapped comparable inside .tcp handling.memory
      simp only [Except.map, bind, Except.bind, sysTimeout, later_ofNat]
      split
      · exact started
      · rfl

theorem lwipCyclicTimer_wrapped {timer : Cyclic} {handling : Handling Nat}
    (kept : t.Kept (some (.cyclic timer)) swept start) (runs : Runs handling start)
    (late : swept ≤ start) (due : t.currentTimeoutDueTime ≤ start)
    (after : swept < t.currentTimeoutDueTime) (above : base ≤ swept)
    (below : handling.now + 60000 < base + 2147483648) :
    t.wrapped.lwipCyclicTimer timer handling.wrapped =
      (t.lwipCyclicTimer timer handling).map wrapped := by
  have kept := kept.mono runs.forward
  have forward := runs.forward
  have short : timer.intervalMs ≤ 60000 := Handler.intervalMs_le (.cyclic timer)
  have ran := kept.protocols_wrapped runs.needs late above below
  simp only [lwipCyclicTimer, Handling.wrapped, ran]
  cases protocols : t.protocols handling.needs with
  | error halt => rfl
  | ok middle =>
      obtain ⟨keptMiddle, served⟩ := kept.protocols runs.needs late protocols
      rw [← served.due] at due after
      have restarts (time : Nat) (inside : InWindow base time) :=
        sysTimeoutAbs_wrapped (keptMiddle.comparable above below) inside (.cyclic timer)
          handling.memory
      have next : InWindow base (middle.currentTimeoutDueTime + timer.intervalMs) :=
        ⟨by omega, by omega⟩
      have present : InWindow base handling.now := ⟨by omega, by omega⟩
      have compared := timeLessThan_ofNat next present
      simp only [Except.map, bind, Except.bind, wrapped, later_ofNat, Ticks.lessThan]
      simp only [Ticks.later, compared]
      split
      · exact restarts (handling.now + timer.intervalMs) ⟨by omega, by omega⟩
      · exact restarts _ next

theorem call_wrapped {first : Timeo Nat} {handling : Handling Nat}
    (kept : t.Kept (some first.handler) swept start) (runs : Runs handling start)
    (late : swept ≤ start) (current : t.currentTimeoutDueTime = first.time)
    (due : first.time ≤ start) (after : swept < first.time) (above : base ≤ swept)
    (below : handling.now + 60000 < base + 2147483648) :
    t.wrapped.call first.handler handling.wrapped =
      (t.call first.handler handling).map wrapped := by
  obtain ⟨time, handler⟩ := first
  cases handler with
  | tcp => exact tcpipTcpTimer_wrapped kept runs late above below
  | cyclic timer =>
      exact lwipCyclicTimer_wrapped kept runs late (current ▸ due) (current ▸ after) above below

theorem expired_wrapped (comparable : t.Comparable base) {now : Nat} (inside : InWindow base now) :
    t.wrapped.expired (UInt32.ofNat now) =
      (t.expired now).map fun result => (result.1.wrapped, result.2.wrapped) := by
  rw [expired, expired, wrapped]
  cases list : t.nextTimeout with
  | nil => rfl
  | cons first rest =>
      have compared := timeLessThan_ofNat inside (comparable first (by simp [list]))
      simp only [List.map_cons, Timeo.wrapped, Ticks.lessThan, compared]
      split
      · rfl
      · rfl

theorem sysCheckTimeouts_wrapped {now : Nat} {handlings : List (Handling Nat)}
    (kept : t.Kept none swept start) (early : now ≤ start) (swept_le : swept ≤ now)
    (consecutive : Consecutive start handlings) (above : base ≤ swept)
    (below : finished start handlings + 60000 < base + 2147483648) :
    sysCheckTimeouts (UInt32.ofNat now) (handlings.map Handling.wrapped) t.wrapped =
      (sysCheckTimeouts now handlings t).map fun result =>
        (result.1.map Timeo.wrapped, result.2.wrapped) := by
  induction handlings generalizing t swept start with
  | nil =>
      change start + 60000 < base + 2147483648 at below
      have present : InWindow base now := ⟨by omega, by omega⟩
      have compared := expired_wrapped (kept.comparable above below) present
      rw [List.map_nil, sysCheckTimeouts, sysCheckTimeouts, compared]
      cases t.expired now with
      | none => rfl
      | some expired => rfl
  | cons handling later ih =>
      obtain ⟨runs, consecutive⟩ := consecutive
      have forward := runs.forward
      have ends : handling.now ≤ finished handling.now later := le_finished consecutive
      change finished handling.now later + 60000 < base + 2147483648 at below
      have present : InWindow base now := ⟨by omega, by omega⟩
      have compared := expired_wrapped (kept.comparable above (by omega)) present
      rw [List.map_cons, sysCheckTimeouts, sysCheckTimeouts, compared]
      cases expired : t.expired now with
      | none => rfl
      | some result =>
          obtain ⟨first, rest⟩ := result
          obtain ⟨_, due, _, current⟩ := expired_eq_some expired
          obtain ⟨without, after⟩ := kept.expired expired
          have served : rest.wrapped.call first.handler handling.wrapped =
              (rest.call first.handler handling).map wrapped :=
            call_wrapped without runs (by omega) current (due.trans early) (by omega)
              (Nat.le_trans above (Nat.le_sub_one_of_lt after)) (by omega)
          simp only [Option.map_some, Timeo.wrapped, served]
          cases called : rest.call first.handler handling with
          | error halt => rfl
          | ok middle =>
              have keptMiddle :=
                (without.call runs (by omega) current (due.trans early) (by omega) called).1
              have checked := ih keptMiddle (early.trans forward) (by omega) consecutive
                (by omega) below
              simp only [Except.map, bind, Except.bind, checked]
              cases sysCheckTimeouts now later middle with
              | error halt => rfl
              | ok result => rfl

end Timers

/-! ## Runs -/

/-- The clock goes on from `seen`. -/
def Input.Follows (seen : Nat) : Input Nat → Prop
  | .needed need => seen ≤ need.now
  | .check now handlings => seen ≤ now ∧ Timers.Consecutive now handlings

/-- The last time that is read. -/
def Input.last : Input Nat → Nat
  | .needed need => need.now
  | .check now handlings => Timers.finished now handlings

/-- When the last pass was begun. -/
def Input.sweep (swept : Nat) : Input Nat → Nat
  | .needed _ => swept
  | .check now _ => now

/-- The clock goes on from `seen`, and every pass is over at most `gap` milliseconds after the
pass before it was begun, which was at `swept`. -/
def Timely (gap : Nat) : (swept seen : Nat) → List (Input Nat) → Prop
  | _, _, [] => True
  | swept, seen, input :: rest =>
      input.Follows seen ∧ input.last ≤ swept + gap ∧ Timely gap (input.sweep swept) input.last rest

/-- When the last pass of a run was begun. -/
def lastSweep (swept : Nat) (inputs : List (Input Nat)) : Nat := inputs.foldl Input.sweep swept

/-- The last time that is read in a run. -/
def lastReading (seen : Nat) (inputs : List (Input Nat)) : Nat :=
  inputs.foldl (fun _ input => input.last) seen

theorem timely_append {gap swept seen : Nat} {front back : List (Input Nat)} :
    Timely gap swept seen (front ++ back) ↔ Timely gap swept seen front ∧
      Timely gap (lastSweep swept front) (lastReading seen front) back := by
  induction front generalizing swept seen with
  | nil => simp [Timely, lastSweep, lastReading]
  | cons input rest ih => simp [Timely, lastSweep, lastReading, ih, and_assoc]

instance decidableFollows (seen : Nat) (input : Input Nat) : Decidable (input.Follows seen) :=
  match input with
  | .needed need => inferInstanceAs (Decidable (seen ≤ need.now))
  | .check now handlings =>
      inferInstanceAs (Decidable (seen ≤ now ∧ Timers.Consecutive now handlings))

instance decidableTimely (gap : Nat) :
    (swept seen : Nat) → (inputs : List (Input Nat)) → Decidable (Timely gap swept seen inputs)
  | _, _, [] => .isTrue trivial
  | swept, seen, input :: rest =>
      let _ := decidableTimely gap (input.sweep swept) input.last rest
      inferInstanceAs (Decidable (input.Follows seen ∧ input.last ≤ swept + gap ∧
        Timely gap (input.sweep swept) input.last rest))

namespace Timers

variable {t t' : Timers Nat} {swept seen : Nat} {fired : List (Timeo Nat)}

theorem Kept.serve {input : Input Nat} (kept : t.Kept none swept seen) (forward : swept ≤ seen)
    (follows : input.Follows seen) (returned : t.serve input = .ok (fired, t')) :
    t'.Kept none (input.sweep swept) input.last ∧ input.sweep swept ≤ input.last := by
  cases input with
  | needed need =>
      obtain ⟨middle, needed, same⟩ := bind_eq_ok.mp returned
      obtain ⟨_, rfl⟩ := Prod.mk.inj (Except.ok.inj same)
      exact ⟨((kept.mono follows).needed ⟨follows, Nat.le_refl _⟩ forward needed).1,
        forward.trans follows⟩
  | check now handlings =>
      obtain ⟨later, consecutive⟩ := follows
      exact ⟨((kept.mono later).check (Nat.le_refl now) (forward.trans later) consecutive
        returned).kept, le_finished consecutive⟩

theorem Kept.serve_wrapped {input : Input Nat} (kept : t.Kept none swept seen)
    (forward : swept ≤ seen) (follows : input.Follows seen)
    (soon : input.last ≤ swept + 2147423647) :
    t.wrapped.serve input.wrapped =
      (t.serve input).map fun result => (result.1.map Timeo.wrapped, result.2.wrapped) := by
  cases input with
  | needed need =>
      change need.now ≤ swept + 2147423647 at soon
      change seen ≤ need.now at follows
      have inside : InWindow swept (need.now + 250) := ⟨by omega, by omega⟩
      have comparable := (kept.mono follows).comparable (Nat.le_refl swept) (by omega)
      simp only [Timers.serve, Input.wrapped, tcpTimerNeeded_wrapped comparable inside]
      cases t.tcpTimerNeeded need with
      | error halt => rfl
      | ok middle => rfl
  | check now handlings =>
      obtain ⟨later, consecutive⟩ := follows
      change finished now handlings ≤ swept + 2147423647 at soon
      exact sysCheckTimeouts_wrapped (kept.mono later) (Nat.le_refl now) (forward.trans later)
        consecutive (Nat.le_refl swept) (by omega)

end Timers

/-! ## The start -/

namespace Timers

variable {start : Cyclic → Nat} {memory : Cyclic → Bool} {t : Timers Nat} {first last : Nat}

theorem sysTimeoutsInit_eq_ok {u : Timers Nat} (returned : u.sysTimeoutsInit start memory = .ok t) :
    t = (((u.add (start .ipReass + 1000) (.cyclic .ipReass)).add (start .arp + 1000)
      (.cyclic .arp)).add (start .dhcpCoarse + 60000) (.cyclic .dhcpCoarse)).add
        (start .dhcpFine + 500) (.cyclic .dhcpFine) := by
  obtain ⟨one, isOne, returned⟩ := bind_eq_ok.mp returned
  obtain ⟨two, isTwo, returned⟩ := bind_eq_ok.mp returned
  obtain ⟨three, isThree, returned⟩ := bind_eq_ok.mp returned
  obtain ⟨four, isFour, returned⟩ := bind_eq_ok.mp returned
  obtain rfl := Except.ok.inj returned
  rw [(sysTimeoutAbs_eq_ok.mp isFour).2, (sysTimeoutAbs_eq_ok.mp isThree).2,
    (sysTimeoutAbs_eq_ok.mp isTwo).2, (sysTimeoutAbs_eq_ok.mp isOne).2]
  rfl

/-- The timers as they are started, between `first` and `last`. -/
theorem kept_sysTimeoutsInit
    (between : ∀ timer, first ≤ start timer ∧ start timer ≤ last)
    (returned : (boot 0).sysTimeoutsInit start memory = .ok t) :
    t.Kept none first last ∧
      ∀ timer, { time := start timer + timer.intervalMs, handler := .cyclic timer } ∈
        t.nextTimeout := by
  obtain rfl := sysTimeoutsInit_eq_ok returned
  have one := between .ipReass
  have two := between .arp
  have three := between .dhcpCoarse
  have four := between .dhcpFine
  have handlers := ((((perm_handlers_add (boot 0) (start .ipReass + 1000) (.cyclic .ipReass)).cons
    (.cyclic .arp)).cons (.cyclic .dhcpCoarse)).cons (.cyclic .dhcpFine))
  have handlers := (((perm_handlers_add _ (start .arp + 1000) (.cyclic .arp)).cons _).cons _).trans
    handlers
  have handlers := ((perm_handlers_add _ (start .dhcpCoarse + 60000) (.cyclic .dhcpCoarse)).cons
    _).trans handlers
  have handlers := (perm_handlers_add _ (start .dhcpFine + 500) (.cyclic .dhcpFine)).trans handlers
  refine ⟨⟨?_, ?_, ?_, ?_, fun timer => ?_, ?_, by simp⟩, ?_⟩
  · refine inOrder_add _ _ _ (inOrder_add _ _ _ (inOrder_add _ _ _ (inOrder_add _ _ _ ?_)))
    exact List.Pairwise.nil
  · simp only [mem_add, boot, List.not_mem_nil, or_false]
    rintro timeout (rfl | rfl | rfl | rfl) <;> simp only <;> omega
  · simp only [mem_add, boot, List.not_mem_nil, or_false]
    rintro timeout (rfl | rfl | rfl | rfl) <;>
      simp only [Handler.intervalMs, Cyclic.intervalMs] <;> omega
  · exact handlers.nodup_iff.mpr (by decide)
  · rw [handlers.mem_iff]
    cases timer <;> simp
  · rw [handlers.mem_iff]
    simp [Timers.handlers, boot, add]
  · intro timer
    simp only [mem_add, boot, List.not_mem_nil, or_false]
    cases timer <;> simp [Cyclic.intervalMs]

theorem startTimers_wrapped {timers : List Cyclic} {base : Nat} (comparable : t.Comparable base)
    (inside : ∀ timer, InWindow base (start timer + timer.intervalMs)) :
    startTimers (fun timer => UInt32.ofNat (start timer)) memory timers t.wrapped =
      (startTimers start memory timers t).map wrapped := by
  induction timers generalizing t with
  | nil => rfl
  | cons timer rest ih =>
      have started := sysTimeoutAbs_wrapped comparable (inside timer) (.cyclic timer)
        (memory timer)
      rw [startTimers, startTimers, sysTimeout, sysTimeout, later_ofNat]
      simp only [Ticks.later, started]
      cases returned : t.sysTimeoutAbs (start timer + timer.intervalMs) (.cyclic timer)
          (memory timer) with
      | error halt => rfl
      | ok middle =>
          refine ih fun timeout among => ?_
          obtain ⟨_, rfl⟩ := sysTimeoutAbs_eq_ok.mp returned
          rcases (mem_add _ _ _).mp among with rfl | old
          · exact inside timer
          · exact comparable timeout old

theorem sysTimeoutsInit_wrapped
    (between : ∀ timer, first ≤ start timer ∧ start timer ≤ last)
    (short : last + 60000 < first + 2147483648) :
    (boot 0).sysTimeoutsInit (fun timer => UInt32.ofNat (start timer)) memory =
      ((boot 0).sysTimeoutsInit start memory).map wrapped := by
  have comparable : (boot 0 : Timers Nat).Comparable first := by simp [Comparable, boot]
  refine startTimers_wrapped comparable fun timer => ?_
  have small : timer.intervalMs ≤ 60000 := Handler.intervalMs_le (.cyclic timer)
  have inside := between timer
  exact ⟨by omega, by omega⟩

end Timers

/-- The timers of the source call the same handlers, in the same passes, as timers on a
clock that does not wrap, as long as each pass is over less than 2^31 - 60000 ms after the
pass before it was begun. -/
theorem wrapped_run {t : Timers Nat} {swept seen : Nat} (kept : t.Kept none swept seen)
    (forward : swept ≤ seen) {inputs : List (Input Nat)}
    (timely : Timely 2147423647 swept seen inputs) :
    agenda.replies (some t.wrapped) (inputs.map Input.wrapped) =
        (agenda.replies (some t) inputs).map (List.map Timeo.wrapped) ∧
      agenda.run (some t.wrapped) (inputs.map Input.wrapped) =
        (agenda.run (some t) inputs).map Timers.wrapped := by
  induction inputs generalizing t swept seen with
  | nil => exact ⟨rfl, rfl⟩
  | cons input rest ih =>
      obtain ⟨follows, soon, timely⟩ := timely
      have served := kept.serve_wrapped forward follows soon
      rw [List.map_cons]
      cases returned : t.serve input with
      | error halt =>
          rw [returned] at served
          simp only [Machine.replies, Machine.run, Machine.reply, Machine.next,
            step_of_error returned, step_of_error served, run_none, replies_none, List.map_map,
            List.map_cons]
          exact ⟨rfl, rfl⟩
      | ok result =>
          obtain ⟨fired, t'⟩ := result
          rw [returned] at served
          obtain ⟨kept', forward'⟩ := kept.serve forward follows returned
          obtain ⟨replies, last⟩ := ih kept' forward' timely
          simp only [Machine.replies, Machine.run, Machine.reply, Machine.next,
            step_of_ok returned, step_of_ok served, replies, last, List.map_cons, and_self]

end AppPortKit.Poll
