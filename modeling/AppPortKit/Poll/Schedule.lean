import AppPortKit.Poll.Timeouts

/-!
# Timers on a clock that does not wrap

What a pass over the timers does, in milliseconds since the machine was started: no handler
is called early, none that was due at the start of the pass is left out, and the pass
returns after at most two calls of each handler.
-/

namespace AppPortKit.Poll

open Fallible Transition

/-! ## Insertion -/

theorem Timeo.precedes_iff {timeout other : Timeo Nat} :
    timeout.Precedes other ↔ timeout.time < other.time := by
  simp [Precedes, Ticks.lessThan]

/-- Timers in the order in which they expire. -/
def InOrder (timeouts : List (Timeo Nat)) : Prop :=
  timeouts.Pairwise fun timeout other => timeout.time ≤ other.time

theorem InOrder.insert {timeouts : List (Timeo Nat)} (inOrder : InOrder timeouts)
    (timeout : Timeo Nat) : InOrder (timeouts.orderedInsert Timeo.Precedes timeout) := by
  induction timeouts with
  | nil => simp [InOrder]
  | cons first rest ih =>
      obtain ⟨least, inOrder⟩ := List.pairwise_cons.mp inOrder
      rw [List.orderedInsert_cons]
      split
      next before =>
        have before := Timeo.precedes_iff.mp before
        refine List.pairwise_cons.mpr
          ⟨fun other among => ?_, List.pairwise_cons.mpr ⟨least, inOrder⟩⟩
        rcases List.mem_cons.mp among with rfl | later
        · exact before.le
        · exact before.le.trans (least other later)
      next notBefore =>
        refine List.pairwise_cons.mpr ⟨fun other among => ?_, ih inOrder⟩
        rcases (List.mem_orderedInsert _).mp among with rfl | later
        · exact Nat.not_lt.mp (mt Timeo.precedes_iff.mpr notBefore)
        · exact least other later

/-- What is left to do in a pass: a timer that has expired may expire again in it, but only
at its very end. -/
def Timeo.pending (now : Nat) (timeout : Timeo Nat) : Nat :=
  if timeout.time < now then 2 else if timeout.time = now then 1 else 0

theorem Timeo.pending_pos {now : Nat} {timeout : Timeo Nat} (expired : timeout.time ≤ now) :
    0 < timeout.pending now := by
  rw [pending]
  split_ifs <;> omega

theorem Handler.intervalMs_le (handler : Handler) : handler.intervalMs ≤ 60000 := by
  cases handler with
  | tcp => decide
  | cyclic timer => cases timer <;> decide

namespace Timers

/-- The handlers that are to be called. -/
def handlers {τ : Type} (t : Timers τ) : List Handler := t.nextTimeout.map Timeo.handler

@[inherit_doc Timeo.pending]
def pending (t : Timers Nat) (now : Nat) : Nat := (t.nextTimeout.map (Timeo.pending now)).sum

/-- The timers with one more. -/
def add (t : Timers Nat) (time : Nat) (handler : Handler) : Timers Nat :=
  { t with nextTimeout := t.nextTimeout.orderedInsert Timeo.Precedes { time, handler } }

section Add

variable (t : Timers Nat) (time : Nat) (handler : Handler)

theorem perm_add : (t.add time handler).nextTimeout.Perm ({ time, handler } :: t.nextTimeout) :=
  List.perm_orderedInsert ..

theorem mem_add {timeout : Timeo Nat} :
    timeout ∈ (t.add time handler).nextTimeout ↔
      timeout = { time, handler } ∨ timeout ∈ t.nextTimeout :=
  List.mem_orderedInsert _

theorem inOrder_add (inOrder : InOrder t.nextTimeout) :
    InOrder (t.add time handler).nextTimeout :=
  inOrder.insert _

theorem perm_handlers_add : (t.add time handler).handlers.Perm (handler :: t.handlers) :=
  (t.perm_add time handler).map _

theorem pending_add (now : Nat) :
    (t.add time handler).pending now = Timeo.pending now { time, handler } + t.pending now := by
  rw [pending, ((t.perm_add time handler).map _).sum_nat, List.map_cons, List.sum_cons, pending]

end Add

variable {t t' : Timers Nat} {time : Nat} {handler : Handler} {memory : Bool}

theorem sysTimeoutAbs_eq_ok :
    t.sysTimeoutAbs time handler memory = .ok t' ↔ memory = true ∧ t' = t.add time handler := by
  rw [sysTimeoutAbs]
  split
  next granted => simp [granted, add, eq_comm]
  next refused => simp [refused]

/-- The timers between two passes, or in a pass with the timer of the running handler out
of the list.  No timer is left that had expired at `swept`, and none expires later than its
interval after `seen`. -/
structure Kept (t : Timers Nat) (running : Option Handler) (swept seen : Nat) : Prop where
  inOrder : InOrder t.nextTimeout
  after : ∀ timeout ∈ t.nextTimeout, swept < timeout.time
  soon : ∀ timeout ∈ t.nextTimeout, timeout.time ≤ seen + timeout.handler.intervalMs
  once : t.handlers.Nodup
  cyclic : ∀ timer, .cyclic timer ∈ t.handlers ↔ running ≠ some (.cyclic timer)
  tcp : .tcp ∈ t.handlers ↔ t.tcpTimerActive = true ∧ running ≠ some .tcp
  active : running = some .tcp → t.tcpTimerActive = true

namespace Kept

variable {running : Option Handler} {swept seen later : Nat}

/-- No timer is later than the longest interval. -/
theorem time_le (kept : t.Kept running swept seen) {timeout : Timeo Nat}
    (among : timeout ∈ t.nextTimeout) : timeout.time ≤ seen + 60000 :=
  (kept.soon timeout among).trans (Nat.add_le_add_left timeout.handler.intervalMs_le seen)

theorem mono (kept : t.Kept running swept seen) (forward : seen ≤ later) :
    t.Kept running swept later :=
  { kept with soon := fun timeout among => (kept.soon timeout among).trans (by omega) }

/-- A timer that is not in the list is started. -/
theorem add (kept : t.Kept running swept seen) {running' : Option Handler} {active : Bool}
    (absent : handler ∉ t.handlers) (after : swept < time) (soon : time ≤ seen + handler.intervalMs)
    (cyclic : ∀ timer, running' ≠ some (.cyclic timer) ↔
      .cyclic timer = handler ∨ running ≠ some (.cyclic timer))
    (tcp : active = true ∧ running' ≠ some .tcp ↔
      .tcp = handler ∨ t.tcpTimerActive = true ∧ running ≠ some .tcp)
    (activates : running' = some .tcp → active = true) :
    ({ t with tcpTimerActive := active }.add time handler).Kept running' swept seen := by
  have handlers : ∀ other, other ∈ ({ t with tcpTimerActive := active }.add time handler).handlers ↔
      other = handler ∨ other ∈ t.handlers := fun other =>
    (perm_handlers_add { t with tcpTimerActive := active } time handler).mem_iff.trans List.mem_cons
  have timeouts : ∀ other,
      other ∈ ({ t with tcpTimerActive := active }.add time handler).nextTimeout ↔
      other = { time, handler } ∨ other ∈ t.nextTimeout := fun other =>
    mem_add { t with tcpTimerActive := active } time handler
  refine ⟨kept.inOrder.insert _, fun other among => ?_, fun other among => ?_, ?_,
    fun timer => ?_, ?_, activates⟩
  · rcases (timeouts other).mp among with rfl | old
    · exact after
    · exact kept.after other old
  · rcases (timeouts other).mp among with rfl | old
    · exact soon
    · exact kept.soon other old
  · refine (perm_handlers_add _ time handler).nodup_iff.mpr ?_
    exact List.nodup_cons.mpr ⟨absent, kept.once⟩
  · rw [handlers, kept.cyclic, cyclic]
  · rw [handlers, kept.tcp, ← tcp]
    exact Iff.rfl

end Kept

/-! ## Handlers -/

/-- What a call of `tcp_timer_needed` does: nothing, or it starts the timer of TCP. -/
theorem tcpTimerNeeded_eq_ok {need : Need Nat} (returned : t.tcpTimerNeeded need = .ok t') :
    t' = t ∨ t.tcpTimerActive = false ∧
      t' = { t with tcpTimerActive := true }.add (need.now + 250) .tcp := by
  rw [tcpTimerNeeded] at returned
  split at returned
  next starts =>
    have idle : t.tcpTimerActive = false := by simpa using (Bool.and_eq_true_iff.mp starts).1
    exact .inr ⟨idle, (sysTimeoutAbs_eq_ok.mp returned).2⟩
  next => exact .inl (Except.ok.inj returned).symm

/-- What handlers leave of the timers: all are still there, and at most that of TCP was
started. -/
structure Served (t t' : Timers Nat) (swept : Nat) : Prop where
  kept : ∀ timeout ∈ t.nextTimeout, timeout ∈ t'.nextTimeout
  cyclic : ∀ timeout ∈ t'.nextTimeout, timeout.handler ≠ .tcp → timeout ∈ t.nextTimeout
  pending : ∀ now < swept + 250, t'.pending now = t.pending now
  due : t'.currentTimeoutDueTime = t.currentTimeoutDueTime

theorem Served.refl (t : Timers Nat) (swept : Nat) : t.Served t swept where
  kept _ among := among
  cyclic _ among _ := among
  pending _ _ := rfl
  due := rfl

theorem Served.trans {u : Timers Nat} {swept : Nat} (first : t.Served t' swept)
    (second : t'.Served u swept) : t.Served u swept where
  kept timeout among := second.kept timeout (first.kept timeout among)
  cyclic timeout among other := first.cyclic timeout (second.cyclic timeout among other) other
  pending now bound := (second.pending now bound).trans (first.pending now bound)
  due := second.due.trans first.due

/-- The timer of TCP is started. -/
theorem served_add {start : Nat} (active : Bool) (late : start + 250 ≤ time) :
    t.Served ({ t with tcpTimerActive := active }.add time .tcp) start where
  kept timeout among := (mem_add _ _ _).mpr (.inr among)
  cyclic timeout among other :=
    ((mem_add _ _ _).mp among).resolve_left fun same => other (same ▸ rfl)
  pending now early := by
    have later : Timeo.pending now { time, handler := .tcp } = 0 := by
      rw [Timeo.pending, if_neg (by simp only; omega), if_neg (by simp only; omega)]
    rw [pending_add, later, Nat.zero_add]
    rfl
  due := rfl

section Handlers

variable {running : Option Handler} {swept seen start : Nat}

theorem Kept.needed {need : Need Nat} (kept : t.Kept running swept seen)
    (inside : start ≤ need.now ∧ need.now ≤ seen) (late : swept ≤ start)
    (returned : t.tcpTimerNeeded need = .ok t') :
    t'.Kept running swept seen ∧ t.Served t' start := by
  rcases tcpTimerNeeded_eq_ok returned with rfl | ⟨idle, rfl⟩
  · exact ⟨kept, .refl t' start⟩
  have absent : .tcp ∉ t.handlers := by simp [kept.tcp, idle]
  have other : running ≠ some .tcp := fun same => by simp [kept.active same] at idle
  have soon : need.now + 250 ≤ seen + Handler.tcp.intervalMs := Nat.add_le_add_right inside.2 250
  exact ⟨kept.add absent (by omega) soon (by simp) (by simp [other]) (by simp),
    served_add true (by omega)⟩

theorem Kept.protocols {needs : List (Need Nat)} (kept : t.Kept running swept seen)
    (inside : ∀ need ∈ needs, start ≤ need.now ∧ need.now ≤ seen) (late : swept ≤ start)
    (returned : t.protocols needs = .ok t') :
    t'.Kept running swept seen ∧ t.Served t' start := by
  induction needs generalizing t with
  | nil =>
      obtain rfl := Except.ok.inj returned
      exact ⟨kept, .refl t start⟩
  | cons need rest ih =>
      obtain ⟨middle, first, returned⟩ := bind_eq_ok.mp returned
      obtain ⟨kept, served⟩ := kept.needed (inside need List.mem_cons_self) late first
      obtain ⟨kept, later⟩ :=
        ih kept (fun other among => inside other (List.mem_cons_of_mem _ among)) returned
      exact ⟨kept, served.trans later⟩

/-- When a cyclic timer expires next: an interval after it was due, or if that is over by
the time its handler returns, an interval after that. -/
def rearmed (timer : Cyclic) (due now : Nat) : Nat :=
  if due + timer.intervalMs < now then now + timer.intervalMs else due + timer.intervalMs

/-- A handler that runs from `start` to `handling.now`. -/
structure Runs (handling : Handling Nat) (start : Nat) : Prop where
  forward : start ≤ handling.now
  needs : ∀ need ∈ handling.needs, start ≤ need.now ∧ need.now ≤ handling.now

/-- What the handler of a timer that was due leaves. -/
structure Called (t t' : Timers Nat) (first : Timeo Nat) (handling : Handling Nat)
    (start : Nat) : Prop where
  forward : start ≤ handling.now
  kept : ∀ timeout ∈ t.nextTimeout, timeout ∈ t'.nextTimeout
  rearms : ∀ timer, first.handler = .cyclic timer →
    { time := rearmed timer first.time handling.now, handler := .cyclic timer } ∈ t'.nextTimeout
  pending : ∀ now ≤ start, first.time ≤ now →
    t'.pending now < first.pending now + t.pending now

theorem Kept.tcpipTcpTimer {handling : Handling Nat} (kept : t.Kept (some .tcp) swept start)
    (runs : Runs handling start) (late : swept ≤ start)
    (returned : t.tcpipTcpTimer handling = .ok t') :
    t'.Kept none swept handling.now ∧ t.Served t' start := by
  obtain ⟨middle, ran, returned⟩ := bind_eq_ok.mp returned
  obtain ⟨kept, served⟩ := (kept.mono runs.forward).protocols runs.needs late ran
  have absent : .tcp ∉ middle.handlers := by simp [kept.tcp]
  have forward := runs.forward
  split at returned
  next =>
    obtain ⟨_, rfl⟩ := sysTimeoutAbs_eq_ok.mp returned
    refine ⟨kept.add absent ?_ (Nat.le_refl _) (by simp) (by simp [kept.active rfl]) (by simp),
      served.trans (served_add middle.tcpTimerActive ?_)⟩
    all_goals simp only [Ticks.later, tcpTmrInterval]; omega
  next =>
    obtain rfl := Except.ok.inj returned
    refine ⟨⟨kept.inOrder, kept.after, kept.soon, kept.once, fun timer => ?_, ?_, by simp⟩,
      served.trans ⟨fun _ => id, fun _ among _ => among, fun _ _ => rfl, rfl⟩⟩
    · exact (kept.cyclic timer).trans (by simp)
    · exact iff_of_false absent (by simp)

theorem intervalMs_pos (timer : Cyclic) : 0 < timer.intervalMs := by
  cases timer <;> decide

theorem Kept.lwipCyclicTimer {timer : Cyclic} {handling : Handling Nat}
    (kept : t.Kept (some (.cyclic timer)) swept start) (runs : Runs handling start)
    (late : swept ≤ start) (due : t.currentTimeoutDueTime ≤ start)
    (after : swept < t.currentTimeoutDueTime)
    (returned : t.lwipCyclicTimer timer handling = .ok t') :
    ∃ middle, t.Served middle start ∧ t'.Kept none swept handling.now ∧
      t' = middle.add (rearmed timer t.currentTimeoutDueTime handling.now) (.cyclic timer) := by
  obtain ⟨middle, ran, returned⟩ := bind_eq_ok.mp returned
  obtain ⟨kept, served⟩ := (kept.mono runs.forward).protocols runs.needs late ran
  have absent : .cyclic timer ∉ middle.handlers := by simp [kept.cyclic]
  have forward := runs.forward
  have positive := intervalMs_pos timer
  have result : t' = middle.add (rearmed timer t.currentTimeoutDueTime handling.now)
      (.cyclic timer) := by
    simp only [Ticks.lessThan, Ticks.later, decide_eq_true_eq, served.due] at returned
    rw [rearmed]
    split at returned
    next passed => rw [if_pos passed, (sysTimeoutAbs_eq_ok.mp returned).2]
    next inTime => rw [if_neg inTime, (sysTimeoutAbs_eq_ok.mp returned).2]
  refine ⟨middle, served, ?_, result⟩
  rw [result]
  refine kept.add absent ?_ ?_ (fun other => ?_) (by simp) (by simp)
  · rw [rearmed]
    split <;> omega
  · rw [rearmed, Handler.intervalMs]
    split <;> omega
  · by_cases same : other = timer
    · simp [same]
    · simp [Ne.symm same]

theorem pending_rearmed {timer : Cyclic} {due now finished : Nat} (expired : due ≤ now)
    (forward : now ≤ finished) :
    Timeo.pending now { time := rearmed timer due finished, handler := .cyclic timer } <
      Timeo.pending now { time := due, handler := .cyclic timer } := by
  have positive := intervalMs_pos timer
  simp only [Timeo.pending, rearmed]
  split_ifs <;> omega

/-- The handler of a timer that was due. -/
theorem Kept.call {first : Timeo Nat} {handling : Handling Nat}
    (kept : t.Kept (some first.handler) swept start) (runs : Runs handling start)
    (late : swept ≤ start) (current : t.currentTimeoutDueTime = first.time)
    (due : first.time ≤ start) (after : swept < first.time)
    (returned : t.call first.handler handling = .ok t') :
    t'.Kept none swept handling.now ∧ t.Called t' first handling start := by
  obtain ⟨time, handler⟩ := first
  cases handler with
  | tcp =>
      obtain ⟨kept, served⟩ := kept.tcpipTcpTimer runs late returned
      refine ⟨kept, runs.forward, served.kept, by simp, fun now early expired => ?_⟩
      rw [served.pending now (by omega)]
      exact Nat.lt_add_of_pos_left (Timeo.pending_pos expired)
  | cyclic timer =>
      simp only at current due after
      subst current
      obtain ⟨middle, served, kept, rfl⟩ := kept.lwipCyclicTimer runs late due after returned
      have forward := runs.forward
      refine ⟨kept, forward, fun timeout among => ?_, fun other same => ?_,
        fun now early expired => ?_⟩
      · exact (mem_add _ _ _).mpr (.inr (served.kept timeout among))
      · obtain rfl := Handler.cyclic.inj same
        exact (mem_add _ _ _).mpr (.inl rfl)
      · rw [pending_add, served.pending now (by omega)]
        exact Nat.add_lt_add_right (pending_rearmed expired (early.trans forward)) _

end Handlers

/-! ## A pass -/

theorem expired_eq_none {now : Nat} (inOrder : InOrder t.nextTimeout)
    (idle : t.expired now = none) : ∀ timeout ∈ t.nextTimeout, now < timeout.time := by
  rw [expired] at idle
  split at idle
  next empty => simp [empty]
  next first rest list =>
    rw [list] at inOrder ⊢
    have later : now < first.time := by simpa [Ticks.lessThan] using idle
    intro timeout among
    rcases List.mem_cons.mp among with rfl | after
    · exact later
    · exact later.trans_le (List.rel_of_pairwise_cons inOrder after)

theorem expired_eq_some {now : Nat} {first : Timeo Nat} {rest : Timers Nat}
    (expired : t.expired now = some (first, rest)) :
    t.nextTimeout = first :: rest.nextTimeout ∧ first.time ≤ now ∧
      rest.tcpTimerActive = t.tcpTimerActive ∧ rest.currentTimeoutDueTime = first.time := by
  rw [Timers.expired] at expired
  split at expired
  next => simp at expired
  next head tail list =>
    split at expired
    next => simp at expired
    next due =>
      obtain ⟨rfl, rfl⟩ := Prod.mk.inj (Option.some.inj expired)
      exact ⟨list, by simpa [Ticks.lessThan] using due, rfl, rfl⟩

/-- A timer that has expired is taken out of the list. -/
theorem Kept.expired {swept start now : Nat} {first : Timeo Nat} {rest : Timers Nat}
    (kept : t.Kept none swept start) (expired : t.expired now = some (first, rest)) :
    rest.Kept (some first.handler) (first.time - 1) start ∧ swept < first.time := by
  obtain ⟨list, due, flag, _⟩ := expired_eq_some expired
  have after : swept < first.time := kept.after first (by simp [list])
  have handlers : t.handlers = first.handler :: rest.handlers := by
    rw [Timers.handlers, list, List.map_cons, Timers.handlers]
  have once := handlers ▸ kept.once
  obtain ⟨absent, once⟩ := List.nodup_cons.mp once
  have mem_iff (handler : Handler) :
      handler ∈ rest.handlers ↔ handler ∈ t.handlers ∧ first.handler ≠ handler := by
    rw [handlers, List.mem_cons]
    constructor
    · exact fun among => ⟨.inr among, fun same => absent (same ▸ among)⟩
    · exact fun ⟨among, other⟩ => among.resolve_left (Ne.symm other)
  have inOrder := kept.inOrder
  rw [list] at inOrder
  refine ⟨⟨(List.pairwise_cons.mp inOrder).2, fun timeout among => ?_, fun timeout among => ?_,
    once, fun timer => ?_, ?_, fun same => ?_⟩, after⟩
  · have least := (List.pairwise_cons.mp inOrder).1 timeout among
    omega
  · exact kept.soon timeout (by simp [list, among])
  · rw [mem_iff, kept.cyclic]
    simp
  · rw [mem_iff, kept.tcp, flag]
    simp
  · have among : .tcp ∈ t.handlers := by simp [handlers, ← Option.some.inj same]
    rw [flag]
    exact (kept.tcp.mp among).1

/-- Handlers run one after the other, from `start` on. -/
def Consecutive : Nat → List (Handling Nat) → Prop
  | _, [] => True
  | start, handling :: rest => Runs handling start ∧ Consecutive handling.now rest

instance decidableRuns (handling : Handling Nat) (start : Nat) : Decidable (Runs handling start) :=
  decidable_of_iff (start ≤ handling.now ∧
      ∀ need ∈ handling.needs, start ≤ need.now ∧ need.now ≤ handling.now)
    ⟨fun ⟨forward, needs⟩ => ⟨forward, needs⟩, fun runs => ⟨runs.forward, runs.needs⟩⟩

instance decidableConsecutive :
    (start : Nat) → (handlings : List (Handling Nat)) → Decidable (Consecutive start handlings)
  | _, [] => .isTrue trivial
  | start, handling :: rest =>
      let _ := decidableConsecutive handling.now rest
      inferInstanceAs (Decidable (Runs handling start ∧ Consecutive handling.now rest))

/-- The time when the last of them returns. -/
def finished (start : Nat) (handlings : List (Handling Nat)) : Nat :=
  handlings.foldl (fun _ handling => handling.now) start

theorem le_finished {start : Nat} {handlings : List (Handling Nat)}
    (consecutive : Consecutive start handlings) : start ≤ finished start handlings := by
  induction handlings generalizing start with
  | nil => exact Nat.le_refl start
  | cons handling rest ih => exact consecutive.1.forward.trans (ih consecutive.2)

/-- The number of calls of a handler. -/
def calls {τ : Type} (handler : Handler) (fired : List (Timeo τ)) : Nat :=
  (fired.map Timeo.handler).count handler

/-- What a pass over the timers does. -/
structure Passed (t t' : Timers Nat) (fired : List (Timeo Nat)) (swept now last : Nat) : Prop where
  kept : t'.Kept none now last
  due : ∀ timeout ∈ fired, swept < timeout.time ∧ timeout.time ≤ now
  inOrder : InOrder fired
  complete : ∀ timeout ∈ t.nextTimeout, timeout.time ≤ now → timeout ∈ fired
  bounded : fired.length ≤ t.pending now
  cadence : ∀ timer due, { time := due, handler := .cyclic timer } ∈ t.nextTimeout →
    ∃ next, { time := next, handler := .cyclic timer } ∈ t'.nextTimeout ∧
      due + timer.intervalMs * calls (.cyclic timer) fired ≤ next ∧
      due + timer.intervalMs * calls (.cyclic timer) fired ≤ max due (now + timer.intervalMs) ∧
      (last ≤ swept + timer.intervalMs →
        next = due + timer.intervalMs * calls (.cyclic timer) fired)

/-- No timer has expired. -/
theorem Kept.passed_of_idle {swept now start last : Nat} (kept : t.Kept none swept start)
    (idle : t.expired now = none) (forward : start ≤ last) : t.Passed t [] swept now last := by
  have after := expired_eq_none kept.inOrder idle
  refine ⟨{ kept.mono forward with after }, by simp, List.Pairwise.nil, fun timeout among due => ?_,
    by simp, fun timer due among => ⟨due, among, by simp [calls], by simp [calls], by simp [calls]⟩⟩
  exact absurd (after timeout among) (Nat.not_lt.mpr due)

/-- The timer of a handler is the only one with it. -/
theorem Kept.time_eq {running : Option Handler} {swept start time' : Nat}
    (kept : t.Kept running swept start) (one : { time, handler } ∈ t.nextTimeout)
    (two : { time := time', handler } ∈ t.nextTimeout) : time = time' := by
  have same := List.inj_on_of_nodup_map kept.once one two rfl
  exact congrArg Timeo.time same

/-- A handler is called, and the pass goes on. -/
theorem Passed.cons {swept now start last : Nat} {first : Timeo Nat} {rest middle : Timers Nat}
    {handling : Handling Nat} {others : List (Timeo Nat)}
    (passed : middle.Passed t' others (first.time - 1) now last) (kept : t.Kept none swept start)
    (expired : t.expired now = some (first, rest))
    (left : rest.Called middle first handling start) (early : now ≤ start)
    (finishes : handling.now ≤ last) : t.Passed t' (first :: others) swept now last := by
  obtain ⟨list, due, _, _⟩ := expired_eq_some expired
  have after := (kept.expired expired).2
  refine ⟨passed.kept, fun timeout among => ?_, ?_, fun timeout among isDue => ?_, ?_,
    fun timer time among => ?_⟩
  · rcases List.mem_cons.mp among with rfl | later
    · exact ⟨after, due⟩
    · obtain ⟨least, due⟩ := passed.due timeout later
      exact ⟨by omega, due⟩
  · refine List.pairwise_cons.mpr ⟨fun timeout later => ?_, passed.inOrder⟩
    have least := (passed.due timeout later).1
    omega
  · rw [list] at among
    rcases List.mem_cons.mp among with rfl | later
    · exact List.mem_cons_self
    · exact List.mem_cons_of_mem _ (passed.complete timeout (left.kept timeout later) isDue)
  · have fewer := left.pending now early due
    have bounded := passed.bounded
    have split : t.pending now = first.pending now + rest.pending now := by
      rw [pending, list, List.map_cons, List.sum_cons, pending]
    rw [List.length_cons, split]
    omega
  · by_cases this : first.handler = .cyclic timer
    · -- Its own handler is called: the timer expires an interval later.
      obtain rfl : first.time = time :=
        kept.time_eq (by rw [list, ← this]; exact List.mem_cons_self) among
      obtain ⟨next, present, least, most, exact⟩ :=
        passed.cadence timer _ (left.rearms timer this)
      have more : calls (.cyclic timer) (first :: others) = calls (.cyclic timer) others + 1 := by
        simp [calls, this]
      have positive := intervalMs_pos timer
      rw [more, Nat.mul_succ]
      refine ⟨next, present, ?_, ?_, fun prompt => ?_⟩
      · rw [rearmed] at least
        split at least <;> omega
      · rw [rearmed] at most
        have forward := left.forward
        by_cases never : calls (.cyclic timer) others = 0
        · rw [never, Nat.mul_zero]
          omega
        · have once : timer.intervalMs ≤ timer.intervalMs * calls (.cyclic timer) others :=
            Nat.le_mul_of_pos_right _ (Nat.pos_of_ne_zero never)
          split at most <;> omega
      · rw [exact (by omega), rearmed, if_neg (by omega)]
        omega
    · rw [list] at among
      have later : { time, handler := .cyclic timer } ∈ rest.nextTimeout :=
        (List.mem_cons.mp among).resolve_left fun same => this (same ▸ rfl)
      obtain ⟨next, present, least, most, exact⟩ :=
        passed.cadence timer time (left.kept _ later)
      have same : calls (.cyclic timer) (first :: others) = calls (.cyclic timer) others := by
        simp [calls, this]
      rw [same]
      exact ⟨next, present, least, most, fun prompt => exact (by omega)⟩

theorem Kept.check {swept now start : Nat} {handlings : List (Handling Nat)}
    {fired : List (Timeo Nat)} (kept : t.Kept none swept start) (early : now ≤ start)
    (swept_le : swept ≤ now) (consecutive : Consecutive start handlings)
    (returned : sysCheckTimeouts now handlings t = .ok (fired, t')) :
    t.Passed t' fired swept now (finished start handlings) := by
  induction handlings generalizing t swept start fired with
  | nil =>
      rw [sysCheckTimeouts] at returned
      split at returned
      next idle =>
        obtain ⟨rfl, rfl⟩ := Prod.mk.inj (Except.ok.inj returned)
        exact kept.passed_of_idle idle (Nat.le_refl start)
      next => exact absurd returned (by simp)
  | cons handling later ih =>
      obtain ⟨runs, consecutive⟩ := consecutive
      rw [sysCheckTimeouts] at returned
      split at returned
      next idle =>
        obtain ⟨rfl, rfl⟩ := Prod.mk.inj (Except.ok.inj returned)
        exact kept.passed_of_idle idle (runs.forward.trans (le_finished consecutive))
      next first rest expired =>
        obtain ⟨middle, called, returned⟩ := bind_eq_ok.mp returned
        obtain ⟨⟨others, u⟩, checked, returned⟩ := bind_eq_ok.mp returned
        obtain ⟨rfl, rfl⟩ := Prod.mk.inj (Except.ok.inj returned)
        obtain ⟨list, due, _, current⟩ := expired_eq_some expired
        obtain ⟨without, after⟩ := kept.expired expired
        obtain ⟨keptMiddle, left⟩ :=
          without.call runs (by omega) current (due.trans early) (by omega) called
        have passed := ih keptMiddle (early.trans runs.forward) (by omega) consecutive checked
        exact passed.cons kept expired left early (le_finished consecutive)

end Timers

/-! ## Passes return -/

/-- There is memory for every timer. -/
def Handling.Granted {τ : Type} (handling : Handling τ) : Prop :=
  handling.memory = true ∧ ∀ need ∈ handling.needs, need.memory = true

instance decidableGranted {τ : Type} (handling : Handling τ) : Decidable handling.Granted :=
  inferInstanceAs (Decidable (_ ∧ _))

section Returns

namespace Timers

variable {τ : Type} [Ticks τ] {t : Timers τ}

theorem sysTimeoutAbs_returns {memory : Bool} (granted : memory = true) (time : τ)
    (handler : Handler) : ∃ t', t.sysTimeoutAbs time handler memory = .ok t' :=
  ⟨_, if_pos granted⟩

theorem tcpTimerNeeded_returns {need : Need τ} (granted : need.memory = true) :
    ∃ t', t.tcpTimerNeeded need = .ok t' := by
  rw [tcpTimerNeeded]
  split
  · exact sysTimeoutAbs_returns granted _ _
  · exact ⟨t, rfl⟩

theorem protocols_returns {needs : List (Need τ)}
    (granted : ∀ need ∈ needs, need.memory = true) : ∃ t', t.protocols needs = .ok t' := by
  induction needs generalizing t with
  | nil => exact ⟨t, rfl⟩
  | cons need rest ih =>
      obtain ⟨middle, first⟩ := tcpTimerNeeded_returns (granted need List.mem_cons_self) (t := t)
      obtain ⟨t', later⟩ := ih (fun other among => granted other (List.mem_cons_of_mem _ among))
      exact ⟨t', bind_eq_ok.mpr ⟨middle, first, later⟩⟩

theorem call_returns {handling : Handling τ} (granted : handling.Granted) (handler : Handler) :
    ∃ t', t.call handler handling = .ok t' := by
  obtain ⟨middle, ran⟩ := protocols_returns granted.2 (t := t)
  cases handler with
  | tcp =>
      by_cases pcbs : handling.pcbs = true
      · obtain ⟨t', started⟩ := sysTimeoutAbs_returns granted.1
          (Ticks.later handling.now tcpTmrInterval) .tcp (t := middle)
        exact ⟨t', bind_eq_ok.mpr ⟨middle, ran, (if_pos pcbs).trans started⟩⟩
      · exact ⟨_, bind_eq_ok.mpr ⟨middle, ran, if_neg pcbs⟩⟩
  | cyclic timer =>
      have restarts (time : τ) := sysTimeoutAbs_returns granted.1 time (.cyclic timer) (t := middle)
      by_cases passed : Ticks.lessThan (Ticks.later middle.currentTimeoutDueTime timer.intervalMs)
          handling.now = true
      · obtain ⟨t', started⟩ := restarts (Ticks.later handling.now timer.intervalMs)
        exact ⟨t', bind_eq_ok.mpr ⟨middle, ran, (if_pos passed).trans started⟩⟩
      · obtain ⟨t', started⟩ :=
          restarts (Ticks.later middle.currentTimeoutDueTime timer.intervalMs)
        exact ⟨t', bind_eq_ok.mpr ⟨middle, ran, (if_neg passed).trans started⟩⟩

end Timers

end Returns

namespace Timers

variable {t : Timers Nat} {swept now start : Nat} {handlings : List (Handling Nat)}

/-- A pass returns, if its surroundings last. -/
theorem Kept.check_returns (kept : t.Kept none swept start) (early : now ≤ start)
    (swept_le : swept ≤ now) (consecutive : Consecutive start handlings)
    (granted : ∀ handling ∈ handlings, handling.Granted)
    (enough : t.pending now ≤ handlings.length) :
    ∃ result, sysCheckTimeouts now handlings t = .ok result := by
  induction handlings generalizing t swept start with
  | nil =>
      rw [sysCheckTimeouts]
      split
      next => exact ⟨_, rfl⟩
      next expired isExpired =>
        obtain ⟨list, due, _⟩ := expired_eq_some isExpired
        have positive := Timeo.pending_pos due
        rw [pending, list, List.map_cons, List.sum_cons, List.length_nil] at enough
        omega
  | cons handling later ih =>
      obtain ⟨runs, consecutive⟩ := consecutive
      rw [sysCheckTimeouts]
      split
      next => exact ⟨_, rfl⟩
      next first rest expired =>
        obtain ⟨middle, called⟩ := call_returns (granted handling List.mem_cons_self)
          first.handler (t := rest)
        obtain ⟨list, due, _, current⟩ := expired_eq_some expired
        obtain ⟨without, after⟩ := kept.expired expired
        obtain ⟨keptMiddle, left⟩ :=
          without.call runs (by omega) current (due.trans early) (by omega) called
        have fewer := left.pending now early due
        rw [pending, list, List.map_cons, List.sum_cons, ← pending, List.length_cons] at enough
        obtain ⟨result, checked⟩ := ih keptMiddle (early.trans runs.forward) (by omega) consecutive
          (fun other among => granted other (List.mem_cons_of_mem _ among)) (by omega)
        exact ⟨_, bind_eq_ok.mpr ⟨middle, called, bind_eq_ok.mpr ⟨result, checked, rfl⟩⟩⟩

/-- Every handler there is. -/
def allHandlers : List Handler := .tcp :: started.map .cyclic

theorem mem_allHandlers (handler : Handler) : handler ∈ allHandlers := by
  cases handler with
  | tcp => exact List.mem_cons_self
  | cyclic timer => cases timer <;> simp [allHandlers, started]

theorem sum_pending_le (now : Nat) (timeouts : List (Timeo Nat)) :
    (timeouts.map (Timeo.pending now)).sum ≤ 2 * timeouts.length := by
  induction timeouts with
  | nil => simp
  | cons first rest ih =>
      have two : first.pending now ≤ 2 := by
        rw [Timeo.pending]
        split_ifs <;> omega
      rw [List.map_cons, List.sum_cons, List.length_cons]
      omega

/-- Ten handlers are called at most. -/
theorem Kept.pending_le {running : Option Handler} (kept : t.Kept running swept start) :
    t.pending now ≤ 10 := by
  have few : t.nextTimeout.length ≤ 5 := by
    have inside : t.handlers ⊆ allHandlers := fun handler _ => mem_allHandlers handler
    have fewer := (List.subperm_of_subset kept.once inside).length_le
    rw [handlers, List.length_map] at fewer
    exact fewer
  have weighed := sum_pending_le now t.nextTimeout
  rw [pending]
  omega

end Timers

end AppPortKit.Poll
