import AppPortKit.Net.Clock
import AppPortKit.Poll.Wrapping

/-!
# Timers over whole runs

What the timers do from the start of the machine on, with the times that `sys_now` reads:
the handlers that are due are called, all of them and no others, and a cyclic timer keeps
its pace as long as `net_poll` is called often enough, also when the clock wraps.
-/

namespace AppPortKit.Poll

open Fallible Transition Net Timers

/-! ## Readings of the clock -/

section Read

variable {τ : Type} (clock : UInt64 → τ)

/-- The surroundings of the timers, with the readings of the counter that `sys_now` divides
down as times. -/
def Need.read (need : Need UInt64) : Need τ :=
  { pcbs := need.pcbs, now := clock need.now, memory := need.memory }

@[inherit_doc Need.read]
def Handling.read (handling : Handling UInt64) : Handling τ :=
  { needs := handling.needs.map (Need.read clock)
    now := clock handling.now
    pcbs := handling.pcbs
    memory := handling.memory }

@[inherit_doc Need.read]
def Input.read : Input UInt64 → Input τ
  | .needed need => .needed (need.read clock)
  | .check now handlings => .check (clock now) (handlings.map (Handling.read clock))

end Read

theorem sysNow_eq_ofNat (counter : UInt64) : sysNow counter = UInt32.ofNat (millis counter) :=
  UInt32.toNat_inj.mp (by rw [toNat_sysNow, UInt32.toNat_ofNat'])

/-- What `sys_now` reads are the milliseconds since the machine was started, wrapped. -/
theorem Handling.read_sysNow (handling : Handling UInt64) :
    handling.read sysNow = (handling.read millis).wrapped := by
  have needs : (fun need : Need UInt64 => need.read sysNow) =
      fun need => (need.read millis).wrapped :=
    funext fun need => by rw [Need.read, Need.wrapped, sysNow_eq_ofNat, Need.read]
  rw [Handling.read, Handling.wrapped, sysNow_eq_ofNat, Handling.read, List.map_map]
  exact congrArg (fun f => Handling.mk (handling.needs.map f) _ _ _) needs

@[inherit_doc Handling.read_sysNow]
theorem Input.read_sysNow (input : Input UInt64) :
    input.read sysNow = (input.read millis).wrapped := by
  cases input with
  | needed need =>
      rw [Input.read, Input.read, Input.wrapped, Need.read, Need.wrapped, sysNow_eq_ofNat,
        Need.read]
  | check now handlings =>
      rw [Input.read, Input.read, Input.wrapped, sysNow_eq_ofNat, List.map_map]
      exact congrArg _ (List.map_congr_left fun handling _ => handling.read_sysNow)

/-! ## Invariants of runs -/

namespace Timers

variable {t t' : Timers Nat} {gap swept seen : Nat} {inputs : List (Input Nat)}
  {fired : List (Timeo Nat)} {timer : Cyclic}

theorem Kept.run (kept : t.Kept none swept seen) (forward : swept ≤ seen)
    (timely : Timely gap swept seen inputs) (ran : agenda.run (some t) inputs = some t') :
    t'.Kept none (lastSweep swept inputs) (lastReading seen inputs) ∧
      lastSweep swept inputs ≤ lastReading seen inputs := by
  induction inputs generalizing t swept seen with
  | nil =>
      obtain rfl := Option.some.inj ran
      exact ⟨kept, forward⟩
  | cons input rest ih =>
      obtain ⟨follows, _, timely⟩ := timely
      obtain ⟨fired, middle, returned, ran, _⟩ := run_cons_eq_some ran
      obtain ⟨kept, forward⟩ := kept.serve forward follows returned
      exact ih kept forward timely ran

theorem le_lastSweep (timely : Timely gap swept seen inputs) (forward : swept ≤ seen) :
    swept ≤ lastSweep swept inputs := by
  induction inputs generalizing swept seen with
  | nil => exact Nat.le_refl swept
  | cons input rest ih =>
      obtain ⟨follows, _, timely⟩ := timely
      cases input with
      | needed need => exact ih timely (forward.trans follows)
      | check now handlings =>
          exact (forward.trans follows.1).trans (ih timely (le_finished follows.2))

/-! ## The pace of a cyclic timer -/

/-- How far a cyclic timer that was due at `due` gets in `count` calls: it is next due at
`next`, and the last pass was begun at `swept`. -/
structure Paced (timer : Cyclic) (due next count swept : Nat) (prompt : Prop) : Prop where
  least : due + timer.intervalMs * count ≤ next
  most : due + timer.intervalMs * count ≤ max due (swept + timer.intervalMs)
  exact : prompt → next = due + timer.intervalMs * count

theorem Paced.trans {due next last count more swept later : Nat} {prompt still : Prop}
    (one : Paced timer due next count swept prompt)
    (two : Paced timer next last more later still) (forward : swept ≤ later)
    (promptly : still → prompt) : Paced timer due last (count + more) later still := by
  have positive := intervalMs_pos timer
  obtain ⟨least, most, exact⟩ := one
  obtain ⟨least', most', exact'⟩ := two
  refine ⟨?_, ?_, fun stays => ?_⟩
  · rw [Nat.mul_add]
    omega
  · rcases Nat.eq_zero_or_pos more with rfl | again
    · rw [Nat.add_zero]
      omega
    · -- A call after the first stretch is at least an interval after it.
      have interval : timer.intervalMs ≤ timer.intervalMs * more := Nat.le_mul_of_pos_right _ again
      rw [Nat.mul_add]
      omega
  · rw [exact' stays, exact (promptly stays), Nat.mul_add, Nat.add_assoc]

theorem Kept.serve_paced {input : Input Nat} (kept : t.Kept none swept seen)
    (forward : swept ≤ seen) (follows : input.Follows seen)
    (returned : t.serve input = .ok (fired, t')) {due : Nat}
    (among : { time := due, handler := .cyclic timer } ∈ t.nextTimeout) :
    ∃ next, { time := next, handler := .cyclic timer } ∈ t'.nextTimeout ∧
      Paced timer due next (calls (.cyclic timer) fired) (input.sweep swept)
        (input.last ≤ swept + timer.intervalMs) := by
  cases input with
  | needed need =>
      obtain ⟨middle, needed, same⟩ := bind_eq_ok.mp returned
      obtain ⟨rfl, rfl⟩ := Prod.mk.inj (Except.ok.inj same)
      have served := ((kept.mono follows).needed ⟨follows, Nat.le_refl _⟩ forward needed).2
      exact ⟨due, served.kept _ among, by simp [calls], by simp [calls], by simp [calls]⟩
  | check now handlings =>
      obtain ⟨later, consecutive⟩ := follows
      have passed := (kept.mono later).check (Nat.le_refl now) (forward.trans later) consecutive
        returned
      obtain ⟨next, present, least, most, exact⟩ := passed.cadence timer due among
      exact ⟨next, present, least, most, exact⟩

theorem Kept.run_paced (kept : t.Kept none swept seen) (forward : swept ≤ seen)
    (timely : Timely gap swept seen inputs) (ran : agenda.run (some t) inputs = some t') {due : Nat}
    (among : { time := due, handler := .cyclic timer } ∈ t.nextTimeout) :
    ∃ next, { time := next, handler := .cyclic timer } ∈ t'.nextTimeout ∧
      Paced timer due next (calls (.cyclic timer) (agenda.replies (some t) inputs).flatten)
        (lastSweep swept inputs) (gap ≤ timer.intervalMs) := by
  induction inputs generalizing t swept seen due with
  | nil =>
      obtain rfl := Option.some.inj ran
      refine ⟨due, among, ?_, ?_, ?_⟩ <;> simp [calls, Machine.replies]
  | cons input rest ih =>
      obtain ⟨follows, soon, timely⟩ := timely
      obtain ⟨fired, middle, returned, ran, replies⟩ := run_cons_eq_some ran
      obtain ⟨next, present, one⟩ := kept.serve_paced forward follows returned among
      obtain ⟨kept, forward⟩ := kept.serve forward follows returned
      obtain ⟨next', present', two⟩ := ih kept forward timely ran present
      have sweeps : input.sweep swept ≤ lastSweep swept (input :: rest) :=
        le_lastSweep timely forward
      have counted : calls (.cyclic timer) (agenda.replies (some t) (input :: rest)).flatten =
          calls (.cyclic timer) fired +
            calls (.cyclic timer) (agenda.replies (some middle) rest).flatten := by
        rw [replies, List.flatten_cons, calls, List.map_append, List.count_append, calls, calls]
      rw [counted]
      exact ⟨next', present', one.trans two sweeps fun short => by omega⟩

end Timers

/-! ## The timers of the source -/

/-- The surroundings of the timers since they were started, which was between `first` and
`last`: the clock goes on, and each pass is over less than 2^31 - 60000 ms after the pass before
it was begun. -/
structure Timeline (start : Cyclic → UInt64) (inputs : List (Input UInt64)) (first last : Nat) :
    Prop where
  between : ∀ timer, first ≤ millis (start timer) ∧ millis (start timer) ≤ last
  short : last + 60000 < first + 2147483648
  timely : Timely 2147423647 first last (inputs.map (Input.read millis))

theorem map_read_sysNow (inputs : List (Input UInt64)) :
    inputs.map (Input.read sysNow) = (inputs.map (Input.read millis)).map Input.wrapped := by
  rw [List.map_map]
  exact List.map_congr_left fun input _ => input.read_sysNow

@[simp] theorem calls_wrapped (handler : Handler) (fired : List (Timeo Nat)) :
    calls handler (fired.map Timeo.wrapped) = calls handler fired := by
  rw [calls, List.map_map, calls]
  rfl

@[simp] theorem handlers_wrapped (t : Timers Nat) : t.wrapped.handlers = t.handlers := by
  rw [handlers, wrapped, List.map_map, handlers]
  rfl

namespace Timeline

variable {start : Cyclic → UInt64} {memory : Cyclic → Bool} {inputs : List (Input UInt64)}
  {first last : Nat} {t t' : Timers UInt32}

theorem forward (timeline : Timeline start inputs first last) : first ≤ last :=
  (timeline.between .arp).1.trans (timeline.between .arp).2

theorem init_wrapped (timeline : Timeline start inputs first last) :
    (boot 0).sysTimeoutsInit (fun timer => sysNow (start timer)) memory =
      ((boot 0).sysTimeoutsInit (fun timer => millis (start timer)) memory).map wrapped := by
  simp only [sysNow_eq_ofNat]
  exact sysTimeoutsInit_wrapped timeline.between timeline.short

/-- The timers of the source behave as timers on a clock that does not wrap. -/
theorem counted (timeline : Timeline start inputs first last)
    (started : (boot 0).sysTimeoutsInit (fun timer => sysNow (start timer)) memory = .ok t) :
    ∃ u : Timers Nat, u.Kept none first last ∧
      (∀ timer, { time := millis (start timer) + timer.intervalMs, handler := .cyclic timer } ∈
        u.nextTimeout) ∧
      agenda.replies (some t) (inputs.map (Input.read sysNow)) =
        (agenda.replies (some u) (inputs.map (Input.read millis))).map (List.map Timeo.wrapped) ∧
      agenda.run (some t) (inputs.map (Input.read sysNow)) =
        (agenda.run (some u) (inputs.map (Input.read millis))).map wrapped := by
  rw [timeline.init_wrapped] at started
  obtain ⟨u, begun, rfl⟩ := map_eq_ok.mp started
  obtain ⟨kept, present⟩ := kept_sysTimeoutsInit timeline.between begun
  obtain ⟨replies, run⟩ := wrapped_run kept timeline.forward timeline.timely
  rw [map_read_sysNow]
  exact ⟨u, kept, present, replies, run⟩

end Timeline

/-- From the start of the machine on, the timers whose times wrap call the handlers that
timers on a clock that does not wrap would call, in the same passes and the same order. -/
theorem sysCheckTimeouts_wrap {start : Cyclic → UInt64} {inputs : List (Input UInt64)}
    {first last : Nat} (timeline : Timeline start inputs first last) (memory : Cyclic → Bool) :
    (boot 0).sysTimeoutsInit (fun timer => sysNow (start timer)) memory =
        ((boot 0).sysTimeoutsInit (fun timer => millis (start timer)) memory).map wrapped ∧
      ∀ t, (boot 0).sysTimeoutsInit (fun timer => millis (start timer)) memory = .ok t →
        agenda.replies (some t.wrapped) (inputs.map (Input.read sysNow)) =
            (agenda.replies (some t) (inputs.map (Input.read millis))).map
              (List.map Timeo.wrapped) ∧
          agenda.run (some t.wrapped) (inputs.map (Input.read sysNow)) =
            (agenda.run (some t) (inputs.map (Input.read millis))).map wrapped := by
  refine ⟨timeline.init_wrapped, fun t started => ?_⟩
  rw [map_read_sysNow]
  exact wrapped_run (kept_sysTimeoutsInit timeline.between started).1 timeline.forward
    timeline.timely

/-- Timers that are started 296 ms before the clock wraps. -/
def wrapStart : Cyclic → UInt64 := fun _ => 4294967000000000

/-- A pass at `now`, whose handlers take no time. -/
def wrapPass (now : UInt64) : Input UInt64 :=
  .check now (List.replicate 10 { needs := [], now, pcbs := false, memory := true })

/-- A connection is made, and there is a pass after the clock has wrapped. -/
def wrapInputs : List (Input UInt64) :=
  [.needed { pcbs := true, now := 4294967100000000, memory := true }, wrapPass 4294967400000000]

theorem wrapInputs_timeline :
    Timeline wrapStart (wrapInputs ++ [wrapPass 4294967800000000]) 4294967000 4294967000 where
  between timer := by cases timer <;> decide
  short := by decide
  timely := by decide

/-- The timers as they are started then. -/
def wrapTimers : Timers UInt32 where
  nextTimeout :=
    [{ time := 204, handler := .cyclic .dhcpFine }, { time := 704, handler := .cyclic .ipReass },
      { time := 704, handler := .cyclic .arp }, { time := 59704, handler := .cyclic .dhcpCoarse }]
  tcpTimerActive := false
  currentTimeoutDueTime := 0

theorem wrapTimers_started :
    (boot 0).sysTimeoutsInit (fun timer => sysNow (wrapStart timer)) (fun _ => true) =
      .ok wrapTimers := by
  decide +kernel

/-- The handler of TCP is called, then that of the fine DHCP timer. -/
theorem sysCheckTimeouts_wrap_connection :
    ∃ t : Timers Nat,
      (boot 0).sysTimeoutsInit (fun timer => millis (wrapStart timer)) (fun _ => true) = .ok t ∧
      agenda.replies (some t.wrapped) ((wrapInputs ++ [wrapPass 4294967800000000]).map
          (Input.read sysNow)) =
        [[], [{ time := 54, handler := .tcp }],
          [{ time := 204, handler := .cyclic .dhcpFine }]] := by
  refine ⟨_, rfl, ?_⟩
  rw [((sysCheckTimeouts_wrap wrapInputs_timeline fun _ => true).2 _ rfl).1]
  decide +kernel

/-- The handler of a cyclic timer is called at most once for each interval since it was
started, and exactly once for each if every pass is over within an interval after the
pass before it was begun. -/
theorem lwipCyclicTimer_pace {start : Cyclic → UInt64} {memory : Cyclic → Bool}
    {inputs : List (Input UInt64)} {first last : Nat} {t t' : Timers UInt32}
    (timeline : Timeline start inputs first last)
    (started : (boot 0).sysTimeoutsInit (fun timer => sysNow (start timer)) memory = .ok t)
    (ran : agenda.run (some t) (inputs.map (Input.read sysNow)) = some t') (timer : Cyclic) :
    let called := calls (.cyclic timer)
      (agenda.replies (some t) (inputs.map (Input.read sysNow))).flatten
    let elapsed := lastSweep first (inputs.map (Input.read millis)) - millis (start timer)
    called ≤ elapsed / timer.intervalMs ∧
      (Timely timer.intervalMs first last (inputs.map (Input.read millis)) →
        called = elapsed / timer.intervalMs) := by
  obtain ⟨u, kept, present, replies, run⟩ := timeline.counted started
  rw [run] at ran
  obtain ⟨u', counted, rfl⟩ := Option.map_eq_some_iff.mp ran
  simp only [replies, ← List.map_flatten, calls_wrapped]
  have positive := intervalMs_pos timer
  constructor
  · obtain ⟨next, _, paced⟩ :=
      kept.run_paced timeline.forward timeline.timely counted (present timer)
    have most := paced.most
    rw [Nat.le_div_iff_mul_le positive, Nat.mul_comm]
    omega
  · intro prompt
    obtain ⟨next, among, paced⟩ := kept.run_paced timeline.forward prompt counted (present timer)
    have most := paced.most
    have after := (kept.run timeline.forward prompt counted).1.after _ among
    rw [paced.exact (Nat.le_refl _)] at after
    refine (Nat.div_eq_of_lt_le ?_ ?_).symm
    · rw [Nat.mul_comm]
      omega
    · rw [Nat.mul_comm, Nat.mul_succ]
      simp only at after
      omega

theorem lwipCyclicTimer_pace_wrap :
    calls (.cyclic .dhcpFine) (agenda.replies (some wrapTimers)
      ((wrapInputs ++ [wrapPass 4294967800000000]).map (Input.read sysNow))).flatten = 1 := by
  obtain ⟨last, ran⟩ := Option.isSome_iff_exists.mp (show (agenda.run (some wrapTimers)
    ((wrapInputs ++ [wrapPass 4294967800000000]).map (Input.read sysNow))).isSome = true by
      decide +kernel)
  have pace := lwipCyclicTimer_pace wrapInputs_timeline wrapTimers_started ran .dhcpFine
  exact (pace.2 (by decide)).trans (by decide)

/-- What a pass of the timers of the source does, whose last reading of the clock before was
at `seen`. -/
structure Complete (t t' : Timers UInt32) (fired : List (Timeo UInt32)) (now seen : Nat) :
    Prop where
  few : fired.length ≤ 10
  expired : ∀ timeout ∈ t.nextTimeout,
    timeLessThan (UInt32.ofNat now) timeout.time = false → timeout ∈ fired
  prompt : ∀ handler ∈ t.handlers, seen + handler.intervalMs ≤ now →
    handler ∈ fired.map Timeo.handler
  later : ∀ timeout ∈ t'.nextTimeout, timeLessThan (UInt32.ofNat now) timeout.time = true
  once : t'.handlers.Nodup
  cyclic : ∀ timer, .cyclic timer ∈ t'.handlers
  tcp : .tcp ∈ t'.handlers ↔ t'.tcpTimerActive = true

theorem Timers.Passed.complete_wrapped {t t' : Timers Nat} {fired : List (Timeo Nat)}
    {swept seen now last : Nat} (passed : t.Passed t' fired swept now last)
    (kept : t.Kept none swept seen) (forward : swept ≤ seen) (later : seen ≤ now)
    (ends : now ≤ last) (soon : last ≤ swept + 2147423647) :
    Complete t.wrapped t'.wrapped (fired.map Timeo.wrapped) now seen := by
  have compared (timeout : Timeo Nat) (inside : InWindow swept timeout.time) :
      timeLessThan (UInt32.ofNat now) timeout.wrapped.time = decide (now < timeout.time) :=
    timeLessThan_ofNat ⟨forward.trans later, by omega⟩ inside
  have before := kept.comparable (Nat.le_refl swept) (by omega)
  have after := passed.kept.comparable (forward.trans later) (by omega)
  refine ⟨?_, ?_, fun handler among late => ?_, ?_, ?_, fun timer => ?_, ?_⟩
  · rw [List.length_map]
    exact passed.bounded.trans kept.pending_le
  · refine List.forall_mem_map.mpr fun timeout among due => ?_
    rw [compared timeout (before timeout among), decide_eq_false_iff_not, Nat.not_lt] at due
    exact List.mem_map_of_mem (passed.complete timeout among due)
  · rw [handlers_wrapped] at among
    obtain ⟨timeout, listed, rfl⟩ := List.mem_map.mp among
    have due : timeout.time ≤ now := (kept.soon timeout listed).trans late
    have called := passed.complete timeout listed due
    rw [List.map_map]
    exact List.mem_map.mpr ⟨timeout, called, rfl⟩
  · refine List.forall_mem_map.mpr fun timeout among => ?_
    have inside : InWindow swept timeout.time := after timeout among
    rw [compared timeout inside, decide_eq_true (passed.kept.after timeout among)]
  · rw [handlers_wrapped]
    exact passed.kept.once
  · rw [handlers_wrapped, passed.kept.cyclic]
    simp
  · rw [handlers_wrapped, passed.kept.tcp]
    simp [wrapped]

theorem granted_read {handlings : List (Handling UInt64)}
    (granted : ∀ handling ∈ handlings, handling.Granted) :
    ∀ handling ∈ handlings.map (Handling.read millis), handling.Granted := by
  refine List.forall_mem_map.mpr fun handling among => ?_
  obtain ⟨memory, needs⟩ := granted handling among
  exact ⟨memory, List.forall_mem_map.mpr needs⟩

/-- A pass always returns, at the latest after ten calls of a handler. -/
theorem sysCheckTimeouts_complete {start : Cyclic → UInt64} {memory : Cyclic → Bool}
    {inputs : List (Input UInt64)} {now : UInt64} {handlings : List (Handling UInt64)}
    {first last : Nat} {t t' : Timers UInt32}
    (timeline : Timeline start (inputs ++ [.check now handlings]) first last)
    (started : (boot 0).sysTimeoutsInit (fun timer => sysNow (start timer)) memory = .ok t)
    (ran : agenda.run (some t) (inputs.map (Input.read sysNow)) = some t')
    (granted : ∀ handling ∈ handlings, handling.Granted) (enough : 10 ≤ handlings.length) :
    ∃ fired t'', sysCheckTimeouts (sysNow now) (handlings.map (Handling.read sysNow)) t' =
        .ok (fired, t'') ∧
      Complete t' t'' fired (millis now) (lastReading last (inputs.map (Input.read millis))) := by
  have timely := timeline.timely
  rw [List.map_append, List.map_singleton, timely_append] at timely
  obtain ⟨timely, follows, soon, _⟩ := timely
  have ⟨later, consecutive⟩ := follows
  have before : Timeline start inputs first last := { timeline with timely }
  obtain ⟨u, kept, _, _, run⟩ := before.counted started
  rw [run] at ran
  obtain ⟨u', counted, rfl⟩ := Option.map_eq_some_iff.mp ran
  obtain ⟨kept, forward⟩ := kept.run timeline.forward timely counted
  obtain ⟨⟨fired, u''⟩, returned⟩ := (kept.mono later).check_returns (Nat.le_refl _)
    (forward.trans later) consecutive (granted_read granted)
    (kept.pending_le.trans (by rwa [List.length_map]))
  have passed := (kept.mono later).check (Nat.le_refl _) (forward.trans later) consecutive returned
  have served := kept.serve_wrapped forward follows soon
  rw [← Input.read_sysNow] at served
  refine ⟨fired.map Timeo.wrapped, u''.wrapped, ?_,
    passed.complete_wrapped kept forward later (le_finished consecutive) soon⟩
  exact served.trans (congrArg (Except.map _) returned)

theorem sysCheckTimeouts_complete_wrap :
    ∃ t fired t', agenda.run (some wrapTimers) (wrapInputs.map (Input.read sysNow)) = some t ∧
      Complete t t' fired 4294967800 4294967400 := by
  obtain ⟨t, ran⟩ := Option.isSome_iff_exists.mp (show (agenda.run (some wrapTimers)
    (wrapInputs.map (Input.read sysNow))).isSome = true by decide +kernel)
  obtain ⟨fired, t', _, complete⟩ := sysCheckTimeouts_complete wrapInputs_timeline
    wrapTimers_started ran (by decide) (by decide)
  exact ⟨t, fired, t', ran, complete⟩

end AppPortKit.Poll
