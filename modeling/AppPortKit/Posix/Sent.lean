import AppPortKit.Net.Sent
import AppPortKit.Posix.Gather

/-!
# Bytes sent

What a `send`, and a gathered write to a socket, return is what they enqueued: a first part
of the bytes they were given, in order and once.  Passes that enqueue nothing and callbacks
made in between do not count.
-/

namespace AppPortKit.Posix

open Fallible Libc

/-- Just these bytes were enqueued since, on the control block of a socket. -/
structure Enqueues (s s' : State) (k : Fin 16) (bytes : List UInt8) : Prop where
  live : bytes ≠ [] → (s.shim.net.socks k).pcb ≠ none
  enqueued : ∀ p, s'.enqueued p =
    s.enqueued p ++ if (s.shim.net.socks k).pcb = some p then bytes else []

/-- A `send` made in a state has returned. -/
structure Sends (s s' : State) (k : Fin 16) (data : List UInt8) (ret : Int) : Prop where
  idle : s'.shim.waiting = none
  follows : (s.shim.net.socks k).Follows (s'.shim.net.socks k)
  bound : ret ≤ data.length
  enqueues : Enqueues s s' k (data.take ret.toNat)

/-- A `send` made in a state polls. -/
structure Polls (s s' : State) (k : Fin 16) (data : List UInt8) (start : UInt32) : Prop where
  waiting : s'.shim.waiting = some (.send k data, start)
  follows : (s.shim.net.socks k).Follows (s'.shim.net.socks k)
  enqueued : s'.enqueued = s.enqueued

/-- The time of a call runs out before what is known of its surroundings ends. -/
def Turn.Elapses (turn : Turn) : Prop := ∃ moment ∈ turn.polls, moment.now - turn.now ≥ 30000

/-- Not a call. -/
def Internal : Net.Input → Prop
  | .call _ _ _ => False
  | .lwip _ | .tick _ _ => True

section Enqueued

variable {t t' : Net.Tcp} {p q : Nat} {b : Net.Pcb}

theorem appended_of_quiet (quiet : t.Quiet t') (p : Nat) : appended t t' p = [] := by
  rw [appended]
  split
  next b b' before after =>
    rcases quiet p b' after with new | ⟨c, stored, same⟩
    · rw [new, List.drop_nil]
    · obtain rfl := Option.some.inj (before.symm.trans stored)
      rw [same, List.drop_length]
  · rfl

theorem appended_set (stored : t.pcbs p = some b) (bytes : List UInt8) (q : Nat) :
    appended t (t.set p { b with sent := b.sent ++ bytes }) q = if p = q then bytes else [] := by
  by_cases here : q = p
  · subst here
    rw [appended, stored, Net.Tcp.pcbs_set, if_pos rfl]
    exact List.drop_left
  · have other : (t.set p { b with sent := b.sent ++ bytes }).pcbs q = t.pcbs q :=
      Function.update_of_ne here _ _
    rw [if_neg (Ne.symm here), appended, other]
    split
    next b b' before after =>
      obtain rfl := Option.some.inj (before.symm.trans after)
      exact List.drop_length
    · rfl

end Enqueued

namespace Enqueues

variable {s s' s'' : State} {k : Fin 16} {bytes more : List UInt8}

theorem of_same (same : s'.enqueued = s.enqueued) : Enqueues s s' k [] :=
  ⟨fun nonempty => absurd rfl nonempty, fun p => by rw [same, ite_self, List.append_nil]⟩

theorem same (nothing : Enqueues s s' k []) : s'.enqueued = s.enqueued := by
  funext p
  rw [nothing.enqueued, ite_self, List.append_nil]

theorem trans (first : Enqueues s s' k bytes) (second : Enqueues s' s'' k more)
    (follows : (s.shim.net.socks k).Follows (s'.shim.net.socks k)) :
    Enqueues s s'' k (bytes ++ more) := by
  by_cases nothing : more = []
  · subst nothing
    rw [List.append_nil]
    exact ⟨first.live, fun p => by rw [second.same, first.enqueued]⟩
  · have live := second.live nothing
    have same : (s'.shim.net.socks k).pcb = (s.shim.net.socks k).pcb :=
      follows.pcb.resolve_right live
    refine ⟨fun _ => same ▸ live, fun p => ?_⟩
    rw [second.enqueued, first.enqueued, same, List.append_assoc]
    split
    · rfl
    · rfl

/-- A first part of some bytes was enqueued. -/
theorem of_isPrefix {whole : List UInt8} (enqueues : Enqueues s s' k bytes)
    (first : bytes <+: whole) :
    (bytes.length : Int) ≤ whole.length ∧
      Enqueues s s' k (whole.take (bytes.length : Int).toNat) := by
  refine ⟨Int.ofNat_le.mpr first.length_le, ?_⟩
  rw [Int.toNat_natCast, ← List.prefix_iff_eq_take.mp first]
  exact enqueues

/-- The bytes that were enqueued are determined, if there are any. -/
theorem unique (left : Enqueues s s' k bytes) (right : Enqueues s s' k more)
    (nonempty : more ≠ []) : bytes = more := by
  obtain ⟨p, pcb⟩ := Option.ne_none_iff_exists'.mp (right.live nonempty)
  have same := (left.enqueued p).symm.trans (right.enqueued p)
  rw [if_pos pcb, if_pos pcb] at same
  exact List.append_cancel_left same

end Enqueues

/-! ## One step -/

section Steps

variable {s t t' : State} {k : Fin 16} {data : List UInt8} {start : UInt32}
  {reply : Option Net.Reply}

theorem advance_eq_ok {input : Net.Input} (advanced : t.advance input = .ok (reply, t')) :
    ∃ shim, t.shim.step input = .ok (reply, shim) ∧ t' = { t with
      shim, enqueued := fun p => t.enqueued p ++ appended t.shim.net.tcp shim.net.tcp p } := by
  obtain ⟨⟨answer, shim⟩, stepped, rest⟩ := bind_eq_ok.mp advanced
  obtain ⟨rfl, rfl⟩ := Prod.mk.inj (Except.ok.inj rest)
  exact ⟨shim, stepped, rfl⟩

theorem Polls.lwip (polls : Polls s t k data start) {event : Net.Event}
    (advanced : t.advance (.lwip event) = .ok (reply, t')) :
    reply = none ∧ Polls s t' k data start := by
  obtain ⟨shim, stepped, rfl⟩ := advance_eq_ok advanced
  obtain ⟨net, happened, rest⟩ := map_eq_ok.mp stepped
  obtain ⟨rfl, rfl⟩ := Prod.mk.inj rest
  have quiet := Net.State.quiet_dispatch happened
  refine ⟨rfl, polls.waiting,
    polls.follows.trans (Net.State.follows_dispatch polls.follows.used happened), ?_⟩
  funext p
  change t.enqueued p ++ appended _ _ p = s.enqueued p
  rw [appended_of_quiet quiet, List.append_nil, polls.enqueued]

/-- A pass of a `send`, seen from the state the call was made in. -/
theorem settled_outcome {n : Net.State} {progress : Net.Progress} {shim : Net.Shim}
    (outcome : t.shim.net.SendOutcome k data (progress, n))
    (follows : (s.shim.net.socks k).Follows (t.shim.net.socks k))
    (enqueued : t.enqueued = s.enqueued)
    (settled : Net.Shim.settle start (progress, n) = (reply, shim))
    (after : t' = { t with
      shim, enqueued := fun p => t.enqueued p ++ appended t.shim.net.tcp shim.net.tcp p }) :
    reply = none ∧ Polls s t' k data start ∨
      ∃ ret, reply = some (.code ret) ∧ Sends s t' k data ret := by
  have still : (fun p => t.enqueued p ++ appended t.shim.net.tcp t.shim.net.tcp p) =
      s.enqueued := by
    funext p
    rw [appended_of_quiet (.refl _), List.append_nil, enqueued]
  subst after
  cases outcome with
  | polls =>
      obtain ⟨rfl, rfl⟩ := Prod.mk.inj settled
      exact .inl ⟨rfl, rfl, follows, still⟩
  | @fails ret failed =>
      obtain ⟨rfl, rfl⟩ := Prod.mk.inj settled
      refine .inr ⟨ret, rfl, rfl, follows, by omega, ?_⟩
      rw [Int.toNat_of_nonpos failed.le, List.take_zero]
      exact .of_same still
  | @sends p count b pcb stored positive inside =>
      obtain ⟨rfl, rfl⟩ := Prod.mk.inj settled
      refine .inr ⟨count, rfl, rfl, follows, by omega, ?_⟩
      have before : Enqueues s t k [] := .of_same enqueued
      refine before.trans ⟨fun _ => by rw [pcb]; nofun, fun q => ?_⟩ follows
      change t.enqueued q ++ appended _ _ q = _
      rw [appended_set stored, pcb]
      simp only [Option.some.injEq]
      rfl

theorem Polls.tick (polls : Polls s t k data start) (filled : data ≠ []) {now : UInt32}
    {answers : Net.Answers} (advanced : t.advance (.tick now answers) = .ok (reply, t')) :
    reply = none ∧ Polls s t' k data start ∧ ¬now - start ≥ 30000 ∨
      ∃ ret, reply = some (.code ret) ∧ Sends s t' k data ret := by
  obtain ⟨shim, stepped, after⟩ := advance_eq_ok advanced
  simp only [Net.Shim.step, polls.waiting] at stepped
  split at stepped
  next late =>
    obtain ⟨⟨progress, n⟩, served, settled⟩ := map_eq_ok.mp stepped
    obtain ⟨rfl, rfl⟩ := Prod.mk.inj (Except.ok.inj served)
    have outcome : t.shim.net.SendOutcome k data
        (.returned (.code (-ETIMEDOUT)), t.shim.net) := .fails (Int.neg_neg_of_pos (by decide))
    rcases settled_outcome outcome polls.follows polls.enqueued settled after with
      ⟨rfl, _⟩ | returned
    · exact absurd (congrArg Prod.fst settled) (by simp [Net.Shim.settle])
    · exact .inr returned
  next early =>
    obtain ⟨⟨progress, n⟩, served, settled⟩ := map_eq_ok.mp stepped
    rcases settled_outcome (Net.State.sendStep_outcome filled served) polls.follows polls.enqueued
      settled after with ⟨unanswered, still⟩ | returned
    · exact .inl ⟨unanswered, still, early⟩
    · exact .inr returned

theorem Polls.step (polls : Polls s t k data start) (filled : data ≠ []) {input : Net.Input}
    (internal : Internal input) (advanced : t.advance input = .ok (reply, t')) :
    reply = none ∧ Polls s t' k data start ∧
        (∀ now answers, input = .tick now answers → ¬now - start ≥ 30000) ∨
      ∃ ret, reply = some (.code ret) ∧ Sends s t' k data ret := by
  cases input with
  | call => exact internal.elim
  | lwip event =>
      obtain ⟨unanswered, still⟩ := polls.lwip advanced
      refine .inl ⟨unanswered, still, fun now answers same => ?_⟩
      cases same
  | tick now answers =>
      rcases polls.tick filled advanced with ⟨unanswered, still, early⟩ | returned
      · refine .inl ⟨unanswered, still, fun now' answers' same => ?_⟩
        obtain ⟨rfl, -⟩ := Net.Input.tick.inj same
        exact early
      · exact .inr returned

end Steps

/-! ## A whole call -/

section Calls

variable {s t t' : State} {k : Fin 16} {data : List UInt8} {start : UInt32}
  {reply : Option Net.Reply}

theorem Polls.await (polls : Polls s t k data start) (filled : data ≠ [])
    {inputs : List Net.Input} (internal : ∀ input ∈ inputs, Internal input)
    (awaited : State.await inputs t = .ok (reply, t')) :
    reply = none ∧ t'.enqueued = s.enqueued ∧
        (∀ now answers, .tick now answers ∈ inputs → ¬now - start ≥ 30000) ∨
      ∃ ret, reply = some (.code ret) ∧ Sends s t' k data ret := by
  induction inputs generalizing t with
  | nil =>
      obtain ⟨rfl, rfl⟩ := Prod.mk.inj (Except.ok.inj awaited)
      exact .inl ⟨rfl, polls.enqueued, fun _ _ inside => absurd inside List.not_mem_nil⟩
  | cons input rest ih =>
      obtain ⟨⟨answer, next⟩, advanced, awaited⟩ := bind_eq_ok.mp awaited
      rcases polls.step filled (internal input (List.mem_cons_self ..)) advanced with
        ⟨rfl, still, early⟩ | ⟨ret, rfl, sends⟩
      · rcases ih still (fun other inside => internal other (List.mem_cons_of_mem _ inside))
          awaited with ⟨unanswered, same, later⟩ | returned
        · refine .inl ⟨unanswered, same, fun now answers inside => ?_⟩
          rcases List.mem_cons.mp inside with here | there
          · exact early now answers here.symm
          · exact later now answers there
        · exact .inr returned
      · obtain ⟨rfl, rfl⟩ := Prod.mk.inj (Except.ok.inj awaited)
        exact .inr ⟨ret, rfl, sends⟩

theorem internal_inputs (polls : List Moment) :
    ∀ input ∈ polls.flatMap Moment.inputs, Internal input := by
  intro input inside
  obtain ⟨moment, -, among⟩ := List.mem_flatMap.mp inside
  rcases List.mem_append.mp among with event | tick
  · obtain ⟨event, -, rfl⟩ := List.mem_map.mp event
    trivial
  · obtain rfl := List.mem_singleton.mp tick
    trivial

/-- The first pass of a `send`. -/
theorem advance_send {fd : Int} (slot : Net.State.sockOfFd fd = .ok k)
    (used : (s.shim.net.socks k).state ≠ .free) (idle : s.shim.waiting = none)
    {answers : Net.Answers}
    (advanced : s.advance (.call (.send fd data) start answers) = .ok (reply, t')) :
    reply = none ∧ data ≠ [] ∧ Polls s t' k data start ∨
      ∃ ret, reply = some (.code ret) ∧ Sends s t' k data ret := by
  obtain ⟨shim, stepped, after⟩ := advance_eq_ok advanced
  simp only [Net.Shim.step, idle] at stepped
  obtain ⟨⟨progress, n⟩, entered, settled⟩ := map_eq_ok.mp stepped
  simp only [Net.State.enter, slot, bind, Except.bind] at entered
  split at entered
  next empty =>
    obtain ⟨rfl, rfl⟩ := Prod.mk.inj (Except.ok.inj entered)
    obtain ⟨rfl, rfl⟩ := Prod.mk.inj settled
    subst after empty
    refine .inr ⟨0, rfl, rfl, .refl used, Int.le_refl 0, .of_same (funext fun p => ?_)⟩
    change s.enqueued p ++ appended _ _ p = s.enqueued p
    rw [appended_of_quiet (.refl _), List.append_nil]
  next filled =>
    rcases settled_outcome (Net.State.sendStep_outcome filled entered) (.refl used) rfl settled
      after with ⟨unanswered, polls⟩ | returned
    · exact .inl ⟨unanswered, filled, polls⟩
    · exact .inr returned

/-- A `send` on a socket in use has enqueued what it returns; while it polls, nothing. -/
theorem perform_send {fd : Int} (slot : Net.State.sockOfFd fd = .ok k)
    (used : (s.shim.net.socks k).state ≠ .free) (idle : s.shim.waiting = none) {turn : Turn}
    (performed : s.perform (.send fd data) turn = .ok (reply, t')) :
    reply = none ∧ t'.enqueued = s.enqueued ∧ ¬turn.Elapses ∨
      ∃ ret, reply = some (.code ret) ∧ Sends s t' k data ret := by
  obtain ⟨⟨answer, next⟩, advanced, rest⟩ := bind_eq_ok.mp performed
  rcases advance_send slot used idle advanced with ⟨rfl, filled, polls⟩ | ⟨ret, rfl, sends⟩
  · rcases polls.await filled (internal_inputs turn.polls) rest with
      ⟨unanswered, same, early⟩ | returned
    · refine .inl ⟨unanswered, same, fun ⟨moment, inside, late⟩ => ?_⟩
      refine early moment.now moment.answers (List.mem_flatMap.mpr ⟨moment, inside, ?_⟩) late
      exact List.mem_append_right _ (List.mem_singleton_self _)
    · exact .inr returned
  · obtain ⟨rfl, rfl⟩ := Prod.mk.inj (Except.ok.inj rest)
    exact .inr ⟨ret, rfl, sends⟩

end Calls

/-! ## Gathered writes -/

section Vectors

variable {s₀ s s' : State} {fd : Int} {k : Fin 16} {data : List UInt8}
  {part : Option (Vectored.Transfer UInt8)}

theorem sysWrite_socket (slot : Net.State.sockOfFd fd = .ok k)
    (used : (s.shim.net.socks k).state ≠ .free) (b : Buffer) (turn : Turn) :
    s.sysWrite fd b turn = s.socketCall (.send fd b.bytes) turn := by
  have noFile : Bmfs.openIndex s.files fd = none := by
    apply Bmfs.openIndex_of_ge
    have descriptor := Net.State.sockOfFd_eq_ok.mp slot
    omega
  have isSocket : s.shim.net.isFd fd = true := by
    rw [Net.State.isFd, slot]
    exact decide_eq_true used
  simp only [State.sysWrite, noFile, isSocket, if_true]

/-- The loop on a socket, after some bytes were enqueued. -/
theorem loop_sends (slot : Net.State.sockOfFd fd = .ok k) {iov : List (Buffer × Turn)}
    {done : List UInt8} (sofar : Enqueues s₀ s k done)
    (follows : (s₀.shim.net.socks k).Follows (s.shim.net.socks k)) (idle : s.shim.waiting = none)
    (looped : Vectored.loop (fun s (element : Buffer × Turn) => s.sysWrite fd element.1 element.2)
      (fun element => element.1.len.toNat) { ret := done.length, data := [] } iov s =
        .ok (part, s')) :
    part = none ∧ (∃ element ∈ iov, ¬element.2.Elapses) ∨
      ∃ result, part = some result ∧ result.ret ≤ (done ++ gathered iov).length ∧
        Enqueues s₀ s' k ((done ++ gathered iov).take result.ret.toNat) := by
  induction iov generalizing s done with
  | nil =>
      obtain ⟨rfl, rfl⟩ := Prod.mk.inj (Except.ok.inj looped)
      refine .inr ⟨_, rfl, ?_, ?_⟩
      · rw [gathered_nil, List.append_nil]
      · rw [gathered_nil, List.append_nil, Int.toNat_natCast, List.take_length]
        exact sofar
  | cons element rest ih =>
      obtain ⟨b, turn⟩ := element
      obtain ⟨⟨answer, next⟩, served, looped⟩ := bind_eq_ok.mp looped
      change s.sysWrite fd b turn = _ at served
      rw [sysWrite_socket slot follows.used] at served
      obtain ⟨⟨reply, after⟩, performed, served⟩ := bind_eq_ok.mp served
      obtain ⟨rfl, rfl⟩ := Prod.mk.inj (Except.ok.inj served)
      rcases perform_send slot follows.used idle performed with
        ⟨rfl, _, early⟩ | ⟨ret, rfl, sends⟩
      · obtain ⟨rfl, rfl⟩ := Prod.mk.inj (Except.ok.inj looped)
        exact .inl ⟨rfl, _, List.mem_cons_self .., early⟩
      · have both := sofar.trans sends.enqueues follows
        have bound := sends.bound
        rw [Buffer.length_bytes] at bound
        simp only [Option.map_some, Net.Reply.code] at looped
        rw [gathered_cons]
        split at looped
        next failed =>
          obtain ⟨rfl, rfl⟩ := Prod.mk.inj (Except.ok.inj looped)
          rw [Int.toNat_of_nonpos failed.le, List.take_zero, List.append_nil] at both
          refine .inr ⟨_, rfl, ?_⟩
          by_cases nothing : done = []
          · subst nothing
            change ret ≤ _ ∧ Enqueues s₀ after k (List.take ret.toNat _)
            rw [Int.toNat_of_nonpos failed.le, List.take_zero]
            exact ⟨by omega, both⟩
          · have counted : (Vectored.Transfer.fail { ret := (done.length : Int), data := [] }
                ({ ret, data := [] } : Vectored.Transfer UInt8)).ret = done.length :=
              if_pos (mt Int.natCast_eq_zero.mp (mt List.length_eq_zero_iff.mp nothing))
            rw [counted]
            exact both.of_isPrefix (List.prefix_append _ _)
        next nonneg =>
          obtain ⟨count, rfl⟩ := Int.eq_ofNat_of_zero_le (Int.not_lt.mp nonneg)
          split at looped
          next short =>
            obtain ⟨rfl, rfl⟩ := Prod.mk.inj (Except.ok.inj looped)
            refine .inr ⟨_, rfl, ?_⟩
            have counted : (Vectored.Transfer.add { ret := (done.length : Int), data := [] }
                ({ ret := count, data := [] } : Vectored.Transfer UInt8)).ret =
                (done ++ b.bytes.take count).length := by
              rw [List.length_append, List.length_take, Buffer.length_bytes,
                Nat.min_eq_left (by omega)]
              exact (Int.natCast_add _ _).symm
            rw [counted]
            refine both.of_isPrefix ?_
            rw [Int.toNat_natCast, ← List.append_assoc]
            exact (List.prefix_append_right_inj done).mpr (List.take_prefix count b.bytes) |>.trans
              (List.prefix_append _ _)
          next full =>
            have whole : count = b.bytes.length := by
              rw [Buffer.length_bytes]
              simp only [Int.toNat_natCast, Nat.not_lt] at full
              omega
            rw [Int.toNat_natCast, whole, List.take_length] at both
            have total : Vectored.Transfer.add { ret := (done.length : Int), data := [] }
                ({ ret := count, data := [] } : Vectored.Transfer UInt8) =
                { ret := (done ++ b.bytes).length, data := [] } := by
              rw [List.length_append, ← whole, Int.natCast_add]
              rfl
            rw [total] at looped
            rcases ih both (follows.trans sends.follows) sends.idle looped with
              ⟨unanswered, element, inside, early⟩ | returned
            · exact .inl ⟨unanswered, element, List.mem_cons_of_mem _ inside, early⟩
            · rw [List.append_assoc] at returned
              exact .inr returned

end Vectors

/-! ## Calls return -/

/-- A descriptor of a socket layer in order. -/
structure Sound (s : State) (k : Fin 16) : Prop where
  healthy : s.shim.Healthy
  held : (s.shim.net.history k).held = true

section Returns

variable {s t : State} {fd : Int} {k : Fin 16} {data : List UInt8} {start : UInt32}

theorem Sound.advance (sound : Sound s k) {input : Net.Input} (disciplined : s.shim.HeldOnly input)
    (keeps : ¬input.Closes k) (noFault : ∀ fault, ¬s.shim.Breaks input fault) :
    ∃ reply s', s.advance input = .ok (reply, s') ∧ Sound s' k := by
  obtain ⟨⟨reply, shim⟩, stepped⟩ := Net.Shim.step_ok sound.healthy disciplined noFault
  refine ⟨reply, _, bind_eq_ok.mpr ⟨_, stepped, rfl⟩, sound.healthy.step disciplined stepped, ?_⟩
  exact sound.healthy.orderly.queued.held_step (Net.Effect.of_step stepped) sound.held keeps

theorem Polls.advance_ok (polls : Polls s t k data start) (sound : Sound t k)
    (attached : (s.shim.net.socks k).Attached) {input : Net.Input} (internal : Internal input) :
    ∃ reply t', t.advance input = .ok (reply, t') ∧ Sound t' k := by
  cases input with
  | call => exact internal.elim
  | lwip event => exact sound.advance trivial id (Net.Shim.not_breaks_lwip event)
  | tick now answers =>
      exact sound.advance trivial id (Net.Shim.not_breaks_tick sound.healthy
        (polls.follows.attached attached) polls.waiting now answers)

theorem Polls.await_ok (polls : Polls s t k data start) (sound : Sound t k)
    (attached : (s.shim.net.socks k).Attached) (filled : data ≠ []) {inputs : List Net.Input}
    (internal : ∀ input ∈ inputs, Internal input) :
    ∃ reply t', State.await inputs t = .ok (reply, t') ∧ Sound t' k := by
  induction inputs generalizing t with
  | nil => exact ⟨none, t, rfl, sound⟩
  | cons input rest ih =>
      have here := internal input (List.mem_cons_self ..)
      obtain ⟨reply, next, advanced, after⟩ := polls.advance_ok sound attached here
      rcases polls.step filled here advanced with ⟨rfl, still, _⟩ | ⟨ret, rfl, _⟩
      · obtain ⟨reply, t', awaited, ends⟩ := ih still after fun other inside =>
          internal other (List.mem_cons_of_mem _ inside)
        exact ⟨reply, t', bind_eq_ok.mpr ⟨_, advanced, awaited⟩, ends⟩
      · exact ⟨_, next, bind_eq_ok.mpr ⟨_, advanced, rfl⟩, after⟩

/-- A `send` on a socket that is or was connected comes to no fault. -/
theorem perform_send_ok (slot : Net.State.sockOfFd fd = .ok k) (sound : Sound s k)
    (attached : (s.shim.net.socks k).Attached) (idle : s.shim.waiting = none)
    (data : List UInt8) (turn : Turn) :
    ∃ reply s', s.perform (.send fd data) turn = .ok (reply, s') ∧ Sound s' k := by
  have disciplined : s.shim.HeldOnly (.call (.send fd data) turn.now turn.answers) :=
    ⟨k, Net.State.sockOfFd_eq_ok.mp slot, sound.held⟩
  obtain ⟨reply, next, advanced, after⟩ := sound.advance disciplined id
    (Net.Shim.not_breaks_send sound.healthy attached slot data turn.now turn.answers)
  rcases advance_send slot attached.1 idle advanced with ⟨rfl, filled, polls⟩ | ⟨ret, rfl, _⟩
  · obtain ⟨reply, s', awaited, ends⟩ :=
      polls.await_ok after attached filled (internal_inputs turn.polls)
    exact ⟨reply, s', bind_eq_ok.mpr ⟨_, advanced, awaited⟩, ends⟩
  · exact ⟨_, next, bind_eq_ok.mpr ⟨_, advanced, rfl⟩, after⟩

theorem loop_ok (slot : Net.State.sockOfFd fd = .ok k) (iov : List (Buffer × Turn))
    (sound : Sound s k) (attached : (s.shim.net.socks k).Attached) (idle : s.shim.waiting = none)
    (total : Vectored.Transfer UInt8) :
    ∃ part s', Vectored.loop (fun s (element : Buffer × Turn) => s.sysWrite fd element.1 element.2)
      (fun element => element.1.len.toNat) total iov s = .ok (part, s') := by
  induction iov generalizing s total with
  | nil => exact ⟨_, _, rfl⟩
  | cons element rest ih =>
      obtain ⟨b, turn⟩ := element
      obtain ⟨reply, next, performed, after⟩ :=
        perform_send_ok slot sound attached idle b.bytes turn
      have served : s.sysWrite fd b turn =
          .ok (reply.map fun reply => { ret := reply.ret, data := reply.bytes }, next) := by
        rw [sysWrite_socket slot attached.1]
        exact bind_eq_ok.mpr ⟨_, performed, rfl⟩
      rcases perform_send slot attached.1 idle performed with ⟨rfl, _, _⟩ | ⟨ret, rfl, sends⟩
      · exact ⟨none, next, bind_eq_ok.mpr ⟨_, served, rfl⟩⟩
      · by_cases failed : ret < 0
        · exact ⟨_, next, Vectored.loop_of_failed served failed⟩
        · have nonneg : 0 ≤ ret := Int.not_lt.mp failed
          by_cases short : ret.toNat < b.len.toNat
          · exact ⟨_, next, Vectored.loop_of_short served nonneg short⟩
          · obtain ⟨part, s', looped⟩ := ih after (sends.follows.attached attached) sends.idle
              (total.add { ret, data := [] })
            exact ⟨part, s',
              (Vectored.loop_of_full served nonneg (Nat.not_lt.mp short)).trans looped⟩

end Returns

/-- What a call returns is the number of bytes it enqueued: the first of those it was
given. -/
structure Accounted (s s' : State) (k : Fin 16) (bytes : List UInt8) (ret : Int) : Prop where
  bound : ret ≤ bytes.length
  sent : ∀ count : Nat, 0 < count → count ≤ bytes.length →
    (ret = count ↔ Enqueues s s' k (bytes.take count))
  unsent : ret ≤ 0 → s'.enqueued = s.enqueued

theorem accounted_of_enqueues {s s' : State} {k : Fin 16} {bytes : List UInt8} {ret : Int}
    (bound : ret ≤ bytes.length) (enqueues : Enqueues s s' k (bytes.take ret.toNat)) :
    Accounted s s' k bytes ret := by
  refine ⟨bound, fun count positive inside => ⟨fun same => ?_, fun counted => ?_⟩, fun failed => ?_⟩
  · rw [same, Int.toNat_natCast] at enqueues
    exact enqueues
  · have nonempty : bytes.take count ≠ [] := by
      rw [Ne, List.take_eq_nil_iff, not_or]
      exact ⟨positive.ne', List.ne_nil_of_length_pos (positive.trans_le inside)⟩
    have lengths := congrArg List.length (enqueues.unique counted nonempty)
    rw [List.length_take, List.length_take] at lengths
    omega
  · rw [Int.toNat_of_nonpos failed, List.take_zero] at enqueues
    exact enqueues.same

/-- A `send` on a socket in use, and a gathered write to it, return as many bytes as they
enqueued, each once and in order.  On a socket that is or was connected they return once
their time is up. -/
theorem sent_bytes_queued_once (s : State) (fd : Int) (k : Fin 16)
    (slot : Net.State.sockOfFd fd = .ok k) (used : (s.shim.net.socks k).state ≠ .free)
    (idle : s.shim.waiting = none) :
    (∀ data turn reply s', s.perform (.send fd data) turn = .ok (some reply, s') →
      Accounted s s' k data reply.ret) ∧
    (∀ iov part s', s.sysWritev fd iov = .ok (some part, s') →
      Accounted s s' k (gathered iov) part.ret) ∧
    (Sound s k → (s.shim.net.socks k).Attached →
      (∀ data turn, turn.Elapses →
        ∃ reply s', s.perform (.send fd data) turn = .ok (some reply, s')) ∧
      ∀ iov : List (Buffer × Turn), (∀ element ∈ iov, element.2.Elapses) →
        ∃ part s', s.sysWritev fd iov = .ok (some part, s')) := by
  have nothing : Enqueues s s k [] := .of_same rfl
  refine ⟨fun data turn reply s' performed => ?_, fun iov part s' looped => ?_,
    fun sound attached => ⟨fun data turn elapses => ?_, fun iov elapses => ?_⟩⟩
  · rcases perform_send slot used idle performed with ⟨unanswered, _⟩ | ⟨ret, same, sends⟩
    · exact absurd unanswered nofun
    · obtain rfl := Option.some.inj same
      exact accounted_of_enqueues sends.bound sends.enqueues
  · rcases loop_sends slot nothing (.refl used) idle looped with
      ⟨unanswered, _⟩ | ⟨result, same, rest⟩
    · exact absurd unanswered nofun
    · obtain rfl := Option.some.inj same
      exact accounted_of_enqueues rest.1 rest.2
  · obtain ⟨reply, s', performed, _⟩ := perform_send_ok slot sound attached idle data turn
    rcases perform_send slot used idle performed with ⟨rfl, _, early⟩ | ⟨ret, rfl, _⟩
    · exact absurd elapses early
    · exact ⟨_, s', performed⟩
  · obtain ⟨part, s', looped⟩ := loop_ok slot iov sound attached idle .zero
    rcases loop_sends slot nothing (.refl used) idle looped with
      ⟨rfl, element, inside, early⟩ | ⟨result, rfl, _⟩
    · exact absurd (elapses element inside) early
    · exact ⟨result, s', looped⟩

/-- A connection is made. -/
def connects : List Net.Input :=
  [.call (.socket 2 1) 0 .granted, .call (.connect 100 16 0x0A000202 80) 0 .granted,
    .lwip (.connected 0), .tick 1 .granted]

/-- The socket layer after a run. -/
def shimAfter (inputs : List Net.Input) : Net.Shim :=
  (Net.shim.run (.ok .boot) inputs).toOption.getD .boot

theorem healthy_shimAfter {inputs : List Net.Input}
    (disciplined : Net.Shim.Guarded Net.Shim.HeldOnly inputs) : (shimAfter inputs).Healthy := by
  rw [shimAfter]
  cases ran : Net.shim.run (.ok .boot) inputs with
  | error fault => exact .boot
  | ok s => exact Net.Shim.Healthy.run disciplined s ran

/-- Half a minute in which lwIP has no room, and then it takes what it is given. -/
def slowTurn : Turn :=
  { now := 1, answers := { Net.Answers.granted with sndbuf := 0 }
    polls := [⟨[], 2, .granted⟩, ⟨[], 30001, .granted⟩] }

theorem slowConnection_accounted :
    ∃ part s', { newFile with shim := shimAfter connects }.sysWritev 100
        [(oneByte.1, slowTurn), (noByte.1, slowTurn), (oneByte.1, slowTurn)] =
        .ok (some part, s') ∧
      Accounted { newFile with shim := shimAfter connects } s' 0 [7, 7] part.ret := by
  have disciplined : Net.Shim.Guarded Net.Shim.HeldOnly connects := by decide +kernel
  have sound : Sound { newFile with shim := shimAfter connects } 0 :=
    ⟨healthy_shimAfter disciplined, by decide +kernel⟩
  have attached : ((shimAfter connects).net.socks 0).Attached := by
    simp only [Net.Bsock.Attached]
    decide +kernel
  have elapses : slowTurn.Elapses := ⟨⟨[], 30001, .granted⟩, by simp [slowTurn], by decide⟩
  obtain ⟨-, accounted, returns⟩ := sent_bytes_queued_once
    { newFile with shim := shimAfter connects } 100 0 (by decide) (by decide +kernel)
    (by decide +kernel)
  obtain ⟨part, s', written⟩ := (returns sound attached).2
    [(oneByte.1, slowTurn), (noByte.1, slowTurn), (oneByte.1, slowTurn)] (by simp [elapses])
  exact ⟨part, s', written, accounted _ part s' written⟩

end AppPortKit.Posix
