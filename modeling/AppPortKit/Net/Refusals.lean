import AppPortKit.Net.Faults

/-!
# Calls that are refused

`socket`, `bind`, `listen` and `connect` may be refused at once, by their own checks or
by lwIP.  `bind` and `listen` then leave every socket as it was.  `connect` does not: it
marks the socket as failed, also a connected one that only was asked to connect again.
`socket` clears the free slot it found before it asks lwIP for memory, and with it what a
closed listening socket left in its queue there.
-/

namespace AppPortKit.Net

open Libc Fallible Transition

/-- State and queues of a socket are the same: what can be received from it, and the
connections that wait for it. -/
structure Bsock.SameQueues (s s' : Bsock) : Prop where
  state : s'.state = s.state
  rxHead : s'.rxHead = s.rxHead
  rxOff : s.rxHead ≠ none → s'.rxOff = s.rxOff
  eof : s.state ≠ .free → s'.eof = s.eof
  pending : s'.pending = s.pending

structure State.SameQueues (n n' : State) : Prop where
  socks : ∀ k, (n.socks k).SameQueues (n'.socks k)
  pbufs : n'.pbufs = n.pbufs

/-- A step of a call that may be refused at once.  The first `socket` call ends in a later
step, when the network is up. -/
def Shim.Asks (s : Shim) : Input → Prop
  | .call (.socket _ _) _ _ | .call (.bind _ _ _ _) _ _ | .call (.listen _) _ _
  | .call (.connect _ _ _ _) _ _ => True
  | .tick _ _ => ∃ domain type start, s.waiting = some (.ready domain type, start)
  | _ => False

/-- A refused call leaves all sockets as they were. -/
def Shim.RefusesCleanly (s : Shim) (input : Input) : Prop :=
  s.Asks input → ∀ reply s', s.step input = .ok (some reply, s') → reply.ret < 0 →
    s.net.SameQueues s'.net

/-- lwIP sends the first packet of a connection. -/
def ConnectAnswer.Sends : ConnectAnswer → Prop
  | .sent _ _ => True
  | _ => False

/-- `tcp_connect` fails on the control block of a socket. -/
def State.RefusesConnect (n : State) (k : Fin 16) (answers : Answers) : Prop :=
  match (n.socks k).pcb with
  | none => True
  | some p => ∃ b, n.tcp.pcbs p = some b ∧ b.state ≠ .listen ∧
      (b.state = .closed → ¬answers.connect.Sends)

/-- If `tcp_new` fails, the slot found for the socket holds no queue. -/
def State.ClearsNothing (n : State) (domain type : UInt64) (answers : Answers) : Prop :=
  domain = 2 → type &&& 0xFF = 1 → answers.newPcb = false →
    ∀ k, n.allocSlot = some k → (n.socks k).rxHead = none ∧ (n.socks k).acceptqCount = 0

/-- A `connect` that will be refused is made on a socket that has failed already, and a
`socket` without memory finds a slot without a queue. -/
def Shim.RefusalHarmless (s : Shim) : Input → Prop
  | .call (.socket domain type) _ answers =>
      s.waiting = none → s.net.netReady = true ∨ answers.ready = true →
        s.net.ClearsNothing domain type answers
  | .call (.connect fd addrlen _ _) _ answers =>
      s.waiting = none → ¬addrlen < 16 → ∀ k, State.sockOfFd fd = .ok k →
        s.net.RefusesConnect k answers → (s.net.socks k).state = .error
  | .tick now answers =>
      ∀ domain type start, s.waiting = some (.ready domain type, start) →
        now - start ≥ 30000 ∨ answers.ready = true → s.net.ClearsNothing domain type answers
  | _ => True

theorem Bsock.SameQueues.refl (s : Bsock) : s.SameQueues s :=
  ⟨rfl, rfl, fun _ => rfl, fun _ => rfl, rfl⟩

namespace State

variable {n n' : State} {k : Fin 16} {answers : Answers}

theorem SameQueues.of_eq (socks : n'.socks = n.socks) (pbufs : n'.pbufs = n.pbufs) :
    n.SameQueues n' :=
  ⟨fun k => socks ▸ .refl (n.socks k), pbufs⟩

/-- One socket is replaced. -/
theorem sameQueues_update_iff {sock : Bsock} (socks : n'.socks = Function.update n.socks k sock)
    (pbufs : n'.pbufs = n.pbufs) : n.SameQueues n' ↔ (n.socks k).SameQueues sock := by
  constructor
  · intro same
    have here := same.socks k
    rw [socks, Function.update_self] at here
    exact here
  · refine fun here => ⟨?_, pbufs⟩
    rw [socks, Function.forall_update_iff n.socks fun j sock => (n.socks j).SameQueues sock]
    exact ⟨here, fun j _ => .refl _⟩

/-- The refusals of a call that does not poll. -/
def Keeps (n : State) (result : Except Fault (Progress × State)) : Prop :=
  ∀ reply n', result = .ok (.returned reply, n') → reply.ret < 0 → n.SameQueues n'

theorem keeps_error (fault : Fault) : n.Keeps (.error fault) := by
  intro reply n' served
  cases served

theorem keeps_map {result : Except Fault (Reply × State)} :
    n.Keeps (result.map Progress.ofResult) ↔
      ∀ reply n', result = .ok (reply, n') → reply.ret < 0 → n.SameQueues n' := by
  constructor
  · intro keeps reply n' served
    exact keeps reply n' (map_eq_ok.mpr ⟨_, served, rfl⟩)
  · intro keeps reply n' served
    obtain ⟨result, same, rfl, rfl⟩ := map_eq_ok.mp served
    exact keeps result.1 result.2 same

theorem keeps_socket_iff (socks : n'.socks = n.socks) (pbufs : n'.pbufs = n.pbufs)
    (domain type : UInt64) :
    n.Keeps ((n'.netShimSocket domain type answers).map Progress.ofResult) ↔
      n.ClearsNothing domain type answers := by
  have slot : n'.allocSlot = n.allocSlot := by simp only [allocSlot, socks]
  rw [keeps_map, ClearsNothing, netShimSocket, slot]
  by_cases unsupported : domain ≠ 2 ∨ type &&& 0xFF ≠ 1
  · rw [if_pos unsupported]
    refine iff_of_true ?_ fun right stream => ?_
    · rintro reply _ ⟨⟩ -
      exact .of_eq socks pbufs
    · exact absurd unsupported (by simp [right, stream])
  · obtain ⟨right, stream⟩ := not_or.mp unsupported
    rw [if_neg unsupported]
    cases found : n.allocSlot with
    | none =>
        refine iff_of_true ?_ fun _ _ _ k free => by contradiction
        rintro reply _ ⟨⟩ -
        exact .of_eq socks pbufs
    | some k =>
        cases memory : answers.newPcb with
        | true =>
            refine iff_of_true ?_ fun _ _ _ => by contradiction
            intro reply _ served failed
            obtain ⟨tcp, _, rest⟩ := bind_eq_ok.mp served
            obtain ⟨rfl, -⟩ := Prod.mk.inj (Except.ok.inj rest)
            exact absurd failed (Int.not_lt.mpr (Int.add_nonneg (by decide) (Int.natCast_nonneg _)))
        | false =>
            have state := free_of_allocSlot found
            have reset : n.SameQueues (n'.resetSock k) ↔ (n.socks k).SameQueues .zero :=
              sameQueues_update_iff (by simp [resetSock, socks]) (by simp [resetSock, pbufs])
            constructor
            · intro keeps _ _ _ slot same
              obtain rfl := Option.some.inj same
              have cleared := reset.mp (keeps _ _ rfl (Int.neg_neg_of_pos (by decide)))
              refine ⟨cleared.rxHead.symm, ?_⟩
              have length := congrArg List.length cleared.pending
              simpa [Bsock.pending, Bsock.zero] using length.symm
            · intro clear reply _ served _
              obtain ⟨-, rfl⟩ := Prod.mk.inj (Except.ok.inj served)
              obtain ⟨noData, noQueue⟩ := clear (not_not.mp right) (not_not.mp stream) rfl k rfl
              refine reset.mpr ⟨state.symm, noData.symm, fun queued => absurd noData queued,
                fun used => absurd state used, ?_⟩
              simp [Bsock.pending, noQueue, Bsock.zero]

theorem keeps_bind (addrlen : UInt64) (ip : UInt32) (port : UInt16) :
    n.Keeps ((n.netShimBind k addrlen ip port answers).map Progress.ofResult) := by
  rw [keeps_map, netShimBind]
  intro reply n' served _
  split at served
  · obtain ⟨-, rfl⟩ := Prod.mk.inj (Except.ok.inj served)
    exact .of_eq rfl rfl
  · obtain ⟨result, _, rest⟩ := bind_eq_ok.mp served
    obtain ⟨-, rfl⟩ := Prod.mk.inj (Except.ok.inj rest)
    exact .of_eq rfl rfl

theorem keeps_listen : n.Keeps ((n.netShimListen k answers).map Progress.ofResult) := by
  rw [keeps_map, netShimListen]
  intro reply n' served failed
  obtain ⟨result, _, rest⟩ := bind_eq_ok.mp served
  split at rest
  · obtain ⟨-, rfl⟩ := Prod.mk.inj (Except.ok.inj rest)
    exact .of_eq rfl rfl
  · obtain ⟨withArg, _, rest⟩ := bind_eq_ok.mp rest
    obtain ⟨withAccept, _, rest⟩ := bind_eq_ok.mp rest
    obtain ⟨rfl, -⟩ := Prod.mk.inj (Except.ok.inj rest)
    exact absurd failed (Int.lt_irrefl 0)

/-- What `connect` does with an address: it faults, begins to poll, or marks the socket
as failed, if lwIP refuses. -/
theorem netShimConnect_cases {addrlen : UInt64} (long : ¬addrlen < 16) (ip : UInt32)
    (port : UInt16) :
    (¬n.RefusesConnect k answers ∧ ∀ reply n',
        n.netShimConnect k addrlen ip port answers ≠ .ok (.returned reply, n')) ∨
      n.RefusesConnect k answers ∧ ∃ tcp,
        n.netShimConnect k addrlen ip port answers = .ok (.returned (.code (-ECONNREFUSED)),
          { n with tcp }.setSock k { n.socks k with state := .error }) := by
  rw [RefusesConnect, netShimConnect, if_neg long]
  cases pcb : (n.socks k).pcb with
  | none => exact .inr ⟨trivial, n.tcp, rfl⟩
  | some p =>
      cases stored : n.tcp.pcbs p with
      | none =>
          refine .inl ⟨?_, fun reply n' => ?_⟩
          · rintro ⟨b, found, -⟩
            exact absurd (stored.symm.trans found) (by simp)
          · simp [Tcp.tcpArg_of_gone stored, bind, Except.bind]
      | some b =>
          simp only [Tcp.tcpArg_of_stored stored, Tcp.tcpRecv_set, bind, Except.bind]
          by_cases listening : b.state = .listen
          · refine .inl ⟨?_, fun reply n' => ?_⟩
            · rintro ⟨b', found, connection, -⟩
              obtain rfl := Option.some.inj (stored.symm.trans found)
              exact connection listening
            · simp [listening]
          · simp only [if_neg listening, Tcp.tcpErr_set, Tcp.tcpConnect,
              Tcp.get_of_stored (Tcp.pcbs_set _ _ _), bind, Except.bind]
            by_cases closed : b.state = .closed
            · simp only [closed, ne_eq, not_true_eq_false, ↓reduceIte]
              cases answer : answers.connect with
              | noRoute =>
                  exact .inr ⟨⟨b, stored, listening, fun _ => id⟩, _, rfl⟩
              | noMemory localIp localPort =>
                  exact .inr ⟨⟨b, stored, listening, fun _ => id⟩, _, rfl⟩
              | sent localIp localPort =>
                  refine .inl ⟨?_, fun reply n' => ?_⟩
                  · rintro ⟨b', found, -, refuses⟩
                    obtain rfl := Option.some.inj (stored.symm.trans found)
                    exact refuses closed trivial
                  · simp [connectStep]
            · simp only [closed, ne_eq, not_false_eq_true, ↓reduceIte]
              exact .inr ⟨⟨b, stored, listening, fun same => absurd same closed⟩, _, rfl⟩

theorem keeps_connect_iff (addrlen : UInt64) (ip : UInt32) (port : UInt16) :
    n.Keeps (n.netShimConnect k addrlen ip port answers) ↔
      (¬addrlen < 16 → n.RefusesConnect k answers → (n.socks k).state = .error) := by
  by_cases short : addrlen < 16
  · refine iff_of_true ?_ fun long => absurd short long
    intro reply n' served _
    rw [netShimConnect, if_pos short] at served
    obtain ⟨-, rfl⟩ := Prod.mk.inj (Except.ok.inj served)
    exact .of_eq rfl rfl
  · rcases netShimConnect_cases short ip port with ⟨accepted, other⟩ | ⟨refused, tcp, result⟩
    · exact iff_of_true (fun reply n' served => absurd served (other reply n'))
        fun _ refused => absurd refused accepted
    · have same : n.SameQueues ({ n with tcp }.setSock k { n.socks k with state := .error }) ↔
          (n.socks k).state = .error := by
        have socks : ({ n with tcp }.setSock k { n.socks k with state := .error }).socks =
          Function.update n.socks k { n.socks k with state := .error } := rfl
        rw [sameQueues_update_iff socks rfl]
        exact ⟨fun same => same.state.symm,
          fun failed => ⟨failed.symm, rfl, fun _ => rfl, fun _ => rfl, rfl⟩⟩
      rw [Keeps, result]
      constructor
      · intro keeps _ _
        exact same.mp (keeps _ _ rfl (Int.neg_neg_of_pos (by decide)))
      · rintro failed reply _ ⟨⟩ -
        exact same.mpr (failed short refused)

theorem readyStep_eq (domain type : UInt64) :
    n.readyStep domain type answers =
      if answers.ready then
        ({ n with netReady := true }.netShimSocket domain type answers).map Progress.ofResult
      else .ok (.polls (.ready domain type), n) := by
  rw [readyStep]
  split
  · cases { n with netReady := true }.netShimSocket domain type answers with
    | error fault => rfl
    | ok result => rfl
  · rfl

theorem keeps_socket_ready_iff (domain type : UInt64) :
    n.Keeps (({ n with netReady := true }.netShimSocket domain type answers).map
      Progress.ofResult) ↔ n.ClearsNothing domain type answers := by
  have socks : { n with netReady := true }.socks = n.socks := rfl
  exact keeps_socket_iff socks rfl domain type

theorem keeps_readyStep_iff (domain type : UInt64) :
    n.Keeps (n.readyStep domain type answers) ↔
      (answers.ready = true → n.ClearsNothing domain type answers) := by
  rw [readyStep_eq]
  cases ready : answers.ready with
  | true =>
      simp only [↓reduceIte, forall_const]
      exact keeps_socket_ready_iff domain type
  | false => exact iff_of_true nofun nofun

/-- What the calls do to the sockets when they are refused. -/
theorem keeps_enter_iff {s : Shim} (idle : s.waiting = none) (call : Call) (now : UInt32) :
    (s.Asks (.call call now answers) → s.net.Keeps (s.net.enter answers call)) ↔
      s.RefusalHarmless (.call call now answers) := by
  cases call with
  | socket domain type =>
      simp only [Shim.Asks, Shim.RefusalHarmless, idle, enter, forall_const]
      cases ready : s.net.netReady with
      | true =>
          simp only [↓reduceIte, true_or, forall_const]
          exact keeps_socket_iff rfl rfl domain type
      | false =>
          simp only [Bool.false_eq_true, ↓reduceIte, false_or]
          exact keeps_readyStep_iff domain type
  | bind fd addrlen ip port =>
      refine iff_of_true (fun _ => ?_) trivial
      rw [enter]
      cases sockOfFd fd with
      | error fault => exact keeps_error fault
      | ok k => exact keeps_bind addrlen ip port
  | listen fd =>
      refine iff_of_true (fun _ => ?_) trivial
      rw [enter]
      cases sockOfFd fd with
      | error fault => exact keeps_error fault
      | ok k => exact keeps_listen
  | connect fd addrlen ip port =>
      simp only [Shim.Asks, Shim.RefusalHarmless, idle, enter, forall_const]
      cases slot : sockOfFd fd with
      | error fault => exact iff_of_true (keeps_error fault) (by simp)
      | ok k =>
          simp only [Except.ok.injEq, forall_eq']
          exact keeps_connect_iff addrlen ip port
  | accept | recv | send | close => exact iff_of_true False.elim trivial

end State

namespace Shim

variable {s : Shim} {start : UInt32}

/-- A step that ends a call returns what the call does. -/
theorem settle_eq_some {result : Progress × State} {reply : Reply} {s' : Shim} :
    settle start result = (some reply, s') ↔
      result = (.returned reply, s'.net) ∧ s'.waiting = none := by
  obtain ⟨progress, net⟩ := result
  cases progress with
  | returned other =>
      obtain ⟨net', waiting⟩ := s'
      simp only [settle, Prod.mk.injEq, Option.some.injEq, Shim.mk.injEq,
        Progress.returned.injEq, and_assoc, eq_comm (a := waiting)]
  | polls waiting => simp [settle]

theorem keeps_settle_iff (result : Except Fault (Progress × State)) :
    (∀ reply s', result.map (settle start) = .ok (some reply, s') → reply.ret < 0 →
        s.net.SameQueues s'.net) ↔ s.net.Keeps result := by
  constructor
  · intro keeps reply n' served
    exact keeps reply { net := n', waiting := none } (map_eq_ok.mpr ⟨_, served, rfl⟩)
  · intro keeps reply s' served
    obtain ⟨result, same, settled⟩ := map_eq_ok.mp served
    obtain ⟨rfl, -⟩ := settle_eq_some.mp settled
    exact keeps reply s'.net same

/-- The step in which the first `socket` call ends. -/
theorem refusesCleanly_ready_iff {domain type : UInt64} {now : UInt32} {answers : Answers}
    (polling : s.waiting = some (.ready domain type, start)) :
    s.RefusesCleanly (.tick now answers) ↔
      (now - start ≥ 30000 ∨ answers.ready = true →
        s.net.ClearsNothing domain type answers) := by
  have asks : s.Asks (.tick now answers) := ⟨domain, type, start, polling⟩
  simp only [RefusesCleanly, asks, forall_const, step, polling]
  by_cases late : now - start ≥ 30000
  · simp only [late, ↓reduceIte, true_or, forall_const]
    rw [keeps_settle_iff]
    exact State.keeps_socket_ready_iff domain type
  · simp only [late, ↓reduceIte, false_or]
    rw [keeps_settle_iff]
    exact State.keeps_readyStep_iff domain type

/-- A refused call leaves every socket as it was, exactly if no `connect` is refused on a
socket that was in order and no `socket` clears a queue. -/
theorem refusal_keeps_sockets_iff (s : Shim) (input : Input) :
    s.RefusesCleanly input ↔ s.RefusalHarmless input := by
  cases input with
  | lwip event => exact iff_of_true nofun trivial
  | call call now answers =>
      cases polling : s.waiting with
      | none =>
          rw [← State.keeps_enter_iff polling]
          simp only [RefusesCleanly, step, polling]
          rw [keeps_settle_iff]
      | some waiting =>
          refine iff_of_true ?_ ?_
          · intro _ reply s' stepped
            simp [step, polling] at stepped
          · cases call with
            | socket | connect => exact fun idle => absurd (polling.symm.trans idle) (by simp)
            | bind | listen | accept | recv | send | close => trivial
  | tick now answers =>
      rcases polling : s.waiting with - | ⟨waiting, start⟩
      · simp [RefusesCleanly, RefusalHarmless, step, polling]
      · cases waiting with
        | ready domain type =>
            rw [refusesCleanly_ready_iff polling]
            constructor
            · intro clears domain' type' start' same
              obtain ⟨⟨rfl, rfl⟩, rfl⟩ : (domain = domain' ∧ type = type') ∧ start = start' := by
                simpa [polling] using same
              exact clears
            · exact fun harmless => harmless domain type start polling
        | accept | connect | recv | send =>
            simp [RefusesCleanly, Asks, RefusalHarmless, polling]

end Shim

/-- A connected socket. -/
def connectedOnce : List Input :=
  [.call (.socket 2 1) 0 .granted, .call (.connect 100 16 0x0A000202 80) 0 .granted,
    .lwip (.connected 0), .tick 1 .granted]

/-- A second `connect` on it is refused and marks it as failed; from then on it cannot be
sent on. -/
theorem secondConnect_spoils :
    Shim.Guarded Shim.HeldOnly (connectedOnce ++
      [.call (.connect 100 16 0x0A000202 80) 2 .granted, .call (.send 100 [97]) 3 .granted]) ∧
    (shim.replies (.ok .boot) (connectedOnce ++
      [.call (.connect 100 16 0x0A000202 80) 2 .granted,
        .call (.send 100 [97]) 3 .granted])).map (Option.map Reply.ret) =
      [some 100, none, none, some 0, some (-ECONNREFUSED), some (-ECONNRESET)] ∧
    ¬Shim.Guarded Shim.RefusesCleanly (connectedOnce ++
      [.call (.connect 100 16 0x0A000202 80) 2 .granted]) := by
  refine ⟨by decide +kernel, by decide +kernel, fun guarded => ?_⟩
  have last := ((shim.along_append _ _ _ _).mp guarded).2.1
  have before : (shim.run (.ok .boot) connectedOnce).toOption.map
      (fun s => (s.net.socks 0).state) = some .connected := by
    decide +kernel
  have reply : shim.reply (shim.run (.ok .boot) connectedOnce)
      (.call (.connect 100 16 0x0A000202 80) 2 .granted) = some (.code (-ECONNREFUSED)) := by
    decide +kernel
  have after : (shim.next (shim.run (.ok .boot) connectedOnce)
      (.call (.connect 100 16 0x0A000202 80) 2 .granted)).toOption.map
      (fun s => (s.net.socks 0).state) = some .error := by
    decide +kernel
  cases booted : shim.run (.ok .boot) connectedOnce with
  | error fault =>
      rw [booted] at before
      contradiction
  | ok s =>
      rw [booted] at last before reply after
      cases stepped : s.step (.call (.connect 100 16 0x0A000202 80) 2 .granted) with
      | error fault => simp [Machine.reply, shim, stepped] at reply
      | ok result =>
          have returned : result.1 = some (.code (-ECONNREFUSED)) := by
            simpa [Machine.reply, shim, stepped] using reply
          rw [Shim.next_of_ok stepped] at after
          have same := last trivial (.code (-ECONNREFUSED)) result.2
            (by rw [stepped, ← returned]) (Int.neg_neg_of_pos (by decide))
          have connected : (s.net.socks 0).state = .connected := Option.some.inj before
          have failed : (result.2.net.socks 0).state = .error := Option.some.inj after
          have states := (same.socks 0).state
          rw [connected, failed] at states
          contradiction

end AppPortKit.Net
