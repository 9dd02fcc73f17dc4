import AppPortKit.Net.Refusals

/-!
# Calls refused at once

The calls that take a descriptor find their socket by it and look no further: neither
whether it is in the table, nor whether the socket is in use.  This module says when such a
call is refused all the same, so that whatever lwIP answers it returns an error in its first
pass, and changes neither the table nor a control block.
-/

namespace AppPortKit.Net

open Libc Fallible

/-- The call takes a descriptor. -/
def Call.TakesFd : Call → Prop
  | .socket _ _ => False
  | _ => True

/-- No length is negative as a `long`. -/
def Call.Short : Call → Prop
  | .recv _ len => len.toNat < 9223372036854775808
  | _ => True

/-- lwIP grants whatever it is asked for, but has no room for bytes to send. -/
def Answers.busy : Answers := { Answers.granted with sndbuf := 0 }

instance : Nonempty Answers := ⟨.granted⟩

namespace State

/-- A call has returned an error, and changed no socket and no control block. -/
def Rejects (n : State) (result : Except Fault (Progress × State)) : Prop :=
  ∃ reply n', result = .ok (.returned reply, n') ∧ reply.ret < 0 ∧
    n'.socks = n.socks ∧ n'.tcp.pcbs = n.tcp.pcbs

/-- The control block of a socket, if it has one, is in use and not closed. -/
def Opened (n : State) (k : Fin 16) : Prop :=
  ∀ p, (n.socks k).pcb = some p → ∃ b, n.tcp.pcbs p = some b ∧ b.state ≠ .closed

/-- A socket that has failed, and whose control block is a connection that `connect` has
nothing to do with but refuse. -/
def Spent (n : State) (k : Fin 16) : Prop :=
  (n.socks k).state = .error ∧ ∀ p, (n.socks k).pcb = some p →
    ∃ b, n.tcp.pcbs p = some b ∧ b.state ≠ .closed ∧ b.state ≠ .listen ∧
      b.arg = some k ∧ b.recv = true ∧ b.errf = true

/-- A socket that has failed, without anything to receive. -/
def Drained (n : State) (k : Fin 16) : Prop :=
  (n.socks k).rxHead = none ∧ (n.socks k).eof = false ∧ (n.socks k).state = .error

/-- A socket that nothing can be sent to. -/
def Mute (n : State) (k : Fin 16) : Prop :=
  (n.socks k).pcb = none ∨ (n.socks k).state = .error

/-- A socket that accepts nothing. -/
def Deaf (n : State) (k : Fin 16) : Prop :=
  (n.socks k).acceptqCount = 0 ∧ (n.socks k).state ≠ .listening

/-- A call is refused because of its arguments or of the socket it finds. -/
def Declines (n : State) : Call → Prop
  | .socket _ _ | .close _ => False
  | .bind fd addrlen _ _ => ∃ k, sockOfFd fd = .ok k ∧ (addrlen < 16 ∨ n.Opened k)
  | .listen fd => ∃ k, sockOfFd fd = .ok k ∧ n.Opened k
  | .accept fd _ _ => ∃ k, sockOfFd fd = .ok k ∧ n.Deaf k
  | .connect fd addrlen _ _ => ∃ k, sockOfFd fd = .ok k ∧ (addrlen < 16 ∨ n.Spent k)
  | .recv fd len => ∃ k, sockOfFd fd = .ok k ∧ len ≠ 0 ∧ n.Drained k
  | .send fd data => ∃ k, sockOfFd fd = .ok k ∧ data ≠ [] ∧ n.Mute k

section Passes

variable {n n' : State} {k : Fin 16} {answers : Answers} {reply : Reply}

theorem rejects_code {error : Int} (positive : 0 < error) :
    n.Rejects (.ok (.returned (.code (-error)), n)) :=
  ⟨_, n, rfl, Int.neg_neg_of_pos positive, rfl, rfl⟩

theorem not_rejects_error (fault : Fault) : ¬n.Rejects (.error fault) := by
  rintro ⟨_, _, served, _⟩
  exact absurd served nofun

theorem not_rejects_polls (waiting : Waiting) : ¬n.Rejects (.ok (.polls waiting, n')) := by
  rintro ⟨_, _, served, _⟩
  exact absurd (Prod.mk.inj (Except.ok.inj served)).1 nofun

theorem not_rejects_of_nonneg (nonneg : 0 ≤ reply.ret) :
    ¬n.Rejects (.ok (.returned reply, n')) := by
  rintro ⟨_, _, served, failed, _⟩
  obtain rfl := Progress.returned.inj (Prod.mk.inj (Except.ok.inj served)).1
  exact Int.not_lt.mpr nonneg failed

theorem rejects_bind_iff (addrlen : UInt64) (ip : UInt32) (port : UInt16) :
    (∀ answers, n.Rejects ((n.netShimBind k addrlen ip port answers).map Progress.ofResult)) ↔
      addrlen < 16 ∨ n.Opened k := by
  simp only [netShimBind]
  by_cases short : addrlen < 16
  · refine iff_of_true (fun answers => ?_) (.inl short)
    rw [if_pos short]
    exact rejects_code (by decide)
  · simp only [short, false_or, Opened]
    cases pcb : (n.socks k).pcb with
    | none => exact iff_of_true (fun answers => rejects_code (by decide)) (by simp)
    | some p =>
        simp only [Option.some.injEq, forall_eq', Tcp.tcpBind, Tcp.get]
        cases stored : n.tcp.pcbs p with
        | none =>
            exact iff_of_false (fun rejects => not_rejects_error _ (rejects .granted)) (by simp)
        | some b =>
            by_cases closed : b.state = .closed
            · refine iff_of_false (fun rejects => ?_) (by simp [closed])
              have granted := rejects .granted
              simp only [closed, bind, Except.bind, Answers.granted] at granted
              exact not_rejects_of_nonneg (Int.le_refl 0) granted
            · refine iff_of_true (fun answers => ?_) ⟨b, rfl, closed⟩
              simp only [bind, Except.bind, ne_eq, closed, not_false_eq_true, ↓reduceIte]
              exact rejects_code (by decide)

theorem rejects_listen_iff :
    (∀ answers, n.Rejects ((n.netShimListen k answers).map Progress.ofResult)) ↔ n.Opened k := by
  simp only [netShimListen, Opened]
  cases pcb : (n.socks k).pcb with
  | none => exact iff_of_true (fun answers => rejects_code (by decide)) (by simp)
  | some p =>
      simp only [Option.some.injEq, forall_eq', Tcp.tcpListenWithBacklog, Tcp.get]
      cases stored : n.tcp.pcbs p with
      | none =>
          exact iff_of_false (fun rejects => not_rejects_error _ (rejects .granted)) (by simp)
      | some b =>
          by_cases closed : b.state = .closed
          · refine iff_of_false (fun rejects => ?_) (by simp [closed])
            obtain ⟨reply, n', served, failed, _⟩ := rejects .granted
            obtain ⟨result, listened, rfl, rfl⟩ := map_eq_ok.mp served
            simp only [closed, bind, Except.bind, Answers.granted] at listened
            obtain ⟨withArg, _, rest⟩ := bind_eq_ok.mp listened
            obtain ⟨withAccept, _, rest⟩ := bind_eq_ok.mp rest
            obtain rfl := Except.ok.inj rest
            exact absurd failed (Int.lt_irrefl 0)
          · refine iff_of_true (fun answers => ?_) ⟨b, rfl, closed⟩
            simp only [bind, Except.bind, ne_eq, closed, not_false_eq_true, ↓reduceIte]
            exact rejects_code (by decide)

theorem rejects_accept_iff (addr : Bool) (addrlen : Option UInt32) :
    n.Rejects (n.acceptStep k addr addrlen) ↔ n.Deaf k := by
  have slot (j : Fin 16) : (0 : Int) ≤ 100 + (j.val : Int) := by omega
  simp only [acceptStep, Deaf]
  by_cases empty : (n.socks k).acceptqCount = 0
  · rw [if_pos empty]
    by_cases listening : (n.socks k).state = .listening
    · rw [if_neg (not_not.mpr listening)]
      exact iff_of_false (not_rejects_polls _) fun deaf => deaf.2 listening
    · rw [if_pos listening]
      exact iff_of_true (rejects_code (by decide)) ⟨empty, listening⟩
  · rw [if_neg empty]
    refine iff_of_false (fun rejects => ?_) fun deaf => empty deaf.1
    split at rejects
    · obtain ⟨reply, n', served, failed, _⟩ := rejects
      obtain ⟨peer, _, rest⟩ := bind_eq_ok.mp served
      obtain rfl := Progress.returned.inj (Prod.mk.inj (Except.ok.inj rest)).1
      exact Int.not_lt.mpr (slot _) failed
    · exact not_rejects_of_nonneg (slot _) rejects

/-- What `connect` does without a control block. -/
theorem netShimConnect_of_none {addrlen : UInt64} (long : ¬addrlen < 16)
    (pcb : (n.socks k).pcb = none) (ip : UInt32) (port : UInt16) :
    n.netShimConnect k addrlen ip port answers = .ok (.returned (.code (-ECONNREFUSED)),
      n.setSock k { n.socks k with state := .error }) := by
  simp only [netShimConnect, if_neg long, pcb]
  rfl

/-- What `connect` does with a connection that is there. -/
theorem netShimConnect_of_connection {p : Nat} {b : Pcb} {addrlen : UInt64}
    (long : ¬addrlen < 16) (pcb : (n.socks k).pcb = some p) (stored : n.tcp.pcbs p = some b)
    (connection : b.state ≠ .listen) (opened : b.state ≠ .closed) (ip : UInt32)
    (port : UInt16) :
    n.netShimConnect k addrlen ip port answers = .ok (.returned (.code (-ECONNREFUSED)),
      { n with tcp := n.tcp.set p { b with arg := some k, recv := true, errf := true } }.setSock
        k { n.socks k with state := .error }) := by
  simp only [netShimConnect, if_neg long, pcb, Tcp.tcpArg_of_stored stored, Tcp.tcpRecv_set,
    Tcp.tcpErr_set, if_neg connection, Tcp.tcpConnect, Tcp.get_of_stored (Tcp.pcbs_set _ _ _),
    if_pos opened, bind, Except.bind]
  rfl

theorem registered_eq_iff (b : Pcb) (arg : Option (Fin 16)) :
    { b with arg, recv := true, errf := true } = b ↔
      b.arg = arg ∧ b.recv = true ∧ b.errf = true := by
  constructor
  · intro same
    exact ⟨(congrArg Pcb.arg same).symm, (congrArg Pcb.recv same).symm,
      (congrArg Pcb.errf same).symm⟩
  · rintro ⟨rfl, recv, errf⟩
    cases b
    simp_all

theorem socks_failed_iff :
    Function.update n.socks k { n.socks k with state := .error } = n.socks ↔
      (n.socks k).state = .error := by
  rw [Function.update_eq_self_iff]
  constructor
  · exact fun same => (congrArg Bsock.state same).symm
  · intro failed
    rw [← failed]

theorem rejects_connect_iff (addrlen : UInt64) (ip : UInt32) (port : UInt16) :
    (∀ answers, n.Rejects (n.netShimConnect k addrlen ip port answers)) ↔
      addrlen < 16 ∨ n.Spent k := by
  by_cases short : addrlen < 16
  · refine iff_of_true (fun answers => ?_) (.inl short)
    rw [netShimConnect, if_pos short]
    exact rejects_code (by decide)
  rw [or_iff_right short, Spent]
  cases pcb : (n.socks k).pcb with
  | none =>
      simp only [netShimConnect_of_none short pcb]
      constructor
      · intro rejects
        obtain ⟨_, _, served, _, socks, _⟩ := rejects .granted
        obtain ⟨_, rfl⟩ := Prod.mk.inj (Except.ok.inj served)
        exact ⟨socks_failed_iff.mp socks, (by simp)⟩
      · rintro ⟨failed, _⟩ answers
        exact ⟨_, _, rfl, Int.neg_neg_of_pos (by decide), socks_failed_iff.mpr failed, rfl⟩
  | some p =>
      simp only [Option.some.injEq, forall_eq']
      constructor
      · intro rejects
        have granted := rejects .granted
        rcases netShimConnect_cases (n := n) (k := k) short ip port with
          ⟨_, other⟩ | ⟨refused, _⟩
        · obtain ⟨reply, n', served, _⟩ := granted
          exact absurd served (other reply n')
        · simp only [RefusesConnect, pcb] at refused
          obtain ⟨b, stored, connection, closed⟩ := refused
          have opened : b.state ≠ .closed := fun same => closed same trivial
          rw [netShimConnect_of_connection short pcb stored connection opened] at granted
          obtain ⟨_, _, served, _, socks, pcbs⟩ := granted
          obtain ⟨_, rfl⟩ := Prod.mk.inj (Except.ok.inj served)
          have same := congrFun pcbs p
          rw [tcp_setSock, Tcp.pcbs_set, stored, Option.some.injEq, registered_eq_iff] at same
          exact ⟨socks_failed_iff.mp socks, b, stored, opened, connection, same⟩
      · rintro ⟨failed, b, stored, opened, connection, registered⟩ answers
        rw [netShimConnect_of_connection short pcb stored connection opened]
        refine ⟨_, _, rfl, Int.neg_neg_of_pos (by decide), socks_failed_iff.mpr failed, ?_⟩
        rw [tcp_setSock, (registered_eq_iff b (some k)).mpr registered]
        exact Function.update_eq_self_iff.mpr stored.symm

theorem bsockRead_nonneg {p : Nat} {len : UInt64} {result : Reply × State}
    (short : len.toNat < 9223372036854775808) (served : n.bsockRead k p len = .ok result) :
    0 ≤ result.1.ret := by
  obtain ⟨b, _, rest⟩ := bind_eq_ok.mp served
  obtain ⟨_, _, rest⟩ := bind_eq_ok.mp rest
  obtain ⟨_, _, rest⟩ := bind_eq_ok.mp rest
  obtain rfl := Except.ok.inj rest
  have within : (readCount len b (n.socks k).rxOff).toNat ≤ len.toNat := by
    rw [readCount]
    split
    · exact Nat.le_refl _
    next enough => exact UInt64.le_iff_toNat_le.mp (UInt64.not_lt.mp enough)
  change 0 ≤ Word64.signed _
  rw [Word64.signed_of_lt (Nat.lt_of_le_of_lt within short)]
  exact Int.natCast_nonneg _

theorem rejects_recv_of_drained (drained : n.Drained k) (len : UInt64) :
    n.Rejects (n.recvStep k len) := by
  obtain ⟨empty, more, failed⟩ := drained
  simp only [recvStep, empty, more, failed, Bool.false_eq_true, ↓reduceIte]
  exact rejects_code (by decide)

theorem rejects_recv_iff {len : UInt64} (short : len.toNat < 9223372036854775808) :
    n.Rejects (n.recvStep k len) ↔ n.Drained k := by
  refine ⟨fun rejects => ?_, fun drained => rejects_recv_of_drained drained len⟩
  cases head : (n.socks k).rxHead with
  | some p =>
      simp only [recvStep, head] at rejects
      obtain ⟨reply, n', served, failed, _⟩ := rejects
      obtain ⟨result, read, rest⟩ := bind_eq_ok.mp served
      obtain rfl := Progress.returned.inj (Prod.mk.inj (Except.ok.inj rest)).1
      exact absurd failed (Int.not_lt.mpr (bsockRead_nonneg short read))
  | none =>
      simp only [recvStep, head] at rejects
      by_cases ended : (n.socks k).eof = true
      · rw [if_pos ended] at rejects
        exact absurd rejects (not_rejects_of_nonneg (Int.le_refl 0))
      · rw [if_neg ended] at rejects
        by_cases failed : (n.socks k).state = .error
        · exact ⟨head, Bool.eq_false_iff.mpr ended, failed⟩
        · rw [if_neg failed] at rejects
          exact absurd rejects (not_rejects_polls _)

theorem rejects_send_of_mute (mute : n.Mute k) (data : List UInt8) (answers : Answers) :
    n.Rejects (n.sendStep k data answers) := by
  have reset : n.bsockWrite k data answers = .ok (-ECONNRESET, n) := by
    rw [bsockWrite]
    rcases mute with gone | failed
    · rw [gone]
    · split
      · rfl
      · exact if_pos failed
  simp only [sendStep, reset]
  exact rejects_code (by decide)

/-- As long as lwIP has no room for the bytes, `send` waits on any other socket. -/
theorem mute_of_rejects_send {data : List UInt8} (full : answers.sndbuf = 0)
    (rejects : n.Rejects (n.sendStep k data answers)) : n.Mute k := by
  obtain ⟨reply, n', served, _⟩ := rejects
  obtain ⟨result, wrote, rest⟩ := bind_eq_ok.mp served
  cases pcb : (n.socks k).pcb with
  | none => exact .inl pcb
  | some p =>
      by_cases failed : (n.socks k).state = .error
      · exact .inr failed
      · simp only [bsockWrite, pcb, if_neg failed, if_pos full] at wrote
        obtain ⟨_, _, nothing⟩ := bind_eq_ok.mp wrote
        obtain rfl := Except.ok.inj nothing
        simp only [ne_eq, not_true_eq_false, ↓reduceIte, if_neg failed] at rest
        exact absurd (Prod.mk.inj (Except.ok.inj rest)).1 (by simp)

theorem not_rejects_close :
    ¬n.Rejects ((n.netShimClose k answers).map Progress.ofResult) := by
  rintro ⟨reply, n', served, failed, _⟩
  obtain ⟨result, closed, rfl, rfl⟩ := map_eq_ok.mp served
  obtain ⟨_, _, rest⟩ := bind_eq_ok.mp closed
  obtain ⟨_, _, rest⟩ := bind_eq_ok.mp rest
  obtain rfl := Except.ok.inj rest
  exact absurd failed (Int.lt_irrefl 0)

end Passes

section Enter

variable {n : State} {fd : Int}

/-- A call whose first step is to find its socket. -/
theorem rejects_sock_iff {pass : Fin 16 → Answers → Except Fault (Progress × State)}
    {declines : Fin 16 → Prop}
    (each : ∀ k, (∀ answers, n.Rejects (pass k answers)) ↔ declines k) :
    (∀ answers, n.Rejects (sockOfFd fd >>= fun k => pass k answers)) ↔
      ∃ k, sockOfFd fd = .ok k ∧ declines k := by
  cases slot : sockOfFd fd with
  | error fault =>
      refine iff_of_false (fun rejects => not_rejects_error fault (rejects .granted)) ?_
      rintro ⟨k, found, _⟩
      exact absurd found nofun
  | ok k =>
      refine (each k).trans ⟨fun declines => ⟨k, rfl, declines⟩, ?_⟩
      rintro ⟨j, found, declines⟩
      exact Except.ok.inj found ▸ declines

/-- A call that takes a descriptor is refused at once just if it declines. -/
theorem rejects_enter_iff {call : Call} (takes : call.TakesFd) (short : call.Short) :
    (∀ answers, n.Rejects (n.enter answers call)) ↔ n.Declines call := by
  cases call with
  | socket domain type => exact takes.elim
  | bind fd addrlen ip port => exact rejects_sock_iff fun k => rejects_bind_iff addrlen ip port
  | listen fd => exact rejects_sock_iff fun k => rejects_listen_iff
  | accept fd addr addrlen =>
      refine rejects_sock_iff fun k => ?_
      rw [forall_const, rejects_accept_iff]
  | connect fd addrlen ip port =>
      exact rejects_sock_iff fun k => rejects_connect_iff addrlen ip port
  | recv fd len =>
      refine rejects_sock_iff fun k => ?_
      by_cases empty : len = 0
      · rw [if_pos empty, forall_const]
        exact iff_of_false (not_rejects_of_nonneg (Int.le_refl 0)) fun declines => declines.1 empty
      · rw [if_neg empty, forall_const, rejects_recv_iff short, and_iff_right empty]
  | send fd data =>
      refine rejects_sock_iff fun k => ?_
      by_cases empty : data = []
      · simp only [if_pos empty, forall_const]
        exact iff_of_false (not_rejects_of_nonneg (Int.le_refl 0)) fun declines => declines.1 empty
      · simp only [if_neg empty]
        exact ⟨fun all => ⟨empty, mute_of_rejects_send rfl (all .busy)⟩,
          fun mute answers => rejects_send_of_mute mute.2 data answers⟩
  | close fd =>
      have never : (∀ answers, n.Rejects (n.enter answers (.close fd))) ↔
          ∃ k, sockOfFd fd = .ok k ∧ False :=
        rejects_sock_iff fun k => iff_of_false (fun all => not_rejects_close (all .granted)) id
      exact never.trans ⟨fun ⟨_, _, absurd⟩ => absurd, False.elim⟩

/-- A `send` that is refused while lwIP is busy is refused always. -/
theorem declines_send_of_rejects {data : List UInt8}
    (rejects : n.Rejects (n.enter .busy (.send fd data))) : n.Declines (.send fd data) := by
  obtain ⟨reply, n', served, failed, same⟩ := rejects
  obtain ⟨k, slot, pass⟩ := bind_eq_ok.mp served
  by_cases empty : data = []
  · rw [if_pos empty] at pass
    exact absurd ⟨reply, n', pass, failed, same⟩ (not_rejects_of_nonneg (Int.le_refl 0))
  · rw [if_neg empty] at pass
    exact ⟨k, slot, empty, mute_of_rejects_send rfl ⟨reply, n', pass, failed, same⟩⟩

/-- A call that declines is refused however long its buffer is. -/
theorem rejects_of_declines {call : Call} (declines : n.Declines call) (answers : Answers) :
    n.Rejects (n.enter answers call) := by
  cases call with
  | socket | close => exact declines.elim
  | bind | listen | accept | connect | send =>
      refine (rejects_enter_iff ?takes ?short).mpr declines answers
      case takes => trivial
      case short => trivial
  | recv fd len =>
      obtain ⟨k, slot, nonempty, drained⟩ := declines
      have pass : n.enter answers (.recv fd len) = n.recvStep k len := by
        simp only [enter, slot, bind, Except.bind, if_neg nonempty]
      exact pass ▸ rejects_recv_of_drained drained len

end Enter

end State

end AppPortKit.Net
