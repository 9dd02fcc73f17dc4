import AppPortKit.Net.Accept
import AppPortKit.Net.Received

/-!
# What can go wrong

Everything that can go wrong in the socket layer while the application passes only
descriptors it holds: `accept` reads the address of a connection that was reset, a call is
made on a socket whose control block lwIP has freed without a word, or a listening control
block is used as a connection.
-/

namespace AppPortKit.Net

open Fallible

/-! ## Sockets that cannot have received anything -/

/-- A socket whose control block receives no data. -/
def State.Unconnected (n : State) (k : Fin 16) : Prop :=
  (n.socks k).state = .closed ∨
    ∃ p b, (n.socks k).pcb = some p ∧ n.tcp.pcbs p = some b ∧ ¬b.Receives

/-- Nothing has arrived on a socket. -/
def Bsock.Untouched (s : Bsock) : Prop := s.rxHead = none ∧ s.eof = false

def State.Dry (n : State) : Prop :=
  ∀ k, (n.socks k).state ≠ .free → n.Unconnected k → (n.socks k).Untouched

namespace State

variable {s : Shim} {n n' : State} {k : Fin 16}

/-- The socket that data goes to is connected. -/
theorem not_unconnected (owned : Owned n) {q : Nat} {b : Pcb} (stored : n.tcp.pcbs q = some b)
    (receives : b.Receives) (recv : b.recv = true) (arg : b.arg = some k) :
    ¬n.Unconnected k := by
  obtain ⟨_, pcb, fits⟩ := owned.owner stored (.inl recv) arg
  rintro (closed | ⟨p, c, has, found, notReceives⟩)
  · rw [closed] at fits
    exact absurd (fits.2.1.symm.trans recv) nofun
  · obtain rfl := Option.some.inj (pcb.symm.trans has)
    obtain rfl := Option.some.inj (stored.symm.trans found)
    exact notReceives receives

theorem onRecv_untouched {arg : Option (Fin 16)} {p : Option Nat} {err : ErrT}
    (result : n.onRecv arg p err = .ok n') (other : arg ≠ some k)
    (before : (n.socks k).Untouched) : (n'.socks k).Untouched := by
  have elsewhere : ∀ j sock, sockOfArg arg = .ok j →
      ((n.setSock j sock).socks k).Untouched := by
    intro j sock target
    have different : k ≠ j := by
      rintro rfl
      exact other (sockOfArg_eq_ok.mp target)
    simpa [different] using before
  cases p with
  | none =>
      obtain ⟨j, target, rest⟩ := bind_eq_ok.mp result
      obtain rfl := Except.ok.inj rest
      exact elsewhere j _ target
  | some p =>
      rw [onRecv] at result
      split at result
      · obtain ⟨pbufs, _, rest⟩ := bind_eq_ok.mp result
        obtain rfl := Except.ok.inj rest
        exact before
      · obtain ⟨j, target, rest⟩ := bind_eq_ok.mp result
        split at rest
        · obtain ⟨pbufs, _, rest⟩ := bind_eq_ok.mp rest
          obtain rfl := Except.ok.inj rest
          exact before
        · obtain rfl := Except.ok.inj rest
          exact elsewhere j _ target

theorem arrive_untouched {b : Pcb} {segments : List Segment}
    (result : n.arrive b segments = .ok n') (other : b.recv = true → b.arg ≠ some k)
    (before : (n.socks k).Untouched) : (n'.socks k).Untouched := by
  rw [arrive] at result
  split at result
  · obtain rfl := Except.ok.inj result
    exact before
  · split at result
    next recv =>
      obtain ⟨middle, received, rest⟩ := bind_eq_ok.mp result
      have after := onRecv_untouched received (other recv) before
      split at rest
      · obtain rfl := Except.ok.inj rest
        exact after
      · obtain rfl := Except.ok.inj rest
        exact after
    · obtain ⟨pbufs, _, rest⟩ := bind_eq_ok.mp result
      obtain rfl := Except.ok.inj rest
      exact before

theorem consume_socks {j : Fin 16} {p : Nat} {b : Pbuf} {off : UInt16}
    (result : n.consume j p b off = .ok n') (different : k ≠ j) :
    n'.socks k = n.socks k := by
  rw [consume] at result
  split at result
  · obtain ⟨pbufs, _, rest⟩ := bind_eq_ok.mp result
    obtain rfl := Except.ok.inj rest
    simp [different]
  · obtain rfl := Except.ok.inj result
    simp [different]

theorem bsockRead_socks {j : Fin 16} {p : Nat} {len : UInt64} {reply : Reply}
    (result : n.bsockRead j p len = .ok (reply, n')) (different : k ≠ j) :
    n'.socks k = n.socks k := by
  obtain ⟨b, _, rest⟩ := bind_eq_ok.mp result
  obtain ⟨consumed, consumes, rest⟩ := bind_eq_ok.mp rest
  obtain ⟨credited, credits, rest⟩ := bind_eq_ok.mp rest
  obtain ⟨_, rfl⟩ := Prod.mk.inj (Except.ok.inj rest)
  have same := consume_socks consumes different
  rcases credit_eq_ok credits with ⟨rfl, _⟩ | rfl
  · exact same
  · exact same

namespace Dry

theorem boot : State.boot.Dry := fun _ used => absurd rfl used

/-- One socket is changed, with its control block and new control blocks. -/
theorem edit (dry : n.Dry) (owned : Owned n) (k : Fin 16)
    (others : ∀ j ≠ k, (n'.socks j).state = (n.socks j).state ∧
      (n'.socks j).pcb = (n.socks j).pcb ∧ (n'.socks j).rxHead = (n.socks j).rxHead ∧
      (n'.socks j).eof = (n.socks j).eof)
    (kept : ∀ p < n.tcp.fresh, (n.socks k).pcb ≠ some p → n'.tcp.pcbs p = n.tcp.pcbs p)
    (mine : (n'.socks k).state ≠ .free → n'.Unconnected k → (n'.socks k).Untouched) :
    n'.Dry := by
  intro j used unconnected
  by_cases here : j = k
  · exact here ▸ mine (here ▸ used) (here ▸ unconnected)
  · obtain ⟨state, pcb, head, eof⟩ := others j here
    rw [Bsock.Untouched, head, eof]
    refine dry j (state ▸ used) ?_
    rw [Unconnected, state, pcb] at unconnected
    refine unconnected.imp_right ?_
    rintro ⟨p, b, has, stored, notReceives⟩
    have old := (owned.slots j).below p has
    have notMine : (n.socks k).pcb ≠ some p := fun also =>
      here (owned.distinct j k p has also)
    exact ⟨p, b, has, kept p old notMine ▸ stored, notReceives⟩

theorem agree (dry : n.Dry) (state : ∀ k, (n'.socks k).state = (n.socks k).state)
    (pcb : ∀ k, (n'.socks k).pcb = (n.socks k).pcb)
    (rx : ∀ k, (n.socks k).Untouched → (n'.socks k).Untouched)
    (alike : n.tcp.Alike n'.tcp) : n'.Dry := by
  intro k used unconnected
  refine rx k (dry k (state k ▸ used) ?_)
  rw [Unconnected, state, pcb] at unconnected
  refine unconnected.imp_right ?_
  rintro ⟨p, b', has, stored, notReceives⟩
  obtain ⟨b, before, same⟩ := alike.old p b' stored
  refine ⟨p, b, has, before, ?_⟩
  rwa [Pcb.Receives, same.state] at notReceives

theorem data {input : Input} (dry : s.net.Dry) (owned : Owned s.net)
    (control : s.net.Control n') (moves : s.Moves input n') : n'.Dry := by
  intro k used unconnected
  rw [(control.socks k).state] at used
  have before : s.net.Unconnected k := by
    rwa [Unconnected, control.tcp, (control.socks k).state, (control.socks k).pcb]
      at unconnected
  have untouched := dry k used before
  cases moves with
  | arrive stored receives result =>
      exact arrive_untouched result
        (fun recv arg => not_unconnected owned stored receives recv arg before) untouched
  | fin stored receives recv result =>
      exact onRecv_untouched result
        (fun arg => not_unconnected owned stored receives recv arg before) untouched
  | @read j p len reply _ _ head result =>
      have different : k ≠ j := by
        rintro rfl
        exact absurd (untouched.1.symm.trans head) nofun
      rwa [bsockRead_socks result different]

theorem step {input : Input} (dry : s.net.Dry) (owned : Owned s.net)
    (inUse : ∀ k, s.Uses k input → (s.net.socks k).state ≠ .free)
    (effect : Effect s input n') : n'.Dry := by
  cases effect with
  | quiet alike => exact dry.agree (fun _ => rfl) (fun _ => rfl) (fun _ => id) alike
  | data control moves => exact dry.data owned control moves
  | @reset k _ free =>
      refine dry.edit owned k (fun j different => ?_) (fun _ _ _ => rfl) fun _ _ => ?_
      all_goals simp_all [State.resetSock, Bsock.zero]
  | @socket k _ free =>
      refine dry.edit owned k (fun j different => ?_) (fun p old _ => ?_) fun _ _ => ?_
      · simp [different]
      · exact Tcp.pcbs_alloc_of_lt s.net.tcp _ old
      · simp [Bsock.zero, Bsock.Untouched]
  | @listen k p b listener uses pcb stored closed listens =>
      have untouched := dry k (inUse k uses) (.inr ⟨p, b, pcb, stored, by
        simp [Pcb.Receives, closed]⟩)
      refine dry.edit owned k (fun j different => ?_) (fun q old notMine => ?_) fun _ _ => ?_
      · simp [different]
      · exact (Tcp.pcbs_alloc_of_lt (s.net.tcp.free p) _ old).trans
          (Tcp.pcbs_free_of_notMine pcb notMine s.net.tcp)
      · simpa [Bsock.Untouched] using untouched
  | @accept l accepts =>
      refine dry.agree (fun j => s.net.state_handOut l _ j) (fun j => ?_) (fun j => ?_) (.refl _)
      all_goals
        by_cases here : j = l
        · rw [here, s.net.socks_handOut_self]
          first | rfl | exact id
        · rw [s.net.socks_handOut_of_ne _ here]
          try exact id
  | @connect k p b b' state uses pcb stored connection serves _ outcome =>
      refine dry.edit owned k (fun j different => ?_) (fun q old notMine => ?_)
        fun _ unconnected => ?_
      · simp [different]
      · exact Tcp.pcbs_set_of_notMine pcb notMine s.net.tcp _
      · have notReceives : ¬b.Receives := by
          rcases outcome with ⟨closed, _⟩ | ⟨same, _, rfl⟩
          · simp [Pcb.Receives, closed]
          · simpa [Unconnected, pcb, Tcp.set, Pcb.Receives, same] using unconnected
        have untouched := dry k (inUse k uses) (.inr ⟨p, b, pcb, stored, notReceives⟩)
        simpa [Bsock.Untouched] using untouched
  | @unconnected k uses pcb =>
      refine dry.edit owned k (fun j different => ?_) (fun _ _ _ => rfl) fun _ unconnected => ?_
      · simp [different]
      · simp [Unconnected, pcb] at unconnected
  | @close k tcp pbufs closes releases =>
      refine dry.edit owned k (fun j different => ?_) (fun q old notMine => ?_)
        fun used _ => absurd (by simp) used
      · simp [different]
      · exact releases.pcbs_of_notMine notMine
  | @silent p b _ stored =>
      intro k used unconnected
      refine dry k used (unconnected.imp_right ?_)
      rintro ⟨q, c, has, found, notReceives⟩
      have different : q ≠ p := by
        rintro rfl
        simp [Tcp.free] at found
      exact ⟨q, c, has, by simpa [Tcp.free, different] using found, notReceives⟩
  | @lost p b k _ stored errf arg =>
      obtain ⟨_, pcb, _⟩ := owned.owner stored (.inr (.inl errf)) arg
      refine dry.edit owned k (fun j different => ?_) (fun q old notMine => ?_)
        fun _ unconnected => ?_
      · simp [different]
      · exact Tcp.pcbs_free_of_notMine pcb notMine s.net.tcp
      · simp [Unconnected] at unconnected
  | @established p b stored synSent noCallback =>
      have callback := (owned.pcbs p b stored).connected synSent
      exact absurd (noCallback.symm.trans callback) (by simp)
  | @connected p b k stored synSent callback arg =>
      obtain ⟨_, pcb, _⟩ := owned.owner stored (.inr (.inr (.inr ⟨synSent, callback⟩))) arg
      refine dry.edit owned k (fun j different => ?_) (fun q old notMine => ?_)
        fun _ unconnected => ?_
      · simp [different]
      · exact Tcp.pcbs_set_of_notMine pcb notMine s.net.tcp _
      · simp [Unconnected, pcb, Tcp.set, Pcb.Receives] at unconnected
  | @offered q b new l k taken stored listening accept arg room free state serves isTaken =>
      obtain ⟨_, apart⟩ := owned.listener stored listening accept arg free
      have view := offered_of_ne apart isTaken
      refine dry.edit owned k (fun j different => ?_) (fun p old _ => ?_) fun _ _ => ?_
      · by_cases isListener : j = l
        · rw [isListener, view.listener]
          exact ⟨rfl, rfl, rfl, rfl⟩
        · rw [view.others j isListener different]
          exact ⟨rfl, rfl, rfl, rfl⟩
      · simp [isTaken, resetSock, Tcp.alloc, Nat.ne_of_lt old]
      · rw [view.slot]
        exact ⟨rfl, rfl⟩

end Dry

end State

/-! ## What each call needs of the control block -/

/-- The control block of a socket has been freed. -/
def State.Gone (n : State) (k : Fin 16) : Prop :=
  ∃ p, (n.socks k).pcb = some p ∧ n.tcp.pcbs p = none

/-- A freed control block is used. -/
def State.FreedFault (n : State) (k : Fin 16) (fault : Fault) : Prop :=
  fault = .freedPcb ∧ n.Gone k

/-- A freed control block is used, or a listening one as a connection. -/
def State.PcbFault (n : State) (k : Fin 16) (fault : Fault) : Prop :=
  n.FreedFault k fault ∨ fault = .listeningPcb ∧ (n.socks k).state = .listening

namespace Tcp

variable {t : Tcp} {p : Nat} {b : Pcb}

theorem get_of_stored (stored : t.pcbs p = some b) : t.get p = .ok b := get_eq_ok.mpr stored

theorem get_of_gone (gone : t.pcbs p = none) : t.get p = .error .freedPcb := by
  rw [get, gone]

theorem tcpArg_of_gone (gone : t.pcbs p = none) (arg : Option (Fin 16)) :
    t.tcpArg (some p) arg = .error .freedPcb := by
  simp [tcpArg, get_of_gone gone, bind, Except.bind]

theorem tcpArg_of_stored (stored : t.pcbs p = some b) (arg : Option (Fin 16)) :
    t.tcpArg (some p) arg = .ok (t.set p { b with arg }) :=
  tcpArg_eq_ok.mpr ⟨b, stored, rfl⟩

theorem tcpRecv_set (t : Tcp) (p : Nat) (b : Pcb) (on : Bool) :
    (t.set p b).tcpRecv (some p) on =
      if b.state = .listen then .error .listeningPcb
      else .ok (t.set p { b with recv := on }) := by
  simp [tcpRecv, register, get_of_stored (pcbs_set _ _ _), set_set, bind, Except.bind]

theorem tcpErr_set (t : Tcp) (p : Nat) (b : Pcb) (on : Bool) :
    (t.set p b).tcpErr (some p) on =
      if b.state = .listen then .error .listeningPcb
      else .ok (t.set p { b with errf := on }) := by
  simp [tcpErr, register, get_of_stored (pcbs_set _ _ _), set_set, bind, Except.bind]

/-- The callbacks of a connection that is there can be registered. -/
theorem callbacks_fails {α : Type} {allowed : Fault → Prop} {arg : Option (Fin 16)}
    {next : Tcp → Except Fault α} (stored : t.pcbs p = some b) (connection : b.state ≠ .listen)
    (rest : FailsOnly allowed (next (t.set p { b with arg, recv := true, errf := true }))) :
    FailsOnly allowed (do
      let t ← t.tcpArg (some p) arg
      let t ← t.tcpRecv (some p) true
      let t ← t.tcpErr (some p) true
      next t) := by
  simpa [tcpArg_of_stored stored, tcpRecv_set, tcpErr_set, connection, bind, Except.bind]
    using rest

theorem connection_of_stored (stored : t.pcbs p = some b) (connection : b.state ≠ .listen) :
    t.connection p = .ok b :=
  connection_eq_ok.mpr ⟨stored, connection⟩

theorem connection_of_listen (stored : t.pcbs p = some b) (listening : b.state = .listen) :
    t.connection p = .error .listeningPcb := by
  simp [connection, get_of_stored stored, listening, bind, Except.bind]

theorem connection_of_gone (gone : t.pcbs p = none) :
    t.connection p = .error .freedPcb := by
  simp [connection, get_of_gone gone, bind, Except.bind]

theorem tcpBind_of_stored (stored : t.pcbs p = some b) (ip : UInt32) (port : UInt16)
    (found : Option UInt16) : ∃ result, t.tcpBind (some p) ip port found = .ok result := by
  simp only [tcpBind, get_of_stored stored, bind, Except.bind]
  split
  · exact ⟨_, rfl⟩
  · cases found with
    | none => exact ⟨_, rfl⟩
    | some port => exact ⟨_, rfl⟩

theorem tcpListenWithBacklog_of_stored (stored : t.pcbs p = some b) (memory : Bool) :
    ∃ result, t.tcpListenWithBacklog (some p) memory = .ok result := by
  simp only [tcpListenWithBacklog, get_of_stored stored, bind, Except.bind]
  split
  · exact ⟨_, rfl⟩
  · split
    · exact ⟨_, rfl⟩
    · exact ⟨_, rfl⟩

theorem tcpConnect_of_stored (stored : t.pcbs p = some b) (ip : UInt32) (port : UInt16)
    (answer : ConnectAnswer) :
    ∃ result, t.tcpConnect (some p) ip port answer = .ok result := by
  simp only [tcpConnect, get_of_stored stored, bind, Except.bind]
  split
  · exact ⟨_, rfl⟩
  · cases answer with
    | noRoute => exact ⟨_, rfl⟩
    | noMemory localIp localPort => exact ⟨_, rfl⟩
    | sent localIp localPort => exact ⟨_, rfl⟩

theorem tcpWrite_of_stored (stored : t.pcbs p = some b) (connection : b.state ≠ .listen)
    (data : List UInt8) (answer : ErrT) :
    ∃ result, t.tcpWrite p data answer = .ok result := by
  simp only [tcpWrite, connection_of_stored stored connection, bind, Except.bind]
  split
  · exact ⟨_, rfl⟩
  · split
    · exact ⟨_, rfl⟩
    · exact ⟨_, rfl⟩

theorem tcpClose_of_stored (stored : t.pcbs p = some b) (answer : CloseAnswer) :
    ∃ result, t.tcpClose p answer = .ok result ∧
      (result.1 = false → result.2 = t ∧ b.state = .established) := by
  simp only [tcpClose, get_of_stored stored, bind, Except.bind]
  cases state : b.state with
  | closed | listen | synSent | closing => exact ⟨_, rfl, nofun⟩
  | established =>
      cases answer with
      | reset | fin => exact ⟨_, rfl, nofun⟩
      | failed => exact ⟨_, rfl, fun _ => ⟨rfl, rfl⟩⟩

end Tcp

namespace State

variable {n : State} {k : Fin 16} {answers : Answers}

theorem netShimSocket_fails (domain type : UInt64) :
    FailsOnly (fun _ => False) (n.netShimSocket domain type answers) := by
  rw [netShimSocket]
  split
  · exact .ok _
  · split
    · exact .ok _
    · cases answers.newPcb with
      | false =>
          simp only [Tcp.tcpNew]
          exact .ok _
      | true =>
          simp only [Tcp.tcpNew, if_true]
          exact .bind (.of_eq_ok (Tcp.tcpArg_of_stored (Tcp.pcbs_alloc _ _) _)) fun _ _ => .ok _

theorem readyStep_fails (domain type : UInt64) :
    FailsOnly (fun _ => False) (n.readyStep domain type answers) := by
  rw [readyStep]
  split
  · exact .bind (netShimSocket_fails domain type) fun _ _ => .ok _
  · exact .ok _

/-- A call that needs no more than that the control block of the socket is not gone. -/
theorem pcb_fails {α : Type} (call : Option Nat → Except Fault α)
    (null : ∃ result, call none = .ok result)
    (gone : ∀ p, n.tcp.pcbs p = none → FailsOnly (· = .freedPcb) (call (some p)))
    (alive : ∀ p b, n.tcp.pcbs p = some b → ∃ result, call (some p) = .ok result) :
    FailsOnly (n.FreedFault k) (call (n.socks k).pcb) := by
  cases pcb : (n.socks k).pcb with
  | none =>
      obtain ⟨result, succeeds⟩ := null
      exact .of_eq_ok succeeds
  | some p =>
      cases stored : n.tcp.pcbs p with
      | none => exact (gone p stored).mono fun _ freed => ⟨freed, p, pcb, stored⟩
      | some b =>
          obtain ⟨result, succeeds⟩ := alive p b stored
          exact .of_eq_ok succeeds

theorem netShimBind_fails (addrlen : UInt64) (ip : UInt32) (port : UInt16) :
    FailsOnly (n.FreedFault k) (n.netShimBind k addrlen ip port answers) := by
  rw [netShimBind]
  split
  · exact .ok _
  · refine .bind (pcb_fails (n.tcp.tcpBind · ip port answers.port) ⟨_, rfl⟩
      (fun p gone => .bind_error (Tcp.get_of_gone gone) rfl) fun p b stored => ?_)
      fun _ _ => .ok _
    exact Tcp.tcpBind_of_stored stored ip port answers.port

theorem netShimListen_fails : FailsOnly (n.FreedFault k) (n.netShimListen k answers) := by
  refine .bind (pcb_fails (n.tcp.tcpListenWithBacklog · answers.listenPcb) ⟨_, rfl⟩
    (fun p gone => .bind_error (Tcp.get_of_gone gone) rfl) fun p b stored => ?_) ?_
  · exact Tcp.tcpListenWithBacklog_of_stored stored answers.listenPcb
  · intro result listened
    rcases Tcp.tcpListenWithBacklog_eq_ok listened with rfl | ⟨p, b, _, _, _, rfl⟩
    · exact .ok _
    · have registered := Tcp.tcpArg_of_stored (Tcp.pcbs_alloc (n.tcp.free p) { Pcb.new with
        state := .listen, arg := b.arg, localIp := b.localIp, localPort := b.localPort }) (some k)
      refine .bind (.of_eq_ok registered) fun tcp same => ?_
      obtain rfl := Except.ok.inj (registered.symm.trans same)
      refine .bind (.bind (.of_eq_ok (Tcp.get_of_stored (Tcp.pcbs_set _ _ _))) fun c _ => ?_)
        fun _ _ => .ok _
      split
      · exact .ok _
      · exact .ok _

theorem netShimConnect_fails (owned : Owned n) (used : (n.socks k).state ≠ .free)
    (addrlen : UInt64) (ip : UInt32) (port : UInt16) :
    FailsOnly (n.PcbFault k) (n.netShimConnect k addrlen ip port answers) := by
  rw [netShimConnect]
  split
  · exact .ok _
  · cases pcb : (n.socks k).pcb with
    | none => exact .ok _
    | some p =>
        cases stored : n.tcp.pcbs p with
        | none => exact .bind_error (Tcp.tcpArg_of_gone stored _) (.inl ⟨rfl, p, pcb, stored⟩)
        | some b =>
            have fits := ((owned.slots k).owns p b used pcb stored).2
            by_cases listening : b.state = .listen
            · refine .bind (.of_eq_ok (Tcp.tcpArg_of_stored stored _)) fun withArg setsArg => ?_
              obtain ⟨c, found, rfl⟩ := Tcp.tcpArg_eq_ok.mp setsArg
              obtain rfl := Option.some.inj (stored.symm.trans found)
              rw [Tcp.tcpRecv_set, if_pos listening]
              exact .bind_error rfl (.inr ⟨rfl, fits.listen_iff.mp listening⟩)
            · refine Tcp.callbacks_fails stored listening ?_
              obtain ⟨connected, connects⟩ :=
                Tcp.tcpConnect_of_stored (Tcp.pcbs_set n.tcp p _) ip port answers.connect
              refine .bind (.of_eq_ok connects) fun result _ => ?_
              split
              · exact .ok _
              · exact .ok _

/-- The control block of a socket is used as a connection. -/
theorem CreditFault.pcbFault {fault : Fault} (owned : Owned n)
    (used : (n.socks k).state ≠ .free) (credit : n.CreditFault k fault) :
    n.PcbFault k fault := by
  obtain ⟨p, pcb, ⟨rfl, gone⟩ | ⟨rfl, b, stored, listening⟩⟩ := credit
  · exact .inl ⟨rfl, p, pcb, gone⟩
  · have fits := ((owned.slots k).owns p b used pcb stored).2
    exact .inr ⟨rfl, fits.listen_iff.mp listening⟩

theorem bsockWrite_fails (owned : Owned n) (used : (n.socks k).state ≠ .free)
    (data : List UInt8) : FailsOnly (n.PcbFault k) (n.bsockWrite k data answers) := by
  rw [bsockWrite]
  split
  · exact .ok _
  next p pcb =>
    split
    · exact .ok _
    · have connects : FailsOnly (n.PcbFault k) (n.tcp.connection p) :=
        connection_fails.mono fun fault cause => CreditFault.pcbFault owned used ⟨p, pcb, cause⟩
      refine .bind connects fun b connected => ?_
      obtain ⟨stored, connection⟩ := Tcp.connection_eq_ok.mp connected
      split
      · exact .ok _
      · obtain ⟨written, writes⟩ := Tcp.tcpWrite_of_stored stored connection
          (data.take (min (min data.length answers.sndbuf.toNat) 65535)) answers.write
        refine .bind (.of_eq_ok writes) fun result _ => ?_
        split
        · exact .ok _
        · split
          · exact .ok _
          · exact .ok _

theorem sendStep_fails (owned : Owned n) (used : (n.socks k).state ≠ .free)
    (data : List UInt8) : FailsOnly (n.PcbFault k) (n.sendStep k data answers) := by
  refine .bind (bsockWrite_fails owned used data) fun result _ => ?_
  split
  · exact .ok _
  · split
    · exact .ok _
    · exact .ok _

/-- A socket that has received something has a connection to credit. -/
theorem recvStep_fails (owned : Owned n) (dry : n.Dry) {items : Fin 16 → List (Nat × List UInt8)}
    (received : Received n items) (used : (n.socks k).state ≠ .free) (len : UInt64) :
    FailsOnly (fun _ => False) (n.recvStep k len) := by
  rw [recvStep]
  split
  next p head =>
    refine .bind ((received.read_fails head len).mono fun fault cause => ?_) fun _ _ => .ok _
    have unconnected : n.Unconnected k := by
      obtain ⟨q, pcb, ⟨_, gone⟩ | ⟨_, b, stored, listening⟩⟩ := cause
      · exact .inl ((owned.slots k).gone q used pcb gone)
      · exact .inr ⟨q, b, pcb, stored, by simp [Pcb.Receives, listening]⟩
    exact absurd ((dry k used unconnected).1.symm.trans head) (by simp)
  · split
    · exact .ok _
    · split
      · exact .ok _
      · exact .ok _

theorem tcpAbort_of_stored {p : Nat} {b : Pcb} (stored : n.tcp.pcbs p = some b)
    (connection : b.state ≠ .listen) (target : b.errf = true → ∃ k, b.arg = some k) :
    ∃ n', n.tcpAbort p = .ok n' := by
  simp only [tcpAbort, Tcp.connection_of_stored stored connection, bind, Except.bind]
  split
  next errf =>
    obtain ⟨k, arg⟩ := target errf
    simp [onErr, sockOfArg, arg, bind, Except.bind]
  · exact ⟨_, rfl⟩

/-- The callbacks of a connection that is still there can be taken away. -/
theorem silence_of_fits {sock : Bsock} {p : Nat} {b : Pcb} (fits : b.Fits sock.state) :
    ∃ b', sock.silence p (n.tcp.set p { b with arg := none }) = .ok (n.tcp.set p b') ∧
      b'.state = b.state ∧ (b.state ≠ .listen → b'.errf = false) := by
  rw [Bsock.silence]
  split
  next listening =>
    have state := fits.listen_iff.mpr listening
    refine ⟨{ b with arg := none, accept := false }, ?_, rfl, fun other => absurd state other⟩
    simp [Tcp.tcpAccept, Tcp.get_of_stored (Tcp.pcbs_set _ _ _), state, Tcp.set_set, bind,
      Except.bind]
  next other =>
    have connection : b.state ≠ .listen := mt fits.listen_iff.mp other
    refine ⟨{ b with arg := none, recv := false, errf := false }, ?_, rfl, fun _ => rfl⟩
    simp [Tcp.tcpRecv_set, Tcp.tcpErr_set, connection, bind, Except.bind]

theorem closePcb_fails (owned : Owned n) (used : (n.socks k).state ≠ .free) :
    FailsOnly (n.FreedFault k) (n.closePcb k answers) := by
  rw [closePcb]
  split
  · exact .ok _
  next p pcb =>
    cases stored : n.tcp.pcbs p with
    | none => exact .bind_error (Tcp.tcpArg_of_gone stored _) ⟨rfl, p, pcb, stored⟩
    | some b =>
        have fits := ((owned.slots k).owns p b used pcb stored).2
        have registered := Tcp.tcpArg_of_stored stored none
        refine .bind (.of_eq_ok registered) fun withArg setsArg => ?_
        obtain rfl := Except.ok.inj (registered.symm.trans setsArg)
        obtain ⟨b', silences, state, silent⟩ := silence_of_fits fits
        refine .bind (.of_eq_ok silences) fun silenced same => ?_
        obtain rfl := Except.ok.inj (silences.symm.trans same)
        obtain ⟨result, closes, failed⟩ :=
          Tcp.tcpClose_of_stored (Tcp.pcbs_set n.tcp p b') answers.close
        refine .bind (.of_eq_ok closes) fun closed same => ?_
        obtain rfl := Except.ok.inj (closes.symm.trans same)
        split
        · exact .ok _
        next notClosed =>
          -- Only an established connection cannot be closed, and that can be aborted.
          obtain ⟨unchanged, established⟩ := failed (by simpa using notClosed)
          have connection : b'.state ≠ .listen := by simp [established]
          have noCallback := silent (state ▸ connection)
          obtain ⟨n', aborts⟩ := tcpAbort_of_stored (n := { n with tcp := result.2 })
            (unchanged ▸ Tcp.pcbs_set n.tcp p b') connection
            (fun callback => absurd (noCallback.symm.trans callback) (by simp))
          exact .of_eq_ok aborts

theorem netShimClose_fails (owned : Owned n) {items : Fin 16 → List (Nat × List UInt8)}
    (received : Received n items) (used : (n.socks k).state ≠ .free) :
    FailsOnly (n.FreedFault k) (n.netShimClose k answers) := by
  refine .bind (closePcb_fails owned used) fun closed closes => ?_
  obtain ⟨tcp, rfl, _⟩ := closePcb_eq_ok closes
  exact .bind (.of_eq_ok (received.drain k)) fun _ _ => .ok _

theorem onAccept_fails {arg : Option (Fin 16)} {p : Nat} {b : Pcb}
    (stored : n.tcp.pcbs p = some b) (connection : b.state ≠ .listen) (target : ∃ k, arg = some k) :
    FailsOnly (fun _ => False) (n.onAccept arg (some p) .ok) := by
  obtain ⟨l, rfl⟩ := target
  rw [onAccept, if_neg (by simp)]
  refine .bind (.ok l) fun _ _ => ?_
  split
  · exact .ok _
  · split
    · exact .ok _
    · exact Tcp.callbacks_fails stored connection (.ok _)

theorem offer_fails {b : Pcb} (target : b.accept = true → ∃ k, b.arg = some k)
    (remoteIp : UInt32) (remotePort : UInt16) :
    FailsOnly (fun _ => False) (n.offer b remoteIp remotePort) := by
  have refused : ∀ c : Pcb, c.state ≠ .listen → c.errf = false →
      FailsOnly (fun _ => False)
        ({ n with tcp := (n.tcp.alloc c).2 }.tcpAbort n.tcp.fresh) := by
    intro c connection errf
    obtain ⟨n', aborts⟩ := tcpAbort_of_stored (n := { n with tcp := (n.tcp.alloc c).2 })
      (Tcp.pcbs_alloc n.tcp c) connection
      fun callback => absurd (errf.symm.trans callback) (by simp)
    exact .of_eq_ok aborts
  rw [offer]
  split
  next accept =>
    refine .bind (onAccept_fails (Tcp.pcbs_alloc _ _) (by simp) (target accept))
      fun result taken => ?_
    split
    · exact .ok _
    next notTaken =>
      rw [onAccept_refused taken notTaken]
      exact refused _ (by simp) rfl
  · exact refused _ (by simp) rfl

/-- lwIP does nothing wrong by itself. -/
theorem dispatch_fails (owned : Owned n) {items : Fin 16 → List (Nat × List UInt8)}
    (received : Received n items) (event : Event) :
    FailsOnly (fun _ => False) (n.dispatch event) := by
  have target : ∀ {p : Nat} {b : Pcb}, n.tcp.pcbs p = some b → b.Registered →
      ∃ k, b.arg = some k ∧ (n.socks k).state ≠ .free := by
    intro p b stored registered
    obtain ⟨k, arg, used, _⟩ := (owned.pcbs p b stored).registered registered
    exact ⟨k, arg, used⟩
  cases event with
  | recv p segments =>
      rw [dispatch]
      split
      · exact .ok _
      next b stored =>
        split
        · obtain ⟨n', _, _, arrives, _⟩ :=
            received.arrive segments fun recv => target stored (.inl recv)
          exact .of_eq_ok arrives
        · exact .ok _
  | fin p =>
      rw [dispatch]
      split
      · exact .ok _
      next b stored =>
        split
        next receives =>
          obtain ⟨k, arg, _⟩ := target stored (.inl receives.2)
          rw [arg]
          exact .ok _
        · exact .ok _
  | abort p =>
      rw [dispatch]
      split
      · exact .ok _
      next b stored =>
        split
        next abortable =>
          obtain ⟨n', aborts⟩ := tcpAbort_of_stored stored abortable.1 fun errf =>
            (target stored (.inr (.inl errf))).imp fun _ => And.left
          exact .of_eq_ok aborts
        · exact .ok _
  | connected p =>
      rw [dispatch]
      split
      · exact .ok _
      next b stored =>
        split
        next synSent =>
          split
          next callback =>
            obtain ⟨k, arg, _⟩ := target stored (.inr (.inr (.inr ⟨synSent, callback⟩)))
            rw [arg]
            exact .ok _
          · exact .ok _
        · exact .ok _
  | accept p remoteIp remotePort =>
      rw [dispatch]
      split
      · exact .ok _
      next b stored =>
        split
        next listening =>
          exact offer_fails (fun accept =>
            (target stored (.inr (.inr (.inl ⟨listening, accept⟩)))).imp fun _ => And.left) _ _
        · exact .ok _
  | acceptFailed p =>
      rw [dispatch]
      split
      · exact .ok _
      · split
        · exact .ok _
        · exact .ok _

theorem acceptStep_fails (owned : Owned n) (queued : Queued n)
    (used : (n.socks k).state ≠ .free) (addr : Bool) (addrlen : Option UInt32) :
    FailsOnly (fun fault => fault = .nullPointer ∧ n.LostPeer k (usableAddr addr addrlen))
      (n.acceptStep k addr addrlen) := by
  by_cases lost : n.LostPeer k (usableAddr addr addrlen)
  · rw [acceptStep_faults lost]
    exact .error ⟨rfl, lost⟩
  · obtain ⟨result, served, _⟩ := acceptStep_answers owned queued used lost
    exact .of_eq_ok served

end State

/-! ## What goes wrong in a step -/

/-- The step uses a listening socket as a connection. -/
def Shim.Misuses (s : Shim) : Input → Prop
  | .call (.connect fd addrlen _ _) _ _ =>
      s.waiting = none ∧ ¬addrlen < 16 ∧
        ∃ k, State.sockOfFd fd = .ok k ∧ (s.net.socks k).state = .listening
  | .call (.send fd data) _ _ =>
      s.waiting = none ∧ data ≠ [] ∧
        ∃ k, State.sockOfFd fd = .ok k ∧ (s.net.socks k).state = .listening
  | .tick now _ =>
      ∃ k data start, s.waiting = some (.send k data, start) ∧ ¬now - start ≥ 30000 ∧
        (s.net.socks k).state = .listening
  | _ => False

/-- How a step may come to a fault. -/
def Shim.Breaks (s : Shim) (input : Input) : Fault → Prop
  | .nullPointer => ∃ k, s.Accepts k input ∧ s.net.LostPeer k true
  | .freedPcb => ∃ k, s.Uses k input ∧ s.net.Gone k
  | .listeningPcb => s.Misuses input
  | _ => False

structure Shim.Healthy (s : Shim) : Prop where
  orderly : s.Orderly
  received : ∃ items, Received s.net items
  dry : s.net.Dry

namespace Shim

variable {s : Shim} {input : Input} {k : Fin 16}

theorem Healthy.used (healthy : s.Healthy) (disciplined : s.HeldOnly input) (k : Fin 16)
    (uses : s.Uses k input) : (s.net.socks k).state ≠ .free :=
  healthy.orderly.queued.held k (healthy.orderly.held disciplined k uses)

theorem Healthy.boot : Shim.boot.Healthy := ⟨.boot, ⟨_, .boot⟩, .boot⟩

theorem Healthy.step {result : Option Reply × Shim} (healthy : s.Healthy)
    (disciplined : s.HeldOnly input) (stepped : s.step input = .ok result) :
    result.2.Healthy := by
  have effect := Effect.of_step stepped
  obtain ⟨orderly, ⟨items, received⟩, dry⟩ := healthy
  have used : ∀ k, s.Uses k input → (s.net.socks k).state ≠ .free := fun k uses =>
    orderly.queued.held k (orderly.held disciplined k uses)
  exact ⟨orderly.step disciplined stepped, received.step orderly.owned used effect,
    dry.step orderly.owned used effect⟩

theorem Healthy.run {inputs : List Input} (disciplined : Guarded HeldOnly inputs) :
    Holds Healthy (shim.run (.ok .boot) inputs) :=
  run_holds .boot (fun _ _ _ healthy held stepped => healthy.step held stepped) disciplined

theorem Healthy.along {property : Shim → Input → Prop} {inputs : List Input}
    (established : ∀ s input, s.Healthy → s.HeldOnly input → property s input)
    (disciplined : Guarded HeldOnly inputs) : Guarded property inputs :=
  along_holds Healthy.boot (fun _ _ _ healthy held stepped => healthy.step held stepped)
    established disciplined

/-- Two conditions that agree on healthy states are met by the same runs. -/
theorem Healthy.guarded_iff {first second : Shim → Input → Prop} {inputs : List Input}
    (same : ∀ s input, s.Healthy → s.HeldOnly input → (first s input ↔ second s input))
    (disciplined : Guarded HeldOnly inputs) : Guarded first inputs ↔ Guarded second inputs := by
  have agree : Guarded (fun s input => first s input ↔ second s input) inputs :=
    along same disciplined
  constructor
  · exact fun holds => (agree.and holds).mono fun _ _ both => both.1.mp both.2
  · exact fun holds => (agree.and holds).mono fun _ _ both => both.1.mpr both.2

/-- A descriptor the application holds leads to its socket. -/
theorem Healthy.onSock {call : Call} {now : UInt32} {answers : Answers} {fd : Int} {α : Type}
    {allowed : Fault → Prop} {next : Fin 16 → Except Fault α} (healthy : s.Healthy)
    (disciplined : s.HeldOnly (.call call now answers)) (about : call.fd = some fd)
    (rest : ∀ k, State.sockOfFd fd = .ok k → s.Uses k (.call call now answers) →
      (s.net.socks k).state ≠ .free → FailsOnly allowed (next k)) :
    FailsOnly allowed (State.sockOfFd fd >>= next) := by
  have found : ∃ k, State.sockOfFd fd = .ok k := by
    simp only [HeldOnly, about] at disciplined
    obtain ⟨k, is, _⟩ := disciplined
    exact ⟨k, State.sockOfFd_eq_ok.mpr is⟩
  obtain ⟨k, slot⟩ := found
  have uses : s.Uses k (.call call now answers) := ⟨fd, about, slot⟩
  refine .bind (.of_eq_ok slot) fun j same => ?_
  obtain rfl := Except.ok.inj (slot.symm.trans same)
  exact rest k slot uses (healthy.used disciplined k uses)

theorem Breaks.of_freed {fault : Fault} (uses : s.Uses k input)
    (freed : s.net.FreedFault k fault) : s.Breaks input fault := by
  obtain ⟨rfl, gone⟩ := freed
  exact ⟨k, uses, gone⟩

theorem Breaks.of_pcb {fault : Fault} (uses : s.Uses k input)
    (misuses : (s.net.socks k).state = .listening → s.Misuses input)
    (cause : s.net.PcbFault k fault) : s.Breaks input fault := by
  rcases cause with freed | ⟨rfl, listening⟩
  · exact .of_freed uses freed
  · exact misuses listening

theorem Breaks.of_lost {fault : Fault} {wantsPeer : Bool} (accepts : s.Accepts k input)
    (cause : fault = .nullPointer ∧ s.net.LostPeer k wantsPeer) : s.Breaks input fault := by
  obtain ⟨rfl, wants, lost⟩ := cause
  exact ⟨k, accepts, rfl, lost⟩

/-- A fault in a call comes from a connection that was reset while it waited, from a
control block that lwIP freed, or from a listening one used as a connection. -/
theorem enter_fails {call : Call} {now : UInt32} {answers : Answers} (healthy : s.Healthy)
    (idle : s.waiting = none) (disciplined : s.HeldOnly (.call call now answers)) :
    FailsOnly (s.Breaks (.call call now answers)) (s.net.enter answers call) := by
  obtain ⟨items, received⟩ := healthy.received
  have owned := healthy.orderly.owned
  cases call with
  | socket domain type =>
      rw [State.enter]
      split
      · exact ((State.netShimSocket_fails domain type).mono (by simp)).map _
      · exact (State.readyStep_fails domain type).mono (by simp)
  | bind fd addrlen ip port =>
      exact healthy.onSock disciplined rfl fun k _ uses used =>
        ((State.netShimBind_fails addrlen ip port).mono fun _ => .of_freed uses).map _
  | listen fd =>
      exact healthy.onSock disciplined rfl fun k _ uses used =>
        (State.netShimListen_fails.mono fun _ => .of_freed uses).map _
  | accept fd addr addrlen =>
      exact healthy.onSock disciplined rfl fun k slot _ used =>
        (State.acceptStep_fails owned healthy.orderly.queued used addr addrlen).mono
          fun _ => .of_lost slot
  | connect fd addrlen ip port =>
      refine healthy.onSock disciplined rfl fun k slot uses used => ?_
      by_cases short : addrlen < 16
      · rw [State.netShimConnect, if_pos short]
        exact .ok _
      · exact (State.netShimConnect_fails owned used addrlen ip port).mono fun _ =>
          .of_pcb uses fun listening => ⟨idle, short, k, slot, listening⟩
  | recv fd len =>
      refine healthy.onSock disciplined rfl fun k _ uses used => ?_
      split
      · exact .ok _
      · exact (State.recvStep_fails owned healthy.dry received used len).mono (by simp)
  | send fd data =>
      refine healthy.onSock disciplined rfl fun k slot uses used => ?_
      split
      · exact .ok _
      next some =>
        exact (State.sendStep_fails owned used data).mono fun _ =>
          .of_pcb uses fun listening => ⟨idle, some, k, slot, listening⟩
  | close fd =>
      exact healthy.onSock disciplined rfl fun k _ uses used =>
        ((State.netShimClose_fails owned received used).mono fun _ => .of_freed uses).map _

theorem resume_fails {waiting : Waiting} {start now : UInt32} {answers : Answers}
    (healthy : s.Healthy) (polling : s.waiting = some (waiting, start))
    (early : ¬now - start ≥ 30000) :
    FailsOnly (s.Breaks (.tick now answers)) (s.net.resume answers waiting) := by
  obtain ⟨items, received⟩ := healthy.received
  have owned := healthy.orderly.owned
  have uses : ∀ k, waiting.slot = some k → s.Uses k (.tick now answers) :=
    fun k about => ⟨waiting, start, polling, about⟩
  have allowed : s.HeldOnly (.tick now answers) := trivial
  have used : ∀ k, waiting.slot = some k → (s.net.socks k).state ≠ .free :=
    fun k about => healthy.used allowed k (uses k about)
  cases waiting with
  | ready domain type => exact (State.readyStep_fails domain type).mono nofun
  | accept k addr addrlen =>
      exact (State.acceptStep_fails owned healthy.orderly.queued (used k rfl) addr addrlen).mono
        fun _ => .of_lost ⟨addr, addrlen, start, polling⟩
  | connect k => exact .ok _
  | recv k len =>
      exact (State.recvStep_fails owned healthy.dry received (used k rfl) len).mono nofun
  | send k data =>
      exact (State.sendStep_fails owned (used k rfl) data).mono fun _ =>
        .of_pcb (uses k rfl) fun listening => ⟨k, data, start, polling, early, listening⟩

theorem step_fails (healthy : s.Healthy) (disciplined : s.HeldOnly input) :
    FailsOnly (s.Breaks input) (s.step input) := by
  obtain ⟨items, received⟩ := healthy.received
  cases input with
  | call call now answers =>
      rw [step]
      split
      · exact .ok _
      next idle => exact (enter_fails healthy idle disciplined).map _
  | lwip event =>
      exact ((State.dispatch_fails healthy.orderly.owned received event).mono (by simp)).map _
  | tick now answers =>
      rw [step]
      split
      · exact .ok _
      next waiting start polling =>
        split
        · cases waiting with
          | ready domain type =>
              exact (((State.netShimSocket_fails domain type).mono (by simp)).map _).map _
          | _ => exact .ok _
        next early => exact (resume_fails healthy polling early).map _

theorem Healthy.run_fails {allowed : Fault → Prop} {inputs : List Input}
    (weaker : ∀ (s : Shim) input fault, s.Breaks input fault → allowed fault)
    (disciplined : Guarded HeldOnly inputs) :
    FailsOnly allowed (shim.run (.ok .boot) inputs) :=
  Shim.run_fails Healthy.boot (fun _ _ _ healthy held stepped => healthy.step held stepped)
    (fun s input healthy held => (step_fails healthy held).mono (weaker s input)) disciplined

end Shim

end AppPortKit.Net
