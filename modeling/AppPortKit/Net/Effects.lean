import AppPortKit.Foundation.Result
import AppPortKit.Net.Core

/-!
# What a step does

Every step of the socket layer has one of the effects listed in `Effect`.  Invariants
are proved once for each effect, not for each function.
-/

namespace AppPortKit.Net

open Fallible

/-! ## Control blocks -/

/-- Two states of a control block with the same callbacks. -/
structure Pcb.Alike (b b' : Pcb) : Prop where
  state : b'.state = b.state
  arg : b'.arg = b.arg
  recv : b'.recv = b.recv
  errf : b'.errf = b.errf
  accept : b'.accept = b.accept
  connected : b'.connected = b.connected

theorem Pcb.Alike.refl (b : Pcb) : b.Alike b := ⟨rfl, rfl, rfl, rfl, rfl, rfl⟩

/-- The same control blocks, with the same callbacks. -/
structure Tcp.Alike (t t' : Tcp) : Prop where
  fresh : t.fresh ≤ t'.fresh
  old : ∀ p b', t'.pcbs p = some b' → ∃ b, t.pcbs p = some b ∧ b.Alike b'
  kept : ∀ p b, p < t.fresh → t.pcbs p = some b → ∃ b', t'.pcbs p = some b'

namespace Tcp

variable {t t' : Tcp} {p : Nat} {b : Pcb}

theorem Alike.refl (t : Tcp) : t.Alike t :=
  ⟨le_rfl, fun _ b stored => ⟨b, stored, .refl b⟩, fun _ b _ stored => ⟨b, stored⟩⟩

theorem alike_set (stored : t.pcbs p = some b) {b' : Pcb} (alike : b.Alike b') :
    t.Alike (t.set p b') := by
  refine ⟨le_rfl, fun q c found => ?_, fun q c _ found => ?_⟩
  · by_cases same : q = p
    · subst same
      obtain rfl : b' = c := by simpa [set] using found
      exact ⟨b, stored, alike⟩
    · exact ⟨c, by simpa [set, same] using found, .refl c⟩
  · by_cases same : q = p
    · subst same
      exact ⟨b', by simp [set]⟩
    · exact ⟨c, by simpa [set, same] using found⟩

/-- A control block that is made and given up at once. -/
theorem alike_alloc_free (t : Tcp) (b : Pcb) : t.Alike ((t.alloc b).2.free t.fresh) := by
  refine ⟨Nat.le_succ _, fun q c found => ?_, fun q c below found => ⟨c, ?_⟩⟩
  · by_cases same : q = t.fresh
    · subst same
      simp [free] at found
    · exact ⟨c, by simpa [free, alloc, same] using found, .refl c⟩
  · simpa [free, alloc, Nat.ne_of_lt below] using found

theorem set_set (t : Tcp) (p : Nat) (b b' : Pcb) : (t.set p b).set p b' = t.set p b' := by
  simp [set]

theorem free_set (t : Tcp) (p : Nat) (b : Pcb) : (t.set p b).free p = t.free p := by
  simp [set, free]

theorem set_self (stored : t.pcbs p = some b) : t.set p b = t := by
  simp [set, ← stored]

theorem alloc_set (t : Tcp) (b b' : Pcb) : (t.alloc b).2.set t.fresh b' = (t.alloc b').2 := by
  simp [set, alloc]

@[simp] theorem fresh_free (t : Tcp) (p : Nat) : (t.free p).fresh = t.fresh := rfl

theorem pcbs_set (t : Tcp) (p : Nat) (b : Pcb) : (t.set p b).pcbs p = some b := by
  simp [set]

theorem pcbs_alloc (t : Tcp) (b : Pcb) : (t.alloc b).2.pcbs t.fresh = some b := by
  simp [alloc]

section Frames

variable {q : Nat}

theorem pcbs_alloc_of_lt (t : Tcp) (b : Pcb) (old : q < t.fresh) :
    (t.alloc b).2.pcbs q = t.pcbs q := by
  simp [alloc, Nat.ne_of_lt old]

variable {owner : Option Nat} (mine : owner = some p) (notMine : owner ≠ some q)

include mine notMine

/-- What is done to the control block of one owner leaves those of the others. -/
theorem pcbs_set_of_notMine (t : Tcp) (b : Pcb) : (t.set p b).pcbs q = t.pcbs q := by
  have different : q ≠ p := fun same => notMine (same ▸ mine)
  simp [set, different]

@[inherit_doc pcbs_set_of_notMine]
theorem pcbs_free_of_notMine (t : Tcp) : (t.free p).pcbs q = t.pcbs q := by
  have different : q ≠ p := fun same => notMine (same ▸ mine)
  simp [free, different]

end Frames

theorem get_eq_ok : t.get p = .ok b ↔ t.pcbs p = some b := by
  rw [get]
  split
  next other stored => simp [stored]
  next gone => simp [gone]

theorem tcpArg_eq_ok {arg : Option (Fin 16)} :
    t.tcpArg (some p) arg = .ok t' ↔
      ∃ b, t.pcbs p = some b ∧ t' = t.set p { b with arg } := by
  simp only [tcpArg, bind_eq_ok, get_eq_ok]
  refine exists_congr fun b => and_congr_right fun _ => ?_
  rw [Except.ok.injEq, eq_comm]

theorem register_eq_ok {change : Pcb → Pcb} :
    t.register (some p) change = .ok t' ↔
      ∃ b, t.pcbs p = some b ∧ b.state ≠ .listen ∧ t' = t.set p (change b) := by
  simp only [register, bind_eq_ok, get_eq_ok]
  refine exists_congr fun b => and_congr_right fun _ => ?_
  split
  next listening => simp [listening]
  next connection => simp [connection, eq_comm]

/-- The callbacks of a connection are registered together. -/
theorem callbacks_eq_ok {arg : Option (Fin 16)} {on : Bool} {withArg withRecv withErr : Tcp}
    (setsArg : t.tcpArg (some p) arg = .ok withArg)
    (setsRecv : withArg.tcpRecv (some p) on = .ok withRecv)
    (setsErr : withRecv.tcpErr (some p) on = .ok withErr) :
    ∃ b, t.pcbs p = some b ∧ b.state ≠ .listen ∧
      withErr = t.set p { b with arg, recv := on, errf := on } := by
  obtain ⟨b, stored, rfl⟩ := tcpArg_eq_ok.mp setsArg
  obtain ⟨b₁, stored₁, connection, rfl⟩ := register_eq_ok.mp setsRecv
  obtain rfl := Option.some.inj ((pcbs_set _ _ _).symm.trans stored₁)
  obtain ⟨b₂, stored₂, _, rfl⟩ := register_eq_ok.mp setsErr
  obtain rfl := Option.some.inj ((pcbs_set _ _ _).symm.trans stored₂)
  exact ⟨b, stored, connection, by rw [set_set, set_set]⟩

theorem connection_eq_ok :
    t.connection p = .ok b ↔ t.pcbs p = some b ∧ b.state ≠ .listen := by
  simp only [connection, bind_eq_ok, get_eq_ok]
  constructor
  · rintro ⟨found, stored, result⟩
    split at result
    · contradiction
    next connection =>
      obtain rfl := Except.ok.inj result
      exact ⟨stored, connection⟩
  · rintro ⟨stored, connection⟩
    exact ⟨b, stored, if_neg connection⟩

theorem tcpBind_alike {pcb : Option Nat} {ip : UInt32} {port : UInt16} {found : Option UInt16}
    {result : Bool × Tcp} (bound : t.tcpBind pcb ip port found = .ok result) :
    t.Alike result.2 := by
  cases pcb with
  | none =>
      obtain rfl := Except.ok.inj bound
      exact .refl t
  | some p =>
      obtain ⟨b, stored, rest⟩ := bind_eq_ok.mp bound
      split at rest
      · obtain rfl := Except.ok.inj rest
        exact .refl t
      · cases found with
        | none =>
            obtain rfl := Except.ok.inj rest
            exact .refl t
        | some port =>
            obtain rfl := Except.ok.inj rest
            exact alike_set (get_eq_ok.mp stored) ⟨rfl, rfl, rfl, rfl, rfl, rfl⟩

theorem tcpWrite_alike {data : List UInt8} {answer : ErrT} {result : ErrT × Tcp}
    (written : t.tcpWrite p data answer = .ok result) : t.Alike result.2 := by
  obtain ⟨b, connection, rest⟩ := bind_eq_ok.mp written
  split at rest
  · obtain rfl := Except.ok.inj rest
    exact .refl t
  · split at rest
    · obtain rfl := Except.ok.inj rest
      exact alike_set (connection_eq_ok.mp connection).1 ⟨rfl, rfl, rfl, rfl, rfl, rfl⟩
    · obtain rfl := Except.ok.inj rest
      exact .refl t

/-- A listening control block replaces a closed one, or nothing changes. -/
theorem tcpListenWithBacklog_eq_ok {pcb : Option Nat} {memory : Bool}
    {result : Option Nat × Tcp} (listened : t.tcpListenWithBacklog pcb memory = .ok result) :
    result = (none, t) ∨
      ∃ p b, pcb = some p ∧ t.pcbs p = some b ∧ b.state = .closed ∧
        result = (some t.fresh, ((t.free p).alloc { Pcb.new with
          state := .listen, arg := b.arg, localIp := b.localIp
          localPort := b.localPort }).2) := by
  cases pcb with
  | none => exact .inl (Except.ok.inj listened).symm
  | some p =>
      obtain ⟨b, stored, rest⟩ := bind_eq_ok.mp listened
      split at rest
      · exact .inl (Except.ok.inj rest).symm
      next closed =>
        split at rest
        · exact .inl (Except.ok.inj rest).symm
        · exact .inr ⟨p, b, rfl, get_eq_ok.mp stored, not_not.mp closed,
            (Except.ok.inj rest).symm⟩

/-- A connection attempt starts from a closed control block; a refused one leaves the
control block in its state. -/
theorem tcpConnect_eq_ok {ip : UInt32} {port : UInt16} {answer : ConnectAnswer}
    (stored : t.pcbs p = some b) {result : Bool × Tcp}
    (connected : t.tcpConnect (some p) ip port answer = .ok result) :
    ∃ b', result.2 = t.set p b' ∧ b'.arg = b.arg ∧ b'.recv = b.recv ∧ b'.errf = b.errf ∧
      b'.accept = b.accept ∧
      (result.1 = true ∧ b.state = .closed ∧ b'.state = .synSent ∧ b'.connected = true ∨
        result.1 = false ∧ b'.state = b.state ∧
          (b.connected = true → b'.connected = true)) := by
  rw [tcpConnect, get_eq_ok.mpr stored] at connected
  simp only [bind, Except.bind] at connected
  split at connected
  · obtain rfl := Except.ok.inj connected
    exact ⟨b, (set_self stored).symm, rfl, rfl, rfl, rfl, .inr ⟨rfl, rfl, id⟩⟩
  next closed =>
    cases answer with
    | noRoute =>
        obtain rfl := Except.ok.inj connected
        exact ⟨_, rfl, rfl, rfl, rfl, rfl, .inr ⟨rfl, rfl, id⟩⟩
    | noMemory localIp localPort =>
        obtain rfl := Except.ok.inj connected
        exact ⟨_, rfl, rfl, rfl, rfl, rfl, .inr ⟨rfl, rfl, fun _ => rfl⟩⟩
    | sent localIp localPort =>
        obtain rfl := Except.ok.inj connected
        exact ⟨_, rfl, rfl, rfl, rfl, rfl, .inl ⟨rfl, not_not.mp closed, rfl, rfl⟩⟩

end Tcp

/-! ## Received data -/

/-- The fields of a socket that received data does not touch. -/
structure Bsock.Control (s s' : Bsock) : Prop where
  state : s'.state = s.state
  pcb : s'.pcb = s.pcb
  acceptq : s'.acceptq = s.acceptq
  acceptqHead : s'.acceptqHead = s.acceptqHead
  acceptqTail : s'.acceptqTail = s.acceptqTail
  acceptqCount : s'.acceptqCount = s.acceptqCount

theorem Bsock.Control.refl (s : Bsock) : s.Control s := ⟨rfl, rfl, rfl, rfl, rfl, rfl⟩

/-- The part of the history that received data does not touch. -/
structure History.Control (h h' : History) : Prop where
  held : h'.held = h.held
  offered : h'.offered = h.offered
  accepted : h'.accepted = h.accepted

theorem History.Control.refl (h : History) : h.Control h := ⟨rfl, rfl, rfl⟩

/-- Two states that differ in received data only. -/
structure State.Control (n n' : State) : Prop where
  tcp : n'.tcp = n.tcp
  socks : ∀ k, (n.socks k).Control (n'.socks k)
  history : ∀ k, (n.history k).Control (n'.history k)

namespace State

variable {n n' n'' : State}

theorem Control.refl (n : State) : n.Control n :=
  ⟨rfl, fun _ => .refl _, fun _ => .refl _⟩

theorem Control.trans (left : n.Control n') (right : n'.Control n'') : n.Control n'' where
  tcp := right.tcp.trans left.tcp
  socks k :=
    have first := left.socks k
    have second := right.socks k
    ⟨second.1.trans first.1, second.2.trans first.2, second.3.trans first.3,
      second.4.trans first.4, second.5.trans first.5, second.6.trans first.6⟩
  history k :=
    have first := left.history k
    have second := right.history k
    ⟨second.1.trans first.1, second.2.trans first.2, second.3.trans first.3⟩

theorem control_pbufs (n : State) (pbufs : Pbufs) : n.Control { n with pbufs } :=
  ⟨rfl, fun _ => .refl _, fun _ => .refl _⟩

theorem control_setSock (n : State) {k : Fin 16} {sock : Bsock}
    (same : (n.socks k).Control sock) : n.Control (n.setSock k sock) := by
  refine ⟨rfl, fun j => ?_, fun _ => .refl _⟩
  by_cases here : j = k
  · subst here
    simpa [setSock] using same
  · simpa [setSock, here] using Bsock.Control.refl _

theorem control_setHistory (n : State) {k : Fin 16} {history : History}
    (same : (n.history k).Control history) : n.Control (n.setHistory k history) := by
  refine ⟨rfl, fun _ => .refl _, fun j => ?_⟩
  by_cases here : j = k
  · subst here
    simpa [setHistory] using same
  · simpa [setHistory, here] using History.Control.refl _

theorem onRecv_control {arg : Option (Fin 16)} {p : Option Nat} {err : ErrT}
    (result : n.onRecv arg p err = .ok n') : n.Control n' := by
  cases p with
  | none =>
      obtain ⟨k, _, rest⟩ := bind_eq_ok.mp result
      obtain rfl := Except.ok.inj rest
      exact n.control_setSock ⟨rfl, rfl, rfl, rfl, rfl, rfl⟩
  | some p =>
      rw [onRecv] at result
      split at result
      · obtain ⟨pbufs, _, rest⟩ := bind_eq_ok.mp result
        obtain rfl := Except.ok.inj rest
        exact n.control_pbufs pbufs
      · obtain ⟨k, _, rest⟩ := bind_eq_ok.mp result
        split at rest
        · obtain ⟨pbufs, _, rest⟩ := bind_eq_ok.mp rest
          obtain rfl := Except.ok.inj rest
          exact n.control_pbufs pbufs
        · obtain rfl := Except.ok.inj rest
          exact n.control_setSock ⟨rfl, rfl, rfl, rfl, rfl, rfl⟩

theorem arrive_control {b : Pcb} {segments : List Segment}
    (result : n.arrive b segments = .ok n') : n.Control n' := by
  rw [arrive] at result
  split at result
  · obtain rfl := Except.ok.inj result
    exact .refl n
  · split at result
    · obtain ⟨middle, received, rest⟩ := bind_eq_ok.mp result
      have first := (n.control_pbufs _).trans (onRecv_control received)
      split at rest
      · obtain rfl := Except.ok.inj rest
        exact first
      · obtain rfl := Except.ok.inj rest
        exact first.trans (middle.control_setHistory ⟨rfl, rfl, rfl⟩)
    · obtain ⟨pbufs, _, rest⟩ := bind_eq_ok.mp result
      obtain rfl := Except.ok.inj rest
      exact n.control_pbufs pbufs

theorem consume_control {k : Fin 16} {p : Nat} {b : Pbuf} {off : UInt16}
    (result : n.consume k p b off = .ok n') : n.Control n' := by
  rw [consume] at result
  split at result
  · obtain ⟨pbufs, _, rest⟩ := bind_eq_ok.mp result
    obtain rfl := Except.ok.inj rest
    exact (n.control_pbufs pbufs).trans (control_setSock _ ⟨rfl, rfl, rfl, rfl, rfl, rfl⟩)
  · obtain rfl := Except.ok.inj result
    exact n.control_setSock ⟨rfl, rfl, rfl, rfl, rfl, rfl⟩

theorem credit_control {k : Fin 16} {count : UInt16}
    (result : n.credit k count = .ok n') : n.Control n' := by
  rw [credit] at result
  split at result
  · obtain rfl := Except.ok.inj result
    exact .refl n
  · obtain ⟨_, _, rest⟩ := bind_eq_ok.mp result
    obtain rfl := Except.ok.inj rest
    exact n.control_setHistory ⟨rfl, rfl, rfl⟩

theorem bsockRead_control {k : Fin 16} {p : Nat} {len : UInt64} {reply : Reply}
    (result : n.bsockRead k p len = .ok (reply, n')) : n.Control n' := by
  obtain ⟨b, _, rest⟩ := bind_eq_ok.mp result
  obtain ⟨consumed, consumes, rest⟩ := bind_eq_ok.mp rest
  obtain ⟨credited, credits, rest⟩ := bind_eq_ok.mp rest
  obtain ⟨rfl, rfl⟩ := Prod.mk.inj (Except.ok.inj rest)
  exact ((consume_control consumes).trans (credit_control credits)).trans
    (credited.control_setHistory ⟨rfl, rfl, rfl⟩)

end State

/-! ## Effects -/

/-- The socket a call or the next pass of a call is about. -/
def Call.fd : Call → Option Int
  | .socket _ _ => none
  | .bind fd _ _ _ | .listen fd | .accept fd _ _ | .connect fd _ _ _ | .recv fd _
  | .send fd _ | .close fd => some fd

def Waiting.slot : Waiting → Option (Fin 16)
  | .ready _ _ => none
  | .accept k _ _ | .connect k | .recv k _ | .send k _ => some k

/-- The application makes a call on a socket, or a call on it goes on. -/
def Shim.Uses (s : Shim) (k : Fin 16) : Input → Prop
  | .call call _ _ => ∃ fd, call.fd = some fd ∧ State.sockOfFd fd = .ok k
  | .tick _ _ => ∃ waiting start, s.waiting = some (waiting, start) ∧ waiting.slot = some k
  | .lwip _ => False

/-- The step is a pass of `accept` on a socket. -/
def Shim.Accepts (s : Shim) (k : Fin 16) : Input → Prop
  | .call (.accept fd _ _) _ _ => State.sockOfFd fd = .ok k
  | .tick _ _ => ∃ addr addrlen start, s.waiting = some (.accept k addr addrlen, start)
  | _ => False

/-- The step is a pass of `recv` on a socket. -/
def Shim.Reads (s : Shim) (k : Fin 16) (len : UInt64) : Input → Prop
  | .call (.recv fd wanted) _ _ => s.waiting = none ∧ State.sockOfFd fd = .ok k ∧ wanted = len
  | .tick now _ => ∃ start, s.waiting = some (.recv k len, start) ∧ ¬now - start ≥ 30000
  | _ => False

/-- The application closes a socket. -/
def Input.Closes (k : Fin 16) : Input → Prop
  | .call (.close fd) _ _ => State.sockOfFd fd = .ok k
  | _ => False

theorem Input.Closes.uses {s : Shim} {k : Fin 16} {input : Input} (closes : input.Closes k) :
    s.Uses k input := by
  cases input with
  | call call now answers =>
      cases call with
      | close fd => exact ⟨fd, rfl, closes⟩
      | _ => exact closes.elim
  | lwip event => exact closes.elim
  | tick now answers => exact closes.elim

theorem Shim.Accepts.uses {s : Shim} {k : Fin 16} {input : Input}
    (accepts : s.Accepts k input) : s.Uses k input := by
  cases input with
  | call call now answers =>
      cases call with
      | accept fd addr addrlen => exact ⟨fd, rfl, accepts⟩
      | _ => exact accepts.elim
  | lwip event => exact accepts.elim
  | tick now answers =>
      obtain ⟨addr, addrlen, start, polling⟩ := accepts
      exact ⟨_, start, polling, rfl⟩

/-- `on_accept` of a socket answers `ERR_OK` to the connection that lwIP offers it. -/
def Shim.Takes (s : Shim) (l : Fin 16) : Input → Prop
  | .lwip (.accept q remoteIp remotePort) =>
      ∃ b n', s.net.tcp.pcbs q = some b ∧ b.state = .listen ∧ b.accept = true ∧
        b.arg = some l ∧ (s.net.incoming b remoteIp remotePort).onAccept b.arg
          (some s.net.tcp.fresh) .ok = .ok (.ok, n')
  | _ => False

/-- How received data moves. -/
inductive Shim.Moves (s : Shim) (input : Input) : State → Prop where
  | arrive {q : Nat} {b : Pcb} {segments : List Segment} {n' : State}
      (stored : s.net.tcp.pcbs q = some b) (receives : b.Receives)
      (result : s.net.arrive b segments = .ok n') : Moves s input n'
  | fin {q : Nat} {b : Pcb} {n' : State} (stored : s.net.tcp.pcbs q = some b)
      (receives : b.Receives) (recv : b.recv = true)
      (result : s.net.onRecv b.arg none .ok = .ok n') : Moves s input n'
  | read {k : Fin 16} {p : Nat} {len : UInt64} {reply : Reply} {n' : State}
      (reads : s.Reads k len input) (head : (s.net.socks k).rxHead = some p)
      (result : s.net.bsockRead k p len = .ok (reply, n')) : Moves s input n'

/-- What closing does to the control block of a socket. -/
inductive Tcp.Releases (t : Tcp) (s : Bsock) : Tcp → Prop where
  | none (pcb : s.pcb = none) : Releases t s t
  | freed {p : Nat} {b : Pcb} (pcb : s.pcb = some p) (stored : t.pcbs p = some b) :
      Releases t s (t.free p)
  | closing {p : Nat} {b b' : Pcb} (pcb : s.pcb = some p) (stored : t.pcbs p = some b)
      (connection : b.state ≠ .listen) (state : b'.state = .closing) (arg : b'.arg = none)
      (silent : s.state ≠ .listening → b'.recv = false ∧ b'.errf = false) :
      Releases t s (t.set p b')

theorem Tcp.Releases.pcbs_of_notMine {t t' : Tcp} {s : Bsock} {q : Nat}
    (releases : t.Releases s t') (notMine : s.pcb ≠ some q) : t'.pcbs q = t.pcbs q := by
  cases releases with
  | none => rfl
  | freed pcb => exact pcbs_free_of_notMine pcb notMine t
  | closing pcb => exact pcbs_set_of_notMine pcb notMine t _

/-- The control block of a socket for which `listen` succeeded. -/
structure Pcb.Listens (b : Pcb) (k : Fin 16) : Prop where
  state : b.state = .listen
  arg : b.arg = some k
  recv : b.recv = false
  errf : b.errf = false
  accept : b.accept = true

/-- The control block of a connection with its callbacks. -/
structure Pcb.Serves (b : Pcb) (k : Fin 16) : Prop where
  arg : b.arg = some k
  recv : b.recv = true
  errf : b.errf = true

/-- The effects of one step. -/
inductive Effect (s : Shim) (input : Input) : State → Prop where
  | quiet {tcp : Tcp} {ready : Bool} (alike : s.net.tcp.Alike tcp) :
      Effect s input { s.net with tcp, netReady := ready }
  | data {n' : State} (control : s.net.Control n') (moves : s.Moves input n') :
      Effect s input n'
  /-- `socket` had no memory. -/
  | reset {k : Fin 16} {ready : Bool} (free : (s.net.socks k).state = .free) :
      Effect s input ({ s.net with netReady := ready }.resetSock k)
  | socket {k : Fin 16} {ready : Bool} (free : (s.net.socks k).state = .free) :
      Effect s input
        (({ s.net with
            tcp := (s.net.tcp.alloc { Pcb.new with arg := some k }).2
            netReady := ready }.setSock k
          { Bsock.zero with pcb := some s.net.tcp.fresh, state := .closed }).setHistory k
          { History.none with held := true })
  | listen {k : Fin 16} {p : Nat} {b listener : Pcb} (uses : s.Uses k input)
      (pcb : (s.net.socks k).pcb = some p) (stored : s.net.tcp.pcbs p = some b)
      (closed : b.state = .closed) (listens : listener.Listens k) :
      Effect s input
        ({ s.net with tcp := ((s.net.tcp.free p).alloc listener).2 }.setSock k
          { s.net.socks k with pcb := some s.net.tcp.fresh, state := .listening })
  | accept {k : Fin 16} (accepts : s.Accepts k input) (pending : (s.net.socks k).acceptqCount ≠ 0) :
      Effect s input
        (s.net.handOut k ((s.net.socks k).acceptq (s.net.socks k).acceptqHead))
  | connect {k : Fin 16} {p : Nat} {b b' : Pcb} {state : SockState} (uses : s.Uses k input)
      (pcb : (s.net.socks k).pcb = some p) (stored : s.net.tcp.pcbs p = some b)
      (connection : b.state ≠ .listen) (serves : b'.Serves k) (accept : b'.accept = b.accept)
      (outcome : b.state = .closed ∧ b'.state = .synSent ∧ b'.connected = true ∧
          state = .connecting ∨
        b'.state = b.state ∧ (b.connected = true → b'.connected = true) ∧ state = .error) :
      Effect s input
        ({ s.net with tcp := s.net.tcp.set p b' }.setSock k { s.net.socks k with state })
  | unconnected {k : Fin 16} (uses : s.Uses k input) (pcb : (s.net.socks k).pcb = none) :
      Effect s input (s.net.setSock k { s.net.socks k with state := .error })
  | close {k : Fin 16} {tcp : Tcp} {pbufs : Pbufs} (closes : input.Closes k)
      (releases : s.net.tcp.Releases (s.net.socks k) tcp)
      (drained : Pbufs.drain (s.net.pbufs.fresh + 1) s.net.pbufs (s.net.socks k).rxHead =
        .ok pbufs) :
      Effect s input
        (({ s.net with tcp, pbufs }.setSock k
          { s.net.socks k with rxHead := none, state := .free }).setHistory k
          { s.net.history k with held := false })
  /-- lwIP gives up a control block that has no error callback. -/
  | silent {p : Nat} {b : Pcb} (event : input = .lwip (.abort p))
      (stored : s.net.tcp.pcbs p = some b) (abortable : b.Abortable) (errf : b.errf = false) :
      Effect s input { s.net with tcp := s.net.tcp.free p }
  | lost {p : Nat} {b : Pcb} {k : Fin 16} (event : input = .lwip (.abort p))
      (stored : s.net.tcp.pcbs p = some b) (errf : b.errf = true) (arg : b.arg = some k) :
      Effect s input
        ({ s.net with tcp := s.net.tcp.free p }.setSock k
          { s.net.socks k with pcb := none, state := .error })
  | established {p : Nat} {b : Pcb} (stored : s.net.tcp.pcbs p = some b)
      (synSent : b.state = .synSent) (connected : b.connected = false) :
      Effect s input { s.net with tcp := s.net.tcp.set p { b with state := .established } }
  | connected {p : Nat} {b : Pcb} {k : Fin 16} (stored : s.net.tcp.pcbs p = some b)
      (synSent : b.state = .synSent) (connected : b.connected = true) (arg : b.arg = some k) :
      Effect s input
        ({ s.net with tcp := s.net.tcp.set p { b with state := .established } }.setSock k
          { s.net.socks k with state := .connected })
  /-- `on_accept` takes a connection. -/
  | offered {q : Nat} {b new : Pcb} {l k : Fin 16} {n : State}
      (stored : s.net.tcp.pcbs q = some b) (listen : b.state = .listen)
      (accept : b.accept = true) (arg : b.arg = some l)
      (room : (s.net.socks l).acceptqCount < 8) (free : (s.net.socks k).state = .free)
      (state : new.state = .established) (serves : new.Serves k)
      (taken : n = ({ s.net with tcp := (s.net.tcp.alloc new).2 }.resetSock k).setSock k
        (acceptedSock s.net.tcp.fresh)) (takes : s.Takes l input) :
      Effect s input
        ((n.setSock l ((n.socks l).enqueue k)).setHistory l { n.history l with
          offered := (n.history l).offered ++ [k] })

/-! ## Every step has an effect -/

theorem State.free_of_allocSlot {n : State} {k : Fin 16} (found : n.allocSlot = some k) :
    (n.socks k).state = .free := by
  simpa using List.find?_some found

theorem State.sockOfArg_eq_ok {arg : Option (Fin 16)} {k : Fin 16} :
    State.sockOfArg arg = .ok k ↔ arg = some k := by
  cases arg with
  | none => simp [sockOfArg]
  | some j => simp [sockOfArg]

namespace Effect

variable {s : Shim} {input : Input} {k : Fin 16} {n' : State} {answers : Answers}

theorem unchanged : Effect s input s.net := .quiet (.refl _)

theorem of_netShimSocket {ready : Bool} {domain type : UInt64} {result : Reply × State}
    (served : { s.net with netReady := ready }.netShimSocket domain type answers = .ok result) :
    Effect s input result.2 := by
  rw [State.netShimSocket] at served
  split at served
  · obtain rfl := Except.ok.inj served
    exact .quiet (.refl _)
  · split at served
    · obtain rfl := Except.ok.inj served
      exact .quiet (.refl _)
    next k found =>
      have free := State.free_of_allocSlot found
      cases memory : answers.newPcb with
      | false =>
          simp only [Tcp.tcpNew, memory] at served
          obtain rfl := Except.ok.inj served
          exact .reset free
      | true =>
          simp only [Tcp.tcpNew, memory, if_true] at served
          obtain ⟨tcp, arg, rest⟩ := bind_eq_ok.mp served
          obtain ⟨b, stored, rfl⟩ := Tcp.tcpArg_eq_ok.mp arg
          obtain rfl := Except.ok.inj rest
          obtain rfl : Pcb.new = b := Option.some.inj ((Tcp.pcbs_alloc _ _).symm.trans stored)
          simpa [State.resetSock, State.setSock, State.setHistory, Tcp.alloc, Tcp.set]
            using @Effect.socket s input k ready free

theorem of_netShimBind {addrlen : UInt64} {ip : UInt32} {port : UInt16}
    {result : Reply × State}
    (served : s.net.netShimBind k addrlen ip port answers = .ok result) :
    Effect s input result.2 := by
  rw [State.netShimBind] at served
  split at served
  · obtain rfl := Except.ok.inj served
    exact unchanged
  · obtain ⟨bound, binds, rest⟩ := bind_eq_ok.mp served
    obtain rfl := Except.ok.inj rest
    exact .quiet (Tcp.tcpBind_alike binds)

theorem of_netShimListen (uses : s.Uses k input) {result : Reply × State}
    (served : s.net.netShimListen k answers = .ok result) : Effect s input result.2 := by
  obtain ⟨listened, listens, rest⟩ := bind_eq_ok.mp served
  rcases Tcp.tcpListenWithBacklog_eq_ok listens with rfl | ⟨p, b, pcb, stored, closed, rfl⟩
  · obtain rfl := Except.ok.inj rest
    exact unchanged
  · obtain ⟨tcp, arg, rest⟩ := bind_eq_ok.mp rest
    obtain ⟨b', stored', rfl⟩ := Tcp.tcpArg_eq_ok.mp arg
    obtain rfl := Option.some.inj ((Tcp.pcbs_alloc _ _).symm.trans stored')
    obtain ⟨tcp', accept, rest⟩ := bind_eq_ok.mp rest
    obtain ⟨b'', stored'', accept⟩ := bind_eq_ok.mp accept
    obtain rfl := Option.some.inj ((Tcp.pcbs_set _ _ _).symm.trans (Tcp.get_eq_ok.mp stored''))
    obtain rfl := Except.ok.inj (accept.symm.trans (if_pos rfl)).symm
    obtain rfl := Except.ok.inj rest
    have := @Effect.listen s input k p b _ uses pcb stored closed
      (Pcb.Listens.mk (b := { Pcb.new with
        state := .listen, arg := some k, accept := true, localIp := b.localIp
        localPort := b.localPort }) rfl rfl rfl rfl rfl)
    simpa [Tcp.alloc, Tcp.set, Tcp.free] using this

theorem of_acceptStep (accepts : s.Accepts k input) {addr : Bool} {addrlen : Option UInt32}
    {result : Progress × State} (served : s.net.acceptStep k addr addrlen = .ok result) :
    Effect s input result.2 := by
  rw [State.acceptStep] at served
  split at served
  · split at served
    · obtain rfl := Except.ok.inj served
      exact unchanged
    · obtain rfl := Except.ok.inj served
      exact unchanged
  next pending =>
    split at served
    · obtain ⟨peer, _, rest⟩ := bind_eq_ok.mp served
      obtain rfl := Except.ok.inj rest
      exact .accept accepts pending
    · obtain rfl := Except.ok.inj served
      exact .accept accepts pending

theorem of_netShimConnect (uses : s.Uses k input) {addrlen : UInt64} {ip : UInt32}
    {port : UInt16} {result : Progress × State}
    (served : s.net.netShimConnect k addrlen ip port answers = .ok result) :
    Effect s input result.2 := by
  rw [State.netShimConnect] at served
  split at served
  · obtain rfl := Except.ok.inj served
    exact unchanged
  · obtain ⟨withArg, arg, rest⟩ := bind_eq_ok.mp served
    obtain ⟨withRecv, recv, rest⟩ := bind_eq_ok.mp rest
    obtain ⟨withErr, errf, rest⟩ := bind_eq_ok.mp rest
    obtain ⟨connected, connects, rest⟩ := bind_eq_ok.mp rest
    cases pcb : (s.net.socks k).pcb with
    | none =>
        rw [pcb] at arg recv errf connects
        obtain rfl := Except.ok.inj arg
        obtain rfl := Except.ok.inj recv
        obtain rfl := Except.ok.inj errf
        obtain rfl := Except.ok.inj connects
        obtain rfl := Except.ok.inj rest
        exact .unconnected uses pcb
    | some p =>
        rw [pcb] at arg recv errf connects
        obtain ⟨b, stored, connection, registered⟩ := Tcp.callbacks_eq_ok arg recv errf
        rw [registered] at connects
        obtain ⟨b', tcp, arg', recv', errf', accept', outcome⟩ :=
          Tcp.tcpConnect_eq_ok (Tcp.pcbs_set _ _ _) connects
        rw [Tcp.set_set] at tcp
        have serves : b'.Serves k := ⟨arg', recv', errf'⟩
        rcases outcome with ⟨started, closed, sent, callback⟩ | ⟨refused, state, callback⟩
        · rw [if_pos started, tcp] at rest
          obtain rfl := Except.ok.inj rest
          exact .connect uses pcb stored connection serves accept'
            (.inl ⟨closed, sent, callback, rfl⟩)
        · rw [if_neg (by simp [refused]), tcp] at rest
          obtain rfl := Except.ok.inj rest
          exact .connect uses pcb stored connection serves accept'
            (.inr ⟨state, callback, rfl⟩)

theorem of_recvStep {len : UInt64} (reads : s.Reads k len input)
    {result : Progress × State} (served : s.net.recvStep k len = .ok result) :
    Effect s input result.2 := by
  rw [State.recvStep] at served
  split at served
  next p head =>
    obtain ⟨read, copied, rest⟩ := bind_eq_ok.mp served
    obtain rfl := Except.ok.inj rest
    exact .data (State.bsockRead_control copied) (.read reads head copied)
  · split at served
    · obtain rfl := Except.ok.inj served
      exact unchanged
    · split at served
      · obtain rfl := Except.ok.inj served
        exact unchanged
      · obtain rfl := Except.ok.inj served
        exact unchanged

theorem of_bsockWrite {data : List UInt8} {result : Int × State}
    (served : s.net.bsockWrite k data answers = .ok result) : Effect s input result.2 := by
  rw [State.bsockWrite] at served
  split at served
  · obtain rfl := Except.ok.inj served
    exact unchanged
  · split at served
    · obtain rfl := Except.ok.inj served
      exact unchanged
    · obtain ⟨_, _, rest⟩ := bind_eq_ok.mp served
      split at rest
      · obtain rfl := Except.ok.inj rest
        exact unchanged
      · obtain ⟨written, writes, rest⟩ := bind_eq_ok.mp rest
        split at rest
        · obtain rfl := Except.ok.inj rest
          exact .quiet (Tcp.tcpWrite_alike writes)
        · split at rest
          · obtain rfl := Except.ok.inj rest
            exact unchanged
          · obtain rfl := Except.ok.inj rest
            exact unchanged

theorem of_sendStep {data : List UInt8} {result : Progress × State}
    (served : s.net.sendStep k data answers = .ok result) : Effect s input result.2 := by
  obtain ⟨written, writes, rest⟩ := bind_eq_ok.mp served
  have effect : Effect s input written.2 := of_bsockWrite writes
  split at rest
  · obtain rfl := Except.ok.inj rest
    exact effect
  · split at rest
    · obtain rfl := Except.ok.inj rest
      exact effect
    · obtain rfl := Except.ok.inj rest
      exact effect

end Effect

namespace State

variable {n n' : State}

/-- Without an error callback `tcp_abort` only frees. -/
theorem tcpAbort_eq_ok {p : Nat} (result : n.tcpAbort p = .ok n') :
    ∃ b, n.tcp.pcbs p = some b ∧ b.state ≠ .listen ∧
      (b.errf = false ∧ n' = { n with tcp := n.tcp.free p } ∨
        b.errf = true ∧ ∃ k, b.arg = some k ∧
          n' = { n with tcp := n.tcp.free p }.setSock k
            { n.socks k with pcb := none, state := .error }) := by
  obtain ⟨b, connection, rest⟩ := bind_eq_ok.mp result
  obtain ⟨stored, notListening⟩ := Tcp.connection_eq_ok.mp connection
  refine ⟨b, stored, notListening, ?_⟩
  cases errf : b.errf with
  | false =>
      rw [errf] at rest
      exact .inl ⟨rfl, (Except.ok.inj rest).symm⟩
  | true =>
      rw [errf] at rest
      obtain ⟨k, arg, rest⟩ := bind_eq_ok.mp rest
      exact .inr ⟨rfl, k, sockOfArg_eq_ok.mp arg, (Except.ok.inj rest).symm⟩

/-- `on_accept` refuses and changes nothing, or puts a free slot that holds the new control
block at the end of the queue. -/
theorem onAccept_cases {arg : Option (Fin 16)} {newpcb : Option Nat} {err : ErrT}
    {result : ErrT × State} (answered : n.onAccept arg newpcb err = .ok result) :
    result.1 ≠ .ok ∧ result.2 = n ∨
      ∃ p l k b, newpcb = some p ∧ arg = some l ∧ (n.socks l).acceptqCount < 8 ∧
        (n.socks k).state = .free ∧ n.tcp.pcbs p = some b ∧
        result = (.ok,
          let taken := ({ n with tcp := n.tcp.set p { b with
            arg := some k, recv := true, errf := true } }.resetSock k).setSock k (acceptedSock p)
          (taken.setSock l ((taken.socks l).enqueue k)).setHistory l { taken.history l with
            offered := (taken.history l).offered ++ [k] }) := by
  have refuses : ∀ answer : ErrT, answer ≠ .ok → (.ok (answer, n) : Except Fault _) = .ok result →
      result.1 ≠ .ok ∧ result.2 = n := by
    rintro answer notOk same
    obtain rfl := Except.ok.inj same
    exact ⟨notOk, rfl⟩
  cases newpcb with
  | none => exact .inl (refuses .val nofun answered)
  | some p =>
      rw [onAccept] at answered
      split at answered
      · exact .inl (refuses .val nofun answered)
      · obtain ⟨l, arg, answered⟩ := bind_eq_ok.mp answered
        split at answered
        · exact .inl (refuses .mem nofun answered)
        next room =>
          split at answered
          · exact .inl (refuses .mem nofun answered)
          next k found =>
            obtain ⟨withArg, setsArg, answered⟩ := bind_eq_ok.mp answered
            obtain ⟨withRecv, setsRecv, answered⟩ := bind_eq_ok.mp answered
            obtain ⟨withErr, setsErr, answered⟩ := bind_eq_ok.mp answered
            obtain ⟨b, stored, _, rfl⟩ := Tcp.callbacks_eq_ok setsArg setsRecv setsErr
            exact .inr ⟨p, l, k, b, rfl, sockOfArg_eq_ok.mp arg, Nat.lt_of_not_le room,
              free_of_allocSlot found, stored, (Except.ok.inj answered).symm⟩

/-- The answer of `on_accept` to a connection that lwIP has just established. -/
theorem onAccept_incoming {b : Pcb} {ip : UInt32} {port : UInt16} {result : ErrT × State}
    (answered : (n.incoming b ip port).onAccept b.arg (some n.tcp.fresh) .ok = .ok result) :
    result.1 ≠ .ok ∧ result.2 = n.incoming b ip port ∨
      ∃ l k new taken, b.arg = some l ∧ (n.socks l).acceptqCount < 8 ∧
        (n.socks k).state = .free ∧ new.state = .established ∧ new.Serves k ∧
        taken = ({ n with tcp := (n.tcp.alloc new).2 }.resetSock k).setSock k
          (acceptedSock n.tcp.fresh) ∧
        result = (.ok, (taken.setSock l ((taken.socks l).enqueue k)).setHistory l
          { taken.history l with offered := (taken.history l).offered ++ [k] }) := by
  rcases onAccept_cases answered with
    refused | ⟨p, l, k, c, isNew, arg, room, free, stored, same⟩
  · exact .inl refused
  · obtain rfl := Option.some.inj isNew
    obtain rfl := Option.some.inj ((Tcp.pcbs_alloc _ _).symm.trans stored)
    let new : Pcb := { Pcb.new with
      state := .established, arg := some k, recv := true, errf := true
      localIp := b.localIp, localPort := b.localPort, remoteIp := ip, remotePort := port }
    refine .inr ⟨l, k, new, _, arg, room, free, rfl, ⟨rfl, rfl, rfl⟩, rfl, ?_⟩
    rw [same, incoming]
    simp only [Tcp.alloc_set, new]

/-- The control block a socket is about to close has lost its argument, and its callbacks
unless the socket listens. -/
theorem silence_eq_ok {s : Bsock} {t t' t'' : Tcp} {p : Nat}
    (arg : t.tcpArg (some p) none = .ok t') (callbacks : s.silence p t' = .ok t'') :
    ∃ b b', t.pcbs p = some b ∧ t'' = t.set p b' ∧ b'.state = b.state ∧ b'.arg = none ∧
      (s.state ≠ .listening → b'.recv = false ∧ b'.errf = false) := by
  rw [Bsock.silence] at callbacks
  split at callbacks
  next listens =>
    obtain ⟨b, stored, rfl⟩ := Tcp.tcpArg_eq_ok.mp arg
    obtain ⟨b', stored', rest⟩ := bind_eq_ok.mp callbacks
    obtain rfl := Option.some.inj ((Tcp.pcbs_set _ _ _).symm.trans (Tcp.get_eq_ok.mp stored'))
    split at rest
    · obtain rfl := Except.ok.inj rest
      exact ⟨b, _, stored, Tcp.set_set _ _ _ _, rfl, rfl, fun not => absurd listens not⟩
    · obtain rfl := Except.ok.inj rest
      exact ⟨b, _, stored, rfl, rfl, rfl, fun not => absurd listens not⟩
  next connection =>
    obtain ⟨middle, recv, errf⟩ := bind_eq_ok.mp callbacks
    obtain ⟨b, stored, _, rfl⟩ := Tcp.callbacks_eq_ok arg recv errf
    exact ⟨b, _, stored, rfl, rfl, rfl, fun _ => ⟨rfl, rfl⟩⟩

theorem closePcb_eq_ok {k : Fin 16} {answers : Answers}
    (result : n.closePcb k answers = .ok n') :
    ∃ tcp, n' = { n with tcp } ∧ n.tcp.Releases (n.socks k) tcp := by
  rw [closePcb] at result
  split at result
  next pcb =>
    obtain rfl := Except.ok.inj result
    exact ⟨n.tcp, rfl, .none pcb⟩
  next p pcb =>
    obtain ⟨withArg, arg, rest⟩ := bind_eq_ok.mp result
    obtain ⟨silenced, callbacks, rest⟩ := bind_eq_ok.mp rest
    obtain ⟨closed, closes, rest⟩ := bind_eq_ok.mp rest
    obtain ⟨b, b', stored, rfl, state, noArg, silent⟩ := silence_eq_ok arg callbacks
    obtain ⟨_, stored', ends⟩ := bind_eq_ok.mp closes
    obtain rfl := Option.some.inj ((Tcp.pcbs_set _ _ _).symm.trans (Tcp.get_eq_ok.mp stored'))
    have freed : n.tcp.Releases (n.socks k) ((n.tcp.set p b').free p) := by
      rw [Tcp.free_set]
      exact .freed pcb stored
    have kept : ∀ c : Pcb, b.state ≠ .listen → c.state = .closing → c.arg = none →
        c.recv = b'.recv → c.errf = b'.errf → n.tcp.Releases (n.socks k) (n.tcp.set p c) := by
      intro c connection closing argNone recv errf
      refine .closing pcb stored connection closing argNone fun other => ?_
      rw [recv, errf]
      exact silent other
    rw [state] at ends
    cases was : b.state with
    | closed | listen | synSent =>
        rw [was] at ends
        obtain rfl := Except.ok.inj ends
        exact ⟨_, (Except.ok.inj rest).symm, freed⟩
    | closing =>
        rw [was] at ends
        obtain rfl := Except.ok.inj ends
        exact ⟨_, (Except.ok.inj rest).symm,
          kept b' (by simp [was]) (state.trans was) noArg rfl rfl⟩
    | established =>
        rw [was] at ends
        cases answer : answers.close with
        | reset =>
            rw [answer] at ends
            obtain rfl := Except.ok.inj ends
            exact ⟨_, (Except.ok.inj rest).symm, freed⟩
        | fin =>
            rw [answer] at ends
            obtain rfl := Except.ok.inj ends
            refine ⟨_, (Except.ok.inj rest).symm, ?_⟩
            rw [Tcp.set_set]
            exact kept _ (by simp [was]) rfl noArg rfl rfl
        | failed =>
            rw [answer] at ends
            obtain rfl := Except.ok.inj ends
            obtain ⟨c, stored', _, ⟨_, rfl⟩ | ⟨_, j, arg', _⟩⟩ := tcpAbort_eq_ok rest
            · exact ⟨_, rfl, freed⟩
            · obtain rfl := Option.some.inj ((Tcp.pcbs_set _ _ _).symm.trans stored')
              exact absurd (noArg.symm.trans arg') nofun

end State

namespace Effect

variable {s : Shim} {input : Input} {k : Fin 16} {answers : Answers}

theorem of_netShimClose (closes : input.Closes k) {result : Reply × State}
    (served : s.net.netShimClose k answers = .ok result) : Effect s input result.2 := by
  obtain ⟨closed, closesPcb, rest⟩ := bind_eq_ok.mp served
  obtain ⟨pbufs, drains, rest⟩ := bind_eq_ok.mp rest
  obtain ⟨tcp, rfl, releases⟩ := State.closePcb_eq_ok closesPcb
  obtain rfl := Except.ok.inj rest
  exact .close closes releases drains

theorem of_tcpAbort {p : Nat} {n' : State} (event : input = .lwip (.abort p)) {b : Pcb}
    (stored : s.net.tcp.pcbs p = some b) (abortable : b.Abortable)
    (result : s.net.tcpAbort p = .ok n') : Effect s input n' := by
  obtain ⟨c, stored', _, ⟨errf, rfl⟩ | ⟨errf, k, arg, rfl⟩⟩ := State.tcpAbort_eq_ok result
  · obtain rfl := Option.some.inj (stored.symm.trans stored')
    exact .silent event stored abortable errf
  · exact .lost event stored' errf arg

theorem of_offer {q : Nat} {b : Pcb} {ip : UInt32} {port : UInt16} {n' : State}
    (event : input = .lwip (.accept q ip port)) (stored : s.net.tcp.pcbs q = some b)
    (listen : b.state = .listen) (result : s.net.offer b ip port = .ok n') :
    Effect s input n' := by
  have refused : (s.net.incoming b ip port).tcpAbort s.net.tcp.fresh = .ok n' →
      Effect s input n' := by
    intro aborted
    obtain ⟨c, stored', _, ⟨_, rfl⟩ | ⟨errf, _⟩⟩ := State.tcpAbort_eq_ok aborted
    · exact .quiet (Tcp.alike_alloc_free _ _)
    · obtain rfl := Option.some.inj ((Tcp.pcbs_alloc _ _).symm.trans stored')
      exact absurd errf nofun
  rw [State.offer] at result
  split at result
  next accept =>
    obtain ⟨⟨answer, after⟩, accepts, rest⟩ := bind_eq_ok.mp result
    rcases State.onAccept_incoming accepts with
      ⟨notOk, rfl⟩ | ⟨l, k, new, taken, arg, room, free, state, serves, isTaken, same⟩
    · rw [if_neg notOk] at rest
      exact refused rest
    · obtain ⟨rfl, rfl⟩ := Prod.mk.inj same
      obtain rfl := Except.ok.inj rest
      refine .offered stored listen accept arg room free state serves isTaken ?_
      rw [event]
      exact ⟨b, _, stored, listen, accept, arg, accepts⟩
  · exact refused result

theorem of_dispatch {event : Event} {n' : State} (happened : input = .lwip event)
    (result : s.net.dispatch event = .ok n') : Effect s input n' := by
  cases event with
  | recv p segments =>
      simp only [State.dispatch] at result
      split at result
      · exact Except.ok.inj result ▸ unchanged
      next b stored =>
        split at result
        next receives =>
          exact .data (State.arrive_control result) (.arrive stored receives result)
        · exact Except.ok.inj result ▸ unchanged
  | fin p =>
      simp only [State.dispatch] at result
      split at result
      · exact Except.ok.inj result ▸ unchanged
      next b stored =>
        split at result
        next ends => exact .data (State.onRecv_control result) (.fin stored ends.1 ends.2 result)
        · exact Except.ok.inj result ▸ unchanged
  | abort p =>
      simp only [State.dispatch] at result
      split at result
      · exact Except.ok.inj result ▸ unchanged
      next b stored =>
        split at result
        next abortable => exact of_tcpAbort happened stored abortable result
        · exact Except.ok.inj result ▸ unchanged
  | connected p =>
      simp only [State.dispatch] at result
      split at result
      · exact Except.ok.inj result ▸ unchanged
      next b stored =>
        split at result
        next synSent =>
          split at result
          next callback =>
            obtain ⟨k, arg, rest⟩ := bind_eq_ok.mp result
            obtain rfl := Except.ok.inj rest
            exact .connected stored synSent callback (State.sockOfArg_eq_ok.mp arg)
          next noCallback =>
            obtain rfl := Except.ok.inj result
            exact .established stored synSent (by simpa using noCallback)
        · exact Except.ok.inj result ▸ unchanged
  | accept p ip port =>
      simp only [State.dispatch] at result
      split at result
      · exact Except.ok.inj result ▸ unchanged
      next b stored =>
        split at result
        next listen => exact of_offer happened stored listen result
        · exact Except.ok.inj result ▸ unchanged
  | acceptFailed p =>
      simp only [State.dispatch] at result
      split at result
      · exact Except.ok.inj result ▸ unchanged
      · split at result
        · obtain ⟨answer, accepts, rest⟩ := bind_eq_ok.mp result
          obtain rfl := Except.ok.inj accepts
          exact Except.ok.inj rest ▸ unchanged
        · exact Except.ok.inj result ▸ unchanged

/-- A call that does not poll. -/
theorem of_map {call : Except Fault (Reply × State)} {result : Progress × State}
    (served : call.map Progress.ofResult = .ok result)
    (effect : ∀ r, call = .ok r → Effect s input r.2) : Effect s input result.2 := by
  obtain ⟨r, called, rfl⟩ := map_eq_ok.mp served
  exact effect r called

theorem of_readyStep {domain type : UInt64} {result : Progress × State}
    (served : s.net.readyStep domain type answers = .ok result) : Effect s input result.2 := by
  rw [State.readyStep] at served
  split at served
  · obtain ⟨r, called, rest⟩ := bind_eq_ok.mp served
    obtain rfl := Except.ok.inj rest
    exact of_netShimSocket called
  · exact Except.ok.inj served ▸ unchanged

theorem uses_of_call {call : Call} {now : UInt32} {fd : Int} (about : call.fd = some fd)
    (slot : State.sockOfFd fd = .ok k) : s.Uses k (.call call now answers) :=
  ⟨fd, about, slot⟩

theorem of_enter {call : Call} {now : UInt32} {result : Progress × State}
    (asked : input = .call call now answers) (idle : s.waiting = none)
    (served : s.net.enter answers call = .ok result) : Effect s input result.2 := by
  subst asked
  cases call with
  | socket domain type =>
      simp only [State.enter] at served
      split at served
      · exact of_map served fun r called => of_netShimSocket called
      · exact of_readyStep served
  | bind fd addrlen ip port =>
      obtain ⟨k, _, served⟩ := bind_eq_ok.mp served
      exact of_map served fun r called => of_netShimBind called
  | listen fd =>
      obtain ⟨k, slot, served⟩ := bind_eq_ok.mp served
      exact of_map served fun r called => of_netShimListen (uses_of_call rfl slot) called
  | accept fd addr addrlen =>
      obtain ⟨k, slot, served⟩ := bind_eq_ok.mp served
      have accepts : s.Accepts k (.call (.accept fd addr addrlen) now answers) := slot
      exact of_acceptStep accepts served
  | connect fd addrlen ip port =>
      obtain ⟨k, slot, served⟩ := bind_eq_ok.mp served
      exact of_netShimConnect (uses_of_call rfl slot) served
  | recv fd len =>
      obtain ⟨k, slot, served⟩ := bind_eq_ok.mp served
      have reads : s.Reads k len (.call (.recv fd len) now answers) := ⟨idle, slot, rfl⟩
      split at served
      · exact Except.ok.inj served ▸ unchanged
      · exact of_recvStep reads served
  | send fd data =>
      obtain ⟨k, slot, served⟩ := bind_eq_ok.mp served
      split at served
      · exact Except.ok.inj served ▸ unchanged
      · exact of_sendStep served
  | close fd =>
      obtain ⟨k, slot, served⟩ := bind_eq_ok.mp served
      have closes : (Input.call (.close fd) now answers).Closes k := slot
      exact of_map served fun r called => of_netShimClose closes called

theorem of_resume {waiting : Waiting} {now start : UInt32} {result : Progress × State}
    (asked : input = .tick now answers) (polling : s.waiting = some (waiting, start))
    (early : ¬now - start ≥ 30000) (served : s.net.resume answers waiting = .ok result) :
    Effect s input result.2 := by
  subst asked
  cases waiting with
  | ready domain type => exact of_readyStep served
  | accept k addr addrlen =>
      have accepts : s.Accepts k (.tick now answers) := ⟨addr, addrlen, start, polling⟩
      exact of_acceptStep accepts served
  | connect k => exact Except.ok.inj served ▸ unchanged
  | recv k len =>
      have reads : s.Reads k len (.tick now answers) := ⟨start, polling, early⟩
      exact of_recvStep reads served
  | send k data => exact of_sendStep served

theorem of_expire {waiting : Waiting} {result : Progress × State}
    (served : s.net.expire answers waiting = .ok result) : Effect s input result.2 := by
  cases waiting with
  | ready domain type => exact of_map served fun r called => of_netShimSocket called
  | accept k addr addrlen => exact Except.ok.inj served ▸ unchanged
  | connect k => exact Except.ok.inj served ▸ unchanged
  | recv k len => exact Except.ok.inj served ▸ unchanged
  | send k data => exact Except.ok.inj served ▸ unchanged

theorem net_settle (start : UInt32) (result : Progress × State) :
    (Shim.settle start result).2.net = result.2 := by
  rw [Shim.settle]
  split
  · rfl
  · rfl

theorem of_step {result : Option Reply × Shim} (stepped : s.step input = .ok result) :
    Effect s input result.2.net := by
  cases input with
  | call call now answers =>
      simp only [Shim.step] at stepped
      split at stepped
      · exact Except.ok.inj stepped ▸ unchanged
      next idle =>
        obtain ⟨r, served, rfl⟩ := map_eq_ok.mp stepped
        rw [net_settle]
        exact of_enter rfl idle served
  | lwip event =>
      obtain ⟨n', served, rfl⟩ := map_eq_ok.mp stepped
      exact of_dispatch rfl served
  | tick now answers =>
      simp only [Shim.step] at stepped
      split at stepped
      · exact Except.ok.inj stepped ▸ unchanged
      next waiting start polling =>
        split at stepped
        · obtain ⟨r, served, rfl⟩ := map_eq_ok.mp stepped
          rw [net_settle]
          exact of_expire served
        next early =>
          obtain ⟨r, served, rfl⟩ := map_eq_ok.mp stepped
          rw [net_settle]
          exact of_resume rfl polling early served

end Effect

end AppPortKit.Net
