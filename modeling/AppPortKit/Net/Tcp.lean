import AppPortKit.Net.Pbuf

/-!
# Protocol control blocks

The part of lwIP's raw TCP interface that the socket layer calls.  What lwIP
decides by itself (whether memory is left, whether a port is taken, how a close
ends) is an argument.  A control block that has been freed, and a listening one where
lwIP asserts that it is not, are faults.

The callbacks are the ones the socket layer registers, so a control block only
records which of them are registered; the callback argument is an index into the
socket table.
-/

namespace AppPortKit.Net

/-- The states of a control block that the interface tells apart. -/
inductive PcbState where
  | closed
  | listen
  | synSent
  /-- `ESTABLISHED` or `CLOSE_WAIT`. -/
  | established
  /-- Closed by the application, and from then on lwIP's alone. -/
  | closing
  deriving DecidableEq, Repr

/-- The fields of `struct tcp_pcb` that are used, and all bytes ever enqueued. -/
structure Pcb where
  state : PcbState
  arg : Option (Fin 16)
  recv : Bool
  errf : Bool
  accept : Bool
  connected : Bool
  localIp : UInt32
  localPort : UInt16
  remoteIp : UInt32
  remotePort : UInt16
  sent : List UInt8
  deriving DecidableEq

/-- A control block as `tcp_alloc` leaves it. -/
def Pcb.new : Pcb :=
  { state := .closed, arg := none, recv := false, errf := false, accept := false
    connected := false, localIp := 0, localPort := 0, remoteIp := 0, remotePort := 0
    sent := [] }

/-- Data and the end of the stream are passed on in these states. -/
def Pcb.Receives (b : Pcb) : Prop := b.state = .established ∨ b.state = .closing

instance (b : Pcb) : Decidable b.Receives := inferInstanceAs (Decidable (_ ∨ _))

/-- lwIP may give up an active control block, or one bound to an address. -/
def Pcb.Abortable (b : Pcb) : Prop :=
  b.state ≠ .listen ∧ (b.state = .closed → b.localIp ≠ 0)

instance (b : Pcb) : Decidable b.Abortable := inferInstanceAs (Decidable (_ ≠ _ ∧ (_ = _ → _ ≠ _)))

/-- The control blocks in use and the number ever allocated. -/
structure Tcp where
  pcbs : Nat → Option Pcb
  fresh : Nat

/-- The error codes that are told apart. -/
inductive ErrT where
  | ok
  | mem
  | val
  | conn
  deriving DecidableEq, Repr

/-- How `tcp_connect` ends on a closed control block, with the local address found. -/
inductive ConnectAnswer where
  | noRoute
  | noMemory (localIp : UInt32) (localPort : UInt16)
  | sent (localIp : UInt32) (localPort : UInt16)

/-- How `tcp_close` ends on an established connection: with a reset because data is
unread, with a FIN, or not at all. -/
inductive CloseAnswer where
  | reset
  | fin
  | failed

/-- What lwIP answers to the calls made in one pass of the socket layer. -/
structure Answers where
  /-- The interface has an address. -/
  ready : Bool
  /-- `tcp_new` has memory. -/
  newPcb : Bool
  /-- The port `tcp_bind` may use. -/
  port : Option UInt16
  /-- `tcp_listen_with_backlog` has memory. -/
  listenPcb : Bool
  connect : ConnectAnswer
  sndbuf : UInt16
  write : ErrT
  close : CloseAnswer

/-- lwIP grants whatever it is asked for. -/
def Answers.granted : Answers :=
  { ready := true, newPcb := true, port := some 49152, listenPcb := true
    connect := .sent 0x0A00020F 49152, sndbuf := 5840, write := .ok, close := .fin }

namespace Tcp

def get (t : Tcp) (p : Nat) : Except Fault Pcb :=
  match t.pcbs p with
  | some b => .ok b
  | none => .error .freedPcb

def set (t : Tcp) (p : Nat) (b : Pcb) : Tcp :=
  { t with pcbs := Function.update t.pcbs p (some b) }

def free (t : Tcp) (p : Nat) : Tcp := { t with pcbs := Function.update t.pcbs p none }

/-- A new control block. -/
def alloc (t : Tcp) (b : Pcb) : Nat × Tcp :=
  (t.fresh, { pcbs := Function.update t.pcbs t.fresh (some b), fresh := t.fresh + 1 })

def tcpNew (t : Tcp) (memory : Bool) : Option Nat × Tcp :=
  if memory then (some (t.alloc .new).1, (t.alloc .new).2) else (none, t)

def tcpArg (t : Tcp) (p : Option Nat) (arg : Option (Fin 16)) : Except Fault Tcp :=
  match p with
  | none => .ok t
  | some p => do
      let b ← t.get p
      .ok (t.set p { b with arg })

/-- The registration of a callback that listening control blocks do not have. -/
def register (t : Tcp) (p : Option Nat) (change : Pcb → Pcb) : Except Fault Tcp :=
  match p with
  | none => .ok t
  | some p => do
      let b ← t.get p
      if b.state = .listen then .error .listeningPcb else .ok (t.set p (change b))

def tcpRecv (t : Tcp) (p : Option Nat) (on : Bool) : Except Fault Tcp :=
  t.register p fun b => { b with recv := on }

def tcpErr (t : Tcp) (p : Option Nat) (on : Bool) : Except Fault Tcp :=
  t.register p fun b => { b with errf := on }

def tcpAccept (t : Tcp) (p : Option Nat) (on : Bool) : Except Fault Tcp :=
  match p with
  | none => .ok t
  | some p => do
      let b ← t.get p
      if b.state = .listen then .ok (t.set p { b with accept := on }) else .ok t

/-- `true` stands for `ERR_OK`. -/
def tcpBind (t : Tcp) (p : Option Nat) (ip : UInt32) (port : UInt16)
    (found : Option UInt16) : Except Fault (Bool × Tcp) :=
  match p with
  | none => .ok (false, t)
  | some p => do
      let b ← t.get p
      if b.state ≠ .closed then .ok (false, t)
      else
        match found with
        | none => .ok (false, t)
        | some found =>
            .ok (true, t.set p { b with
              localIp := if ip = 0 then b.localIp else ip
              localPort := if port = 0 then found else port })

/-- A listening control block takes the place of the one it is made from. -/
def tcpListenWithBacklog (t : Tcp) (p : Option Nat) (memory : Bool) :
    Except Fault (Option Nat × Tcp) :=
  match p with
  | none => .ok (none, t)
  | some p => do
      let b ← t.get p
      if b.state ≠ .closed then .ok (none, t)
      else if !memory then .ok (none, t)
      else
        let listener := (t.free p).alloc { Pcb.new with
          state := .listen, arg := b.arg, localIp := b.localIp, localPort := b.localPort }
        .ok (some listener.1, listener.2)

/-- `true` stands for `ERR_OK`.  The remote address is stored before the checks that
may fail. -/
def tcpConnect (t : Tcp) (p : Option Nat) (ip : UInt32) (port : UInt16)
    (answer : ConnectAnswer) : Except Fault (Bool × Tcp) :=
  match p with
  | none => .ok (false, t)
  | some p => do
      let b ← t.get p
      if b.state ≠ .closed then .ok (false, t)
      else
        let b := { b with remoteIp := ip, remotePort := port }
        let bound := fun localIp localPort => { b with
          localIp := if b.localIp = 0 then localIp else b.localIp
          localPort := if b.localPort = 0 then localPort else b.localPort
          connected := true }
        match answer with
        | .noRoute => .ok (false, t.set p b)
        | .noMemory localIp localPort => .ok (false, t.set p (bound localIp localPort))
        | .sent localIp localPort =>
            .ok (true, t.set p { bound localIp localPort with state := .synSent })

/-- The connection behind a pointer: not freed, and not a listening one. -/
def connection (t : Tcp) (p : Nat) : Except Fault Pcb := do
  let b ← t.get p
  if b.state = .listen then .error .listeningPcb else .ok b

/-- All bytes are enqueued, or none. -/
def tcpWrite (t : Tcp) (p : Nat) (data : List UInt8) (answer : ErrT) :
    Except Fault (ErrT × Tcp) := do
  let b ← t.connection p
  if b.state ≠ .established ∧ b.state ≠ .synSent then .ok (.conn, t)
  else if answer = .ok then .ok (.ok, t.set p { b with sent := b.sent ++ data })
  else .ok (answer, t)

/-- `true` stands for `ERR_OK`. -/
def tcpClose (t : Tcp) (p : Nat) (answer : CloseAnswer) : Except Fault (Bool × Tcp) := do
  let b ← t.get p
  match b.state with
  | .closed | .listen | .synSent => .ok (true, t.free p)
  | .closing => .ok (true, t)
  | .established =>
      match answer with
      | .reset => .ok (true, t.free p)
      | .fin => .ok (true, t.set p { b with state := .closing })
      | .failed => .ok (false, t)

end Tcp

end AppPortKit.Net
