import AppPortKit.Foundation.Machine
import AppPortKit.Foundation.Ring
import AppPortKit.Foundation.Word64
import AppPortKit.Libc
import AppPortKit.Net.Tcp

/-!
# The socket layer

A faithful model of `net_shim.c`: the socket table, the callbacks lwIP makes into it,
and the calls of the application.  A call that has to wait polls lwIP in a loop;
its model makes one pass of the loop at a time, so what lwIP does inside `net_poll` are
steps of their own and may come in any order.
-/

namespace AppPortKit.Net

open Libc Transition

/-! ## State -/

/-- `SK_FREE` and so on. -/
inductive SockState where
  | free
  | closed
  | connecting
  | connected
  | listening
  | error
  deriving DecidableEq, Repr

/-- `struct bsock`. -/
structure Bsock where
  state : SockState
  pcb : Option Nat
  rxHead : Option Nat
  rxOff : UInt16
  eof : Bool
  acceptq : Fin 8 → Fin 16
  acceptqHead : Fin 8
  acceptqTail : Fin 8
  acceptqCount : Nat

/-- A socket after `memset`. -/
def Bsock.zero : Bsock :=
  { state := .free, pcb := none, rxHead := none, rxOff := 0, eof := false
    acceptq := fun _ => 0, acceptqHead := 0, acceptqTail := 0, acceptqCount := 0 }

/-- The connection put into a free slot by `on_accept`. -/
def acceptedSock (newpcb : Nat) : Bsock :=
  { Bsock.zero with state := .connected, pcb := some newpcb }

/-- A slot added to the queue of a listening socket. -/
def Bsock.enqueue (s : Bsock) (k : Fin 16) : Bsock :=
  { s with
    acceptq := Function.update s.acceptq s.acceptqTail k
    acceptqTail := s.acceptqTail + 1
    acceptqCount := s.acceptqCount + 1 }

/-- The queue of a listening socket after its first slot is taken out. -/
def Bsock.dequeue (s : Bsock) : Bsock :=
  { s with acceptqHead := s.acceptqHead + 1, acceptqCount := s.acceptqCount - 1 }

/-- The slots in the queue of a socket, the oldest first. -/
def Bsock.pending (s : Bsock) : List (Fin 16) :=
  Ring.contents s.acceptq s.acceptqHead s.acceptqCount

/-- The callbacks of a socket that is being closed are taken away. -/
def Bsock.silence (s : Bsock) (p : Nat) (t : Tcp) : Except Fault Tcp :=
  if s.state = .listening then t.tcpAccept (some p) false
  else do
    let t ← t.tcpRecv (some p) false
    t.tcpErr (some p) false

/-- What has happened on a socket since it was allocated: whether the application holds
its descriptor, the bytes delivered by lwIP, the bytes returned to the application, the sum
of the amounts passed to `tcp_recved`, and, for a listening socket, the slots of the
connections that `on_accept` took and of those that `accept` returned.  Nothing in the
source reads this. -/
structure History where
  held : Bool
  delivered : List UInt8
  returned : List UInt8
  credited : Nat
  offered : List (Fin 16)
  accepted : List (Fin 16)
  deriving DecidableEq

def History.none : History :=
  { held := false, delivered := [], returned := [], credited := 0
    offered := [], accepted := [] }

/-- What lwIP does with a control block in `net_poll`. -/
inductive Event where
  /-- Data has arrived on a connection. -/
  | recv (p : Nat) (segments : List Segment)
  /-- The peer has closed a connection. -/
  | fin (p : Nat)
  /-- lwIP gives up a control block: a reset, a timeout, or a change of address. -/
  | abort (p : Nat)
  | connected (p : Nat)
  /-- A connection is established for a listening control block. -/
  | accept (p : Nat) (remoteIp : UInt32) (remotePort : UInt16)
  /-- A listening control block had no memory for a connection. -/
  | acceptFailed (p : Nat)

structure State where
  socks : Fin 16 → Bsock
  pbufs : Pbufs
  tcp : Tcp
  history : Fin 16 → History
  netReady : Bool

/-- The network before the first call. -/
def State.boot : State :=
  { socks := fun _ => .zero
    pbufs := { cells := fun _ => none, fresh := 0, freed := [] }
    tcp := { pcbs := fun _ => none, fresh := 0 }
    history := fun _ => .none
    netReady := false }

namespace State

def setSock (n : State) (k : Fin 16) (s : Bsock) : State :=
  { n with socks := Function.update n.socks k s }

def setHistory (n : State) (k : Fin 16) (history : History) : State :=
  { n with history := Function.update n.history k history }

section Fields

variable (n : State) (k : Fin 16) (s : Bsock) (history : History)

@[simp] theorem socks_setSock : (n.setSock k s).socks = Function.update n.socks k s := rfl

@[simp] theorem pbufs_setSock : (n.setSock k s).pbufs = n.pbufs := rfl

@[simp] theorem tcp_setSock : (n.setSock k s).tcp = n.tcp := rfl

@[simp] theorem history_setSock : (n.setSock k s).history = n.history := rfl

@[simp] theorem socks_setHistory : (n.setHistory k history).socks = n.socks := rfl

@[simp] theorem pbufs_setHistory : (n.setHistory k history).pbufs = n.pbufs := rfl

@[simp] theorem tcp_setHistory : (n.setHistory k history).tcp = n.tcp := rfl

@[simp] theorem history_setHistory :
    (n.setHistory k history).history = Function.update n.history k history := rfl

end Fields

def allocSlot (n : State) : Option (Fin 16) :=
  (List.finRange 16).find? fun k => (n.socks k).state = .free

def resetSock (n : State) (k : Fin 16) : State := (n.setSock k .zero).setHistory k .none

/-- The socket a callback argument points to. -/
def sockOfArg (arg : Option (Fin 16)) : Except Fault (Fin 16) :=
  match arg with
  | some k => .ok k
  | none => .error .nullPointer

/-- `&socks[fd - SOCK_FD_BASE]`. -/
def sockOfFd (fd : Int) : Except Fault (Fin 16) :=
  if bound : 100 ≤ fd ∧ fd < 116 then .ok ⟨(fd - 100).toNat, by omega⟩ else .error .outOfBounds

def isFd (n : State) (fd : Int) : Bool :=
  match sockOfFd fd with
  | .ok k => (n.socks k).state ≠ .free
  | .error _ => false

theorem isFd_of_lt (n : State) {fd : Int} (low : fd < 100) : n.isFd fd = false := by
  rw [isFd, sockOfFd, dif_neg (by omega)]

/-! ## Callbacks -/

def onRecv (n : State) (arg : Option (Fin 16)) (p : Option Nat) (err : ErrT) :
    Except Fault State :=
  match p with
  | none => do
      let k ← sockOfArg arg
      .ok (n.setSock k { n.socks k with eof := true })
  | some p =>
      if err ≠ .ok then do
        let pbufs ← n.pbufs.pbufFree p
        .ok { n with pbufs }
      else do
        let k ← sockOfArg arg
        match (n.socks k).rxHead with
        | some head => do
            let pbufs ← n.pbufs.pbufCat head p
            .ok { n with pbufs }
        | none => .ok (n.setSock k { n.socks k with rxHead := some p })

def onErr (n : State) (arg : Option (Fin 16)) : Except Fault State := do
  let k ← sockOfArg arg
  .ok (n.setSock k { n.socks k with pcb := none, state := .error })

def onConnected (n : State) (arg : Option (Fin 16)) (err : ErrT) : Except Fault State := do
  let k ← sockOfArg arg
  .ok (n.setSock k { n.socks k with
    state := if err = .ok then .connected else .error })

def onAccept (n : State) (arg : Option (Fin 16)) (newpcb : Option Nat) (err : ErrT) :
    Except Fault (ErrT × State) :=
  match newpcb with
  | none => .ok (.val, n)
  | some newpcb =>
      if err ≠ .ok then .ok (.val, n)
      else do
        let l ← sockOfArg arg
        if 8 ≤ (n.socks l).acceptqCount then .ok (.mem, n)
        else
          match n.allocSlot with
          | none => .ok (.mem, n)
          | some k => do
              let n := (n.resetSock k).setSock k (acceptedSock newpcb)
              let tcp ← n.tcp.tcpArg (some newpcb) (some k)
              let tcp ← tcp.tcpRecv (some newpcb) true
              let tcp ← tcp.tcpErr (some newpcb) true
              let n := { n with tcp }.setSock l ((n.socks l).enqueue k)
              .ok (.ok, n.setHistory l { n.history l with
                offered := (n.history l).offered ++ [k] })

/-- `tcp_abort`, with the error callback it makes if one is registered. -/
def tcpAbort (n : State) (p : Nat) : Except Fault State := do
  let b ← n.tcp.connection p
  let n := { n with tcp := n.tcp.free p }
  if b.errf then n.onErr b.arg else .ok n

/-! ## What lwIP does in `net_poll` -/

/-- Data arrives: it goes to the callback if one is registered, and is dropped
otherwise. -/
def arrive (n : State) (b : Pcb) (segments : List Segment) : Except Fault State :=
  let chain := n.pbufs.allocChain segments
  match chain.1 with
  | none => .ok n
  | some p =>
      let n := { n with pbufs := chain.2 }
      if b.recv then do
        let n ← n.onRecv b.arg (some p) .ok
        match b.arg with
        | none => .ok n
        | some k => .ok (n.setHistory k { n.history k with
            delivered := (n.history k).delivered ++ segments.flatMap Subtype.val })
      else do
        let pbufs ← n.pbufs.pbufFree p
        .ok { n with pbufs }

/-- A connection is established for a listening control block: its own control block is
the next one. -/
def incoming (n : State) (b : Pcb) (remoteIp : UInt32) (remotePort : UInt16) : State :=
  { n with tcp := (n.tcp.alloc { Pcb.new with
    state := .established, arg := b.arg, localIp := b.localIp, localPort := b.localPort
    remoteIp, remotePort }).2 }

/-- A new connection is offered to the listening socket, and aborted if refused. -/
def offer (n : State) (b : Pcb) (remoteIp : UInt32) (remotePort : UInt16) :
    Except Fault State :=
  let newpcb := n.tcp.fresh
  let n := n.incoming b remoteIp remotePort
  if b.accept then do
    let result ← n.onAccept b.arg (some newpcb) .ok
    if result.1 = .ok then .ok result.2 else result.2.tcpAbort newpcb
  else
    n.tcpAbort newpcb

/-- One event.  Events of control blocks that are gone, or not in the state for them, do
not happen. -/
def dispatch (n : State) : Event → Except Fault State
  | .recv p segments =>
      match n.tcp.pcbs p with
      | none => .ok n
      | some b => if b.Receives then n.arrive b segments else .ok n
  | .fin p =>
      match n.tcp.pcbs p with
      | none => .ok n
      | some b =>
          if b.Receives ∧ b.recv then n.onRecv b.arg none .ok else .ok n
  | .abort p =>
      match n.tcp.pcbs p with
      | none => .ok n
      | some b => if b.Abortable then n.tcpAbort p else .ok n
  | .connected p =>
      match n.tcp.pcbs p with
      | none => .ok n
      | some b =>
          if b.state = .synSent then
            let n := { n with tcp := n.tcp.set p { b with state := .established } }
            if b.connected then n.onConnected b.arg .ok else .ok n
          else .ok n
  | .accept p remoteIp remotePort =>
      match n.tcp.pcbs p with
      | none => .ok n
      | some b => if b.state = .listen then n.offer b remoteIp remotePort else .ok n
  | .acceptFailed p =>
      match n.tcp.pcbs p with
      | none => .ok n
      | some b =>
          if b.state = .listen ∧ b.accept then do
            let result ← n.onAccept b.arg none .mem
            .ok result.2
          else .ok n

end State

/-! ## Calls -/

/-- A result, the bytes stored in the caller's buffer, and the address stored in the
caller's address buffer. -/
structure Reply where
  ret : Int
  bytes : List UInt8
  peer : Option (UInt32 × UInt16)
  deriving DecidableEq

/-- A result alone. -/
def Reply.code (ret : Int) : Reply := { ret, bytes := [], peer := none }

/-- The loop a call is in when it polls. -/
inductive Waiting where
  /-- `net_wait_ready`, before the first socket is made. -/
  | ready (domain type : UInt64)
  | accept (k : Fin 16) (addr : Bool) (addrlen : Option UInt32)
  | connect (k : Fin 16)
  | recv (k : Fin 16) (len : UInt64)
  | send (k : Fin 16) (data : List UInt8)
  deriving DecidableEq

/-- A call has returned, or polls. -/
inductive Progress where
  | returned (reply : Reply)
  | polls (waiting : Waiting)
  deriving DecidableEq

/-- `addr && addrlenp && *addrlenp >= sizeof(struct sockaddr_in)`. -/
def usableAddr (addr : Bool) (addrlen : Option UInt32) : Bool :=
  addr && addrlen.any fun len => 16 ≤ len

/-- The number of bytes that `bsock_read` copies from the first buffer. -/
def readCount (len : UInt64) (b : Pbuf) (off : UInt16) : UInt64 :=
  let avail := b.len.toUInt64 - off.toUInt64
  if len < avail then len else avail

namespace State

def netShimSocket (n : State) (domain type : UInt64) (answers : Answers) :
    Except Fault (Reply × State) :=
  if domain ≠ 2 ∨ type &&& 0xFF ≠ 1 then .ok (.code (-EAFNOSUPPORT), n)
  else
    match n.allocSlot with
    | none => .ok (.code (-EMFILE), n)
    | some k => do
        let n := n.resetSock k
        let new := n.tcp.tcpNew answers.newPcb
        match new.1 with
        | none => .ok (.code (-ENOMEM), n)
        | some p => do
            let tcp ← new.2.tcpArg (some p) (some k)
            let n := { n with tcp }.setSock k { n.socks k with pcb := some p, state := .closed }
            .ok (.code (100 + (k.val : Int)),
              n.setHistory k { n.history k with held := true })

/-- One pass of `net_wait_ready`, and the rest of the first `socket` call. -/
def readyStep (n : State) (domain type : UInt64) (answers : Answers) :
    Except Fault (Progress × State) :=
  if answers.ready then do
    let result ← { n with netReady := true }.netShimSocket domain type answers
    .ok (.returned result.1, result.2)
  else
    .ok (.polls (.ready domain type), n)

def netShimBind (n : State) (k : Fin 16) (addrlen : UInt64) (ip : UInt32) (port : UInt16)
    (answers : Answers) : Except Fault (Reply × State) :=
  if addrlen < 16 then .ok (.code (-EINVAL), n)
  else do
    let result ← n.tcp.tcpBind (n.socks k).pcb ip port answers.port
    .ok (.code (if result.1 then 0 else -EADDRINUSE), { n with tcp := result.2 })

def netShimListen (n : State) (k : Fin 16) (answers : Answers) :
    Except Fault (Reply × State) := do
  let result ← n.tcp.tcpListenWithBacklog (n.socks k).pcb answers.listenPcb
  match result.1 with
  | none => .ok (.code (-EADDRINUSE), { n with tcp := result.2 })
  | some p => do
      let tcp ← result.2.tcpArg (some p) (some k)
      let tcp ← tcp.tcpAccept (some p) true
      .ok (.code 0,
        { n with tcp }.setSock k { n.socks k with pcb := some p, state := .listening })

/-- The address of the peer, read through the control block of a socket. -/
def peerOf (n : State) (k : Fin 16) : Except Fault (UInt32 × UInt16) :=
  match (n.socks k).pcb with
  | none => .error .nullPointer
  | some p => do
      let b ← n.tcp.get p
      .ok (b.remoteIp, b.remotePort)

/-- A connection leaves the queue of a listening socket and goes to the application. -/
def handOut (n : State) (k slot : Fin 16) : State :=
  let n := n.setSock k (n.socks k).dequeue
  let n := n.setHistory k { n.history k with
    accepted := (n.history k).accepted ++ [slot] }
  n.setHistory slot { n.history slot with held := true }

/-- One pass of `net_shim_accept`. -/
def acceptStep (n : State) (k : Fin 16) (addr : Bool) (addrlen : Option UInt32) :
    Except Fault (Progress × State) :=
  let s := n.socks k
  if s.acceptqCount = 0 then
    if s.state ≠ .listening then .ok (.returned (.code (-EINVAL)), n)
    else .ok (.polls (.accept k addr addrlen), n)
  else
    let slot := s.acceptq s.acceptqHead
    let n := n.handOut k slot
    if usableAddr addr addrlen then do
      let peer ← n.peerOf slot
      .ok (.returned { Reply.code (100 + (slot.val : Int)) with peer := some peer }, n)
    else
      .ok (.returned (.code (100 + (slot.val : Int))), n)

/-- One pass of the loop of `net_shim_connect`. -/
def connectStep (n : State) (k : Fin 16) : Progress :=
  if (n.socks k).state = .connecting then .polls (.connect k)
  else if (n.socks k).state = .connected then .returned (.code 0)
  else .returned (.code (-ECONNREFUSED))

def netShimConnect (n : State) (k : Fin 16) (addrlen : UInt64) (ip : UInt32) (port : UInt16)
    (answers : Answers) : Except Fault (Progress × State) :=
  if addrlen < 16 then .ok (.returned (.code (-EINVAL)), n)
  else do
    let pcb := (n.socks k).pcb
    let tcp ← n.tcp.tcpArg pcb (some k)
    let tcp ← tcp.tcpRecv pcb true
    let tcp ← tcp.tcpErr pcb true
    let result ← tcp.tcpConnect pcb ip port answers.connect
    if result.1 then
      let n := { n with tcp := result.2 }.setSock k { n.socks k with state := .connecting }
      .ok (n.connectStep k, n)
    else
      .ok (.returned (.code (-ECONNREFUSED)),
        { n with tcp := result.2 }.setSock k { n.socks k with state := .error })

/-- The window credit for bytes handed to the application. -/
def credit (n : State) (k : Fin 16) (count : UInt16) : Except Fault State :=
  match (n.socks k).pcb with
  | none => .ok n
  | some p => do
      let _ ← n.tcp.connection p
      .ok (n.setHistory k { n.history k with
        credited := (n.history k).credited + count.toNat })

/-- The socket after bytes were copied up to `off` of its first buffer: a buffer read to
its end is detached from the chain and freed. -/
def consume (n : State) (k : Fin 16) (p : Nat) (b : Pbuf) (off : UInt16) :
    Except Fault State :=
  if off = b.len then do
    let pbufs ← (n.pbufs.set p { b with next := none }).pbufFree p
    .ok ({ n with pbufs }.setSock k { n.socks k with rxHead := b.next, rxOff := 0 })
  else
    .ok (n.setSock k { n.socks k with rxOff := off })

def bsockRead (n : State) (k : Fin 16) (p : Nat) (len : UInt64) :
    Except Fault (Reply × State) := do
  let b ← n.pbufs.get p
  let off := (n.socks k).rxOff
  let count := readCount len b off
  let bytes := (b.payload.drop off.toNat).take count.toNat
  let n ← n.consume k p b (off + count.toUInt16)
  let n ← n.credit k count.toUInt16
  .ok ({ Reply.code (Word64.signed count) with bytes },
    n.setHistory k { n.history k with returned := (n.history k).returned ++ bytes })

/-- One pass of `net_shim_recv`. -/
def recvStep (n : State) (k : Fin 16) (len : UInt64) : Except Fault (Progress × State) :=
  match (n.socks k).rxHead with
  | some p => do
      let result ← n.bsockRead k p len
      .ok (.returned result.1, result.2)
  | none =>
      if (n.socks k).eof then .ok (.returned (.code 0), n)
      else if (n.socks k).state = .error then .ok (.returned (.code (-ECONNRESET)), n)
      else .ok (.polls (.recv k len), n)

def bsockWrite (n : State) (k : Fin 16) (data : List UInt8) (answers : Answers) :
    Except Fault (Int × State) :=
  match (n.socks k).pcb with
  | none => .ok (-ECONNRESET, n)
  | some p =>
      if (n.socks k).state = .error then .ok (-ECONNRESET, n)
      else do
        let _ ← n.tcp.connection p
        if answers.sndbuf = 0 then .ok (0, n)
        else do
          let count := min (min data.length answers.sndbuf.toNat) 65535
          let result ← n.tcp.tcpWrite p (data.take count) answers.write
          if result.1 = .ok then .ok (count, { n with tcp := result.2 })
          else if result.1 = .mem then .ok (0, n)
          else .ok (-ECONNRESET, n)

/-- One pass of `net_shim_send`. -/
def sendStep (n : State) (k : Fin 16) (data : List UInt8) (answers : Answers) :
    Except Fault (Progress × State) := do
  let result ← n.bsockWrite k data answers
  if result.1 ≠ 0 then .ok (.returned (.code result.1), result.2)
  else if (result.2.socks k).state = .error then
    .ok (.returned (.code (-ECONNRESET)), result.2)
  else .ok (.polls (.send k data), result.2)

/-- The part of `net_shim_close` that gives up the control block. -/
def closePcb (n : State) (k : Fin 16) (answers : Answers) : Except Fault State :=
  match (n.socks k).pcb with
  | none => .ok n
  | some p => do
      let tcp ← n.tcp.tcpArg (some p) none
      let tcp ← (n.socks k).silence p tcp
      let result ← tcp.tcpClose p answers.close
      let n := { n with tcp := result.2 }
      if result.1 then .ok n else n.tcpAbort p

def netShimClose (n : State) (k : Fin 16) (answers : Answers) :
    Except Fault (Reply × State) := do
  let n ← n.closePcb k answers
  let pbufs ← Pbufs.drain (n.pbufs.fresh + 1) n.pbufs (n.socks k).rxHead
  let n := { n with pbufs }.setSock k { n.socks k with rxHead := none, state := .free }
  .ok (.code 0, n.setHistory k { n.history k with held := false })

end State

/-! ## The call interface -/

/-- The calls the system call layer makes.  Pointers are given by what they point
to. -/
inductive Call where
  | socket (domain type : UInt64)
  | bind (fd : Int) (addrlen : UInt64) (ip : UInt32) (port : UInt16)
  | listen (fd : Int)
  | accept (fd : Int) (addr : Bool) (addrlen : Option UInt32)
  | connect (fd : Int) (addrlen : UInt64) (ip : UInt32) (port : UInt16)
  | recv (fd : Int) (len : UInt64)
  | send (fd : Int) (data : List UInt8)
  | close (fd : Int)

/-- A call that does not poll. -/
def Progress.ofResult (result : Reply × State) : Progress × State :=
  (.returned result.1, result.2)

namespace State

/-- A call, up to its first `net_poll`. -/
def enter (n : State) (answers : Answers) : Call → Except Fault (Progress × State)
  | .socket domain type =>
      if n.netReady then (n.netShimSocket domain type answers).map Progress.ofResult
      else n.readyStep domain type answers
  | .bind fd addrlen ip port => do
      let k ← sockOfFd fd
      (n.netShimBind k addrlen ip port answers).map Progress.ofResult
  | .listen fd => do
      let k ← sockOfFd fd
      (n.netShimListen k answers).map Progress.ofResult
  | .accept fd addr addrlen => do
      let k ← sockOfFd fd
      n.acceptStep k addr addrlen
  | .connect fd addrlen ip port => do
      let k ← sockOfFd fd
      n.netShimConnect k addrlen ip port answers
  | .recv fd len => do
      let k ← sockOfFd fd
      if len = 0 then .ok (.returned (.code 0), n) else n.recvStep k len
  | .send fd data => do
      let k ← sockOfFd fd
      if data = [] then .ok (.returned (.code 0), n) else n.sendStep k data answers
  | .close fd => do
      let k ← sockOfFd fd
      (n.netShimClose k answers).map Progress.ofResult

/-- The next pass of a loop. -/
def resume (n : State) (answers : Answers) : Waiting → Except Fault (Progress × State)
  | .ready domain type => n.readyStep domain type answers
  | .accept k addr addrlen => n.acceptStep k addr addrlen
  | .connect k => .ok (n.connectStep k, n)
  | .recv k len => n.recvStep k len
  | .send k data => n.sendStep k data answers

/-- The end of a loop whose time is up.  Without an address the first `socket` call goes
on all the same. -/
def expire (n : State) (answers : Answers) : Waiting → Except Fault (Progress × State)
  | .ready domain type =>
      ({ n with netReady := true }.netShimSocket domain type answers).map Progress.ofResult
  | .accept _ _ _ => .ok (.returned (.code (-EAGAIN)), n)
  | .connect _ | .recv _ _ | .send _ _ => .ok (.returned (.code (-ETIMEDOUT)), n)

end State

/-- The socket layer with the call it is serving, if that call polls, and the time the
call began to. -/
structure Shim where
  net : State
  waiting : Option (Waiting × UInt32)

def Shim.boot : Shim := { net := .boot, waiting := none }

inductive Input where
  /-- The application makes a call, at a time in milliseconds. -/
  | call (call : Call) (now : UInt32) (answers : Answers)
  /-- Something happens in `net_poll`. -/
  | lwip (event : Event)
  /-- `net_poll` returns, and the clock is read. -/
  | tick (now : UInt32) (answers : Answers)

/-- A call that polls goes on waiting, from the time it started. -/
def Shim.settle (start : UInt32) (result : Progress × State) : Option Reply × Shim :=
  match result.1 with
  | .returned reply => (some reply, { net := result.2, waiting := none })
  | .polls waiting => (none, { net := result.2, waiting := some (waiting, start) })

/-- One step.  While a call polls the application makes no other. -/
def Shim.step (s : Shim) : Input → Except Fault (Option Reply × Shim)
  | .call call now answers =>
      match s.waiting with
      | some _ => .ok (none, s)
      | none => (s.net.enter answers call).map (settle now)
  | .lwip event => (s.net.dispatch event).map fun net => (none, { s with net })
  | .tick now answers =>
      match s.waiting with
      | none => .ok (none, s)
      | some (waiting, start) =>
          if now - start ≥ 30000 then (s.net.expire answers waiting).map (settle start)
          else (s.net.resume answers waiting).map (settle start)

/-- The socket layer as a machine; after a fault nothing is known. -/
def shim : Machine (Except Fault Shim) Input (Option Reply) where
  step s input :=
    match s with
    | .error fault => (none, .error fault)
    | .ok s =>
        match s.step input with
        | .error fault => (none, .error fault)
        | .ok result => (result.1, .ok result.2)

end AppPortKit.Net
