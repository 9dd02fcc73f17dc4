import AppPortKit.Posix.Core

/-!
# The system call interface

The other calls of `posix_shim.c` that reach a descriptor or a path, and `__bmos_syscall`
for them.  A call finds out by the tables whose descriptor it is given; the socket calls do
not.  A session is what an application does: it makes one call after another, each when the
last one has returned, and holds the descriptors it was given and has not closed.
-/

namespace AppPortKit.Posix

open Libc Transition

/-- A result, the bytes stored in the caller's buffers, a status structure, and the address
stored in the caller's address buffer. -/
structure Reply where
  ret : Int
  bytes : List UInt8
  stat : Option Bmfs.Stat
  peer : Option (UInt32 × UInt16)
  deriving DecidableEq

namespace Reply

/-- A result alone. -/
def code (ret : Int) : Reply := { ret, bytes := [], stat := none, peer := none }

def ofTransfer (part : Vectored.Transfer UInt8) : Reply :=
  { ret := part.ret, bytes := part.data, stat := none, peer := none }

def ofFiles (reply : Bmfs.Reply) : Reply :=
  { ret := reply.ret, bytes := reply.bytes, stat := reply.stat, peer := none }

def ofNet (reply : Net.Reply) : Reply :=
  { ret := reply.ret, bytes := reply.bytes, stat := none, peer := reply.peer }

end Reply

/-- A status structure in which nothing but the mode is filled in. -/
def statOfMode (mode : UInt32) : Bmfs.Stat :=
  { mode, nlink := 0, ino := 0, size := 0, blksize := 0, blocks := 0 }

/-- `S_IFSOCK | 0666`. -/
def socketMode : UInt32 := 0o140666

/-- `S_IFCHR | 0620`. -/
def consoleMode : UInt32 := 0o020620

/-- What a system call replies, if it returns, and the state it leaves. -/
abbrev Outcome := Except Net.Fault (Option Reply × State)

namespace State

/-- A reply that leaves everything as it is. -/
def answer (s : State) (reply : Reply) : Outcome := .ok (some reply, s)

/-- A call of the file system. -/
def fileCall (s : State) (call : Bmfs.Call) : Outcome :=
  let result := Bmfs.serve s.files call
  .ok (some (.ofFiles result.1), { s with files := result.2 })

/-- A call of the socket layer. -/
def netCall (s : State) (call : Net.Call) (turn : Turn) : Outcome :=
  (s.perform call turn).map fun result => (result.1.map .ofNet, result.2)

/-- A transfer as a system call. -/
def transferred (result : Result) : Outcome :=
  result.map fun result => (result.1.map .ofTransfer, result.2)

def sysClose (s : State) (fd : Int) (turn : Turn) : Outcome :=
  if (Bmfs.openIndex s.files fd).isSome then s.fileCall (.close fd)
  else if s.shim.net.isFd fd then s.netCall (.close fd) turn
  else if fd = 0 ∨ fd = 1 ∨ fd = 2 then s.answer (.code 0)
  else s.answer (.code (-EBADF))

def sysFstat (s : State) (fd : Int) : Outcome :=
  if (Bmfs.openIndex s.files fd).isSome then s.fileCall (.fstat fd)
  else if s.shim.net.isFd fd then
    s.answer { Reply.code 0 with stat := some (statOfMode socketMode) }
  else if fd ≠ 0 ∧ fd ≠ 1 ∧ fd ≠ 2 then s.answer (.code (-EBADF))
  else s.answer { Reply.code 0 with stat := some (statOfMode consoleMode) }

/-- `whence` is cut to an `int`. -/
def sysLseek (s : State) (fd : Int) (offset whence : Int64) : Outcome :=
  if (Bmfs.openIndex s.files fd).isSome then s.fileCall (.lseek fd offset whence.toInt32)
  else s.answer (.code (-ESPIPE))

/-- `flags` is cut to an `int`; the mode is ignored. -/
def sysOpen (s : State) (path : CString) (flags : UInt64) : Outcome :=
  s.fileCall (.open path flags.toUInt32)

def sysUnlink (s : State) (path : CString) : Outcome := s.fileCall (.unlink path)

def sysFstatat (s : State) (path : CString) : Outcome := s.fileCall (.fstatat path)

def sysSocket (s : State) (domain type : UInt64) (turn : Turn) : Outcome :=
  s.netCall (.socket domain type) turn

def sysBind (s : State) (fd : Int) (addrlen : UInt64) (ip : UInt32) (port : UInt16)
    (turn : Turn) : Outcome :=
  s.netCall (.bind fd addrlen ip port) turn

def sysListen (s : State) (fd : Int) (turn : Turn) : Outcome := s.netCall (.listen fd) turn

def sysAccept4 (s : State) (fd : Int) (addr : Bool) (addrlen : Option UInt32) (turn : Turn) :
    Outcome :=
  s.netCall (.accept fd addr addrlen) turn

def sysConnect (s : State) (fd : Int) (addrlen : UInt64) (ip : UInt32) (port : UInt16)
    (turn : Turn) : Outcome :=
  s.netCall (.connect fd addrlen ip port) turn

def sysSendto (s : State) (fd : Int) (b : Buffer) (turn : Turn) : Outcome :=
  s.netCall (.send fd b.bytes) turn

def sysRecvfrom (s : State) (fd : Int) (len : UInt64) (turn : Turn) : Outcome :=
  s.netCall (.recv fd len) turn

end State

/-! ## The dispatcher -/

/-- The system calls on files, sockets and the console that reach a table, with the
arguments that are looked at.  `openat` is `open`, `stat`, `lstat` and `newfstatat` are one
call, and so are `accept` and `accept4`. -/
inductive Syscall where
  | read (fd : Int) (len : UInt64)
  | write (fd : Int) (b : Buffer)
  | readv (fd : Int) (iov : List UInt64)
  | writev (fd : Int) (iov : List Buffer)
  | close (fd : Int)
  | fstat (fd : Int)
  | lseek (fd : Int) (offset whence : Int64)
  | open (path : CString) (flags : UInt64)
  | unlink (path : CString)
  | fstatat (path : CString)
  | socket (domain type : UInt64)
  | bind (fd : Int) (addrlen : UInt64) (ip : UInt32) (port : UInt16)
  | listen (fd : Int)
  | accept (fd : Int) (addr : Bool) (addrlen : Option UInt32)
  | connect (fd : Int) (addrlen : UInt64) (ip : UInt32) (port : UInt16)
  | sendto (fd : Int) (b : Buffer)
  | recvfrom (fd : Int) (len : UInt64)

/-- The descriptor a call is given. -/
def Syscall.fd : Syscall → Option Int
  | .read fd _ | .write fd _ | .readv fd _ | .writev fd _ | .close fd | .fstat fd
  | .lseek fd _ _ | .bind fd _ _ _ | .listen fd | .accept fd _ _ | .connect fd _ _ _
  | .sendto fd _ | .recvfrom fd _ => some fd
  | .open _ _ | .unlink _ | .fstatat _ | .socket _ _ => none

/-- The elements of a vector with the surroundings of their transfers. -/
def inTurn {ε : Type} (iov : List ε) (turns : Nat → Turn) : List (ε × Turn) :=
  iov.zipIdx.map fun element => (element.1, turns element.2)

/-- `__bmos_syscall`.  A call that makes several transfers has the surroundings of each, the
other calls have the first. -/
def State.bmosSyscall (s : State) (turns : Nat → Turn) : Syscall → Outcome
  | .read fd len => transferred (s.sysRead fd len (turns 0))
  | .write fd b => transferred (s.sysWrite fd b (turns 0))
  | .readv fd iov => transferred (s.sysReadv fd (inTurn iov turns))
  | .writev fd iov => transferred (s.sysWritev fd (inTurn iov turns))
  | .close fd => s.sysClose fd (turns 0)
  | .fstat fd => s.sysFstat fd
  | .lseek fd offset whence => s.sysLseek fd offset whence
  | .open path flags => s.sysOpen path flags
  | .unlink path => s.sysUnlink path
  | .fstatat path => s.sysFstatat path
  | .socket domain type => s.sysSocket domain type (turns 0)
  | .bind fd addrlen ip port => s.sysBind fd addrlen ip port (turns 0)
  | .listen fd => s.sysListen fd (turns 0)
  | .accept fd addr addrlen => s.sysAccept4 fd addr addrlen (turns 0)
  | .connect fd addrlen ip port => s.sysConnect fd addrlen ip port (turns 0)
  | .sendto fd b => s.sysSendto fd b (turns 0)
  | .recvfrom fd len => s.sysRecvfrom fd len (turns 0)

/-! ## Sessions -/

/-- The state of the system, and the descriptors that the application was given by `open`,
`socket` and `accept` and has not closed. -/
structure Session where
  state : State
  held : List Int

def Session.boot (disk : Bmfs.Disk) (fails : Nat → Bool) (console : Console) : Session :=
  { state := .boot disk fails console, held := [] }

/-- The descriptors held after a call has returned. -/
def heldAfter (held : List Int) (ret : Int) : Syscall → List Int
  | .open _ _ | .socket _ _ | .accept _ _ _ => if 0 ≤ ret then ret :: held else held
  | .close fd => if ret = 0 then held.filter (· ≠ fd) else held
  | _ => held

/-- A session ends with a call that faults or has not returned. -/
def kernel : Machine (Option Session) (Syscall × (Nat → Turn)) (Option Reply) where
  step session input :=
    match session with
    | none => (none, none)
    | some session =>
        match session.state.bmosSyscall input.2 input.1 with
        | .ok (some reply, state) =>
            (some reply, some { state, held := heldAfter session.held reply.ret input.1 })
        | _ => (none, none)

/-- The application holds a descriptor.  Those of the console are always there. -/
def Session.Holds (session : Session) (fd : Int) : Prop :=
  fd = 0 ∨ fd = 1 ∨ fd = 2 ∨ fd ∈ session.held

end AppPortKit.Posix
