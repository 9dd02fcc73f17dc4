import AppPortKit.Bmfs.Core
import AppPortKit.Foundation.Vectored
import AppPortKit.Net.Core

/-!
# System calls

The part of `posix_shim.c` that hands the calls of the application to the file system,
the socket layer and the console.  A socket call may have to poll; what lwIP does then,
and what it answers, is an argument of the call.  A call that still polls when that ends
has not returned.
-/

namespace AppPortKit.Posix

open Libc

/-! ## State -/

/-- The console: the results of `b_input` in order, zero where no key was pressed, of
which `next` have been taken, and the bytes sent to `b_output`.  Keys never cease to be
pressed. -/
structure Console where
  keys : Nat → UInt8
  live : ∀ start, ∃ position, start ≤ position ∧ keys position ≠ 0
  next : Nat
  output : List UInt8

/-- `b_output`. -/
def Console.put (c : Console) (bytes : List UInt8) : Console :=
  { c with output := c.output ++ bytes }

/-- The bytes ever enqueued on a control block, kept when it is gone, are `enqueued`.
Nothing in the source reads this. -/
structure State where
  files : Bmfs.State
  shim : Net.Shim
  enqueued : Nat → List UInt8
  console : Console

/-- A buffer of the application, as an element of a vector names it. -/
structure Buffer where
  base : Nat → UInt8
  len : UInt64

def Buffer.bytes (b : Buffer) : List UInt8 := (List.range b.len.toNat).map b.base

/-- A pass of `net_poll`: what lwIP does in it, the time after it, and what lwIP answers to
the next pass of the call. -/
structure Moment where
  events : List Net.Event
  now : UInt32
  answers : Net.Answers

def Moment.inputs (moment : Moment) : List Net.Input :=
  moment.events.map .lwip ++ [.tick moment.now moment.answers]

/-- The surroundings of a socket call: the time it is made, lwIP's answers to its first
pass, and the passes of `net_poll` that follow. -/
structure Turn where
  now : UInt32
  answers : Net.Answers
  polls : List Moment

/-- The bytes a step enqueues on a control block. -/
def appended (t t' : Net.Tcp) (p : Nat) : List UInt8 :=
  match t.pcbs p, t'.pcbs p with
  | some b, some b' => b'.sent.drop b.sent.length
  | _, _ => []

namespace State

/-- Before the first call. -/
def boot (disk : Bmfs.Disk) (fails : Nat → Bool) (console : Console) : State :=
  { files := .boot disk fails, shim := .boot, enqueued := fun _ => [], console }

/-! ## Socket calls -/

/-- One step of the socket layer. -/
def advance (s : State) (input : Net.Input) : Except Net.Fault (Option Net.Reply × State) := do
  let result ← s.shim.step input
  .ok (result.1, { s with
    shim := result.2
    enqueued := fun p => s.enqueued p ++ appended s.shim.net.tcp result.2.net.tcp p })

/-- A call that polls, until it returns. -/
def await : List Net.Input → State → Except Net.Fault (Option Net.Reply × State)
  | [], s => .ok (none, s)
  | input :: rest, s => do
      let result ← s.advance input
      match result.1 with
      | some reply => .ok (some reply, result.2)
      | none => await rest result.2

/-- A socket call. -/
def perform (s : State) (call : Net.Call) (turn : Turn) :
    Except Net.Fault (Option Net.Reply × State) := do
  let result ← s.advance (.call call turn.now turn.answers)
  match result.1 with
  | some reply => .ok (some reply, result.2)
  | none => await (turn.polls.flatMap Moment.inputs) result.2

/-- What a system call returns and delivers. -/
abbrev Result := Except Net.Fault (Option (Vectored.Transfer UInt8) × State)

/-- A result alone. -/
def code (s : State) (ret : Int) : Result := .ok (some { ret, data := [] }, s)

/-- A socket call as a system call. -/
def socketCall (s : State) (call : Net.Call) (turn : Turn) : Result := do
  let result ← s.perform call turn
  .ok (result.1.map fun reply => { ret := reply.ret, data := reply.bytes }, result.2)

/-! ## Input and output -/

def sysWrite (s : State) (fd : Int) (b : Buffer) (turn : Turn) : Result :=
  match Bmfs.openIndex s.files fd with
  | some index =>
      let result := Bmfs.bmfsWrite s.files index b.base b.len
      { s with files := result.2 }.code result.1
  | none =>
      if s.shim.net.isFd fd then s.socketCall (.send fd b.bytes) turn
      else if fd ≠ 1 ∧ fd ≠ 2 then s.code (-EBADF)
      else if Word64.signed b.len > 0 then
        { s with console := s.console.put b.bytes }.code (Word64.signed b.len)
      else s.code (Word64.signed b.len)

end State

namespace Console

/-- The first key pressed from now on. -/
def first (c : Console) : Nat := Nat.find (c.live c.next)

/-- The keys that follow without a pause, at most as many as there is room for, and the
number of results taken after them.  The result that ends them is taken too. -/
def drain (keys : Nat → UInt8) : (room position : Nat) → List UInt8 × Nat
  | 0, position => ([], position)
  | room + 1, position =>
      if keys position = 0 then ([], position + 1)
      else
        let rest := drain keys room (position + 1)
        (keys position :: rest.1, rest.2)

/-- `sys_read` of at least one byte from the console. -/
def read (c : Console) (len : Nat) : List UInt8 × Console :=
  let rest := drain c.keys (len - 1) (c.first + 1)
  (c.keys c.first :: rest.1, { c with next := rest.2 })

end Console

namespace State

def sysRead (s : State) (fd : Int) (len : UInt64) (turn : Turn) : Result :=
  match Bmfs.openIndex s.files fd with
  | some index =>
      let result := Bmfs.bmfsRead s.files index len
      .ok (some { ret := result.1, data := result.2.1 }, { s with files := result.2.2 })
  | none =>
      if s.shim.net.isFd fd then s.socketCall (.recv fd len) turn
      else if fd ≠ 0 then s.code (-EBADF)
      else if Word64.signed len ≤ 0 then s.code 0
      else
        let result := s.console.read len.toNat
        .ok (some { ret := result.1.length, data := result.1 },
          { s with console := result.2 })

/-- Each element of the vector comes with the surroundings of its transfer. -/
def sysWritev (s : State) (fd : Int) (iov : List (Buffer × Turn)) : Result :=
  Vectored.loop (fun s element => s.sysWrite fd element.1 element.2)
    (fun element => element.1.len.toNat) .zero iov s

@[inherit_doc sysWritev]
def sysReadv (s : State) (fd : Int) (iov : List (UInt64 × Turn)) : Result :=
  Vectored.loop (fun s element => s.sysRead fd element.1 element.2)
    (fun element => element.1.toNat) .zero iov s

end State

end AppPortKit.Posix
