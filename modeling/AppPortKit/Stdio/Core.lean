import AppPortKit.Foundation.Program
import AppPortKit.Posix.Gather
import AppPortKit.Posix.Syscalls

/-!
# Streams

musl's `FILE` and the functions that read and write through its buffer.  The write buffer is
the list of bytes between `wbase` and `wpos`, and the read buffer that between `rpos` and
`rend`; a null pointer is `none`.  Locking, wide characters and `errno` are left out.
-/

namespace AppPortKit.Stdio

open Libc Posix Program

/-! ## System calls -/

/-- The system, and the surroundings of the system calls to come. -/
structure World where
  system : State
  turns : List (Nat → Turn)

abbrev Prog := Program Net.Fault World

/-- `__bmos_syscall` in the next surroundings.  When there are none, the call has not
returned. -/
def bmosSyscall (call : Syscall) : Prog Reply := fun w =>
  match w.turns with
  | [] => .ok (none, w)
  | turns :: later => do
      let result ← w.system.bmosSyscall turns call
      .ok (result.1, { system := result.2, turns := later })

/-- `__syscall_ret`. -/
def syscallRet (r : Int) : Int := if -4096 < r ∧ r < 0 then -1 else r

/-- A system call that returns. -/
theorem returns_bmosSyscall {w : World} {call : Syscall} {turns : Nat → Turn}
    {later : List (Nat → Turn)} {reply : Reply} {s : State} (next : w.turns = turns :: later)
    (served : w.system.bmosSyscall turns call = .ok (some reply, s)) :
    Returns (bmosSyscall call) w fun reply' w' => reply' = reply ∧ w' = ⟨s, later⟩ := by
  refine ⟨reply, ⟨s, later⟩, ?_, rfl, rfl⟩
  simp only [bmosSyscall, next, served, bind, Except.bind]

theorem syscallRet_of_nonneg {r : Int} (nonneg : 0 ≤ r) : syscallRet r = r := by
  rw [syscallRet, if_neg (by omega)]

theorem syscallRet_natCast (count : Nat) : syscallRet count = count :=
  syscallRet_of_nonneg (Int.natCast_nonneg count)

/-! ## `FILE` -/

/-- `struct _IO_FILE`.  `lbf` is the byte after which the buffer is written out, and the
flags are `F_NORD` and so on. -/
structure IoFile where
  fd : Int
  bufSize : Nat
  lbf : Option UInt8
  write : Option (List UInt8)
  read : Option (List UInt8)
  noRead : Bool
  noWrite : Bool
  eof : Bool
  err : Bool
  app : Bool

namespace IoFile

/-- The bytes between `wbase` and `wpos`. -/
def pending (f : IoFile) : List UInt8 := f.write.getD []

/-- The bytes between `rpos` and `rend`. -/
def unread (f : IoFile) : List UInt8 := f.read.getD []

/-- `wend - wpos`. -/
def writeRoom (f : IoFile) : Nat :=
  match f.write with
  | none => 0
  | some pending => f.bufSize - pending.length

/-! ## Output -/

/-- `true` stands for 0. -/
def towrite (f : IoFile) : Bool × IoFile :=
  if f.noWrite then (false, { f with err := true })
  else (true, { f with read := none, write := some [] })

/-- The vector from the byte on that is to be written next. -/
def advance : List (List UInt8) → Nat → List (List UInt8)
  | first :: second :: rest, cnt =>
      if cnt > first.length then second.drop (cnt - first.length) :: rest
      else first.drop cnt :: second :: rest
  | [first], cnt => [first.drop cnt]
  | [], _ => []

/-- The loop of `__stdio_write`. -/
def stdioWriteLoop (f : IoFile) (len : Nat) : Nat → List (List UInt8) → Nat → Prog (Nat × IoFile)
  | 0, _, _ => Program.hangs
  | fuel + 1, iov, rem => do
      let reply ← bmosSyscall (.writev f.fd (iov.map Buffer.ofBytes))
      let cnt := syscallRet reply.ret
      if cnt = rem then pure (len, { f with write := some [] })
      else if cnt < 0 then
        pure (if iov.length = 2 then 0 else len - (iov.headD []).length,
          { f with write := none, err := true })
      else stdioWriteLoop f len fuel (advance iov cnt.toNat) (rem - cnt.toNat)

/-- The vector that the loop starts with. -/
def iovs (f : IoFile) (buf : List UInt8) : List (List UInt8) :=
  if f.pending.length = 0 then [buf] else [f.pending, buf]

/-- A pass of the loop makes a system call, so the surroundings bound their number. -/
def stdioWrite (f : IoFile) (buf : List UInt8) : Prog (Nat × IoFile) := fun w =>
  stdioWriteLoop f buf.length (w.turns.length + 1) (f.iovs buf)
    (f.pending.length + buf.length) w

/-- How far the bytes reach to the last that ends a line. -/
def throughNewline (s : List UInt8) : Nat := (s.reverse.dropWhile (· ≠ 10)).length

def fwritex (s : List UInt8) (f : IoFile) : Prog (Nat × IoFile) := do
  let ready := if f.write.isNone then f.towrite else (true, f)
  if !ready.1 then pure (0, ready.2)
  else
    let f := ready.2
    if s.length > f.writeRoom then f.stdioWrite s
    else
      let i := if f.lbf.isSome then throughNewline s else 0
      if i = 0 then pure (s.length, { f with write := some (f.pending ++ s) })
      else do
        let written ← f.stdioWrite (s.take i)
        if written.1 < i then pure written
        else
          let f := written.2
          pure (s.length, { f with write := some (f.pending ++ s.drop i) })

def fwrite (src : List UInt8) (size nmemb : Nat) (f : IoFile) : Prog (Nat × IoFile) := do
  let l := size * nmemb
  let nmemb := if size = 0 then 0 else nmemb
  let result ← fwritex (src.take l) f
  pure (if result.1 = l then nmemb else result.1 / size, result.2)

/-- `EOF` is `none`. -/
def overflow (f : IoFile) (c : UInt8) : Prog (Option UInt8 × IoFile) := do
  let ready := if f.write.isNone then f.towrite else (true, f)
  if !ready.1 then pure (none, ready.2)
  else
    let f := ready.2
    if f.writeRoom ≠ 0 ∧ some c ≠ f.lbf then
      pure (some c, { f with write := some (f.pending ++ [c]) })
    else do
      let written ← f.stdioWrite [c]
      pure (if written.1 ≠ 1 then none else some c, written.2)

/-- `putc_unlocked`. -/
def fputc (c : UInt8) (f : IoFile) : Prog (Option UInt8 × IoFile) :=
  if some c ≠ f.lbf ∧ f.writeRoom ≠ 0 then
    pure (some c, { f with write := some (f.pending ++ [c]) })
  else f.overflow c

/-! ## Input -/

/-- `true` stands for 0, and `false` for `EOF`. -/
def toread (f : IoFile) : Prog (Bool × IoFile) := do
  let written ← if f.pending ≠ [] then f.stdioWrite [] else pure (0, f)
  let f := { written.2 with write := none }
  if f.noRead then pure (false, { f with err := true })
  else pure (!f.eof, { f with read := some [] })

/-- The bytes that `__stdio_read` stores; their number is what it returns. -/
def stdioRead (f : IoFile) (len : Nat) : Prog (List UInt8 × IoFile) := do
  let first := len - if f.bufSize = 0 then 0 else 1
  let reply ←
    (if first ≠ 0 then
      bmosSyscall (.readv f.fd [UInt64.ofNat first, UInt64.ofNat f.bufSize])
    else bmosSyscall (.read f.fd (UInt64.ofNat f.bufSize)))
  let cnt := syscallRet reply.ret
  if cnt ≤ 0 then
    pure ([], if cnt = 0 then { f with eof := true } else { f with err := true })
  else if cnt ≤ first then pure (reply.bytes, f)
  else
    let buffered := reply.bytes.drop first
    let next := if f.bufSize = 0 then 0 else 1
    pure (reply.bytes.take first ++ buffered.take next,
      { f with read := some (buffered.drop next) })

/-- The loop of `fread`, with the bytes stored so far. -/
def freadLoop : Nat → Nat → List UInt8 → IoFile → Prog (List UInt8 × IoFile)
  | 0, _, _, _ => Program.hangs
  | fuel + 1, l, stored, f =>
      if l = 0 then pure (stored, f)
      else do
        let ready ← f.toread
        if !ready.1 then pure (stored, ready.2)
        else do
          let got ← ready.2.stdioRead l
          if got.1.length = 0 then pure (stored, got.2)
          else freadLoop fuel (l - got.1.length) (stored ++ got.1) got.2

/-- The bytes that `fread` stores when it is asked for `len`.  A pass of the loop makes a
system call, so the surroundings bound their number. -/
def freadBytes (len : Nat) (f : IoFile) : Prog (List UInt8 × IoFile) := fun w =>
  let k := min f.unread.length len
  let f' := if f.unread = [] then f else { f with read := some (f.unread.drop k) }
  freadLoop (w.turns.length + 1) (len - k) (f.unread.take k) f' w

def fread (size nmemb : Nat) (f : IoFile) : Prog ((Nat × List UInt8) × IoFile) := do
  let len := size * nmemb
  let nmemb := if size = 0 then 0 else nmemb
  let got ← freadBytes len f
  pure ((if got.1.length = len then nmemb else got.1.length / size, got.1), got.2)

/-- `EOF` is `none`. -/
def uflow (f : IoFile) : Prog (Option UInt8 × IoFile) := do
  let ready ← f.toread
  if !ready.1 then pure (none, ready.2)
  else do
    let got ← ready.2.stdioRead 1
    pure (if got.1.length = 1 then got.1.head? else none, got.2)

/-- `getc_unlocked`. -/
def fgetc (f : IoFile) : Prog (Option UInt8 × IoFile) :=
  match f.unread with
  | c :: rest => pure (some c, { f with read := some rest })
  | [] => f.uflow

/-! ## Positions -/

/-- `__stdio_seek`. -/
def stdioSeek (f : IoFile) (off whence : Int64) : Prog Int := do
  let reply ← bmosSyscall (.lseek f.fd off whence)
  pure (syscallRet reply.ret)

/-- `true` stands for 0, and `false` for `EOF`. -/
def fflush (f : IoFile) : Prog (Bool × IoFile) := do
  let written ← if f.pending ≠ [] then f.stdioWrite [] else pure (0, f)
  if f.pending ≠ [] ∧ written.2.write.isNone then pure (false, written.2)
  else do
    let f := written.2
    let _ ← if f.unread ≠ [] then f.stdioSeek (-Int64.ofNat f.unread.length) 1 else pure 0
    pure (true, { f with write := none, read := none })

/-- `true` stands for 0. -/
def fseeko (f : IoFile) (off whence : Int64) : Prog (Bool × IoFile) := do
  if whence ≠ 1 ∧ whence ≠ 0 ∧ whence ≠ 2 then pure (false, f)
  else do
    let off :=
      if whence = 1 ∧ f.read.isSome then off - Int64.ofNat f.unread.length else off
    let written ← if f.pending ≠ [] then f.stdioWrite [] else pure (0, f)
    if f.pending ≠ [] ∧ written.2.write.isNone then pure (false, written.2)
    else do
      let f := { written.2 with write := none }
      let pos ← f.stdioSeek off whence
      if pos < 0 then pure (false, f)
      else pure (true, { f with read := none, eof := false })

def ftello (f : IoFile) : Prog Int := do
  let pos ← f.stdioSeek 0 (if f.app ∧ f.pending ≠ [] then 2 else 1)
  if pos < 0 then pure pos
  else pure (if f.read.isSome then pos - f.unread.length else pos + f.pending.length)

/-! ## Opening and closing -/

/-- `true` stands for 0. -/
def fclose (f : IoFile) : Prog Bool := do
  let flushed ← f.fflush
  let reply ← bmosSyscall (.close flushed.2.fd)
  pure (flushed.1 && syscallRet reply.ret == 0)

end IoFile

/-- The first letter of a mode. -/
inductive Mode where
  | r
  | w
  | a
  deriving DecidableEq, Repr

/-- `__fmodeflags`, with whether the mode has a `+`. -/
def fmodeflags (mode : Mode) (update : Bool) : UInt64 :=
  let access : UInt64 := if update then 2 else if mode = .r then 0 else 1
  let creat : UInt64 := if mode ≠ .r then 0o100 else 0
  let trunc : UInt64 := if mode = .w then 0o1000 else 0
  let append : UInt64 := if mode = .a then 0o2000 else 0
  access ||| creat ||| trunc ||| append

/-- `__fdopen`, with memory for the stream.  `ioctl` takes the console for a terminal, and
nothing else. -/
def fdopen (fd : Int) (mode : Mode) (update : Bool) : IoFile :=
  { fd
    bufSize := 1024
    lbf := if ¬ (!update && mode = .r) ∧ (fd = 0 ∨ fd = 1 ∨ fd = 2) then some 10 else none
    write := none
    read := none
    noRead := !update && mode ≠ .r
    noWrite := !update && mode = .r
    eof := false
    err := false
    app := mode = .a }

def fopen (filename : CString) (mode : Mode) (update : Bool) (memory : Bool) :
    Prog (Option IoFile) := do
  let reply ← bmosSyscall (.open filename (fmodeflags mode update))
  let fd := syscallRet reply.ret
  if fd < 0 then pure none
  else if memory then pure (some (fdopen fd mode update))
  else do
    let _ ← bmosSyscall (.close fd)
    pure none

/-- `stdout`, until `setvbuf` is called.  `__stdout_write` asks `ioctl` whether it is a
terminal, and it is. -/
def stdout : IoFile :=
  { fd := 1, bufSize := 1024, lbf := some 10, write := none, read := none
    noRead := true, noWrite := false, eof := false, err := false, app := false }

def stderr : IoFile :=
  { fd := 2, bufSize := 0, lbf := none, write := none, read := none
    noRead := true, noWrite := false, eof := false, err := false, app := false }

end AppPortKit.Stdio
