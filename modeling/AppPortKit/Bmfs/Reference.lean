import AppPortKit.Bmfs.Core
import Mathlib.Data.Finset.Card

/-!
# The reference store

What the file system is for, without sectors, slots or machine words: a store of
at most 64 named byte arrays of fixed capacity, used through at most eight
descriptors.  A file has a committed size, and an open descriptor has a position
and a size of its own that is committed when it is closed.

The store is deterministic but for one thing: nothing is promised about the bytes
a new file starts with.
-/

namespace AppPortKit.Bmfs

open Libc Transition

/-- A file of the reference store; only the bytes below its capacity count. -/
structure RefFile where
  cap : Nat
  data : Nat → UInt8
  size : Nat

/-- An open descriptor of the reference store. -/
structure RefHandle where
  name : CString
  append : Bool
  pos : Nat
  size : Nat

/-- The offset at which a descriptor's next write stores. -/
def RefHandle.offset (handle : RefHandle) : Nat :=
  if handle.append then handle.size else handle.pos

structure RefStore where
  names : Finset CString
  file : CString → RefFile
  fds : Fin 8 → Option RefHandle

/-- What a caller sees of a call: its result, the bytes read and the size
reported. -/
structure Observation where
  ret : Int
  bytes : List UInt8
  size : Option Int
  deriving DecidableEq

/-- A result alone. -/
def Observation.code (ret : Int) : Observation := { ret, bytes := [], size := none }

namespace RefStore

/-- Names a file can be created under. -/
def Nameable (name : CString) : Prop :=
  name.bytes ≠ [] ∧ name.bytes.length < 32 ∧ slash ∉ name.bytes

instance (name : CString) : Decidable (Nameable name) := inferInstanceAs (Decidable (_ ∧ _ ∧ _))

/-- The lowest descriptor that is not open. -/
def freeFd (a : RefStore) : Option (Fin 8) :=
  (List.finRange 8).find? fun fd => (a.fds fd).isNone

/-- A new file of one block. -/
def create (a : RefStore) (name : CString) (init : Nat → UInt8) : RefStore :=
  { a with
    names := insert name a.names
    file := Function.update a.file name { cap := 2097152, data := init, size := 0 } }

/-- Set the committed size of a file. -/
def commit (a : RefStore) (name : CString) (size : Nat) : RefStore :=
  { a with file := Function.update a.file name { a.file name with size } }

/-- Replace the bytes of a file. -/
def store (a : RefStore) (name : CString) (data : Nat → UInt8) : RefStore :=
  { a with file := Function.update a.file name { a.file name with data } }

def setFd (a : RefStore) (fd : Fin 8) (handle : Option RefHandle) : RefStore :=
  { a with fds := Function.update a.fds fd handle }

theorem file_create (a : RefStore) (name : CString) (init : Nat → UInt8) :
    (a.create name init).file =
      Function.update a.file name { cap := 2097152, data := init, size := 0 } :=
  rfl

theorem file_commit (a : RefStore) (name : CString) (size : Nat) :
    (a.commit name size).file = Function.update a.file name { a.file name with size } :=
  rfl

theorem file_store (a : RefStore) (name : CString) (data : Nat → UInt8) :
    (a.store name data).file = Function.update a.file name { a.file name with data } :=
  rfl

theorem fds_setFd (a : RefStore) (fd : Fin 8) (handle : Option RefHandle) :
    (a.setFd fd handle).fds = Function.update a.fds fd handle :=
  rfl

/-- Open a descriptor at the start of a file, or at its end for appending. -/
def attach (a : RefStore) (fd : Fin 8) (name : CString) (append : Bool) : RefStore :=
  a.setFd fd (some
    { name
      append
      pos := if append then (a.file name).size else 0
      size := (a.file name).size })

/-- The last step of an open: truncate if asked to, and attach a descriptor. -/
def openNamed (a : RefStore) (fd : Fin 8) (name : CString) (flags : UInt32) :
    Observation × RefStore :=
  let a := if hasFlag flags oTrunc then a.commit name 0 else a
  (.code (3 + (fd.val : Int)), a.attach fd name (hasFlag flags oAppend))

/-- `init` is what the file's bytes are if the call creates it. -/
def openFile (a : RefStore) (init : Nat → UInt8) (name : CString) (flags : UInt32) :
    Observation × RefStore :=
  if ¬Nameable name then (.code (-ENOENT), a)
  else
    match a.freeFd with
    | none => (.code (-EMFILE), a)
    | some fd =>
        if name ∈ a.names then
          if hasFlag flags oCreat && hasFlag flags oExcl then (.code (-EEXIST), a)
          else a.openNamed fd name flags
        else if !hasFlag flags oCreat then (.code (-ENOENT), a)
        else if 64 ≤ a.names.card then (.code (-ENOSPC), a)
        else (a.create name init).openNamed fd name flags

/-- Bytes left before the end, at most as many as asked for. -/
def read (a : RefStore) (fd : Fin 8) (handle : RefHandle) (len : Nat) :
    Observation × RefStore :=
  let n := min len (handle.size - handle.pos)
  ({ ret := n
     bytes := (List.range n).map fun index => (a.file handle.name).data (handle.pos + index)
     size := none },
    a.setFd fd (some { handle with pos := handle.pos + n }))

theorem read_eq (a : RefStore) (fd : Fin 8) (handle : RefHandle) {len n : Nat}
    (count : min len (handle.size - handle.pos) = n) :
    a.read fd handle len =
      ({ ret := n
         bytes := (List.range n).map fun index =>
           (a.file handle.name).data (handle.pos + index)
         size := none },
        a.setFd fd (some { handle with pos := handle.pos + n })) := by
  subst count
  rfl

/-- Bytes that fit, at the position or, for appending, at the end.  A write past the
capacity fails; an append has moved the position by then. -/
def write (a : RefStore) (fd : Fin 8) (handle : RefHandle) (buf : Nat → UInt8) (len : Nat) :
    Observation × RefStore :=
  let off := handle.offset
  let file := a.file handle.name
  if file.cap ≤ off then
    (.code (-ENOSPC), a.setFd fd (some { handle with pos := off }))
  else
    let n := min len (file.cap - off)
    let data := fun index =>
      if off ≤ index ∧ index < off + n then buf (index - off) else file.data index
    (.code n, (a.store handle.name data).setFd fd
      (some { handle with pos := off + n, size := max handle.size (off + n) }))

theorem write_of_full {a : RefStore} {handle : RefHandle}
    (full : (a.file handle.name).cap ≤ handle.offset) (fd : Fin 8) (buf : Nat → UInt8)
    (len : Nat) :
    a.write fd handle buf len =
      (.code (-ENOSPC), a.setFd fd (some { handle with pos := handle.offset })) := by
  rw [write, if_pos full]

theorem write_of_room {a : RefStore} {handle : RefHandle} {len n : Nat}
    (room : handle.offset < (a.file handle.name).cap)
    (count : n = min len ((a.file handle.name).cap - handle.offset)) (fd : Fin 8)
    (buf : Nat → UInt8) :
    a.write fd handle buf len =
      (.code n, (a.store handle.name fun index =>
          if handle.offset ≤ index ∧ index < handle.offset + n then buf (index - handle.offset)
          else (a.file handle.name).data index).setFd fd
        (some { handle with
          pos := handle.offset + n, size := max handle.size (handle.offset + n) })) := by
  subst count
  rw [write, if_neg (Nat.not_le.mpr room)]

def seek (a : RefStore) (fd : Fin 8) (handle : RefHandle) (offset : Int) (whence : Int32) :
    Observation × RefStore :=
  match seekBase handle.pos handle.size whence with
  | none => (.code (-EINVAL), a)
  | some base =>
      if (base : Int) + offset < 0 then (.code (-EINVAL), a)
      else (.code ((base : Int) + offset),
        a.setFd fd (some { handle with pos := ((base : Int) + offset).toNat }))

def close (a : RefStore) (fd : Fin 8) (handle : RefHandle) : Observation × RefStore :=
  (.code 0, (a.commit handle.name handle.size).setFd fd none)

def stat (a : RefStore) (name : CString) : Observation × RefStore :=
  if name ∈ a.names then ({ ret := 0, bytes := [], size := some (a.file name).size }, a)
  else (.code (-ENOENT), a)

def unlink (a : RefStore) (name : CString) : Observation × RefStore :=
  if name ∈ a.names then (.code 0, { a with names := a.names.erase name })
  else (.code (-ENOENT), a)

/-- The descriptor a number stands for, if it is open. -/
def handle (a : RefStore) (fd : Int) : Option (Fin 8 × RefHandle) :=
  (fdIndex fd).bind fun index => (a.fds index).map fun handle => (index, handle)

/-- One call of the store. -/
def serve (a : RefStore) (init : Nat → UInt8) : Call → Observation × RefStore
  | .open path flags => a.openFile init (bmfsName path) flags
  | .read fd len =>
      match a.handle fd with
      | none => (.code (-EBADF), a)
      | some (index, handle) => a.read index handle len.toNat
  | .write fd buf len =>
      match a.handle fd with
      | none => (.code (-EBADF), a)
      | some (index, handle) => a.write index handle buf len.toNat
  | .lseek fd offset whence =>
      match a.handle fd with
      | none => (.code (-ESPIPE), a)
      | some (index, handle) => a.seek index handle offset.toInt whence
  | .close fd =>
      match a.handle fd with
      | none => (.code (-EBADF), a)
      | some (index, handle) => a.close index handle
  | .fstat fd =>
      match a.handle fd with
      | none => (.code (-EBADF), a)
      | some (_, handle) => ({ ret := 0, bytes := [], size := some handle.size }, a)
  | .fstatat path => a.stat (bmfsName path)
  | .unlink path => a.unlink (bmfsName path)

end RefStore

/-- The store as a specification: a new file may start with any bytes. -/
def reference : Spec RefStore Call Observation where
  step a call observation a' := ∃ init, a.serve init call = (observation, a')

/-- What a caller sees of a reply of the file system. -/
def Reply.observe (reply : Reply) : Observation :=
  { ret := reply.ret, bytes := reply.bytes, size := reply.stat.map Stat.size }

@[simp] theorem Reply.observe_code (ret : Int) : (Reply.code ret).observe = .code ret := rfl

end AppPortKit.Bmfs
