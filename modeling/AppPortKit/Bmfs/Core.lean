import AppPortKit.Bmfs.Directory
import AppPortKit.Foundation.Machine
import Mathlib.Order.Lattice.Nat

/-!
# The file system

The statics of the file system are a state that every operation threads.  Lengths,
offsets and block numbers are 64-bit words and wrap as in the source.  An open file
is represented by its index in the table; the system call layer checks a descriptor
with `bmfs_is_fd` before any operation indexes the table with it.
-/

namespace AppPortKit.Bmfs

open Libc Transition

/-- `struct bmfs_file`. -/
structure File where
  used : Bool
  dirty : Bool
  append : Bool
  dirIndex : Fin 64
  startBlock : UInt64
  reservedBlocks : UInt64
  size : UInt64
  pos : UInt64

/-- The statics of the file system and the drive it runs on. -/
structure State where
  dir : Dir
  dirLoaded : Bool
  files : Fin 8 → File
  scratch : Sector
  device : Device

/-- The statics as the image is loaded, over a drive. -/
def State.boot (disk : Disk) (fails : Nat → Bool) : State :=
  { dir := fun _ => Dirent.zero
    dirLoaded := false
    files := fun _ =>
      { used := false, dirty := false, append := false, dirIndex := Dir.first
        startBlock := 0, reservedBlocks := 0, size := 0, pos := 0 }
    scratch := fun _ => 0
    device := { disk, log := [], calls := 0, requests := [], fails } }

/-- Replace one open file. -/
def State.setFile (s : State) (index : Fin 8) (file : File) : State :=
  { s with files := Function.update s.files index file }

/-! ## Directory cache -/

/-- A failed read leaves the table as it is; the flag is set either way. -/
def dirLoad (s : State) : State :=
  if s.dirLoaded then s
  else
    let read := s.device.nvsRead s.dir.encode dirSector
    { s with dir := Dir.decode read.2.1, device := read.2.2, dirLoaded := true }

def dirFlush (s : State) : State :=
  { s with device := (s.device.nvsWrite s.dir.encode dirSector).2 }

/-! ## Opening -/

/-- Flags of `open`. -/
def oCreat : UInt32 := 0o100

@[inherit_doc oCreat] def oExcl : UInt32 := 0o200

@[inherit_doc oCreat] def oTrunc : UInt32 := 0o1000

@[inherit_doc oCreat] def oAppend : UInt32 := 0o2000

/-- A flag is set. -/
def hasFlag (flags flag : UInt32) : Bool := flags &&& flag != 0

/-- The first free record of the table of open files. -/
def findFreeFile (files : Fin 8 → File) : Option (Fin 8) :=
  (List.finRange 8).find? fun index => !(files index).used

/-- The entry a name is copied into, before its blocks are allocated. -/
def namedEntry (name : CString) : Dirent :=
  { Dirent.zero with
    name := fun offset => if offset.val < name.strnlen 32 then name.char offset else 0 }

/-- Fill a free slot.  The next free block is computed with the named entry in
the table and no blocks assigned to it yet. -/
def createEntry (dir : Dir) (slot : Fin 64) (name : CString) : Dir :=
  let named := Function.update dir slot (namedEntry name)
  Function.update named slot
    { namedEntry name with
      startBlock := dirNextFreeBlock named
      reservedBlocks := defaultBlocks
      size := 0 }

/-- The record `open` fills for an entry. -/
def openedFile (entry : Dirent) (di : Fin 64) (flags : UInt32) : File :=
  { used := true
    dirty := false
    append := hasFlag flags oAppend
    dirIndex := di
    startBlock := entry.startBlock
    reservedBlocks := entry.reservedBlocks
    size := entry.size
    pos := if hasFlag flags oAppend then entry.size else 0 }

/-- The end of `open`: truncate if asked to, and fill the free record. -/
def openEntry (s : State) (slot : Fin 8) (di : Fin 64) (flags : UInt32) : Int × State :=
  let s :=
    if hasFlag flags oTrunc then
      dirFlush { s with dir := Function.update s.dir di { s.dir di with size := 0 } }
    else
      s
  (3 + (slot.val : Int), s.setFile slot (openedFile (s.dir di) di flags))

/-- The name checks of `open`: non-empty, at most 31 bytes, no slash. -/
def validName (name : CString) : Prop :=
  ¬(name.strnlen 32 = 0 ∨ name.strnlen 32 ≥ 32 ∨ name.strchr slash)

instance (name : CString) : Decidable (validName name) := inferInstanceAs (Decidable (¬_))

/-- The `mode` argument is ignored by the source. -/
def bmfsOpen (s : State) (path : CString) (flags : UInt32) : Int × State :=
  let name := bmfsName path
  if ¬validName name then (-ENOENT, s)
  else
    let s := dirLoad s
    match findFreeFile s.files with
    | none => (-EMFILE, s)
    | some slot =>
        match dirFind s.dir name with
        | none =>
            if !hasFlag flags oCreat then (-ENOENT, s)
            else
              match dirFindFreeSlot s.dir with
              | none => (-ENOSPC, s)
              | some di =>
                  let s := dirFlush { s with dir := createEntry s.dir di name }
                  openEntry s slot di flags
        | some di =>
            if hasFlag flags oCreat && hasFlag flags oExcl then (-EEXIST, s)
            else openEntry s slot di flags

/-! ## Transfers -/

/-- Bytes of the current sector, at most the remaining ones. -/
def chunkLen (base remaining : UInt64) : UInt64 :=
  let chunk := sectorBytes - base % sectorBytes
  if chunk > remaining then remaining else chunk

theorem chunkLen_toNat (base remaining : UInt64) :
    (chunkLen base remaining).toNat =
      min (4096 - base.toNat % 4096) remaining.toNat := by
  have offset : (sectorBytes - base % sectorBytes).toNat = 4096 - base.toNat % 4096 := by
    have small : base % sectorBytes ≤ sectorBytes := by
      rw [UInt64.le_iff_toNat_le, UInt64.toNat_mod, sectorBytes_toNat]
      omega
    rw [UInt64.toNat_sub_of_le _ _ small, UInt64.toNat_mod, sectorBytes_toNat]
  simp only [chunkLen, gt_iff_lt, UInt64.lt_iff_toNat_lt, offset]
  split <;> omega

theorem remaining_sub_chunkLen_toNat (base remaining : UInt64) :
    (remaining - chunkLen base remaining).toNat =
      remaining.toNat - (chunkLen base remaining).toNat := by
  apply UInt64.toNat_sub_of_le
  rw [UInt64.le_iff_toNat_le, chunkLen_toNat]
  omega

theorem remaining_sub_chunkLen_lt {base remaining : UInt64} (more : remaining ≠ 0) :
    (remaining - chunkLen base remaining).toNat < remaining.toNat := by
  have nonzero : remaining.toNat ≠ 0 := by
    simpa [← UInt64.toNat_inj] using more
  rw [remaining_sub_chunkLen_toNat, chunkLen_toNat]
  omega

/-- A transfer of `len` bytes at `off`, cut off at `limit`. -/
def clampLen (limit off len : UInt64) : UInt64 :=
  if off + len > limit then limit - off else len

theorem clampLen_toNat {limit off len : UInt64} (inside : off.toNat < limit.toNat)
    (noWrap : off.toNat + len.toNat < 18446744073709551616) :
    (clampLen limit off len).toNat = min len.toNat (limit.toNat - off.toNat) := by
  have sum : (off + len).toNat = off.toNat + len.toNat := Word64.toNat_add_of_lt noWrap
  have below : off ≤ limit := by
    rw [UInt64.le_iff_toNat_le]
    omega
  have rest := UInt64.toNat_sub_of_le _ _ below
  simp only [clampLen, gt_iff_lt, UInt64.lt_iff_toNat_lt, sum]
  split <;> omega

/-- What fits is no more than what was asked for. -/
theorem clampLen_le {limit off len : UInt64} (inside : off < limit)
    (noWrap : off.toNat + len.toNat < 18446744073709551616) :
    (clampLen limit off len).toNat ≤ len.toNat := by
  rw [clampLen_toNat (UInt64.lt_iff_toNat_lt.mp inside) noWrap]
  exact Nat.min_le_left _ _

/-- A sum that wraps falls short of every limit, and nothing is cut off. -/
theorem clampLen_of_wrap {limit off len : UInt64} (inside : off.toNat < limit.toNat)
    (wraps : 18446744073709551616 ≤ off.toNat + len.toNat) : clampLen limit off len = len := by
  have offWord := off.toNat_lt
  have lenWord := len.toNat_lt
  have sum : (off + len).toNat = off.toNat + len.toNat - 18446744073709551616 := by
    rw [UInt64.toNat_add]
    omega
  have short : ¬off + len > limit := by
    rw [gt_iff_lt, UInt64.lt_iff_toNat_lt, sum]
    omega
  rw [clampLen, if_neg short]

/-- The loop of `bmfs_pread`: the bytes delivered, the scratch sector and the
drive afterwards. -/
def preadLoop (device : Device) (scratch : Sector) (base remaining : UInt64) :
    List UInt8 × Sector × Device :=
  if remaining = 0 then ([], scratch, device)
  else
    let sector := base / sectorBytes
    let sectorOff := base % sectorBytes
    let chunk := chunkLen base remaining
    let read := device.nvsRead scratch sector
    let bytes := (List.range chunk.toNat).map fun index =>
      read.2.1 (SectorStore.place 4096 (sectorOff.toNat + index))
    let rest := preadLoop read.2.2 read.2.1 (base + chunk) (remaining - chunk)
    (bytes ++ rest.1, rest.2)
termination_by remaining.toNat
decreasing_by exact remaining_sub_chunkLen_lt (by assumption)

/-- Result of `bmfs_pread`, the bytes it stores in the caller's buffer, and the
state afterwards. -/
def bmfsPread (s : State) (f : File) (len off : UInt64) : Int × List UInt8 × State :=
  if off ≥ f.size then (0, [], s)
  else
    let len := clampLen f.size off len
    let base := f.startBlock * blockBytes + off
    let loop := preadLoop s.device s.scratch base len
    (Word64.signed len, loop.1, { s with scratch := loop.2.1, device := loop.2.2 })

/-- The loop of `bmfs_pwrite`.  The source pointer is the buffer from its first
byte not yet written on. -/
def pwriteLoop (device : Device) (scratch : Sector) (src : Nat → UInt8)
    (base remaining : UInt64) : Sector × Device :=
  if remaining = 0 then (scratch, device)
  else
    let sector := base / sectorBytes
    let sectorOff := base % sectorBytes
    let chunk := chunkLen base remaining
    let filled :=
      if chunk < sectorBytes then (device.nvsRead scratch sector).2 else (scratch, device)
    let spliced := SectorStore.splice filled.1 sectorOff.toNat chunk.toNat src
    let written := filled.2.nvsWrite spliced sector
    pwriteLoop written.2 spliced (fun index => src (chunk.toNat + index)) (base + chunk)
      (remaining - chunk)
termination_by remaining.toNat
decreasing_by exact remaining_sub_chunkLen_lt (by assumption)

/-- The record after `len` bytes were stored at `off`. -/
def grownFile (f : File) (len off : UInt64) : File :=
  if off + len > f.size then { f with size := off + len, dirty := true } else f

def bmfsPwrite (s : State) (index : Fin 8) (buf : Nat → UInt8) (len off : UInt64) :
    Int × State :=
  let f := s.files index
  let cap := f.reservedBlocks * blockBytes
  if off ≥ cap then (-ENOSPC, s)
  else
    let len := clampLen cap off len
    if len = 0 then (-ENOSPC, s)
    else
      let base := f.startBlock * blockBytes + off
      let loop := pwriteLoop s.device s.scratch buf base len
      (Word64.signed len,
        { s with scratch := loop.1, device := loop.2 }.setFile index (grownFile f len off))

/-! ## Operations on open files -/

/-- A transfer of `n > 0` bytes moves the position. -/
def advance (s : State) (index : Fin 8) (n : Int) : State :=
  let f := s.files index
  if n > 0 then s.setFile index { f with pos := f.pos + UInt64.ofNat n.toNat } else s

def bmfsRead (s : State) (index : Fin 8) (len : UInt64) : Int × List UInt8 × State :=
  let result := bmfsPread s (s.files index) len (s.files index).pos
  (result.1, result.2.1, advance result.2.2 index result.1)

/-- The repositioning of an append descriptor at the start of `bmfs_write`. -/
def seekForAppend (s : State) (index : Fin 8) : State :=
  let f := s.files index
  if f.append then s.setFile index { f with pos := f.size } else s

def bmfsWrite (s : State) (index : Fin 8) (buf : Nat → UInt8) (len : UInt64) : Int × State :=
  let s := seekForAppend s index
  let result := bmfsPwrite s index buf len (s.files index).pos
  (result.1, advance result.2 index result.1)

def bmfsClose (s : State) (index : Fin 8) : Int × State :=
  let f := s.files index
  let s :=
    if f.dirty then
      dirFlush { s with
        dir := Function.update s.dir f.dirIndex { s.dir f.dirIndex with size := f.size } }
    else
      s
  (0, s.setFile index { f with used := false })

/-- The position a seek is relative to, for the three values of `whence`. -/
def lseekBase (f : File) (whence : Int32) : Option Int64 :=
  if whence = 0 then some 0
  else if whence = 1 then some f.pos.toInt64
  else if whence = 2 then some f.size.toInt64
  else none

/-- The same position as a number, of a file whose position and size are numbers. -/
def seekBase (pos size : Nat) (whence : Int32) : Option Nat :=
  if whence = 0 then some 0
  else if whence = 1 then some pos
  else if whence = 2 then some size
  else none

theorem lseekBase_eq {f : File} (pos : f.pos.toNat < 9223372036854775808)
    (size : f.size.toNat < 9223372036854775808) (whence : Int32) :
    (lseekBase f whence).map Int64.toInt =
      (seekBase f.pos.toNat f.size.toNat whence).map Int.ofNat := by
  rw [lseekBase, seekBase]
  split
  · rfl
  split
  · exact congrArg some (Word64.signed_of_lt pos)
  split
  · exact congrArg some (Word64.signed_of_lt size)
  · rfl

def bmfsLseek (s : State) (index : Fin 8) (offset : Int64) (whence : Int32) : Int × State :=
  let f := s.files index
  match lseekBase f whence with
  | none => (-EINVAL, s)
  | some base =>
      let np := base + offset
      if np < 0 then (-EINVAL, s)
      else (np.toInt, s.setFile index { f with pos := np.toUInt64 })

/-- The fields of the status structures that are filled in. -/
structure Stat where
  mode : UInt32
  nlink : UInt64
  ino : UInt64
  size : Int
  blksize : UInt64
  blocks : Int
  deriving DecidableEq

/-- `S_IFREG | 0644`. -/
def regularMode : UInt32 := 0o100644

def bmfsFstatFd (s : State) (index : Fin 8) : Stat :=
  let f := s.files index
  { mode := regularMode
    nlink := 0
    ino := 0
    size := Word64.signed f.size
    blksize := sectorBytes
    blocks := Word64.signed (f.reservedBlocks * blockBytes / 512) }

/-! ## Operations on paths -/

/-- The inode number reported for an entry is its slot plus one. -/
def bmfsFstatat (s : State) (path : CString) : Int × Option Stat × State :=
  let name := bmfsName path
  let s := dirLoad s
  match dirFind s.dir name with
  | none => (-ENOENT, none, s)
  | some di =>
      (0, some
        { mode := regularMode
          nlink := 1
          ino := UInt64.ofNat (di.val + 1)
          size := Word64.signed (s.dir di).size
          blksize := sectorBytes
          blocks := Word64.signed ((s.dir di).reservedBlocks * blockBytes / 512) }, s)

def bmfsUnlink (s : State) (path : CString) : Int × State :=
  let name := bmfsName path
  let s := dirLoad s
  match dirFind s.dir name with
  | none => (-ENOENT, s)
  | some di => (0, dirFlush { s with dir := Function.update s.dir di Dirent.zero })

/-! ## The call interface -/

/-- The record a descriptor number stands for, if it is in range. -/
def fdIndex (fd : Int) : Option (Fin 8) :=
  if bound : 3 ≤ fd ∧ fd < 3 + 8 then some ⟨(fd - 3).toNat, by omega⟩ else none

/-- `bmfs_is_fd`, with the record it vouches for. -/
def openIndex (s : State) (fd : Int) : Option (Fin 8) :=
  (fdIndex fd).filter fun index => (s.files index).used

/-- The calls the system call layer makes. -/
inductive Call where
  | open (path : CString) (flags : UInt32)
  | read (fd : Int) (len : UInt64)
  | write (fd : Int) (buf : Nat → UInt8) (len : UInt64)
  | lseek (fd : Int) (offset : Int64) (whence : Int32)
  | close (fd : Int)
  | fstat (fd : Int)
  | fstatat (path : CString)
  | unlink (path : CString)

/-- A result, the bytes stored in the caller's buffer, and a status structure. -/
structure Reply where
  ret : Int
  bytes : List UInt8
  stat : Option Stat
  deriving DecidableEq

/-- A result alone. -/
def Reply.code (ret : Int) : Reply := { ret, bytes := [], stat := none }

/-- Reply of an operation that returns a result alone. -/
def Reply.ofResult (result : Int × State) : Reply × State := (.code result.1, result.2)

/-- One call.  A descriptor that `bmfs_is_fd` rejects never reaches the file
system. -/
def serve (s : State) : Call → Reply × State
  | .open path flags => Reply.ofResult (bmfsOpen s path flags)
  | .read fd len =>
      match openIndex s fd with
      | none => (.code (-EBADF), s)
      | some index =>
          let result := bmfsRead s index len
          ({ ret := result.1, bytes := result.2.1, stat := none }, result.2.2)
  | .write fd buf len =>
      match openIndex s fd with
      | none => (.code (-EBADF), s)
      | some index => Reply.ofResult (bmfsWrite s index buf len)
  | .lseek fd offset whence =>
      match openIndex s fd with
      | none => (.code (-ESPIPE), s)
      | some index => Reply.ofResult (bmfsLseek s index offset whence)
  | .close fd =>
      match openIndex s fd with
      | none => (.code (-EBADF), s)
      | some index => Reply.ofResult (bmfsClose s index)
  | .fstat fd =>
      match openIndex s fd with
      | none => (.code (-EBADF), s)
      | some index => ({ ret := 0, bytes := [], stat := some (bmfsFstatFd s index) }, s)
  | .fstatat path =>
      let result := bmfsFstatat s path
      ({ ret := result.1, bytes := [], stat := result.2.1 }, result.2.2)
  | .unlink path => Reply.ofResult (bmfsUnlink s path)

/-- The file system as a machine over calls. -/
def fileSystem : Machine State Call Reply := ⟨serve⟩

end AppPortKit.Bmfs
