import AppPortKit.Bmfs.Transfer
import AppPortKit.Bmfs.WellFormed
import Mathlib.Logic.Relation

/-!
# Changes made by one call

A call loads the directory, edits one entry and flushes the table, fills, moves
or empties one record of the table of open files, or transfers data.  This
module says once which of these changes a call can make and in which states, so
that an invariant is checked against these changes and not against the branches
of eight operations.
-/

namespace AppPortKit.Bmfs

open Libc Relation

/-! ## Loading -/

/-- The directory an operation works on once it has loaded it. -/
def State.table (s : State) : Dir := (dirLoad s).dir

section Loading

variable {s : State}

theorem dirLoad_of_loaded (loaded : s.dirLoaded = true) : dirLoad s = s := by
  simp [dirLoad, loaded]

@[simp] theorem dirLoaded_dirLoad (s : State) : (dirLoad s).dirLoaded = true := by
  cases loaded : s.dirLoaded <;> simp [dirLoad, loaded]

@[simp] theorem files_dirLoad (s : State) : (dirLoad s).files = s.files := by
  cases loaded : s.dirLoaded <;> simp [dirLoad, loaded]

@[simp] theorem dir_dirLoad (s : State) : (dirLoad s).dir = s.table := rfl

theorem table_of_loaded (loaded : s.dirLoaded = true) : s.table = s.dir := by
  rw [State.table, dirLoad_of_loaded loaded]

/-- A loaded directory does not depend on the drive. -/
theorem table_transfer (loaded : s.dirLoaded = true) (scratch : Sector) (device : Device) :
    { s with scratch, device }.table = s.table := by
  rw [table_of_loaded loaded]
  exact table_of_loaded loaded

/-- Stated as a rewrite rule so that a drive computed by a loop is never unfolded. -/
theorem device_transfer (s : State) (scratch : Sector) (device : Device) :
    { s with scratch, device }.device = device := rfl

@[simp] theorem table_dirLoad (s : State) : (dirLoad s).table = s.table :=
  table_of_loaded (dirLoaded_dirLoad s)

@[simp] theorem table_setFile (s : State) (index : Fin 8) (file : File) :
    (s.setFile index file).table = s.table := by
  cases loaded : s.dirLoaded <;> simp [State.table, dirLoad, State.setFile, loaded]

@[simp] theorem dirLoaded_setFile (s : State) (index : Fin 8) (file : File) :
    (s.setFile index file).dirLoaded = s.dirLoaded := rfl

@[simp] theorem device_setFile (s : State) (index : Fin 8) (file : File) :
    (s.setFile index file).device = s.device := rfl

@[simp] theorem scratch_setFile (s : State) (index : Fin 8) (file : File) :
    (s.setFile index file).scratch = s.scratch := rfl

@[simp] theorem dir_setFile (s : State) (index : Fin 8) (file : File) :
    (s.setFile index file).dir = s.dir := rfl

@[simp] theorem files_setFile (s : State) (index : Fin 8) (file : File) :
    (s.setFile index file).files = Function.update s.files index file := rfl

/-- Loading reads the drive and never writes it. -/
theorem dirLoad_sameMedia (s : State) : Device.SameMedia s.device (dirLoad s).device := by
  cases loaded : s.dirLoaded with
  | true =>
      rw [dirLoad_of_loaded loaded]
  | false =>
      simp only [dirLoad, loaded, Bool.false_eq_true, ↓reduceIte]
      exact s.device.nvsRead_sameMedia s.dir.encode dirSector

/-- On a reliable drive an unloaded directory is the one on the drive. -/
theorem table_of_unloaded (reliable : s.device.Reliable) (unloaded : s.dirLoaded = false) :
    s.table = Dir.decode (s.device.disk 1) := by
  simp only [State.table, dirLoad, unloaded, Bool.false_eq_true, ↓reduceIte,
    reliable.nvsRead_mem, dirSector_toNat]

@[simp] theorem dir_dirFlush (s : State) : (dirFlush s).dir = s.dir := rfl

@[simp] theorem files_dirFlush (s : State) : (dirFlush s).files = s.files := rfl

@[simp] theorem dirLoaded_dirFlush (s : State) : (dirFlush s).dirLoaded = s.dirLoaded := rfl

theorem device_dirFlush (s : State) :
    (dirFlush s).device = (s.device.nvsWrite s.dir.encode dirSector).2 := rfl

/-- A flush reaches the drive whole or not at all. -/
theorem dirFlush_cases (s : State) :
    Device.Wrote s.device (dirFlush s).device [] ∨
      Device.Wrote s.device (dirFlush s).device [(1, s.dir.encode)] :=
  s.device.nvsWrite_cases s.dir.encode dirSector

theorem dirFlush_wrote (reliable : s.device.Reliable) :
    Device.Wrote s.device (dirFlush s).device [(1, s.dir.encode)] :=
  reliable.nvsWrite_wrote s.dir.encode dirSector

end Loading

/-- The table with the size of one entry replaced. -/
def Dir.resize (dir : Dir) (slot : Fin 64) (size : UInt64) : Dir :=
  Function.update dir slot { dir slot with size }

/-- Resizing leaves every file as it is, up to its size. -/
theorem Dir.sameFile_resize (dir : Dir) (slot : Fin 64) (size : UInt64) (other : Fin 64) :
    Dirent.SameFile (dir other) (dir.resize slot size other) := by
  by_cases same : other = slot
  · subst same
    simp only [Dir.resize, Function.update_self]
    exact ⟨rfl, rfl, rfl⟩
  · simp only [Dir.resize, Function.update_of_ne same]
    exact Dirent.SameFile.refl _

/-- The state with an edited table, flushed. -/
def State.edit (s : State) (dir : Dir) : State := dirFlush { s with dir }

section Edit

variable (s : State) (dir : Dir)

@[simp] theorem dir_edit : (s.edit dir).dir = dir := rfl

@[simp] theorem files_edit : (s.edit dir).files = s.files := rfl

@[simp] theorem dirLoaded_edit : (s.edit dir).dirLoaded = s.dirLoaded := rfl

variable {s}

theorem table_edit (loaded : s.dirLoaded = true) : (s.edit dir).table = dir :=
  table_of_loaded loaded

theorem edit_wrote (reliable : s.device.Reliable) :
    Device.Wrote s.device (s.edit dir).device [(1, dir.encode)] :=
  dirFlush_wrote (s := { s with dir }) reliable

theorem edit_cases (s : State) (dir : Dir) :
    Device.Wrote s.device (s.edit dir).device [] ∨
      Device.Wrote s.device (s.edit dir).device [(1, dir.encode)] :=
  dirFlush_cases { s with dir }

end Edit

/-! ## The changes -/

/-- One edit of the directory on behalf of a call.  `origin` is the state the call
was made in: a file is created in exactly that state, loaded; the other edits may
follow earlier changes. -/
inductive Edit (origin : State) (call : Call) : State → Dir → Prop where
  | create {path : CString} {flags : UInt32} {slot : Fin 64}
      (called : call = .open path flags)
      (asked : hasFlag flags oCreat = true)
      (valid : validName (bmfsName path))
      (missing : dirFind origin.table (bmfsName path) = none)
      (free : dirFindFreeSlot origin.table = some slot)
      (record : (findFreeFile origin.files).isSome = true) :
      Edit origin call (dirLoad origin) (createEntry origin.table slot (bmfsName path))
  | truncate {s : State} {path : CString} {flags : UInt32} {di : Fin 64}
      (called : call = .open path flags)
      (asked : hasFlag flags oTrunc = true)
      (loaded : s.dirLoaded = true)
      (found : dirFind s.dir (bmfsName path) = some di) :
      Edit origin call s (s.dir.resize di 0)
  | commit {s : State} {fd : Int} {index : Fin 8}
      (called : call = .close fd)
      (opened : openIndex s fd = some index)
      (dirty : (s.files index).dirty = true) :
      Edit origin call s (s.dir.resize (s.files index).dirIndex (s.files index).size)
  | remove {s : State} {path : CString} {di : Fin 64}
      (called : call = .unlink path)
      (loaded : s.dirLoaded = true)
      (found : dirFind s.dir (bmfsName path) = some di) :
      Edit origin call s (Function.update s.dir di Dirent.zero)

/-- One change a call makes. -/
inductive Change (origin : State) (call : Call) : State → State → Prop where
  | load {s : State} (unloaded : s.dirLoaded = false) : Change origin call s (dirLoad s)
  | edit {s : State} {dir : Dir} (edit : Edit origin call s dir) :
      Change origin call s (s.edit dir)
  | attach {s : State} {path : CString} {flags : UInt32} {slot : Fin 8} {di : Fin 64}
      (called : call = .open path flags)
      (loaded : s.dirLoaded = true)
      (free : findFreeFile s.files = some slot)
      (found : dirFind s.dir (bmfsName path) = some di) :
      Change origin call s (s.setFile slot (openedFile (s.dir di) di flags))
  | fetch {s : State} {fd : Int} {index : Fin 8} {scratch : Sector} {device : Device}
      (opened : openIndex s fd = some index)
      (media : Device.SameMedia s.device device) :
      Change origin call s { s with scratch, device }
  | store {s : State} {fd : Int} {buf : Nat → UInt8} {len : UInt64} {index : Fin 8}
      (called : call = .write fd buf len)
      (opened : openIndex s fd = some index) :
      Change origin call s (bmfsPwrite s index buf len (s.files index).pos).2
  | move {s : State} {fd : Int} {index : Fin 8} (pos : UInt64)
      (opened : openIndex s fd = some index) :
      Change origin call s (s.setFile index { s.files index with pos })
  | detach {s : State} {fd : Int} {index : Fin 8}
      (called : call = .close fd)
      (opened : openIndex s fd = some index) :
      Change origin call s (s.setFile index { s.files index with used := false })

/-! ## Descriptors -/

theorem openIndex_eq_some_iff (s : State) (fd : Int) (index : Fin 8) :
    openIndex s fd = some index ↔
      fdIndex fd = some index ∧ (s.files index).used = true := by
  simp [openIndex, Option.filter_eq_some_iff]

theorem fdIndex_eq_some_iff (fd : Int) (index : Fin 8) :
    fdIndex fd = some index ↔ fd = 3 + (index.val : Int) := by
  simp only [fdIndex]
  split
  next bound =>
    simp only [Option.some.injEq, Fin.ext_iff]
    omega
  next outside =>
    simp only [reduceCtorEq, false_iff]
    omega

/-- The descriptors of the console are no files. -/
theorem openIndex_of_lt (s : State) {fd : Int} (low : fd < 3) : openIndex s fd = none := by
  rw [openIndex, fdIndex, dif_neg (by omega), Option.filter_none]

/-- Neither are those of sockets. -/
theorem openIndex_of_ge (s : State) {fd : Int} (high : 11 ≤ fd) : openIndex s fd = none := by
  rw [openIndex, fdIndex, dif_neg (by omega), Option.filter_none]

section Serve

variable {s : State} {fd : Int} {index : Fin 8}

theorem serve_read (opened : openIndex s fd = some index) (len : UInt64) :
    serve s (.read fd len) =
      ({ ret := (bmfsRead s index len).1, bytes := (bmfsRead s index len).2.1, stat := none },
        (bmfsRead s index len).2.2) := by
  simp only [serve, opened]

theorem serve_write (opened : openIndex s fd = some index) (buf : Nat → UInt8)
    (len : UInt64) :
    serve s (.write fd buf len) = Reply.ofResult (bmfsWrite s index buf len) := by
  simp only [serve, opened]

theorem serve_lseek (opened : openIndex s fd = some index) (offset : Int64)
    (whence : Int32) :
    serve s (.lseek fd offset whence) = Reply.ofResult (bmfsLseek s index offset whence) := by
  simp only [serve, opened]

theorem serve_close (opened : openIndex s fd = some index) :
    serve s (.close fd) = Reply.ofResult (bmfsClose s index) := by
  simp only [serve, opened]

end Serve

/-- A descriptor is still open in a state with as many records in use. -/
theorem openIndex_congr {s s' : State} (fd : Int)
    (used : ∀ index, (s'.files index).used = (s.files index).used) :
    openIndex s' fd = openIndex s fd := by
  simp only [openIndex, used]

theorem findFreeFile_some {files : Fin 8 → File} {slot : Fin 8}
    (found : findFreeFile files = some slot) : (files slot).used = false := by
  simpa using List.find?_some found

/-- A created file is found under its name. -/
theorem dirFind_createEntry {dir : Dir} {slot : Fin 64} {name : CString}
    (valid : validName name) (missing : dirFind dir name = none) :
    dirFind (createEntry dir slot name) name = some slot := by
  have matched : strncmp (createEntry dir slot name slot).nameChar name.char 32 = 0 := by
    rw [strncmp, strncmpFrom_eq_zero_iff]
    intro offset _ _
    simp only [Dirent.nameChar, sameName_createEntry]
    exact nameChar_namedEntry valid _
  cases search : dirFind (createEntry dir slot name) name with
  | none => exact absurd matched (dirFind_none search slot (live_createEntry valid dir slot))
  | some other =>
      obtain ⟨live, same⟩ := dirFind_some search
      by_contra different
      have elsewhere : other ≠ slot := fun equal => different (congrArg some equal)
      rw [createEntry_of_ne name elsewhere] at live same
      exact dirFind_none missing other live same

/-- Whether a name is found does not depend on sizes. -/
theorem dirFind_congr {dir dir' : Dir}
    (same : ∀ slot, Dirent.SameFile (dir slot) (dir' slot)) (name : CString) :
    dirFind dir' name = dirFind dir name := by
  simp only [dirFind, (same _).live_iff, (same _).nameChar]

/-! ## What each operation does -/

@[simp] theorem Reply.ofResult_mk (ret : Int) (s : State) :
    Reply.ofResult (ret, s) = (.code ret, s) := rfl

/-- Stated as rewrite rules so that the operation is never unfolded. -/
theorem Reply.ret_ofResult (result : Int × State) : (Reply.ofResult result).1.ret = result.1 := rfl

theorem Reply.state_ofResult (result : Int × State) : (Reply.ofResult result).2 = result.2 := rfl

theorem reply_eq_serve (s : State) (call : Call) :
    fileSystem.reply s call = (serve s call).1 := rfl

theorem next_eq_serve (s : State) (call : Call) :
    fileSystem.next s call = (serve s call).2 := rfl

theorem setFile_self (s : State) (index : Fin 8) : s.setFile index (s.files index) = s := by
  rw [State.setFile, Function.update_eq_self]

/-- A record still stands for the same file, through the same descriptor. -/
structure File.SameHandle (before after : File) : Prop where
  used : after.used = before.used
  append : after.append = before.append
  dirIndex : after.dirIndex = before.dirIndex
  startBlock : after.startBlock = before.startBlock
  reservedBlocks : after.reservedBlocks = before.reservedBlocks

theorem File.SameHandle.placed {before after : File} (same : before.SameHandle after)
    (placed : before.Placed) : after.Placed := by
  rw [File.Placed, same.startBlock, same.reservedBlocks]
  exact placed

theorem File.SameHandle.addressable {before after : File} (same : before.SameHandle after)
    (addressable : before.Addressable) : after.Addressable := by
  rw [File.Addressable, same.startBlock, same.reservedBlocks]
  exact addressable

theorem sameHandle_grownFile (f : File) (len off : UInt64) :
    f.SameHandle (grownFile f len off) := by
  rw [grownFile]
  split <;> exact ⟨rfl, rfl, rfl, rfl, rfl⟩

theorem pos_grownFile (f : File) (len off : UInt64) : (grownFile f len off).pos = f.pos := by
  rw [grownFile]
  split <;> rfl

/-- Reading moves nothing but the drive's head and the scratch sector. -/
theorem bmfsPread_state (s : State) (f : File) (len off : UInt64) :
    ∃ scratch device, (bmfsPread s f len off).2.2 = { s with scratch, device } ∧
      Device.SameMedia s.device device := by
  rw [bmfsPread]
  split
  · exact ⟨s.scratch, s.device, rfl, .refl s.device⟩
  · exact ⟨_, _, rfl, preadLoop_sameMedia _ _ _ _⟩

/-- A write is refused and changes nothing, or stores what fits, runs the loop and
grows the record. -/
theorem bmfsPwrite_cases (s : State) (index : Fin 8) (buf : Nat → UInt8)
    (len off : UInt64) :
    ((off ≥ (s.files index).reservedBlocks * blockBytes ∨
        clampLen ((s.files index).reservedBlocks * blockBytes) off len = 0) ∧
      bmfsPwrite s index buf len off = (-ENOSPC, s)) ∨
      ∃ n base, n = clampLen ((s.files index).reservedBlocks * blockBytes) off len ∧
        base = (s.files index).startBlock * blockBytes + off ∧
        off < (s.files index).reservedBlocks * blockBytes ∧ n ≠ 0 ∧
        bmfsPwrite s index buf len off = (Word64.signed n, { s with
          scratch := (pwriteLoop s.device s.scratch buf base n).1
          device := (pwriteLoop s.device s.scratch buf base n).2 }.setFile index
            (grownFile (s.files index) n off)) := by
  rw [bmfsPwrite]
  by_cases past : off ≥ (s.files index).reservedBlocks * blockBytes
  · rw [if_pos past]
    exact .inl ⟨.inl past, rfl⟩
  · rw [if_neg past]
    by_cases nothing : clampLen ((s.files index).reservedBlocks * blockBytes) off len = 0
    · rw [if_pos nothing]
      exact .inl ⟨.inr nothing, rfl⟩
    · rw [if_neg nothing]
      exact .inr ⟨_, _, rfl, rfl, UInt64.not_le.mp past, nothing, rfl⟩

/-- Writing changes the drive, the scratch sector and one record, which stands for
the same file at the same position. -/
theorem bmfsPwrite_state (s : State) (index : Fin 8) (buf : Nat → UInt8)
    (len off : UInt64) :
    ∃ scratch device file,
      (bmfsPwrite s index buf len off).2 = { s with scratch, device }.setFile index file ∧
      (s.files index).SameHandle file ∧ file.pos = (s.files index).pos := by
  rcases bmfsPwrite_cases s index buf len off with ⟨-, refused⟩ | ⟨n, base, -, -, -, -, stored⟩
  · rw [refused]
    exact ⟨s.scratch, s.device, _, (setFile_self s index).symm,
      ⟨rfl, rfl, rfl, rfl, rfl⟩, rfl⟩
  · rw [stored]
    exact ⟨_, _, _, rfl, sameHandle_grownFile _ _ _, pos_grownFile _ _ _⟩

theorem setFile_setFile (s : State) (index : Fin 8) (first second : File) :
    (s.setFile index first).setFile index second = s.setFile index second := by
  simp only [State.setFile, Function.update_idem]

theorem File.SameHandle.refl (f : File) : f.SameHandle f := ⟨rfl, rfl, rfl, rfl, rfl⟩

theorem File.SameHandle.trans {first second third : File} (left : first.SameHandle second)
    (right : second.SameHandle third) : first.SameHandle third :=
  ⟨right.used.trans left.used, right.append.trans left.append,
    right.dirIndex.trans left.dirIndex, right.startBlock.trans left.startBlock,
    right.reservedBlocks.trans left.reservedBlocks⟩

/-- A change of position leaves the rest of a record alone. -/
theorem sameHandle_pos (f : File) (pos : UInt64) : f.SameHandle { f with pos } :=
  ⟨rfl, rfl, rfl, rfl, rfl⟩

theorem advance_state (s : State) (index : Fin 8) (n : Int) :
    ∃ pos, advance s index n = s.setFile index { s.files index with pos } := by
  simp only [advance]
  split
  · exact ⟨_, rfl⟩
  · exact ⟨(s.files index).pos, (setFile_self s index).symm⟩

theorem advance_zero (s : State) (index : Fin 8) : advance s index 0 = s := rfl

/-- Moving the position of a record that has just been put in place. -/
theorem advance_setFile (s : State) (index : Fin 8) (file : File) (n : Int) :
    advance (s.setFile index file) index n = s.setFile index { file with
      pos := if n > 0 then file.pos + UInt64.ofNat n.toNat else file.pos } := by
  simp only [advance, files_setFile, Function.update_self]
  split
  · rw [setFile_setFile]
  · rfl

/-- The offset at which a file's next write stores. -/
def File.offset (f : File) : UInt64 := if f.append then f.size else f.pos

theorem seekForAppend_eq (s : State) (index : Fin 8) :
    seekForAppend s index =
      s.setFile index { s.files index with pos := (s.files index).offset } := by
  simp only [seekForAppend, File.offset]
  split
  · rfl
  · exact (setFile_self s index).symm

/-- A read changes the scratch sector and one record's position. -/
theorem bmfsRead_state (s : State) (index : Fin 8) (len : UInt64) :
    ∃ scratch device pos,
      (bmfsRead s index len).2.2 =
        { s with scratch, device }.setFile index { s.files index with pos } ∧
      Device.SameMedia s.device device := by
  obtain ⟨scratch, device, state, media⟩ :=
    bmfsPread_state s (s.files index) len (s.files index).pos
  simp only [bmfsRead, state]
  obtain ⟨pos, moved⟩ := advance_state { s with scratch, device } index
    (bmfsPread s (s.files index) len (s.files index).pos).1
  exact ⟨scratch, device, pos, moved, media⟩

/-- A read changes the position of one record. -/
theorem files_bmfsRead (s : State) (index : Fin 8) (len : UInt64) :
    (bmfsRead s index len).2.2.files = Function.update s.files index { s.files index with
      pos := if (bmfsRead s index len).1 > 0 then
        (s.files index).pos + UInt64.ofNat (bmfsRead s index len).1.toNat
      else (s.files index).pos } := by
  obtain ⟨scratch, device, state, -⟩ :=
    bmfsPread_state s (s.files index) len (s.files index).pos
  simp only [bmfsRead, state, advance]
  split
  · rfl
  · exact (Function.update_eq_self index s.files).symm

/-- A read delivers the bytes left before the end, at most as many as asked for, and
moves the position by as many. -/
theorem bmfsRead_spec {s : State} {index : Fin 8} (reliable : s.device.Reliable)
    (addressable : (s.files index).Addressable)
    (fits : (s.files index).size.toNat ≤ (s.files index).cap)
    {len : UInt64} (short : len.toNat < 9223372036854775808) {n : Nat}
    (count : n = min len.toNat ((s.files index).size.toNat - (s.files index).pos.toNat)) :
    ∃ scratch device pos, Device.SameMedia s.device device ∧
      pos.toNat = (s.files index).pos.toNat + n ∧
      bmfsRead s index len = ((n : Int),
        (List.range n).map fun offset =>
          SectorStore.cell s.device.disk
            ((s.files index).address (s.files index).pos.toNat + offset),
        { s with scratch, device }.setFile index { s.files index with pos }) := by
  by_cases past : (s.files index).size.toNat ≤ (s.files index).pos.toNat
  · have zero : n = 0 := by omega
    refine ⟨s.scratch, s.device, (s.files index).pos, .refl _, by rw [zero]; rfl, ?_⟩
    rw [zero, bmfsRead, bmfsPread_of_past s len past, advance_zero]
    exact congrArg _ (congrArg _ (setFile_self s index).symm)
  · have inside := Nat.lt_of_not_le past
    obtain ⟨scratch, device, state, media⟩ :=
      bmfsPread_state s (s.files index) len (s.files index).pos
    obtain ⟨result, bytes⟩ := bmfsPread_of_inside reliable addressable fits short inside
    have capacity := addressable.cap_le
    have word : (UInt64.ofNat n).toNat = n := UInt64.toNat_ofNat_of_lt' (by
      rw [UInt64.size]
      omega)
    rw [← count] at result bytes
    refine ⟨scratch, device, (s.files index).pos + UInt64.ofNat n, media, ?_, ?_⟩
    · rw [Word64.toNat_add_of_lt (by rw [word]; omega), word]
    · rw [bmfsRead, result, bytes, state]
      by_cases empty : n = 0
      · have still : (s.files index).pos + UInt64.ofNat n = (s.files index).pos := by
          rw [empty]
          exact UInt64.add_zero _
        rw [still, empty, Nat.cast_zero, advance_zero]
        exact congrArg _ (congrArg _ (setFile_self { s with scratch, device } index).symm)
      · rw [advance, if_pos (by omega), Int.toNat_natCast]

/-- The record after `n` bytes were stored at `off` and the position moved on. -/
def writtenFile (f : File) (n off : UInt64) : File :=
  { grownFile f n off with
    pos := if Word64.signed n > 0 then off + UInt64.ofNat (Word64.signed n).toNat else off }

theorem grownFile_pos (f : File) (len off pos : UInt64) :
    grownFile { f with pos } len off = { grownFile f len off with pos } := by
  simp only [grownFile]
  split <;> rfl

/-- A write fails at its offset, or stores what fits there. -/
theorem bmfsWrite_cases (s : State) (index : Fin 8) (buf : Nat → UInt8) (len : UInt64) :
    (((s.files index).offset ≥ (s.files index).reservedBlocks * blockBytes ∨
        clampLen ((s.files index).reservedBlocks * blockBytes) (s.files index).offset len = 0) ∧
      bmfsWrite s index buf len = (-ENOSPC,
        s.setFile index { s.files index with pos := (s.files index).offset })) ∨
      ∃ n base,
        n = clampLen ((s.files index).reservedBlocks * blockBytes) (s.files index).offset len ∧
        base = (s.files index).startBlock * blockBytes + (s.files index).offset ∧
        (s.files index).offset < (s.files index).reservedBlocks * blockBytes ∧ n ≠ 0 ∧
        bmfsWrite s index buf len = (Word64.signed n, { s with
          scratch := (pwriteLoop s.device s.scratch buf base n).1
          device := (pwriteLoop s.device s.scratch buf base n).2 }.setFile index
            (writtenFile (s.files index) n (s.files index).offset)) := by
  simp only [bmfsWrite, seekForAppend_eq, files_setFile, Function.update_self]
  rcases bmfsPwrite_cases
      (s.setFile index { s.files index with pos := (s.files index).offset }) index buf len
      (s.files index).offset with
    ⟨reason, refused⟩ | ⟨n, base, count, start, inside, nonzero, stored⟩
  · left
    rw [files_setFile, Function.update_self] at reason
    refine ⟨reason, ?_⟩
    rw [refused]
    simp [advance, ENOSPC]
  · right
    rw [files_setFile, Function.update_self] at count start inside
    refine ⟨n, base, count, start, inside, nonzero, ?_⟩
    rw [stored, device_setFile, scratch_setFile, files_setFile, Function.update_self,
      grownFile_pos, advance_setFile]
    exact congrArg (Prod.mk _) (setFile_setFile { s with
      scratch := (pwriteLoop s.device s.scratch buf base n).1
      device := (pwriteLoop s.device s.scratch buf base n).2 } index _ _)

/-- A write that is not cut off performs the first two sector writes of its loop. -/
theorem bmfsWrite_log_two {s : State} (reliable : s.device.Reliable) (index : Fin 8)
    (buf : Nat → UInt8) (len n base : UInt64)
    (count : clampLen ((s.files index).reservedBlocks * blockBytes) (s.files index).offset len = n)
    (start : (s.files index).startBlock * blockBytes + (s.files index).offset = base)
    (inside : (s.files index).offset < (s.files index).reservedBlocks * blockBytes)
    (more : n ≠ 0) (further : n - chunkLen base n ≠ 0) :
    (bmfsWrite s index buf len).2.device.log.take (s.device.log.length + 2) =
      s.device.log ++ ([(base.toNat / 4096, SectorStore.splice (s.device.disk (base.toNat / 4096))
          (base.toNat % 4096) (chunkLen base n).toNat buf)] ++
        [((base + chunkLen base n).toNat / 4096,
          SectorStore.splice ((writtenDevice s.device s.scratch buf base n).disk
              ((base + chunkLen base n).toNat / 4096))
            ((base + chunkLen base n).toNat % 4096)
            (chunkLen (base + chunkLen base n) (n - chunkLen base n)).toNat
            fun index => buf ((chunkLen base n).toNat + index))]) := by
  rcases bmfsWrite_cases s index buf len with
    ⟨past | nothing, -⟩ | ⟨n', base', count', start', -, -, stored⟩
  · exact absurd inside (UInt64.not_lt.mpr past)
  · exact absurd (count.symm.trans nothing) more
  · obtain rfl : n' = n := count'.trans count
    obtain rfl : base' = base := start'.trans start
    obtain ⟨rest, wrote⟩ := pwriteLoop_wrote_two reliable s.scratch buf more further
    rw [stored, device_setFile, device_transfer, wrote.log, List.take_length_add_append,
      List.take_append_of_le_length (by simp), List.take_of_length_le (by simp)]

section Addressable

variable {s : State} {index : Fin 8} (addressable : (s.files index).Addressable)
  (buf : Nat → UInt8) {len : UInt64}

include addressable

/-- A write at or past the end of the reservation, or of nothing, fails. -/
theorem bmfsWrite_of_full
    (full : (s.files index).cap ≤ (s.files index).offset.toNat ∨ len = 0) :
    bmfsWrite s index buf len = (-ENOSPC,
      s.setFile index { s.files index with pos := (s.files index).offset }) := by
  rcases bmfsWrite_cases s index buf len with
    ⟨-, refused⟩ | ⟨n, base, count, start, inside, nonzero, stored⟩
  · exact refused
  · rw [UInt64.lt_iff_toNat_lt, addressable.cap_toNat] at inside
    rcases full with outside | rfl
    · omega
    · refine absurd ?_ nonzero
      rw [count, ← UInt64.toNat_inj, clampLen_toNat]
      · exact Nat.zero_min _
      · rw [addressable.cap_toNat]
        exact inside
      · have := addressable.cap_le
        rw [UInt64.toNat_zero]
        omega

/-- A write with room stores as many bytes as fit and moves on. -/
theorem bmfsWrite_of_room (short : len.toNat < 9223372036854775808) (nonempty : len ≠ 0)
    (room : (s.files index).offset.toNat < (s.files index).cap) :
    ∃ n base : UInt64,
      n.toNat = min len.toNat ((s.files index).cap - (s.files index).offset.toNat) ∧
      base.toNat = (s.files index).address (s.files index).offset.toNat ∧
      bmfsWrite s index buf len = ((n.toNat : Int), { s with
        scratch := (pwriteLoop s.device s.scratch buf base n).1
        device := (pwriteLoop s.device s.scratch buf base n).2 }.setFile index
          (writtenFile (s.files index) n (s.files index).offset)) := by
  have small := addressable.cap_le
  have clamped : (clampLen ((s.files index).reservedBlocks * blockBytes)
      (s.files index).offset len).toNat =
      min len.toNat ((s.files index).cap - (s.files index).offset.toNat) := by
    rw [clampLen_toNat (by rw [addressable.cap_toNat]; exact room) (by omega),
      addressable.cap_toNat]
  have nonzero : len.toNat ≠ 0 := by simpa [← UInt64.toNat_inj] using nonempty
  rcases bmfsWrite_cases s index buf len with
    ⟨past | nothing, -⟩ | ⟨n, base, count, start, inside, -, stored⟩
  · rw [ge_iff_le, UInt64.le_iff_toNat_le, addressable.cap_toNat] at past
    omega
  · rw [nothing, UInt64.toNat_zero] at clamped
    omega
  · refine ⟨n, base, count ▸ clamped, ?_, ?_⟩
    · rw [start]
      exact addressable.address_toNat (by omega)
    · rw [stored, Word64.signed_of_lt]
      rw [count, clamped]
      omega

/-- A write changes exactly the bytes it reports. -/
theorem bmfsWrite_cell (reliable : s.device.Reliable)
    (short : len.toNat < 9223372036854775808) (address : Nat) :
    SectorStore.cell (bmfsWrite s index buf len).2.device.disk address =
      if (s.files index).address (s.files index).offset.toNat ≤ address ∧
          address < (s.files index).address (s.files index).offset.toNat +
            (bmfsWrite s index buf len).1.toNat then
        buf (address - (s.files index).address (s.files index).offset.toNat)
      else
        SectorStore.cell s.device.disk address := by
  by_cases full : (s.files index).cap ≤ (s.files index).offset.toNat ∨ len = 0
  · have nothing : (-ENOSPC).toNat = 0 := rfl
    rw [bmfsWrite_of_full addressable buf full, device_setFile, nothing, if_neg (by omega)]
  · obtain ⟨room, nonempty⟩ := not_or.mp full
    rw [Nat.not_le] at room
    obtain ⟨n, base, count, start, stored⟩ := bmfsWrite_of_room addressable buf short nonempty room
    have below := addressable.address_add_lt
      (by omega : (s.files index).offset.toNat + n.toNat ≤ (s.files index).cap)
    rw [stored, device_setFile, device_transfer,
      pwriteLoop_cell reliable s.scratch buf (by omega), start, Int.toNat_natCast]

end Addressable

/-- After a write of less than `2 ^ 63` bytes the position is at its end. -/
theorem pos_writtenFile (f : File) {n off : UInt64} (short : n.toNat < 9223372036854775808)
    (noWrap : off.toNat + n.toNat < 18446744073709551616) :
    (writtenFile f n off).pos.toNat = off.toNat + n.toNat := by
  simp only [writtenFile, Word64.signed_of_lt short, Int.toNat_natCast, UInt64.ofNat_toNat]
  split
  · exact Word64.toNat_add_of_lt noWrap
  · omega

theorem size_writtenFile (f : File) {n off : UInt64}
    (noWrap : off.toNat + n.toNat < 18446744073709551616) :
    (writtenFile f n off).size.toNat = max f.size.toNat (off.toNat + n.toNat) :=
  size_grownFile f noWrap

/-- A file that did not grow is as dirty as before. -/
theorem size_of_clean_writtenFile {f : File} {n off : UInt64}
    (clean : (writtenFile f n off).dirty = false) :
    f.dirty = false ∧ (writtenFile f n off).size = f.size := by
  simp only [writtenFile, grownFile] at clean ⊢
  split at clean
  · contradiction
  next small =>
    rw [if_neg small]
    exact ⟨clean, rfl⟩

theorem sameHandle_writtenFile (f : File) (n off : UInt64) :
    f.SameHandle (writtenFile f n off) :=
  (sameHandle_grownFile f n off).trans (sameHandle_pos _ _)

/-- A write changes the drive, the scratch sector and one record. -/
theorem bmfsWrite_state (s : State) (index : Fin 8) (buf : Nat → UInt8) (len : UInt64) :
    ∃ scratch device file,
      (bmfsWrite s index buf len).2 = { s with scratch, device }.setFile index file ∧
      (s.files index).SameHandle file := by
  rcases bmfsWrite_cases s index buf len with ⟨-, refused⟩ | ⟨n, base, -, -, -, -, stored⟩
  · rw [refused]
    exact ⟨s.scratch, s.device, _, rfl, sameHandle_pos _ _⟩
  · rw [stored]
    exact ⟨_, _, _, rfl, sameHandle_writtenFile _ _ _⟩

theorem device_advance (s : State) (index : Fin 8) (n : Int) :
    (advance s index n).device = s.device := by
  obtain ⟨pos, moved⟩ := advance_state s index n
  rw [moved, device_setFile]

/-- A write touches only sectors of the file's own blocks. -/
theorem bmfsWrite_wrote {s : State} {index : Fin 8}
    (addressable : (s.files index).Addressable)
    (buf : Nat → UInt8) {len : UInt64} (short : len.toNat < 9223372036854775808) :
    ∃ writes, Device.Wrote s.device (bmfsWrite s index buf len).2.device writes ∧
      ∀ write ∈ writes, (s.files index).startBlock.toNat * 512 ≤ write.1 ∧
        write.1 < ((s.files index).startBlock.toNat +
          (s.files index).reservedBlocks.toNat) * 512 := by
  simp only [bmfsWrite, seekForAppend_eq, files_setFile, Function.update_self, device_advance]
  have sought : ((s.setFile index { s.files index with
      pos := (s.files index).offset }).files index).Addressable := by
    rw [files_setFile, Function.update_self]
    exact addressable
  have result := bmfsPwrite_wrote sought buf (s.files index).offset short
  rw [files_setFile, Function.update_self] at result
  exact result

/-- A seek fails, or moves one record's position. -/
theorem bmfsLseek_cases (s : State) (index : Fin 8) (offset : Int64) (whence : Int32) :
    bmfsLseek s index offset whence = (-EINVAL, s) ∨
      ∃ np : Int64, 0 ≤ np ∧ bmfsLseek s index offset whence =
        (np.toInt, s.setFile index { s.files index with pos := np.toUInt64 }) := by
  simp only [bmfsLseek]
  split
  · exact .inl rfl
  · split
    · exact .inl rfl
    next base _ nonneg => exact .inr ⟨_, Int64.not_lt.mp nonneg, rfl⟩

section Seek

variable {s : State} {index : Fin 8} (pos : (s.files index).pos.toNat < 9223372036854775808)
  (size : (s.files index).size.toNat < 9223372036854775808) {whence : Int32}

include pos size

theorem bmfsLseek_of_no_base
    (missing : seekBase (s.files index).pos.toNat (s.files index).size.toNat whence = none)
    (offset : Int64) : bmfsLseek s index offset whence = (-EINVAL, s) := by
  have bases := lseekBase_eq pos size whence
  rw [missing, Option.map_none, Option.map_eq_none_iff] at bases
  simp only [bmfsLseek, bases]

variable {base : Nat}
  (found : seekBase (s.files index).pos.toNat (s.files index).size.toNat whence = some base)
  {offset : Int64}

include found

theorem exists_lseekBase : ∃ start, lseekBase (s.files index) whence = some start ∧
    start.toInt = base := by
  have bases := lseekBase_eq pos size whence
  rw [found, Option.map_some, Option.map_eq_some_iff] at bases
  exact bases

/-- A seek whose target is below `2 ^ 63` goes there, or fails before the start. -/
theorem bmfsLseek_of_base (target : (base : Int) + offset.toInt < 9223372036854775808) :
    ((base : Int) + offset.toInt < 0 ∧ bmfsLseek s index offset whence = (-EINVAL, s)) ∨
      ∃ pos : UInt64, (pos.toNat : Int) = base + offset.toInt ∧
        bmfsLseek s index offset whence = ((base : Int) + offset.toInt,
          s.setFile index { s.files index with pos }) := by
  obtain ⟨start, startFound, same⟩ := exists_lseekBase pos size found
  have low := offset.le_toInt
  have sum : (start + offset).toInt = base + offset.toInt := by
    rw [← same]
    apply Word64.toInt_add_of_mem <;> omega
  simp only [bmfsLseek, startFound, Int64.lt_iff_toInt_lt, sum, Int64.toInt_zero]
  split
  next negative => exact .inl ⟨negative, rfl⟩
  next nonneg =>
    refine .inr ⟨(start + offset).toUInt64, ?_, rfl⟩
    rw [Word64.toNat_toUInt64 (by omega), sum]

/-- A seek whose target is `2 ^ 63` or beyond comes out negative, and fails. -/
theorem bmfsLseek_of_overflow (beyond : 9223372036854775808 ≤ (base : Int) + offset.toInt) :
    bmfsLseek s index offset whence = (-EINVAL, s) := by
  obtain ⟨start, startFound, same⟩ := exists_lseekBase pos size found
  have high := offset.toInt_lt
  have top := start.toInt_lt
  have sum : (start + offset).toInt = base + offset.toInt - 18446744073709551616 := by
    rw [Word64.toInt_add_of_le (by omega), same]
  simp only [bmfsLseek, startFound, Int64.lt_iff_toInt_lt, sum, Int64.toInt_zero]
  rw [if_pos (by omega)]

end Seek

/-- Opening without truncation only fills a record. -/
theorem openEntry_of_keep (s : State) (slot : Fin 8) (di : Fin 64) {flags : UInt32}
    (keep : hasFlag flags oTrunc = false) :
    openEntry s slot di flags =
      (3 + (slot.val : Int), s.setFile slot (openedFile (s.dir di) di flags)) := by
  simp only [openEntry, keep, Bool.false_eq_true, ↓reduceIte]

theorem openEntry_of_trunc (s : State) (slot : Fin 8) (di : Fin 64) {flags : UInt32}
    (trunc : hasFlag flags oTrunc = true) :
    openEntry s slot di flags =
      (3 + (slot.val : Int), (s.edit (s.dir.resize di 0)).setFile slot
        (openedFile (s.dir.resize di 0 di) di flags)) := by
  simp only [openEntry, trunc, ↓reduceIte]
  rfl

/-- The end of `open` always succeeds. -/
theorem openEntry_nonneg (s : State) (slot : Fin 8) (di : Fin 64) (flags : UInt32) :
    0 ≤ (openEntry s slot di flags).1 :=
  Int.add_nonneg (by decide) (Int.natCast_nonneg _)

/-- The end of `open` leaves every name where it is. -/
theorem dirFind_openEntry {s : State} (loaded : s.dirLoaded = true) (slot : Fin 8) (di : Fin 64)
    (flags : UInt32) (name : CString) :
    dirFind (openEntry s slot di flags).2.table name = dirFind s.dir name := by
  cases asked : hasFlag flags oTrunc with
  | false => rw [openEntry_of_keep s slot di asked, table_setFile, table_of_loaded loaded]
  | true =>
      rw [openEntry_of_trunc s slot di asked, table_setFile, table_edit _ loaded]
      exact dirFind_congr (s.dir.sameFile_resize di 0) name

/-- Closing a file that grew records its size. -/
theorem bmfsClose_of_dirty {s : State} {index : Fin 8}
    (dirty : (s.files index).dirty = true) :
    bmfsClose s index =
      (0, (s.edit (s.dir.resize (s.files index).dirIndex (s.files index).size)).setFile index
        { s.files index with used := false }) := by
  rw [bmfsClose, if_pos dirty]
  rfl

theorem bmfsClose_of_clean {s : State} {index : Fin 8}
    (clean : ¬(s.files index).dirty = true) :
    bmfsClose s index = (0, s.setFile index { s.files index with used := false }) := by
  rw [bmfsClose, if_neg clean]

theorem bmfsUnlink_of_missing {s : State} {path : CString}
    (missing : dirFind s.table (bmfsName path) = none) :
    bmfsUnlink s path = (-ENOENT, dirLoad s) := by
  simp only [bmfsUnlink, dir_dirLoad, missing]

theorem bmfsUnlink_of_found {s : State} {path : CString} {di : Fin 64}
    (found : dirFind s.table (bmfsName path) = some di) :
    bmfsUnlink s path = (0, (dirLoad s).edit (Function.update s.table di Dirent.zero)) := by
  simp only [bmfsUnlink, dir_dirLoad, found]
  rfl

theorem bmfsFstatat_of_missing {s : State} {path : CString}
    (missing : dirFind s.table (bmfsName path) = none) :
    bmfsFstatat s path = (-ENOENT, none, dirLoad s) := by
  simp only [bmfsFstatat, dir_dirLoad, missing]

theorem bmfsFstatat_of_found {s : State} {path : CString} {di : Fin 64}
    (found : dirFind s.table (bmfsName path) = some di) :
    ∃ stat : Stat, stat.size = Word64.signed (s.table di).size ∧
      bmfsFstatat s path = (0, some stat, dirLoad s) := by
  simp only [bmfsFstatat, dir_dirLoad, found]
  exact ⟨_, rfl, rfl⟩

/-- The outcomes of `open`, with the conditions they arise under. -/
inductive OpenOutcome (s : State) (path : CString) (flags : UInt32) : Int × State → Prop where
  | badName (invalid : ¬validName (bmfsName path)) : OpenOutcome s path flags (-ENOENT, s)
  | tooMany (valid : validName (bmfsName path)) (full : findFreeFile s.files = none) :
      OpenOutcome s path flags (-EMFILE, dirLoad s)
  | missing {slot : Fin 8} (valid : validName (bmfsName path))
      (free : findFreeFile s.files = some slot)
      (missing : dirFind s.table (bmfsName path) = none)
      (noCreate : hasFlag flags oCreat = false) :
      OpenOutcome s path flags (-ENOENT, dirLoad s)
  | dirFull {slot : Fin 8} (valid : validName (bmfsName path))
      (free : findFreeFile s.files = some slot)
      (missing : dirFind s.table (bmfsName path) = none)
      (create : hasFlag flags oCreat = true)
      (noSlot : dirFindFreeSlot s.table = none) :
      OpenOutcome s path flags (-ENOSPC, dirLoad s)
  | created {slot : Fin 8} {di : Fin 64} (valid : validName (bmfsName path))
      (free : findFreeFile s.files = some slot)
      (missing : dirFind s.table (bmfsName path) = none)
      (create : hasFlag flags oCreat = true)
      (freeSlot : dirFindFreeSlot s.table = some di) :
      OpenOutcome s path flags
        (openEntry ((dirLoad s).edit (createEntry s.table di (bmfsName path))) slot di flags)
  | exclusive {slot : Fin 8} {di : Fin 64} (valid : validName (bmfsName path))
      (free : findFreeFile s.files = some slot)
      (found : dirFind s.table (bmfsName path) = some di)
      (refused : (hasFlag flags oCreat && hasFlag flags oExcl) = true) :
      OpenOutcome s path flags (-EEXIST, dirLoad s)
  | opened {slot : Fin 8} {di : Fin 64} (valid : validName (bmfsName path))
      (free : findFreeFile s.files = some slot)
      (found : dirFind s.table (bmfsName path) = some di)
      (allowed : (hasFlag flags oCreat && hasFlag flags oExcl) = false) :
      OpenOutcome s path flags (openEntry (dirLoad s) slot di flags)

theorem bmfsOpen_outcome (s : State) (path : CString) (flags : UInt32) :
    OpenOutcome s path flags (bmfsOpen s path flags) := by
  by_cases valid : validName (bmfsName path)
  · simp only [bmfsOpen, valid, not_true_eq_false, ↓reduceIte, dir_dirLoad]
    cases free : findFreeFile (dirLoad s).files with
    | none =>
        rw [files_dirLoad] at free
        exact .tooMany valid free
    | some slot =>
        rw [files_dirLoad] at free
        cases found : dirFind s.table (bmfsName path) with
        | none =>
            cases create : hasFlag flags oCreat with
            | false => exact .missing valid free found create
            | true =>
                cases freeSlot : dirFindFreeSlot s.table with
                | none => exact .dirFull valid free found create freeSlot
                | some di => exact .created valid free found create freeSlot
        | some di =>
            cases refused : hasFlag flags oCreat && hasFlag flags oExcl with
            | true => exact .exclusive valid free found refused
            | false => exact .opened valid free found refused
  · simp only [bmfsOpen, valid, not_false_eq_true, ↓reduceIte]
    exact .badName valid

/-- The conditions of an outcome determine it. -/
theorem OpenOutcome.eq {s : State} {path : CString} {flags : UInt32} {result : Int × State}
    (outcome : OpenOutcome s path flags result) : bmfsOpen s path flags = result := by
  cases outcome with
  | badName invalid => simp [bmfsOpen, invalid]
  | tooMany valid full => simp [bmfsOpen, valid, full]
  | missing valid free missing noCreate => simp [bmfsOpen, valid, free, missing, noCreate]
  | dirFull valid free missing create noSlot =>
      simp [bmfsOpen, valid, free, missing, create, noSlot]
  | created valid free missing create freeSlot =>
      simp [bmfsOpen, State.edit, valid, free, missing, create, freeSlot]
  | exclusive valid free found refused => simp [bmfsOpen, valid, free, found, refused]
  | opened valid free found allowed => simp [bmfsOpen, valid, free, found, allowed]

/-- What a call returns and the state it leaves: those of an operation, or an answer
that changes nothing. -/
inductive Outcome (s : State) : Call → Int → State → Prop where
  | still (call : Call) (ret : Int) : Outcome s call ret s
  | opened (path : CString) (flags : UInt32) :
      Outcome s (.open path flags) (bmfsOpen s path flags).1 (bmfsOpen s path flags).2
  | read {fd : Int} {index : Fin 8} (opened : openIndex s fd = some index) (len : UInt64) :
      Outcome s (.read fd len) (bmfsRead s index len).1 (bmfsRead s index len).2.2
  | write {fd : Int} {index : Fin 8} (opened : openIndex s fd = some index)
      (buf : Nat → UInt8) (len : UInt64) :
      Outcome s (.write fd buf len) (bmfsWrite s index buf len).1 (bmfsWrite s index buf len).2
  | lseek {fd : Int} {index : Fin 8} (opened : openIndex s fd = some index)
      (offset : Int64) (whence : Int32) :
      Outcome s (.lseek fd offset whence) (bmfsLseek s index offset whence).1
        (bmfsLseek s index offset whence).2
  | close {fd : Int} {index : Fin 8} (opened : openIndex s fd = some index) :
      Outcome s (.close fd) (bmfsClose s index).1 (bmfsClose s index).2
  | fstatat (path : CString) :
      Outcome s (.fstatat path) (bmfsFstatat s path).1 (bmfsFstatat s path).2.2
  | unlink (path : CString) :
      Outcome s (.unlink path) (bmfsUnlink s path).1 (bmfsUnlink s path).2

/-- Every call has such an outcome. -/
theorem outcome_of_call (s : State) (call : Call) :
    Outcome s call (fileSystem.reply s call).ret (fileSystem.next s call) := by
  rw [reply_eq_serve, next_eq_serve]
  cases call with
  | «open» path flags => exact .opened path flags
  | read fd len =>
      cases opened : openIndex s fd with
      | none =>
          simp only [serve, opened]
          exact .still _ _
      | some index =>
          rw [serve_read opened]
          exact .read opened len
  | write fd buf len =>
      cases opened : openIndex s fd with
      | none =>
          simp only [serve, opened]
          exact .still _ _
      | some index =>
          rw [serve_write opened, Reply.ret_ofResult, Reply.state_ofResult]
          exact .write opened buf len
  | lseek fd offset whence =>
      cases opened : openIndex s fd with
      | none =>
          simp only [serve, opened]
          exact .still _ _
      | some index =>
          rw [serve_lseek opened, Reply.ret_ofResult, Reply.state_ofResult]
          exact .lseek opened offset whence
  | close fd =>
      cases opened : openIndex s fd with
      | none =>
          simp only [serve, opened]
          exact .still _ _
      | some index =>
          rw [serve_close opened, Reply.ret_ofResult, Reply.state_ofResult]
          exact .close opened
  | fstat fd =>
      simp only [serve]
      split <;> exact .still _ _
  | fstatat path => exact .fstatat path
  | unlink path => exact .unlink path

section Changes

variable {origin : State} {call : Call}

/-- Loading is a change, or none if the directory is there already. -/
theorem changes_dirLoad (s : State) : ReflTransGen (Change origin call) s (dirLoad s) := by
  cases loaded : s.dirLoaded with
  | true =>
      rw [dirLoad_of_loaded loaded]
  | false => exact .single (.load loaded)

/-- The end of `open` truncates and attaches. -/
theorem changes_openEntry {s : State} {path : CString} {flags : UInt32} {slot : Fin 8}
    {di : Fin 64} (called : call = .open path flags) (loaded : s.dirLoaded = true)
    (free : findFreeFile s.files = some slot)
    (found : dirFind s.dir (bmfsName path) = some di) :
    ReflTransGen (Change origin call) s (openEntry s slot di flags).2 := by
  cases asked : hasFlag flags oTrunc with
  | false =>
      simp only [openEntry, asked, Bool.false_eq_true, ↓reduceIte]
      exact .single (.attach called loaded free found)
  | true =>
      simp only [openEntry, asked, ↓reduceIte]
      have truncated : Change origin call s _ := .edit (.truncate called asked loaded found)
      refine .head truncated (.single (.attach called loaded free ?_))
      rw [dir_edit, dirFind_congr (s.dir.sameFile_resize di 0)]
      exact found

theorem changes_bmfsOpen (path : CString) (flags : UInt32) :
    ReflTransGen (Change origin (.open path flags)) origin
      (bmfsOpen origin path flags).2 := by
  have outcome := bmfsOpen_outcome origin path flags
  generalize bmfsOpen origin path flags = result at outcome ⊢
  cases outcome with
  | badName invalid => exact .refl
  | tooMany | missing | dirFull | exclusive => exact changes_dirLoad origin
  | created valid free missing create freeSlot =>
      have record := Option.isSome_of_eq_some free
      refine (changes_dirLoad origin).trans
        (.head (.edit (.create rfl create valid missing freeSlot record)) ?_)
      refine changes_openEntry rfl (dirLoaded_dirLoad origin) ?_ ?_
      · rw [files_edit, files_dirLoad]
        exact free
      · exact dirFind_createEntry valid missing
  | opened valid free found allowed =>
      refine (changes_dirLoad origin).trans
        (changes_openEntry rfl (dirLoaded_dirLoad origin) ?_ found)
      rw [files_dirLoad]
      exact free

theorem changes_advance {s : State} {fd : Int} {index : Fin 8} (n : Int)
    (opened : openIndex s fd = some index) :
    ReflTransGen (Change origin call) s (advance s index n) := by
  simp only [advance]
  split
  · exact .single (.move _ opened)
  · exact .refl

theorem changes_bmfsRead {s : State} {fd : Int} {index : Fin 8} (len : UInt64)
    (opened : openIndex s fd = some index) :
    ReflTransGen (Change origin call) s (bmfsRead s index len).2.2 := by
  obtain ⟨scratch, device, state, media⟩ :=
    bmfsPread_state s (s.files index) len (s.files index).pos
  simp only [bmfsRead, state]
  exact .head (.fetch opened media) (changes_advance _ opened)

theorem changes_bmfsWrite {s : State} {fd : Int} {index : Fin 8} {buf : Nat → UInt8}
    {len : UInt64} (called : call = .write fd buf len)
    (opened : openIndex s fd = some index) :
    ReflTransGen (Change origin call) s (bmfsWrite s index buf len).2 := by
  have positioned : ReflTransGen (Change origin call) s (seekForAppend s index) ∧
      openIndex (seekForAppend s index) fd = some index := by
    simp only [seekForAppend]
    split
    · refine ⟨.single (.move _ opened), ?_⟩
      rw [openIndex_congr, opened]
      intro other
      by_cases same : other = index
      · subst same
        simp
      · simp [same]
    · exact ⟨.refl, opened⟩
  obtain ⟨moved, opened⟩ := positioned
  obtain ⟨scratch, device, file, state, same, -⟩ := bmfsPwrite_state (seekForAppend s index)
    index buf len ((seekForAppend s index).files index).pos
  have reopened : openIndex (bmfsPwrite (seekForAppend s index) index buf len
      ((seekForAppend s index).files index).pos).2 fd = some index := by
    rw [openIndex_eq_some_iff] at opened ⊢
    refine ⟨opened.1, ?_⟩
    simpa [state, same.used] using opened.2
  simp only [bmfsWrite]
  exact moved.trans (.head (.store called opened) (changes_advance _ reopened))

theorem changes_bmfsLseek {s : State} {fd : Int} {index : Fin 8} (offset : Int64)
    (whence : Int32) (opened : openIndex s fd = some index) :
    ReflTransGen (Change origin call) s (bmfsLseek s index offset whence).2 := by
  simp only [bmfsLseek]
  split
  · exact .refl
  · split
    · exact .refl
    · exact .single (.move _ opened)

theorem changes_bmfsClose {s : State} {fd : Int} {index : Fin 8}
    (called : call = .close fd) (opened : openIndex s fd = some index) :
    ReflTransGen (Change origin call) s (bmfsClose s index).2 := by
  by_cases dirty : (s.files index).dirty = true
  · rw [bmfsClose_of_dirty dirty]
    exact .head (.edit (.commit called opened dirty)) (.single (.detach called opened))
  · rw [bmfsClose_of_clean dirty]
    exact .single (.detach called opened)

theorem changes_bmfsFstatat (s : State) (path : CString) :
    ReflTransGen (Change origin call) s (bmfsFstatat s path).2.2 := by
  simp only [bmfsFstatat]
  split <;> exact changes_dirLoad s

theorem changes_bmfsUnlink {s : State} {path : CString} (called : call = .unlink path) :
    ReflTransGen (Change origin call) s (bmfsUnlink s path).2 := by
  cases found : dirFind s.table (bmfsName path) with
  | none =>
      rw [bmfsUnlink_of_missing found]
      exact changes_dirLoad s
  | some di =>
      rw [bmfsUnlink_of_found found]
      exact (changes_dirLoad s).tail (.edit (.remove called (dirLoaded_dirLoad s) found))

end Changes

/-- A call makes no other changes. -/
theorem serve_changes (s : State) (call : Call) :
    ReflTransGen (Change s call) s (serve s call).2 := by
  cases call with
  | «open» path flags =>
      simp only [serve, Reply.ofResult]
      exact changes_bmfsOpen path flags
  | read fd len =>
      simp only [serve]
      split
      · exact .refl
      next index opened =>
        exact changes_bmfsRead len opened
  | write fd buf len =>
      simp only [serve]
      split
      · exact .refl
      next index opened =>
        simp only [Reply.ofResult]
        exact changes_bmfsWrite rfl opened
  | lseek fd offset whence =>
      simp only [serve]
      split
      · exact .refl
      next index opened =>
        simp only [Reply.ofResult]
        exact changes_bmfsLseek offset whence opened
  | close fd =>
      simp only [serve]
      split
      · exact .refl
      next index opened =>
        simp only [Reply.ofResult]
        exact changes_bmfsClose rfl opened
  | fstat fd =>
      simp only [serve]
      split <;> exact .refl
  | fstatat path =>
      simp only [serve]
      exact changes_bmfsFstatat s path
  | unlink path =>
      simp only [serve, Reply.ofResult]
      exact changes_bmfsUnlink rfl

/-- Whatever fails, a change only adds to the log of the drive. -/
theorem Change.appends {origin : State} {call : Call} {before after : State}
    (change : Change origin call before after) :
    ∃ writes, Device.Wrote before.device after.device writes := by
  cases change with
  | load unloaded => exact ⟨[], (dirLoad_sameMedia before).wrote⟩
  | edit edit =>
      rcases edit_cases before _ with failed | written
      · exact ⟨[], failed⟩
      · exact ⟨_, written⟩
  | attach | move | detach => exact ⟨[], (Device.SameMedia.refl _).wrote⟩
  | fetch opened media => exact ⟨[], media.wrote⟩
  | @store fd buf len index called opened =>
      rcases bmfsPwrite_cases before index buf len (before.files index).pos with
        ⟨-, refused⟩ | ⟨n, base, -, -, -, -, stored⟩
      · rw [refused]
        exact ⟨[], (Device.SameMedia.refl _).wrote⟩
      · rw [stored]
        exact pwriteLoop_appends before.device before.scratch buf base n

/-- What every change keeps, every call keeps. -/
theorem next_of_changes (invariant : State → Prop) {s : State} {call : Call}
    (kept : ∀ before after, invariant before → Change s call before after →
      invariant after)
    (holds : invariant s) : invariant (fileSystem.next s call) := by
  have changes : ReflTransGen (Change s call) s (fileSystem.next s call) :=
    serve_changes s call
  generalize fileSystem.next s call = last at changes ⊢
  induction changes with
  | refl => exact holds
  | tail earlier change ih => exact kept _ _ ih change

/-- Nothing is open before the directory is loaded. -/
def State.Idle (s : State) : Prop := s.dirLoaded = false → ∀ index, (s.files index).used = false

section Idle

variable {origin before after : State} {call : Call}

theorem State.Idle.loaded {s : State} (idle : s.Idle) {fd : Int} {index : Fin 8}
    (opened : openIndex s fd = some index) : s.dirLoaded = true := by
  have used := ((openIndex_eq_some_iff _ _ _).mp opened).2
  cases loaded : s.dirLoaded with
  | true => rfl
  | false =>
      rw [idle loaded index] at used
      contradiction

theorem State.Idle.of_loaded {s : State} (loaded : s.dirLoaded = true) : s.Idle :=
  fun unloaded => absurd (loaded.symm.trans unloaded) (by decide)

theorem State.Idle.change (idle : before.Idle) (change : Change origin call before after) :
    after.Idle := by
  cases change with
  | load unloaded => exact .of_loaded (dirLoaded_dirLoad before)
  | edit edit => exact idle
  | attach called loaded free found => exact .of_loaded loaded
  | fetch opened media => exact idle
  | @store fd buf len index called opened =>
      obtain ⟨scratch, device, file, state, -⟩ :=
        bmfsPwrite_state before index buf len (before.files index).pos
      rw [state]
      exact .of_loaded (idle.loaded opened)
  | move pos opened | detach called opened => exact .of_loaded (idle.loaded opened)

/-- A change leaves the directory as it is or makes one edit of it. -/
theorem Change.table_cases (idle : before.Idle) (change : Change origin call before after) :
    after.table = before.table ∨
      before.dirLoaded = true ∧ Edit origin call before after.table := by
  cases change with
  | load unloaded => exact .inl (table_dirLoad before)
  | @edit dir edit =>
      have loaded : before.dirLoaded = true := by
        cases edit with
        | create called asked valid missing free record => exact dirLoaded_dirLoad origin
        | truncate called asked loaded found | remove called loaded found => exact loaded
        | commit called opened dirty => exact idle.loaded opened
      rw [table_edit dir loaded]
      exact .inr ⟨loaded, edit⟩
  | attach called loaded free found => exact .inl (table_setFile _ _ _)
  | fetch opened media => exact .inl (table_transfer (idle.loaded opened) _ _)
  | @store fd buf len index called opened =>
      obtain ⟨scratch, device, file, state, -⟩ :=
        bmfsPwrite_state before index buf len (before.files index).pos
      rw [state, table_setFile, table_transfer (idle.loaded opened)]
      exact .inl rfl
  | move pos opened | detach called opened => exact .inl (table_setFile _ _ _)

end Idle

/-- Outside the directory only writes change the drive. -/
theorem cell_next_of_not_write {s : State} {call : Call}
    (noWrite : ∀ fd buf len, call ≠ .write fd buf len) {address : Nat}
    (data : address / 4096 ≠ 1) :
    SectorStore.cell (fileSystem.next s call).device.disk address =
      SectorStore.cell s.device.disk address := by
  apply next_of_changes fun t =>
    SectorStore.cell t.device.disk address = SectorStore.cell s.device.disk address
  case holds => rfl
  intro before after same changed
  rw [← same]
  cases changed with
  | load unloaded => rw [(dirLoad_sameMedia before).disk]
  | @edit dir edit =>
      rcases edit_cases before dir with failed | written
      · rw [failed.disk, SectorStore.replay_nil]
      · rw [written.disk, SectorStore.replay_singleton, SectorStore.cell_update_of_ne _ data]
  | attach | move | detach => rfl
  | fetch opened media => rw [device_transfer, media.disk]
  | store called opened => exact absurd called (noWrite _ _ _)

/-! ## Descriptors after a call -/

section Used

variable {s : State} {index : Fin 8}

theorem used_of_setFile {file : File} {other : Fin 8}
    (used : ((s.setFile index file).files other).used = true) :
    (s.files other).used = true ∨ other = index ∧ file.used = true := by
  rw [files_setFile] at used
  by_cases here : other = index
  · subst here
    rw [Function.update_self] at used
    exact .inr ⟨rfl, used⟩
  · rw [Function.update_of_ne here] at used
    exact .inl used

theorem used_openEntry {slot : Fin 8} {di : Fin 64} {flags : UInt32}
    (used : ((openEntry s slot di flags).2.files index).used = true) :
    (s.files index).used = true ∨ (openEntry s slot di flags).1 = 3 + (index.val : Int) := by
  cases asked : hasFlag flags oTrunc with
  | false =>
      rw [openEntry_of_keep s slot di asked] at used ⊢
      rcases used_of_setFile used with before | ⟨rfl, _⟩
      · exact .inl before
      · exact .inr rfl
  | true =>
      rw [openEntry_of_trunc s slot di asked] at used ⊢
      rcases used_of_setFile used with before | ⟨rfl, _⟩
      · exact .inl before
      · exact .inr rfl

/-- `open` puts the record of the descriptor it returns to use. -/
theorem used_bmfsOpen {path : CString} {flags : UInt32}
    (used : ((bmfsOpen s path flags).2.files index).used = true) :
    (s.files index).used = true ∨ (bmfsOpen s path flags).1 = 3 + (index.val : Int) := by
  have outcome := bmfsOpen_outcome s path flags
  generalize bmfsOpen s path flags = result at outcome used ⊢
  cases outcome with
  | badName invalid => exact .inl used
  | tooMany | missing | dirFull | exclusive =>
      rw [files_dirLoad] at used
      exact .inl used
  | created valid free missing create freeSlot =>
      have before := used_openEntry used
      rwa [files_edit, files_dirLoad] at before
  | opened valid free found allowed =>
      have before := used_openEntry used
      rwa [files_dirLoad] at before

/-- Nothing else puts a record to use. -/
theorem Change.used {origin before after : State} {call : Call}
    (change : Change origin call before after) (other : ∀ path flags, call ≠ .open path flags)
    (used : (after.files index).used = true) : (before.files index).used = true := by
  cases change with
  | load unloaded => rwa [files_dirLoad] at used
  | edit edit => rwa [files_edit] at used
  | attach called => exact absurd called (other _ _)
  | fetch opened media => exact used
  | @store fd buf len slot called opened =>
      obtain ⟨scratch, device, file, state, same, -⟩ :=
        bmfsPwrite_state before slot buf len (before.files slot).pos
      rw [state] at used
      rcases used_of_setFile used with earlier | ⟨rfl, here⟩
      · exact earlier
      · exact same.used ▸ here
  | move pos opened =>
      rcases used_of_setFile used with earlier | ⟨rfl, here⟩
      · exact earlier
      · exact here
  | detach called opened =>
      rcases used_of_setFile used with earlier | ⟨rfl, here⟩
      · exact earlier
      · exact absurd here nofun

/-- `open` opens the descriptor it returns. -/
theorem openIndex_bmfsOpen {path : CString} {flags : UInt32} {fd : Int}
    (opened : openIndex (bmfsOpen s path flags).2 fd ≠ none) :
    openIndex s fd ≠ none ∨ (bmfsOpen s path flags).1 = fd := by
  obtain ⟨index, found⟩ := Option.ne_none_iff_exists'.mp opened
  obtain ⟨number, used⟩ := (openIndex_eq_some_iff _ _ _).mp found
  rcases used_bmfsOpen used with before | returned
  · refine .inl (Option.ne_none_iff_exists'.mpr ⟨index, ?_⟩)
    exact (openIndex_eq_some_iff _ _ _).mpr ⟨number, before⟩
  · exact .inr (returned.trans ((fdIndex_eq_some_iff _ _).mp number).symm)

/-- The other calls open none. -/
theorem openIndex_serve {call : Call} {fd : Int} (other : ∀ path flags, call ≠ .open path flags)
    (opened : openIndex (serve s call).2 fd ≠ none) : openIndex s fd ≠ none := by
  obtain ⟨index, found⟩ := Option.ne_none_iff_exists'.mp opened
  obtain ⟨number, used⟩ := (openIndex_eq_some_iff _ _ _).mp found
  have before : (s.files index).used = true := by
    refine next_of_changes (fun t => (t.files index).used = true → (s.files index).used = true)
      (fun _ _ holds change used => holds (change.used other used)) id used
  refine Option.ne_none_iff_exists'.mpr ⟨index, ?_⟩
  exact (openIndex_eq_some_iff _ _ _).mpr ⟨number, before⟩

/-- A closed descriptor is not open. -/
theorem openIndex_close (s : State) (fd : Int) : openIndex (serve s (.close fd)).2 fd = none := by
  cases opened : openIndex s fd with
  | none =>
      simp only [serve, opened]
  | some index =>
      have number := ((openIndex_eq_some_iff _ _ _).mp opened).1
      rw [serve_close opened, Reply.state_ofResult, openIndex, number, Option.filter_some]
      by_cases dirty : (s.files index).dirty = true
      · simp [bmfsClose_of_dirty dirty]
      · simp [bmfsClose_of_clean dirty]

end Used

end AppPortKit.Bmfs
