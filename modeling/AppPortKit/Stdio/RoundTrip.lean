import AppPortKit.Bmfs.Named
import AppPortKit.Stdio.Input
import AppPortKit.Stdio.Output

/-!
# What is written is read

A program writes a file through a stream and closes it, and then reads it through another.
It finds what was there before, unless it opened the file to replace it, and then the bytes
that it wrote.
-/

namespace AppPortKit.Stdio

open Bmfs hiding State Reply
open Libc Posix Program

/-- A program that writes a file and then reads it.  It stops if the file cannot be
opened. -/
def saveAndLoad (path : CString) (mode : Mode) (calls : List Output) (reads : List Input) :
    Prog (Option (List Bool × Option (List Answer))) := do
  let saving ← fopen path mode false true
  match saving with
  | none => pure none
  | some f => do
      let replies ← outputsClosed calls f
      let loading ← fopen path .r false true
      match loading with
      | none => pure (some (replies, none))
      | some g => do
          let result ← inputs reads g
          pure (some (replies, some result.1))

section Fopen

theorem hasFlag_fmodeflags (mode : Mode) (update : Bool) :
    hasFlag (fmodeflags mode update).toUInt32 oCreat = (mode != .r) ∧
      hasFlag (fmodeflags mode update).toUInt32 oExcl = false ∧
      hasFlag (fmodeflags mode update).toUInt32 oTrunc = (mode == .w) ∧
      hasFlag (fmodeflags mode update).toUInt32 oAppend = (mode == .a) := by
  cases mode <;> cases update <;> decide

variable {s : State} {turns : List (Nat → Turn)} {path : CString} {mode : Mode} {update : Bool}

/-- `fopen` with memory for the stream is `open`. -/
theorem returns_fopen {ret : Int} {files : Bmfs.State}
    (opened : bmfsOpen s.files path (fmodeflags mode update).toUInt32 = (ret, files))
    (positive : 0 < turns.length) :
    Returns (fopen path mode update true) ⟨s, turns⟩ fun result w =>
      turns.length = w.turns.length + 1 ∧ w.system = { s with files } ∧
        result = if ret < 0 then none else some (fdopen ret mode update) := by
  obtain ⟨turn, later, rfl⟩ := List.exists_cons_of_length_pos positive
  have served : s.bmosSyscall turn (.open path (fmodeflags mode update)) =
      .ok (some (.code ret), { s with files }) := by
    have reply : serve s.files (.open path (fmodeflags mode update).toUInt32) =
        (.code ret, files) := by rw [serve, opened, Reply.ofResult_mk]
    simp only [State.bmosSyscall, State.sysOpen, State.fileCall, reply]
    rfl
  have bound : Returns (bmosSyscall (.open path (fmodeflags mode update))) ⟨s, turn :: later⟩ _ :=
    returns_bmosSyscall rfl served
  refine bound.bind ?_
  rintro _ _ ⟨rfl, rfl⟩
  by_cases failed : ret < 0
  · have negative : syscallRet ret < 0 := by
      rw [syscallRet]
      split <;> omega
    rw [if_pos failed]
    simp only [Posix.Reply.code, if_pos negative]
    exact returns_pure ⟨rfl, rfl, rfl⟩
  · have same : syscallRet ret = ret := syscallRet_of_nonneg (by omega)
    rw [if_neg failed]
    simp only [Posix.Reply.code, same, if_neg failed, if_true]
    exact returns_pure ⟨rfl, rfl, rfl⟩

end Fopen

/-- What a file still has when it was opened for writing. -/
def kept (s : Bmfs.State) (name : CString) (mode : Mode) : List UInt8 :=
  if mode = .w then [] else named s name

/-- What there is room for then. -/
def roomUnder (s : Bmfs.State) (name : CString) (mode : Mode) : Nat :=
  reserved s name - (kept s name mode).length

section Phases

variable {s s' : State} {path : CString} {mode : Mode} {slot : Fin 8} {bytes : List UInt8}
  {cap : Nat}

theorem length_contents (f : File) (disk : Disk) : (f.contents disk).length = f.size.toNat := by
  rw [File.contents, List.length_map, List.length_range]

/-- A file that was opened for writing is written at its end. -/
theorem offset_of_opens (writes : mode ≠ .r)
    (opens : Opens s.files slot (fmodeflags mode false).toUInt32
      (if hasFlag (fmodeflags mode false).toUInt32 oTrunc then [] else bytes) cap) :
    (s.files.files slot).pos = (s.files.files slot).offset ∧
      (s.files.files slot).offset = (s.files.files slot).size := by
  obtain ⟨-, -, truncates, appends⟩ := hasFlag_fmodeflags mode false
  have append := opens.append
  have pos := opens.pos
  have contents := opens.contents
  rw [appends] at append pos
  rw [truncates] at contents
  cases mode with
  | r => exact absurd rfl writes
  | w =>
      have truncated := congrArg List.length contents
      rw [length_contents] at truncated
      have size : (s.files.files slot).size = 0 := UInt64.toNat_inj.mp truncated
      rw [File.offset, append, size]
      exact ⟨rfl, pos⟩
  | a =>
      rw [File.offset, append]
      exact ⟨pos, rfl⟩

/-- What a file has then, and has room for. -/
theorem state_of_opens {files : Bmfs.State} {name : CString} (writes : mode ≠ .r)
    (opens : Opens s.files slot (fmodeflags mode false).toUInt32
      (if hasFlag (fmodeflags mode false).toUInt32 oTrunc then [] else named files name)
      (reserved files name)) :
    bytesOf s slot = kept files name mode ∧ room s slot = roomUnder files name mode := by
  obtain ⟨-, -, truncates, -⟩ := hasFlag_fmodeflags mode false
  have before : bytesOf s slot = kept files name mode := by
    rw [bytesOf, opens.contents, truncates, kept]
    cases mode <;> rfl
  refine ⟨before, ?_⟩
  rw [room, File.space, opens.capacity, (offset_of_opens writes opens).2, roomUnder, ← before,
    bytesOf, length_contents]

/-- Bytes are stored at the end of a file. -/
theorem Placed.attached {name : CString} (placed : Placed s s' slot bytes)
    (attached : Attached s.files slot name) (inside : bytes.length ≤ room s slot)
    (stands : (s.files.files slot).pos = (s.files.files slot).offset)
    (atEnd : (s.files.files slot).offset = (s.files.files slot).size) :
    Attached s'.files slot name ∧ bytesOf s' slot = bytesOf s slot ++ bytes := by
  obtain ⟨files, rfl, ⟨rfl, moved⟩ | ⟨nonempty, stores⟩⟩ := placed
  · obtain rfl : files = s.files :=
      moved.elim id fun same => same.trans (State.atOffset_of_eq stands)
    exact ⟨attached, (List.append_nil _).symm⟩
  · exact ⟨attached.stores stores nonempty inside, attached.contents_stores stores inside atEnd⟩

/-- A file that was opened for reading is read from its start. -/
theorem readable_of_opens {name : CString} (attached : Attached s.files slot name)
    (opens : Opens s.files slot (fmodeflags .r false).toUInt32 bytes cap) :
    Readable s (3 + (slot.val : Int)) slot ∧ bytesOf s slot = bytes ∧ position s slot = 0 := by
  obtain ⟨-, -, -, appends⟩ := hasFlag_fmodeflags .r false
  have pos := opens.pos
  rw [appends] at pos
  have start : position s slot = 0 := by
    rw [position, pos]
    rfl
  exact ⟨⟨attached.openIndex_eq, attached.reliable, ⟨attached.fits, attached.placed.addressable⟩,
    Nat.lt_of_le_of_lt start.le (by decide)⟩, opens.contents, start⟩

variable {turns : List (Nat → Turn)}

/-- A program writes to a file that it opened, and closes it. -/
theorem returns_save {name : CString} (attached : Attached s.files slot name)
    (writes : mode ≠ .r)
    (opens : Opens s.files slot (fmodeflags mode false).toUInt32
      (if hasFlag (fmodeflags mode false).toUInt32 oTrunc then [] else bytes) cap)
    {calls : List Output} (valid : ∀ output ∈ calls, output.Valid)
    (short : (written calls).length < 9223372036854775808)
    (enough : 2 * calls.length + 3 ≤ turns.length) :
    Returns (outputsClosed calls (fdopen (3 + (slot.val : Int)) mode false)) ⟨s, turns⟩
      fun replies w => turns.length ≤ w.turns.length + (2 * calls.length + 3) ∧
        (replies.all id ↔ (written calls).length ≤ room s slot) ∧
        Saved w.system.files name (bytesOf s slot ++ (written calls).take (room s slot)) := by
  obtain ⟨stands, atEnd⟩ := offset_of_opens writes opens
  have on : OnFile s (3 + (slot.val : Int)) slot :=
    ⟨attached.openIndex_eq, attached.reliable, attached.placed.addressable⟩
  have returns := on.outputsClosed (w := ⟨s, turns⟩)
    (fun reads => absurd reads writes : mode = .r → false = true) valid short enough
  refine returns.mono ?_
  rintro replies w ⟨rest, complete, s', turn, put, served⟩
  have inside : ((written calls).take (room s slot)).length ≤ room s slot := List.length_take_le _ _
  obtain ⟨attached', contents⟩ := put.attached attached inside stands atEnd
  have closed := ((on.placed put inside).1.close turn).symm.trans served
  rw [Except.ok.injEq, Prod.mk.injEq] at closed
  refine ⟨rest, complete, ?_⟩
  rw [← contents, ← closed.2]
  exact attached'.close

/-- It opens the file again. -/
theorem returns_load (saved : Saved s.files (bmfsName path) bytes)
    (valid : validName (bmfsName path)) (positive : 0 < turns.length) :
    Returns (fopen path .r false true) ⟨s, turns⟩ fun result w =>
      turns.length = w.turns.length + 1 ∧
        ∃ slot : Fin 8, result = some (fdopen (3 + (slot.val : Int)) .r false) ∧
          Readable w.system (3 + (slot.val : Int)) slot ∧ bytesOf w.system slot = bytes ∧
          position w.system slot = 0 := by
  obtain ⟨creates, -, truncates, -⟩ := hasFlag_fmodeflags .r false
  obtain ⟨slot, files, opened, attached, cap, opens⟩ := saved.open valid truncates creates
  refine (returns_fopen opened positive).mono ?_
  rintro result w ⟨rest, system, rfl⟩
  refine ⟨rest, slot, if_neg (by omega), ?_⟩
  rw [system]
  exact readable_of_opens attached opens

end Phases

/-- A program opens a file to replace or extend it, writes to it, closes it, and reads it.
If the file can be opened at all, then the reads give what a cursor in the bytes gives that
were kept and that were written, as many as there is room for; and a call on the first
stream fails exactly if there is not room for all of them. -/
theorem saved_bytes_load {s : State} (usable : Usable s.files) (path : CString) {mode : Mode}
    (writes : mode ≠ .r) {calls : List Output} (valid : ∀ output ∈ calls, output.Valid)
    (short : (written calls).length < 9223372036854775808) {reads : List Input}
    (inRange : Cursor.machine.Along Cursor.InRange
      { contents := kept s.files (bmfsName path) mode ++
          (written calls).take (roomUnder s.files (bmfsName path) mode)
        pos := 0, eof := false } reads)
    {turns : List (Nat → Turn)} (enough : 2 * calls.length + 2 * reads.length + 5 ≤ turns.length) :
    Returns (saveAndLoad path mode calls reads) ⟨s, turns⟩ fun result _ =>
      result = none ∧ (bmfsOpen s.files path (fmodeflags mode false).toUInt32).1 < 0 ∨
      ∃ replies, result = some (replies, some (Cursor.machine.replies
          { contents := kept s.files (bmfsName path) mode ++
              (written calls).take (roomUnder s.files (bmfsName path) mode)
            pos := 0, eof := false } reads)) ∧
        (replies.all id ↔ (written calls).length ≤ roomUnder s.files (bmfsName path) mode) := by
  obtain failed | ⟨named, slot, files, opened, attached, opens⟩ :=
    bmfsOpen_attached usable path (fmodeflags mode false).toUInt32
  · have split : bmfsOpen s.files path (fmodeflags mode false).toUInt32 =
        ((bmfsOpen s.files path (fmodeflags mode false).toUInt32).1,
          (bmfsOpen s.files path (fmodeflags mode false).toUInt32).2) := Prod.mk.eta.symm
    refine (returns_fopen split (by omega)).bind ?_
    rintro _ w ⟨-, -, rfl⟩
    rw [if_pos failed]
    exact returns_pure (.inl ⟨rfl, failed⟩)
  · refine (returns_fopen opened (by omega)).bind ?_
    rintro _ ⟨_, turns'⟩ ⟨rest, rfl, rfl⟩
    rw [if_neg (by omega)]
    dsimp only at rest ⊢
    obtain ⟨before, space⟩ := state_of_opens (s := { s with files }) writes opens
    refine (returns_save (s := { s with files }) attached writes opens valid short
      (by omega)).bind ?_
    rintro replies ⟨saving, later⟩ ⟨rest', complete, saved⟩
    dsimp only at rest' saved
    rw [before, space] at saved
    refine (returns_load saved named (by omega)).bind ?_
    rintro _ ⟨loading, last⟩ ⟨rest'', slot', rfl, readable, contents, start⟩
    dsimp only at rest'' readable contents start ⊢
    have allowed : Mode.r ≠ .r → false = true := fun reads => absurd rfl reads
    have reading := reading_fdopen readable allowed
    rw [contents, start] at reading
    refine (reading.inputs (w := ⟨loading, last⟩) inRange (by dsimp only; omega)).bind ?_
    rintro result w ⟨answers, -⟩
    rw [answers]
    exact returns_pure (.inr ⟨replies, rfl, complete.trans (by rw [space])⟩)

/-- The image over a blank disk. -/
theorem usable_blankDisk : Usable (Bmfs.State.boot blankDisk fun _ => false) := by
  have table : (Bmfs.State.boot blankDisk fun _ => false).table = Dir.decode (blankDisk 1) :=
    table_of_unloaded (fun _ => rfl) rfl
  refine ⟨.boot _ fun slot live => absurd live (blankDisk_dead slot), fun _ => rfl, ?_, ?_⟩
  · rw [table]
    exact fun slot live => absurd live (blankDisk_dead slot)
  · rw [table]
    exact blankDisk_bounded

theorem saved_bytes_load_twoLines :
    Returns (saveAndLoad nameA .a twoLines [.fread 1 7, .feof])
      ⟨.boot blankDisk (fun _ => false) heldKey, List.replicate 15 fun _ => .idle⟩ fun result _ =>
      result = none ∧ (bmfsOpen (.boot blankDisk fun _ => false) nameA
        (fmodeflags .a false).toUInt32).1 < 0 ∨
      ∃ replies, result = some (replies, some (Cursor.machine.replies
          { contents := kept (.boot blankDisk fun _ => false) (bmfsName nameA) .a ++
              (written twoLines).take
                (roomUnder (.boot blankDisk fun _ => false) (bmfsName nameA) .a)
            pos := 0, eof := false } [.fread 1 7, .feof])) ∧
        (replies.all id ↔ (written twoLines).length ≤
          roomUnder (.boot blankDisk fun _ => false) (bmfsName nameA) .a) :=
  saved_bytes_load (s := .boot blankDisk (fun _ => false) heldKey) usable_blankDisk nameA
    (by decide) (by decide) (by decide) (by exact ⟨by decide, trivial, trivial⟩) (by decide)

end AppPortKit.Stdio
