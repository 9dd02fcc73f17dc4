import AppPortKit.Stdio.Reading

/-!
# Input

A program makes one call after another on a stream that it reads.  It gets what a cursor in
the file's bytes gives, however the calls and the buffer fall together.
-/

namespace AppPortKit.Stdio

open Libc Posix Program Transition

/-- What a program does with a stream it reads. -/
inductive Input where
  | fread (size nmemb : Nat)
  | fgetc
  | fseeko (off whence : Int64)
  | ftello
  | feof
  deriving DecidableEq

/-- What it gets. -/
inductive Answer where
  | items (count : Nat) (bytes : List UInt8)
  | byte (c : Option UInt8)
  | moved (done : Bool)
  | offset (pos : Int)
  | ended (eof : Bool)
  deriving DecidableEq

/-- The call on a stream. -/
def Input.call : Input → IoFile → Prog (Answer × IoFile)
  | .fread size nmemb, f => do
      let result ← f.fread size nmemb
      pure (.items result.1.1 result.1.2, result.2)
  | .fgetc, f => do
      let result ← f.fgetc
      pure (.byte result.1, result.2)
  | .fseeko off whence, f => do
      let result ← f.fseeko off whence
      pure (.moved result.1, result.2)
  | .ftello, f => do
      let pos ← f.ftello
      pure (.offset pos, f)
  | .feof, f => pure (.ended f.eof, f)

/-- The calls one after another, whatever they give. -/
def inputs : List Input → IoFile → Prog (List Answer × IoFile) := each Input.call

namespace Cursor

/-- The call on a cursor. -/
def call (c : Cursor) : Input → Answer × Cursor
  | .fread size nmemb =>
      (.items ((c.take (size * nmemb)).1.length / size) (c.take (size * nmemb)).1,
        (c.take (size * nmemb)).2)
  | .fgetc => (.byte (c.take 1).1.head?, (c.take 1).2)
  | .fseeko off whence => (.moved (c.seek off whence).1, (c.seek off whence).2)
  | .ftello => (.offset c.pos, c)
  | .feof => (.ended c.eof, c)

/-- Cursors as a machine. -/
def machine : Machine Cursor Input Answer := ⟨call⟩

/-- Lengths and positions are signed words, with a buffer to spare. -/
def InRange (c : Cursor) : Input → Prop
  | .fread size nmemb => size * nmemb < 9223372036854774784
  | .fseeko off whence => -9223372036854774784 ≤ off.toInt ∧
      ∀ base ∈ c.base whence, (base : Int) + off.toInt < 9223372036854775808
  | .fgetc | .ftello | .feof => True

instance decidableInRange (c : Cursor) : (input : Input) → Decidable (c.InRange input)
  | .fread size nmemb => inferInstanceAs (Decidable (size * nmemb < 9223372036854774784))
  | .fseeko off whence => inferInstanceAs (Decidable (-9223372036854774784 ≤ off.toInt ∧
      ∀ base ∈ c.base whence, (base : Int) + off.toInt < 9223372036854775808))
  | .fgetc | .ftello | .feof => isTrue trivial

end Cursor

/-- Every call gives what the cursor gives, with at most two system calls. -/
theorem IoFile.Reading.call {origin : State} {index : Fin 8} {f : IoFile} {w : World} {c : Cursor}
    (reading : IoFile.Reading origin index f w.system c) {input : Input} (inRange : c.InRange input)
    (turns : 2 ≤ w.turns.length) :
    Returns (input.call f) w fun result w' => w.turns.length ≤ w'.turns.length + 2 ∧
      result.1 = (c.call input).1 ∧
      IoFile.Reading origin index result.2 w'.system (c.call input).2 := by
  cases input with
  | fread size nmemb =>
      refine (reading.fread inRange turns).bind ?_
      rintro ⟨⟨count, bytes⟩, f'⟩ w' ⟨rest, same, reading'⟩
      obtain ⟨rfl, rfl⟩ := Prod.mk.inj same
      exact returns_pure ⟨rest, rfl, reading'⟩
  | fgetc =>
      refine (reading.fgetc (by omega)).bind ?_
      rintro ⟨byte, f'⟩ w' ⟨rest, rfl, reading'⟩
      exact returns_pure ⟨by omega, rfl, reading'⟩
  | fseeko off whence =>
      refine (reading.fseeko inRange.1 inRange.2 (by omega)).bind ?_
      rintro ⟨moved, f'⟩ w' ⟨rest, rfl, reading'⟩
      exact returns_pure ⟨by omega, rfl, reading'⟩
  | ftello =>
      refine (reading.ftello (by omega)).bind ?_
      rintro pos w' ⟨rest, rfl, reading'⟩
      exact returns_pure ⟨by omega, rfl, reading'⟩
  | feof => exact returns_pure ⟨by omega, by rw [reading.eof]; rfl, reading⟩

/-- A new stream is at the position of its file. -/
theorem reading_fdopen {s : State} {fd : Int} {index : Fin 8} (readable : Readable s fd index)
    {mode : Mode} {update : Bool} (allowed : mode ≠ .r → update) :
    IoFile.Reading s index (fdopen fd mode update) s
      { contents := bytesOf s index, pos := position s index, eof := false } where
  readable := readable
  sought := .refl s index
  contents := rfl
  place := rfl
  buffer := List.nil_prefix
  held := Nat.zero_le _
  eof := rfl
  ended := nofun
  allowed := by
    cases update with
    | true => rfl
    | false => simpa [fdopen] using allowed
  notWriting := rfl
  buffered := Nat.zero_lt_succ _
  small := Nat.le_refl _

/-- The calls on a stream give what the cursor gives. -/
theorem IoFile.Reading.inputs {origin : State} {index : Fin 8} {f : IoFile} {w : World}
    {c : Cursor} (reading : IoFile.Reading origin index f w.system c) {calls : List Input}
    (inRange : Cursor.machine.Along Cursor.InRange c calls)
    (turns : 2 * calls.length ≤ w.turns.length) :
    Returns (Stdio.inputs calls f) w fun result w' =>
      result.1 = Cursor.machine.replies c calls ∧
        IoFile.Reading origin index result.2 w'.system (Cursor.machine.run c calls) := by
  have step : ∀ c input f v, IoFile.Reading origin index f v.system c → c.InRange input →
      2 ≤ v.turns.length → Returns (input.call f) v fun result w' =>
        v.turns.length ≤ w'.turns.length + 2 ∧ result.1 = Cursor.machine.reply c input ∧
          IoFile.Reading origin index result.2 w'.system (Cursor.machine.next c input) :=
    fun c input f v reading inRange turns => reading.call inRange turns
  exact returns_each step reading inRange turns

/-- A program reads a stream on a file.  The calls give what a cursor in the file's bytes
gives, and only the file's position is different afterwards. -/
theorem inputs_follow_cursor {w : World} {fd : Int} {index : Fin 8}
    (readable : Readable w.system fd index) {mode : Mode} {update : Bool}
    (allowed : mode ≠ .r → update) (calls : List Input)
    (inRange : Cursor.machine.Along Cursor.InRange
      { contents := bytesOf w.system index, pos := position w.system index, eof := false } calls)
    (turns : 2 * calls.length ≤ w.turns.length) :
    Returns (inputs calls (fdopen fd mode update)) w fun result w' =>
      result.1 = Cursor.machine.replies
          { contents := bytesOf w.system index, pos := position w.system index, eof := false }
          calls ∧
        Sought w.system w'.system index := by
  refine ((reading_fdopen readable allowed).inputs inRange turns).mono ?_
  rintro result w' ⟨replies, reading⟩
  exact ⟨replies, reading.sought⟩

/-- A file with three bytes, open as descriptor 3. -/
def threeBytes : State :=
  { newFile with
    files := { newFile.files with
      files := fun index => { newFile.files.files index with size := 3 } } }

theorem threeBytes_readable : Readable threeBytes 3 0 := by
  refine ⟨by decide +kernel, newFile_reliable, ⟨?_, ?_⟩, by decide +kernel⟩
  · simp only [Bmfs.File.Fits, Bmfs.File.cap]
    decide +kernel
  · simp only [Bmfs.File.Addressable]
    decide +kernel

/-- All of it, its end, and the last byte again. -/
def endAndBack : List Input := [.fread 2 2, .feof, .fseeko (-1) 2, .ftello, .fgetc, .fgetc]

theorem inputs_follow_cursor_endAndBack :
    Returns (inputs endAndBack (fdopen 3 .r false)) ⟨threeBytes, List.replicate 12 fun _ => .idle⟩
      fun result w => result.1 = Cursor.machine.replies
          { contents := bytesOf threeBytes 0, pos := position threeBytes 0, eof := false }
          endAndBack ∧
        Sought threeBytes w.system 0 :=
  inputs_follow_cursor threeBytes_readable nofun endAndBack (by decide +kernel) (by decide)

end AppPortKit.Stdio
