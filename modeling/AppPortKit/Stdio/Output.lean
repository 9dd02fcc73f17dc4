import AppPortKit.Stdio.Writing

/-!
# Output

A program makes one call after another on a stream.  What the stream's destination has room
for arrives, in order, and what it has no room for is reported, at the latest when the
stream is closed.
-/

namespace AppPortKit.Stdio

open Libc Posix Program

/-! ## Sequences of writes -/

/-- What a program does with a stream it writes. -/
inductive Output where
  | fwrite (src : List UInt8) (size nmemb : Nat)
  | fputc (c : UInt8)
  | fflush
  deriving DecidableEq, Repr

namespace Output

/-- The bytes that are written. -/
def data : Output → List UInt8
  | .fwrite src size nmemb => src.take (size * nmemb)
  | .fputc c => [c]
  | .fflush => []

/-- The source has as many bytes as are to be written. -/
def Valid : Output → Prop
  | .fwrite src size nmemb => size * nmemb ≤ src.length
  | .fputc _ | .fflush => True

instance decidableValid : (output : Output) → Decidable output.Valid
  | .fwrite src size nmemb => inferInstanceAs (Decidable (size * nmemb ≤ src.length))
  | .fputc _ | .fflush => isTrue trivial

/-- The call, and whether its result reports success. -/
def call : Output → IoFile → Prog (Bool × IoFile)
  | .fwrite src size nmemb, f => do
      let result ← f.fwrite src size nmemb
      pure (size = 0 ∨ result.1 = nmemb, result.2)
  | .fputc c, f => do
      let result ← f.fputc c
      pure (result.1.isSome, result.2)
  | .fflush, f => f.fflush

end Output

/-- The calls one after another, whatever they report. -/
def outputs : List Output → IoFile → Prog (List Bool × IoFile) := each Output.call

/-- The calls, and then `fclose`. -/
def outputsClosed (calls : List Output) (f : IoFile) : Prog (List Bool) := do
  let result ← outputs calls f
  let closed ← result.2.fclose
  pure (result.1 ++ [closed])

/-- All bytes that are written. -/
def written (calls : List Output) : List UInt8 := calls.flatMap Output.data

namespace IoFile.Writing

variable {start : IoFile} {dest : Destination start.fd} {origin : State} {f : IoFile} {w : World}
  {items : List UInt8} {lost : Bool} (writing : Writing dest origin f w.system items lost)
  (ready : dest.Ready origin)

include writing ready

theorem call (turns : 2 ≤ w.turns.length) {output : Output} (valid : output.Valid)
    (short : (items ++ output.data).length < 9223372036854775808) :
    Returns (output.call f) w fun result w' =>
      w.turns.length ≤ w'.turns.length + 2 ∧
        Writing dest origin result.2 w'.system (items ++ output.data) (lost || !result.1) := by
  cases output with
  | fwrite src size nmemb =>
      refine (writing.fwrite ready turns valid short).bind ?_
      rintro result w' stepped
      exact returns_pure stepped
  | fputc c =>
      refine (writing.fputc ready turns short).bind ?_
      rintro result w' stepped
      exact returns_pure stepped
  | fflush =>
      rw [Output.data, List.append_nil] at short ⊢
      refine (writing.fflush ready turns short).mono ?_
      rintro result w' ⟨rest, -, writing'⟩
      exact ⟨rest, writing'⟩

theorem outputs {calls : List Output} (turns : 2 * calls.length ≤ w.turns.length)
    (valid : ∀ output ∈ calls, output.Valid)
    (short : (items ++ written calls).length < 9223372036854775808) :
    Returns (Stdio.outputs calls f) w fun result w' =>
      w.turns.length ≤ w'.turns.length + 2 * calls.length ∧
        Writing dest origin result.2 w'.system (items ++ written calls)
          (lost || !result.1.all id) := by
  induction calls generalizing f w items lost with
  | nil =>
      refine returns_pure ⟨Nat.le_refl _, ?_⟩
      simpa [written] using writing
  | cons output later ih =>
      rw [written, List.flatMap_cons, ← written, ← List.append_assoc] at short ⊢
      rw [List.length_cons] at turns ⊢
      have short' : (items ++ output.data).length < 9223372036854775808 := by
        rw [List.length_append] at short
        omega
      refine (writing.call ready (by omega) (valid output List.mem_cons_self) short').bind ?_
      rintro ⟨done, f'⟩ w' ⟨rest, writing'⟩
      dsimp only at writing' ⊢
      refine (ih writing' (by omega) (fun output among => valid output
        (List.mem_cons_of_mem _ among)) short).bind ?_
      rintro ⟨replies, f''⟩ w'' ⟨rest', writing''⟩
      refine returns_pure ⟨by omega, ?_⟩
      dsimp only at writing'' ⊢
      rwa [List.all_cons, id, Bool.not_and, ← Bool.or_assoc]

/-- Closing a stream reports what was lost since the last flush. -/
theorem fclose (turns : 3 ≤ w.turns.length) (short : items.length < 9223372036854775808) :
    Returns f.fclose w fun closed w' => w.turns.length ≤ w'.turns.length + 3 ∧ ∃ s turns,
      s.bmosSyscall turns (.close start.fd) = .ok (some (.code 0), w'.system) ∧
        dest.Delivered origin s items [] (lost || !closed) := by
  refine (writing.fflush ready (by omega) short).bind ?_
  rintro ⟨flushed, f'⟩ w' ⟨rest, empty, writing'⟩
  dsimp only at empty writing' ⊢
  obtain ⟨turn, later, next⟩ := List.exists_cons_of_length_pos (show 0 < w'.turns.length by omega)
  have delivered := writing'.delivered
  rw [empty] at delivered
  obtain ⟨s', served⟩ := dest.close turn (delivered.ready ready)
  rw [writing'.here]
  refine (returns_bmosSyscall next served).bind ?_
  rintro _ _ ⟨rfl, rfl⟩
  rw [next, List.length_cons] at rest
  refine returns_pure ⟨rest, w'.system, turn, served, ?_⟩
  rwa [show (syscallRet (Reply.code 0).ret == 0) = true from rfl, Bool.and_true]

end IoFile.Writing

/-- A stream of which nothing was asked yet. -/
structure IoFile.Fresh (f : IoFile) : Prop where
  write : f.write = none
  read : f.read = none
  writable : f.noWrite = false
  lines : f.lbf = none ∨ f.lbf = some 10

theorem IoFile.Fresh.writing {f : IoFile} (fresh : f.Fresh) (dest : Destination f.fd)
    (s : State) : IoFile.Writing dest s f s [] false where
  fixed := ⟨f.write, f.read, f.err, rfl⟩
  delivered := by
    rw [IoFile.pending, fresh.write, Option.getD_none]
    exact .start _ s
  within := by
    rw [IoFile.pending, fresh.write, Option.getD_none]
    exact Nat.zero_le _
  writable := fresh.writable
  notReading := fresh.read
  lines := fresh.lines.imp_right fun buffered =>
    ⟨buffered, by rw [IoFile.pending, fresh.write, Option.getD_none]; exact List.not_mem_nil⟩

theorem fresh_fdopen {fd : Int} {mode : Mode} {update : Bool} (writable : mode = .r → update) :
    (fdopen fd mode update).Fresh where
  write := rfl
  read := rfl
  writable := by
    cases update with
    | true => rfl
    | false => simpa [fdopen] using writable
  lines := by
    rw [fdopen]
    dsimp only
    split
    · exact .inr rfl
    · exact .inl rfl

/-- A program writes to `stdout` or `stderr`.  All calls succeed, and the console shows the
bytes in order, up to the last newline at least; on `stderr` it shows all of them. -/
theorem outputs_reach_console {f : IoFile} (stream : f = stdout ∨ f = stderr) (s : State)
    {turns : List (Nat → Turn)} (calls : List Output) (valid : ∀ output ∈ calls, output.Valid)
    (short : (written calls).length < 9223372036854775808)
    (enough : 2 * calls.length ≤ turns.length) :
    Returns (outputs calls f) ⟨s, turns⟩ fun result w => result.1.all id ∧
      ∃ shown held, written calls = shown ++ held ∧
        w.system = { s with console := s.console.put shown } ∧
        10 ∉ held ∧ held.length ≤ 1024 ∧ (f = stderr → held = []) := by
  have fresh : f.Fresh := by
    rcases stream with rfl | rfl
    · exact ⟨rfl, rfl, rfl, .inr rfl⟩
    · exact ⟨rfl, rfl, rfl, .inl rfl⟩
  have console : f.fd = 1 ∨ f.fd = 2 := stream.imp (congrArg IoFile.fd) (congrArg IoFile.fd)
  have writing := fresh.writing (.console f.fd console) s
  have returns := writing.outputs (w := ⟨s, turns⟩) trivial enough valid (by rwa [List.nil_append])
  refine returns.mono ?_
  rintro ⟨replies, f'⟩ w ⟨-, writing'⟩
  rw [List.nil_append, Bool.false_or] at writing'
  obtain ⟨sound, shown, whole, put⟩ := writing'.delivered.of_unlimited rfl
  obtain ⟨write, read, err, same⟩ : ∃ write read err, f' = { f with write, read, err } :=
    writing'.fixed
  have size : f'.bufSize = f.bufSize := by rw [same]
  have kind : f'.lbf = f.lbf := by rw [same]
  have within := writing'.within
  rw [size] at within
  refine ⟨by simpa using sound, shown, f'.pending, whole.symm, put, ?_⟩
  rcases stream with rfl | rfl
  · obtain unbuffered | ⟨-, noLine⟩ := writing'.lines
    · exact absurd (kind.symm.trans unbuffered) nofun
    · exact ⟨noLine, within, nofun⟩
  · have empty : f'.pending = [] := List.length_eq_zero_iff.mp (Nat.le_zero.mp within)
    rw [empty]
    exact ⟨List.not_mem_nil, Nat.zero_le _, fun _ => rfl⟩

/-- Two lines, the second without its end. -/
def twoLines : List Output := [.fwrite [104, 105, 10, 98] 2 2, .fputc 121, .fputc 101]

theorem outputs_reach_console_twoLines :
    Returns (outputs twoLines stdout) ⟨newFile, List.replicate 6 fun _ => .idle⟩ fun result w =>
      result.1.all id ∧ ∃ shown held, [104, 105, 10, 98, 121, 101] = shown ++ held ∧
        w.system = { newFile with console := newFile.console.put shown } ∧
        10 ∉ held ∧ held.length ≤ 1024 ∧ (stdout = stderr → held = []) :=
  outputs_reach_console (.inl rfl) newFile twoLines (by decide) (by decide) (by decide)

/-- The calls on a stream and `fclose`, for any destination. -/
theorem IoFile.Fresh.outputsClosed {f : IoFile} (fresh : f.Fresh) (dest : Destination f.fd)
    {w : World} (ready : dest.Ready w.system) {calls : List Output}
    (valid : ∀ output ∈ calls, output.Valid)
    (short : (written calls).length < 9223372036854775808)
    (turns : 2 * calls.length + 3 ≤ w.turns.length) :
    Returns (Stdio.outputsClosed calls f) w fun replies w' =>
      w.turns.length ≤ w'.turns.length + (2 * calls.length + 3) ∧
        (replies.all id ↔ Fits (dest.room w.system) (written calls).length) ∧
        ∃ s turns, dest.Put w.system s (accepted (dest.room w.system) (written calls)) ∧
          s.bmosSyscall turns (.close f.fd) = .ok (some (.code 0), w'.system) := by
  have writing := fresh.writing dest w.system
  refine (writing.outputs ready (by omega) valid (by rwa [List.nil_append])).bind ?_
  rintro ⟨replies, f'⟩ w' ⟨rest, writing'⟩
  rw [List.nil_append, Bool.false_or] at writing'
  refine (writing'.fclose ready (by omega) short).bind ?_
  rintro closed w'' ⟨rest', s, turn, served, delivered⟩
  obtain ⟨put, complete⟩ := delivered.settled
  refine returns_pure ⟨by omega, ?_, s, turn, put, served⟩
  rw [List.all_append, ← complete]
  simp

/-- The same, for a file. -/
theorem OnFile.outputsClosed {w : World} {fd : Int} {index : Fin 8} (on : OnFile w.system fd index)
    {mode : Mode} {update : Bool} (writable : mode = .r → update) {calls : List Output}
    (valid : ∀ output ∈ calls, output.Valid)
    (short : (written calls).length < 9223372036854775808)
    (turns : 2 * calls.length + 3 ≤ w.turns.length) :
    Returns (Stdio.outputsClosed calls (fdopen fd mode update)) w fun replies w' =>
      w.turns.length ≤ w'.turns.length + (2 * calls.length + 3) ∧
        (replies.all id ↔ (written calls).length ≤ room w.system index) ∧
        ∃ s turns, Placed w.system s index ((written calls).take (room w.system index)) ∧
          s.bmosSyscall turns (.close fd) = .ok (some (.code 0), w'.system) := by
  have returns := (fresh_fdopen writable).outputsClosed (.file fd index) on valid short turns
  refine returns.mono ?_
  rintro replies w' ⟨rest, complete, s, turn, put, served⟩
  have limit : (Destination.file fd index).room w.system = some (room w.system index) := rfl
  rw [limit] at complete put
  rw [accepted_some] at put
  exact ⟨rest, complete.trans fits_some_iff, s, turn, put, served⟩

/-- A program writes to a stream on a file and closes it.  The file gets the bytes it has
room for, in order, and then is closed; and a call fails exactly if they are not all. -/
theorem outputs_reach_file {w : World} {fd : Int} {index : Fin 8} (on : OnFile w.system fd index)
    {mode : Mode} {update : Bool} (writable : mode = .r → update) (calls : List Output)
    (valid : ∀ output ∈ calls, output.Valid)
    (short : (written calls).length < 9223372036854775808)
    (turns : 2 * calls.length + 3 ≤ w.turns.length) :
    Returns (outputsClosed calls (fdopen fd mode update)) w fun replies w' =>
      (replies.all id ↔ (written calls).length ≤ room w.system index) ∧
        ∃ s turns, Placed w.system s index ((written calls).take (room w.system index)) ∧
          s.bmosSyscall turns (.close fd) = .ok (some (.code 0), w'.system) := by
  refine (on.outputsClosed writable valid short turns).mono ?_
  rintro replies w' ⟨-, complete, arrived⟩
  exact ⟨complete, arrived⟩

theorem newFile_onFile : OnFile newFile 3 0 :=
  ⟨newFile_opened, newFile_reliable, newFile_addressable⟩

theorem outputs_reach_file_twoLines :
    Returns (outputsClosed twoLines (fdopen 3 .w false))
      ⟨newFile, List.replicate 9 fun _ => .idle⟩ fun replies w =>
      (replies.all id ↔ 6 ≤ room newFile 0) ∧
        ∃ s turns, Placed newFile s 0 ((written twoLines).take (room newFile 0)) ∧
          s.bmosSyscall turns (.close 3) = .ok (some (.code 0), w.system) :=
  outputs_reach_file newFile_onFile (by decide) twoLines (by decide) (by decide) (by decide)

end AppPortKit.Stdio
