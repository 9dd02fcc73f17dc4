import AppPortKit.Bmfs.Durability
import AppPortKit.Bmfs.Offsets
import AppPortKit.Posix.Scatter
import AppPortKit.Stdio.Core

/-!
# Streams that are read

A stream on a file is a cursor in the file's bytes.  Its buffer holds bytes from the cursor
on, and the file's own position is behind the buffer; a call goes to the file only when the
buffer has run out.
-/

namespace AppPortKit.Stdio

open Bmfs hiding State Reply
open Libc Posix Program

/-! ## Cursors -/

/-- A position in some bytes, and whether the end was noticed. -/
structure Cursor where
  contents : List UInt8
  pos : Nat
  eof : Bool
  deriving DecidableEq, Repr

namespace Cursor

/-- The bytes from the position on. -/
def rest (c : Cursor) : List UInt8 := c.contents.drop c.pos

/-- After so many bytes. -/
def skip (c : Cursor) (count : Nat) : Cursor := { c with pos := c.pos + count }

/-- The next bytes, at most so many.  The end is noticed if there are fewer. -/
def take (c : Cursor) (count : Nat) : List UInt8 × Cursor :=
  (c.rest.take count,
    { c.skip (c.rest.take count).length with eof := c.eof || decide (c.rest.length < count) })

/-- The number that a seek is relative to. -/
def base (c : Cursor) (whence : Int64) : Option Nat :=
  if whence = 0 then some 0
  else if whence = 1 then some c.pos
  else if whence = 2 then some c.contents.length
  else none

/-- A seek fails, or forgets that the end was noticed. -/
def seek (c : Cursor) (off whence : Int64) : Bool × Cursor :=
  match c.base whence with
  | none => (false, c)
  | some base =>
      if (base : Int) + off.toInt < 0 then (false, c)
      else (true, { c with pos := (base + off.toInt).toNat, eof := false })

theorem rest_skip (c : Cursor) (count : Nat) (eof : Bool) :
    ({ c.skip count with eof } : Cursor).rest = c.rest.drop count :=
  List.drop_drop.symm

theorem take_zero (c : Cursor) : c.take 0 = ([], c) := by
  simp [take, skip]

/-- Bytes can be taken in two steps. -/
theorem take_eq_skip (c : Cursor) {first count : Nat} (present : first ≤ c.rest.length)
    (part : first ≤ count) :
    c.take count = (c.rest.take first ++ ((c.skip first).take (count - first)).1,
      ((c.skip first).take (count - first)).2) := by
  have split : c.rest.take first ++ (c.rest.drop first).take (count - first) =
      c.rest.take count := by
    rw [← List.take_add, Nat.add_sub_cancel' part]
  have rest : (c.skip first).rest = c.rest.drop first := c.rest_skip first c.eof
  have length := congrArg List.length split
  rw [List.length_append, List.length_take, Nat.min_eq_left present] at length
  have noticed : decide ((c.rest.drop first).length < count - first) =
      decide (c.rest.length < count) := by
    rw [List.length_drop]
    exact decide_eq_decide.mpr (by omega)
  rw [take, take, rest, split, noticed, ← length, skip, skip, skip, Nat.add_assoc]

end Cursor

/-! ## `read`, `readv` and `lseek` -/

/-- A descriptor is that of an open file, with its position at a signed offset. -/
structure Readable (s : State) (fd : Int) (index : Fin 8) : Prop where
  opened : openIndex s.files fd = some index
  reliable : s.files.device.Reliable
  contained : (s.files.files index).Contained
  signed : (s.files.files index).pos.toNat < 9223372036854775808

/-- The bytes of an open file. -/
def bytesOf (s : State) (index : Fin 8) : List UInt8 :=
  (s.files.files index).contents s.files.device.disk

/-- The position of an open file. -/
def position (s : State) (index : Fin 8) : Nat := (s.files.files index).pos.toNat

/-- An open file has another position; nothing else is different. -/
def Sought (s s' : State) (index : Fin 8) : Prop :=
  ∃ files pos, s' = { s with files } ∧ files.dir = s.files.dir ∧
    files.dirLoaded = s.files.dirLoaded ∧ Device.SameMedia s.files.device files.device ∧
    files.files = Function.update s.files.files index { s.files.files index with pos }

section Sought

variable {s s' s'' : State} {fd : Int} {index : Fin 8}

theorem Sought.refl (s : State) (index : Fin 8) : Sought s s index :=
  ⟨s.files, (s.files.files index).pos, rfl, rfl, rfl, .refl _,
    (Function.update_eq_self index s.files.files).symm⟩

theorem Sought.trans (first : Sought s s' index) (second : Sought s' s'' index) :
    Sought s s'' index := by
  obtain ⟨files, pos, rfl, dir, loaded, media, moved⟩ := first
  obtain ⟨files', pos', rfl, dir', loaded', media', moved'⟩ := second
  refine ⟨files', pos', rfl, dir'.trans dir, loaded'.trans loaded, media.trans media', ?_⟩
  rw [moved', moved, Function.update_self, Function.update_idem]

theorem Sought.of_moves {files : Bmfs.State} {count : Nat}
    (moves : Moves s.files files index count) : Sought s { s with files } index :=
  ⟨files, _, rfl, moves.dir, moves.loaded, moves.media, moves.files⟩

theorem Sought.file (sought : Sought s s' index) :
    ∃ pos, s'.files.files index = { s.files.files index with pos } := by
  obtain ⟨files, pos, rfl, -, -, -, moved⟩ := sought
  exact ⟨pos, by rw [moved, Function.update_self]⟩

theorem Sought.bytesOf_eq (sought : Sought s s' index) : bytesOf s' index = bytesOf s index := by
  obtain ⟨pos, file⟩ := sought.file
  obtain ⟨files, -, rfl, -, -, media, -⟩ := sought
  rw [bytesOf, file, media.disk]
  rfl

theorem Readable.sought (readable : Readable s fd index) (sought : Sought s s' index)
    (signed : position s' index < 9223372036854775808) : Readable s' fd index := by
  obtain ⟨pos, file⟩ := sought.file
  obtain ⟨files, _, rfl, -, -, media, moved⟩ := sought
  refine ⟨?_, readable.reliable.of_fails_eq media.fails, ?_, signed⟩
  · refine (openIndex_congr fd fun other => ?_).trans readable.opened
    by_cases same : other = index
    · rw [same, file]
    · dsimp only
      rw [moved, Function.update_of_ne same]
  · rw [file]
    exact readable.contained

end Sought

section Calls

variable {s : State} {fd : Int} {index : Fin 8} (readable : Readable s fd index)

include readable

theorem Readable.size_lt : (s.files.files index).size.toNat < 9223372036854775808 :=
  Nat.lt_of_le_of_lt readable.contained.1 readable.contained.2.cap_le

/-- What is ahead of the position are the file's bytes from there on. -/
theorem Readable.ahead_eq {total : Nat} :
    ahead s.files index (min total (s.files.files index).unread) =
      ((bytesOf s index).drop (position s index)).take total := by
  have size := readable.size_lt
  have signed := readable.signed
  apply List.ext_getElem
  · rw [length_ahead, List.length_take, List.length_drop, bytesOf, File.contents, List.length_map,
      List.length_range, position, File.unread]
  · intro offset inside inside'
    rw [length_ahead, File.unread] at inside
    have word : (UInt64.ofNat offset).toNat = offset :=
      UInt64.toNat_ofNat_of_lt' (by rw [UInt64.size]; omega)
    have sum : ((s.files.files index).pos + UInt64.ofNat offset).toNat =
        (s.files.files index).pos.toNat + offset := by
      rw [Word64.toNat_add_of_lt (by omega), word]
    have address := readable.contained.2.address_toNat (show ((s.files.files index).pos +
      UInt64.ofNat offset).toNat < 9223372036854775808 by omega)
    simp only [ahead, List.getElem_map, List.getElem_range, List.getElem_take, List.getElem_drop,
      bytesOf, File.contents, position]
    rw [UInt64.add_assoc, address, sum]

/-- A transfer delivers the next bytes, and moves on by as many. -/
theorem Readable.moves {files : Bmfs.State} {total : Nat}
    (moves : Moves s.files files index (min total (s.files.files index).unread)) :
    Sought s { s with files } index ∧ Readable { s with files } fd index ∧
      position { s with files } index = position s index +
        (((bytesOf s index).drop (position s index)).take total).length := by
  have sought := Sought.of_moves moves
  have size := readable.size_lt
  have signed := readable.signed
  have moved : position { s with files } index = position s index +
      min total (s.files.files index).unread := moves.pos_toNat (Nat.min_le_right _ _)
  refine ⟨sought, readable.sought sought ?_, ?_⟩
  · rw [moved, position, File.unread]
    omega
  · rw [← readable.ahead_eq, length_ahead, moved]

variable (turns : Nat → Turn)

theorem Readable.read {len : UInt64} (short : len.toNat < 9223372036854775808) :
    ∃ s', s.bmosSyscall turns (.read fd len) = .ok (some (.ofTransfer (.ofData
        (((bytesOf s index).drop (position s index)).take len.toNat))), s') ∧
      Sought s s' index ∧ Readable s' fd index ∧
      position s' index = position s index +
        (((bytesOf s index).drop (position s index)).take len.toNat).length := by
  have size := readable.size_lt
  obtain ⟨files, served, moves⟩ := sysRead_moves readable.opened readable.reliable len (turns 0)
    short (by omega)
  rw [readable.ahead_eq] at served
  exact ⟨_, congrArg State.transferred served, readable.moves moves⟩

theorem Readable.readv {lens : List UInt64}
    (short : capacity (inTurn lens turns) < 9223372036854775808) :
    ∃ s', s.bmosSyscall turns (.readv fd lens) = .ok (some (.ofTransfer (.ofData
        (((bytesOf s index).drop (position s index)).take (capacity (inTurn lens turns))))), s') ∧
      Sought s s' index ∧ Readable s' fd index ∧
      position s' index = position s index +
        (((bytesOf s index).drop (position s index)).take
          (capacity (inTurn lens turns))).length := by
  have size := readable.size_lt
  have short' : 0 + capacity (inTurn lens turns) < 9223372036854775808 := by omega
  obtain ⟨files, served, moves⟩ := loop_moves readable.opened readable.reliable (Nat.zero_le _)
    short' (by omega) (.zero s.files index)
  rw [Nat.zero_add] at served moves
  rw [readable.ahead_eq] at served
  exact ⟨_, congrArg State.transferred served, readable.moves moves⟩

/-- A seek to a position below `2 ^ 63`, or before the start of the file. -/
theorem Readable.lseek {offset whence : Int64} {base : Nat}
    (found : seekBase (s.files.files index).pos.toNat (s.files.files index).size.toNat
      whence.toInt32 = some base)
    (target : (base : Int) + offset.toInt < 9223372036854775808) :
    ((base : Int) + offset.toInt < 0 ∧ s.bmosSyscall turns (.lseek fd offset whence) =
        .ok (some (.code (-EINVAL)), s)) ∨
      0 ≤ (base : Int) + offset.toInt ∧
      ∃ s', s.bmosSyscall turns (.lseek fd offset whence) =
          .ok (some (.code (base + offset.toInt)), s') ∧
        Sought s s' index ∧ Readable s' fd index ∧
        (position s' index : Int) = base + offset.toInt := by
  have served : s.bmosSyscall turns (.lseek fd offset whence) =
      .ok (some (.code (bmfsLseek s.files index offset whence.toInt32).1),
        { s with files := (bmfsLseek s.files index offset whence.toInt32).2 }) := by
    simp only [State.bmosSyscall, State.sysLseek, readable.opened, Option.isSome_some, if_true,
      State.fileCall, serve_lseek readable.opened]
    rfl
  obtain ⟨before, refused⟩ | ⟨pos, at_, moved⟩ :=
    bmfsLseek_of_base readable.signed readable.size_lt found target
  · rw [refused] at served
    exact .inl ⟨before, served⟩
  · have sought : Sought s { s with
        files := s.files.setFile index { s.files.files index with pos } } index :=
      ⟨_, pos, rfl, rfl, rfl, .refl _, rfl⟩
    have landed : position { s with
        files := s.files.setFile index { s.files.files index with pos } } index = pos.toNat := by
      rw [position, files_setFile, Function.update_self]
    rw [moved] at served
    refine .inr ⟨by omega, _, served, sought, readable.sought sought ?_, ?_⟩
    · rw [landed]
      omega
    · rw [landed, at_]

end Calls

namespace IoFile

/-! ## `__stdio_read` -/

/-- The stream is at a cursor in an open file.  The file's position is behind what the
buffer holds. -/
structure Reading (origin : State) (index : Fin 8) (f : IoFile) (s : State) (c : Cursor) :
    Prop where
  readable : Readable s f.fd index
  sought : Sought origin s index
  contents : bytesOf s index = c.contents
  place : position s index = c.pos + f.unread.length
  buffer : f.unread <+: c.rest
  held : f.unread.length ≤ f.bufSize
  eof : f.eof = c.eof
  ended : c.eof → c.rest = []
  allowed : f.noRead = false
  notWriting : f.pending = []
  buffered : 0 < f.bufSize
  small : f.bufSize ≤ 1024

namespace Reading

variable {origin s s' : State} {index : Fin 8} {f f' : IoFile} {w : World} {c c' : Cursor}

/-- The buffers and flags of a stream are different, and the position of its file. -/
theorem move (reading : Reading origin index f s c)
    (same : ∃ read write eof err, f' = { f with read, write, eof, err })
    (notWriting : f'.pending = []) (sought : Sought s s' index) (readable : Readable s' f.fd index)
    (contents : c'.contents = c.contents) {bytes : List UInt8} (unread : f'.unread = bytes)
    (place : position s' index = c'.pos + bytes.length) (buffer : bytes <+: c'.rest)
    (held : bytes.length ≤ f.bufSize) (eof : f'.eof = c'.eof)
    (ended : c'.eof → c'.rest = []) : Reading origin index f' s' c' := by
  obtain ⟨read, write, _, err, rfl⟩ := same
  exact ⟨readable, reading.sought.trans sought,
    (sought.bytesOf_eq.trans reading.contents).trans contents.symm, unread ▸ place,
    unread ▸ buffer, unread ▸ held, eof, ended, reading.allowed, notWriting, reading.buffered,
    reading.small⟩

/-- An exhausted stream asks for bytes, and a buffer more. -/
theorem fetch (reading : Reading origin index f w.system c) (empty : f.unread = [])
    {first : Nat} (short : first < 9223372036854774784) (turns : 0 < w.turns.length) :
    Returns (if first ≠ 0 then
        bmosSyscall (.readv f.fd [UInt64.ofNat first, UInt64.ofNat f.bufSize])
      else bmosSyscall (.read f.fd (UInt64.ofNat f.bufSize))) w fun reply w' =>
      reply = .ofTransfer (.ofData (c.rest.take (first + f.bufSize))) ∧
        w.turns.length = w'.turns.length + 1 ∧ Sought w.system w'.system index ∧
        Readable w'.system f.fd index ∧
        position w'.system index = c.pos + (c.rest.take (first + f.bufSize)).length := by
  obtain ⟨turn, later, next⟩ := List.exists_cons_of_length_pos turns
  have place := reading.place
  rw [empty, List.length_nil, Nat.add_zero] at place
  have ahead : (bytesOf w.system index).drop (position w.system index) = c.rest := by
    rw [reading.contents, place, Cursor.rest]
  have small := reading.small
  have size : (UInt64.ofNat f.bufSize).toNat = f.bufSize :=
    UInt64.toNat_ofNat_of_lt' (by rw [UInt64.size]; omega)
  split
  next =>
    have length : (UInt64.ofNat first).toNat = first :=
      UInt64.toNat_ofNat_of_lt' (by rw [UInt64.size]; omega)
    have total : capacity (inTurn [UInt64.ofNat first, UInt64.ofNat f.bufSize] turn) =
        first + f.bufSize := by
      show (UInt64.ofNat first).toNat + ((UInt64.ofNat f.bufSize).toNat + 0) = first + f.bufSize
      rw [length, size, Nat.add_zero]
    have inside : capacity (inTurn [UInt64.ofNat first, UInt64.ofNat f.bufSize] turn) <
        9223372036854775808 := by
      rw [total]
      omega
    obtain ⟨s', served, sought, readable, moved⟩ := reading.readable.readv turn inside
    rw [total, ahead] at served moved
    refine (returns_bmosSyscall next served).mono ?_
    rintro _ _ ⟨rfl, rfl⟩
    exact ⟨rfl, by rw [next, List.length_cons], sought, readable, place ▸ moved⟩
  next direct =>
    have inside : (UInt64.ofNat f.bufSize).toNat < 9223372036854775808 := by
      rw [size]
      omega
    obtain ⟨s', served, sought, readable, moved⟩ := reading.readable.read turn inside
    rw [size, ahead] at served moved
    rw [not_not.mp direct, Nat.zero_add]
    refine (returns_bmosSyscall next served).mono ?_
    rintro _ _ ⟨rfl, rfl⟩
    exact ⟨rfl, by rw [next, List.length_cons], sought, readable, place ▸ moved⟩

/-- The next bytes are delivered.  The end is noticed when there are none. -/
theorem stdioRead (reading : Reading origin index f w.system c) (empty : f.unread = [])
    {len : Nat} (positive : 0 < len) (short : len < 9223372036854774784)
    (turns : 0 < w.turns.length) :
    Returns (f.stdioRead len) w fun result w' =>
      w.turns.length = w'.turns.length + 1 ∧ result.1 = c.rest.take len ∧
        Reading origin index result.2 w'.system
          { c.skip (c.rest.take len).length with eof := c.eof || c.rest.isEmpty } := by
  have buffered := reading.buffered
  have one : (if f.bufSize = 0 then 0 else 1) = 1 := if_neg (by omega)
  rw [IoFile.stdioRead, one]
  refine (reading.fetch empty (show len - 1 < _ by omega) turns).bind ?_
  rintro _ w' ⟨rfl, rest, sought, readable, place⟩
  have counted : syscallRet (Reply.ofTransfer (.ofData (c.rest.take (len - 1 + f.bufSize)))).ret =
      (min (len - 1 + f.bufSize) c.rest.length : Nat) := by
    rw [Reply.ofTransfer, Vectored.Transfer.ofData, syscallRet_natCast, List.length_take]
  rw [counted, show (Reply.ofTransfer (.ofData (c.rest.take (len - 1 + f.bufSize)))).bytes =
    c.rest.take (len - 1 + f.bufSize) from rfl]
  dsimp only
  by_cases atEnd : c.rest = []
  · rw [atEnd, List.take_nil, List.length_nil, Nat.add_zero] at place
    have zero : ((min (len - 1 + f.bufSize) c.rest.length : Nat) : Int) = 0 := by simp [atEnd]
    rw [zero, if_pos (Int.le_refl 0), if_pos rfl, atEnd, List.take_nil]
    refine returns_pure ⟨rest, rfl, ?_⟩
    refine reading.move ⟨f.read, f.write, true, f.err, rfl⟩ reading.notWriting sought readable rfl
      empty place List.nil_prefix (Nat.zero_le _) (by simp) fun _ => ?_
    rw [Cursor.rest_skip, atEnd, List.drop_nil]
  · have nonempty := List.length_pos_iff.mpr atEnd
    have notEnded : c.eof → (c.skip (c.rest.take len).length).rest = [] := fun ended =>
      absurd (reading.ended ended) atEnd
    rw [if_neg (by omega), List.isEmpty_eq_false_iff.mpr atEnd, Bool.or_false]
    split
    next few =>
      rw [List.take_of_length_le (by omega)] at place ⊢
      rw [List.take_of_length_le (show c.rest.length ≤ len by omega)] at notEnded ⊢
      exact returns_pure ⟨rest, rfl, reading.move ⟨_, _, _, _, rfl⟩ reading.notWriting sought
        readable rfl empty place List.nil_prefix (Nat.zero_le _) reading.eof notEnded⟩
    next =>
      have joined : len - 1 + 1 = len := Nat.sub_add_cancel positive
      have length : (c.rest.take len).length = len := by
        rw [List.length_take]
        omega
      rw [← List.take_add, joined, List.take_take, Nat.min_eq_left (by omega), List.drop_drop,
        joined]
      refine returns_pure ⟨rest, rfl, reading.move ⟨_, _, _, _, rfl⟩ reading.notWriting sought
        readable rfl (show _ = (c.rest.take (len - 1 + f.bufSize)).drop len from rfl) ?_ ?_ ?_
        reading.eof notEnded⟩
      · rw [place, length]
        simp only [Cursor.skip, List.length_drop, List.length_take]
        omega
      · rw [List.drop_take, Cursor.rest_skip, length]
        exact List.take_prefix _ _
      · rw [List.length_drop, List.length_take]
        omega

/-- An exhausted stream is made ready for reading, unless the end was noticed. -/
theorem toread (reading : Reading origin index f w.system c) (empty : f.unread = []) :
    Returns f.toread w fun result w' => w' = w ∧ result.1 = !c.eof ∧ result.2.unread = [] ∧
      Reading origin index result.2 w.system c := by
  rw [IoFile.toread]
  simp only [reading.notWriting, ne_eq, not_true_eq_false, if_false]
  refine returns_pure_bind ?_
  have place := reading.place
  rw [empty] at place
  rw [if_neg (by rw [reading.allowed]; decide)]
  exact returns_pure ⟨rfl, by rw [reading.eof], rfl, reading.move ⟨_, _, _, _, rfl⟩ rfl (.refl _ _)
    reading.readable rfl (show _ = [] from rfl) place List.nil_prefix (Nat.zero_le _) reading.eof
    reading.ended⟩

/-! ## `fread` and `fgetc` -/

/-- The loop at the end of the file. -/
theorem freadLoop_end (reading : Reading origin index f w.system c) (empty : f.unread = [])
    (atEnd : c.rest = []) {l : Nat} (positive : 0 < l) (short : l < 9223372036854774784)
    (turns : 0 < w.turns.length) (fuel : Nat) (stored : List UInt8) :
    Returns (IoFile.freadLoop (fuel + 1) l stored f) w fun result w' =>
      w.turns.length ≤ w'.turns.length + 1 ∧ result.1 = stored ∧
        Reading origin index result.2 w'.system { c with eof := true } := by
  rw [IoFile.freadLoop, if_neg (by omega)]
  refine (reading.toread empty).bind ?_
  rintro ⟨ready, f'⟩ _ ⟨rfl, able, empty', reading'⟩
  dsimp only at able empty' reading' ⊢
  obtain ⟨contents, pos, eof⟩ := c
  cases eof with
  | true =>
      rw [able, if_pos (show (!!true) = true from rfl)]
      exact returns_pure ⟨by omega, rfl, reading'⟩
  | false =>
      rw [able, if_neg (show ¬(!!false) = true by decide)]
      refine (reading'.stdioRead empty' positive short turns).bind ?_
      rintro ⟨got, f''⟩ w' ⟨rest, nothing, reading''⟩
      rw [atEnd, List.take_nil] at nothing reading''
      dsimp only at nothing reading'' ⊢
      rw [nothing, List.length_nil, if_pos rfl]
      exact returns_pure ⟨by omega, rfl, reading''⟩

/-- The loop makes at most two passes: a short count means the end of the file. -/
theorem freadLoop (reading : Reading origin index f w.system c) (empty : f.unread = [])
    {l : Nat} (positive : 0 < l) (short : l < 9223372036854774784) (turns : 2 ≤ w.turns.length)
    (fuel : Nat) (stored : List UInt8) :
    Returns (IoFile.freadLoop (fuel + 2) l stored f) w fun result w' =>
      w.turns.length ≤ w'.turns.length + 2 ∧ result.1 = stored ++ (c.take l).1 ∧
        Reading origin index result.2 w'.system (c.take l).2 := by
  by_cases atEnd : c.rest = []
  · refine (reading.freadLoop_end empty atEnd positive short (by omega) (fuel + 1) stored).mono ?_
    rintro result w' ⟨rest, got, reading'⟩
    simp only [Cursor.take, atEnd, List.take_nil, List.append_nil, List.length_nil, positive,
      decide_true, Bool.or_true]
    exact ⟨by omega, got, reading'⟩
  · have notEnded : c.eof = false := by
      by_contra ended
      exact atEnd (reading.ended (by simpa using ended))
    rw [IoFile.freadLoop, if_neg (by omega)]
    refine (reading.toread empty).bind ?_
    rintro ⟨ready, f'⟩ _ ⟨rfl, able, empty', reading'⟩
    dsimp only at able empty' reading' ⊢
    rw [able, notEnded, if_neg (by decide)]
    refine (reading'.stdioRead empty' positive short (by omega)).bind ?_
    rintro ⟨got, f''⟩ w' ⟨rest, got_eq, reading''⟩
    dsimp only at got_eq reading'' ⊢
    have nonempty := List.length_pos_iff.mpr atEnd
    have length : got.length = min l c.rest.length := by rw [got_eq, List.length_take]
    rw [notEnded, List.isEmpty_eq_false_iff.mpr atEnd, Bool.or_self] at reading''
    rw [if_neg (by omega), Cursor.take, notEnded, Bool.false_or]
    by_cases enough : l ≤ c.rest.length
    · rw [length, Nat.min_eq_left enough, Nat.sub_self, IoFile.freadLoop, if_pos rfl, got_eq,
        decide_eq_false (by omega)]
      exact returns_pure ⟨by omega, rfl, reading''⟩
    · have all : c.rest.length ≤ l := by omega
      rw [List.take_of_length_le all] at got_eq reading'' ⊢
      rw [decide_eq_true (by omega), got_eq]
      have ended : (c.skip c.rest.length).rest = [] := by
        rw [Cursor.rest_skip, List.drop_length]
      have empty'' : f''.unread = [] := List.prefix_nil.mp (ended ▸ reading''.buffer)
      refine (reading''.freadLoop_end empty'' ended (by omega) (by omega) (by omega) fuel _).mono ?_
      rintro result w'' ⟨rest', reached⟩
      exact ⟨by omega, reached⟩

/-- Bytes are taken from the buffer. -/
theorem consume (reading : Reading origin index f s c) {count : Nat}
    (inside : count ≤ f.unread.length) {bytes : List UInt8} (drop : f'.unread = bytes)
    (left : bytes = f.unread.drop count) (same : ∃ read, f' = { f with read }) :
    Reading origin index f' s (c.skip count) := by
  obtain ⟨read, rfl⟩ := same
  refine reading.move ⟨_, _, _, _, rfl⟩ reading.notWriting (.refl _ _) reading.readable rfl drop
    ?_ ?_ ?_ reading.eof fun ended => ?_
  · rw [reading.place, left, List.length_drop]
    show _ = c.pos + count + _
    omega
  · rw [left, show (c.skip count).rest = _ from c.rest_skip count c.eof]
    exact reading.buffer.drop count
  · rw [left, List.length_drop]
    exact (Nat.sub_le _ _).trans reading.held
  · rw [show (c.skip count).rest = _ from c.rest_skip count c.eof, reading.ended ended,
      List.drop_nil]

theorem take_unread (reading : Reading origin index f s c) {count : Nat}
    (inside : count ≤ f.unread.length) : f.unread.take count = c.rest.take count := by
  rw [List.prefix_iff_eq_take.mp reading.buffer, List.take_take, Nat.min_eq_left inside]

/-- The buffer is used first. -/
theorem freadBytes (reading : Reading origin index f w.system c) {len : Nat}
    (short : len < 9223372036854774784) (turns : 2 ≤ w.turns.length) :
    Returns (IoFile.freadBytes len f) w fun result w' =>
      w.turns.length ≤ w'.turns.length + 2 ∧ result.1 = (c.take len).1 ∧
        Reading origin index result.2 w'.system (c.take len).2 := by
  have present := reading.buffer.length_le
  have inside : min f.unread.length len ≤ f.unread.length := Nat.min_le_left _ _
  have drop : (if f.unread = [] then f else
      { f with read := some (f.unread.drop (min f.unread.length len)) }).unread =
        f.unread.drop (min f.unread.length len) := by
    split
    next empty => rw [empty, List.drop_nil]
    next => rfl
  have reading' := reading.consume inside drop rfl (by
    split
    · exact ⟨f.read, rfl⟩
    · exact ⟨_, rfl⟩)
  rw [c.take_eq_skip (inside.trans present) (Nat.min_le_right _ _), ← reading.take_unread inside]
  show Returns (IoFile.freadLoop (w.turns.length + 1) (len - min f.unread.length len)
    (f.unread.take (min f.unread.length len)) _) w _
  by_cases enough : len ≤ f.unread.length
  · rw [Nat.min_eq_right enough] at reading' ⊢
    rw [Nat.sub_self, IoFile.freadLoop, if_pos rfl, Cursor.take_zero, List.append_nil]
    exact returns_pure ⟨by omega, rfl, reading'⟩
  · rw [Nat.min_eq_left (by omega)] at reading' drop ⊢
    have fuel : w.turns.length + 1 = w.turns.length - 1 + 2 := by omega
    rw [fuel]
    exact reading'.freadLoop (drop.trans List.drop_length) (by omega) (by omega) turns _ _

theorem fread (reading : Reading origin index f w.system c) {size nmemb : Nat}
    (short : size * nmemb < 9223372036854774784) (turns : 2 ≤ w.turns.length) :
    Returns (f.fread size nmemb) w fun result w' =>
      w.turns.length ≤ w'.turns.length + 2 ∧
        result.1 = ((c.take (size * nmemb)).1.length / size, (c.take (size * nmemb)).1) ∧
        Reading origin index result.2 w'.system (c.take (size * nmemb)).2 := by
  refine (reading.freadBytes short turns).bind ?_
  rintro ⟨got, f'⟩ w' ⟨rest, got_eq, reading'⟩
  refine returns_pure ⟨rest, ?_, reading'⟩
  dsimp only at got_eq ⊢
  rw [← got_eq]
  refine Prod.ext ?_ rfl
  dsimp only
  split
  next all =>
    rw [all]
    split
    next zero => rw [zero, Nat.div_zero]
    next nonzero => rw [Nat.mul_div_cancel_left _ (Nat.pos_of_ne_zero nonzero)]
  next => rfl

theorem uflow (reading : Reading origin index f w.system c) (empty : f.unread = [])
    (turns : 0 < w.turns.length) :
    Returns f.uflow w fun result w' => w.turns.length ≤ w'.turns.length + 1 ∧
      result.1 = (c.take 1).1.head? ∧ Reading origin index result.2 w'.system (c.take 1).2 := by
  refine (reading.toread empty).bind ?_
  rintro ⟨ready, f'⟩ _ ⟨rfl, able, empty', reading'⟩
  dsimp only at able empty' reading' ⊢
  by_cases ended : c.eof = true
  · have atEnd := reading.ended ended
    have still : c.take 1 = ([], c) := by
      rw [Cursor.take, atEnd, ended]
      simp [Cursor.skip, ← ended]
    rw [able, ended, if_pos (show (!!true) = true from rfl), still]
    exact returns_pure ⟨by omega, rfl, reading'⟩
  · have notEnded : c.eof = false := by simpa using ended
    rw [able, notEnded, if_neg (show ¬(!!false) = true by decide)]
    refine (reading'.stdioRead empty' Nat.one_pos (by omega) turns).bind ?_
    rintro ⟨got, f''⟩ w' ⟨rest, got_eq, reading''⟩
    have noticed : c.rest.isEmpty = decide (c.rest.length < 1) := by cases c.rest <;> simp
    rw [noticed] at reading''
    refine returns_pure ⟨by omega, ?_, reading''⟩
    dsimp only at got_eq ⊢
    rw [got_eq, Cursor.take]
    cases c.rest <;> simp

/-- The next byte. -/
theorem fgetc (reading : Reading origin index f w.system c) (turns : 0 < w.turns.length) :
    Returns f.fgetc w fun result w' => w.turns.length ≤ w'.turns.length + 1 ∧
      result.1 = (c.take 1).1.head? ∧ Reading origin index result.2 w'.system (c.take 1).2 := by
  rw [IoFile.fgetc]
  split
  next byte rest held =>
    have inside : 1 ≤ f.unread.length := by
      rw [held]
      exact Nat.succ_le_succ (Nat.zero_le _)
    have present := reading.buffer.length_le
    have front := reading.take_unread inside
    rw [c.take_eq_skip (inside.trans present) (Nat.le_refl 1), Nat.sub_self, Cursor.take_zero,
      ← front, held]
    exact returns_pure ⟨by omega, rfl, reading.consume inside rfl
      (by rw [held]; rfl) ⟨some rest, rfl⟩⟩
  next empty => exact reading.uflow empty turns

/-! ## Positions -/

theorem stdioSeek (readable : Readable w.system f.fd index) {off whence : Int64} {base : Nat}
    (found : seekBase (w.system.files.files index).pos.toNat
      (w.system.files.files index).size.toNat whence.toInt32 = some base)
    (target : (base : Int) + off.toInt < 9223372036854775808) (turns : 0 < w.turns.length) :
    Returns (f.stdioSeek off whence) w fun result w' => w.turns.length = w'.turns.length + 1 ∧
      (result < 0 ∧ (base : Int) + off.toInt < 0 ∧ w'.system = w.system ∨
        result = base + off.toInt ∧ 0 ≤ result ∧ Sought w.system w'.system index ∧
          Readable w'.system f.fd index ∧ (position w'.system index : Int) = result) := by
  obtain ⟨turn, later, next⟩ := List.exists_cons_of_length_pos turns
  have rest : w.turns.length = later.length + 1 := by rw [next, List.length_cons]
  obtain ⟨before, refused⟩ | ⟨nonneg, s', served, sought, readable', landed⟩ :=
    readable.lseek turn found target
  · refine (returns_bmosSyscall next refused).bind ?_
    rintro _ _ ⟨rfl, rfl⟩
    exact returns_pure ⟨rest, .inl ⟨by decide, before, rfl⟩⟩
  · refine (returns_bmosSyscall next served).bind ?_
    rintro _ _ ⟨rfl, rfl⟩
    have same : syscallRet (Posix.Reply.code (base + off.toInt)).ret = base + off.toInt :=
      syscallRet_of_nonneg nonneg
    rw [same]
    exact returns_pure ⟨rest, .inr ⟨rfl, nonneg, sought, readable', landed⟩⟩

/-- The file's own seek starts from behind the buffer, and goes as much further back. -/
theorem lseek_target (reading : Reading origin index f s c) {off whence : Int64} {base : Nat}
    (found : c.base whence = some base) (low : -9223372036854774784 ≤ off.toInt) :
    ∃ start, seekBase (s.files.files index).pos.toNat (s.files.files index).size.toNat
        whence.toInt32 = some start ∧
      (start : Int) + (if whence = 1 ∧ f.read.isSome then off - Int64.ofNat f.unread.length
        else off).toInt = base + off.toInt := by
  have place := reading.place
  have held := reading.held
  have small := reading.small
  have high := off.toInt_lt
  rw [position] at place
  rw [Cursor.base] at found
  by_cases set : whence = 0
  · subst set
    obtain rfl : 0 = base := Option.some_inj.mp found
    exact ⟨0, rfl, by rw [if_neg fun both => absurd both.1 (by decide)]⟩
  by_cases cur : whence = 1
  · subst cur
    obtain rfl : c.pos = base := Option.some_inj.mp found
    refine ⟨_, rfl, ?_⟩
    split
    next =>
      have length : (Int64.ofNat f.unread.length).toInt = f.unread.length :=
        Int64.toInt_ofNat_of_lt (by omega)
      rw [Word64.toInt_sub_of_mem (by omega) (by omega), length]
      omega
    next absent =>
      have notReading : f.read = none := by simpa using absent
      have nothing : f.unread = [] := by rw [unread, notReading, Option.getD_none]
      rw [nothing, List.length_nil] at place
      omega
  by_cases atEnd : whence = 2
  · subst atEnd
    obtain rfl : c.contents.length = base := Option.some_inj.mp found
    refine ⟨_, rfl, ?_⟩
    have length := congrArg List.length reading.contents
    rw [bytesOf, File.contents, List.length_map, List.length_range] at length
    rw [if_neg fun both => absurd both.1 (by decide), ← length]
  · rw [if_neg set, if_neg cur, if_neg atEnd] at found
    exact absurd found nofun

theorem fseeko (reading : Reading origin index f w.system c) {off whence : Int64}
    (low : -9223372036854774784 ≤ off.toInt)
    (high : ∀ base ∈ c.base whence, (base : Int) + off.toInt < 9223372036854775808)
    (turns : 0 < w.turns.length) :
    Returns (f.fseeko off whence) w fun result w' => w.turns.length ≤ w'.turns.length + 1 ∧
      result.1 = (c.seek off whence).1 ∧
      Reading origin index result.2 w'.system (c.seek off whence).2 := by
  rw [IoFile.fseeko]
  cases found : c.base whence with
  | none =>
      have invalid : whence ≠ 1 ∧ whence ≠ 0 ∧ whence ≠ 2 := by
        refine ⟨?_, ?_, ?_⟩
        all_goals
          rintro rfl
          exact absurd found nofun
      rw [if_pos invalid, Cursor.seek, found]
      exact returns_pure ⟨by omega, rfl, reading⟩
  | some base =>
      have valid : ¬(whence ≠ 1 ∧ whence ≠ 0 ∧ whence ≠ 2) := by
        rintro ⟨cur, set, atEnd⟩
        rw [Cursor.base, if_neg set, if_neg cur, if_neg atEnd] at found
        exact absurd found nofun
      obtain ⟨start, started, target⟩ := reading.lseek_target found low
      have inside := high base found
      rw [if_neg valid, Cursor.seek, found]
      simp only [reading.notWriting, ne_eq, not_true_eq_false, if_false, false_and]
      refine returns_pure_bind ?_
      refine (stdioSeek reading.readable started (by rw [target]; exact inside) turns).bind ?_
      rw [target]
      rintro result w' ⟨rest, ⟨failed, before, same⟩ | ⟨done, nonneg, sought, readable, landed⟩⟩
      · rw [if_pos failed, if_pos before]
        refine returns_pure ⟨by omega, rfl, ?_⟩
        rw [same]
        exact reading.move ⟨_, none, _, _, rfl⟩ rfl (.refl _ _) reading.readable rfl
          (show _ = f.unread from rfl) reading.place reading.buffer reading.held reading.eof
          reading.ended
      · rw [if_neg (by omega), if_neg (by omega)]
        refine returns_pure ⟨by omega, rfl, ?_⟩
        refine reading.move ⟨none, none, false, _, rfl⟩ rfl sought readable rfl
          (show _ = [] from rfl) ?_ List.nil_prefix (Nat.zero_le _) rfl nofun
        show position w'.system index = (base + off.toInt).toNat + 0
        omega

theorem ftello (reading : Reading origin index f w.system c) (turns : 0 < w.turns.length) :
    Returns f.ftello w fun result w' => w.turns.length ≤ w'.turns.length + 1 ∧
      result = c.pos ∧ Reading origin index f w'.system c := by
  have place := reading.place
  have signed := reading.readable.signed
  rw [IoFile.ftello, if_neg fun appending => appending.2 reading.notWriting]
  have found : seekBase (w.system.files.files index).pos.toNat
      (w.system.files.files index).size.toNat (1 : Int64).toInt32 =
    some (position w.system index) := rfl
  have target : (position w.system index : Int) + (0 : Int64).toInt < 9223372036854775808 := by
    rw [position, Int64.toInt_zero]
    omega
  refine (stdioSeek reading.readable found target turns).bind ?_
  rw [Int64.toInt_zero, Int.add_zero]
  rintro result w' ⟨rest, ⟨-, before, -⟩ | ⟨done, nonneg, sought, readable, landed⟩⟩
  · omega
  · rw [if_neg (by omega)]
    refine returns_pure ⟨by omega, ?_, reading.move ⟨_, _, _, _, rfl⟩ reading.notWriting sought
      readable rfl rfl (by omega) reading.buffer reading.held reading.eof reading.ended⟩
    split
    next => omega
    next absent =>
      have notReading : f.read = none := by simpa using absent
      have nothing : f.unread = [] := by rw [unread, notReading, Option.getD_none]
      rw [nothing, List.length_nil] at place
      rw [reading.notWriting, List.length_nil]
      omega

end Reading

end IoFile

end AppPortKit.Stdio
