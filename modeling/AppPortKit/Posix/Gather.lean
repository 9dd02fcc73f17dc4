import AppPortKit.Bmfs.Consecutive
import AppPortKit.Posix.Core

/-!
# Gathered writes

`writev` makes one write for each element.  On the console that is one write of all the
bytes.  On a file it is one write of the bytes before the first empty element, because the
file system reports a write of nothing as a lack of room and that ends the loop.
-/

namespace AppPortKit.Posix

open Libc Bmfs

/-- The bytes of a vector of buffers. -/
def gathered (iov : List (Buffer × Turn)) : List UInt8 := iov.flatMap fun element => element.1.bytes

/-- The elements before the first empty one. -/
def untilEmpty (iov : List (Buffer × Turn)) : List (Buffer × Turn) :=
  iov.takeWhile fun element => element.1.len ≠ 0

/-- A buffer with given contents. -/
def Buffer.ofBytes (bytes : List UInt8) : Buffer :=
  { base := fun offset => bytes.getD offset 0, len := UInt64.ofNat bytes.length }

/-- Two calls return the same and leave the same files, console and sockets. -/
def SameEffect (left right : State.Result) : Prop :=
  ∃ ret s s', left = .ok (some ret, s) ∧ right = .ok (some ret, s') ∧
    SameVolume s.files s'.files ∧ s'.console = s.console ∧ s'.shim = s.shim ∧
    s'.enqueued = s.enqueued

theorem SameEffect.ret_eq {left right : State.Result} {part part' : Vectored.Transfer UInt8}
    {s s' : State} (same : SameEffect left right) (onLeft : left = .ok (some part, s))
    (onRight : right = .ok (some part', s')) : part.ret = part'.ret := by
  obtain ⟨ret, t, t', left, right, -⟩ := same
  cases onLeft.symm.trans left
  cases onRight.symm.trans right
  rfl

namespace Buffer

variable (b : Buffer)

@[simp] theorem length_bytes : b.bytes.length = b.len.toNat := by simp [bytes]

theorem bytes_eq_nil_iff : b.bytes = [] ↔ b.len = 0 := by
  rw [← List.length_eq_zero_iff, length_bytes, ← UInt64.toNat_inj, UInt64.toNat_zero]

/-- The first bytes of a buffer. -/
theorem map_range_of_le {count : Nat} (inside : count ≤ b.len.toNat) :
    (List.range count).map b.base = b.bytes.take count := by
  rw [bytes, ← List.map_take, List.take_range, Nat.min_eq_left inside]

theorem len_ofBytes {bytes : List UInt8} (small : bytes.length < 9223372036854775808) :
    (ofBytes bytes).len.toNat = bytes.length :=
  toNat_ofNat_length small

theorem bytes_ofBytes {bytes : List UInt8} (small : bytes.length < 9223372036854775808) :
    (ofBytes bytes).bytes = bytes := by
  rw [Buffer.bytes, len_ofBytes small]
  apply List.ext_getElem
  · simp
  · intro offset bound bound'
    rw [List.getElem_map, List.getElem_range]
    exact List.getD_eq_getElem _ _ bound'

end Buffer

section Vectors

variable (b : Buffer) (turn : Turn) (iov : List (Buffer × Turn))

@[simp] theorem gathered_nil : gathered [] = [] := rfl

@[simp] theorem gathered_cons : gathered ((b, turn) :: iov) = b.bytes ++ gathered iov := rfl

@[simp] theorem untilEmpty_nil : untilEmpty [] = [] := rfl

theorem untilEmpty_of_empty (empty : b.len = 0) : untilEmpty ((b, turn) :: iov) = [] := by
  simp [untilEmpty, empty]

theorem untilEmpty_of_ne (nonempty : b.len ≠ 0) :
    untilEmpty ((b, turn) :: iov) = (b, turn) :: untilEmpty iov := by
  simp [untilEmpty, nonempty]

theorem gathered_untilEmpty_isPrefix : gathered (untilEmpty iov) <+: gathered iov := by
  obtain ⟨rest, split⟩ := List.takeWhile_prefix (l := iov) fun element => element.1.len ≠ 0
  refine ⟨gathered rest, ?_⟩
  rw [gathered, gathered, ← List.flatMap_append, untilEmpty, split, gathered]

end Vectors

/-! ## Files -/

section File

variable {s : State} {files : Bmfs.State} {fd : Int} {index : Fin 8}

theorem sysWrite_file (opened : openIndex s.files fd = some index) (b : Buffer) (turn : Turn) :
    s.sysWrite fd b turn =
      .ok (some { ret := (bmfsWrite s.files index b.base b.len).1, data := [] },
        { s with files := (bmfsWrite s.files index b.base b.len).2 }) := by
  simp only [State.sysWrite, opened, State.code]

/-- A write to a file without room, or of nothing, only moves to its offset. -/
theorem sysWrite_refused (opened : openIndex s.files fd = some index)
    (addressable : (s.files.files index).Addressable) (b : Buffer) (turn : Turn)
    (refused : (s.files.files index).space = 0 ∨ b.len = 0) :
    s.sysWrite fd b turn = .ok (some { ret := -ENOSPC, data := [] },
      { s with files := s.files.atOffset index }) := by
  rw [sysWrite_file opened, bmfsWrite_refused addressable b.base refused]

/-- Any other stores what there is room for. -/
theorem sysWrite_stores (opened : openIndex s.files fd = some index)
    (reliable : s.files.device.Reliable) (addressable : (s.files.files index).Addressable)
    (b : Buffer) (turn : Turn) (short : b.len.toNat < 9223372036854775808)
    (filled : b.len ≠ 0) (room : (s.files.files index).space ≠ 0) :
    ∃ files, s.sysWrite fd b turn =
        .ok (some { ret := (b.bytes.take (s.files.files index).space).length, data := [] },
          { s with files := files }) ∧
      Stores s.files files index (b.bytes.take (s.files.files index).space) := by
  obtain ⟨count, stores⟩ := bmfsWrite_stores reliable addressable b.base short filled
    (Nat.pos_of_ne_zero room)
  rw [b.map_range_of_le (Nat.min_le_left _ _), Nat.min_comm, ← b.length_bytes,
    ← List.take_eq_take_min] at stores
  refine ⟨_, ?_, stores⟩
  rw [sysWrite_file opened, count, List.length_take, Buffer.length_bytes, Nat.min_comm]

/-- The loop on a file, after some bytes were stored: it stores what comes before the next
empty element, as far as there is room. -/
theorem loop_stores (opened : openIndex s.files fd = some index)
    (reliable : s.files.device.Reliable) (addressable : (s.files.files index).Addressable)
    {iov : List (Buffer × Turn)} {done : List UInt8} (started : done ≠ [])
    (room : done.length ≤ (s.files.files index).space)
    (short : done.length + (gathered iov).length < 9223372036854775808)
    (stores : Stores s.files files index done) :
    ∃ files', Vectored.loop (fun s (element : Buffer × Turn) => s.sysWrite fd element.1 element.2)
        (fun element => element.1.len.toNat) { ret := done.length, data := [] } iov
        { s with files } =
        .ok (some { ret := ((done ++ gathered (untilEmpty iov)).take
          (s.files.files index).space).length, data := [] }, { s with files := files' }) ∧
      Stores s.files files' index
        ((done ++ gathered (untilEmpty iov)).take (s.files.files index).space) := by
  induction iov generalizing done files with
  | nil =>
      refine ⟨files, ?_, ?_⟩
      all_goals simp only [untilEmpty_nil, gathered_nil, List.append_nil,
        List.take_of_length_le room]
      · rfl
      · exact stores
  | cons element rest ih =>
      obtain ⟨b, turn⟩ := element
      have capacity := addressable.cap_le
      have positive := List.length_pos_iff.mpr started
      have ends : (s.files.files index).offset.toNat + (s.files.files index).space =
          (s.files.files index).cap := by
        rw [File.space] at room ⊢
        omega
      have inside : (s.files.files index).offset.toNat + done.length < 9223372036854775808 := by
        omega
      have opened' : openIndex files fd = some index := (stores.openIndex_eq fd).trans opened
      have addressable' := stores.sameHandle.addressable addressable
      have space' := stores.space_eq started inside
      rw [gathered_cons, List.length_append, Buffer.length_bytes] at short
      by_cases stops : (files.files index).space = 0 ∨ b.len = 0
      · have unmoved : files.atOffset index = files :=
          State.atOffset_of_eq (stores.offset_eq started inside).2
        have served := sysWrite_refused (s := { s with files }) opened' addressable' b turn stops
        rw [unmoved] at served
        have all : (done ++ gathered (untilEmpty ((b, turn) :: rest))).take
            (s.files.files index).space = done := by
          rcases stops with full | empty
          · rw [List.take_append_of_le_length (by omega), List.take_of_length_le room]
          · rw [untilEmpty_of_empty b turn rest empty, gathered_nil, List.append_nil,
              List.take_of_length_le room]
        have nonzero : (done.length : Int) ≠ 0 := by omega
        rw [all]
        refine ⟨files, ?_, stores⟩
        rw [Vectored.loop_of_failed served (Int.neg_neg_of_pos (by decide)),
          Vectored.Transfer.fail, if_pos nonzero]
        rfl
      · obtain ⟨roomy, filled⟩ := not_or.mp stops
        obtain ⟨files', served, piece⟩ : ∃ files', { s with files }.sysWrite fd b turn =
            .ok (some { ret := (b.bytes.take (files.files index).space).length, data := [] },
              { s with files := files' }) ∧
            Stores files files' index (b.bytes.take (files.files index).space) :=
          sysWrite_stores (s := { s with files }) opened' (reliable.of_fails_eq stores.fails)
            addressable' b turn (by omega) filled roomy
        have nonempty : b.bytes.take (files.files index).space ≠ [] := by
          rw [Ne, List.take_eq_nil_iff, b.bytes_eq_nil_iff]
          exact not_or.mpr ⟨roomy, filled⟩
        have length : (b.bytes.take (files.files index).space).length =
            min (files.files index).space b.len.toNat := by
          rw [List.length_take, Buffer.length_bytes]
        have both := stores.trans piece started nonempty (by omega)
        rw [untilEmpty_of_ne b turn rest filled, gathered_cons]
        by_cases fits : b.len.toNat ≤ (files.files index).space
        · rw [List.take_of_length_le (by rw [Buffer.length_bytes]; exact fits)] at served both
          obtain ⟨files'', looped, stored⟩ := ih (by simp [started])
            (by rw [List.length_append, Buffer.length_bytes]; omega)
            (by rw [List.length_append, Buffer.length_bytes]; omega) both
          rw [List.append_assoc] at looped stored
          refine ⟨files'', ?_, stored⟩
          rw [Vectored.loop_of_full served (Int.natCast_nonneg _) b.length_bytes.ge, ← looped,
            Vectored.Transfer.add, List.length_append, Int.natCast_add, List.append_nil]
        · have all : (done ++ (b.bytes ++ gathered (untilEmpty rest))).take
              (s.files.files index).space = done ++ b.bytes.take (files.files index).space := by
            rw [List.take_append, List.take_of_length_le room, ← space',
              List.take_append_of_le_length (by rw [Buffer.length_bytes]; omega)]
          rw [all]
          have cut : ((b.bytes.take (files.files index).space).length : Int).toNat <
              b.len.toNat := by
            rw [Int.toNat_natCast, length]
            exact (Nat.min_le_left _ _).trans_lt (Nat.lt_of_not_le fits)
          refine ⟨files', ?_, both⟩
          rw [Vectored.loop_of_short served (Int.natCast_nonneg _) cut, Vectored.Transfer.add,
            List.length_append, Int.natCast_add, List.append_nil]

variable (opened : openIndex s.files fd = some index) (reliable : s.files.device.Reliable)
  (addressable : (s.files.files index).Addressable)

include opened reliable addressable

/-- A gathered write stores what comes before the first empty element, as far as there is
room. -/
theorem sysWritev_stores {iov : List (Buffer × Turn)}
    (short : (gathered iov).length < 9223372036854775808)
    (nonempty : (gathered (untilEmpty iov)).take (s.files.files index).space ≠ []) :
    ∃ files', s.sysWritev fd iov =
        .ok (some { ret := ((gathered (untilEmpty iov)).take
          (s.files.files index).space).length, data := [] }, { s with files := files' }) ∧
      Stores s.files files' index
        ((gathered (untilEmpty iov)).take (s.files.files index).space) := by
  have roomy : (s.files.files index).space ≠ 0 := by
    intro full
    exact nonempty (by rw [full, List.take_zero])
  cases iov with
  | nil => exact absurd (by rw [untilEmpty_nil, gathered_nil, List.take_nil]) nonempty
  | cons element rest =>
      obtain ⟨b, turn⟩ := element
      have filled : b.len ≠ 0 := by
        intro empty
        exact nonempty (by rw [untilEmpty_of_empty b turn rest empty, gathered_nil, List.take_nil])
      rw [gathered_cons, List.length_append, Buffer.length_bytes] at short
      obtain ⟨files, served, piece⟩ := sysWrite_stores opened reliable addressable b turn
        (by omega) filled roomy
      rw [untilEmpty_of_ne b turn rest filled, gathered_cons]
      by_cases fits : b.len.toNat ≤ (s.files.files index).space
      · rw [List.take_of_length_le (by rw [Buffer.length_bytes]; exact fits)] at served piece
        obtain ⟨files', looped, stored⟩ := loop_stores opened reliable addressable
          (mt b.bytes_eq_nil_iff.mp filled) (by rw [Buffer.length_bytes]; exact fits)
          (by rw [Buffer.length_bytes]; exact short) piece
        refine ⟨files', ?_, stored⟩
        rw [State.sysWritev, Vectored.loop_of_full served (Int.natCast_nonneg _) (by simp),
          ← looped, Vectored.Transfer.add]
        simp [Vectored.Transfer.zero]
      · rw [List.take_append_of_le_length (by rw [Buffer.length_bytes]; omega)]
        have cut : ((b.bytes.take (s.files.files index).space).length : Int).toNat <
            b.len.toNat := by
          rw [Int.toNat_natCast, List.length_take, Buffer.length_bytes]
          exact (Nat.min_le_left _ _).trans_lt (Nat.lt_of_not_le fits)
        refine ⟨files, ?_, piece⟩
        rw [State.sysWritev, Vectored.loop_of_short served (Int.natCast_nonneg _) cut,
          Vectored.Transfer.add]
        simp [Vectored.Transfer.zero]

omit reliable in
/-- Without room, or with an empty element in the first place, it fails. -/
theorem sysWritev_refused {iov : List (Buffer × Turn)} (nonempty : gathered iov ≠ [])
    (refused : (gathered (untilEmpty iov)).take (s.files.files index).space = []) :
    s.sysWritev fd iov = .ok (some { ret := -ENOSPC, data := [] },
      { s with files := s.files.atOffset index }) := by
  cases iov with
  | nil => exact absurd gathered_nil nonempty
  | cons element rest =>
      obtain ⟨b, turn⟩ := element
      have stops : (s.files.files index).space = 0 ∨ b.len = 0 := by
        by_contra goesOn
        obtain ⟨roomy, filled⟩ := not_or.mp goesOn
        rw [untilEmpty_of_ne b turn rest filled, gathered_cons, List.take_eq_nil_iff,
          List.append_eq_nil_iff, b.bytes_eq_nil_iff] at refused
        exact refused.elim roomy fun empty => filled empty.1
      have served := sysWrite_refused opened addressable b turn stops
      rw [State.sysWritev, Vectored.loop_of_failed served (Int.neg_neg_of_pos (by decide))]
      rfl

/-- On a file, a gathered write is a plain one exactly if an empty element does not come
before something that there is room for. -/
theorem sameEffect_file_iff {iov : List (Buffer × Turn)} (turn : Turn)
    (nonempty : gathered iov ≠ []) (short : (gathered iov).length < 9223372036854775808) :
    SameEffect (s.sysWritev fd iov) (s.sysWrite fd (.ofBytes (gathered iov)) turn) ↔
      (gathered (untilEmpty iov)).take (s.files.files index).space =
        (gathered iov).take (s.files.files index).space := by
  have filled : (Buffer.ofBytes (gathered iov)).len ≠ 0 := ofNat_length_ne_zero short nonempty
  have length := Buffer.len_ofBytes short
  by_cases full : (s.files.files index).space = 0
  · have scattered := sysWritev_refused opened addressable nonempty (by rw [full, List.take_zero])
    have plain := sysWrite_refused opened addressable (.ofBytes (gathered iov)) turn
      (.inl full)
    rw [full, List.take_zero, List.take_zero, iff_true_right rfl]
    exact ⟨_, _, _, scattered, plain, .refl _, rfl, rfl, rfl⟩
  · obtain ⟨files, plain, stored⟩ := sysWrite_stores opened reliable addressable
      (.ofBytes (gathered iov)) turn (by rw [length]; exact short) filled full
    rw [Buffer.bytes_ofBytes short] at plain stored
    by_cases refused : (gathered (untilEmpty iov)).take (s.files.files index).space = []
    · have scattered := sysWritev_refused opened addressable nonempty refused
      rw [refused]
      constructor
      · intro same
        have counts := same.ret_eq scattered plain
        exact absurd counts (Int.ne_of_lt
          ((Int.neg_neg_of_pos (by decide)).trans_le (Int.natCast_nonneg _)))
      · intro same
        exact absurd same.symm (by rw [List.take_eq_nil_iff]; exact not_or.mpr ⟨full, nonempty⟩)
    · obtain ⟨files', scattered, stored'⟩ :=
        sysWritev_stores opened reliable addressable short refused
      constructor
      · intro same
        have counts := Int.ofNat_inj.mp (same.ret_eq scattered plain)
        exact ((gathered_untilEmpty_isPrefix iov).take _).eq_of_length counts
      · intro same
        rw [same] at scattered stored'
        exact ⟨_, _, _, scattered, plain, stored'.sameVolume stored, rfl, rfl, rfl⟩

end File

/-! ## The console -/

theorem Console.put_nil (c : Console) : c.put [] = c := by
  rw [Console.put, List.append_nil]

theorem Console.put_put (c : Console) (bytes more : List UInt8) :
    (c.put bytes).put more = c.put (bytes ++ more) := by
  simp only [Console.put, List.append_assoc]

section Console

variable {s : State} {fd : Int}

theorem sysWrite_console (console : fd = 1 ∨ fd = 2) (b : Buffer) (turn : Turn)
    (short : b.len.toNat < 9223372036854775808) :
    s.sysWrite fd b turn = .ok (some { ret := b.len.toNat, data := [] },
      { s with console := s.console.put b.bytes }) := by
  have noFile : openIndex s.files fd = none := openIndex_of_lt s.files (by omega)
  have noSocket : s.shim.net.isFd fd = false := Net.State.isFd_of_lt s.shim.net (by omega)
  have stream : ¬(fd ≠ 1 ∧ fd ≠ 2) := by omega
  simp only [State.sysWrite, noFile, noSocket, Bool.false_eq_true, if_false, if_neg stream,
    Word64.signed_of_lt short, State.code]
  split
  next => rfl
  next nothing =>
    have empty : b.bytes = [] := by
      rw [← List.length_eq_zero_iff, Buffer.length_bytes]
      omega
    rw [empty, Console.put_nil]

/-- The loop on the console puts out every element. -/
theorem loop_console (console : fd = 1 ∨ fd = 2) {iov : List (Buffer × Turn)}
    (short : (gathered iov).length < 9223372036854775808) (count : Nat) :
    Vectored.loop (fun s (element : Buffer × Turn) => s.sysWrite fd element.1 element.2)
        (fun element => element.1.len.toNat) { ret := count, data := [] } iov s =
      .ok (some { ret := (count + (gathered iov).length : Nat), data := [] },
        { s with console := s.console.put (gathered iov) }) := by
  induction iov generalizing s count with
  | nil => rw [Vectored.loop_nil, gathered_nil, List.length_nil, Nat.add_zero, Console.put_nil]
  | cons element rest ih =>
      obtain ⟨b, turn⟩ := element
      rw [gathered_cons, List.length_append, Buffer.length_bytes] at short
      have served := sysWrite_console (s := s) console b turn (by omega)
      have whole : b.len.toNat ≤ (b.len.toNat : Int).toNat := Nat.le_refl _
      rw [Vectored.loop_of_full served (Int.natCast_nonneg _) whole, Vectored.Transfer.add,
        ← Int.natCast_add, List.append_nil, ih (by omega), Console.put_put, gathered_cons,
        List.length_append, Buffer.length_bytes, Nat.add_assoc]

theorem sameEffect_console (console : fd = 1 ∨ fd = 2) {iov : List (Buffer × Turn)} (turn : Turn)
    (short : (gathered iov).length < 9223372036854775808) :
    SameEffect (s.sysWritev fd iov) (s.sysWrite fd (.ofBytes (gathered iov)) turn) := by
  have length := Buffer.len_ofBytes short
  have scattered := loop_console (s := s) console short 0
  have plain := sysWrite_console (s := s) console (.ofBytes (gathered iov)) turn
    (by rw [length]; exact short)
  rw [length, Buffer.bytes_ofBytes short] at plain
  rw [Nat.zero_add] at scattered
  exact ⟨_, _, _, scattered, plain, .refl _, rfl, rfl, rfl⟩

end Console

/-- A gathered write of at least one byte does what a write of all the bytes does: on the
console always, on a file exactly if no empty element comes before a byte that there is room
for. -/
theorem gathered_write_iff (s : State) (fd : Int) (iov : List (Buffer × Turn)) (turn : Turn)
    (nonempty : gathered iov ≠ []) (short : (gathered iov).length < 9223372036854775808) :
    (∀ index, openIndex s.files fd = some index → s.files.device.Reliable →
      (s.files.files index).Addressable →
      (SameEffect (s.sysWritev fd iov) (s.sysWrite fd (.ofBytes (gathered iov)) turn) ↔
        (gathered (untilEmpty iov)).take (s.files.files index).space =
          (gathered iov).take (s.files.files index).space)) ∧
    (fd = 1 ∨ fd = 2 →
      SameEffect (s.sysWritev fd iov) (s.sysWrite fd (.ofBytes (gathered iov)) turn)) :=
  ⟨fun _ opened reliable addressable =>
      sameEffect_file_iff opened reliable addressable turn nonempty short,
    fun console => sameEffect_console console turn short⟩

/-- A key that is held down. -/
def heldKey : Console :=
  { keys := fun _ => 97, live := fun start => ⟨start, Nat.le_refl start, by decide⟩
    next := 0, output := [] }

/-- Nothing happens during a call. -/
def Turn.idle : Turn := { now := 0, answers := .granted, polls := [] }

/-- A new file on a blank disk, open as descriptor 3. -/
def newFile : State :=
  { State.boot blankDisk (fun _ => false) heldKey with
    files := fileSystem.run (.boot blankDisk fun _ => false) [.open nameA oCreat] }

/-- One byte as an element of a vector. -/
def oneByte : Buffer × Turn := ({ base := fun _ => 7, len := 1 }, .idle)

/-- No byte as an element of a vector. -/
def noByte : Buffer × Turn := ({ base := fun _ => 7, len := 0 }, .idle)

theorem newFile_opened : openIndex newFile.files 3 = some 0 := by decide +kernel

theorem newFile_reliable : newFile.files.device.Reliable := fun _ => rfl

theorem newFile_addressable : (newFile.files.files 0).Addressable := by
  simp only [File.Addressable]
  decide +kernel

theorem oneByteTwice_alike :
    SameEffect (newFile.sysWritev 3 [oneByte, oneByte, noByte])
        (newFile.sysWrite 3 (.ofBytes [7, 7]) .idle) ∧
      SameEffect (newFile.sysWritev 1 [noByte, oneByte])
        (newFile.sysWrite 1 (.ofBytes [7]) .idle) :=
  ⟨((gathered_write_iff newFile 3 [oneByte, oneByte, noByte] .idle (by decide) (by decide)).1 0
      newFile_opened newFile_reliable newFile_addressable).mpr rfl,
    (gathered_write_iff newFile 1 [noByte, oneByte] .idle (by decide) (by decide)).2 (.inl rfl)⟩

/-- A vector whose first element is empty is refused for lack of room, although there is
room for its second element. -/
theorem emptyElement_refused :
    (∃ s, newFile.sysWritev 3 [noByte, oneByte] = .ok (some { ret := -28, data := [] }, s)) ∧
      (∃ s, newFile.sysWrite 3 (.ofBytes (gathered [noByte, oneByte])) .idle =
        .ok (some { ret := 1, data := [] }, s)) ∧
      ¬SameEffect (newFile.sysWritev 3 [noByte, oneByte])
        (newFile.sysWrite 3 (.ofBytes (gathered [noByte, oneByte])) .idle) := by
  have scattered : newFile.sysWritev 3 [noByte, oneByte] = _ :=
    sysWritev_refused newFile_opened newFile_addressable (by decide) List.take_nil
  obtain ⟨files, plain, -⟩ := sysWrite_stores newFile_opened newFile_reliable newFile_addressable
    (.ofBytes (gathered [noByte, oneByte])) .idle (by decide) (by decide) (by decide +kernel)
  have count : ((Buffer.ofBytes (gathered [noByte, oneByte])).bytes.take
      (newFile.files.files 0).space).length = 1 := by
    decide +kernel
  rw [count] at plain
  refine ⟨⟨_, scattered⟩, ⟨_, plain⟩, fun same => ?_⟩
  have counts : -ENOSPC = 1 := same.ret_eq scattered plain
  exact absurd counts (by decide)

end AppPortKit.Posix
