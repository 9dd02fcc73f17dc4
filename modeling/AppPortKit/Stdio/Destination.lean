import AppPortKit.Foundation.Sink
import AppPortKit.Stdio.Core

/-!
# Where a stream's bytes go

A stream hands its bytes to `writev`.  Both a file and the console are sinks for them: a
file has room up to its reserved size, and the console always has.
-/

namespace AppPortKit.Stdio

open Bmfs hiding State Reply
open Libc Posix

/-! ## Vectors -/

section Vectors

variable {iov : List (List UInt8)}

/-- A vector as `writev` is given it. -/
def vector (iov : List (List UInt8)) (turns : Nat → Turn) : List (Buffer × Turn) :=
  inTurn (iov.map Buffer.ofBytes) turns

theorem bmosSyscall_writev {s s' : State} {fd : Int} {turns : Nat → Turn}
    {part : Vectored.Transfer UInt8}
    (served : s.sysWritev fd (vector iov turns) = .ok (some part, s')) :
    s.bmosSyscall turns (.writev fd (iov.map Buffer.ofBytes)) = .ok (some (.ofTransfer part), s') :=
  congrArg State.transferred served

variable (two : iov.length ≤ 2) (short : iov.flatten.length < 9223372036854775808)
  (turns : Nat → Turn)

include two short

theorem gathered_vector : gathered (vector iov turns) = iov.flatten := by
  match iov, two with
  | [], _ => rfl
  | [first], _ =>
      simp only [List.flatten_cons, List.flatten_nil, List.append_nil] at short ⊢
      exact (List.append_nil _).trans (Buffer.bytes_ofBytes short)
  | [first, second], _ =>
      simp only [List.flatten_cons, List.flatten_nil, List.append_nil,
        List.length_append] at short ⊢
      have front : (Buffer.ofBytes first).bytes = first := Buffer.bytes_ofBytes (by omega)
      have back : (Buffer.ofBytes second).bytes = second := Buffer.bytes_ofBytes (by omega)
      exact congrArg₂ _ front ((List.append_nil _).trans back)

/-- Only the last element may be empty. -/
theorem gathered_untilEmpty_vector (starts : iov.headD [] ≠ []) :
    gathered (untilEmpty (vector iov turns)) = iov.flatten := by
  match iov, two with
  | [], _ => rfl
  | [first], _ =>
      simp only [List.flatten_cons, List.flatten_nil, List.append_nil] at short ⊢
      have filled : (Buffer.ofBytes first).len ≠ 0 := ofNat_length_ne_zero short starts
      rw [show vector [first] turns = [(.ofBytes first, turns 0)] from rfl,
        untilEmpty_of_ne _ _ _ filled, untilEmpty_nil, gathered_cons, gathered_nil,
        List.append_nil, Buffer.bytes_ofBytes short]
  | [first, second], _ =>
      simp only [List.flatten_cons, List.flatten_nil, List.append_nil,
        List.length_append] at short ⊢
      have filled : (Buffer.ofBytes first).len ≠ 0 := ofNat_length_ne_zero (by omega) starts
      have back : (Buffer.ofBytes second).bytes = second := Buffer.bytes_ofBytes (by omega)
      rw [show vector [first, second] turns =
          [(.ofBytes first, turns 0), (.ofBytes second, turns 1)] from rfl,
        untilEmpty_of_ne _ _ _ filled, gathered_cons, Buffer.bytes_ofBytes (by omega)]
      congr 1
      by_cases empty : (Buffer.ofBytes second).len = 0
      · rw [untilEmpty_of_empty _ _ _ empty, gathered_nil, ← back]
        exact ((Buffer.ofBytes second).bytes_eq_nil_iff.mpr empty).symm
      · rw [untilEmpty_of_ne _ _ _ empty, untilEmpty_nil, gathered_cons, gathered_nil,
          List.append_nil, back]

end Vectors

/-! ## Destinations -/

/-- A sink behind a descriptor. -/
structure Destination (fd : Int) extends Sink State UInt8 where
  writev : ∀ {s : State} {iov : List (List UInt8)} (turns : Nat → Turn), Ready s →
    iov.length ≤ 2 → iov.flatten.length < 9223372036854775808 → iov.headD [] ≠ [] →
    room s ≠ some 0 →
    ∃ s', s.bmosSyscall turns (.writev fd (iov.map Buffer.ofBytes)) =
        .ok (some (.code (accepted (room s) iov.flatten).length), s') ∧
      Put s s' (accepted (room s) iov.flatten)
  /-- Without room any attempt fails. -/
  writev_full : ∀ {s : State} {iov : List (List UInt8)} (turns : Nat → Turn), Ready s →
    iov.length ≤ 2 → iov.flatten.length < 9223372036854775808 → iov.flatten ≠ [] →
    room s = some 0 →
    ∃ s', s.bmosSyscall turns (.writev fd (iov.map Buffer.ofBytes)) =
        .ok (some (.code (-ENOSPC)), s') ∧ Put s s' []
  close : ∀ {s : State} (turns : Nat → Turn), Ready s →
    ∃ s', s.bmosSyscall turns (.close fd) = .ok (some (.code 0), s')

/-! ## Files -/

/-- A descriptor is that of an open file, on a drive that serves every request. -/
structure OnFile (s : State) (fd : Int) (index : Fin 8) : Prop where
  opened : openIndex s.files fd = some index
  reliable : s.files.device.Reliable
  addressable : (s.files.files index).Addressable

/-- The room of an open file. -/
abbrev room (s : State) (index : Fin 8) : Nat := (s.files.files index).space

/-- Bytes were stored in an open file at its offset; nothing else is different.  Even if
there was no room for any, the position may have moved to the offset. -/
def Placed (s s' : State) (index : Fin 8) (bytes : List UInt8) : Prop :=
  ∃ files, s' = { s with files } ∧
    (bytes = [] ∧ (files = s.files ∨ files = s.files.atOffset index) ∨
      bytes ≠ [] ∧ Stores s.files files index bytes)

section Placed

variable {s s' s'' : State} {fd : Int} {index : Fin 8} {bytes more : List UInt8}

theorem Placed.refl (s : State) (index : Fin 8) : Placed s s index [] :=
  ⟨s.files, rfl, .inl ⟨rfl, .inl rfl⟩⟩

theorem OnFile.fits (on : OnFile s fd index) (inside : bytes.length ≤ room s index) :
    bytes ≠ [] → (s.files.files index).offset.toNat + bytes.length < 9223372036854775808 := by
  intro nonempty
  have cap := on.addressable.cap_le
  have positive := List.length_pos_iff.mpr nonempty
  rw [room, File.space] at inside
  omega

theorem OnFile.placed (on : OnFile s fd index) (placed : Placed s s' index bytes)
    (inside : bytes.length ≤ room s index) :
    OnFile s' fd index ∧ room s' index = room s index - bytes.length := by
  obtain ⟨files, rfl, ⟨rfl, rfl | rfl⟩ | ⟨nonempty, stores⟩⟩ := placed
  · exact ⟨on, rfl⟩
  · exact ⟨⟨(s.files.openIndex_atOffset index fd).trans on.opened, on.reliable,
      (s.files.sameHandle_atOffset index).addressable on.addressable⟩,
      s.files.space_atOffset index⟩
  · have fits := on.fits inside nonempty
    exact ⟨⟨(stores.openIndex_eq fd).trans on.opened, on.reliable.of_fails_eq stores.fails,
      stores.sameHandle.addressable on.addressable⟩, stores.space_eq nonempty fits⟩

theorem OnFile.trans (on : OnFile s fd index) (first : Placed s s' index bytes)
    (second : Placed s' s'' index more) (inside : bytes.length + more.length ≤ room s index) :
    Placed s s'' index (bytes ++ more) := by
  rw [← List.length_append] at inside
  have fits := on.fits inside
  rw [List.length_append, ← Nat.add_assoc] at fits
  obtain ⟨files, rfl, ⟨rfl, rfl | rfl⟩ | ⟨nonempty, stores⟩⟩ := first
  · exact second
  · obtain ⟨files', rfl, ⟨rfl, rfl | rfl⟩ | ⟨nonempty', stores'⟩⟩ := second
    · exact ⟨_, rfl, .inl ⟨rfl, .inr rfl⟩⟩
    · exact ⟨_, rfl, .inl ⟨rfl, .inr (s.files.atOffset_atOffset index)⟩⟩
    · have small := fits nonempty'
      rw [List.length_nil] at small
      exact ⟨files', rfl, .inr ⟨nonempty', stores'.of_atOffset nonempty' (by omega)⟩⟩
  · obtain ⟨files', rfl, ⟨rfl, moved⟩ | ⟨nonempty', stores'⟩⟩ := second
    · rw [List.append_nil] at fits ⊢
      -- Bytes were stored before, so the position is at the offset already.
      have stands := (stores.offset_eq nonempty (fits nonempty)).2
      obtain rfl : files' = files := moved.elim id fun same =>
        same.trans (State.atOffset_of_eq stands)
      exact ⟨_, rfl, .inr ⟨nonempty, stores⟩⟩
    · have both : bytes ++ more ≠ [] := by simp [nonempty]
      exact ⟨files', rfl, .inr ⟨both, stores.trans stores' nonempty nonempty' (fits both)⟩⟩

end Placed

section OnFile

variable {s : State} {fd : Int} {index : Fin 8} {iov : List (List UInt8)} (on : OnFile s fd index)
  (turns : Nat → Turn) (two : iov.length ≤ 2)
  (short : iov.flatten.length < 9223372036854775808)

include on two short

theorem OnFile.writev_full (nonempty : iov.flatten ≠ []) (full : room s index = 0) :
    s.bmosSyscall turns (.writev fd (iov.map Buffer.ofBytes)) =
      .ok (some (.code (-ENOSPC)), { s with files := s.files.atOffset index }) := by
  have whole := gathered_vector two short turns
  have refused : s.sysWritev fd (vector iov turns) = _ :=
    sysWritev_refused on.opened on.addressable (by rw [whole]; exact nonempty)
      (by rw [show (s.files.files index).space = 0 from full, List.take_zero])
  exact bmosSyscall_writev refused

/-- A vector that starts with a byte is stored as far as there is room. -/
theorem OnFile.writev (starts : iov.headD [] ≠ []) (roomy : room s index ≠ 0) :
    ∃ s', s.bmosSyscall turns (.writev fd (iov.map Buffer.ofBytes)) =
        .ok (some (.code (iov.flatten.take (room s index)).length), s') ∧
      Placed s s' index (iov.flatten.take (room s index)) := by
  have nonempty : iov.flatten ≠ [] := by
    cases iov with
    | nil => exact starts
    | cons first rest => exact fun empty => starts (List.append_eq_nil_iff.mp empty).1
  have all := gathered_untilEmpty_vector two short turns starts
  have stored : iov.flatten.take (room s index) ≠ [] := by
    rw [Ne, List.take_eq_nil_iff]
    exact not_or.mpr ⟨roomy, nonempty⟩
  obtain ⟨files, returned, stores⟩ := sysWritev_stores on.opened on.reliable on.addressable
    (by rw [gathered_vector two short turns]; exact short) (by rw [all]; exact stored)
  rw [all] at returned stores
  exact ⟨{ s with files }, bmosSyscall_writev returned, files, rfl, .inr ⟨stored, stores⟩⟩

omit two short in
theorem OnFile.close : s.bmosSyscall turns (.close fd) =
    .ok (some (.code 0), { s with files := (bmfsClose s.files index).2 }) := by
  have zero : (bmfsClose s.files index).1 = 0 := by rw [bmfsClose]
  simp only [State.bmosSyscall, State.sysClose, on.opened, Option.isSome_some, if_true,
    State.fileCall, serve_close on.opened, Bmfs.Reply.ofResult, Posix.Reply.ofFiles, zero]
  rfl

end OnFile

/-- An open file. -/
def Destination.file (fd : Int) (index : Fin 8) : Destination fd where
  Ready s := OnFile s fd index
  room s := some (room s index)
  Put s s' bytes := Placed s s' index bytes
  put_nil s := .refl s index
  put_append on first second fits := on.trans first second (fits _ rfl)
  ready on placed fits := (on.placed placed (fits _ rfl)).1
  room_eq on placed fits := congrArg some (on.placed placed (fits _ rfl)).2
  writev turns on two short starts roomy := by
    rw [accepted_some]
    exact on.writev turns two short starts fun full => roomy (congrArg some full)
  writev_full turns on two short nonempty full :=
    ⟨_, on.writev_full turns two short nonempty (Option.some_inj.mp full), _, rfl,
      .inl ⟨rfl, .inr rfl⟩⟩
  close turns on := ⟨_, on.close turns⟩

/-! ## The console -/

/-- The streams 1 and 2. -/
def Destination.console (fd : Int) (stream : fd = 1 ∨ fd = 2) : Destination fd where
  Ready _ := True
  room _ := none
  Put s s' bytes := s' = { s with console := s.console.put bytes }
  put_nil s := by rw [Console.put_nil]
  put_append _ first second _ := by rw [second, first, Console.put_put]
  ready _ _ _ := trivial
  room_eq _ _ _ := rfl
  writev {s _} turns _ two short _ _ := by
    have whole := gathered_vector two short turns
    have served := loop_console (s := s) stream (by rw [whole]; exact short) 0
    rw [whole, Nat.zero_add] at served
    rw [accepted_none]
    exact ⟨_, bmosSyscall_writev served, rfl⟩
  writev_full _ _ _ _ _ full := nomatch full
  close {s} turns _ := by
    have noFile : openIndex s.files fd = none := openIndex_of_lt s.files (by omega)
    have noSocket : s.shim.net.isFd fd = false := Net.State.isFd_of_lt s.shim.net (by omega)
    refine ⟨s, ?_⟩
    simp only [State.bmosSyscall, State.sysClose, noFile, noSocket, Option.isSome_none,
      Bool.false_eq_true, if_false, if_pos (Or.inr stream), State.answer]

end AppPortKit.Stdio
