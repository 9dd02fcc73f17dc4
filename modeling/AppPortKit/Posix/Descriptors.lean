import AppPortKit.Net.Declines
import AppPortKit.Posix.Sent
import AppPortKit.Posix.Syscalls

/-!
# Descriptors that are not held

A system call on a descriptor that the application does not hold should be refused: it
should return an error, and change no table.  The calls that ask the tables whose
descriptor it is are deceived by a connection that waits to be accepted, whose socket is in
use; the socket calls do not ask.
-/

namespace AppPortKit.Posix

open Bmfs (openIndex)
open Fallible Libc Transition

/-- The tables of the file system, the socket table with its queues and the control blocks
are the same. -/
structure SameTables (s s' : State) : Prop where
  files : s'.files.files = s.files.files
  dir : s'.files.dir = s.files.dir
  socks : s'.shim.net.socks = s.shim.net.socks
  pcbs : s'.shim.net.tcp.pcbs = s.shim.net.tcp.pcbs

/-- A call has returned an error, without a fault, and changed no table. -/
def Rejected (s : State) (outcome : Outcome) : Prop :=
  ∃ reply s', outcome = .ok (some reply, s') ∧ reply.ret < 0 ∧ SameTables s s'

/-- A call on a descriptor that is not held is refused.  Files are looked up always, sockets
by some calls; what the others find at the descriptor decides. -/
def State.Refuses (s : State) : Syscall → Prop
  | .lseek _ _ _ => True
  | .close fd | .fstat fd => s.shim.net.isFd fd = false
  | .read fd len => s.shim.net.isFd fd = false ∨ s.shim.net.Declines (.recv fd len)
  | .write fd b => s.shim.net.isFd fd = false ∨ s.shim.net.Declines (.send fd b.bytes)
  | .readv fd iov =>
      s.shim.net.isFd fd = false ∨ ∃ len ∈ iov, s.shim.net.Declines (.recv fd len)
  | .writev fd iov =>
      s.shim.net.isFd fd = false ∨ ∃ b ∈ iov, s.shim.net.Declines (.send fd b.bytes)
  | .bind fd addrlen ip port => s.shim.net.Declines (.bind fd addrlen ip port)
  | .listen fd => s.shim.net.Declines (.listen fd)
  | .accept fd addr addrlen => s.shim.net.Declines (.accept fd addr addrlen)
  | .connect fd addrlen ip port => s.shim.net.Declines (.connect fd addrlen ip port)
  | .sendto fd b => s.shim.net.Declines (.send fd b.bytes)
  | .recvfrom fd len => s.shim.net.Declines (.recv fd len)
  | .open _ _ | .unlink _ | .fstatat _ | .socket _ _ => True

/-- A vector has an element. -/
def Syscall.HasElement : Syscall → Prop
  | .readv _ iov => iov ≠ []
  | .writev _ iov => iov ≠ []
  | _ => True

/-- No length to be received is negative as a `long`. -/
def Syscall.Short : Syscall → Prop
  | .read _ len | .recvfrom _ len => len.toNat < 9223372036854775808
  | .readv _ iov => ∀ len ∈ iov, len.toNat < 9223372036854775808
  | _ => True

theorem SameTables.refl (s : State) : SameTables s s := ⟨rfl, rfl, rfl, rfl⟩

/-! ## Socket calls -/

/-- A socket call has returned an error and changed no table. -/
def Rebuffed (s : State) (performed : Except Net.Fault (Option Net.Reply × State)) : Prop :=
  ∃ reply s', performed = .ok (some reply, s') ∧ reply.ret < 0 ∧ SameTables s s'

section Perform

variable {s : State} {call : Net.Call} {turn : Turn}

theorem rejected_map_iff {performed : Except Net.Fault (Option Net.Reply × State)}
    {change : Net.Reply → Reply} (same : ∀ reply, (change reply).ret = reply.ret) :
    Rejected s (performed.map fun result => (result.1.map change, result.2)) ↔
      Rebuffed s performed := by
  constructor
  · rintro ⟨_, s', returned, failed, tables⟩
    obtain ⟨reply, served, rfl⟩ := map_some_eq_ok.mp returned
    exact ⟨reply, s', served, same reply ▸ failed, tables⟩
  · rintro ⟨reply, s', served, failed, tables⟩
    exact ⟨change reply, s', map_some_eq_ok.mpr ⟨reply, served, rfl⟩,
      (same reply).symm ▸ failed, tables⟩

theorem rejected_netCall_iff :
    Rejected s (s.netCall call turn) ↔ Rebuffed s (s.perform call turn) :=
  rejected_map_iff fun _ => rfl

theorem socketCall_eq_map : s.socketCall call turn = (s.perform call turn).map fun result =>
    (result.1.map fun reply => { ret := reply.ret, data := reply.bytes }, result.2) := by
  rw [State.socketCall]
  cases s.perform call turn with
  | error fault => rfl
  | ok result => rfl

/-- The first pass of a call. -/
theorem advance_call (idle : s.shim.waiting = none) (call : Net.Call) (now : UInt32)
    (answers : Net.Answers) :
    s.advance (.call call now answers) = (s.shim.net.enter answers call).map fun result =>
      ((Net.Shim.settle now result).1, { s with
        shim := (Net.Shim.settle now result).2
        enqueued := fun p => s.enqueued p ++
          appended s.shim.net.tcp (Net.Shim.settle now result).2.net.tcp p }) := by
  simp only [State.advance, Net.Shim.step, idle]
  cases s.shim.net.enter answers call with
  | error fault => rfl
  | ok result => rfl

theorem perform_of_returned {reply : Net.Reply} {n : Net.State} (idle : s.shim.waiting = none)
    (entered : s.shim.net.enter turn.answers call = .ok (.returned reply, n)) :
    s.perform call turn = .ok (some reply, { s with
      shim := { net := n, waiting := none }
      enqueued := fun p => s.enqueued p ++ appended s.shim.net.tcp n.tcp p }) := by
  rw [State.perform, advance_call idle, entered]
  rfl

theorem rebuffed_of_rejects (idle : s.shim.waiting = none)
    (rejects : s.shim.net.Rejects (s.shim.net.enter turn.answers call)) :
    Rebuffed s (s.perform call turn) := by
  obtain ⟨reply, n, entered, failed, socks, pcbs⟩ := rejects
  exact ⟨reply, _, perform_of_returned idle entered, failed, rfl, rfl, socks, pcbs⟩

/-- A call that is refused before lwIP has done anything is refused in its first pass. -/
theorem rejects_of_rebuffed (idle : s.shim.waiting = none) (still : turn.polls = [])
    (rebuffed : Rebuffed s (s.perform call turn)) :
    s.shim.net.Rejects (s.shim.net.enter turn.answers call) := by
  obtain ⟨reply, s', performed, failed, tables⟩ := rebuffed
  cases entered : s.shim.net.enter turn.answers call with
  | error fault =>
      rw [State.perform, advance_call idle, entered] at performed
      exact absurd performed nofun
  | ok result =>
      obtain ⟨progress, n⟩ := result
      cases progress with
      | polls waiting =>
          rw [State.perform, advance_call idle, entered, still] at performed
          exact absurd (Prod.mk.inj (Except.ok.inj performed)).1 nofun
      | returned first =>
          rw [perform_of_returned idle entered] at performed
          obtain ⟨same, rfl⟩ := Prod.mk.inj (Except.ok.inj performed)
          obtain rfl := Option.some.inj same
          exact ⟨first, n, rfl, failed, tables.socks, tables.pcbs⟩

/-- Time stands still and lwIP does nothing but answer. -/
def Turn.still (answers : Net.Answers) : Turn := { now := 0, answers, polls := [] }

theorem rebuffed_of_declines (idle : s.shim.waiting = none) (declines : s.shim.net.Declines call)
    (turn : Turn) : Rebuffed s (s.perform call turn) :=
  rebuffed_of_rejects idle (Net.State.rejects_of_declines declines turn.answers)

theorem declines_of_rebuffed (idle : s.shim.waiting = none) (takes : call.TakesFd)
    (short : call.Short) (all : ∀ answers, Rebuffed s (s.perform call (.still answers))) :
    s.shim.net.Declines call := by
  refine (Net.State.rejects_enter_iff takes short).mp fun answers => ?_
  have rejects : s.shim.net.Rejects (s.shim.net.enter (Turn.still answers).answers call) :=
    rejects_of_rebuffed idle rfl (all answers)
  exact rejects

/-- A call that leaves the network as it is leaves everything as it is. -/
theorem perform_of_same {reply : Net.Reply} (idle : s.shim.waiting = none)
    (entered : s.shim.net.enter turn.answers call = .ok (.returned reply, s.shim.net)) :
    s.perform call turn = .ok (some reply, s) := by
  rw [perform_of_returned idle entered]
  obtain ⟨files, ⟨net, waiting⟩, enqueued, console⟩ := s
  obtain rfl := idle
  simp only [appended_of_quiet (.refl _), List.append_nil]

end Perform

/-! ## Transfers -/

/-- No call is being served, and a descriptor is neither that of an open file nor of the
console. -/
structure State.Foreign (s : State) (fd : Int) : Prop where
  idle : s.shim.waiting = none
  noFile : openIndex s.files fd = none
  noConsole : fd ≠ 0 ∧ fd ≠ 1 ∧ fd ≠ 2

section Transfers

variable {s : State} {fd : Int} {turn : Turn}

theorem rejected_answer {error : Int} (positive : 0 < error) :
    Rejected s (s.answer (.code (-error))) :=
  ⟨_, s, rfl, Int.neg_neg_of_pos positive, .refl s⟩

theorem not_rejected_answer {reply : Reply} (nonneg : 0 ≤ reply.ret) :
    ¬Rejected s (s.answer reply) := by
  rintro ⟨_, _, returned, failed, _⟩
  obtain rfl := Option.some.inj (Prod.mk.inj (Except.ok.inj returned)).1
  exact Int.not_lt.mpr nonneg failed

theorem rejected_transferred_iff {result : State.Result} :
    Rejected s (State.transferred result) ↔
      ∃ part s', result = .ok (some part, s') ∧ part.ret < 0 ∧ SameTables s s' := by
  constructor
  · rintro ⟨_, s', returned, failed, tables⟩
    obtain ⟨part, served, rfl⟩ := map_some_eq_ok.mp returned
    exact ⟨part, s', served, failed, tables⟩
  · rintro ⟨part, s', rfl, failed, tables⟩
    exact ⟨_, s', rfl, failed, tables⟩

theorem rejected_code {error : Int} (positive : 0 < error) :
    Rejected s (State.transferred (s.code (-error))) :=
  rejected_answer positive

theorem rejected_socketCall_iff {call : Net.Call} :
    Rejected s (State.transferred (s.socketCall call turn)) ↔
      Rebuffed s (s.perform call turn) := by
  rw [rejected_transferred_iff, socketCall_eq_map]
  constructor
  · rintro ⟨_, s', returned, failed, tables⟩
    obtain ⟨reply, served, rfl⟩ := map_some_eq_ok.mp returned
    exact ⟨reply, s', served, failed, tables⟩
  · rintro ⟨reply, s', served, failed, tables⟩
    exact ⟨_, s', map_some_eq_ok.mpr ⟨reply, served, rfl⟩, failed, tables⟩

theorem sysRead_of_unused (foreign : s.Foreign fd) (unused : s.shim.net.isFd fd = false)
    (len : UInt64) (turn : Turn) : s.sysRead fd len turn = s.code (-EBADF) := by
  simp only [State.sysRead, foreign.noFile, unused, Bool.false_eq_true, ↓reduceIte,
    if_pos foreign.noConsole.1]

theorem sysRead_of_used (foreign : s.Foreign fd) (used : s.shim.net.isFd fd = true)
    (len : UInt64) (turn : Turn) : s.sysRead fd len turn = s.socketCall (.recv fd len) turn := by
  simp only [State.sysRead, foreign.noFile, used, ↓reduceIte]

theorem sysWrite_of_unused (foreign : s.Foreign fd) (unused : s.shim.net.isFd fd = false)
    (b : Buffer) (turn : Turn) : s.sysWrite fd b turn = s.code (-EBADF) := by
  simp only [State.sysWrite, foreign.noFile, unused, Bool.false_eq_true, ↓reduceIte,
    if_pos foreign.noConsole.2]

theorem sysWrite_of_used (foreign : s.Foreign fd) (used : s.shim.net.isFd fd = true)
    (b : Buffer) (turn : Turn) : s.sysWrite fd b turn = s.socketCall (.send fd b.bytes) turn := by
  simp only [State.sysWrite, foreign.noFile, used, ↓reduceIte]

end Transfers

/-! ## Vectors -/

section Vectors

variable {s : State} {fd : Int} {turns : Nat → Turn}

theorem mem_inTurn {ε : Type} {iov : List ε} {element : ε × Turn} :
    element ∈ inTurn iov turns ↔
      ∃ index, iov[index]? = some element.1 ∧ turns index = element.2 := by
  obtain ⟨value, turn⟩ := element
  simp [inTurn, List.mem_zipIdx_iff_getElem?]

theorem fst_mem_of_mem_inTurn {ε : Type} {iov : List ε} {element : ε × Turn}
    (among : element ∈ inTurn iov turns) : element.1 ∈ iov := by
  obtain ⟨index, found, _⟩ := mem_inTurn.mp among
  exact List.mem_of_getElem? found

theorem exists_mem_inTurn (turns : Nat → Turn) {ε : Type} {iov : List ε} {value : ε}
    (among : value ∈ iov) : ∃ turn, (value, turn) ∈ inTurn iov turns := by
  obtain ⟨index, found⟩ := List.mem_iff_getElem?.mp among
  exact ⟨turns index, mem_inTurn.mpr ⟨index, found, rfl⟩⟩

theorem snd_of_mem_inTurn {ε : Type} {iov : List ε} {element : ε × Turn} {turn : Turn}
    (among : element ∈ inTurn iov fun _ => turn) : element.2 = turn := by
  obtain ⟨_, _, same⟩ := mem_inTurn.mp among
  exact same.symm

theorem exists_sock_of_isFd (used : s.shim.net.isFd fd = true) :
    ∃ k, Net.State.sockOfFd fd = .ok k := by
  cases slot : Net.State.sockOfFd fd with
  | ok k => exact ⟨k, rfl⟩
  | error fault =>
      rw [Net.State.isFd, slot] at used
      exact absurd used (by simp)

/-- A transfer of nothing. -/
theorem socketCall_zero {call : Net.Call} {turn : Turn} (idle : s.shim.waiting = none)
    (entered : s.shim.net.enter turn.answers call = .ok (.returned (.code 0), s.shim.net)) :
    s.socketCall call turn = .ok (some .zero, s) := by
  rw [State.socketCall, perform_of_same idle entered]
  rfl

/-- A vector whose transfers the tables do not allow. -/
theorem rejected_loop_of_unused {ε : Type} {transfer : State → ε × Turn → State.Result}
    {size : ε × Turn → Nat} (refused : ∀ element, transfer s element = s.code (-EBADF))
    {iov : List ε} (filled : iov ≠ []) :
    Rejected s (State.transferred (Vectored.loop transfer size .zero (inTurn iov turns) s)) := by
  obtain ⟨value, among⟩ := List.exists_mem_of_ne_nil iov filled
  obtain ⟨turn, present⟩ := exists_mem_inTurn turns among
  cases elements : inTurn iov turns with
  | nil => exact absurd (elements ▸ present) List.not_mem_nil
  | cons element later =>
      rw [Vectored.loop_of_failed (refused element) (by decide), Vectored.Transfer.zero_fail]
      exact rejected_code (by decide)

section Socket

variable {ε : Type} {transfer : State → ε × Turn → State.Result} {size : ε × Turn → Nat}
  (call : ε → Net.Call) {iov : List ε}

/-- A vector whose transfers are calls that decline, unless they transfer nothing. -/
theorem rejected_loop_of_declines (idle : s.shim.waiting = none)
    (made : ∀ element, transfer s element = s.socketCall (call element.1) element.2)
    (empty : ∀ element, size element = 0 → transfer s element = .ok (some .zero, s))
    (declines : ∀ element, size element ≠ 0 → s.shim.net.Declines (call element.1))
    (makes : ∃ value ∈ iov, ∀ turn, size (value, turn) ≠ 0) :
    Rejected s (State.transferred (Vectored.loop transfer size .zero (inTurn iov turns) s)) := by
  rw [rejected_transferred_iff]
  refine Vectored.loop_fails empty (fun element _ nonempty => ?_) ?_
  · have rebuffed := rebuffed_of_declines idle (declines element nonempty) element.2
    rw [← rejected_socketCall_iff, ← made, rejected_transferred_iff] at rebuffed
    exact rebuffed
  · obtain ⟨value, among, nonempty⟩ := makes
    obtain ⟨turn, present⟩ := exists_mem_inTurn turns among
    exact ⟨(value, turn), present, nonempty turn⟩

/-- A vector that is rejected has a transfer that is. -/
theorem rejects_of_rejected_loop {answers : Net.Answers} (idle : s.shim.waiting = none)
    (made : ∀ element, transfer s element = s.socketCall (call element.1) element.2)
    (empty : ∀ element, size element = 0 → transfer s element = .ok (some .zero, s))
    (rejected : Rejected s (State.transferred
      (Vectored.loop transfer size .zero (inTurn iov fun _ => .still answers) s))) :
    ∃ value ∈ iov, s.shim.net.Rejects (s.shim.net.enter answers (call value)) := by
  obtain ⟨part, s', returned, failed, tables⟩ := rejected_transferred_iff.mp rejected
  obtain ⟨⟨value, turn⟩, among, _, first, served, negative⟩ :=
    Vectored.loop_failed_of_returned empty returned failed
  obtain rfl : turn = .still answers := snd_of_mem_inTurn among
  refine ⟨value, fst_mem_of_mem_inTurn among, ?_⟩
  have rebuffed : Rebuffed s (s.perform (call value) (.still answers)) := by
    rw [← rejected_socketCall_iff, ← made (value, .still answers), rejected_transferred_iff]
    exact ⟨first, s', served, negative, tables⟩
  have rejects : s.shim.net.Rejects
      (s.shim.net.enter (Turn.still answers).answers (call value)) :=
    rejects_of_rebuffed idle rfl rebuffed
  exact rejects

end Socket

section Used

variable (foreign : s.Foreign fd) (used : s.shim.net.isFd fd = true)

include foreign used

theorem sysRead_zero (element : UInt64 × Turn) (empty : element.1.toNat = 0) :
    s.sysRead fd element.1 element.2 = .ok (some .zero, s) := by
  obtain ⟨k, slot⟩ := exists_sock_of_isFd used
  obtain ⟨len, turn⟩ := element
  obtain rfl : len = 0 := UInt64.toNat_inj.mp empty
  rw [sysRead_of_used foreign used]
  refine socketCall_zero foreign.idle ?_
  simp only [Net.State.enter, slot, bind, Except.bind, ↓reduceIte]

theorem sysWrite_zero (element : Buffer × Turn) (empty : element.1.len.toNat = 0) :
    s.sysWrite fd element.1 element.2 = .ok (some .zero, s) := by
  obtain ⟨k, slot⟩ := exists_sock_of_isFd used
  obtain ⟨b, turn⟩ := element
  have nothing : b.bytes = [] := b.bytes_eq_nil_iff.mpr (UInt64.toNat_inj.mp empty)
  rw [sysWrite_of_used foreign used]
  refine socketCall_zero foreign.idle ?_
  simp only [Net.State.enter, slot, bind, Except.bind, if_pos nothing]

theorem rejected_sysReadv_of_declines {iov : List UInt64}
    (declines : ∃ len ∈ iov, s.shim.net.Declines (.recv fd len)) :
    Rejected s (State.transferred (s.sysReadv fd (inTurn iov turns))) := by
  obtain ⟨len, among, k, slot, nonempty, drained⟩ := declines
  refine rejected_loop_of_declines (.recv fd) foreign.idle
    (fun element => sysRead_of_used foreign used element.1 element.2) (sysRead_zero foreign used)
    (fun element filled => ⟨k, slot, ?_, drained⟩) ⟨len, among, fun _ => ?_⟩
  · exact fun zero => filled (congrArg UInt64.toNat zero)
  · exact fun zero => nonempty (UInt64.toNat_inj.mp zero)

theorem rejected_sysWritev_of_declines {iov : List Buffer}
    (declines : ∃ b ∈ iov, s.shim.net.Declines (.send fd b.bytes)) :
    Rejected s (State.transferred (s.sysWritev fd (inTurn iov turns))) := by
  obtain ⟨b, among, k, slot, nonempty, mute⟩ := declines
  refine rejected_loop_of_declines (fun b : Buffer => .send fd b.bytes) foreign.idle
    (fun element => sysWrite_of_used foreign used element.1 element.2) (sysWrite_zero foreign used)
    (fun element filled => ⟨k, slot, ?_, mute⟩) ⟨b, among, fun _ => ?_⟩
  · exact fun nothing => filled
      (congrArg UInt64.toNat (element.1.bytes_eq_nil_iff.mp nothing))
  · exact fun zero => nonempty (b.bytes_eq_nil_iff.mpr (UInt64.toNat_inj.mp zero))

theorem declines_of_rejected_sysReadv {iov : List UInt64}
    (short : ∀ len ∈ iov, len.toNat < 9223372036854775808)
    (rejected : Rejected s
      (State.transferred (s.sysReadv fd (inTurn iov fun _ => .still .busy)))) :
    ∃ len ∈ iov, s.shim.net.Declines (.recv fd len) := by
  obtain ⟨len, among, rejects⟩ := rejects_of_rejected_loop (.recv fd) foreign.idle
    (fun element => sysRead_of_used foreign used element.1 element.2) (sysRead_zero foreign used)
    rejected
  have takes : (Net.Call.recv fd len).TakesFd := trivial
  -- What a call receives does not depend on what lwIP answers.
  exact ⟨len, among,
    (Net.State.rejects_enter_iff takes (short len among)).mp fun _ => rejects⟩

theorem declines_of_rejected_sysWritev {iov : List Buffer}
    (rejected : Rejected s
      (State.transferred (s.sysWritev fd (inTurn iov fun _ => .still .busy)))) :
    ∃ b ∈ iov, s.shim.net.Declines (.send fd b.bytes) := by
  obtain ⟨b, among, rejects⟩ := rejects_of_rejected_loop
    (fun b => .send fd b.bytes) foreign.idle
    (fun element => sysWrite_of_used foreign used element.1 element.2) (sysWrite_zero foreign used)
    rejected
  exact ⟨b, among, Net.State.declines_send_of_rejects rejects⟩

end Used

end Vectors

/-! ## All calls -/

section Calls

variable {s : State} {fd : Int} {call : Syscall}

theorem sysClose_of_used (foreign : s.Foreign fd) (used : s.shim.net.isFd fd = true)
    (turn : Turn) : s.sysClose fd turn = s.netCall (.close fd) turn := by
  simp only [State.sysClose, foreign.noFile, used, Option.isSome_none, Bool.false_eq_true,
    ↓reduceIte]

theorem sysClose_of_unused (foreign : s.Foreign fd) (unused : s.shim.net.isFd fd = false)
    (turn : Turn) : s.sysClose fd turn = s.answer (.code (-EBADF)) := by
  have noConsole : ¬(fd = 0 ∨ fd = 1 ∨ fd = 2) := by
    have := foreign.noConsole
    omega
  simp only [State.sysClose, foreign.noFile, unused, Option.isSome_none, Bool.false_eq_true,
    ↓reduceIte, if_neg noConsole]

theorem sysFstat_of_used (foreign : s.Foreign fd) (used : s.shim.net.isFd fd = true) :
    s.sysFstat fd = s.answer { Reply.code 0 with stat := some (statOfMode socketMode) } := by
  simp only [State.sysFstat, foreign.noFile, used, Option.isSome_none, Bool.false_eq_true,
    ↓reduceIte]

theorem sysFstat_of_unused (foreign : s.Foreign fd) (unused : s.shim.net.isFd fd = false) :
    s.sysFstat fd = s.answer (.code (-EBADF)) := by
  simp only [State.sysFstat, foreign.noFile, unused, Option.isSome_none, Bool.false_eq_true,
    ↓reduceIte, if_pos foreign.noConsole]

theorem sysLseek_of_foreign (foreign : s.Foreign fd) (offset whence : Int64) :
    s.sysLseek fd offset whence = s.answer (.code (-ESPIPE)) := by
  simp only [State.sysLseek, foreign.noFile, Option.isSome_none, Bool.false_eq_true, ↓reduceIte]

/-- A socket call that declines is rejected, and no other that takes a descriptor. -/
theorem rejected_netCall (foreign : s.Foreign fd) {made : Net.Call}
    (declines : s.shim.net.Declines made) (turn : Turn) : Rejected s (s.netCall made turn) :=
  rejected_netCall_iff.mpr (rebuffed_of_declines foreign.idle declines turn)

theorem declines_of_rejected (foreign : s.Foreign fd) (made : Net.Call) (takes : made.TakesFd)
    (short : made.Short)
    (rejected : ∀ turns : Nat → Turn, Rejected s (s.netCall made (turns 0))) :
    s.shim.net.Declines made :=
  declines_of_rebuffed foreign.idle takes short fun answers =>
    rejected_netCall_iff.mp (rejected fun _ => .still answers)

/-- A call that asks the tables is rejected if no socket is in use at the descriptor, and
else if the call made then is. -/
theorem rejected_of_table {outcome : Outcome} {declines : Prop}
    (unused : s.shim.net.isFd fd = false → Rejected s outcome)
    (used : s.shim.net.isFd fd = true → declines → Rejected s outcome)
    (refuses : s.shim.net.isFd fd = false ∨ declines) : Rejected s outcome := by
  cases inUse : s.shim.net.isFd fd with
  | false => exact unused inUse
  | true => exact used inUse (refuses.resolve_left (by simp [inUse]))

theorem refuses_of_table {declines : Prop} (used : s.shim.net.isFd fd = true → declines) :
    s.shim.net.isFd fd = false ∨ declines := by
  cases inUse : s.shim.net.isFd fd with
  | false => exact .inl rfl
  | true => exact .inr (used inUse)

/-- A call that is refused returns an error, whatever lwIP does. -/
theorem rejected_of_refuses (foreign : s.Foreign fd) (takes : call.fd = some fd)
    (filled : call.HasElement) (refuses : s.Refuses call) (turns : Nat → Turn) :
    Rejected s (s.bmosSyscall turns call) := by
  have transfer {made : Net.Call} (declines : s.shim.net.Declines made) :
      Rejected s (State.transferred (s.socketCall made (turns 0))) :=
    rejected_socketCall_iff.mpr (rebuffed_of_declines foreign.idle declines (turns 0))
  cases call with
  | «open» | unlink | fstatat | socket => exact absurd takes nofun
  | bind | listen | accept | connect | sendto | recvfrom =>
      refine rejected_netCall foreign ?_ (turns 0)
      exact refuses
  | read other len =>
      obtain rfl := Option.some.inj takes
      refine rejected_of_table (fun unused => ?_) (fun used declines => ?_) refuses
      · rw [State.bmosSyscall, sysRead_of_unused foreign unused]
        exact rejected_code (by decide)
      · rw [State.bmosSyscall, sysRead_of_used foreign used]
        exact transfer declines
  | write other b =>
      obtain rfl := Option.some.inj takes
      refine rejected_of_table (fun unused => ?_) (fun used declines => ?_) refuses
      · rw [State.bmosSyscall, sysWrite_of_unused foreign unused]
        exact rejected_code (by decide)
      · rw [State.bmosSyscall, sysWrite_of_used foreign used]
        exact transfer declines
  | readv other iov =>
      obtain rfl := Option.some.inj takes
      refine rejected_of_table (fun unused => ?_) (fun used declines => ?_) refuses
      · exact rejected_loop_of_unused
          (fun element => sysRead_of_unused foreign unused element.1 element.2) filled
      · exact rejected_sysReadv_of_declines foreign used declines
  | writev other iov =>
      obtain rfl := Option.some.inj takes
      refine rejected_of_table (fun unused => ?_) (fun used declines => ?_) refuses
      · exact rejected_loop_of_unused
          (fun element => sysWrite_of_unused foreign unused element.1 element.2) filled
      · exact rejected_sysWritev_of_declines foreign used declines
  | close other =>
      obtain rfl := Option.some.inj takes
      rw [State.bmosSyscall, sysClose_of_unused foreign refuses]
      exact rejected_answer (by decide)
  | fstat other =>
      obtain rfl := Option.some.inj takes
      rw [State.bmosSyscall, sysFstat_of_unused foreign refuses]
      exact rejected_answer (by decide)
  | lseek other offset whence =>
      obtain rfl := Option.some.inj takes
      rw [State.bmosSyscall, sysLseek_of_foreign foreign]
      exact rejected_answer (by decide)

/-- One that returns an error whatever lwIP does is refused. -/
theorem refuses_of_rejected (foreign : s.Foreign fd) (takes : call.fd = some fd)
    (short : call.Short) (rejected : ∀ turns, Rejected s (s.bmosSyscall turns call)) :
    s.Refuses call := by
  have transfer (made : Net.Call) (takesFd : made.TakesFd) (fits : made.Short)
      (all : ∀ turns : Nat → Turn, Rejected s (State.transferred (s.socketCall made (turns 0)))) :
      s.shim.net.Declines made :=
    declines_of_rebuffed foreign.idle takesFd fits fun answers =>
      rejected_socketCall_iff.mp (all fun _ => .still answers)
  cases call with
  | «open» | unlink | fstatat | socket | lseek => trivial
  | bind fd addrlen ip port =>
      exact declines_of_rejected foreign (.bind fd addrlen ip port) trivial trivial rejected
  | listen fd => exact declines_of_rejected foreign (.listen fd) trivial trivial rejected
  | accept fd addr addrlen =>
      exact declines_of_rejected foreign (.accept fd addr addrlen) trivial trivial rejected
  | connect fd addrlen ip port =>
      exact declines_of_rejected foreign (.connect fd addrlen ip port) trivial trivial rejected
  | sendto fd b => exact declines_of_rejected foreign (.send fd b.bytes) trivial trivial rejected
  | recvfrom fd len => exact declines_of_rejected foreign (.recv fd len) trivial short rejected
  | read other len =>
      obtain rfl := Option.some.inj takes
      refine refuses_of_table fun used => transfer (.recv other len) trivial short fun turns => ?_
      rw [← sysRead_of_used foreign used]
      exact rejected turns
  | write other b =>
      obtain rfl := Option.some.inj takes
      refine refuses_of_table fun used => transfer (.send other b.bytes) trivial trivial
        fun turns => ?_
      rw [← sysWrite_of_used foreign used]
      exact rejected turns
  | readv other iov =>
      obtain rfl := Option.some.inj takes
      exact refuses_of_table fun used =>
        declines_of_rejected_sysReadv foreign used short (rejected fun _ => .still .busy)
  | writev other iov =>
      obtain rfl := Option.some.inj takes
      exact refuses_of_table fun used =>
        declines_of_rejected_sysWritev foreign used (rejected fun _ => .still .busy)
  | close other =>
      obtain rfl := Option.some.inj takes
      refine Bool.eq_false_iff.mpr fun used => ?_
      refine declines_of_rejected foreign (.close other) trivial trivial fun turns => ?_
      rw [← sysClose_of_used foreign used]
      exact rejected turns
  | fstat other =>
      obtain rfl := Option.some.inj takes
      refine Bool.eq_false_iff.mpr fun used => ?_
      have answered := rejected fun _ => .still .busy
      rw [State.bmosSyscall, sysFstat_of_used foreign used] at answered
      exact not_rejected_answer (Int.le_refl 0) answered

end Calls

/-! ## Sessions -/

/-- A call has returned, and no file is open that was not. -/
structure Returned (s s' : State) : Prop where
  idle : s'.shim.waiting = none
  opened : ∀ fd, openIndex s'.files fd ≠ none → openIndex s.files fd ≠ none

section Sessions

variable {s s' : State}

theorem step_returns {s s' : Net.Shim} {input : Net.Input} {reply : Net.Reply}
    (stepped : s.step input = .ok (some reply, s')) : s'.waiting = none := by
  have settles {start : UInt32} {served : Except Net.Fault (Net.Progress × Net.State)}
      (settled : served.map (Net.Shim.settle start) = .ok (some reply, s')) :
      s'.waiting = none := by
    obtain ⟨⟨progress, n⟩, _, rest⟩ := map_eq_ok.mp settled
    cases progress with
    | returned first => exact (Prod.mk.inj rest).2 ▸ rfl
    | polls waiting => exact absurd (Prod.mk.inj rest).1 nofun
  cases input with
  | call call now answers =>
      rw [Net.Shim.step] at stepped
      split at stepped
      · exact absurd (Prod.mk.inj (Except.ok.inj stepped)).1 nofun
      · exact settles stepped
  | lwip event =>
      obtain ⟨n, _, rest⟩ := map_eq_ok.mp stepped
      exact absurd (Prod.mk.inj rest).1 nofun
  | tick now answers =>
      rw [Net.Shim.step] at stepped
      split at stepped
      · exact absurd (Prod.mk.inj (Except.ok.inj stepped)).1 nofun
      · split at stepped
        · exact settles stepped
        · exact settles stepped

theorem files_advance {input : Net.Input} {reply : Option Net.Reply}
    (advanced : s.advance input = .ok (reply, s')) : s'.files = s.files := by
  obtain ⟨shim, _, rfl⟩ := advance_eq_ok advanced
  rfl

theorem idle_of_advance {input : Net.Input} {reply : Net.Reply}
    (advanced : s.advance input = .ok (some reply, s')) : s'.shim.waiting = none := by
  obtain ⟨shim, stepped, rfl⟩ := advance_eq_ok advanced
  exact step_returns stepped

theorem await_returns {inputs : List Net.Input} {reply : Net.Reply}
    (returned : State.await inputs s = .ok (some reply, s')) :
    s'.shim.waiting = none ∧ s'.files = s.files := by
  induction inputs generalizing s with
  | nil => exact absurd (Prod.mk.inj (Except.ok.inj returned)).1 nofun
  | cons input rest ih =>
      obtain ⟨⟨answer, t⟩, advanced, later⟩ := bind_eq_ok.mp returned
      cases answer with
      | none =>
          obtain ⟨idle, files⟩ := ih later
          exact ⟨idle, files.trans (files_advance advanced)⟩
      | some first =>
          obtain ⟨_, rfl⟩ := Prod.mk.inj (Except.ok.inj later)
          exact ⟨idle_of_advance advanced, files_advance advanced⟩

theorem perform_returns {call : Net.Call} {turn : Turn} {reply : Net.Reply}
    (returned : s.perform call turn = .ok (some reply, s')) :
    s'.shim.waiting = none ∧ s'.files = s.files := by
  obtain ⟨⟨answer, t⟩, advanced, later⟩ := bind_eq_ok.mp returned
  cases answer with
  | none =>
      obtain ⟨idle, files⟩ := await_returns later
      exact ⟨idle, files.trans (files_advance advanced)⟩
  | some first =>
      obtain ⟨_, rfl⟩ := Prod.mk.inj (Except.ok.inj later)
      exact ⟨idle_of_advance advanced, files_advance advanced⟩

namespace Returned

theorem refl (idle : s.shim.waiting = none) : Returned s s := ⟨idle, fun _ => id⟩

theorem of_files (idle : s'.shim.waiting = none) (files : s'.files = s.files) : Returned s s' :=
  ⟨idle, fun _ opened => files ▸ opened⟩

theorem trans {s'' : State} (first : Returned s s') (second : Returned s' s'') :
    Returned s s'' :=
  ⟨second.idle, fun fd opened => first.opened fd (second.opened fd opened)⟩

theorem of_perform {call : Net.Call} {turn : Turn} {reply : Net.Reply}
    (returned : s.perform call turn = .ok (some reply, s')) : Returned s s' :=
  of_files (perform_returns returned).1 (perform_returns returned).2

theorem of_netCall {call : Net.Call} {turn : Turn} {reply : Reply}
    (returned : s.netCall call turn = .ok (some reply, s')) : Returned s s' := by
  obtain ⟨first, performed, _⟩ := map_some_eq_ok.mp returned
  exact of_perform performed

theorem of_socketCall {call : Net.Call} {turn : Turn} {part : Vectored.Transfer UInt8}
    (returned : s.socketCall call turn = .ok (some part, s')) : Returned s s' := by
  rw [socketCall_eq_map] at returned
  obtain ⟨first, performed, _⟩ := map_some_eq_ok.mp returned
  exact of_perform performed

theorem of_answer {reply first : Reply} (idle : s.shim.waiting = none)
    (returned : s.answer first = .ok (some reply, s')) : Returned s s' :=
  (Prod.mk.inj (Except.ok.inj returned)).2 ▸ refl idle

theorem of_serve (idle : s.shim.waiting = none) (call : Bmfs.Call)
    (other : ∀ path flags, call ≠ .open path flags) :
    Returned s { s with files := (Bmfs.serve s.files call).2 } :=
  ⟨idle, fun _ opened => Bmfs.openIndex_serve other opened⟩

theorem of_fileCall {reply : Reply} (idle : s.shim.waiting = none) {call : Bmfs.Call}
    (returned : s.fileCall call = .ok (some reply, s'))
    (other : ∀ path flags, call ≠ .open path flags) : Returned s s' :=
  (Prod.mk.inj (Except.ok.inj returned)).2 ▸ of_serve idle call other

theorem of_sysRead {fd : Int} {len : UInt64} {turn : Turn} {part : Vectored.Transfer UInt8}
    (idle : s.shim.waiting = none) (returned : s.sysRead fd len turn = .ok (some part, s')) :
    Returned s s' := by
  rw [State.sysRead] at returned
  split at returned
  next index opened =>
    obtain ⟨_, rfl⟩ := Prod.mk.inj (Except.ok.inj returned)
    have served := of_serve idle (.read fd len) nofun
    rwa [Bmfs.serve_read opened] at served
  · split at returned
    · exact of_socketCall returned
    · split at returned
      · exact (Prod.mk.inj (Except.ok.inj returned)).2 ▸ refl idle
      · split at returned
        · exact (Prod.mk.inj (Except.ok.inj returned)).2 ▸ refl idle
        · obtain ⟨_, rfl⟩ := Prod.mk.inj (Except.ok.inj returned)
          exact of_files idle rfl

theorem of_sysWrite {fd : Int} {b : Buffer} {turn : Turn} {part : Vectored.Transfer UInt8}
    (idle : s.shim.waiting = none) (returned : s.sysWrite fd b turn = .ok (some part, s')) :
    Returned s s' := by
  rw [State.sysWrite] at returned
  split at returned
  next index opened =>
    obtain ⟨_, rfl⟩ := Prod.mk.inj (Except.ok.inj returned)
    have served := of_serve idle (.write fd b.base b.len) (by simp)
    rwa [Bmfs.serve_write opened, Bmfs.Reply.state_ofResult] at served
  · split at returned
    · exact of_socketCall returned
    · split at returned
      · exact (Prod.mk.inj (Except.ok.inj returned)).2 ▸ refl idle
      · split at returned
        · obtain ⟨_, rfl⟩ := Prod.mk.inj (Except.ok.inj returned)
          exact of_files idle rfl
        · exact (Prod.mk.inj (Except.ok.inj returned)).2 ▸ refl idle

theorem of_loop {ε : Type} {transfer : State → ε → State.Result} {size : ε → Nat}
    {total part : Vectored.Transfer UInt8} {iov : List ε}
    (each : ∀ s element part s', s.shim.waiting = none →
      transfer s element = .ok (some part, s') → Returned s s')
    (idle : s.shim.waiting = none)
    (returned : Vectored.loop transfer size total iov s = .ok (some part, s')) :
    Returned s s' :=
  Vectored.loop_invariant (fun t element part t' before served =>
    before.trans (each t element part t' before.idle served)) (refl idle) returned

theorem of_transferred {result : State.Result} {reply : Reply}
    (each : ∀ part, result = .ok (some part, s') → Returned s s')
    (returned : State.transferred result = .ok (some reply, s')) : Returned s s' := by
  obtain ⟨part, served, _⟩ := map_some_eq_ok.mp returned
  exact each part served

/-- Every call but `open`. -/
theorem of_bmosSyscall {call : Syscall} {turns : Nat → Turn} {reply : Reply}
    (idle : s.shim.waiting = none) (other : ∀ path flags, call ≠ .open path flags)
    (returned : s.bmosSyscall turns call = .ok (some reply, s')) : Returned s s' := by
  cases call with
  | «open» path flags => exact absurd rfl (other path flags)
  | unlink | fstatat => exact of_fileCall idle returned nofun
  | socket | bind | listen | accept | connect | sendto | recvfrom => exact of_netCall returned
  | read fd len => exact of_transferred (fun _ => of_sysRead idle) returned
  | write fd b => exact of_transferred (fun _ => of_sysWrite idle) returned
  | readv fd iov =>
      exact of_transferred (fun _ => of_loop (fun _ _ _ _ => of_sysRead) idle) returned
  | writev fd iov =>
      exact of_transferred (fun _ => of_loop (fun _ _ _ _ => of_sysWrite) idle) returned
  | close fd =>
      rw [State.bmosSyscall, State.sysClose] at returned
      split at returned
      · exact of_fileCall idle returned nofun
      · split at returned
        · exact of_netCall returned
        · split at returned
          · exact of_answer idle returned
          · exact of_answer idle returned
  | fstat fd =>
      rw [State.bmosSyscall, State.sysFstat] at returned
      split at returned
      · exact of_fileCall idle returned nofun
      · split at returned
        · exact of_answer idle returned
        · split at returned
          · exact of_answer idle returned
          · exact of_answer idle returned
  | lseek fd offset whence =>
      rw [State.bmosSyscall, State.sysLseek] at returned
      split at returned
      · exact of_fileCall idle returned nofun
      · exact of_answer idle returned

end Returned

/-- A closed descriptor is not that of a file. -/
theorem openIndex_sysClose {fd : Int} {turn : Turn} {reply : Reply}
    (returned : s.sysClose fd turn = .ok (some reply, s')) : openIndex s'.files fd = none := by
  rw [State.sysClose] at returned
  split at returned
  · obtain ⟨_, rfl⟩ := Prod.mk.inj (Except.ok.inj returned)
    exact Bmfs.openIndex_close s.files fd
  next noFile =>
    have absent : openIndex s.files fd = none := by simpa using noFile
    split at returned
    · obtain ⟨first, performed, _⟩ := map_some_eq_ok.mp returned
      rw [(perform_returns performed).2]
      exact absent
    · split at returned
      · exact (Prod.mk.inj (Except.ok.inj returned)).2 ▸ absent
      · exact (Prod.mk.inj (Except.ok.inj returned)).2 ▸ absent

/-- Between two calls: none is being served, and the application holds the descriptors of
all open files. -/
structure Session.Sound (session : Session) : Prop where
  idle : session.state.shim.waiting = none
  listed : ∀ fd, openIndex session.state.files fd ≠ none → fd ∈ session.held

theorem Session.sound_boot (disk : Bmfs.Disk) (fails : Nat → Bool) (console : Console) :
    (Session.boot disk fails console).Sound := by
  refine ⟨rfl, fun fd opened => absurd ?_ opened⟩
  rw [openIndex, Option.filter_eq_none_iff]
  intro index _
  simp only [Bool.not_eq_true]
  rfl

/-- Only `close` takes a descriptor away. -/
theorem mem_heldAfter {held : List Int} {fd : Int} (before : fd ∈ held) (ret : Int)
    {call : Syscall} (stays : call ≠ .close fd) : fd ∈ heldAfter held ret call := by
  cases call with
  | «open» | socket | accept =>
      rw [heldAfter]
      split
      · exact List.mem_cons_of_mem _ before
      · exact before
  | close other =>
      have apart : fd ≠ other := fun same => stays (congrArg Syscall.close same.symm)
      rw [heldAfter]
      split
      · exact List.mem_filter.mpr ⟨before, decide_eq_true apart⟩
      · exact before
  | read | write | readv | writev | fstat | lseek | unlink | fstatat | bind | listen | connect
  | sendto | recvfrom => exact before

/-- What a call that returns leaves is in order. -/
theorem Session.Sound.returned {session : Session} (sound : session.Sound) {call : Syscall}
    {turns : Nat → Turn} {reply : Reply}
    (returned : session.state.bmosSyscall turns call = .ok (some reply, s')) :
    Session.Sound { state := s', held := heldAfter session.held reply.ret call } := by
  by_cases opens : ∃ path flags, call = .open path flags
  · obtain ⟨path, flags, rfl⟩ := opens
    obtain ⟨same, rfl⟩ := Prod.mk.inj (Except.ok.inj returned)
    obtain rfl := Option.some.inj same
    refine ⟨sound.idle, fun fd opened => ?_⟩
    rcases Bmfs.openIndex_bmfsOpen opened with before | rfl
    · have stays : Syscall.open path flags ≠ .close fd := nofun
      exact mem_heldAfter (sound.listed fd before) _ stays
    · have high : ¬_ < (3 : Int) := fun low => opened (Bmfs.openIndex_of_lt _ low)
      have given : 0 ≤ (Bmfs.bmfsOpen session.state.files path flags.toUInt32).1 := by omega
      change _ ∈ heldAfter session.held
        (Bmfs.bmfsOpen session.state.files path flags.toUInt32).1 (.open path flags)
      rw [heldAfter, if_pos given]
      exact List.mem_cons_self
  · have after := Returned.of_bmosSyscall sound.idle
      (fun path flags same => opens ⟨path, flags, same⟩) returned
    refine ⟨after.idle, fun fd opened => ?_⟩
    refine mem_heldAfter (sound.listed fd (after.opened fd opened)) _ ?_
    rintro rfl
    exact opened (openIndex_sysClose returned)

/-- The state of a session is in order as long as it goes on. -/
theorem Session.sound_of_run {disk : Bmfs.Disk} {fails : Nat → Bool} {console : Console}
    {inputs : List (Syscall × (Nat → Turn))} {session : Session}
    (ran : kernel.run (some (.boot disk fails console)) inputs = some session) :
    session.Sound := by
  have step (state : Option Session) (input : Syscall × (Nat → Turn))
      (sound : ∀ session, state = some session → session.Sound) (session : Session)
      (goesOn : kernel.next state input = some session) : session.Sound := by
    cases state with
    | none => exact absurd goesOn (by simp [Machine.next, kernel])
    | some before =>
        simp only [Machine.next, kernel] at goesOn
        split at goesOn
        next reply s' returned =>
          obtain rfl := Option.some.inj goesOn
          exact (sound before rfl).returned returned
        · exact absurd goesOn (by simp)
  have always : kernel.Along (fun _ _ => True) (some (.boot disk fails console)) inputs :=
    Machine.along_of_forall (fun _ _ => trivial) _ inputs
  refine Machine.run_invariant (fun state input sound _ => step state input sound) ?_ always
    session ran
  rintro _ ⟨⟩
  exact sound_boot disk fails console

end Sessions

/-- In every state that a session comes to, a call on a descriptor that the application does
not hold returns an error and changes no table, whatever lwIP does, if the call is refused by
what it finds at the descriptor, and only then. -/
theorem unheld_rejected_iff (disk : Bmfs.Disk) (fails : Nat → Bool) (console : Console)
    (inputs : List (Syscall × (Nat → Turn))) (session : Session)
    (ran : kernel.run (some (.boot disk fails console)) inputs = some session)
    (call : Syscall) (fd : Int) (takes : call.fd = some fd) (filled : call.HasElement)
    (unheld : ¬session.Holds fd) :
    (session.state.Refuses call →
      ∀ turns, Rejected session.state (session.state.bmosSyscall turns call)) ∧
    (call.Short → (∀ turns, Rejected session.state (session.state.bmosSyscall turns call)) →
      session.state.Refuses call) := by
  have sound := Session.sound_of_run ran
  simp only [Session.Holds, not_or] at unheld
  obtain ⟨zero, one, two, absent⟩ := unheld
  have foreign : session.state.Foreign fd :=
    ⟨sound.idle, not_not.mp fun opened => absent (sound.listed fd opened), zero, one, two⟩
  exact ⟨rejected_of_refuses foreign takes filled, refuses_of_rejected foreign takes⟩

/-- A session on a blank disk. -/
def freshSession : Session := .boot Bmfs.blankDisk (fun _ => false) heldKey

/-- A server accepts one of two connections that are made while it waits. -/
def servesOne : List (Syscall × (Nat → Turn)) :=
  [(.socket 2 1, fun _ => .idle), (.bind 100 16 0 8080, fun _ => .idle),
    (.listen 100, fun _ => .idle),
    (.accept 100 false none, fun _ => { Turn.idle with
      polls := [⟨[.accept 1 0x0A000202 40000, .accept 1 0x0A000203 40001], 1, .granted⟩] })]

/-- The other connection waits in slot 2. -/
def onePending : Session := (kernel.run (some freshSession) servesOne).getD freshSession

theorem onePending_reached : kernel.run (some freshSession) servesOne = some onePending := by
  have goesOn : (kernel.run (some freshSession) servesOne).isSome = true := by decide +kernel
  obtain ⟨session, ran⟩ := Option.isSome_iff_exists.mp goesOn
  rw [onePending, ran]
  rfl

theorem unusedDescriptor_rejected :
    ¬onePending.Holds 103 ∧
      Rejected onePending.state (onePending.state.bmosSyscall (fun _ => .idle) (.read 103 5)) ∧
      ¬∀ turns, Rejected onePending.state
        (onePending.state.bmosSyscall turns (.write 102 oneByte.1)) := by
  have unheld (fd : Int) (other : fd = 102 ∨ fd = 103) : ¬onePending.Holds fd := by
    simp only [Session.Holds]
    rcases other with rfl | rfl
    · decide +kernel
    · decide +kernel
  have free := unheld_rejected_iff Bmfs.blankDisk (fun _ => false) heldKey servesOne onePending
    onePending_reached (.read 103 5) 103 rfl trivial (unheld 103 (.inr rfl))
  have pending := unheld_rejected_iff Bmfs.blankDisk (fun _ => false) heldKey servesOne onePending
    onePending_reached (.write 102 oneByte.1) 102 rfl trivial (unheld 102 (.inl rfl))
  have unused : onePending.state.shim.net.isFd 103 = false := by decide +kernel
  refine ⟨unheld 103 (.inr rfl), free.1 (.inl unused) fun _ => .idle, fun rejected => ?_⟩
  rcases pending.2 trivial rejected with unused | ⟨k, slot, _, gone | failed⟩
  · exact absurd unused (by decide +kernel)
  · obtain rfl := Except.ok.inj slot
    exact absurd gone (by decide +kernel)
  · obtain rfl := Except.ok.inj slot
    exact absurd failed (by decide +kernel)

/-- The connection that waits is closed by its descriptor, which the application was never
given; and `bind` looks beyond the socket table. -/
theorem pendingConnection_closed :
    kernel.run (some freshSession) servesOne = some onePending ∧
      ¬onePending.Holds 102 ∧ (onePending.state.shim.net.socks 2).state = .connected ∧
      (onePending.state.bmosSyscall (fun _ => .idle) (.close 102)).toOption.map
        (fun result => (result.1.map Reply.ret, (result.2.shim.net.socks 2).state)) =
          some (some 0, .free) ∧
      ¬Rejected onePending.state (onePending.state.bmosSyscall (fun _ => .idle) (.close 102)) ∧
      ¬onePending.Holds 5000 ∧
      onePending.state.bmosSyscall (fun _ => .idle) (.bind 5000 16 0 8080) =
        .error .outOfBounds := by
  have closed : (onePending.state.bmosSyscall (fun _ => .idle) (.close 102)).toOption.map
      (fun result => (result.1.map Reply.ret, (result.2.shim.net.socks 2).state)) =
        some (some 0, .free) := by
    decide +kernel
  refine ⟨onePending_reached, ?_, by decide +kernel, closed, ?_, ?_, ?_⟩
  · simp only [Session.Holds]
    decide +kernel
  · rintro ⟨reply, s', returned, failed, _⟩
    rw [returned] at closed
    have zero : reply.ret = 0 := by
      simpa [Except.toOption] using congrArg (Option.map Prod.fst) closed
    exact absurd failed (by omega)
  · simp only [Session.Holds]
    decide +kernel
  · have idle := (Session.sound_of_run onePending_reached).idle
    change onePending.state.netCall (.bind 5000 16 0 8080) .idle = _
    rw [State.netCall, State.perform, advance_call idle]
    rfl

end AppPortKit.Posix
