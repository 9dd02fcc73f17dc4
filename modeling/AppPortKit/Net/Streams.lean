import AppPortKit.Net.Faults

/-!
# Received data at the interface

What `recv` returns: the bytes delivered by lwIP, each once and in order.  A result of zero
is meant to be the end of the stream, but an empty packet buffer at the front of the queue
gives the same result.
-/

namespace AppPortKit.Net

open Fallible Libc LinkedList

/-! ## One pass of `recv` -/

/-- How a pass of `recv` ends. -/
inductive State.RecvOutcome (n : State) (k : Fin 16) (len : UInt64) :
    Progress → State → Prop where
  | waits (empty : (n.socks k).rxHead = none) (notEnded : (n.socks k).eof = false)
      (alive : (n.socks k).state ≠ .error) : RecvOutcome n k len (.polls (.recv k len)) n
  | ended (empty : (n.socks k).rxHead = none) (eof : (n.socks k).eof = true) :
      RecvOutcome n k len (.returned (.code 0)) n
  | reset (empty : (n.socks k).rxHead = none) (notEnded : (n.socks k).eof = false)
      (failed : (n.socks k).state = .error) :
      RecvOutcome n k len (.returned (.code (-ECONNRESET))) n
  | data {p : Nat} {b : Pbuf} {reply : Reply} {n' : State}
      (head : (n.socks k).rxHead = some p) (stored : n.pbufs.cells p = some b)
      (inside : (n.socks k).rxOff.toNat ≤ b.len.toNat)
      (copied : reply.bytes = (b.payload.drop (n.socks k).rxOff.toNat).take len.toNat)
      (ret : reply.ret = reply.bytes.length)
      (length : reply.bytes.length =
        min len.toNat (b.len.toNat - (n.socks k).rxOff.toNat))
      (eof : (n'.socks k).eof = (n.socks k).eof)
      (delivered : (n'.history k).delivered = (n.history k).delivered)
      (returned : (n'.history k).returned = (n.history k).returned ++ reply.bytes)
      (freed : n'.pbufs.freed = n.pbufs.freed ++
        if (n.socks k).rxOff.toNat + reply.bytes.length = b.len.toNat then [p] else []) :
      RecvOutcome n k len (.returned reply) n'

theorem State.consume_eof {n n' : State} {k : Fin 16} {p : Nat} {b : Pbuf} {off : UInt16}
    (result : n.consume k p b off = .ok n') : (n'.socks k).eof = (n.socks k).eof := by
  rw [consume] at result
  split at result
  · obtain ⟨pbufs, _, rest⟩ := bind_eq_ok.mp result
    obtain rfl := Except.ok.inj rest
    simp
  · obtain rfl := Except.ok.inj result
    simp

theorem State.consume_freed {n n' : State} {k : Fin 16} {p : Nat} {b : Pbuf} {off : UInt16}
    (result : n.consume k p b off = .ok n') (ref : b.ref = 1) :
    n'.pbufs.freed = n.pbufs.freed ++ if off.toNat = b.len.toNat then [p] else [] := by
  obtain rfl := Except.ok.inj ((consume_eq ref).symm.trans result)
  simp only [UInt16.toNat_inj]
  split
  · rfl
  · exact (List.append_nil _).symm

namespace Received

variable {n n' : State} {items : Fin 16 → List (Nat × List UInt8)} {k : Fin 16} {len : UInt64}

theorem bsockRead_outcome (received : Received n items) {p : Nat} {reply : Reply}
    (head : (n.socks k).rxHead = some p) (result : n.bsockRead k p len = .ok (reply, n')) :
    n.RecvOutcome k len (.returned reply) n' := by
  obtain ⟨bytes, rest, b, _, stored, carries, _⟩ := (received.queues k).first head
  obtain ⟨b', consumed, found, inside, consumes, _, sameHistory, _⟩ := received.consume head len
  obtain rfl := Except.ok.inj ((Pbufs.get_of_cell stored).symm.trans found)
  obtain ⟨_, found', rest⟩ := bind_eq_ok.mp result
  obtain rfl := Except.ok.inj (found.symm.trans found')
  obtain ⟨_, consumes', rest⟩ := bind_eq_ok.mp rest
  obtain rfl := Except.ok.inj (consumes.symm.trans consumes')
  obtain ⟨credited, credits, rest⟩ := bind_eq_ok.mp rest
  obtain ⟨rfl, rfl⟩ := Prod.mk.inj (Except.ok.inj rest)
  have count := toNat_readCount len inside
  have small : (readCount len b (n.socks k).rxOff).toNat < 65536 := by
    have := b.len.toNat_lt
    omega
  have left : (b.payload.drop (n.socks k).rxOff.toNat).length =
      b.len.toNat - (n.socks k).rxOff.toNat := by
    rw [List.length_drop, carries.payload, ← carries.len]
  have length : ((b.payload.drop (n.socks k).rxOff.toNat).take
      (readCount len b (n.socks k).rxOff).toNat).length =
      (readCount len b (n.socks k).rxOff).toNat := by
    rw [List.length_take, left]
    omega
  have copied : (b.payload.drop (n.socks k).rxOff.toNat).take
      (readCount len b (n.socks k).rxOff).toNat =
      (b.payload.drop (n.socks k).rxOff.toNat).take len.toNat := by
    rw [List.take_eq_take_iff, left]
    omega
  have ret : Word64.signed (readCount len b (n.socks k).rxOff) =
      (readCount len b (n.socks k).rxOff).toNat := Word64.signed_of_lt (by omega)
  have eof := State.consume_eof consumes
  have freed := State.consume_freed consumes carries.ref
  rw [toNat_off_readCount len inside, ← length] at freed
  rcases State.credit_eq_ok credits with ⟨rfl, _⟩ | rfl
  · refine .data head stored inside copied ?_ (length.trans count) eof ?_ ?_ freed
    · exact ret.trans (congrArg _ length.symm)
    · simp [sameHistory]
    · simp [sameHistory]
  · refine .data head stored inside copied ?_ (length.trans count) eof ?_ ?_ freed
    · exact ret.trans (congrArg _ length.symm)
    · simp [sameHistory]
    · simp [sameHistory]

theorem recvStep_outcome (received : Received n items) {progress : Progress}
    (served : n.recvStep k len = .ok (progress, n')) : n.RecvOutcome k len progress n' := by
  rw [State.recvStep] at served
  split at served
  next p head =>
    obtain ⟨⟨reply, m⟩, reads, rest⟩ := bind_eq_ok.mp served
    obtain ⟨rfl, rfl⟩ := Prod.mk.inj (Except.ok.inj rest)
    exact received.bsockRead_outcome head reads
  next empty =>
    split at served
    next eof =>
      obtain ⟨rfl, rfl⟩ := Prod.mk.inj (Except.ok.inj served)
      exact .ended empty eof
    next notEnded =>
      have notEof : (n.socks k).eof = false := by simpa using notEnded
      split at served
      next failed =>
        obtain ⟨rfl, rfl⟩ := Prod.mk.inj (Except.ok.inj served)
        exact .reset empty notEof failed
      next alive =>
        obtain ⟨rfl, rfl⟩ := Prod.mk.inj (Except.ok.inj served)
        exact .waits empty notEof alive

end Received

/-- A pass of `recv` for at least one byte is one of the loop. -/
theorem Shim.step_reads {s : Shim} {k : Fin 16} {len : UInt64} {input : Input}
    (reads : s.Reads k len input) (positive : len ≠ 0) :
    ∃ start, s.step input = (s.net.recvStep k len).map (settle start) := by
  cases input with
  | call call now answers =>
      cases call with
      | recv fd wanted =>
          obtain ⟨idle, slot, rfl⟩ := reads
          refine ⟨now, ?_⟩
          simp only [step, idle, State.enter, slot, bind, Except.bind, if_neg positive]
      | _ => exact reads.elim
  | lwip event => exact reads.elim
  | tick now answers =>
      obtain ⟨start, polling, early⟩ := reads
      refine ⟨start, ?_⟩
      simp only [step, polling, if_neg early, State.resume]

theorem Shim.step_reads_outcome {s : Shim} {k : Fin 16} {len : UInt64} {input : Input}
    {result : Option Reply × Shim} (healthy : s.Healthy) (reads : s.Reads k len input)
    (positive : len ≠ 0) (stepped : s.step input = .ok result) :
    ∃ progress, s.net.RecvOutcome k len progress result.2.net := by
  obtain ⟨items, received⟩ := healthy.received
  obtain ⟨start, step⟩ := step_reads reads positive
  rw [step] at stepped
  obtain ⟨served, serves, rfl⟩ := map_eq_ok.mp stepped
  rw [Effect.net_settle]
  exact ⟨served.1, received.recvStep_outcome serves⟩

theorem Shim.step_reads_returns {s s' : Shim} {k : Fin 16} {len : UInt64} {input : Input}
    {reply : Reply} (healthy : s.Healthy) (reads : s.Reads k len input) (positive : len ≠ 0)
    (stepped : s.step input = .ok (some reply, s')) :
    s.net.RecvOutcome k len (.returned reply) s'.net := by
  obtain ⟨items, received⟩ := healthy.received
  obtain ⟨start, step⟩ := step_reads reads positive
  rw [step] at stepped
  obtain ⟨served, serves, settled⟩ := map_eq_ok.mp stepped
  rw [settle_returns settled] at serves
  exact received.recvStep_outcome serves

/-! ## When packet buffers are freed -/

/-- The first packet buffer of a socket is returned up to its last byte. -/
def State.ReadsOut (n n' : State) (k : Fin 16) (p : Nat) : Prop :=
  (n.socks k).rxHead = some p ∧ ∃ b, n.pbufs.cells p = some b ∧
    (n'.history k).returned =
      (n.history k).returned ++ b.payload.drop (n.socks k).rxOff.toNat

/-- A packet buffer is in the receive queue of a socket. -/
def State.Queues (n : State) (k : Fin 16) (p : Nat) : Prop :=
  ∃ items, n.pbufs.Chain (n.socks k).rxHead items ∧ p ∈ addresses items

/-- A step frees the packet buffers that it reads out and those of the socket that it
closes, and no others that were there before. -/
structure Shim.FreesOnTime (s : Shim) (input : Input) (n' : State) : Prop where
  before : s.net.pbufs.freed <+: n'.pbufs.freed
  consumed : ∀ k len p, s.Reads k len input → len ≠ 0 → s.net.ReadsOut n' k p →
    p ∈ n'.pbufs.freed
  closed : ∀ k p, input.Closes k → s.waiting = none → s.net.Queues k p → p ∈ n'.pbufs.freed
  only : ∀ p < s.net.pbufs.fresh, p ∉ s.net.pbufs.freed → p ∈ n'.pbufs.freed →
    (∃ k len, s.Reads k len input ∧ s.net.ReadsOut n' k p) ∨
      ∃ k, input.Closes k ∧ s.net.Queues k p

/-- Every step frees on time. -/
def Shim.Frees (s : Shim) (input : Input) : Prop :=
  ∀ result, s.step input = .ok result → s.FreesOnTime input result.2.net

namespace Received

variable {s : Shim} {n' : State} {items : Fin 16 → List (Nat × List UInt8)} {input : Input}
  {result : Option Reply × Shim} {k : Fin 16} {p : Nat}

/-- A read frees the first packet buffer exactly if it returns the last byte of it. -/
theorem freed_of_outcome (received : Received s.net items) {len : UInt64} {progress : Progress}
    (outcome : s.net.RecvOutcome k len progress n') (head : (s.net.socks k).rxHead = some p) :
    n'.pbufs.freed = s.net.pbufs.freed ∧ ¬s.net.ReadsOut n' k p ∨
      n'.pbufs.freed = s.net.pbufs.freed ++ [p] ∧ s.net.ReadsOut n' k p := by
  obtain ⟨_, _, b, _, stored, carries, _⟩ := (received.queues k).first head
  cases outcome with
  | waits empty | ended empty | reset empty => exact absurd (empty.symm.trans head) nofun
  | data head' stored' inside copied _ _ _ _ returned freed =>
      obtain rfl := Option.some.inj (head.symm.trans head')
      obtain rfl := Option.some.inj (stored.symm.trans stored')
      have left : (b.payload.drop (s.net.socks k).rxOff.toNat).length =
          b.len.toNat - (s.net.socks k).rxOff.toNat := by
        rw [List.length_drop, carries.payload, ← carries.len]
      split at freed
      next finished =>
        refine .inr ⟨freed, head, b, stored, ?_⟩
        rw [returned, copied, List.take_of_length_le]
        rw [copied, List.length_take] at finished
        omega
      next unfinished =>
        refine .inl ⟨freed.trans (List.append_nil _), ?_⟩
        rintro ⟨_, b', stored'', whole⟩
        obtain rfl := Option.some.inj (stored.symm.trans stored'')
        rw [List.append_cancel_left (returned.symm.trans whole), left] at unfinished
        omega

/-- The packet buffers that a step frees. -/
theorem freed_step (received : Received s.net items) (owned : Owned s.net)
    (effect : Effect s input n') :
    ∃ gone, n'.pbufs.freed = s.net.pbufs.freed ++ gone ∧ ∀ p ∈ gone, s.net.pbufs.fresh ≤ p ∨
      (∃ k len, s.Reads k len input ∧ s.net.ReadsOut n' k p) ∨
      ∃ k, input.Closes k ∧ s.net.Queues k p := by
  have nothing : ∀ m : State, m.pbufs = s.net.pbufs → ∃ gone,
      m.pbufs.freed = s.net.pbufs.freed ++ gone ∧ ∀ p ∈ gone, s.net.pbufs.fresh ≤ p ∨
        (∃ k len, s.Reads k len input ∧ s.net.ReadsOut m k p) ∨
        ∃ k, input.Closes k ∧ s.net.Queues k p :=
    fun m same => ⟨[], by rw [same, List.append_nil], by simp⟩
  cases effect with
  | data control moves =>
      cases moves with
      | @arrive q b segments _ stored _ result =>
          obtain ⟨arrived, _, gone, arrives, _, freed, fresh⟩ :=
            received.arrive segments fun recv => by
              obtain ⟨k, arg, used, _⟩ := (owned.pcbs q b stored).registered (.inl recv)
              exact ⟨k, arg, used⟩
          obtain rfl := Except.ok.inj (arrives.symm.trans result)
          exact ⟨gone, freed, fun p member => .inl (fresh p member)⟩
      | fin _ _ _ result =>
          obtain ⟨k, _, ended⟩ := bind_eq_ok.mp result
          obtain rfl := Except.ok.inj ended
          exact nothing _ rfl
      | @read k p len reply _ reads head result =>
          rcases received.freed_of_outcome (received.bsockRead_outcome head result) head with
            ⟨same, _⟩ | ⟨freed, out⟩
          · exact ⟨[], by rw [same, List.append_nil], by simp⟩
          · refine ⟨[p], freed, fun q member => .inr (.inl ⟨k, len, reads, ?_⟩)⟩
            rwa [List.mem_singleton.mp member]
  | @close k tcp pbufs closes _ drained =>
      obtain rfl := Except.ok.inj ((received.drain k).symm.trans drained)
      exact ⟨addresses (items k), Pbufs.freed_freeAll _ _, fun p member =>
        .inr (.inr ⟨k, closes, items k, (received.queues k).chain, member⟩)⟩
  | offered _ _ _ _ _ _ _ _ isTaken => exact nothing _ (isTaken ▸ rfl)
  | _ => exact nothing _ rfl

/-- Closing frees what is left in the queue. -/
theorem freed_of_close (received : Received s.net items) (closes : input.Closes k)
    (idle : s.waiting = none) (stepped : s.step input = .ok result) :
    result.2.net.pbufs.freed = s.net.pbufs.freed ++ addresses (items k) := by
  cases input with
  | lwip event => exact closes.elim
  | tick now answers => exact closes.elim
  | call call now answers =>
      cases call with
      | close fd =>
          have slot : State.sockOfFd fd = .ok k := closes
          simp only [Shim.step, idle, State.enter, slot, bind, Except.bind] at stepped
          obtain ⟨_, served, rfl⟩ := map_eq_ok.mp stepped
          obtain ⟨r, closed, rfl⟩ := map_eq_ok.mp served
          obtain ⟨m, closesPcb, rest⟩ := bind_eq_ok.mp closed
          obtain ⟨tcp, rfl, _⟩ := State.closePcb_eq_ok closesPcb
          obtain ⟨pbufs, drained, rest⟩ := bind_eq_ok.mp rest
          obtain rfl := Except.ok.inj ((received.drain k).symm.trans drained)
          obtain rfl := Except.ok.inj rest
          exact Pbufs.freed_freeAll _ _
      | _ => exact closes.elim

end Received

theorem Shim.Healthy.frees {s : Shim} (healthy : s.Healthy) (input : Input) : s.Frees input := by
  intro result stepped
  obtain ⟨items, received⟩ := healthy.received
  obtain ⟨gone, freed, reasons⟩ :=
    received.freed_step healthy.orderly.owned (Effect.of_step stepped)
  constructor
  · exact ⟨gone, freed.symm⟩
  · intro k len p reads positive out
    obtain ⟨progress, outcome⟩ := step_reads_outcome healthy reads positive stepped
    rcases received.freed_of_outcome outcome out.1 with ⟨_, notOut⟩ | ⟨freed, _⟩
    · exact absurd out notOut
    · simp [freed]
  · rintro k p closes idle ⟨others, chain, member⟩
    rw [received.freed_of_close closes idle stepped, (received.queues k).chain.unique chain]
    exact List.mem_append_right _ member
  · intro p old notFreed isFreed
    rw [freed, List.mem_append] at isFreed
    exact (reasons p (isFreed.resolve_left notFreed)).resolve_left (Nat.not_le.mpr old)

/-! ## Every byte once and in order -/

/-- What `recv` returns is added to the bytes returned so far. -/
def Shim.ReturnsNext (s : Shim) (input : Input) : Prop :=
  ∀ k len reply s', s.Reads k len input → len ≠ 0 → s.step input = .ok (some reply, s') →
    (s'.net.history k).returned = (s.net.history k).returned ++ reply.bytes ∧
      (reply.ret = reply.bytes.length ∨ reply.ret < 0 ∧ reply.bytes = [])

theorem Shim.Healthy.returnsNext {s : Shim} (healthy : s.Healthy) (input : Input) :
    s.ReturnsNext input := by
  intro k len reply s' reads positive stepped
  have outcome := step_reads_returns healthy reads positive stepped
  generalize s'.net = after at outcome
  cases outcome with
  | ended => exact ⟨(List.append_nil _).symm, .inl rfl⟩
  | reset => exact ⟨(List.append_nil _).symm, .inr ⟨Int.neg_neg_of_pos (by decide), rfl⟩⟩
  | data _ _ _ _ ret _ _ _ returned => exact ⟨returned, .inl ret⟩

/-- In every state that a disciplined application can reach, the receive queue of every
socket holds what was delivered and not returned, the bytes returned are the first of
those delivered and were credited, and every packet buffer is in one queue or was freed
once: when its last byte was returned, or when its socket was closed.  No packet buffer is
used after it was freed. -/
theorem received_once_in_order {inputs : List Input}
    (disciplined : Shim.Guarded Shim.HeldOnly inputs) :
    Holds (fun s => ∃ items, Received s.net items) (shim.run (.ok .boot) inputs) ∧
    Shim.Guarded Shim.ReturnsNext inputs ∧ Shim.Guarded Shim.Frees inputs ∧
    FailsOnly (fun fault => fault ≠ .freedPbuf ∧ fault ≠ .pbufAssertion ∧ fault ≠ .endlessChain)
      (shim.run (.ok .boot) inputs) := by
  refine ⟨fun s reached => (Shim.Healthy.run disciplined s reached).received,
    Shim.Healthy.along (fun s input healthy _ => healthy.returnsNext input) disciplined,
    Shim.Healthy.along (fun s input healthy _ => healthy.frees input) disciplined,
    Shim.Healthy.run_fails (fun s input fault breaks => ?_) disciplined⟩
  cases fault with
  | freedPbuf | pbufAssertion | endlessChain => exact breaks.elim
  | _ => simp

/-- A connection on which three bytes arrive in two packet buffers, an empty one between
them, and are read in two parts. -/
def threeBytes : List Input :=
  [.call (.socket 2 1) 0 .granted, .call (.connect 100 16 0x0A000202 80) 0 .granted,
    .lwip (.connected 0), .tick 1 .granted,
    .lwip (.recv 0 [⟨[97], by decide⟩, ⟨[], by decide⟩, ⟨[98, 99], by decide⟩]),
    .call (.recv 100 1) 1 .granted, .call (.recv 100 4) 1 .granted,
    .call (.recv 100 1) 1 .granted, .call (.close 100) 1 .granted]

theorem threeBytes_in_order :
    (shim.replies (.ok .boot) threeBytes).map (Option.map Reply.bytes) =
      [some [], none, none, some [], none, some [97], some [], some [98], some []] ∧
    (shim.run (.ok .boot) threeBytes).toOption.map (fun s => s.net.pbufs.freed) =
      some [2, 1, 0] ∧
    Holds (fun s => ∃ items, Received s.net items) (shim.run (.ok .boot) threeBytes) ∧
    Shim.Guarded Shim.Frees threeBytes :=
  have inOrder := @received_once_in_order threeBytes (by decide +kernel)
  ⟨by decide +kernel, by decide +kernel, inOrder.1, inOrder.2.2.1⟩

/-! ## The end of the stream -/

/-- The peer has closed the connection, and everything it sent has been returned. -/
def State.EndOfStream (n : State) (k : Fin 16) : Prop :=
  (n.socks k).eof = true ∧ (n.history k).returned = (n.history k).delivered

/-- The first packet buffer of the receive queue has no bytes left. -/
def State.EmptyHead (n : State) (k : Fin 16) : Prop :=
  ∃ p b, (n.socks k).rxHead = some p ∧ n.pbufs.cells p = some b ∧
    b.len.toNat = (n.socks k).rxOff.toNat

/-- `recv` returns zero at the end of the stream only. -/
def Shim.ZeroAtEnd (s : Shim) (input : Input) : Prop :=
  ∀ k len reply s', s.Reads k len input → len ≠ 0 → s.step input = .ok (some reply, s') →
    reply.ret = 0 → s'.net.EndOfStream k

/-- `recv` finds an empty packet buffer only at the end of the stream. -/
def Shim.NoEmptyHead (s : Shim) (input : Input) : Prop :=
  ∀ k len, s.Reads k len input → len ≠ 0 → s.net.EmptyHead k → s.net.EndOfStream k

namespace Shim.Healthy

variable {s : Shim} {input : Input} {k : Fin 16} {len : UInt64}

/-- With nothing queued, everything that was delivered has been returned. -/
theorem returned_of_empty (healthy : s.Healthy) (used : (s.net.socks k).state ≠ .free)
    (empty : (s.net.socks k).rxHead = none) :
    (s.net.history k).returned = (s.net.history k).delivered := by
  obtain ⟨items, received⟩ := healthy.received
  have mine := received.queues k
  have noItems : items k = [] := by
    cases queue : items k with
    | nil => rfl
    | cons entry rest =>
        have chain := mine.chain
        rw [queue] at chain
        exact absurd (empty.symm.trans chain.1) nofun
  simp [mine.stream used, noItems, chainBytes]

theorem reads_uses (reads : s.Reads k len input) : s.Uses k input := by
  cases input with
  | call call now answers =>
      cases call with
      | recv fd wanted => exact ⟨fd, rfl, reads.2.1⟩
      | _ => exact reads.elim
  | lwip event => exact reads.elim
  | tick now answers =>
      obtain ⟨start, polling, _⟩ := reads
      exact ⟨_, start, polling, rfl⟩

/-- A `recv` that finds an empty packet buffer returns zero. -/
theorem zero_of_emptyHead (healthy : s.Healthy) (disciplined : s.HeldOnly input)
    (reads : s.Reads k len input) (positive : len ≠ 0) (emptyHead : s.net.EmptyHead k) :
    ∃ reply s', s.step input = .ok (some reply, s') ∧ reply.ret = 0 ∧
      (s'.net.EndOfStream k → s.net.EndOfStream k) := by
  obtain ⟨p, b, head, stored, finished⟩ := emptyHead
  obtain ⟨items, received⟩ := healthy.received
  have used := healthy.used disciplined k (reads_uses reads)
  cases serves : s.net.recvStep k len with
  | error fault =>
      exact (State.recvStep_fails healthy.orderly.owned healthy.dry received used len fault
        serves).elim
  | ok served =>
      obtain ⟨start, step⟩ := step_reads reads positive
      rw [step, serves]
      obtain ⟨progress, n'⟩ := served
      cases received.recvStep_outcome serves with
      | waits empty | ended empty | reset empty => exact absurd (empty.symm.trans head) nofun
      | data head' stored' inside _ ret length eof delivered returned =>
          obtain rfl := Option.some.inj (head.symm.trans head')
          obtain rfl := Option.some.inj (stored.symm.trans stored')
          rw [finished, Nat.sub_self, Nat.min_zero] at length
          refine ⟨_, _, rfl, by rw [ret, length]; rfl, fun ended => ?_⟩
          rw [List.eq_nil_of_length_eq_zero length, List.append_nil] at returned
          exact ⟨eof ▸ ended.1, returned.symm.trans (ended.2.trans delivered)⟩

theorem zeroAtEnd_iff (healthy : s.Healthy) (disciplined : s.HeldOnly input) :
    s.ZeroAtEnd input ↔ s.NoEmptyHead input := by
  constructor
  · intro zero k len reads positive emptyHead
    obtain ⟨reply, s', stepped, isZero, back⟩ :=
      healthy.zero_of_emptyHead disciplined reads positive emptyHead
    exact back (zero k len reply s' reads positive stepped isZero)
  · intro noEmpty k len reply s' reads positive stepped isZero
    have used := healthy.used disciplined k (reads_uses reads)
    have outcome := step_reads_returns healthy reads positive stepped
    rw [State.EndOfStream]
    generalize s'.net = after at outcome
    cases outcome with
    | ended empty eof => exact ⟨eof, healthy.returned_of_empty used empty⟩
    | reset => exact absurd isZero (by decide)
    | @data p b _ _ head stored inside _ ret length eof delivered returned =>
        have nothing : reply.bytes.length = 0 := by
          rw [ret] at isZero
          exact_mod_cast isZero
        have nonzero : len.toNat ≠ 0 := fun zero => positive (UInt64.toNat_inj.mp zero)
        have finished : b.len.toNat = (s.net.socks k).rxOff.toNat := by omega
        obtain ⟨ended, all⟩ := noEmpty k len reads positive ⟨p, b, head, stored, finished⟩
        rw [eof, delivered, returned, List.eq_nil_of_length_eq_zero nothing, List.append_nil]
        exact ⟨ended, all⟩

end Shim.Healthy

/-- `recv` returns zero at the end of the stream only, exactly if it never finds an empty
packet buffer before that. -/
theorem recv_zero_iff {inputs : List Input}
    (disciplined : Shim.Guarded Shim.HeldOnly inputs) :
    Shim.Guarded Shim.ZeroAtEnd inputs ↔ Shim.Guarded Shim.NoEmptyHead inputs :=
  Shim.Healthy.guarded_iff (fun _ _ healthy held => healthy.zeroAtEnd_iff held) disciplined

theorem recv_zero_iff_threeBytes :
    Shim.Guarded Shim.HeldOnly threeBytes ∧
      (Shim.Guarded Shim.ZeroAtEnd threeBytes ↔ Shim.Guarded Shim.NoEmptyHead threeBytes) :=
  ⟨by decide +kernel, recv_zero_iff (by decide +kernel)⟩

/-- One byte arrives behind an empty packet buffer. -/
def emptyFirst : List Input :=
  [.call (.socket 2 1) 0 .granted, .call (.connect 100 16 0x0A000202 80) 0 .granted,
    .lwip (.connected 0), .tick 1 .granted,
    .lwip (.recv 0 [⟨[], by decide⟩, ⟨[97], by decide⟩]), .call (.recv 100 4) 1 .granted]

/-- The result is zero, with a byte still to come and the connection open. -/
theorem emptyFirst_returns_zero :
    Shim.Guarded Shim.HeldOnly emptyFirst ∧
    (shim.replies (.ok .boot) emptyFirst).map (Option.map Reply.ret) =
      [some 100, none, none, some 0, none, some 0] ∧
    (shim.run (.ok .boot) emptyFirst).toOption.map (fun s =>
      ((s.net.socks 0).eof, (s.net.history 0).returned, (s.net.history 0).delivered)) =
      some (false, [], [97]) := by
  refine ⟨?_, ?_, ?_⟩ <;> decide +kernel

end AppPortKit.Net
