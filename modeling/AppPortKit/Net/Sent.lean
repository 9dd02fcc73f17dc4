import AppPortKit.Net.Faults

/-!
# Sent data

A pass of `net_shim_send` enqueues a first part of the buffer, or nothing.  What lwIP does
while the call polls enqueues nothing, and leaves the socket its control block or takes it
away, so no byte is enqueued that the call does not count.
-/

namespace AppPortKit.Net

open Fallible Libc

/-- Nothing has been enqueued: every control block is as it was, or new. -/
def Tcp.Quiet (t t' : Tcp) : Prop :=
  ∀ p b', t'.pcbs p = some b' → b'.sent = [] ∨ ∃ b, t.pcbs p = some b ∧ b'.sent = b.sent

/-- A socket that is a connection, or has been one. -/
def Bsock.Attached (s : Bsock) : Prop :=
  s.state ≠ .free ∧ s.state ≠ .closed ∧ s.state ≠ .listening

/-- A socket in use keeps its control block, or loses it. -/
structure Bsock.Follows (s s' : Bsock) : Prop where
  used : s'.state ≠ .free
  pcb : s'.pcb = s.pcb ∨ s'.pcb = none
  attached : s.Attached → s'.Attached

/-- What a pass of `net_shim_send` comes to. -/
inductive State.SendOutcome (n : State) (k : Fin 16) (data : List UInt8) :
    Progress × State → Prop where
  | polls : SendOutcome n k data (.polls (.send k data), n)
  | fails {ret : Int} (failed : ret < 0) : SendOutcome n k data (.returned (.code ret), n)
  | sends {p count : Nat} {b : Pcb} (pcb : (n.socks k).pcb = some p)
      (stored : n.tcp.pcbs p = some b) (positive : 0 < count) (inside : count ≤ data.length) :
      SendOutcome n k data (.returned (.code count),
        { n with tcp := n.tcp.set p { b with sent := b.sent ++ data.take count } })

namespace Tcp

variable {t t' t'' : Tcp} {p : Nat} {b b' : Pcb}

theorem Quiet.refl (t : Tcp) : t.Quiet t := fun _ b stored => .inr ⟨b, stored, rfl⟩

theorem Quiet.trans (first : t.Quiet t') (second : t'.Quiet t'') : t.Quiet t'' := by
  intro p b'' stored
  rcases second p b'' stored with new | ⟨b', stored', same⟩
  · exact .inl new
  · rw [same]
    exact first p b' stored'

theorem quiet_free (t : Tcp) (p : Nat) : t.Quiet (t.free p) := by
  intro q c found
  by_cases here : q = p
  · simp [free, here] at found
  · exact .inr ⟨c, by simpa [free, here] using found, rfl⟩

theorem quiet_set (stored : t.pcbs p = some b) (same : b'.sent = b.sent) :
    t.Quiet (t.set p b') := by
  intro q c found
  by_cases here : q = p
  · subst here
    obtain rfl : b' = c := by simpa [set] using found
    exact .inr ⟨b, stored, same⟩
  · exact .inr ⟨c, by simpa [set, here] using found, rfl⟩

theorem quiet_alloc (t : Tcp) (new : b.sent = []) : t.Quiet (t.alloc b).2 := by
  intro q c found
  by_cases here : q = t.fresh
  · subst here
    obtain rfl : b = c := by simpa [alloc] using found
    exact .inl new
  · exact .inr ⟨c, by simpa [alloc, here] using found, rfl⟩

theorem tcpWrite_of_ok {data : List UInt8} {answer : ErrT} {result : ErrT × Tcp}
    (written : t.tcpWrite p data answer = .ok result) (ok : result.1 = .ok) :
    ∃ b, t.pcbs p = some b ∧ result.2 = t.set p { b with sent := b.sent ++ data } := by
  obtain ⟨b, connection, rest⟩ := bind_eq_ok.mp written
  split at rest
  · obtain rfl := Except.ok.inj rest
    exact absurd ok nofun
  · split at rest
    · obtain rfl := Except.ok.inj rest
      exact ⟨b, (connection_eq_ok.mp connection).1, rfl⟩
    next other =>
      obtain rfl := Except.ok.inj rest
      exact absurd ok other

end Tcp

namespace State

variable {n n' : State} {k : Fin 16}

/-! ## While a call polls -/

theorem quiet_tcpAbort {p : Nat} (result : n.tcpAbort p = .ok n') : n.tcp.Quiet n'.tcp := by
  obtain ⟨b, _, _, ⟨_, rfl⟩ | ⟨_, k, _, rfl⟩⟩ := tcpAbort_eq_ok result
  · exact Tcp.quiet_free _ _
  · exact Tcp.quiet_free _ _

theorem quiet_onAccept {arg : Option (Fin 16)} {newpcb : Option Nat} {err : ErrT}
    {result : ErrT × State} (served : n.onAccept arg newpcb err = .ok result) :
    n.tcp.Quiet result.2.tcp := by
  rcases onAccept_cases served with ⟨_, same⟩ | ⟨p, l, k, b, _, _, _, _, stored, rfl⟩
  · rw [same]
    exact .refl _
  · exact Tcp.quiet_set stored rfl

theorem quiet_offer {b : Pcb} {ip : UInt32} {port : UInt16} (result : n.offer b ip port = .ok n') :
    n.tcp.Quiet n'.tcp := by
  rw [offer] at result
  split at result
  · obtain ⟨answer, accepts, rest⟩ := bind_eq_ok.mp result
    have taken := (n.tcp.quiet_alloc rfl).trans (quiet_onAccept accepts)
    split at rest
    · obtain rfl := Except.ok.inj rest
      exact taken
    · exact taken.trans (quiet_tcpAbort rest)
  · exact (n.tcp.quiet_alloc rfl).trans (quiet_tcpAbort result)

/-- Nothing that happens in `net_poll` enqueues data. -/
theorem quiet_dispatch {event : Event} (result : n.dispatch event = .ok n') :
    n.tcp.Quiet n'.tcp := by
  cases event with
  | recv p segments =>
      simp only [dispatch] at result
      split at result
      · exact Except.ok.inj result ▸ .refl _
      · split at result
        · rw [(arrive_control result).tcp]
          exact .refl _
        · exact Except.ok.inj result ▸ .refl _
  | fin p =>
      simp only [dispatch] at result
      split at result
      · exact Except.ok.inj result ▸ .refl _
      · split at result
        · rw [(onRecv_control result).tcp]
          exact .refl _
        · exact Except.ok.inj result ▸ .refl _
  | abort p =>
      simp only [dispatch] at result
      split at result
      · exact Except.ok.inj result ▸ .refl _
      · split at result
        · exact quiet_tcpAbort result
        · exact Except.ok.inj result ▸ .refl _
  | connected p =>
      simp only [dispatch] at result
      split at result
      · exact Except.ok.inj result ▸ .refl _
      next b stored =>
        split at result
        · split at result
          · obtain ⟨k, _, rest⟩ := bind_eq_ok.mp result
            obtain rfl := Except.ok.inj rest
            exact Tcp.quiet_set stored rfl
          · obtain rfl := Except.ok.inj result
            exact Tcp.quiet_set stored rfl
        · exact Except.ok.inj result ▸ .refl _
  | accept p ip port =>
      simp only [dispatch] at result
      split at result
      · exact Except.ok.inj result ▸ .refl _
      · split at result
        · exact quiet_offer result
        · exact Except.ok.inj result ▸ .refl _
  | acceptFailed p =>
      simp only [dispatch] at result
      split at result
      · exact Except.ok.inj result ▸ .refl _
      · split at result
        · obtain ⟨answer, accepts, rest⟩ := bind_eq_ok.mp result
          obtain rfl := Except.ok.inj rest
          exact quiet_onAccept accepts
        · exact Except.ok.inj result ▸ .refl _

end State

namespace Bsock.Follows

variable {s s' s'' : Bsock}

theorem refl (used : s.state ≠ .free) : s.Follows s := ⟨used, .inl rfl, id⟩

theorem trans (first : s.Follows s') (second : s'.Follows s'') : s.Follows s'' where
  used := second.used
  pcb := by
    rcases second.pcb with same | lost
    · rw [same]
      exact first.pcb
    · exact .inr lost
  attached attached := second.attached (first.attached attached)

theorem of_same (used : s.state ≠ .free) (state : s'.state = s.state) (pcb : s'.pcb = s.pcb) :
    s.Follows s' where
  used := state ▸ used
  pcb := .inl pcb
  attached attached := by rwa [Attached, state]

/-- A socket whose connection was established or lost. -/
theorem of_attached (attached : s'.Attached) (pcb : s'.pcb = s.pcb ∨ s'.pcb = none) :
    s.Follows s' := ⟨attached.1, pcb, fun _ => attached⟩

end Bsock.Follows

namespace State

variable {n n' : State} {k : Fin 16}

theorem follows_setSock {j : Fin 16} {s : Bsock} {tcp : Tcp} (used : (n.socks k).state ≠ .free)
    (here : j = k → (n.socks k).Follows s) :
    (n.socks k).Follows (({ n with tcp }.setSock j s).socks k) := by
  rw [socks_setSock]
  by_cases same : k = j
  · rw [same, Function.update_self, ← same]
    exact here same.symm
  · rw [Function.update_of_ne same]
    exact .refl used

/-- What happens in `net_poll` to a socket in use. -/
theorem follows_dispatch {event : Event} (used : (n.socks k).state ≠ .free)
    (result : n.dispatch event = .ok n') : (n.socks k).Follows (n'.socks k) := by
  have effect : Effect { net := n, waiting := none } (.lwip event) n' := .of_dispatch rfl result
  have apart {j : Fin 16} (free : (n.socks j).state = .free) : k ≠ j := by
    rintro rfl
    exact used free
  cases effect with
  | quiet | silent | established => exact .refl used
  | data control => exact .of_same used (control.socks k).state (control.socks k).pcb
  | reset free =>
      simp only [resetSock, socks_setHistory, socks_setSock, Function.update_of_ne (apart free)]
      exact .refl used
  | socket free =>
      simp only [socks_setHistory, socks_setSock, Function.update_of_ne (apart free)]
      exact .refl used
  | listen uses | connect uses | unconnected uses => exact uses.elim
  | accept accepts => exact accepts.elim
  | close closes => exact closes.elim
  | lost =>
      refine follows_setSock used fun same =>
        .of_attached ⟨(by simp), (by simp), (by simp)⟩ (.inr rfl)
  | connected =>
      refine follows_setSock used fun same => ?_
      subst same
      exact .of_attached ⟨(by simp), (by simp), (by simp)⟩ (.inl rfl)
  | @offered _ _ _ l _ _ _ _ _ _ _ free _ _ taken =>
      subst taken
      by_cases listener : k = l
      · subst listener
        simp only [resetSock, socks_setHistory, socks_setSock, Function.update_self,
          Function.update_of_ne (apart free), Function.update_idem]
        exact .of_same used rfl rfl
      · simp only [resetSock, socks_setHistory, socks_setSock, Function.update_of_ne listener,
          Function.update_idem, Function.update_of_ne (apart free)]
        exact .refl used

/-! ## One pass of a send -/

theorem bsockWrite_outcome {data : List UInt8} {answers : Answers} (filled : data ≠ [])
    {result : Int × State} (served : n.bsockWrite k data answers = .ok result) :
    result.1 ≤ 0 ∧ result.2 = n ∨
      ∃ p b, ∃ count : Nat, (n.socks k).pcb = some p ∧ n.tcp.pcbs p = some b ∧ 0 < count ∧
        count ≤ data.length ∧ result = ((count : Int),
          { n with tcp := n.tcp.set p { b with sent := b.sent ++ data.take count } }) := by
  have reset : -ECONNRESET ≤ 0 := by decide
  rw [bsockWrite] at served
  split at served
  · obtain rfl := Except.ok.inj served
    exact .inl ⟨reset, rfl⟩
  next p pcb =>
    split at served
    · obtain rfl := Except.ok.inj served
      exact .inl ⟨reset, rfl⟩
    · obtain ⟨_, _, rest⟩ := bind_eq_ok.mp served
      split at rest
      · obtain rfl := Except.ok.inj rest
        exact .inl ⟨Int.le_refl 0, rfl⟩
      next room =>
        obtain ⟨written, writes, rest⟩ := bind_eq_ok.mp rest
        split at rest
        next enqueued =>
          obtain rfl := Except.ok.inj rest
          obtain ⟨b, stored, after⟩ := Tcp.tcpWrite_of_ok writes enqueued
          have positive := List.length_pos_iff.mpr filled
          have space : answers.sndbuf.toNat ≠ 0 := fun full => room (UInt16.toNat_inj.mp full)
          exact .inr ⟨p, b, min (min data.length answers.sndbuf.toNat) 65535, pcb, stored,
            by omega, by omega, by rw [after]⟩
        · split at rest
          · obtain rfl := Except.ok.inj rest
            exact .inl ⟨Int.le_refl 0, rfl⟩
          · obtain rfl := Except.ok.inj rest
            exact .inl ⟨reset, rfl⟩

theorem sendStep_outcome {data : List UInt8} {answers : Answers} (filled : data ≠ [])
    {result : Progress × State} (served : n.sendStep k data answers = .ok result) :
    n.SendOutcome k data result := by
  obtain ⟨written, writes, rest⟩ := bind_eq_ok.mp served
  rcases bsockWrite_outcome filled writes with ⟨nothing, same⟩ |
    ⟨p, b, count, pcb, stored, positive, inside, rfl⟩
  · rw [same] at rest
    split at rest
    · obtain rfl := Except.ok.inj rest
      exact .fails (by omega)
    · split at rest
      · obtain rfl := Except.ok.inj rest
        exact .fails (Int.neg_neg_of_pos (by decide))
      · obtain rfl := Except.ok.inj rest
        exact .polls
  · rw [if_pos (by simp; omega)] at rest
    obtain rfl := Except.ok.inj rest
    exact .sends pcb stored positive inside

end State

/-! ## No faults -/

namespace Shim

variable {s : Shim} {input : Input} {k : Fin 16}

theorem step_ok (healthy : s.Healthy) (disciplined : s.HeldOnly input)
    (sound : ∀ fault, ¬s.Breaks input fault) : ∃ result, s.step input = .ok result := by
  cases stepped : s.step input with
  | error fault => exact absurd (step_fails healthy disciplined fault stepped) (sound fault)
  | ok result => exact ⟨result, rfl⟩

theorem not_gone (healthy : s.Healthy) (attached : (s.net.socks k).Attached) : ¬s.net.Gone k := by
  rintro ⟨p, pcb, gone⟩
  exact attached.2.1 ((healthy.orderly.owned.slots k).gone p attached.1 pcb gone)

theorem not_breaks_lwip (event : Event) (fault : Fault) : ¬s.Breaks (.lwip event) fault := by
  cases fault with
  | nullPointer => exact fun ⟨_, accepts, _⟩ => accepts.elim
  | freedPcb => exact fun ⟨_, uses, _⟩ => uses.elim
  | _ => exact id

/-- A pass of a send on a socket that is or was connected. -/
theorem not_breaks_tick (healthy : s.Healthy) (attached : (s.net.socks k).Attached)
    {data : List UInt8} {start : UInt32} (polls : s.waiting = some (.send k data, start))
    (now : UInt32) (answers : Answers) (fault : Fault) : ¬s.Breaks (.tick now answers) fault := by
  cases fault with
  | nullPointer =>
      rintro ⟨j, ⟨addr, addrlen, began, accepting⟩, _⟩
      rw [polls] at accepting
      exact absurd accepting nofun
  | freedPcb =>
      rintro ⟨j, ⟨waiting, began, other, slot⟩, gone⟩
      rw [polls, Option.some.injEq, Prod.mk.injEq] at other
      obtain ⟨rfl, -⟩ := other
      obtain rfl := Option.some.inj slot
      exact not_gone healthy attached gone
  | listeningPcb =>
      rintro ⟨j, other, began, polls', _, listening⟩
      rw [polls, Option.some.injEq, Prod.mk.injEq] at polls'
      obtain ⟨same, -⟩ := polls'
      obtain ⟨rfl, -⟩ := Waiting.send.inj same
      exact attached.2.2 listening
  | _ => exact id

theorem not_breaks_send (healthy : s.Healthy) (attached : (s.net.socks k).Attached) {fd : Int}
    (slot : State.sockOfFd fd = .ok k) (data : List UInt8) (now : UInt32) (answers : Answers)
    (fault : Fault) : ¬s.Breaks (.call (.send fd data) now answers) fault := by
  cases fault with
  | nullPointer => exact fun ⟨_, accepts, _⟩ => accepts.elim
  | freedPcb =>
      rintro ⟨j, ⟨other, about, slot'⟩, gone⟩
      obtain rfl := Option.some.inj about
      obtain rfl := Except.ok.inj (slot.symm.trans slot')
      exact not_gone healthy attached gone
  | listeningPcb =>
      rintro ⟨_, _, j, slot', listening⟩
      obtain rfl := Except.ok.inj (slot.symm.trans slot')
      exact attached.2.2 listening
  | _ => exact id

end Shim

end AppPortKit.Net
