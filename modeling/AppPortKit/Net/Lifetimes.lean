import AppPortKit.Net.Faults

/-!
# Control blocks that outlive their use

A socket that is bound to an address has no error callback.  If lwIP gives up its control
block, the socket is left with a pointer to freed memory; that is the only way this can
happen.  A listening socket is told from a connection by its state alone, which `connect`
and `send` do not look at.
-/

namespace AppPortKit.Net

open Fallible Libc

/-! ## Freed control blocks -/

/-- Every socket in use has a control block of its own that lwIP has not freed, or none
after an error, and every callback that lwIP may make goes to a socket in use. -/
structure State.HoldsLive (n : State) : Prop where
  alive : ∀ k, (n.socks k).state ≠ .free →
    (n.socks k).pcb = none ∧ (n.socks k).state = .error ∨
      ∃ p b, (n.socks k).pcb = some p ∧ n.tcp.pcbs p = some b ∧ b.arg = some k
  distinct : ∀ j k p, (n.socks j).state ≠ .free → (n.socks k).state ≠ .free →
    (n.socks j).pcb = some p → (n.socks k).pcb = some p → j = k
  callbacks : ∀ p b, n.tcp.pcbs p = some b → b.Registered →
    ∃ k, b.arg = some k ∧ (n.socks k).state ≠ .free

/-- No socket in use has a freed control block. -/
def State.NoneGone (n : State) : Prop :=
  ∀ k, (n.socks k).state ≠ .free → ¬n.Gone k

/-- lwIP does not give up the control block of a socket that is bound to an address, and
neither listening nor connected. -/
def Shim.KeepsBound (s : Shim) (input : Input) : Prop :=
  ∀ p k b, input = .lwip (.abort p) → (s.net.socks k).state = .closed →
    (s.net.socks k).pcb = some p → s.net.tcp.pcbs p = some b → b.localIp = 0

namespace State

variable {s : Shim} {n n' : State} {input : Input}

theorem holdsLive_iff (owned : Owned n) : n.HoldsLive ↔ n.NoneGone := by
  constructor
  · rintro live k used ⟨p, pcb, gone⟩
    rcases live.alive k used with ⟨null, _⟩ | ⟨q, b, has, stored, _⟩
    · exact absurd (null.symm.trans pcb) nofun
    · obtain rfl := Option.some.inj (pcb.symm.trans has)
      exact absurd (gone.symm.trans stored) nofun
  · intro noneGone
    refine ⟨fun k used => ?_, fun j k p _ _ => owned.distinct j k p,
      fun p b stored registered => ?_⟩
    · cases pcb : (n.socks k).pcb with
      | none => exact .inl ⟨rfl, (owned.slots k).null used pcb⟩
      | some p =>
          cases stored : n.tcp.pcbs p with
          | none => exact absurd ⟨p, pcb, stored⟩ (noneGone k used)
          | some b =>
              exact .inr ⟨p, b, rfl, stored, ((owned.slots k).owns p b used pcb stored).1⟩
    · obtain ⟨k, arg, used, _⟩ := (owned.pcbs p b stored).registered registered
      exact ⟨k, arg, used⟩

namespace NoneGone

theorem boot : State.boot.NoneGone := fun _ used => absurd rfl used

/-- One socket is changed, with its control block and new control blocks. -/
theorem edit (noneGone : n.NoneGone) (owned : Owned n) (k : Fin 16)
    (others : ∀ j ≠ k, (n'.socks j).state = (n.socks j).state ∧
      (n'.socks j).pcb = (n.socks j).pcb)
    (kept : ∀ p < n.tcp.fresh, (n.socks k).pcb ≠ some p → n'.tcp.pcbs p = n.tcp.pcbs p)
    (mine : (n'.socks k).state ≠ .free → ¬n'.Gone k) : n'.NoneGone := by
  intro j used gone
  by_cases here : j = k
  · exact mine (here ▸ used) (here ▸ gone)
  · obtain ⟨state, pcb⟩ := others j here
    obtain ⟨p, has, freed⟩ := gone
    rw [pcb] at has
    have old := (owned.slots j).below p has
    have notMine : (n.socks k).pcb ≠ some p := fun also =>
      here (owned.distinct j k p has also)
    exact noneGone j (state ▸ used) ⟨p, has, kept p old notMine ▸ freed⟩

/-- Sockets keep their control blocks, and those are not freed. -/
theorem agree (noneGone : n.NoneGone) (owned : Owned n)
    (state : ∀ k, (n'.socks k).state = (n.socks k).state)
    (pcb : ∀ k, (n'.socks k).pcb = (n.socks k).pcb)
    (kept : ∀ p b, p < n.tcp.fresh → n.tcp.pcbs p = some b → ∃ b', n'.tcp.pcbs p = some b') :
    n'.NoneGone := by
  rintro k used ⟨p, has, freed⟩
  rw [state] at used
  rw [pcb] at has
  refine noneGone k used ⟨p, has, ?_⟩
  by_contra alive
  obtain ⟨b, stored⟩ := Option.ne_none_iff_exists'.mp alive
  obtain ⟨b', stored'⟩ := kept p b ((owned.slots k).below p has) stored
  exact absurd (freed.symm.trans stored') nofun

theorem step (noneGone : s.net.NoneGone) (owned : Owned s.net) (keeps : s.KeepsBound input)
    (effect : Effect s input n') : n'.NoneGone := by
  cases effect with
  | quiet alike => exact noneGone.agree owned (fun _ => rfl) (fun _ => rfl) alike.kept
  | data control =>
      refine noneGone.agree owned (fun k => (control.socks k).state)
        (fun k => (control.socks k).pcb) fun p b _ stored => ⟨b, control.tcp ▸ stored⟩
  | @reset k _ free =>
      refine noneGone.edit owned k (fun j different => ?_) (fun _ _ _ => rfl) fun used => ?_
      · simp [resetSock, different]
      · exact absurd (by simp [resetSock, Bsock.zero]) used
  | @socket k _ free =>
      refine noneGone.edit owned k (fun j different => ?_) (fun p old _ => ?_) fun _ => ?_
      · simp [different]
      · exact Tcp.pcbs_alloc_of_lt s.net.tcp _ old
      · simp [Gone, Tcp.alloc]
  | @listen k p b listener uses pcb =>
      refine noneGone.edit owned k (fun j different => ?_) (fun q old notMine => ?_) fun _ => ?_
      · simp [different]
      · exact (Tcp.pcbs_alloc_of_lt (s.net.tcp.free p) _ old).trans
          (Tcp.pcbs_free_of_notMine pcb notMine s.net.tcp)
      · simp [Gone, Tcp.alloc]
  | @accept l =>
      refine noneGone.agree owned (s.net.state_handOut l _) (fun j => ?_)
        fun p b _ stored => ⟨b, stored⟩
      by_cases here : j = l
      · rw [here, s.net.socks_handOut_self]
        rfl
      · rw [s.net.socks_handOut_of_ne _ here]
  | @connect k p b b' state uses pcb =>
      refine noneGone.edit owned k (fun j different => ?_) (fun q old notMine => ?_) fun _ => ?_
      · simp [different]
      · exact Tcp.pcbs_set_of_notMine pcb notMine s.net.tcp _
      · simp [Gone, pcb, Tcp.set]
  | @unconnected k uses pcb =>
      refine noneGone.edit owned k (fun j different => ?_) (fun _ _ _ => rfl) fun _ => ?_
      · simp [different]
      · simp [Gone, pcb]
  | @close k tcp pbufs closes releases =>
      refine noneGone.edit owned k (fun j different => ?_) (fun q old notMine => ?_)
        fun used => absurd (by simp) used
      · simp [different]
      · exact releases.pcbs_of_notMine notMine
  | @silent p b event stored abortable errf =>
      rintro k used ⟨q, pcb, freed⟩
      by_cases same : q = p
      · -- The socket is closed, so its control block was not given up.
        subst same
        have fits := ((owned.slots k).owns q b used pcb stored).2
        have closed : (s.net.socks k).state = .closed :=
          (fits.errf_iff.mp errf).resolve_right fun listening =>
            abortable.1 (fits.listen_iff.mpr listening)
        have state : b.state = .closed := by
          rw [closed] at fits
          exact fits.1
        exact abortable.2 state (keeps q k b event closed pcb stored)
      · exact noneGone k used ⟨q, pcb, by simpa [Tcp.free, same] using freed⟩
  | @lost p b k _ stored errf arg =>
      obtain ⟨_, pcb, _⟩ := owned.owner stored (.inr (.inl errf)) arg
      refine noneGone.edit owned k (fun j different => ?_) (fun q old notMine => ?_) fun _ => ?_
      · simp [different]
      · exact Tcp.pcbs_free_of_notMine pcb notMine s.net.tcp
      · simp [Gone]
  | @established p b stored =>
      refine noneGone.agree owned (fun _ => rfl) (fun _ => rfl) fun q c _ found => ?_
      by_cases same : q = p
      · exact ⟨_, by simp [Tcp.set, same]; rfl⟩
      · exact ⟨c, by simpa [Tcp.set, same] using found⟩
  | @connected p b k stored synSent callback arg =>
      obtain ⟨_, pcb, _⟩ := owned.owner stored (.inr (.inr (.inr ⟨synSent, callback⟩))) arg
      refine noneGone.edit owned k (fun j different => ?_) (fun q old notMine => ?_) fun _ => ?_
      · simp [different]
      · exact Tcp.pcbs_set_of_notMine pcb notMine s.net.tcp _
      · simp [Gone, pcb, Tcp.set]
  | @offered q b new l k taken stored listening accept arg room free state serves isTaken =>
      obtain ⟨_, apart⟩ := owned.listener stored listening accept arg free
      have view := offered_of_ne apart isTaken
      refine noneGone.edit owned k (fun j different => ?_) (fun p old _ => ?_) fun _ => ?_
      · by_cases isListener : j = l
        · rw [isListener, view.listener]
          exact ⟨rfl, rfl⟩
        · rw [view.others j isListener different]
          exact ⟨rfl, rfl⟩
      · simp [isTaken, resetSock, Tcp.alloc, Nat.ne_of_lt old]
      · rintro ⟨p, pcb, freed⟩
        rw [view.slot] at pcb
        obtain rfl := Option.some.inj pcb
        simp [isTaken, resetSock, Tcp.alloc] at freed

end NoneGone

end State

structure Shim.Live (s : Shim) : Prop where
  healthy : s.Healthy
  noneGone : s.net.NoneGone

theorem Shim.Live.boot : Shim.boot.Live := ⟨.boot, .boot⟩

theorem Shim.Live.step {s : Shim} {input : Input} {result : Option Reply × Shim}
    (live : s.Live) (guarded : s.HeldOnly input ∧ s.KeepsBound input)
    (stepped : s.step input = .ok result) : result.2.Live :=
  ⟨live.healthy.step guarded.1 stepped,
    live.noneGone.step live.healthy.orderly.owned guarded.2 (Effect.of_step stepped)⟩

/-- After a step every socket in use has a live control block. -/
def Shim.LeavesLive (s : Shim) (input : Input) : Prop :=
  Holds (fun result => result.2.net.HoldsLive) (s.step input)

/-- A bound socket loses its control block without a word. -/
theorem Shim.keepsBound_of_leavesLive {s : Shim} {input : Input} (leaves : s.LeavesLive input)
    (healthy : s.Healthy) : s.KeepsBound input := by
  rintro p k b rfl closed pcb stored
  by_contra bound
  have used : (s.net.socks k).state ≠ .free := by simp [closed]
  have fits := ((healthy.orderly.owned.slots k).owns p b used pcb stored).2
  rw [closed] at fits
  obtain ⟨state, _, errf⟩ := fits
  have connection : b.state ≠ .listen := by simp [state]
  have aborts : s.step (.lwip (.abort p)) =
      .ok (none, { s with net := { s.net with tcp := s.net.tcp.free p } }) := by
    have abortable : b.Abortable := ⟨connection, fun _ => bound⟩
    simp [step, State.dispatch, stored, abortable, State.tcpAbort,
      Tcp.connection_of_stored stored connection, errf, bind, Except.bind, Except.map]
  have live := (leaves _ aborts).alive k used
  rcases live with ⟨null, _⟩ | ⟨q, c, has, found, _⟩
  · exact absurd (null.symm.trans pcb) (by simp)
  · obtain rfl := Option.some.inj (pcb.symm.trans has)
    simp [Tcp.free] at found

/-- Sockets in use never have a freed control block, exactly if lwIP never gives up the
control block of a bound socket. -/
theorem live_pcbs_iff {inputs : List Input} (disciplined : Shim.Guarded Shim.HeldOnly inputs) :
    Shim.Guarded Shim.LeavesLive inputs ↔ Shim.Guarded Shim.KeepsBound inputs := by
  constructor
  · intro leaves
    have healthy : Shim.Guarded (fun s _ => s.Healthy) inputs :=
      Shim.Healthy.along (fun _ _ healthy _ => healthy) disciplined
    exact (leaves.and healthy).mono fun s input both => Shim.keepsBound_of_leavesLive both.1 both.2
  · intro keeps
    refine Shim.along_holds Shim.Live.boot (fun _ _ _ => Shim.Live.step) ?_
      (disciplined.and keeps)
    intro s input live guarded result stepped
    obtain ⟨healthy, noneGone⟩ := live.step guarded stepped
    exact (State.holdsLive_iff healthy.orderly.owned).mpr noneGone

theorem live_pcbs_iff_twoConnections :
    Shim.Guarded Shim.HeldOnly twoConnections ∧
      (Shim.Guarded Shim.LeavesLive twoConnections ↔
        Shim.Guarded Shim.KeepsBound twoConnections) :=
  ⟨by decide +kernel, live_pcbs_iff (by decide +kernel)⟩

/-- A socket is bound to an address, the address changes, and the socket is used. -/
def addressChange : List Input :=
  [.call (.socket 2 1) 0 .granted, .call (.bind 100 16 0x0A00020F 8080) 0 .granted,
    .lwip (.abort 0)]

/-- The socket has a control block that is gone, and the next call uses it. -/
theorem addressChange_leaves_freed :
    Shim.Guarded Shim.HeldOnly addressChange ∧
    (shim.run (.ok .boot) addressChange).toOption.map (fun s =>
      ((s.net.socks 0).state, (s.net.socks 0).pcb, s.net.tcp.pcbs 0)) =
      some (.closed, some 0, none) ∧
    Shim.fault (shim.run (.ok .boot) (addressChange ++ [.call (.listen 100) 0 .granted])) =
      some .freedPcb := by
  refine ⟨?_, ?_, ?_⟩ <;> decide +kernel

/-! ## Listening control blocks -/

/-- The socket is listening, connected or on the way to it. -/
def SockState.Opened (state : SockState) : Prop :=
  state = .connecting ∨ state = .connected ∨ state = .listening

theorem SockState.Opened.ne {state : SockState} (opened : state.Opened) :
    state ≠ .free ∧ state ≠ .closed ∧ state ≠ .error := by
  rcases opened with rfl | rfl | rfl <;> simp

/-- There is nothing to receive from. -/
def SockState.CannotReceive (state : SockState) : Prop := state = .closed ∨ state = .listening

/-- There is nothing to send to. -/
def SockState.CannotSend (state : SockState) : Prop :=
  state = .closed ∨ state = .listening ∨ state = .error

/-- The call makes no sense for a socket in this state. -/
def Call.Senseless : Call → SockState → Prop
  | .bind _ _ _ _, state | .listen _, state | .connect _ _ _ _, state => state.Opened
  | .accept _ _ _, state => state ≠ .listening
  | .recv _ _, state => state.CannotReceive
  | .send _ _, state => state.CannotSend
  | .socket _ _, _ | .close _, _ => False

/-- Waiting makes no sense for a socket in this state. -/
def Waiting.Senseless : Waiting → SockState → Prop
  | .accept _ _ _, state => state ≠ .listening
  | .recv _ _, state => state.CannotReceive
  | .send _ _, state => state.CannotSend
  | .connect _, _ | .ready _ _, _ => False

/-- The step is a pass of a call that makes no sense for its socket. -/
def Shim.Senseless (s : Shim) : Input → Prop
  | .call call _ _ => s.waiting = none ∧
      ∃ fd k, call.fd = some fd ∧ State.sockOfFd fd = .ok k ∧
        call.Senseless (s.net.socks k).state
  | .tick _ _ => ∃ waiting start k, s.waiting = some (waiting, start) ∧
      waiting.slot = some k ∧ waiting.Senseless (s.net.socks k).state
  | .lwip _ => False

/-- A pass of a call leads to no positive result. -/
def Progress.Negative (progress : Progress) : Prop :=
  ∀ reply, progress = .returned reply → reply.ret < 0

theorem Progress.negative_code {ret : Int} (negative : ret < 0) :
    (Progress.returned (.code ret)).Negative := by
  rintro _ ⟨⟩
  exact negative

theorem Progress.negative_polls (waiting : Waiting) : (Progress.polls waiting).Negative := nofun

/-- Listening control blocks are not used as connections, and a call that makes no sense
returns nothing but a negative number. -/
def Shim.Refuses (s : Shim) (input : Input) : Prop :=
  s.step input ≠ .error .listeningPcb ∧
    (s.Senseless input → ∃ result, s.step input = .ok result ∧
      ∀ reply, result.1 = some reply → reply.ret < 0)

/-- The ways to get more than an error from a call that makes no sense: to connect or send
on a listening socket, to send on one whose control block is gone, and to transfer
nothing. -/
inductive Shim.Mistake (s : Shim) : Input → Prop where
  | connect {fd : Int} {addrlen : UInt64} {ip : UInt32} {port : UInt16} {now : UInt32}
      {answers : Answers} {k : Fin 16} (idle : s.waiting = none)
      (slot : State.sockOfFd fd = .ok k) (long : ¬addrlen < 16)
      (listening : (s.net.socks k).state = .listening) :
      Mistake s (.call (.connect fd addrlen ip port) now answers)
  | send {fd : Int} {data : List UInt8} {now : UInt32} {answers : Answers} {k : Fin 16}
      (idle : s.waiting = none) (slot : State.sockOfFd fd = .ok k) (nonempty : data ≠ [])
      (unusable : (s.net.socks k).state = .listening ∨ s.net.Gone k) :
      Mistake s (.call (.send fd data) now answers)
  | resend {now start : UInt32} {answers : Answers} {data : List UInt8} {k : Fin 16}
      (polling : s.waiting = some (.send k data, start)) (early : ¬now - start ≥ 30000)
      (unusable : (s.net.socks k).state = .listening ∨ s.net.Gone k) :
      Mistake s (.tick now answers)
  | sendNothing {fd : Int} {now : UInt32} {answers : Answers} {k : Fin 16}
      (idle : s.waiting = none) (slot : State.sockOfFd fd = .ok k)
      (senseless : (s.net.socks k).state.CannotSend) : Mistake s (.call (.send fd []) now answers)
  | receiveNothing {fd : Int} {now : UInt32} {answers : Answers} {k : Fin 16}
      (idle : s.waiting = none) (slot : State.sockOfFd fd = .ok k)
      (senseless : (s.net.socks k).state.CannotReceive) :
      Mistake s (.call (.recv fd 0) now answers)

namespace State

variable {n : State} {k : Fin 16} {answers : Answers}

/-- A socket that is listening or connected has its control block. -/
theorem pcb_of_opened (owned : Owned n) (opened : (n.socks k).state.Opened) :
    ∃ p b, (n.socks k).pcb = some p ∧ n.tcp.pcbs p = some b ∧ b.state ≠ .closed ∧
      (b.state = .listen ↔ (n.socks k).state = .listening) := by
  obtain ⟨used, notClosed, notError⟩ := opened.ne
  obtain ⟨_, null, gone, owns⟩ := owned.slots k
  cases pcb : (n.socks k).pcb with
  | none => exact absurd (null used pcb) notError
  | some p =>
      cases stored : n.tcp.pcbs p with
      | none => exact absurd (gone p used pcb stored) notClosed
      | some b =>
          have fits := (owns p b used pcb stored).2
          refine ⟨p, b, rfl, stored, ?_, fits.listen_iff⟩
          rcases opened with state | state | state <;> rw [state] at fits <;> simp [fits.1]

theorem netShimBind_refuses (owned : Owned n) (opened : (n.socks k).state.Opened)
    (addrlen : UInt64) (ip : UInt32) (port : UInt16) :
    ∃ result, n.netShimBind k addrlen ip port answers = .ok result ∧ result.1.ret < 0 := by
  obtain ⟨p, b, pcb, stored, notClosed, _⟩ := pcb_of_opened owned opened
  rw [netShimBind]
  split
  · exact ⟨_, rfl, Int.neg_neg_of_pos (by decide)⟩
  · simp only [pcb, Tcp.tcpBind, Tcp.get_of_stored stored, bind, Except.bind, if_pos notClosed]
    exact ⟨_, rfl, Int.neg_neg_of_pos (by decide)⟩

theorem netShimListen_refuses (owned : Owned n) (opened : (n.socks k).state.Opened) :
    ∃ result, n.netShimListen k answers = .ok result ∧ result.1.ret < 0 := by
  obtain ⟨p, b, pcb, stored, notClosed, _⟩ := pcb_of_opened owned opened
  simp only [netShimListen, pcb, Tcp.tcpListenWithBacklog, Tcp.get_of_stored stored, bind,
    Except.bind, if_pos notClosed]
  exact ⟨_, rfl, Int.neg_neg_of_pos (by decide)⟩

theorem netShimConnect_refuses (owned : Owned n) (opened : (n.socks k).state.Opened)
    (addrlen : UInt64) (ip : UInt32) (port : UInt16)
    (other : addrlen < 16 ∨ (n.socks k).state ≠ .listening) :
    ∃ result, n.netShimConnect k addrlen ip port answers = .ok result ∧
      result.1.Negative := by
  obtain ⟨p, b, pcb, stored, notClosed, listens⟩ := pcb_of_opened owned opened
  rw [netShimConnect]
  split
  · exact ⟨_, rfl, Progress.negative_code (Int.neg_neg_of_pos (by decide))⟩
  next long =>
    have connection : b.state ≠ .listen := mt listens.mp (other.resolve_left long)
    simp only [pcb, Tcp.tcpArg_of_stored stored, Tcp.tcpRecv_set, Tcp.tcpErr_set, if_neg connection,
      Tcp.tcpConnect, Tcp.get_of_stored (Tcp.pcbs_set _ _ _), if_pos notClosed, bind, Except.bind]
    exact ⟨_, rfl, Progress.negative_code (Int.neg_neg_of_pos (by decide))⟩

theorem netShimConnect_of_listening (owned : Owned n)
    (listening : (n.socks k).state = .listening) {addrlen : UInt64} (long : ¬addrlen < 16)
    (ip : UInt32) (port : UInt16) :
    n.netShimConnect k addrlen ip port answers = .error .listeningPcb := by
  obtain ⟨p, b, pcb, stored, _, listens⟩ := pcb_of_opened owned (.inr (.inr listening))
  simp only [netShimConnect, if_neg long, pcb, Tcp.tcpArg_of_stored stored, Tcp.tcpRecv_set,
    if_pos (listens.mpr listening), bind, Except.bind]

theorem acceptStep_refuses (queued : Queued n) (used : (n.socks k).state ≠ .free)
    (other : (n.socks k).state ≠ .listening) (addr : Bool) (addrlen : Option UInt32) :
    ∃ result, n.acceptStep k addr addrlen = .ok result ∧ result.1.Negative := by
  simp only [acceptStep, if_pos (queued.idle k used other), if_pos other]
  exact ⟨_, rfl, Progress.negative_code (Int.neg_neg_of_pos (by decide))⟩

theorem recvStep_refuses (owned : Owned n) (dry : n.Dry)
    (cannot : (n.socks k).state.CannotReceive) (len : UInt64) :
    ∃ result, n.recvStep k len = .ok result ∧ result.1.Negative := by
  have unconnected : n.Unconnected k := by
    rcases cannot with closed | listening
    · exact .inl closed
    · obtain ⟨p, b, pcb, stored, _, listens⟩ := pcb_of_opened owned (.inr (.inr listening))
      exact .inr ⟨p, b, pcb, stored, by simp [Pcb.Receives, listens.mpr listening]⟩
  have used : (n.socks k).state ≠ .free ∧ (n.socks k).state ≠ .error := by
    rcases cannot with state | state <;> simp [state]
  obtain ⟨empty, notEnded⟩ := dry k used.1 unconnected
  simp only [recvStep, empty, notEnded, if_neg used.2]
  exact ⟨_, rfl, Progress.negative_polls _⟩

theorem bsockWrite_refuses (owned : Owned n) (cannot : (n.socks k).state.CannotSend)
    (usable : ¬((n.socks k).state = .listening ∨ n.Gone k)) (data : List UInt8)
    (answers : Answers) :
    ∃ ret, n.bsockWrite k data answers = .ok (ret, n) ∧ ret ≤ 0 := by
  have refused : -ECONNRESET ≤ 0 := by decide
  rw [bsockWrite]
  split
  · exact ⟨_, rfl, refused⟩
  next p pcb =>
    split
    · exact ⟨_, rfl, refused⟩
    next notError =>
      -- What is left is a socket that is closed, and so is its control block.
      have closed : (n.socks k).state = .closed := by
        rcases cannot with state | state | state
        · exact state
        · exact absurd (.inl state) usable
        · exact absurd state notError
      have alive : n.tcp.pcbs p ≠ none := fun gone => usable (.inr ⟨p, pcb, gone⟩)
      obtain ⟨b, stored⟩ := Option.ne_none_iff_exists'.mp alive
      have fits := ((owned.slots k).owns p b (by simp [closed]) pcb stored).2
      rw [closed] at fits
      have connects := Tcp.connection_of_stored stored (by simp [fits.1])
      simp only [connects, Tcp.tcpWrite, fits.1, bind, Except.bind]
      split
      · exact ⟨_, rfl, le_rfl⟩
      · exact ⟨_, rfl, refused⟩

theorem sendStep_refuses (owned : Owned n) (cannot : (n.socks k).state.CannotSend)
    (usable : ¬((n.socks k).state = .listening ∨ n.Gone k)) (data : List UInt8)
    (answers : Answers) :
    ∃ result, n.sendStep k data answers = .ok result ∧ result.1.Negative := by
  obtain ⟨ret, writes, negative⟩ := bsockWrite_refuses owned cannot usable data answers
  simp only [sendStep, writes, bind, Except.bind]
  split
  next nonzero => exact ⟨_, rfl, Progress.negative_code (lt_of_le_of_ne negative nonzero)⟩
  · split
    · exact ⟨_, rfl, Progress.negative_code (Int.neg_neg_of_pos (by decide))⟩
    · exact ⟨_, rfl, Progress.negative_polls _⟩

theorem sendStep_of_unusable (owned : Owned n) (used : (n.socks k).state ≠ .free)
    (unusable : (n.socks k).state = .listening ∨ n.Gone k) (data : List UInt8)
    (answers : Answers) :
    (n.socks k).state.CannotSend ∧ ∃ fault, n.sendStep k data answers = .error fault := by
  have failed : ∃ p fault, (n.socks k).pcb = some p ∧
      ((n.socks k).state = .closed ∨ (n.socks k).state = .listening) ∧
      n.tcp.connection p = .error fault := by
    rcases unusable with listening | ⟨p, pcb, gone⟩
    · obtain ⟨p, b, pcb, stored, _, listens⟩ := pcb_of_opened owned (.inr (.inr listening))
      exact ⟨p, _, pcb, .inr listening,
        Tcp.connection_of_listen stored (listens.mpr listening)⟩
    · exact ⟨p, _, pcb, .inl ((owned.slots k).gone p used pcb gone),
        Tcp.connection_of_gone gone⟩
  obtain ⟨p, fault, pcb, state, fails⟩ := failed
  have notError : (n.socks k).state ≠ .error := by
    rcases state with state | state <;> simp [state]
  refine ⟨state.imp_right .inl, fault, ?_⟩
  simp only [sendStep, bsockWrite, pcb, if_neg notError, fails, bind, Except.bind]

end State

namespace Shim

variable {s : Shim} {input : Input}

/-- A pass that leads to no positive result leaves none. -/
theorem refused_of_map {call : Except Fault (Progress × State)} {start : UInt32}
    (refuses : ∃ result, call = .ok result ∧ result.1.Negative) :
    ∃ result, call.map (settle start) = .ok result ∧
      ∀ reply, result.1 = some reply → reply.ret < 0 := by
  obtain ⟨⟨progress, n'⟩, served, negative⟩ := refuses
  refine ⟨settle start (progress, n'), by rw [served]; rfl, fun reply returned => ?_⟩
  cases progress with
  | returned other =>
      obtain rfl := Option.some.inj returned
      exact negative _ rfl
  | polls waiting => exact absurd returned nofun

theorem refused_of_result {call : Except Fault (Reply × State)}
    (refuses : ∃ result, call = .ok result ∧ result.1.ret < 0) :
    ∃ result, call.map Progress.ofResult = .ok result ∧ result.1.Negative := by
  obtain ⟨⟨reply, n'⟩, served, negative⟩ := refuses
  refine ⟨(.returned reply, n'), by rw [served]; rfl, ?_⟩
  rintro _ ⟨⟩
  exact negative

theorem enter_refuses {call : Call} {now : UInt32} {answers : Answers} {fd : Int} {k : Fin 16}
    (healthy : s.Healthy) (disciplined : s.HeldOnly (.call call now answers))
    (idle : s.waiting = none) (about : call.fd = some fd) (slot : State.sockOfFd fd = .ok k)
    (senseless : call.Senseless (s.net.socks k).state)
    (sensible : ¬s.Mistake (.call call now answers)) :
    ∃ result, s.net.enter answers call = .ok result ∧ result.1.Negative := by
  have owned := healthy.orderly.owned
  have used := healthy.used disciplined k ⟨fd, about, slot⟩
  cases call with
  | socket domain type => exact senseless.elim
  | bind fd addrlen ip port =>
      obtain rfl := Option.some.inj about
      simp only [State.enter, slot, bind, Except.bind]
      exact refused_of_result (State.netShimBind_refuses owned senseless addrlen ip port)
  | listen fd =>
      obtain rfl := Option.some.inj about
      simp only [State.enter, slot, bind, Except.bind]
      exact refused_of_result (State.netShimListen_refuses owned senseless)
  | accept fd addr addrlen =>
      obtain rfl := Option.some.inj about
      simp only [State.enter, slot, bind, Except.bind]
      exact State.acceptStep_refuses healthy.orderly.queued used senseless addr addrlen
  | connect fd addrlen ip port =>
      obtain rfl := Option.some.inj about
      simp only [State.enter, slot, bind, Except.bind]
      refine State.netShimConnect_refuses owned senseless addrlen ip port ?_
      by_contra neither
      obtain ⟨long, listening⟩ := not_or.mp neither
      exact sensible (.connect idle slot long (not_not.mp listening))
  | recv fd len =>
      obtain rfl := Option.some.inj about
      have positive : len ≠ 0 := by
        rintro rfl
        exact sensible (.receiveNothing idle slot senseless)
      simp only [State.enter, slot, bind, Except.bind, if_neg positive]
      exact State.recvStep_refuses owned healthy.dry senseless len
  | send fd data =>
      obtain rfl := Option.some.inj about
      have nonempty : data ≠ [] := by
        rintro rfl
        exact sensible (.sendNothing idle slot senseless)
      simp only [State.enter, slot, bind, Except.bind, if_neg nonempty]
      exact State.sendStep_refuses owned senseless
        (fun unusable => sensible (.send idle slot nonempty unusable)) data answers
  | close fd => exact senseless.elim

theorem tick_refuses {waiting : Waiting} {start now : UInt32} {answers : Answers} {k : Fin 16}
    (healthy : s.Healthy) (polling : s.waiting = some (waiting, start))
    (about : waiting.slot = some k) (senseless : waiting.Senseless (s.net.socks k).state)
    (sensible : ¬s.Mistake (.tick now answers)) :
    ∃ result, s.step (.tick now answers) = .ok result ∧
      ∀ reply, result.1 = some reply → reply.ret < 0 := by
  have owned := healthy.orderly.owned
  have allowed : s.HeldOnly (.tick now answers) := trivial
  have used := healthy.used allowed k ⟨waiting, start, polling, about⟩
  simp only [step, polling]
  split
  · apply refused_of_map
    cases waiting with
    | ready | connect => exact senseless.elim
    | accept | recv | send =>
        exact ⟨_, rfl, Progress.negative_code (Int.neg_neg_of_pos (by decide))⟩
  next early =>
    apply refused_of_map
    cases waiting with
    | ready | connect => exact senseless.elim
    | accept j addr addrlen =>
        obtain rfl := Option.some.inj about
        exact State.acceptStep_refuses healthy.orderly.queued used senseless addr addrlen
    | recv j len =>
        obtain rfl := Option.some.inj about
        exact State.recvStep_refuses owned healthy.dry senseless len
    | send j data =>
        obtain rfl := Option.some.inj about
        exact State.sendStep_refuses owned senseless
          (fun unusable => sensible (.resend polling early unusable)) data answers

theorem Misuses.mistake (misuses : s.Misuses input) : s.Mistake input := by
  cases input with
  | call call now answers =>
      cases call with
      | connect fd addrlen ip port =>
          obtain ⟨idle, long, k, slot, listening⟩ := misuses
          exact .connect idle slot long listening
      | send fd data =>
          obtain ⟨idle, nonempty, k, slot, listening⟩ := misuses
          exact .send idle slot nonempty (.inl listening)
      | _ => exact misuses.elim
  | lwip event => exact misuses.elim
  | tick now answers =>
      obtain ⟨k, data, start, polling, early, listening⟩ := misuses
      exact .resend polling early (.inl listening)

theorem not_mistake_of_refuses (healthy : s.Healthy) (disciplined : s.HeldOnly input)
    (refuses : s.Refuses input) : ¬s.Mistake input := by
  have owned := healthy.orderly.owned
  intro mistake
  cases mistake with
  | @connect fd addrlen ip port now answers k idle slot long listening =>
      apply refuses.1
      simp only [step, idle, State.enter, slot, bind, Except.bind,
        State.netShimConnect_of_listening owned listening long]
      rfl
  | @send fd data now answers k idle slot nonempty unusable =>
      have used := healthy.used disciplined k ⟨fd, rfl, slot⟩
      obtain ⟨cannot, fault, fails⟩ := State.sendStep_of_unusable owned used unusable data answers
      obtain ⟨result, stepped, _⟩ := refuses.2 ⟨idle, fd, k, rfl, slot, cannot⟩
      simp only [step, idle, State.enter, slot, bind, Except.bind, if_neg nonempty, fails]
        at stepped
      exact absurd stepped (by simp [Except.map])
  | @resend now start answers data k polling early unusable =>
      have used := healthy.used disciplined k ⟨_, start, polling, rfl⟩
      obtain ⟨cannot, fault, fails⟩ := State.sendStep_of_unusable owned used unusable data answers
      obtain ⟨result, stepped, _⟩ := refuses.2 ⟨_, start, k, polling, rfl, cannot⟩
      simp only [step, polling, if_neg early, State.resume, fails] at stepped
      exact absurd stepped (by simp [Except.map])
  | @sendNothing fd now answers k idle slot senseless =>
      obtain ⟨result, stepped, negative⟩ := refuses.2 ⟨idle, fd, k, rfl, slot, senseless⟩
      simp only [step, idle, State.enter, slot, bind, Except.bind, if_true] at stepped
      obtain rfl := Except.ok.inj stepped
      exact absurd (negative _ rfl) (by decide)
  | @receiveNothing fd now answers k idle slot senseless =>
      obtain ⟨result, stepped, negative⟩ := refuses.2 ⟨idle, fd, k, rfl, slot, senseless⟩
      simp only [step, idle, State.enter, slot, bind, Except.bind, if_true] at stepped
      obtain rfl := Except.ok.inj stepped
      exact absurd (negative _ rfl) (by decide)

theorem refuses_of_not_mistake (healthy : s.Healthy) (disciplined : s.HeldOnly input)
    (sensible : ¬s.Mistake input) : s.Refuses input := by
  refine ⟨fun failed => sensible (Misuses.mistake (step_fails healthy disciplined _ failed)),
    fun senseless => ?_⟩
  cases input with
  | call call now answers =>
      obtain ⟨idle, fd, k, about, slot, senseless⟩ := senseless
      simp only [step, idle]
      exact refused_of_map
        (enter_refuses healthy disciplined idle about slot senseless sensible)
  | lwip event => exact senseless.elim
  | tick now answers =>
      obtain ⟨waiting, start, k, polling, about, senseless⟩ := senseless
      exact tick_refuses healthy polling about senseless sensible

end Shim

/-- Listening control blocks are never used as connections and senseless calls are
refused, exactly if the application makes none of the mistakes. -/
theorem listening_refused_iff {inputs : List Input}
    (disciplined : Shim.Guarded Shim.HeldOnly inputs) :
    Shim.Guarded Shim.Refuses inputs ↔ Shim.Guarded (fun s input => ¬s.Mistake input) inputs :=
  Shim.Healthy.guarded_iff (fun _ _ healthy held =>
    ⟨Shim.not_mistake_of_refuses healthy held, Shim.refuses_of_not_mistake healthy held⟩)
    disciplined

theorem listening_refused_iff_twoConnections :
    Shim.Guarded Shim.HeldOnly twoConnections ∧
      (Shim.Guarded Shim.Refuses twoConnections ↔
        Shim.Guarded (fun s input => ¬s.Mistake input) twoConnections) :=
  ⟨by decide +kernel, listening_refused_iff (by decide +kernel)⟩

/-- A listening socket. -/
def listener : List Input :=
  [.call (.socket 2 1) 0 .granted, .call (.bind 100 16 0 8080) 0 .granted,
    .call (.listen 100) 0 .granted]

/-- Sending on a listening socket, and connecting it, use its control block as a
connection. -/
theorem listener_used_as_connection :
    Shim.Guarded Shim.HeldOnly (listener ++ [.call (.send 100 [97]) 0 .granted]) ∧
    Shim.fault (shim.run (.ok .boot) (listener ++ [.call (.send 100 [97]) 0 .granted])) =
      some .listeningPcb ∧
    Shim.Guarded Shim.HeldOnly (listener ++ [.call (.connect 100 16 0x0A000202 80) 0 .granted]) ∧
    Shim.fault (shim.run (.ok .boot)
      (listener ++ [.call (.connect 100 16 0x0A000202 80) 0 .granted])) =
      some .listeningPcb := by
  refine ⟨?_, ?_, ?_, ?_⟩ <;> decide +kernel

end AppPortKit.Net
