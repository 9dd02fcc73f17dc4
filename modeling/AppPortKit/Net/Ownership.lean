import AppPortKit.Net.Effects

/-!
# Who owns a control block

A control block belongs to the socket it was made for until the socket is closed.
The invariant below holds in every state the socket layer can reach, whatever the
application passes to it, and allows for one defect: lwIP may give up the control block
of a bound socket without telling anybody.
-/

namespace AppPortKit.Net

/-- lwIP may make a callback for this control block. -/
def Pcb.Registered (b : Pcb) : Prop :=
  b.recv = true ∨ b.errf = true ∨ (b.state = .listen ∧ b.accept = true) ∨
    (b.state = .synSent ∧ b.connected = true)

/-- The control block of a socket in the given state. -/
def Pcb.Fits (b : Pcb) : SockState → Prop
  | .free => False
  | .closed => b.state = .closed ∧ b.recv = false ∧ b.errf = false
  | .listening => b.state = .listen ∧ b.recv = false ∧ b.errf = false
  | .connecting => b.state = .synSent ∧ b.recv = true ∧ b.errf = true
  | .connected => b.state = .established ∧ b.recv = true ∧ b.errf = true
  | .error => b.state ≠ .listen ∧ b.recv = true ∧ b.errf = true

namespace Pcb

variable {b b' : Pcb} {state : SockState}

theorem Fits.listen_iff (fits : b.Fits state) : b.state = .listen ↔ state = .listening := by
  cases state <;> simp_all [Fits]

theorem Fits.errf_iff (fits : b.Fits state) :
    b.errf = false ↔ state = .closed ∨ state = .listening := by
  cases state <;> simp_all [Fits]

theorem Fits.of_synSent (fits : b.Fits state) (synSent : b.state = .synSent) :
    b.recv = true ∧ b.errf = true := by
  cases state <;> simp_all [Fits]

theorem Fits.alike (fits : b.Fits state) (alike : b.Alike b') : b'.Fits state := by
  cases state <;> simp_all [Fits, alike.state, alike.recv, alike.errf]

theorem Registered.alike (registered : b'.Registered) (alike : b.Alike b') :
    b.Registered := by
  rwa [Registered, alike.state, alike.recv, alike.errf, alike.accept, alike.connected]
    at registered

end Pcb

/-- A socket and its control block agree.  A control block may be gone, but only that of a
socket that is neither connected nor listening. -/
structure State.OwnsSlot (n : State) (k : Fin 16) : Prop where
  below : ∀ p, (n.socks k).pcb = some p → p < n.tcp.fresh
  null : (n.socks k).state ≠ .free → (n.socks k).pcb = none → (n.socks k).state = .error
  gone : ∀ p, (n.socks k).state ≠ .free → (n.socks k).pcb = some p →
    n.tcp.pcbs p = none → (n.socks k).state = .closed
  owns : ∀ p b, (n.socks k).state ≠ .free → (n.socks k).pcb = some p →
    n.tcp.pcbs p = some b → b.arg = some k ∧ b.Fits (n.socks k).state

/-- The callbacks of a control block go to the socket that has it. -/
structure State.OwnsPcb (n : State) (p : Nat) (b : Pcb) : Prop where
  below : p < n.tcp.fresh
  registered : b.Registered →
    ∃ k, b.arg = some k ∧ (n.socks k).state ≠ .free ∧ (n.socks k).pcb = some p
  connected : b.state = .synSent → b.connected = true

/-- The state after `on_accept` took a connection, seen from the one before. -/
structure State.Offered (n n' : State) (l k : Fin 16) : Prop where
  listener : n'.socks l = (n.socks l).enqueue k
  slot : n'.socks k = acceptedSock n.tcp.fresh
  others : ∀ j, j ≠ l → j ≠ k → n'.socks j = n.socks j
  listenerHistory : n'.history l =
    { n.history l with offered := (n.history l).offered ++ [k] }
  slotHistory : n'.history k = .none
  otherHistories : ∀ j, j ≠ l → j ≠ k → n'.history j = n.history j

theorem State.offered_of_ne {n taken : State} {new : Pcb} {l k : Fin 16} (apart : l ≠ k)
    (isTaken : taken = ({ n with tcp := (n.tcp.alloc new).2 }.resetSock k).setSock k
      (acceptedSock n.tcp.fresh)) :
    n.Offered ((taken.setSock l ((taken.socks l).enqueue k)).setHistory l
      { taken.history l with offered := (taken.history l).offered ++ [k] }) l k := by
  subst isTaken
  constructor
  · simp [resetSock, apart]
  · simp [resetSock, apart.symm]
  · intro j notListener notSlot
    simp [resetSock, notListener, notSlot]
  · simp [resetSock, apart]
  · simp [resetSock, apart.symm]
  · intro j notListener notSlot
    simp [resetSock, notListener, notSlot]

structure Owned (n : State) : Prop where
  slots : ∀ k, n.OwnsSlot k
  pcbs : ∀ p b, n.tcp.pcbs p = some b → n.OwnsPcb p b
  distinct : ∀ j k p, (n.socks j).pcb = some p → (n.socks k).pcb = some p → j = k

namespace Owned

variable {s : Shim} {n n' : State} {k : Fin 16}

theorem boot : Owned .boot := by
  constructor
  · intro k
    constructor <;> simp [State.boot, Bsock.zero]
  · simp [State.boot]
  · simp [State.boot, Bsock.zero]

/-- The socket that callbacks are made with has the control block. -/
theorem owner (owned : Owned n) {p : Nat} {b : Pcb} (stored : n.tcp.pcbs p = some b)
    (registered : b.Registered) (arg : b.arg = some k) :
    (n.socks k).state ≠ .free ∧ (n.socks k).pcb = some p ∧ b.Fits (n.socks k).state := by
  obtain ⟨j, arg', used, pcb⟩ := (owned.pcbs p b stored).registered registered
  obtain rfl : k = j := Option.some.inj (arg.symm.trans arg')
  exact ⟨used, pcb, ((owned.slots k).owns p b used pcb stored).2⟩

/-- A socket that connections are offered to is in use, so it is no free slot. -/
theorem listener (owned : Owned n) {p : Nat} {b : Pcb} {l : Fin 16}
    (stored : n.tcp.pcbs p = some b) (listening : b.state = .listen) (accept : b.accept = true)
    (arg : b.arg = some l) (free : (n.socks k).state = .free) :
    (n.socks l).state ≠ .free ∧ l ≠ k := by
  obtain ⟨used, _⟩ := owned.owner stored (.inr (.inr (.inl ⟨listening, accept⟩))) arg
  refine ⟨used, ?_⟩
  rintro rfl
  exact used free

/-- Sockets and control blocks are as before, as far as ownership goes. -/
theorem agree (owned : Owned n) (state : ∀ k, (n'.socks k).state = (n.socks k).state)
    (pcb : ∀ k, (n'.socks k).pcb = (n.socks k).pcb) (alike : n.tcp.Alike n'.tcp) :
    Owned n' where
  slots k := by
    obtain ⟨below, null, gone, owns⟩ := owned.slots k
    constructor
    · intro p has
      rw [pcb] at has
      exact Nat.lt_of_lt_of_le (below p has) alike.fresh
    · rw [state, pcb]
      exact null
    · intro p
      rw [state, pcb]
      intro used has freed
      apply gone p used has
      by_contra alive
      obtain ⟨b, stored⟩ := Option.ne_none_iff_exists'.mp alive
      obtain ⟨b', stored'⟩ := alike.kept p b (below p has) stored
      exact absurd (freed.symm.trans stored') nofun
    · intro p b'
      rw [state, pcb]
      intro used has stored
      obtain ⟨b, before, same⟩ := alike.old p b' stored
      obtain ⟨arg, fits⟩ := owns p b used has before
      exact ⟨same.arg.trans arg, fits.alike same⟩
  pcbs p b' stored := by
    obtain ⟨b, before, same⟩ := alike.old p b' stored
    obtain ⟨below, registered, connected⟩ := owned.pcbs p b before
    refine ⟨Nat.lt_of_lt_of_le below alike.fresh, fun callback => ?_, fun synSent => ?_⟩
    · obtain ⟨k, arg, used, has⟩ := registered (callback.alike same)
      exact ⟨k, same.arg.trans arg, state k ▸ used, (pcb k).trans has⟩
    · rw [same.connected]
      exact connected (same.state.symm.trans synSent)
  distinct i j p := by
    rw [pcb, pcb]
    exact owned.distinct i j p

/-- One socket is changed, with its control block and new control blocks. -/
theorem edit (owned : Owned n) (k : Fin 16)
    (others : ∀ j ≠ k, (n'.socks j).state = (n.socks j).state ∧
      (n'.socks j).pcb = (n.socks j).pcb)
    (fresh : n.tcp.fresh ≤ n'.tcp.fresh)
    (kept : ∀ p < n.tcp.fresh, (n.socks k).pcb ≠ some p → n'.tcp.pcbs p = n.tcp.pcbs p)
    (pcb : ∀ p, (n'.socks k).pcb = some p → (n.socks k).pcb = some p ∨ n.tcp.fresh ≤ p)
    (slot : n'.OwnsSlot k)
    (mine : ∀ p b, (n.socks k).pcb = some p ∨ n.tcp.fresh ≤ p → n'.tcp.pcbs p = some b →
      n'.OwnsPcb p b) : Owned n' := by
  -- The control block of another socket is not one of those changed.
  have elsewhere : ∀ j ≠ k, ∀ p, (n.socks j).pcb = some p →
      p < n.tcp.fresh ∧ (n.socks k).pcb ≠ some p := by
    intro j different p has
    exact ⟨(owned.slots j).below p has, fun also => different (owned.distinct j k p has also)⟩
  refine ⟨fun j => ?_, fun p b stored => ?_, fun i j p first second => ?_⟩
  · by_cases here : j = k
    · exact here ▸ slot
    · obtain ⟨below, null, gone, owns⟩ := owned.slots j
      obtain ⟨state, same⟩ := others j here
      constructor
      · intro p has
        rw [same] at has
        exact Nat.lt_of_lt_of_le (below p has) fresh
      · rw [state, same]
        exact null
      · intro p
        rw [state, same]
        intro used has freed
        obtain ⟨old, notMine⟩ := elsewhere j here p has
        exact gone p used has (kept p old notMine ▸ freed)
      · intro p b
        rw [state, same]
        intro used has stored
        obtain ⟨old, notMine⟩ := elsewhere j here p has
        exact owns p b used has (kept p old notMine ▸ stored)
  · by_cases changed : (n.socks k).pcb = some p ∨ n.tcp.fresh ≤ p
    · exact mine p b changed stored
    · obtain ⟨notMine, old⟩ := not_or.mp changed
      rw [kept p (Nat.lt_of_not_le old) notMine] at stored
      obtain ⟨below, registered, connected⟩ := owned.pcbs p b stored
      refine ⟨Nat.lt_of_lt_of_le below fresh, fun callback => ?_, connected⟩
      obtain ⟨j, arg, used, has⟩ := registered callback
      have different : j ≠ k := by
        rintro rfl
        exact notMine has
      obtain ⟨state, same⟩ := others j different
      exact ⟨j, arg, state ▸ used, same.trans has⟩
  · -- A new control block has no other socket, and an old one had the same sockets before.
    have before : ∀ j, (n'.socks j).pcb = some p → (n.socks j).pcb = some p ∨
        j = k ∧ n.tcp.fresh ≤ p := by
      intro j has
      by_cases here : j = k
      · subst here
        exact (pcb p has).imp_right fun new => ⟨rfl, new⟩
      · exact .inl ((others j here).2.symm.trans has)
    rcases before i first with one | ⟨rfl, new⟩
    · rcases before j second with two | ⟨rfl, new⟩
      · exact owned.distinct i j p one two
      · exact absurd ((owned.slots i).below p one) (Nat.not_lt.mpr new)
    · rcases before j second with two | ⟨rfl, _⟩
      · exact absurd ((owned.slots j).below p two) (Nat.not_lt.mpr new)
      · rfl

section Effects

variable {p : Nat} {b b' : Pcb}

theorem data (owned : Owned n) (control : n.Control n') : Owned n' :=
  owned.agree (fun k => (control.socks k).state) (fun k => (control.socks k).pcb)
    (control.tcp ▸ .refl _)

theorem handOut (owned : Owned n) (slot : Fin 16) : Owned (n.handOut k slot) := by
  refine owned.agree (fun j => ?_) (fun j => ?_) (.refl _)
  all_goals
    by_cases here : j = k
    · subst here
      simp [State.handOut, Bsock.dequeue]
    · simp [State.handOut, here]

/-- A socket is given a control block: its own, changed, or a new one in place of one that is
freed or was already given up. -/
theorem rebind (owned : Owned n) (k : Fin 16)
    (others : ∀ j ≠ k, (n'.socks j).state = (n.socks j).state ∧
      (n'.socks j).pcb = (n.socks j).pcb)
    (fresh : n.tcp.fresh ≤ n'.tcp.fresh) (below : p < n'.tcp.fresh)
    (old : (n.socks k).pcb = some p ∨ n.tcp.fresh ≤ p)
    (kept : ∀ q ≠ p, n'.tcp.pcbs q = n.tcp.pcbs q ∧
        ((n.socks k).pcb = some q → (n.socks k).state = .free) ∨
      (n.socks k).pcb = some q ∧ n'.tcp.pcbs q = none)
    (pcb : (n'.socks k).pcb = some p) (stored : n'.tcp.pcbs p = some b) (arg : b.arg = some k)
    (fits : b.Fits (n'.socks k).state) (connected : b.state = .synSent → b.connected = true) :
    Owned n' := by
  have used : (n'.socks k).state ≠ .free := by
    intro free
    rw [free] at fits
    exact fits
  apply owned.edit k others fresh
  · intro q older notMine
    have different : q ≠ p := by
      rintro rfl
      exact old.elim notMine (Nat.not_le.mpr older)
    exact (kept q different).elim And.left fun freed => absurd freed.1 notMine
  · intro q has
    obtain rfl : p = q := Option.some.inj (pcb.symm.trans has)
    exact old
  · constructor
    · intro q has
      obtain rfl : p = q := Option.some.inj (pcb.symm.trans has)
      exact below
    · exact fun _ cleared => absurd (cleared.symm.trans pcb) nofun
    · intro q _ has freed
      obtain rfl : p = q := Option.some.inj (pcb.symm.trans has)
      exact absurd (freed.symm.trans stored) nofun
    · intro q c _ has found
      obtain rfl : p = q := Option.some.inj (pcb.symm.trans has)
      obtain rfl : b = c := Option.some.inj (stored.symm.trans found)
      exact ⟨arg, fits⟩
  · intro q c touched found
    by_cases here : q = p
    · subst here
      obtain rfl : b = c := Option.some.inj (stored.symm.trans found)
      exact ⟨below, fun _ => ⟨k, arg, used, pcb⟩, connected⟩
    · -- What is left of a control block the socket had is not registered any more.
      rcases kept q here with ⟨same, free⟩ | ⟨_, freed⟩
      · rw [same] at found
        obtain ⟨older, registered, synSent⟩ := owned.pcbs q c found
        have mine := touched.resolve_right (Nat.not_le.mpr older)
        refine ⟨Nat.lt_of_lt_of_le older fresh, fun callback => ?_, synSent⟩
        obtain ⟨j, _, usedBefore, has⟩ := registered callback
        obtain rfl : j = k := owned.distinct j k q has mine
        exact absurd (free mine) usedBefore
      · exact absurd (freed.symm.trans found) nofun

/-- A socket gives up its control block, which is freed or makes no callbacks any more. -/
theorem release (owned : Owned n) (k : Fin 16)
    (others : ∀ j ≠ k, (n'.socks j).state = (n.socks j).state ∧
      (n'.socks j).pcb = (n.socks j).pcb)
    (fresh : n'.tcp.fresh = n.tcp.fresh)
    (kept : ∀ q, (n.socks k).pcb ≠ some q → n'.tcp.pcbs q = n.tcp.pcbs q)
    (silent : ∀ q c, (n.socks k).pcb = some q → n'.tcp.pcbs q = some c →
      ¬c.Registered ∧ c.state ≠ .synSent)
    (pcb : (n'.socks k).pcb = (n.socks k).pcb ∧ (n'.socks k).state = .free ∨
      (n'.socks k).pcb = none ∧ ((n'.socks k).state = .free ∨ (n'.socks k).state = .error)) :
    Owned n' := by
  apply owned.edit k others (Nat.le_of_eq fresh.symm) fun q _ notMine => kept q notMine
  · intro q has
    rcases pcb with ⟨same, _⟩ | ⟨cleared, _⟩
    · exact .inl (same.symm.trans has)
    · exact absurd (cleared.symm.trans has) nofun
  · rcases pcb with ⟨same, free⟩ | ⟨cleared, state⟩
    · refine ⟨fun q has => ?_, fun used => absurd free used, fun _ used => absurd free used,
        fun _ _ used => absurd free used⟩
      rw [same] at has
      exact fresh ▸ (owned.slots k).below q has
    · have noPcb : ∀ q, (n'.socks k).pcb ≠ some q := fun q has =>
        absurd (cleared.symm.trans has) nofun
      exact ⟨fun q has => absurd has (noPcb q), fun used _ => state.resolve_left used,
        fun q _ has => absurd has (noPcb q), fun q _ _ has => absurd has (noPcb q)⟩
  · intro q c touched found
    by_cases mine : (n.socks k).pcb = some q
    · obtain ⟨unregistered, notSynSent⟩ := silent q c mine found
      exact ⟨fresh ▸ (owned.slots k).below q mine, fun callback => absurd callback unregistered,
        fun synSent => absurd synSent notSynSent⟩
    · rw [kept q mine] at found
      exact absurd (owned.pcbs q c found).below (Nat.not_lt.mpr (touched.resolve_left mine))

/-- A control block that a free socket still points to makes no callbacks. -/
theorem silent_of_free (owned : Owned n) (free : (n.socks k).state = .free)
    (pcb : (n.socks k).pcb = some p) (stored : n.tcp.pcbs p = some b) :
    ¬b.Registered ∧ b.state ≠ .synSent := by
  have unregistered : ¬b.Registered := by
    intro callback
    obtain ⟨j, _, used, has⟩ := (owned.pcbs p b stored).registered callback
    obtain rfl : j = k := owned.distinct j k p has pcb
    exact used free
  refine ⟨unregistered, fun synSent => unregistered ?_⟩
  exact .inr (.inr (.inr ⟨synSent, (owned.pcbs p b stored).connected synSent⟩))

theorem elsewhere (n : State) (k : Fin 16) (sock : Bsock) (j : Fin 16) (different : j ≠ k) :
    (Function.update n.socks k sock j).state = (n.socks j).state ∧
      (Function.update n.socks k sock j).pcb = (n.socks j).pcb := by
  simp [different]

theorem reset {ready : Bool} (owned : Owned n) (free : (n.socks k).state = .free) :
    Owned ({ n with netReady := ready }.resetSock k) :=
  owned.release k (elsewhere n k _) rfl (fun _ _ => rfl)
    (fun _ _ pcb stored => owned.silent_of_free free pcb stored)
    (.inr ⟨by simp [State.resetSock, Bsock.zero], .inl (by simp [State.resetSock, Bsock.zero])⟩)

/-- A free slot gets a new control block. -/
theorem fill (owned : Owned n) (sock : Bsock) (free : (n.socks k).state = .free)
    (socks : n'.socks k = sock)
    (others : ∀ j ≠ k, (n'.socks j).state = (n.socks j).state ∧
      (n'.socks j).pcb = (n.socks j).pcb)
    (tcp : n'.tcp = (n.tcp.alloc b).2) (pcb : sock.pcb = some n.tcp.fresh)
    (arg : b.arg = some k) (fits : b.Fits sock.state) (notSynSent : b.state ≠ .synSent) :
    Owned n' := by
  refine owned.rebind k others ?_ ?_ (.inr le_rfl) (fun q different => .inl ⟨?_, fun _ => free⟩)
    (socks ▸ pcb) ?_ arg (socks ▸ fits) fun synSent => absurd synSent notSynSent
  · exact tcp ▸ Nat.le_succ _
  · exact tcp ▸ Nat.lt_succ_self _
  · rw [tcp]
    exact Function.update_of_ne different _ _
  · rw [tcp]
    exact n.tcp.pcbs_alloc b

theorem listen {listener : Pcb} (owned : Owned n) (pcb : (n.socks k).pcb = some p)
    (listens : listener.Listens k) :
    Owned ({ n with tcp := ((n.tcp.free p).alloc listener).2 }.setSock k
      { n.socks k with pcb := some n.tcp.fresh, state := .listening }) := by
  refine owned.rebind k (elsewhere n k _) (Nat.le_succ _) (Nat.lt_succ_self _) (.inr le_rfl)
    (fun q different => ?_) (by simp) ((n.tcp.free p).pcbs_alloc listener) listens.arg
    (by simp [Pcb.Fits, listens.state, listens.recv, listens.errf]) (by simp [listens.state])
  rw [Tcp.fresh_free] at different
  by_cases mine : q = p
  · subst mine
    exact .inr ⟨pcb, by simp [Tcp.alloc, Tcp.free, different]⟩
  · refine .inl ⟨by simp [Tcp.alloc, Tcp.free, different, mine], fun has => ?_⟩
    exact absurd (Option.some.inj (has.symm.trans pcb)) mine

/-- The control block of a socket changes, and with it the socket's state. -/
theorem progress {state : SockState} (owned : Owned n) (pcb : (n.socks k).pcb = some p)
    (arg : b'.arg = some k) (fits : b'.Fits state)
    (connected : b'.state = .synSent → b'.connected = true) :
    Owned ({ n with tcp := n.tcp.set p b' }.setSock k { n.socks k with state }) := by
  refine owned.rebind k (elsewhere n k _) le_rfl ((owned.slots k).below p pcb) (.inl pcb)
    (fun q different => .inl ⟨Function.update_of_ne different _ _, fun has => ?_⟩)
    (by simpa using pcb) (n.tcp.pcbs_set p b') arg (by simpa using fits) connected
  exact absurd (Option.some.inj (has.symm.trans pcb)) different

theorem connect {state : SockState} (owned : Owned n) (pcb : (n.socks k).pcb = some p)
    (stored : n.tcp.pcbs p = some b) (connection : b.state ≠ .listen) (serves : b'.Serves k)
    (outcome : b.state = .closed ∧ b'.state = .synSent ∧ b'.connected = true ∧
        state = .connecting ∨
      b'.state = b.state ∧ (b.connected = true → b'.connected = true) ∧ state = .error) :
    Owned ({ n with tcp := n.tcp.set p b' }.setSock k { n.socks k with state }) := by
  rcases outcome with ⟨_, synSent, connected, rfl⟩ | ⟨same, connected, rfl⟩
  · exact owned.progress pcb serves.arg ⟨synSent, serves.recv, serves.errf⟩ fun _ => connected
  · refine owned.progress pcb serves.arg ⟨same ▸ connection, serves.recv, serves.errf⟩ ?_
    intro synSent
    exact connected ((owned.pcbs p b stored).connected (same ▸ synSent))

theorem connected (owned : Owned n) (stored : n.tcp.pcbs p = some b)
    (synSent : b.state = .synSent) (callback : b.connected = true) (arg : b.arg = some k) :
    Owned ({ n with tcp := n.tcp.set p { b with state := .established } }.setSock k
      { n.socks k with state := .connected }) := by
  obtain ⟨_, pcb, fits⟩ := owned.owner stored (.inr (.inr (.inr ⟨synSent, callback⟩))) arg
  exact owned.progress pcb arg ⟨rfl, fits.of_synSent synSent⟩ nofun

theorem unconnected (owned : Owned n) (pcb : (n.socks k).pcb = none) :
    Owned (n.setSock k { n.socks k with state := .error }) :=
  owned.release k (elsewhere n k _) rfl (fun _ _ => rfl)
    (fun _ _ has => absurd (pcb.symm.trans has) nofun)
    (.inr ⟨by simpa using pcb, .inr (by simp)⟩)

theorem lost (owned : Owned n) (stored : n.tcp.pcbs p = some b) (errf : b.errf = true)
    (arg : b.arg = some k) :
    Owned ({ n with tcp := n.tcp.free p }.setSock k
      { n.socks k with pcb := none, state := .error }) := by
  obtain ⟨_, pcb, _⟩ := owned.owner stored (.inr (.inl errf)) arg
  refine owned.release k (elsewhere n k _) rfl (fun q notMine => ?_) (fun q c mine found => ?_)
    (.inr ⟨by simp, .inr (by simp)⟩)
  · exact Tcp.pcbs_free_of_notMine pcb notMine n.tcp
  · obtain rfl := Option.some.inj (pcb.symm.trans mine)
    simp [Tcp.free] at found

/-- The defect: nobody is told, and the socket keeps its pointer. -/
theorem silent (owned : Owned n) (stored : n.tcp.pcbs p = some b) (abortable : b.Abortable)
    (errf : b.errf = false) : Owned { n with tcp := n.tcp.free p } where
  slots k := by
    obtain ⟨below, null, gone, owns⟩ := owned.slots k
    refine ⟨below, null, fun q used has freed => ?_, fun q c used has found => ?_⟩
    · by_cases here : q = p
      · subst here
        have fits := (owns q b used has stored).2
        have notListening := mt fits.listen_iff.mpr abortable.1
        exact (fits.errf_iff.mp errf).resolve_right notListening
      · exact gone q used has (by simpa [Tcp.free, here] using freed)
    · by_cases here : q = p
      · simp [Tcp.free, here] at found
      · exact owns q c used has (by simpa [Tcp.free, here] using found)
  pcbs q c found := by
    by_cases here : q = p
    · simp [Tcp.free, here] at found
    · obtain ⟨below, registered, connected⟩ :=
        owned.pcbs q c (by simpa [Tcp.free, here] using found)
      exact ⟨below, registered, connected⟩
  distinct := owned.distinct

theorem close {tcp : Tcp} {pbufs : Pbufs} {history : History} (owned : Owned n)
    (releases : n.tcp.Releases (n.socks k) tcp) :
    Owned (({ n with tcp, pbufs }.setSock k
      { n.socks k with rxHead := none, state := .free }).setHistory k history) := by
  have fresh : tcp.fresh = n.tcp.fresh := by
    cases releases <;> rfl
  refine owned.release k (elsewhere n k _) fresh (fun q notMine => ?_)
    (fun q c mine found => ?_) (.inl ⟨by simp, by simp⟩)
  · exact releases.pcbs_of_notMine notMine
  · simp only [State.tcp_setHistory, State.tcp_setSock] at found
    cases releases with
    | none pcb => exact absurd (pcb.symm.trans mine) (by simp)
    | freed pcb =>
        obtain rfl := Option.some.inj (pcb.symm.trans mine)
        simp [Tcp.free] at found
    | closing pcb stored connection state arg silent =>
        obtain rfl := Option.some.inj (pcb.symm.trans mine)
        obtain rfl := Option.some.inj ((Tcp.pcbs_set _ _ _).symm.trans found)
        -- A listening socket has a listening control block, which `tcp_close` frees.
        have notListening : (n.socks k).state ≠ .listening := by
          intro listening
          have fits := ((owned.slots k).owns _ _ (by simp [listening]) pcb stored).2
          exact connection (fits.listen_iff.mpr listening)
        obtain ⟨recv, errf⟩ := silent notListening
        simp [Pcb.Registered, recv, errf, state]

end Effects

theorem step {input : Input} (owned : Owned s.net) (effect : Effect s input n') :
    Owned n' := by
  cases effect with
  | quiet alike => exact owned.agree (fun _ => rfl) (fun _ => rfl) alike
  | data control => exact owned.data control
  | reset free => exact owned.reset free
  | socket free =>
      refine owned.fill { Bsock.zero with pcb := some s.net.tcp.fresh, state := .closed } free
        (by simp) (elsewhere s.net _ _) rfl rfl rfl ?_ nofun
      exact ⟨rfl, rfl, rfl⟩
  | listen _ pcb _ _ listens => exact owned.listen pcb listens
  | accept => exact owned.handOut _
  | connect _ pcb stored connection serves _ outcome =>
      exact owned.connect pcb stored connection serves outcome
  | unconnected _ pcb => exact owned.unconnected pcb
  | close _ releases => exact owned.close releases
  | silent _ stored abortable errf => exact owned.silent stored abortable errf
  | lost _ stored errf arg => exact owned.lost stored errf arg
  | @established p b stored synSent noCallback =>
      have callback := (owned.pcbs p b stored).connected synSent
      exact absurd (noCallback.symm.trans callback) nofun
  | connected stored synSent callback arg => exact owned.connected stored synSent callback arg
  | @offered q b new l k _ stored listening accept arg _ free state serves taken =>
      obtain ⟨_, apart⟩ := owned.listener stored listening accept arg free
      have view := State.offered_of_ne apart taken
      refine owned.fill (acceptedSock s.net.tcp.fresh) free view.slot (fun j different => ?_)
        (taken ▸ rfl) rfl serves.arg ⟨state, serves.recv, serves.errf⟩ (by simp [state])
      by_cases listener : j = l
      · rw [listener, view.listener]
        exact ⟨rfl, rfl⟩
      · rw [view.others j listener different]
        exact ⟨rfl, rfl⟩

end Owned

end AppPortKit.Net
