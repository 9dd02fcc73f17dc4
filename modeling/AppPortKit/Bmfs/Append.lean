import AppPortKit.Bmfs.Handles
import AppPortKit.Bmfs.Sharing

/-!
# Appending

A descriptor opened for appending moves to the size it knows before each write.
The source means this to be the current end of the file.  It is, exactly as long
as no other descriptor has grown the file past that size; otherwise the write
lands on bytes the other one stored.
-/

namespace AppPortKit.Bmfs

open Libc SectorStore Transition

/-- A successful write through a descriptor opened for appending stores its bytes at
the end of the file and changes none below. -/
def AppendsAtEnd (slot : Fin 64) (t : Shared) (call : Call) : Prop :=
  ∀ fd buf len index, call = .write fd buf len → fdIndex fd = some index →
    (t.fs.files index).append = true → 0 < (sharing.reply t call).ret →
      ((sharing.next t call).fs.files index).pos.toNat =
          t.peak + (sharing.reply t call).ret.toNat ∧
        (∀ i < (sharing.reply t call).ret.toNat,
          cell (sharing.next t call).fs.device.disk ((t.fs.table slot).address (t.peak + i)) =
            buf i) ∧
        ∀ i < t.peak,
          cell (sharing.next t call).fs.device.disk ((t.fs.table slot).address i) =
            cell t.fs.device.disk ((t.fs.table slot).address i)

/-- When a descriptor opened for appending has room to write, no other descriptor of
the session knows a larger size. -/
def NoOtherGrew (t : Shared) : Call → Prop
  | .write fd _ len => ∀ index, fdIndex fd = some index → (t.fs.files index).append = true →
      len ≠ 0 → (t.fs.files index).size.toNat < (t.fs.files index).cap →
        ∀ other, t.mine other = true →
          (t.fs.files other).size.toNat ≤ (t.fs.files index).size.toNat
  | _ => True

/-- A session's call other than a close, with a length that is a positive `long`. -/
def OpensOrMoves (name : CString) (t : Shared) : Call → Prop
  | .close _ => False
  | .write fd buf len => OnFile name t (.write fd buf len) ∧ len.toNat < 9223372036854775808
  | call => OnFile name t call

/-- A session without closes on a placed file: no descriptor knows less than the
recorded size, which stays as it is. -/
structure Appending (name : CString) (slot : Fin 64) (t : Shared) : Prop where
  shares : Shares name slot t
  reliable : t.fs.device.Reliable
  placed : (t.fs.table slot).Placed
  own : ∀ index, t.mine index = true → (t.fs.files index).Holds (t.fs.table slot) ∧
    (t.fs.table slot).size.toNat ≤ (t.fs.files index).size.toNat

namespace Appending

variable {name : CString} {slot : Fin 64} {t : Shared}

theorem filePlaced (appending : Appending name slot t) {index : Fin 8}
    (mine : t.mine index = true) : (t.fs.files index).Placed := by
  obtain ⟨⟨start, reserved⟩, -⟩ := appending.own index mine
  rw [File.Placed, start, reserved]
  exact appending.placed

/-- The descriptor that knows no less than the others knows the end of the file. -/
theorem size_eq_peak_iff (appending : Appending name slot t) {index : Fin 8}
    (mine : t.mine index = true) :
    (t.fs.files index).size.toNat = t.peak ↔
      ∀ other, t.mine other = true →
        (t.fs.files other).size.toNat ≤ (t.fs.files index).size.toNat := by
  constructor
  · intro atPeak other otherMine
    rw [atPeak]
    exact appending.shares.sizes other otherMine
  · intro largest
    have upper := appending.shares.sizes index mine
    rcases appending.shares.reached with recorded | ⟨other, otherMine, -, size⟩
    · have := (appending.own index mine).2
      omega
    · have := largest other otherMine
      omega

theorem writeInRange (appending : Appending name slot t) {fd : Int} {buf : Nat → UInt8}
    {len : UInt64} (owns : t.Owns fd) (short : len.toNat < 9223372036854775808) :
    WriteInRange t (.write fd buf len) := by
  refine ⟨short, fun index stands inside => ?_⟩
  obtain ⟨owned, ownStands, mine⟩ := owns
  rw [stands] at ownStands
  cases ownStands
  have placed := appending.filePlaced mine
  have small := placed.addressable.cap_le
  rw [UInt64.lt_iff_toNat_lt, placed.addressable.cap_toNat] at inside
  omega

/-- A record is replaced by one of the same file that has not shrunk. -/
theorem own_update (appending : Appending name slot t) {index : Fin 8}
    (mine : t.mine index = true) {file : File} (same : (t.fs.files index).SameHandle file)
    (size : (t.fs.files index).size.toNat ≤ file.size.toNat) (other : Fin 8)
    (otherMine : t.mine other = true) :
    (Function.update t.fs.files index file other).Holds (t.fs.table slot) ∧
      (t.fs.table slot).size.toNat ≤
        (Function.update t.fs.files index file other).size.toNat := by
  revert otherMine
  revert other
  rw [Function.forall_update_iff t.fs.files fun other f => t.mine other = true →
    f.Holds (t.fs.table slot) ∧ (t.fs.table slot).size.toNat ≤ f.size.toNat]
  refine ⟨fun _ => ?_, fun other _ => appending.own other⟩
  obtain ⟨holds, known⟩ := appending.own index mine
  exact ⟨holds.of_sameHandle same, Nat.le_trans known size⟩

theorem next_open (appending : Appending name slot t) {path : CString} {flags : UInt32}
    (onFile : OnFile name t (.open path flags)) :
    Appending name slot (sharing.next t (.open path flags)) := by
  have shares := appending.shares.next_open onFile
  have reliable := appending.reliable.of_fails_eq (dirLoad_sameMedia t.fs).fails
  rcases appending.shares.next_open_cases onFile with same | loaded | ⟨index, free, attached⟩
  · rw [same]
    exact appending
  · rw [loaded] at shares ⊢
    refine ⟨shares, reliable, ?_, ?_⟩
    · rw [table_dirLoad]
      exact appending.placed
    · rw [table_dirLoad, files_dirLoad]
      exact appending.own
  · rw [attached] at shares ⊢
    refine ⟨shares, reliable, ?_, ?_⟩
    · rw [table_setFile, table_dirLoad]
      exact appending.placed
    · intro other otherMine
      rw [table_setFile, table_dirLoad, files_setFile, files_dirLoad]
      by_cases same : other = index
      · subst same
        rw [Function.update_self]
        exact ⟨⟨rfl, rfl⟩, Nat.le_refl _⟩
      · simp only [Function.update_of_ne same] at otherMine ⊢
        exact appending.own other otherMine

theorem next_read (appending : Appending name slot t) {fd : Int} (owns : t.Owns fd)
    (len : UInt64) : Appending name slot (sharing.next t (.read fd len)) := by
  have shares := appending.shares.next_read owns len
  obtain ⟨index, stands, mine⟩ := owns
  have loaded := (appending.shares.held index mine).1
  obtain ⟨scratch, device, pos, state, media⟩ := bmfsRead_state t.fs index len
  have served := serve_read (appending.shares.openIndex_eq stands mine) len
  rw [state] at served
  rw [sharing_next served] at shares ⊢
  refine ⟨shares, appending.reliable.of_fails_eq media.fails, ?_, ?_⟩
  · rw [table_setFile, table_transfer loaded]
    exact appending.placed
  · rw [table_setFile, table_transfer loaded]
    exact appending.own_update mine (sameHandle_pos _ _) (Nat.le_refl _)

theorem next_lseek (appending : Appending name slot t) {fd : Int} (owns : t.Owns fd)
    (offset : Int64) (whence : Int32) :
    Appending name slot (sharing.next t (.lseek fd offset whence)) := by
  have shares := appending.shares.next_lseek owns offset whence
  obtain ⟨index, stands, mine⟩ := owns
  have served := serve_lseek (appending.shares.openIndex_eq stands mine) offset whence
  rcases bmfsLseek_cases t.fs index offset whence with failed | ⟨np, -, moved⟩
  · rw [failed] at served
    rw [sharing_next served]
    exact appending
  · rw [moved] at served
    rw [sharing_next served] at shares ⊢
    refine ⟨shares, appending.reliable, ?_, ?_⟩
    · rw [table_setFile]
      exact appending.placed
    · rw [table_setFile]
      exact appending.own_update mine (sameHandle_pos _ _) (Nat.le_refl _)

theorem next_write (appending : Appending name slot t) {fd : Int} {buf : Nat → UInt8}
    {len : UInt64} (owns : t.Owns fd) (short : len.toNat < 9223372036854775808) :
    Appending name slot (sharing.next t (.write fd buf len)) := by
  have inRange : WriteInRange t (.write fd buf len) := appending.writeInRange owns short
  have shares := appending.shares.next_write owns inRange
  obtain ⟨index, stands, mine⟩ := owns
  have loaded := (appending.shares.held index mine).1
  have served := serve_write (appending.shares.openIndex_eq stands mine) buf len
  obtain ⟨writes, wrote, -⟩ := bmfsWrite_wrote (appending.filePlaced mine).addressable buf short
  rcases bmfsWrite_cases t.fs index buf len with
    ⟨-, refused⟩ | ⟨n, base, count, -, inside, -, stored⟩
  · rw [refused, Reply.ofResult_mk] at served
    rw [sharing_next served] at shares ⊢
    refine ⟨shares, appending.reliable, ?_, ?_⟩
    · rw [table_setFile]
      exact appending.placed
    · rw [table_setFile]
      exact appending.own_update mine (sameHandle_pos _ _) (Nat.le_refl _)
  · have noWrap := inRange.2 index stands inside
    have atMost : n.toNat ≤ len.toNat := count ▸ clampLen_le inside noWrap
    have size : (writtenFile (t.fs.files index) n (t.fs.files index).offset).size.toNat =
        max (t.fs.files index).size.toNat ((t.fs.files index).offset.toNat + n.toNat) :=
      size_writtenFile _ (by omega)
    rw [stored, Reply.ofResult_mk] at served
    rw [stored] at wrote
    rw [sharing_next served] at shares ⊢
    refine ⟨shares, appending.reliable.of_fails_eq wrote.fails, ?_, ?_⟩
    · rw [table_setFile, table_transfer loaded]
      exact appending.placed
    · rw [table_setFile, table_transfer loaded]
      exact appending.own_update mine (sameHandle_writtenFile _ _ _) (by omega)

theorem next {call : Call} (appending : Appending name slot t)
    (allowed : OpensOrMoves name t call) : Appending name slot (sharing.next t call) := by
  cases call with
  | «open» path flags => exact appending.next_open allowed
  | read fd len => exact appending.next_read allowed len
  | write fd buf len => exact appending.next_write allowed.1 allowed.2
  | lseek fd offset whence => exact appending.next_lseek allowed offset whence
  | close | fstat | fstatat | unlink => exact allowed.elim

/-- What a write with room stores, at the size its descriptor knows. -/
theorem append_of_room (appending : Appending name slot t) {fd : Int} {index : Fin 8}
    (buf : Nat → UInt8) {len : UInt64} (stands : fdIndex fd = some index)
    (mine : t.mine index = true) (appends : (t.fs.files index).append = true)
    (short : len.toNat < 9223372036854775808) (nonempty : len ≠ 0)
    (room : (t.fs.files index).size.toNat < (t.fs.files index).cap) :
    ∃ n : Nat, 0 < n ∧ (sharing.reply t (.write fd buf len)).ret = (n : Int) ∧
      ((sharing.next t (.write fd buf len)).fs.files index).pos.toNat =
        (t.fs.files index).size.toNat + n ∧
      ∀ address, cell (sharing.next t (.write fd buf len)).fs.device.disk address =
        if (t.fs.table slot).address (t.fs.files index).size.toNat ≤ address ∧
            address < (t.fs.table slot).address (t.fs.files index).size.toNat + n then
          buf (address - (t.fs.table slot).address (t.fs.files index).size.toNat)
        else
          cell t.fs.device.disk address := by
  have placed := appending.filePlaced mine
  have offset : (t.fs.files index).offset = (t.fs.files index).size := by
    rw [File.offset, if_pos appends]
  obtain ⟨n, base, count, start, stored⟩ := bmfsWrite_of_room placed.addressable buf short nonempty
    (by rw [offset]; exact room)
  have served := serve_write (appending.shares.openIndex_eq stands mine) buf len
  rw [stored, Reply.ofResult_mk] at served
  have reply : sharing.reply t (.write fd buf len) = .code n.toNat := by
    simp only [Machine.reply, sharing, served]
  rw [offset] at count start
  have small := placed.addressable.cap_le
  have nonzero : len.toNat ≠ 0 := by simpa [← UInt64.toNat_inj] using nonempty
  have ending : (t.fs.files index).address (t.fs.files index).size.toNat + n.toNat ≤
      9223372036854775808 := placed.addressable.address_add_lt (by omega)
  have home : (t.fs.files index).address (t.fs.files index).size.toNat =
      (t.fs.table slot).address (t.fs.files index).size.toNat := by
    rw [File.address, Dirent.address, (appending.own index mine).1.1]
  refine ⟨n.toNat, by omega, by rw [reply, Reply.code], ?_, ?_⟩
  · rw [sharing_next served, files_setFile, Function.update_self, offset,
      pos_writtenFile _ (by omega) (by omega)]
  · intro address
    rw [sharing_next served, device_setFile, device_transfer,
      pwriteLoop_cell appending.reliable _ _ (by omega), start, home]

/-- A write goes to the end of the file exactly if no other descriptor knows a
larger size. -/
theorem appendsAtEnd_iff {call : Call} (appending : Appending name slot t)
    (allowed : OpensOrMoves name t call) :
    AppendsAtEnd slot t call ↔ NoOtherGrew t call := by
  cases call with
  | write fd buf len =>
      obtain ⟨⟨index, stands, mine⟩, short⟩ := allowed
      constructor
      · intro atEnd other otherStands appends nonempty room
        rw [stands] at otherStands
        cases otherStands
        obtain ⟨n, positive, reply, moved, -⟩ :=
          appending.append_of_room buf stands mine appends short nonempty room
        have stored := (atEnd fd buf len index rfl stands appends (by omega)).1
        apply (appending.size_eq_peak_iff mine).mp
        omega
      · intro largest fd' buf' len' index' same stands' appends succeeded
        cases same
        rw [stands] at stands'
        cases stands'
        have room : len ≠ 0 ∧ (t.fs.files index).size.toNat < (t.fs.files index).cap := by
          by_contra full
          have offset : (t.fs.files index).offset = (t.fs.files index).size := by
            rw [File.offset, if_pos appends]
          have past : (t.fs.files index).cap ≤ (t.fs.files index).offset.toNat ∨ len = 0 := by
            rw [offset]
            rcases not_and_or.mp full with empty | outside
            · exact .inr (not_not.mp empty)
            · exact .inl (Nat.not_lt.mp outside)
          have refused := bmfsWrite_of_full (appending.filePlaced mine).addressable buf past
          have served := serve_write (appending.shares.openIndex_eq stands mine) buf len
          rw [refused, Reply.ofResult_mk] at served
          simp only [Machine.reply, sharing, served] at succeeded
          exact absurd succeeded (by decide)
        obtain ⟨n, positive, reply, moved, cells⟩ :=
          appending.append_of_room buf stands mine appends short room.1 room.2
        have atPeak := (appending.size_eq_peak_iff mine).mpr
          (largest index stands appends room.1 room.2)
        rw [atPeak] at moved cells
        rw [reply, Int.toNat_natCast]
        refine ⟨moved, ?_, ?_⟩
        · intro i bound
          rw [cells, if_pos (by simp only [Dirent.address]; omega)]
          exact congrArg buf (by simp only [Dirent.address]; omega)
        · intro i bound
          rw [cells, if_neg (by simp only [Dirent.address]; omega)]
  | «open» | read | lseek | close | fstat | fstatat | unlink =>
      refine iff_of_true ?_ trivial
      intro fd buf len index same
      contradiction

end Appending

/-- Along every session of opens, reads, seeks and writes on a file, an append goes
to the end of the file and overwrites nothing exactly if no other descriptor of
the session has grown the file past the size this one knows. -/
theorem appendsAtEnd_iff_noOtherGrew (s : State) (name : CString) (slot : Fin 64)
    (found : dirFind s.table name = some slot) (reliable : s.device.Reliable)
    (placed : (s.table slot).Placed) (calls : List Call)
    (allowed : sharing.Along (OpensOrMoves name) (Shared.start s slot) calls) :
    sharing.Along (fun t call => AppendsAtEnd slot t call ↔ NoOtherGrew t call)
      (Shared.start s slot) calls := by
  have initial : Appending name slot (Shared.start s slot) :=
    ⟨.start found, reliable, placed, fun _ mine => by contradiction⟩
  exact Machine.along_of_invariant (fun _ _ => Appending.next)
    (fun _ _ => Appending.appendsAtEnd_iff) initial allowed

instance (name : CString) (t : Shared) : (call : Call) → Decidable (OpensOrMoves name t call)
  | .close _ => isFalse not_false
  | .write fd buf len =>
      inferInstanceAs (Decidable (OnFile name t (.write fd buf len) ∧
        len.toNat < 9223372036854775808))
  | .open path flags => inferInstanceAs (Decidable (OnFile name t (.open path flags)))
  | .read fd len => inferInstanceAs (Decidable (OnFile name t (.read fd len)))
  | .lseek fd offset whence =>
      inferInstanceAs (Decidable (OnFile name t (.lseek fd offset whence)))
  | .fstat fd => inferInstanceAs (Decidable (OnFile name t (.fstat fd)))
  | .fstatat path => inferInstanceAs (Decidable (OnFile name t (.fstatat path)))
  | .unlink path => inferInstanceAs (Decidable (OnFile name t (.unlink path)))

theorem afterCreate_journaled : Journaled blankDisk afterCreate :=
  Machine.run_invariant (fun _ _ => Journaled.next)
    (Journaled.boot blankDisk_wellFormed blankDisk_bounded) (by decide +kernel)

/-- A descriptor opened for appending, and another one that writes two bytes. -/
def otherGrows : List Call :=
  [.open nameA oAppend, .open nameA 0, .write 4 (fun _ => 7) 2]

/-- The append then lands on the first of the two bytes. -/
theorem append_after_otherGrows_overwrites :
    sharing.Along (OpensOrMoves nameA) (Shared.start afterCreate 0)
        (otherGrows ++ [.write 3 (fun _ => 8) 1]) ∧
      ¬sharing.Along (AppendsAtEnd 0) (Shared.start afterCreate 0)
        (otherGrows ++ [.write 3 (fun _ => 8) 1]) := by
  refine ⟨by decide +kernel, ?_⟩
  intro along
  have atEnd := ((sharing.along_append (AppendsAtEnd 0) _ _ _).mp along).2.1
  have stored := (atEnd 3 (fun _ => 8) 1 0 rfl (by decide) (by decide +kernel)
    (by decide +kernel)).2.2 0 (by decide +kernel)
  revert stored
  decide +kernel

/-- A single descriptor may seek between its appends. -/
theorem append_after_seek_at_end :
    sharing.Along (fun t call => AppendsAtEnd 0 t call ↔ NoOtherGrew t call)
      (Shared.start afterCreate 0)
      [.open nameA oAppend, .write 3 (fun _ => 7) 2, .lseek 3 0 0, .write 3 (fun _ => 8) 1] :=
  appendsAtEnd_iff_noOtherGrew afterCreate nameA 0 (by decide +kernel)
    afterCreate_journaled.synced.reliable
    (afterCreate_journaled.synced.sound.entries 0 (by decide +kernel)) _ (by decide +kernel)

end AppPortKit.Bmfs
