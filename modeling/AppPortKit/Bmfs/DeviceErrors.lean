import AppPortKit.Bmfs.Clamps
import AppPortKit.Bmfs.FailingLoops

/-!
# Failing transfers

The loops and the flush ignore what the drive reports, so an operation reports success
whatever the drive did.  What it reports is true exactly if the failures on the way did no
harm: what a failed write was to store was there already, and what a failed read was to
fetch was in the scratch sector.
-/

namespace AppPortKit.Bmfs

open Libc SectorStore Transition

/-- What an operation on an open file reports is true: bytes reported as written are
on the drive and all others are as before, bytes reported as read are those of the
drive, and a file that grew and is reported as closed has its size recorded. -/
structure Honest (s : State) (fd : Int) (index : Fin 8) (call : Call) : Prop where
  write : ∀ buf len, call = .write fd buf len → 0 < (fileSystem.reply s call).ret →
    ∀ address, cell (fileSystem.next s call).device.disk address =
      if (s.files index).address (s.files index).offset.toNat ≤ address ∧
          address < (s.files index).address (s.files index).offset.toNat +
            (fileSystem.reply s call).ret.toNat then
        buf (address - (s.files index).address (s.files index).offset.toNat)
      else
        cell s.device.disk address
  read : ∀ len, call = .read fd len → 0 < (fileSystem.reply s call).ret →
    (fileSystem.reply s call).bytes =
      (List.range (fileSystem.reply s call).ret.toNat).map fun offset =>
        cell s.device.disk ((s.files index).address (s.files index).pos.toNat + offset)
  close : call = .close fd → (fileSystem.reply s call).ret = 0 →
    (s.files index).dirty = true →
      (Dir.decode ((fileSystem.next s call).device.disk 1) (s.files index).dirIndex).size =
        (s.files index).size

/-- The failures of the drive during an operation on an open file do no harm.  The calls
are those of a transfer of the bytes left in the file or the room left in its blocks, or
the flush of the directory; a transfer whose sum wraps reports no success. -/
structure Harmless (s : State) (fd : Int) (index : Fin 8) (call : Call) : Prop where
  write : ∀ buf len, call = .write fd buf len →
    (s.files index).room len (s.files index).offset ≠ 0 →
    (s.files index).offset.toNat + len.toNat < 18446744073709551616 →
      SectorLoop.Stores ⟨s.device, s.scratch,
        (s.files index).address (s.files index).offset.toNat,
        (s.files index).room len (s.files index).offset⟩ buf
  read : ∀ len, call = .read fd len →
    (s.files index).pos.toNat + len.toNat < 18446744073709551616 →
      SectorLoop.Delivers ⟨s.device, s.scratch,
        (s.files index).address (s.files index).pos.toNat,
        (s.files index).left len (s.files index).pos⟩
  close : call = .close fd → (s.files index).dirty = true →
    s.device.fails s.device.calls = true →
      (Dir.decode (s.device.disk 1) (s.files index).dirIndex).size = (s.files index).size

/-! ## Operations -/

section Operations

variable {s : State} {index : Fin 8} {len : UInt64}

/-- Bytes reported as written are stored exactly if the failures did no harm. -/
theorem bmfsWrite_honest_iff (addressable : (s.files index).Addressable) (buf : Nat → UInt8) :
    (0 < (bmfsWrite s index buf len).1 → ∀ address,
      cell (bmfsWrite s index buf len).2.device.disk address =
        if (s.files index).address (s.files index).offset.toNat ≤ address ∧
            address < (s.files index).address (s.files index).offset.toNat +
              (bmfsWrite s index buf len).1.toNat then
          buf (address - (s.files index).address (s.files index).offset.toNat)
        else
          cell s.device.disk address) ↔
      ((s.files index).room len (s.files index).offset ≠ 0 →
        (s.files index).offset.toNat + len.toNat < 18446744073709551616 →
          SectorLoop.Stores ⟨s.device, s.scratch,
            (s.files index).address (s.files index).offset.toNat,
            (s.files index).room len (s.files index).offset⟩ buf) := by
  by_cases noWrap : (s.files index).offset.toNat < (s.files index).cap →
      (s.files index).offset.toNat + len.toNat < 18446744073709551616
  · rcases bmfsWrite_exact addressable buf noWrap with
      ⟨full, ret, -⟩ | ⟨n, base, count, nonzero, start, inside, ret, device⟩
    · refine iff_of_true (fun positive => ?_) fun room => absurd full room
      rw [ret] at positive
      exact absurd positive (by decide)
    · have inRange : base.toNat + n.toNat < 18446744073709551616 := by
        have := addressable.address_add_lt inside
        omega
      have more : n ≠ 0 := fun zero => nonzero (zero ▸ rfl)
      have room : (s.files index).offset.toNat < (s.files index).cap := by omega
      rw [ret, device, ← start, ← count, forall_prop_of_true (by omega),
        forall_prop_of_true nonzero, forall_prop_of_true (noWrap room), Int.toNat_natCast]
      exact SectorLoop.pwriteLoop_cell_iff s.device s.scratch inRange buf more
  · obtain ⟨inside, wraps⟩ := Classical.not_imp.mp noWrap
    have negative := bmfsWrite_of_wrap addressable buf inside (Nat.le_of_not_lt wraps)
    exact iff_of_true (fun positive => absurd positive (Int.not_lt.mpr (Int.le_of_lt negative)))
      fun _ fits => absurd fits wraps

/-- Bytes reported as read are those of the drive exactly if the failures did no harm. -/
theorem bmfsRead_honest_iff (contained : (s.files index).Contained) :
    (0 < (bmfsRead s index len).1 → (bmfsRead s index len).2.1 =
      (List.range (bmfsRead s index len).1.toNat).map fun offset =>
        cell s.device.disk ((s.files index).address (s.files index).pos.toNat + offset)) ↔
      ((s.files index).pos.toNat + len.toNat < 18446744073709551616 →
        SectorLoop.Delivers ⟨s.device, s.scratch,
          (s.files index).address (s.files index).pos.toNat,
          (s.files index).left len (s.files index).pos⟩) := by
  by_cases noWrap : (s.files index).pos.toNat < (s.files index).size.toNat →
      (s.files index).pos.toNat + len.toNat < 18446744073709551616
  · rcases bmfsRead_exact contained noWrap with
      ⟨left, nothing⟩ | ⟨n, base, count, before, start, inside, ret, bytes, -⟩
    · refine iff_of_true (fun positive => ?_) fun _ address within => ?_
      · rw [nothing] at positive
        exact absurd positive (Int.lt_irrefl 0)
      · obtain ⟨low, high⟩ := within
        dsimp only at low high
        omega
    · have inRange : base.toNat + n.toNat < 18446744073709551616 := by
        have := contained.2.address_add_lt inside
        omega
      have trivially : ¬0 < (n.toNat : Int) → (preadLoop s.device s.scratch base n).1 =
          (List.range n.toNat).map fun offset => cell s.device.disk (base.toNat + offset) := by
        intro zero
        obtain rfl : n = 0 := UInt64.toNat_inj.mp (by rw [UInt64.toNat_zero]; omega)
        rw [preadLoop_zero]
        rfl
      rw [ret, bytes, ← start, ← count, forall_prop_of_true (noWrap before), Int.toNat_natCast,
        ← SectorLoop.preadLoop_bytes_iff s.device s.scratch inRange]
      exact ⟨fun delivered => (em _).elim delivered trivially, fun delivered _ => delivered⟩
  · obtain ⟨inside, wraps⟩ := Classical.not_imp.mp noWrap
    have negative := bmfsRead_of_wrap contained inside (Nat.le_of_not_lt wraps)
    exact iff_of_true (fun positive => absurd positive (Int.not_lt.mpr (Int.le_of_lt negative)))
      fun fits => absurd fits wraps

/-- The size of a file that grew is recorded exactly if a failure of the flush did no
harm. -/
theorem bmfsClose_honest_iff (dirty : (s.files index).dirty = true) :
    (Dir.decode ((bmfsClose s index).2.device.disk 1) (s.files index).dirIndex).size =
        (s.files index).size ↔
      (s.device.fails s.device.calls = true →
        (Dir.decode (s.device.disk 1) (s.files index).dirIndex).size =
          (s.files index).size) := by
  rw [bmfsClose_of_dirty dirty, device_setFile, State.edit, device_dirFlush, Device.nvsWrite_disk]
  split
  next failed => exact ⟨fun recorded _ => recorded, fun recorded => recorded failed⟩
  next served =>
    refine iff_of_true ?_ fun failed => absurd failed served
    simp [dirSector, Dir.decode_encode, Dir.resize]

end Operations

/-- Whatever state a call is made in and whatever the drive fails: what an operation on an
open file reports is true if and only if the failures did no harm. -/
theorem honest_iff_harmless (s : State) (fd : Int) (index : Fin 8) (call : Call)
    (opened : openIndex s fd = some index) (contained : (s.files index).Contained) :
    Honest s fd index call ↔ Harmless s fd index call := by
  constructor
  · intro honest
    constructor
    · rintro buf len rfl
      have stored := honest.write buf len rfl
      rw [reply_eq_serve, next_eq_serve, serve_write opened, Reply.ret_ofResult,
        Reply.state_ofResult] at stored
      exact (bmfsWrite_honest_iff contained.2 buf).mp stored
    · rintro len rfl
      have delivered := honest.read len rfl
      rw [reply_eq_serve, serve_read opened] at delivered
      exact (bmfsRead_honest_iff contained).mp delivered
    · rintro rfl dirty
      have recorded := honest.close rfl
      rw [reply_eq_serve, next_eq_serve, serve_close opened, Reply.ret_ofResult,
        Reply.state_ofResult] at recorded
      refine (bmfsClose_honest_iff dirty).mp (recorded ?_ dirty)
      rw [bmfsClose_of_dirty dirty]
  · intro harmless
    constructor
    · rintro buf len rfl
      rw [reply_eq_serve, next_eq_serve, serve_write opened, Reply.ret_ofResult,
        Reply.state_ofResult]
      exact (bmfsWrite_honest_iff contained.2 buf).mpr (harmless.write buf len rfl)
    · rintro len rfl
      rw [reply_eq_serve, serve_read opened]
      exact (bmfsRead_honest_iff contained).mpr (harmless.read len rfl)
    · rintro rfl - dirty
      rw [next_eq_serve, serve_close opened, Reply.state_ofResult]
      exact (bmfsClose_honest_iff dirty).mpr (harmless.close rfl dirty)

/-- The file `a`, created and open, over a drive that fails one call. -/
def openedOver (failing : Nat) : State :=
  fileSystem.next (State.boot blankDisk fun call => call == failing) (.open nameA oCreat)

/-- The write of a sector fails and the byte is reported as written; the read of a
sector fails and a byte of the sector transferred before is reported as read; the
flush fails and the file is reported as closed. -/
theorem failures_reported_as_success :
    ¬Honest (openedOver 3) 3 0 (.write 3 (fun _ => 7) 1) ∧
      ¬Honest (fileSystem.run (openedOver 6) [.write 3 (fun _ => 7) 1, .lseek 3 4096 0,
        .write 3 (fun _ => 9) 1, .lseek 3 0 0]) 3 0 (.read 3 1) ∧
      ¬Honest (fileSystem.run (openedOver 4) [.write 3 (fun _ => 7) 1]) 3 0 (.close 3) := by
  refine ⟨fun honest => ?_, fun honest => ?_, fun honest => ?_⟩
  · have stored := honest.write _ _ rfl (by decide +kernel) 2097152
    revert stored
    decide +kernel
  · have read := honest.read _ rfl (by decide +kernel)
    revert read
    decide +kernel
  · have recorded := honest.close rfl (by decide +kernel) (by decide +kernel)
    revert recorded
    decide +kernel

/-- With a failure after the write, its byte is there. -/
theorem servedWrite_honest : Honest (openedOver 4) 3 0 (.write 3 (fun _ => 7) 1) := by
  refine (honest_iff_harmless (openedOver 4) 3 0 _ (by decide +kernel)
    ⟨by simp only [File.Fits]; decide +kernel,
      by simp only [File.Addressable]; decide +kernel⟩).mpr
    ⟨?_, fun _ => Call.noConfusion, Call.noConfusion⟩
  rintro buf len called - -
  cases called
  have base : ((openedOver 4).files 0).address ((openedOver 4).files 0).offset.toNat = 2097152 ∧
      ((openedOver 4).files 0).room 1 ((openedOver 4).files 0).offset = 1 := by
    decide +kernel
  rw [base.1, base.2]
  refine .of_served fun turn touched => ?_
  have only : turn = 0 := by
    obtain ⟨-, last⟩ := touched
    simp only [SectorLoop.sector] at last
    omega
  subst only
  decide +kernel

end AppPortKit.Bmfs
