import AppPortKit.Bmfs.Handles

/-!
# Transfers at a position

`bmfs_pread` and `bmfs_pwrite` on any open file whose blocks have byte addresses that
fit in a word.  Whatever the scratch sector held, a write puts its bytes at their
addresses and leaves every other byte of the drive alone, and a read delivers the bytes
at its addresses and changes nothing.
-/

namespace AppPortKit.Bmfs

open Libc SectorStore

/-- The blocks of an open file end below block `2 ^ 43`, so byte addresses stay below
`2 ^ 64`. -/
def File.Spanned (f : File) : Prop :=
  f.startBlock.toNat + f.reservedBlocks.toNat < 8796093022208

/-- The bytes a write has room for. -/
def File.room (f : File) (len off : UInt64) : Nat := min len.toNat (f.cap - off.toNat)

/-- The bytes a read finds before the end of the file. -/
def File.left (f : File) (len off : UInt64) : Nat := min len.toNat (f.size.toNat - off.toNat)

namespace File.Spanned

variable {f : File} (spanned : f.Spanned)

include spanned

theorem cap_toNat : (f.reservedBlocks * blockBytes).toNat = f.cap := by
  rw [File.Spanned] at spanned
  rw [Word64.toNat_mul_of_lt (by rw [blockBytes_toNat]; omega), blockBytes_toNat, File.cap]

theorem address_toNat {off : UInt64} (inside : off.toNat < f.cap) :
    (f.startBlock * blockBytes + off).toNat = f.address off.toNat := by
  rw [File.Spanned] at spanned
  rw [File.cap] at inside
  have start : (f.startBlock * blockBytes).toNat = f.startBlock.toNat * 2097152 := by
    rw [Word64.toNat_mul_of_lt (by rw [blockBytes_toNat]; omega), blockBytes_toNat]
  rw [Word64.toNat_add_of_lt (by omega), start, File.address]

/-- Transfers within the capacity do not leave the address space. -/
theorem address_add_lt {off count : Nat} (inside : off + count ≤ f.cap) :
    f.address off + count < 18446744073709551616 := by
  rw [File.Spanned] at spanned
  rw [File.cap] at inside
  rw [File.address]
  omega

end File.Spanned

/-- Only a transfer of nothing is cut off to nothing before the limit. -/
theorem clampLen_eq_zero_iff {limit off : UInt64} (inside : off < limit) (len : UInt64) :
    clampLen limit off len = 0 ↔ len = 0 := by
  rw [clampLen]
  split
  next cut =>
    have rest : (limit - off).toNat = limit.toNat - off.toNat :=
      UInt64.toNat_sub_of_le _ _ (UInt64.le_of_lt inside)
    rw [UInt64.lt_iff_toNat_lt] at inside
    constructor
    · intro nothing
      rw [nothing, UInt64.toNat_zero] at rest
      omega
    · rintro rfl
      rw [UInt64.add_zero, gt_iff_lt, UInt64.lt_iff_toNat_lt] at cut
      omega
  next whole => exact Iff.rfl

/-- A write does not change which calls the drive fails. -/
theorem fails_bmfsPwrite (s : State) (index : Fin 8) (buf : Nat → UInt8) (len off : UInt64) :
    (bmfsPwrite s index buf len off).2.device.fails = s.device.fails := by
  rcases bmfsPwrite_cases s index buf len off with ⟨-, refused⟩ | ⟨n, base, -, -, -, -, stored⟩
  · rw [refused]
  · obtain ⟨writes, wrote⟩ := pwriteLoop_appends s.device s.scratch buf base n
    rw [stored, device_setFile, device_transfer, wrote.fails]

section Transfers

variable {s : State} {len off : UInt64}
  (noWrap : off.toNat + len.toNat < 18446744073709551616)

include noWrap

/-- A read returns the number of bytes left and delivers as many from the drive. -/
theorem bmfsPread_exact (reliable : s.device.Reliable) {f : File} (spanned : f.Spanned)
    (fits : f.Fits) :
    (bmfsPread s f len off).1 = Word64.signed (UInt64.ofNat (f.left len off)) ∧
      (bmfsPread s f len off).2.1 = (List.range (f.left len off)).map fun index =>
        cell s.device.disk (f.address off.toNat + index) := by
  rw [File.Fits] at fits
  by_cases past : f.size.toNat ≤ off.toNat
  · have full : f.left len off = 0 := by
      rw [File.left]
      omega
    rw [bmfsPread_of_past s len past, full]
    exact ⟨rfl, rfl⟩
  · rw [Nat.not_le] at past
    have clamped : (clampLen f.size off len).toNat = f.left len off := clampLen_toNat past noWrap
    have word : clampLen f.size off len = UInt64.ofNat (f.left len off) := by
      rw [← clamped, UInt64.ofNat_toNat]
    have start := spanned.address_toNat (Nat.lt_of_lt_of_le past fits)
    have inside : off.toNat + f.left len off ≤ f.cap := by
      rw [File.left]
      omega
    have inRange : (f.startBlock * blockBytes + off).toNat + (clampLen f.size off len).toNat <
        18446744073709551616 := by
      rw [start, clamped]
      exact spanned.address_add_lt inside
    obtain ⟨state, result⟩ := bmfsPread_of_lt s len past
    rw [result]
    constructor
    · rw [word]
    · rw [preadLoop_bytes reliable s.scratch inRange, clamped, start]

variable {index : Fin 8} (spanned : (s.files index).Spanned) (buf : Nat → UInt8)

include spanned

/-- A write without room changes nothing; one with room runs the loop on as many bytes
as there is room for. -/
theorem bmfsPwrite_exact :
    (s.files index).room len off = 0 ∧ bmfsPwrite s index buf len off = (-ENOSPC, s) ∨
      ∃ n base : UInt64, n.toNat = (s.files index).room len off ∧ n ≠ 0 ∧
        base.toNat = (s.files index).address off.toNat ∧
        off.toNat + n.toNat ≤ (s.files index).cap ∧
        bmfsPwrite s index buf len off = (Word64.signed n, { s with
          scratch := (pwriteLoop s.device s.scratch buf base n).1
          device := (pwriteLoop s.device s.scratch buf base n).2 }.setFile index
            (grownFile (s.files index) n off)) := by
  rcases bmfsPwrite_cases s index buf len off with
    ⟨reason, refused⟩ | ⟨n, base, count, start, inside, nonzero, stored⟩
  · refine .inl ⟨?_, refused⟩
    rw [File.room]
    by_cases past : off ≥ (s.files index).reservedBlocks * blockBytes
    · rw [ge_iff_le, UInt64.le_iff_toNat_le, spanned.cap_toNat] at past
      omega
    · have nothing := (clampLen_eq_zero_iff (UInt64.not_le.mp past) len).mp
        (reason.resolve_left past)
      rw [nothing, UInt64.toNat_zero, Nat.zero_min]
  · have below := UInt64.lt_iff_toNat_lt.mp inside
    have clamped : n.toNat = (s.files index).room len off := by
      rw [count, clampLen_toNat below noWrap, spanned.cap_toNat, File.room]
    rw [spanned.cap_toNat] at below
    have within : off.toNat + n.toNat ≤ (s.files index).cap := by
      rw [clamped, File.room]
      omega
    exact .inr ⟨n, base, clamped, nonzero, start ▸ spanned.address_toNat below, within, stored⟩

/-- The result of a write. -/
theorem bmfsPwrite_ret :
    (bmfsPwrite s index buf len off).1 =
      if (s.files index).room len off = 0 then -ENOSPC
      else Word64.signed (UInt64.ofNat ((s.files index).room len off)) := by
  rcases bmfsPwrite_exact noWrap spanned buf with
    ⟨full, refused⟩ | ⟨n, base, count, nonzero, -, -, stored⟩
  · rw [refused, if_pos full]
  · have roomy : (s.files index).room len off ≠ 0 := by
      rw [← count]
      simpa [← UInt64.toNat_inj] using nonzero
    rw [stored, if_neg roomy, ← count, UInt64.ofNat_toNat]

/-- A write changes exactly the bytes it has room for. -/
theorem bmfsPwrite_cell (reliable : s.device.Reliable) (address : Nat) :
    cell (bmfsPwrite s index buf len off).2.device.disk address =
      if (s.files index).address off.toNat ≤ address ∧
          address < (s.files index).address off.toNat + (s.files index).room len off then
        buf (address - (s.files index).address off.toNat)
      else
        cell s.device.disk address := by
  rcases bmfsPwrite_exact noWrap spanned buf with
    ⟨full, refused⟩ | ⟨n, base, count, -, start, within, stored⟩
  · rw [refused, full, if_neg (by omega)]
  · have inRange := spanned.address_add_lt within
    rw [stored, device_setFile, device_transfer,
      pwriteLoop_cell reliable s.scratch buf (by rw [start]; exact inRange), start, count]

/-- After a write the open file ends where it did or where the write did. -/
theorem bmfsPwrite_file :
    ((s.files index).SameHandle ((bmfsPwrite s index buf len off).2.files index)) ∧
      ((bmfsPwrite s index buf len off).2.files index).size.toNat =
        max (s.files index).size.toNat
          (if (s.files index).room len off = 0 then 0
            else off.toNat + (s.files index).room len off) := by
  rcases bmfsPwrite_exact noWrap spanned buf with
    ⟨full, refused⟩ | ⟨n, base, count, nonzero, start, within, stored⟩
  · rw [refused, if_pos full, Nat.max_zero]
    exact ⟨.refl _, rfl⟩
  · have roomy : (s.files index).room len off ≠ 0 := by
      rw [← count]
      simpa [← UInt64.toNat_inj] using nonzero
    have inRange := spanned.address_add_lt within
    rw [stored, files_setFile, Function.update_self, if_neg roomy, ← count]
    refine ⟨sameHandle_grownFile _ _ _, size_grownFile _ ?_⟩
    rw [File.address] at inRange
    omega

end Transfers

/-- The bytes of a write at an offset, over those that were there. -/
def overlaid (old buf : Nat → UInt8) (off count : Nat) (position : Nat) : UInt8 :=
  if off ≤ position ∧ position < off + count then buf (position - off) else old position

/-- For every drive, scratch sector, open file and buffer: a write stores the bytes it
has room for at their addresses and changes no other byte; a read delivers the bytes at
its addresses and writes nothing; so a read after a write delivers the written bytes
where they overlap and the old ones elsewhere. -/
theorem sector_loops_exact (s : State) (index : Fin 8) (buf : Nat → UInt8) (len off : UInt64)
    (reliable : s.device.Reliable) (spanned : (s.files index).Spanned)
    (fits : (s.files index).Fits)
    (noWrap : off.toNat + len.toNat < 18446744073709551616) :
    ((bmfsPwrite s index buf len off).1 =
        (if (s.files index).room len off = 0 then -ENOSPC
          else Word64.signed (UInt64.ofNat ((s.files index).room len off))) ∧
      ∀ address, cell (bmfsPwrite s index buf len off).2.device.disk address =
        if (s.files index).address off.toNat ≤ address ∧
            address < (s.files index).address off.toNat + (s.files index).room len off then
          buf (address - (s.files index).address off.toNat)
        else
          cell s.device.disk address) ∧
    ((bmfsPread s (s.files index) len off).1 =
        Word64.signed (UInt64.ofNat ((s.files index).left len off)) ∧
      (bmfsPread s (s.files index) len off).2.1 =
        ((List.range ((s.files index).left len off)).map fun position =>
          cell s.device.disk ((s.files index).address off.toNat + position)) ∧
      (bmfsPread s (s.files index) len off).2.2.device.disk = s.device.disk) ∧
    ∀ len' off' : UInt64, off'.toNat + len'.toNat < 18446744073709551616 →
      (bmfsPread (bmfsPwrite s index buf len off).2
          ((bmfsPwrite s index buf len off).2.files index) len' off').2.1 =
        (List.range (((bmfsPwrite s index buf len off).2.files index).left len' off')).map
          fun position =>
            overlaid (fun old => cell s.device.disk ((s.files index).address old)) buf off.toNat
              ((s.files index).room len off) (off'.toNat + position) := by
  obtain ⟨-, bytes⟩ := bmfsPread_exact noWrap reliable spanned fits
  obtain ⟨scratch, device, state, media⟩ := bmfsPread_state s (s.files index) len off
  refine ⟨⟨bmfsPwrite_ret noWrap spanned buf, bmfsPwrite_cell noWrap spanned buf reliable⟩,
    ⟨(bmfsPread_exact noWrap reliable spanned fits).1, bytes, ?_⟩, ?_⟩
  · rw [state, device_transfer, media.disk]
  · intro len' off' noWrap'
    obtain ⟨same, size⟩ := bmfsPwrite_file noWrap spanned buf
    have spanned' : ((bmfsPwrite s index buf len off).2.files index).Spanned := by
      rw [File.Spanned, same.startBlock, same.reservedBlocks]
      exact spanned
    have fits' : ((bmfsPwrite s index buf len off).2.files index).Fits := by
      rw [File.Fits, size, File.cap, same.reservedBlocks, ← File.cap]
      rw [File.Fits] at fits
      rw [File.room]
      split <;> omega
    have reliable' := reliable.of_fails_eq (fails_bmfsPwrite s index buf len off)
    rw [(bmfsPread_exact noWrap' reliable' spanned' fits').2]
    apply List.map_congr_left
    intro position _
    rw [bmfsPwrite_cell noWrap spanned buf reliable, overlaid]
    simp only [File.address, same.startBlock, Nat.add_assoc, Nat.add_le_add_iff_left,
      Nat.add_lt_add_iff_left, Nat.add_sub_add_left]

/-- All descriptors are open on a file of one sector, on a blank drive. -/
def oneSectorOpen : State :=
  { State.boot blankDisk fun _ => false with
    files := fun _ =>
      { used := true, dirty := false, append := false, dirIndex := Dir.first, startBlock := 1
        reservedBlocks := 1, size := 4096, pos := 0 } }

/-- Two bytes are stored across the end of the sector, and read back with the byte before
them. -/
theorem storedAcrossSectors_readBack :
    (bmfsPread (bmfsPwrite oneSectorOpen 0 (fun _ => 7) 2 4095).2
      ((bmfsPwrite oneSectorOpen 0 (fun _ => 7) 2 4095).2.files 0) 4 4094).2.1 = [0, 7, 7] :=
  ((sector_loops_exact oneSectorOpen 0 (fun _ => 7) 2 4095 (fun _ => rfl)
    (by simp only [File.Spanned]; decide) (by simp only [File.Fits]; decide)
    (by decide)).2.2 4 4094 (by decide)).trans (by decide +kernel)

end AppPortKit.Bmfs
