import AppPortKit.Bmfs.Extents
import AppPortKit.Bmfs.Positioned

/-!
# Clamped lengths

`bmfs_pread` and `bmfs_pwrite` cut a length off at the end of the file or of its blocks.
A sum of offset and length that does not wrap leaves the loop exactly the bytes there
are, within the sectors of the file.  One that wraps passes the test, and the whole
length with it: so many bytes that the count is reported as a negative number.
-/

namespace AppPortKit.Bmfs

open Libc SectorStore

/-- The sectors of an open file's blocks. -/
def File.sectors (f : File) : Set Nat :=
  Set.Ico (f.startBlock.toNat * 512) ((f.startBlock.toNat + f.reservedBlocks.toNat) * 512)

/-- A transfer within the blocks of a file is one of its sectors. -/
theorem sectorsOf_subset_sectors {f : File} {off count : Nat} (inside : off + count ≤ f.cap) :
    sectorsOf (f.address off) count ⊆ f.sectors := by
  rintro sector ⟨first, last⟩
  rw [File.address] at first last
  rw [File.cap] at inside
  rw [File.sectors, Set.mem_Ico]
  omega

variable {s : State} {index : Fin 8} {len : UInt64}

section Read

variable (contained : (s.files index).Contained)

include contained

/-- A read past the end delivers nothing; any other runs the loop on the bytes left. -/
theorem bmfsRead_exact
    (noWrap : (s.files index).pos.toNat < (s.files index).size.toNat →
      (s.files index).pos.toNat + len.toNat < 18446744073709551616) :
    ((s.files index).left len (s.files index).pos = 0 ∧ bmfsRead s index len = (0, [], s)) ∨
      ∃ n base : UInt64, n.toNat = (s.files index).left len (s.files index).pos ∧
        (s.files index).pos.toNat < (s.files index).size.toNat ∧
        base.toNat = (s.files index).address (s.files index).pos.toNat ∧
        (s.files index).pos.toNat + n.toNat ≤ (s.files index).cap ∧
        (bmfsRead s index len).1 = n.toNat ∧
        (bmfsRead s index len).2.1 = (preadLoop s.device s.scratch base n).1 ∧
        (bmfsRead s index len).2.2.device = (preadLoop s.device s.scratch base n).2.2 := by
  obtain ⟨fits, addressable⟩ := contained
  have small := addressable.cap_le
  rw [File.Fits] at fits
  by_cases past : (s.files index).size.toNat ≤ (s.files index).pos.toNat
  · refine .inl ⟨?_, ?_⟩
    · rw [File.left]
      omega
    · rw [bmfsRead, bmfsPread_of_past s len past, advance_zero]
  · rw [Nat.not_le] at past
    have clamped : (clampLen (s.files index).size (s.files index).pos len).toNat =
        (s.files index).left len (s.files index).pos := clampLen_toNat past (noWrap past)
    have inside : (s.files index).pos.toNat + (s.files index).left len (s.files index).pos ≤
        (s.files index).cap := by
      rw [File.left]
      omega
    have before : ¬(s.files index).pos ≥ (s.files index).size := by
      rw [ge_iff_le, UInt64.le_iff_toNat_le]
      omega
    refine .inr ⟨_, _, clamped, past, addressable.address_toNat (by omega), clamped ▸ inside, ?_⟩
    simp only [bmfsRead, device_advance, bmfsPread, before, ↓reduceIte, and_true]
    exact Word64.signed_of_lt (by omega)

/-- A sum that wraps lets the whole length pass. -/
theorem bmfsRead_of_wrap (inside : (s.files index).pos.toNat < (s.files index).size.toNat)
    (wraps : 18446744073709551616 ≤ (s.files index).pos.toNat + len.toNat) :
    (bmfsRead s index len).1 < 0 := by
  have small := contained.2.cap_le
  have fits := contained.1
  rw [File.Fits] at fits
  obtain ⟨state, result⟩ := bmfsPread_of_lt s len inside
  rw [bmfsRead, result, clampLen_of_wrap inside wraps]
  exact Word64.signed_neg_of_le (by omega)

end Read

/-- A read that does not wrap moves to the end of the file at most. -/
theorem pos_bmfsRead_lt (contained : (s.files index).Contained)
    (position : (s.files index).pos.toNat < 9223372036854775808)
    (noWrap : (s.files index).pos.toNat < (s.files index).size.toNat →
      (s.files index).pos.toNat + len.toNat < 18446744073709551616) :
    (if (bmfsRead s index len).1 > 0 then
        (s.files index).pos + UInt64.ofNat (bmfsRead s index len).1.toNat
      else (s.files index).pos).toNat < 9223372036854775808 := by
  have small := contained.2.cap_le
  rcases bmfsRead_exact contained noWrap with
    ⟨-, nothing⟩ | ⟨n, base, -, -, -, inside, ret, -⟩
  · rw [nothing]
    exact position
  · rw [ret, Int.toNat_natCast, UInt64.ofNat_toNat]
    split
    · rw [Word64.toNat_add_of_lt (by omega)]
      omega
    · exact position

/-- A write depends on its length through the clamp alone. -/
theorem bmfsWrite_of_clampLen_eq (buf : Nat → UInt8) {len' : UInt64}
    (same : clampLen ((s.files index).reservedBlocks * blockBytes) (s.files index).offset len' =
      clampLen ((s.files index).reservedBlocks * blockBytes) (s.files index).offset len) :
    bmfsWrite s index buf len' = bmfsWrite s index buf len := by
  simp only [bmfsWrite, seekForAppend_eq, bmfsPwrite, files_setFile, Function.update_self, same]

section Write

variable (addressable : (s.files index).Addressable)

include addressable

/-- A write whose sum does not wrap is a write of less than `2 ^ 63` bytes. -/
theorem exists_short_write
    (noWrap : (s.files index).offset.toNat < (s.files index).cap →
      (s.files index).offset.toNat + len.toNat < 18446744073709551616) :
    ∃ len' : UInt64, len'.toNat < 9223372036854775808 ∧
      (s.files index).room len' (s.files index).offset =
        (s.files index).room len (s.files index).offset ∧
      ∀ buf, bmfsWrite s index buf len' = bmfsWrite s index buf len := by
  have small := addressable.cap_le
  by_cases full : (s.files index).cap ≤ (s.files index).offset.toNat
  · refine ⟨0, by decide, ?_, fun buf => ?_⟩
    · rw [File.room, File.room]
      omega
    · rw [bmfsWrite_of_full addressable buf (.inl full),
        bmfsWrite_of_full addressable buf (.inl full)]
  · rw [Nat.not_le] at full
    have limit := addressable.cap_toNat
    have inside : (s.files index).offset.toNat <
        ((s.files index).reservedBlocks * blockBytes).toNat := by
      rw [limit]
      exact full
    have clamped := clampLen_toNat inside (noWrap full)
    rw [limit] at clamped
    refine ⟨clampLen ((s.files index).reservedBlocks * blockBytes) (s.files index).offset len,
      by omega, ?_, fun buf => bmfsWrite_of_clampLen_eq buf ?_⟩
    · rw [File.room, File.room, clamped]
      omega
    · apply UInt64.toNat_inj.mp
      rw [clampLen_toNat inside (by omega), clamped, limit]
      omega

/-- A write without room is refused; any other runs the loop on the bytes there is room
for. -/
theorem bmfsWrite_exact (buf : Nat → UInt8)
    (noWrap : (s.files index).offset.toNat < (s.files index).cap →
      (s.files index).offset.toNat + len.toNat < 18446744073709551616) :
    ((s.files index).room len (s.files index).offset = 0 ∧
      (bmfsWrite s index buf len).1 = -ENOSPC ∧
      (bmfsWrite s index buf len).2.device = s.device) ∨
      ∃ n base : UInt64, n.toNat = (s.files index).room len (s.files index).offset ∧
        n.toNat ≠ 0 ∧
        base.toNat = (s.files index).address (s.files index).offset.toNat ∧
        (s.files index).offset.toNat + n.toNat ≤ (s.files index).cap ∧
        (bmfsWrite s index buf len).1 = n.toNat ∧
        (bmfsWrite s index buf len).2.device = (pwriteLoop s.device s.scratch buf base n).2 := by
  obtain ⟨len', short, room, same⟩ := exists_short_write addressable noWrap
  rw [← same, ← room, File.room]
  by_cases full : (s.files index).cap ≤ (s.files index).offset.toNat ∨ len' = 0
  · refine .inl ⟨?_, ?_⟩
    · rcases full with outside | rfl
      · omega
      · exact Nat.zero_min _
    · rw [bmfsWrite_of_full addressable buf full]
      exact ⟨rfl, rfl⟩
  · obtain ⟨inside, nonempty⟩ := not_or.mp full
    have nonzero : len'.toNat ≠ 0 := by simpa [← UInt64.toNat_inj] using nonempty
    rw [Nat.not_le] at inside
    obtain ⟨n, base, count, start, stored⟩ :=
      bmfsWrite_of_room addressable buf short nonempty inside
    refine .inr ⟨n, base, count, by omega, start, by omega, ?_⟩
    rw [stored]
    exact ⟨rfl, rfl⟩

/-- A sum that wraps lets the whole length pass. -/
theorem bmfsWrite_of_wrap (buf : Nat → UInt8)
    (inside : (s.files index).offset.toNat < (s.files index).cap)
    (wraps : 18446744073709551616 ≤ (s.files index).offset.toNat + len.toNat) :
    (bmfsWrite s index buf len).1 < 0 := by
  have small := addressable.cap_le
  have limit := addressable.cap_toNat
  rcases bmfsWrite_cases s index buf len with
    ⟨-, refused⟩ | ⟨n, base, count, -, -, -, stored⟩
  · rw [refused]
    exact (by decide : -ENOSPC < 0)
  · rw [clampLen_of_wrap (by rw [limit]; exact inside) wraps] at count
    rw [stored, count]
    exact Word64.signed_neg_of_le (by omega)

end Write

end AppPortKit.Bmfs
