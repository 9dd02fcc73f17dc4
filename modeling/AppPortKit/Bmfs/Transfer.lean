import AppPortKit.Bmfs.Core

/-!
# The sector loops

Reads and writes move one sector at a time through the scratch buffer.  The
lemmas below give the loops' effect on the flat array of bytes of the drive,
whatever the alignment, the length and the former contents of the buffer.
-/

namespace AppPortKit.Bmfs

open SectorStore

/-! ## Unfolding one iteration -/

theorem preadLoop_zero (device : Device) (scratch : Sector) (base : UInt64) :
    preadLoop device scratch base 0 = ([], scratch, device) := by
  rw [preadLoop, if_pos rfl]

theorem preadLoop_of_ne_zero (device : Device) (scratch : Sector) (base : UInt64)
    {remaining : UInt64} (more : remaining ≠ 0) :
    preadLoop device scratch base remaining =
      (((List.range (chunkLen base remaining).toNat).map fun index =>
          (device.nvsRead scratch (base / sectorBytes)).2.1
            (place 4096 ((base % sectorBytes).toNat + index))) ++
        (preadLoop (device.nvsRead scratch (base / sectorBytes)).2.2
          (device.nvsRead scratch (base / sectorBytes)).2.1
          (base + chunkLen base remaining) (remaining - chunkLen base remaining)).1,
        (preadLoop (device.nvsRead scratch (base / sectorBytes)).2.2
          (device.nvsRead scratch (base / sectorBytes)).2.1
          (base + chunkLen base remaining) (remaining - chunkLen base remaining)).2) := by
  rw [preadLoop, if_neg more]

/-- The sector the next iteration of the write loop starts from: read back for a
partial sector, left over for a whole one. -/
def fillScratch (device : Device) (scratch : Sector) (base remaining : UInt64) :
    Sector × Device :=
  if chunkLen base remaining < sectorBytes then
    (device.nvsRead scratch (base / sectorBytes)).2
  else
    (scratch, device)

/-- The sector the next iteration of the write loop writes. -/
def splicedScratch (device : Device) (scratch : Sector) (src : Nat → UInt8)
    (base remaining : UInt64) : Sector :=
  splice (fillScratch device scratch base remaining).1 (base % sectorBytes).toNat
    (chunkLen base remaining).toNat src

/-- The drive after the next iteration of the write loop. -/
def writtenDevice (device : Device) (scratch : Sector) (src : Nat → UInt8)
    (base remaining : UInt64) : Device :=
  ((fillScratch device scratch base remaining).2.nvsWrite
    (splicedScratch device scratch src base remaining) (base / sectorBytes)).2

theorem pwriteLoop_zero (device : Device) (scratch : Sector) (src : Nat → UInt8)
    (base : UInt64) : pwriteLoop device scratch src base 0 = (scratch, device) := by
  rw [pwriteLoop, if_pos rfl]

theorem pwriteLoop_of_ne_zero (device : Device) (scratch : Sector) (src : Nat → UInt8)
    (base : UInt64) {remaining : UInt64} (more : remaining ≠ 0) :
    pwriteLoop device scratch src base remaining =
      pwriteLoop (writtenDevice device scratch src base remaining)
        (splicedScratch device scratch src base remaining)
        (fun index => src ((chunkLen base remaining).toNat + index))
        (base + chunkLen base remaining) (remaining - chunkLen base remaining) := by
  rw [pwriteLoop, if_neg more]
  simp only [writtenDevice, splicedScratch, fillScratch]

/-! ## Arithmetic of one iteration -/

section Arithmetic

variable {base remaining : UInt64}

theorem div_sectorBytes_toNat (base : UInt64) :
    (base / sectorBytes).toNat = base.toNat / 4096 := by
  rw [UInt64.toNat_div, sectorBytes_toNat]

theorem mod_sectorBytes_toNat (base : UInt64) :
    (base % sectorBytes).toNat = base.toNat % 4096 := by
  rw [UInt64.toNat_mod, sectorBytes_toNat]

/-- A chunk ends in the sector it starts in. -/
theorem chunkLen_fits (base remaining : UInt64) :
    base.toNat % 4096 + (chunkLen base remaining).toNat ≤ 4096 := by
  rw [chunkLen_toNat]
  omega

theorem chunkLen_le (base remaining : UInt64) :
    (chunkLen base remaining).toNat ≤ remaining.toNat := by
  rw [chunkLen_toNat]
  omega

theorem base_add_chunkLen_toNat
    (inRange : base.toNat + remaining.toNat < 18446744073709551616) :
    (base + chunkLen base remaining).toNat =
      base.toNat + (chunkLen base remaining).toNat := by
  have := chunkLen_le base remaining
  exact Word64.toNat_add_of_lt (by omega)

/-- The transfer left for the next iteration ends where this one's does. -/
theorem next_inRange
    (inRange : base.toNat + remaining.toNat < 18446744073709551616) :
    (base + chunkLen base remaining).toNat +
      (remaining - chunkLen base remaining).toNat = base.toNat + remaining.toNat := by
  have := chunkLen_le base remaining
  rw [base_add_chunkLen_toNat inRange, remaining_sub_chunkLen_toNat]
  omega

/-- A chunk as long as a sector starts at its first byte. -/
theorem chunkLen_full (full : ¬chunkLen base remaining < sectorBytes) :
    base.toNat % 4096 = 0 ∧ (chunkLen base remaining).toNat = 4096 := by
  rw [UInt64.lt_iff_toNat_lt, sectorBytes_toNat] at full
  have := chunkLen_fits base remaining
  omega

/-- The sectors that hold bytes of a transfer. -/
def sectorsOf (base count : Nat) : Set Nat :=
  { sector | base / 4096 ≤ sector ∧ sector * 4096 < base + count }

instance (base count sector : Nat) : Decidable (sector ∈ sectorsOf base count) :=
  inferInstanceAs (Decidable (_ ∧ _))

theorem mem_sectorsOf_first (more : remaining ≠ 0) :
    (base / sectorBytes).toNat ∈ sectorsOf base.toNat remaining.toNat := by
  have nonzero : remaining.toNat ≠ 0 := by simpa [← UInt64.toNat_inj] using more
  rw [div_sectorBytes_toNat]
  exact ⟨Nat.le_refl _, by omega⟩

theorem sectorsOf_rest (inRange : base.toNat + remaining.toNat < 18446744073709551616) :
    sectorsOf (base + chunkLen base remaining).toNat (remaining - chunkLen base remaining).toNat ⊆
      sectorsOf base.toNat remaining.toNat := by
  intro sector membership
  have ending := next_inRange inRange
  obtain ⟨first, last⟩ := membership
  rw [base_add_chunkLen_toNat inRange] at first
  exact ⟨by omega, by omega⟩

end Arithmetic

/-! ## Reading -/

/-- Reading changes nothing on the drive. -/
theorem preadLoop_sameMedia (device : Device) (scratch : Sector)
    (base remaining : UInt64) :
    Device.SameMedia device (preadLoop device scratch base remaining).2.2 := by
  generalize count : remaining.toNat = n
  induction n using Nat.strong_induction_on generalizing device scratch base remaining with
  | _ n ih =>
      by_cases finished : remaining = 0
      · rw [finished, preadLoop_zero]
      · rw [preadLoop_of_ne_zero _ _ _ finished]
        have shorter : (remaining - chunkLen base remaining).toNat < n :=
          count ▸ remaining_sub_chunkLen_lt finished
        have rest := ih _ shorter (device.nvsRead scratch (base / sectorBytes)).2.2
          (device.nvsRead scratch (base / sectorBytes)).2.1
          (base + chunkLen base remaining) (remaining - chunkLen base remaining) rfl
        exact (device.nvsRead_sameMedia scratch (base / sectorBytes)).trans rest

/-- The loop delivers the bytes of the drive, in order; an address that wraps does so
between two sectors. -/
theorem preadLoop_words {device : Device} (reliable : device.Reliable) (scratch : Sector)
    (base remaining : UInt64) :
    (preadLoop device scratch base remaining).1 =
      (List.range remaining.toNat).map fun index =>
        cell device.disk (base + UInt64.ofNat index).toNat := by
  generalize count : remaining.toNat = n
  induction n using Nat.strong_induction_on generalizing device scratch base remaining with
  | _ n ih =>
      by_cases finished : remaining = 0
      · rw [finished, preadLoop_zero, ← count, finished]
        rfl
      · rw [preadLoop_of_ne_zero _ _ _ finished]
        have shorter : (remaining - chunkLen base remaining).toNat < n :=
          count ▸ remaining_sub_chunkLen_lt finished
        have media := device.nvsRead_sameMedia scratch (base / sectorBytes)
        have rest := ih _ shorter (reliable.of_fails_eq media.fails)
          (device.nvsRead scratch (base / sectorBytes)).2.1 (base + chunkLen base remaining)
          (remaining - chunkLen base remaining) rfl
        have split : n = (chunkLen base remaining).toNat +
            (remaining - chunkLen base remaining).toNat := by
          have := chunkLen_le base remaining
          rw [remaining_sub_chunkLen_toNat]
          omega
        rw [rest, split, List.range_add, List.map_append, List.map_map]
        refine congrArg₂ (· ++ ·) ?_ ?_
        · apply List.map_congr_left
          intro index membership
          have bound := List.mem_range.mp membership
          have fits := chunkLen_fits base remaining
          have word : (UInt64.ofNat index).toNat = index :=
            UInt64.toNat_ofNat_of_lt' (by rw [UInt64.size]; omega)
          rw [reliable.nvsRead_mem, div_sectorBytes_toNat, mod_sectorBytes_toNat,
            Word64.toNat_add_of_lt (by have := base.toNat_lt; omega), word, cell_add (by omega)]
        · apply List.map_congr_left
          intro index membership
          rw [media.disk, Function.comp, UInt64.ofNat_add, UInt64.ofNat_toNat, UInt64.add_assoc]

theorem preadLoop_bytes {device : Device} (reliable : device.Reliable) (scratch : Sector)
    {base remaining : UInt64}
    (inRange : base.toNat + remaining.toNat < 18446744073709551616) :
    (preadLoop device scratch base remaining).1 =
      (List.range remaining.toNat).map fun index => cell device.disk (base.toNat + index) := by
  rw [preadLoop_words reliable]
  apply List.map_congr_left
  intro index membership
  have bound := List.mem_range.mp membership
  have word : (UInt64.ofNat index).toNat = index :=
    UInt64.toNat_ofNat_of_lt' (by rw [UInt64.size]; omega)
  rw [Word64.toNat_add_of_lt (by omega), word]

/-- The loop delivers as many bytes as it is asked for, whatever fails. -/
theorem preadLoop_length (device : Device) (scratch : Sector) (base remaining : UInt64) :
    (preadLoop device scratch base remaining).1.length = remaining.toNat := by
  generalize count : remaining.toNat = n
  induction n using Nat.strong_induction_on generalizing device scratch base remaining with
  | _ n ih =>
      by_cases finished : remaining = 0
      · rw [finished, preadLoop_zero, ← count, finished]
        rfl
      · have shorter : (remaining - chunkLen base remaining).toNat < n :=
          count ▸ remaining_sub_chunkLen_lt finished
        have rest := ih _ shorter (device.nvsRead scratch (base / sectorBytes)).2.2
          (device.nvsRead scratch (base / sectorBytes)).2.1
          (base + chunkLen base remaining) (remaining - chunkLen base remaining) rfl
        have within := chunkLen_le base remaining
        rw [preadLoop_of_ne_zero _ _ _ finished, List.length_append, List.length_map,
          List.length_range, rest, remaining_sub_chunkLen_toNat]
        omega

/-- A loop reads only sectors that hold bytes of the transfer. -/
theorem preadLoop_within (device : Device) (scratch : Sector) {base remaining : UInt64}
    (inRange : base.toNat + remaining.toNat < 18446744073709551616) :
    device.Within (preadLoop device scratch base remaining).2.2
      (sectorsOf base.toNat remaining.toNat) := by
  generalize count : remaining.toNat = n
  induction n using Nat.strong_induction_on generalizing device scratch base remaining with
  | _ n ih =>
      rw [← count]
      by_cases finished : remaining = 0
      · rw [finished, preadLoop_zero]
        exact .refl _ _
      · have shorter : (remaining - chunkLen base remaining).toNat < n :=
          count ▸ remaining_sub_chunkLen_lt finished
        have rest := ih _ shorter (device.nvsRead scratch (base / sectorBytes)).2.2
          (device.nvsRead scratch (base / sectorBytes)).2.1
          (by rw [next_inRange inRange]; exact inRange) rfl
        rw [preadLoop_of_ne_zero _ _ _ finished]
        exact (device.nvsRead_within scratch (mem_sectorsOf_first finished)).trans
          (rest.mono (sectorsOf_rest inRange))

/-! ## Writing -/

theorem fillScratch_sameMedia (device : Device) (scratch : Sector)
    (base remaining : UInt64) :
    Device.SameMedia device (fillScratch device scratch base remaining).2 := by
  rw [fillScratch]
  split
  · exact device.nvsRead_sameMedia scratch (base / sectorBytes)
  · rfl

/-- Whether a sector was read back or is overwritten whole, the spliced sector is
that of the drive with the chunk in place. -/
theorem splicedScratch_eq {device : Device} (reliable : device.Reliable)
    (scratch : Sector) (src : Nat → UInt8) (base remaining : UInt64) :
    splicedScratch device scratch src base remaining =
      splice (device.disk (base.toNat / 4096)) (base.toNat % 4096)
        (chunkLen base remaining).toNat src := by
  rw [splicedScratch, fillScratch, mod_sectorBytes_toNat]
  split
  next partly => rw [reliable.nvsRead_mem, div_sectorBytes_toNat]
  next full =>
    obtain ⟨aligned, whole⟩ := chunkLen_full full
    rw [aligned, whole]
    exact splice_full _ _ _

/-- One iteration performs at most one sector write, of the sector that holds
the current byte. -/
theorem writtenDevice_wrote (device : Device) (scratch : Sector) (src : Nat → UInt8)
    (base remaining : UInt64) :
    ∃ writes, Device.Wrote device (writtenDevice device scratch src base remaining) writes ∧
      ∀ write ∈ writes, write.1 = base.toNat / 4096 := by
  have media := (fillScratch_sameMedia device scratch base remaining).wrote
  rcases Device.nvsWrite_cases (fillScratch device scratch base remaining).2
      (splicedScratch device scratch src base remaining) (base / sectorBytes) with
    failed | written
  · exact ⟨_, media.trans failed, by simp⟩
  · refine ⟨_, media.trans written, ?_⟩
    simp

/-- On a reliable drive one iteration writes back the sector with the chunk in place. -/
theorem writtenDevice_of_reliable {device : Device} (reliable : device.Reliable)
    (scratch : Sector) (src : Nat → UInt8) (base remaining : UInt64) :
    Device.Wrote device (writtenDevice device scratch src base remaining)
      [(base.toNat / 4096, splice (device.disk (base.toNat / 4096)) (base.toNat % 4096)
        (chunkLen base remaining).toNat src)] := by
  have filled := fillScratch_sameMedia device scratch base remaining
  have written := filled.wrote.trans ((reliable.of_fails_eq filled.fails).nvsWrite_wrote
    (splicedScratch device scratch src base remaining) (base / sectorBytes))
  rw [List.nil_append, splicedScratch_eq reliable, div_sectorBytes_toNat] at written
  rw [writtenDevice, splicedScratch_eq reliable]
  exact written

/-- A loop writes only sectors that hold bytes of the transfer. -/
theorem pwriteLoop_wrote (device : Device) (scratch : Sector) (src : Nat → UInt8)
    {base remaining : UInt64}
    (inRange : base.toNat + remaining.toNat < 18446744073709551616) :
    ∃ writes, Device.Wrote device (pwriteLoop device scratch src base remaining).2 writes ∧
      ∀ write ∈ writes, base.toNat / 4096 ≤ write.1 ∧
        write.1 * 4096 < base.toNat + remaining.toNat := by
  generalize count : remaining.toNat = n
  induction n using Nat.strong_induction_on
    generalizing device scratch src base remaining with
  | _ n ih =>
      by_cases finished : remaining = 0
      · refine ⟨[], ?_, by simp⟩
        rw [finished, pwriteLoop_zero]
        exact (Device.SameMedia.refl device).wrote
      · have shorter : (remaining - chunkLen base remaining).toNat < n :=
          count ▸ remaining_sub_chunkLen_lt finished
        have ending := next_inRange inRange
        obtain ⟨first, wroteFirst, firstSectors⟩ :=
          writtenDevice_wrote device scratch src base remaining
        obtain ⟨later, wroteLater, laterSectors⟩ := ih _ shorter
          (writtenDevice device scratch src base remaining)
          (splicedScratch device scratch src base remaining)
          (fun index => src ((chunkLen base remaining).toNat + index))
          (by rw [ending]; exact inRange) rfl
        refine ⟨first ++ later, ?_, ?_⟩
        · rw [pwriteLoop_of_ne_zero _ _ _ _ finished]
          exact wroteFirst.trans wroteLater
        · intro write membership
          rcases List.mem_append.mp membership with early | late
          · rw [firstSectors write early]
            omega
          · have sectors := laterSectors write late
            rw [ending, base_add_chunkLen_toNat inRange] at sectors
            omega

/-- One iteration asks for the sector that holds the current byte. -/
theorem writtenDevice_within (device : Device) (scratch : Sector) (src : Nat → UInt8)
    {base remaining : UInt64} {sectors : Set Nat}
    (inside : (base / sectorBytes).toNat ∈ sectors) :
    device.Within (writtenDevice device scratch src base remaining) sectors := by
  have filled : device.Within (fillScratch device scratch base remaining).2 sectors := by
    rw [fillScratch]
    split
    · exact device.nvsRead_within scratch inside
    · exact .refl _ _
  exact filled.trans (Device.nvsWrite_within _ _ inside)

/-- A loop asks only for sectors that hold bytes of the transfer. -/
theorem pwriteLoop_within (device : Device) (scratch : Sector) (src : Nat → UInt8)
    {base remaining : UInt64}
    (inRange : base.toNat + remaining.toNat < 18446744073709551616) :
    device.Within (pwriteLoop device scratch src base remaining).2
      (sectorsOf base.toNat remaining.toNat) := by
  generalize count : remaining.toNat = n
  induction n using Nat.strong_induction_on
    generalizing device scratch src base remaining with
  | _ n ih =>
      rw [← count]
      by_cases finished : remaining = 0
      · rw [finished, pwriteLoop_zero]
        exact .refl _ _
      · have shorter : (remaining - chunkLen base remaining).toNat < n :=
          count ▸ remaining_sub_chunkLen_lt finished
        have rest := ih _ shorter (writtenDevice device scratch src base remaining)
          (splicedScratch device scratch src base remaining)
          (fun index => src ((chunkLen base remaining).toNat + index))
          (by rw [next_inRange inRange]; exact inRange) rfl
        rw [pwriteLoop_of_ne_zero _ _ _ _ finished]
        exact (writtenDevice_within device scratch src (mem_sectorsOf_first finished)).trans
          (rest.mono (sectorsOf_rest inRange))

/-- A loop of any length only adds to the log. -/
theorem pwriteLoop_appends (device : Device) (scratch : Sector) (src : Nat → UInt8)
    (base remaining : UInt64) :
    ∃ writes, Device.Wrote device (pwriteLoop device scratch src base remaining).2 writes := by
  generalize count : remaining.toNat = n
  induction n using Nat.strong_induction_on
    generalizing device scratch src base remaining with
  | _ n ih =>
      by_cases finished : remaining = 0
      · rw [finished, pwriteLoop_zero]
        exact ⟨[], (Device.SameMedia.refl device).wrote⟩
      · have shorter : (remaining - chunkLen base remaining).toNat < n :=
          count ▸ remaining_sub_chunkLen_lt finished
        obtain ⟨first, wroteFirst, -⟩ := writtenDevice_wrote device scratch src base remaining
        obtain ⟨later, wroteLater⟩ := ih _ shorter
          (writtenDevice device scratch src base remaining)
          (splicedScratch device scratch src base remaining)
          (fun index => src ((chunkLen base remaining).toNat + index)) _ _ rfl
        rw [pwriteLoop_of_ne_zero _ _ _ _ finished]
        exact ⟨_, wroteFirst.trans wroteLater⟩

/-- The first two sectors a long loop writes. -/
theorem pwriteLoop_wrote_two {device : Device} (reliable : device.Reliable) (scratch : Sector)
    (src : Nat → UInt8) {base remaining : UInt64} (more : remaining ≠ 0)
    (further : remaining - chunkLen base remaining ≠ 0) :
    ∃ rest, Device.Wrote device (pwriteLoop device scratch src base remaining).2
      ([(base.toNat / 4096, splice (device.disk (base.toNat / 4096)) (base.toNat % 4096)
          (chunkLen base remaining).toNat src)] ++
        [((base + chunkLen base remaining).toNat / 4096,
          splice ((writtenDevice device scratch src base remaining).disk
              ((base + chunkLen base remaining).toNat / 4096))
            ((base + chunkLen base remaining).toNat % 4096)
            (chunkLen (base + chunkLen base remaining)
              (remaining - chunkLen base remaining)).toNat
            fun index => src ((chunkLen base remaining).toNat + index))] ++ rest) := by
  have first := writtenDevice_of_reliable reliable scratch src base remaining
  have second := writtenDevice_of_reliable (reliable.of_fails_eq first.fails)
    (splicedScratch device scratch src base remaining)
    (fun index => src ((chunkLen base remaining).toNat + index))
    (base + chunkLen base remaining) (remaining - chunkLen base remaining)
  rw [pwriteLoop_of_ne_zero _ _ _ _ more, pwriteLoop_of_ne_zero _ _ _ _ further]
  obtain ⟨rest, later⟩ := pwriteLoop_appends _ _ _ _ _
  exact ⟨rest, (first.trans second).trans later⟩

/-- The loop changes exactly the bytes of the transfer. -/
theorem pwriteLoop_cell {device : Device} (reliable : device.Reliable) (scratch : Sector)
    (src : Nat → UInt8) {base remaining : UInt64}
    (inRange : base.toNat + remaining.toNat < 18446744073709551616) (address : Nat) :
    cell (pwriteLoop device scratch src base remaining).2.disk address =
      if base.toNat ≤ address ∧ address < base.toNat + remaining.toNat then
        src (address - base.toNat)
      else
        cell device.disk address := by
  generalize count : remaining.toNat = n
  induction n using Nat.strong_induction_on
    generalizing device scratch src base remaining with
  | _ n ih =>
      by_cases finished : remaining = 0
      · have zero : n = 0 := by rw [← count, finished]; rfl
        rw [finished, pwriteLoop_zero, if_neg (by omega)]
      · have shorter : (remaining - chunkLen base remaining).toNat < n :=
          count ▸ remaining_sub_chunkLen_lt finished
        have ending := next_inRange inRange
        have advanced := base_add_chunkLen_toNat inRange
        have written := writtenDevice_of_reliable reliable scratch src base remaining
        have rest := ih _ shorter (reliable.of_fails_eq written.fails)
          (splicedScratch device scratch src base remaining)
          (fun index => src ((chunkLen base remaining).toNat + index))
          (by rw [ending]; exact inRange) rfl
        rw [pwriteLoop_of_ne_zero _ _ _ _ finished, rest, ending, advanced, written.disk,
          replay_singleton, cell_update_splice _ (chunkLen_fits base remaining)]
        have within := chunkLen_le base remaining
        -- The address lies in this chunk, in a later one, or outside the transfer.
        by_cases later : base.toNat + (chunkLen base remaining).toNat ≤ address ∧
            address < base.toNat + remaining.toNat
        · rw [if_pos later, if_pos (by omega)]
          exact congrArg src (by omega)
        · by_cases here : base.toNat ≤ address ∧
              address < base.toNat + (chunkLen base remaining).toNat
          · rw [if_neg later, if_pos here, if_pos (by omega)]
          · rw [if_neg later, if_neg here, if_neg (by omega)]

/-! ## Drives with the same contents -/

section SameDisk

variable {device device' : Device} (reliable : device.Reliable) (reliable' : device'.Reliable)

include reliable reliable'

/-- What a loop reads depends on the contents of the drive alone. -/
theorem preadLoop_congr (same : device'.disk = device.disk) (scratch scratch' : Sector)
    (base remaining : UInt64) :
    (preadLoop device' scratch' base remaining).1 =
      (preadLoop device scratch base remaining).1 := by
  generalize count : remaining.toNat = n
  induction n using Nat.strong_induction_on
    generalizing device device' scratch scratch' base remaining with
  | _ n ih =>
      by_cases finished : remaining = 0
      · rw [finished, preadLoop_zero, preadLoop_zero]
      · have shorter : (remaining - chunkLen base remaining).toNat < n :=
          count ▸ remaining_sub_chunkLen_lt finished
        have media := device.nvsRead_sameMedia scratch (base / sectorBytes)
        have media' := device'.nvsRead_sameMedia scratch' (base / sectorBytes)
        have rest := ih _ shorter (reliable.of_fails_eq media.fails)
          (reliable'.of_fails_eq media'.fails)
          (by rw [media.disk, media'.disk, same])
          (device.nvsRead scratch (base / sectorBytes)).2.1
          (device'.nvsRead scratch' (base / sectorBytes)).2.1
          (base + chunkLen base remaining) _ rfl
        rw [preadLoop_of_ne_zero _ _ _ finished, preadLoop_of_ne_zero _ _ _ finished, rest,
          reliable.nvsRead_mem, reliable'.nvsRead_mem, same]

/-- What a loop leaves on the drive depends on what the drive held alone. -/
theorem pwriteLoop_congr (same : device'.disk = device.disk) (scratch scratch' : Sector)
    (src : Nat → UInt8) (base remaining : UInt64) :
    (pwriteLoop device' scratch' src base remaining).2.disk =
      (pwriteLoop device scratch src base remaining).2.disk := by
  generalize count : remaining.toNat = n
  induction n using Nat.strong_induction_on
    generalizing device device' scratch scratch' src base remaining with
  | _ n ih =>
      by_cases finished : remaining = 0
      · rw [finished, pwriteLoop_zero, pwriteLoop_zero]
        exact same
      · have shorter : (remaining - chunkLen base remaining).toNat < n :=
          count ▸ remaining_sub_chunkLen_lt finished
        have written := writtenDevice_of_reliable reliable scratch src base remaining
        have written' := writtenDevice_of_reliable reliable' scratch' src base remaining
        rw [pwriteLoop_of_ne_zero _ _ _ _ finished, pwriteLoop_of_ne_zero _ _ _ _ finished]
        apply ih _ shorter (reliable.of_fails_eq written.fails)
          (reliable'.of_fails_eq written'.fails)
        · rw [written.disk, written'.disk, same]
        · rfl

end SameDisk

/-! ## Positioned transfers -/

/-- The blocks of an open file lie after the first and below byte `2 ^ 63`. -/
def File.Placed (f : File) : Prop :=
  1 ≤ f.startBlock.toNat ∧ f.startBlock.toNat + f.reservedBlocks.toNat ≤ 4398046511104

/-- Capacity of an open file in bytes. -/
def File.cap (f : File) : Nat := f.reservedBlocks.toNat * 2097152

/-- Byte address of an offset in an open file. -/
def File.address (f : File) (off : Nat) : Nat := f.startBlock.toNat * 2097152 + off

/-- The bytes of an open file have addresses below `2 ^ 63`. -/
def File.Addressable (f : File) : Prop :=
  f.startBlock.toNat + f.reservedBlocks.toNat ≤ 4398046511104 ∧
    f.reservedBlocks.toNat < 4398046511104

theorem File.Placed.addressable {f : File} (placed : f.Placed) : f.Addressable := by
  obtain ⟨first, last⟩ := placed
  exact ⟨last, by omega⟩

namespace File.Addressable

variable {f : File} (addressable : f.Addressable)

include addressable

theorem cap_toNat : (f.reservedBlocks * blockBytes).toNat = f.cap := by
  have := addressable.2
  rw [Word64.toNat_mul_of_lt (by rw [blockBytes_toNat]; omega), blockBytes_toNat, File.cap]

theorem cap_le : f.cap < 9223372036854775808 := by
  have := addressable.2
  rw [File.cap]
  omega

theorem address_toNat {off : UInt64} (inside : off.toNat < 9223372036854775808) :
    (f.startBlock * blockBytes + off).toNat = f.address off.toNat := by
  have := addressable.1
  have start : (f.startBlock * blockBytes).toNat = f.startBlock.toNat * 2097152 := by
    rw [Word64.toNat_mul_of_lt (by rw [blockBytes_toNat]; omega), blockBytes_toNat]
  rw [Word64.toNat_add_of_lt (by omega), start, File.address]

/-- Transfers that stay within the capacity stay within the address space. -/
theorem address_add_lt {off count : Nat} (inside : off + count ≤ f.cap) :
    f.address off + count ≤ 9223372036854775808 := by
  have := addressable.1
  rw [File.cap] at inside
  rw [File.address]
  omega

end File.Addressable

/-- A read at or past the end of the file delivers nothing. -/
theorem bmfsPread_of_past (s : State) {f : File} (len : UInt64) {off : UInt64}
    (past : f.size.toNat ≤ off.toNat) : bmfsPread s f len off = (0, [], s) := by
  rw [bmfsPread, if_pos (UInt64.le_iff_toNat_le.mpr past)]

theorem bmfsPread_of_lt (s : State) {f : File} (len : UInt64) {off : UInt64}
    (inside : off.toNat < f.size.toNat) :
    ∃ state, bmfsPread s f len off = (Word64.signed (clampLen f.size off len),
      (preadLoop s.device s.scratch (f.startBlock * blockBytes + off)
        (clampLen f.size off len)).1, state) := by
  have before : ¬off ≥ f.size := by
    rw [ge_iff_le, UInt64.le_iff_toNat_le]
    omega
  rw [bmfsPread, if_neg before]
  exact ⟨_, rfl⟩

/-- A read before the end of the file delivers the drive's bytes up to the end. -/
theorem bmfsPread_of_inside {s : State} (reliable : s.device.Reliable) {f : File}
    (addressable : f.Addressable) (fits : f.size.toNat ≤ f.cap) {len off : UInt64}
    (short : len.toNat < 9223372036854775808) (inside : off.toNat < f.size.toNat) :
    (bmfsPread s f len off).1 = (min len.toNat (f.size.toNat - off.toNat) : Nat) ∧
      (bmfsPread s f len off).2.1 =
        (List.range (min len.toNat (f.size.toNat - off.toNat))).map fun index =>
          cell s.device.disk (f.address off.toNat + index) := by
  have small := addressable.cap_le
  have clamped : (clampLen f.size off len).toNat =
      min len.toNat (f.size.toNat - off.toNat) := clampLen_toNat inside (by omega)
  have start : (f.startBlock * blockBytes + off).toNat = f.address off.toNat :=
    addressable.address_toNat (by omega)
  have ending : f.address off.toNat + (clampLen f.size off len).toNat ≤ 9223372036854775808 :=
    addressable.address_add_lt (by omega)
  have inRange : (f.startBlock * blockBytes + off).toNat + (clampLen f.size off len).toNat <
      18446744073709551616 := by
    omega
  obtain ⟨state, result⟩ := bmfsPread_of_lt s len inside
  rw [result]
  refine ⟨?_, ?_⟩
  · rw [Word64.signed_of_lt (by omega), clamped]
  · rw [preadLoop_bytes reliable s.scratch inRange, clamped, start]

/-- A read depends only on the bytes of the file's own blocks. -/
theorem bmfsPread_congr {s s' : State} (reliable : s.device.Reliable)
    (reliable' : s'.device.Reliable) {f : File} (placed : f.Placed)
    (fits : f.size.toNat ≤ f.cap) (off : UInt64) {len : UInt64}
    (short : len.toNat < 9223372036854775808)
    (agree : ∀ address, f.address 0 ≤ address ∧ address < f.address f.cap →
      cell s'.device.disk address = cell s.device.disk address) :
    (bmfsPread s' f len off).1 = (bmfsPread s f len off).1 ∧
      (bmfsPread s' f len off).2.1 = (bmfsPread s f len off).2.1 := by
  by_cases past : f.size.toNat ≤ off.toNat
  · rw [bmfsPread_of_past s len past, bmfsPread_of_past s' len past]
    exact ⟨rfl, rfl⟩
  · rw [Nat.not_le] at past
    obtain ⟨count, bytes⟩ := bmfsPread_of_inside reliable placed.addressable fits short past
    obtain ⟨count', bytes'⟩ := bmfsPread_of_inside reliable' placed.addressable fits short past
    refine ⟨count'.trans count.symm, ?_⟩
    rw [bytes, bytes']
    apply List.map_congr_left
    intro index membership
    have bound := List.mem_range.mp membership
    apply agree
    simp only [File.address]
    omega

/-- A write with nothing to store, or at or past the end of the reservation,
fails and changes nothing. -/
theorem bmfsPwrite_of_full {s : State} {index : Fin 8} (addressable : (s.files index).Addressable)
    (buf : Nat → UInt8) {len off : UInt64}
    (full : (s.files index).cap ≤ off.toNat ∨ len = 0) :
    bmfsPwrite s index buf len off = (-Libc.ENOSPC, s) := by
  rw [bmfsPwrite]
  by_cases past : off ≥ (s.files index).reservedBlocks * blockBytes
  · rw [if_pos past]
  · rw [if_neg past]
    rw [ge_iff_le, UInt64.le_iff_toNat_le, addressable.cap_toNat] at past
    have empty : len = 0 := by
      rcases full with outside | empty
      · exact absurd outside past
      · exact empty
    have nothing : clampLen ((s.files index).reservedBlocks * blockBytes) off len = 0 := by
      rw [← UInt64.toNat_inj, clampLen_toNat (by rw [addressable.cap_toNat]; omega)
        (by rw [empty]; exact off.toNat_lt), empty]
      exact Nat.zero_min _
    rw [if_pos nothing]

/-- A write with room stores as many bytes as fit. -/
theorem bmfsPwrite_of_room {s : State} {index : Fin 8} (addressable : (s.files index).Addressable)
    (buf : Nat → UInt8) {len off : UInt64} (short : len.toNat < 9223372036854775808)
    (nonempty : len ≠ 0) (room : off.toNat < (s.files index).cap) :
    ∃ n base : UInt64,
      n.toNat = min len.toNat ((s.files index).cap - off.toNat) ∧
      base.toNat = (s.files index).address off.toNat ∧
      bmfsPwrite s index buf len off =
        ((n.toNat : Int), { s with
          scratch := (pwriteLoop s.device s.scratch buf base n).1
          device := (pwriteLoop s.device s.scratch buf base n).2 }.setFile index
            (grownFile (s.files index) n off)) := by
  have capBound := addressable.cap_le
  have nonzero : len.toNat ≠ 0 := by simpa [← UInt64.toNat_inj] using nonempty
  have inside : ¬off ≥ (s.files index).reservedBlocks * blockBytes := by
    rw [ge_iff_le, UInt64.le_iff_toNat_le, addressable.cap_toNat]
    omega
  have clamped : (clampLen ((s.files index).reservedBlocks * blockBytes) off len).toNat =
      min len.toNat ((s.files index).cap - off.toNat) := by
    rw [clampLen_toNat (by rw [addressable.cap_toNat]; exact room) (by omega),
      addressable.cap_toNat]
  have stored : clampLen ((s.files index).reservedBlocks * blockBytes) off len ≠ 0 := by
    intro zero
    rw [zero, UInt64.toNat_zero] at clamped
    omega
  refine ⟨_, _, clamped, addressable.address_toNat (by omega), ?_⟩
  rw [bmfsPwrite, if_neg inside, if_neg stored, Word64.signed_of_lt (by omega)]

/-- A record grows to the end of what was stored. -/
theorem size_grownFile (f : File) {len off : UInt64}
    (noWrap : off.toNat + len.toNat < 18446744073709551616) :
    (grownFile f len off).size.toNat = max f.size.toNat (off.toNat + len.toNat) := by
  have sum : (off + len).toNat = off.toNat + len.toNat := Word64.toNat_add_of_lt noWrap
  rw [grownFile]
  split
  next grows =>
    rw [gt_iff_lt, UInt64.lt_iff_toNat_lt, sum] at grows
    rw [sum]
    omega
  next stays =>
    rw [gt_iff_lt, UInt64.lt_iff_toNat_lt, sum] at stays
    omega

/-- A write touches only sectors of the file's own blocks, whatever fails. -/
theorem bmfsPwrite_wrote {s : State} {index : Fin 8} (addressable : (s.files index).Addressable)
    (buf : Nat → UInt8) {len : UInt64} (off : UInt64)
    (short : len.toNat < 9223372036854775808) :
    ∃ writes, Device.Wrote s.device (bmfsPwrite s index buf len off).2.device writes ∧
      ∀ write ∈ writes, (s.files index).startBlock.toNat * 512 ≤ write.1 ∧
        write.1 < ((s.files index).startBlock.toNat +
          (s.files index).reservedBlocks.toNat) * 512 := by
  by_cases full : (s.files index).cap ≤ off.toNat ∨ len = 0
  · rw [bmfsPwrite_of_full addressable buf full]
    exact ⟨[], (Device.SameMedia.refl s.device).wrote, by simp⟩
  · obtain ⟨room, nonempty⟩ := not_or.mp full
    rw [Nat.not_le] at room
    obtain ⟨n, base, count, start, stored⟩ := bmfsPwrite_of_room addressable buf short nonempty room
    have inside : off.toNat + n.toNat ≤ (s.files index).cap := by omega
    have inRange : base.toNat + n.toNat < 18446744073709551616 := by
      have := addressable.address_add_lt inside
      omega
    obtain ⟨writes, wrote, sectors⟩ :=
      pwriteLoop_wrote s.device s.scratch buf inRange
    rw [stored]
    refine ⟨writes, wrote, ?_⟩
    intro write membership
    have bounds := sectors write membership
    rw [start, File.address] at bounds
    rw [File.cap] at inside
    omega

end AppPortKit.Bmfs
