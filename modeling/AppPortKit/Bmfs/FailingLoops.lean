import AppPortKit.Bmfs.Transfer

/-!
# The sector loops over a drive that fails

The loops ignore what the drive reports.  A read that fails leaves the scratch sector as
the turn before left it, and its bytes are delivered or written back all the same; a write
that fails leaves the sector on the drive.  This module says what the loops do whatever
fails.  Which call of the drive a turn makes is counted from the address and the length
alone: a turn of the read loop makes one, a turn of the write loop one for a whole sector
and two for a part of one.
-/

namespace AppPortKit.Bmfs

open SectorStore

/-- A transfer of `count` bytes from a byte address on, with the drive and the scratch
sector it starts from. -/
structure SectorLoop where
  device : Device
  scratch : Sector
  base : Nat
  count : Nat

namespace SectorLoop

/-- The sector a turn of the loop works on. -/
def sector (t : SectorLoop) (turn : Nat) : Nat := t.base / 4096 + turn

/-- The turn of the loop that works on the sector of an address. -/
def turn (t : SectorLoop) (address : Nat) : Nat := address / 4096 - t.base / 4096

/-- An address is that of a byte of the transfer. -/
def Inside (t : SectorLoop) (address : Nat) : Prop := t.base ≤ address ∧ address < t.base + t.count

instance (t : SectorLoop) (address : Nat) : Decidable (t.Inside address) :=
  inferInstanceAs (Decidable (_ ∧ _))

/-- All bytes of a turn's sector are bytes of the transfer. -/
def Whole (t : SectorLoop) (turn : Nat) : Prop :=
  t.base ≤ t.sector turn * 4096 ∧ (t.sector turn + 1) * 4096 ≤ t.base + t.count

instance (t : SectorLoop) (turn : Nat) : Decidable (t.Whole turn) :=
  inferInstanceAs (Decidable (_ ∧ _))

/-- The read of a turn of the read loop fails. -/
def readFails (t : SectorLoop) (turn : Nat) : Bool := t.device.fails (t.device.calls + turn)

/-- The scratch sector before a turn of the read loop: the last one whose read was served. -/
def held (t : SectorLoop) : Nat → Sector
  | 0 => t.scratch
  | turn + 1 => if t.readFails turn then t.held turn else t.device.disk (t.sector turn)

/-- The calls the write loop makes before a turn. -/
def callsBefore (t : SectorLoop) : Nat → Nat
  | 0 => 0
  | turn + 1 => t.callsBefore turn + if t.Whole turn then 1 else 2

/-- The read of a turn of the write loop fails, if its sector is not whole. -/
def fillFails (t : SectorLoop) (turn : Nat) : Bool :=
  t.device.fails (t.device.calls + t.callsBefore turn)

/-- The write of a turn of the write loop fails. -/
def storeFails (t : SectorLoop) (turn : Nat) : Bool :=
  t.device.fails (t.device.calls + t.callsBefore turn + if t.Whole turn then 0 else 1)

/-- The scratch sector before a turn of the write loop: what the turn before wrote, or
failed to. -/
def spliced (t : SectorLoop) (src : Nat → UInt8) : Nat → Sector
  | 0 => t.scratch
  | turn + 1 => fun offset =>
      if t.Inside (t.sector turn * 4096 + offset) then
        src (t.sector turn * 4096 + offset - t.base)
      else if t.fillFails turn then t.spliced src turn offset
      else t.device.disk (t.sector turn) offset

/-! ## Progress -/

/-- Address and length left before a turn. -/
structure Progress (t : SectorLoop) (turn : Nat) (base remaining : UInt64) : Prop where
  start : base.toNat = max t.base (min (t.base + t.count) (t.sector turn * 4096))
  ending : base.toNat + remaining.toNat = t.base + t.count
  inRange : t.base + t.count < 18446744073709551616
  begun : ∀ number, t.base / 4096 ≤ number → number < t.sector turn →
    number * 4096 < t.base + t.count

theorem Progress.initial (device : Device) (scratch : Sector) {base remaining : UInt64}
    (inRange : base.toNat + remaining.toNat < 18446744073709551616) :
    Progress ⟨device, scratch, base.toNat, remaining.toNat⟩ 0 base remaining where
  start := by
    simp only [sector]
    omega
  ending := rfl
  inRange := inRange
  begun _ first last := absurd first (Nat.not_le.mpr last)

namespace Progress

variable {t : SectorLoop} {turn : Nat} {base remaining : UInt64}
  (progress : Progress t turn base remaining)

include progress

/-- Where the loop ends, it has worked on the sectors that hold bytes of the transfer. -/
theorem finished (zero : remaining = 0) (nonempty : t.count ≠ 0) (number : Nat) :
    t.base / 4096 ≤ number ∧ number < t.sector turn ↔ number ∈ sectorsOf t.base t.count := by
  have start := progress.start
  have ending := progress.ending
  rw [zero, UInt64.toNat_zero] at ending
  refine and_congr_right fun first => ⟨progress.begun number first, fun last => ?_⟩
  omega

variable (more : remaining ≠ 0)

include more

theorem base_lt : base.toNat < t.base + t.count := by
  have nonzero : remaining.toNat ≠ 0 := by simpa [← UInt64.toNat_inj] using more
  have ending := progress.ending
  omega

/-- The next byte is in the sector of the turn. -/
theorem div_base : base.toNat / 4096 = t.sector turn := by
  have start := progress.start
  have below := progress.base_lt more
  simp only [sector] at start ⊢
  omega

/-- The bytes of the turn's sector that belong to the transfer. -/
theorem inside_iff {offset : Nat} (small : offset < 4096) :
    t.Inside (t.sector turn * 4096 + offset) ↔
      base.toNat % 4096 ≤ offset ∧
        offset < base.toNat % 4096 + (chunkLen base remaining).toNat := by
  have start := progress.start
  have ending := progress.ending
  have below := progress.base_lt more
  have div := progress.div_base more
  rw [chunkLen_toNat, Inside]
  omega

theorem whole_iff : t.Whole turn ↔ ¬chunkLen base remaining < sectorBytes := by
  have start := progress.start
  have ending := progress.ending
  have below := progress.base_lt more
  have div := progress.div_base more
  rw [UInt64.lt_iff_toNat_lt, sectorBytes_toNat, chunkLen_toNat, Whole]
  omega

theorem next : Progress t (turn + 1) (base + chunkLen base remaining)
    (remaining - chunkLen base remaining) := by
  have inRange : base.toNat + remaining.toNat < 18446744073709551616 :=
    progress.ending ▸ progress.inRange
  have start := progress.start
  have ending := progress.ending
  have below := progress.base_lt more
  have div := progress.div_base more
  have moved := base_add_chunkLen_toNat inRange
  have chunk := chunkLen_toNat base remaining
  have begun := progress.begun
  constructor
  · simp only [sector] at div start ⊢
    omega
  · rw [next_inRange inRange, ending]
  · exact progress.inRange
  · intro number first last
    by_cases earlier : number < t.sector turn
    · exact begun number first earlier
    · simp only [sector] at *
      omega

end Progress

/-! ## Reading -/

variable {t : SectorLoop}

/-- The drive and the scratch sector before a turn of the read loop. -/
structure Reading (t : SectorLoop) (turn : Nat) (device : Device) (scratch : Sector) : Prop where
  calls : device.calls = t.device.calls + turn
  fails : device.fails = t.device.fails
  disk : device.disk = t.device.disk
  scratch : scratch = t.held turn

/-- A turn reads its sector, or leaves the scratch sector as it is. -/
theorem Reading.next {turn : Nat} {device : Device} {scratch : Sector} {base remaining : UInt64}
    (reading : Reading t turn device scratch) (progress : Progress t turn base remaining)
    (more : remaining ≠ 0) :
    Reading t (turn + 1) (device.nvsRead scratch (base / sectorBytes)).2.2
      (device.nvsRead scratch (base / sectorBytes)).2.1 := by
  have media := device.nvsRead_sameMedia scratch (base / sectorBytes)
  constructor
  · rw [Device.calls_nvsRead, reading.calls, Nat.add_assoc]
  · rw [media.fails, reading.fails]
  · rw [media.disk, reading.disk]
  · have fails : device.fails device.calls = t.readFails turn := by
      rw [readFails, reading.calls, reading.fails]
    rw [Device.nvsRead_mem, fails, div_sectorBytes_toNat, progress.div_base more,
      reading.scratch, reading.disk, held]

/-- Whatever fails, a byte is delivered from the scratch sector as the turn for its
sector leaves it. -/
theorem preadLoop_of_reading {turn : Nat} {device : Device} {scratch : Sector}
    {base remaining : UInt64} (reading : Reading t turn device scratch)
    (progress : Progress t turn base remaining) :
    (preadLoop device scratch base remaining).1 = (List.range remaining.toNat).map fun offset =>
      t.held (t.turn (base.toNat + offset) + 1) (place 4096 (base.toNat + offset)) := by
  generalize count : remaining.toNat = n
  induction n using Nat.strong_induction_on
    generalizing turn device scratch base remaining with
  | _ n ih =>
      by_cases finished : remaining = 0
      · rw [finished, preadLoop_zero, ← count, finished]
        rfl
      · have shorter : (remaining - chunkLen base remaining).toNat < n :=
          count ▸ remaining_sub_chunkLen_lt finished
        have inRange : base.toNat + remaining.toNat < 18446744073709551616 :=
          progress.ending ▸ progress.inRange
        have loaded := reading.next progress finished
        have rest := ih _ shorter loaded (progress.next finished) rfl
        have within := chunkLen_le base remaining
        have split : n = (chunkLen base remaining).toNat +
            (remaining - chunkLen base remaining).toNat := by
          rw [remaining_sub_chunkLen_toNat]
          omega
        rw [preadLoop_of_ne_zero _ _ _ finished, rest, split, List.range_add, List.map_append,
          List.map_map, base_add_chunkLen_toNat inRange]
        refine congrArg₂ (· ++ ·) (List.map_congr_left fun offset membership => ?_)
          (List.map_congr_left fun offset _ => ?_)
        · have bound := List.mem_range.mp membership
          have fits := chunkLen_fits base remaining
          have div := progress.div_base finished
          have here : t.turn (base.toNat + offset) = turn := by
            simp only [SectorLoop.turn, sector] at div ⊢
            omega
          have same : place 4096 ((base % sectorBytes).toNat + offset) =
              place 4096 (base.toNat + offset) := by
            rw [mod_sectorBytes_toNat]
            simp [Fin.ext_iff]
          rw [loaded.scratch, here, same]
        · rw [Function.comp, Nat.add_assoc]

/-! ## Writing -/

/-- The drive, the scratch sector and the bytes left before a turn of the write loop. -/
structure Writing (t : SectorLoop) (src : Nat → UInt8) (turn : Nat) (device : Device)
    (scratch : Sector) (rest : Nat → UInt8) (base : UInt64) : Prop where
  calls : device.calls = t.device.calls + t.callsBefore turn
  fails : device.fails = t.device.fails
  disk : ∀ number, device.disk number =
    if (t.base / 4096 ≤ number ∧ number < t.sector turn) ∧
        t.storeFails (number - t.base / 4096) = false then
      t.spliced src (number - t.base / 4096 + 1)
    else
      t.device.disk number
  scratch : scratch = t.spliced src turn
  source : ∀ index, rest index = src (base.toNat - t.base + index)

namespace Writing

variable {src rest : Nat → UInt8} {turn : Nat} {device : Device} {scratch : Sector}
  {base remaining : UInt64} (writing : Writing t src turn device scratch rest base)
  (progress : Progress t turn base remaining) (more : remaining ≠ 0)

include writing

/-- A sector whose turn has not come is as it was. -/
theorem disk_sector : device.disk (t.sector turn) = t.device.disk (t.sector turn) := by
  rw [writing.disk, if_neg]
  rintro ⟨⟨-, earlier⟩, -⟩
  exact Nat.lt_irrefl _ earlier

include progress more

/-- The calls and the contents after the read of a turn. -/
theorem fillScratch_eq :
    (fillScratch device scratch base remaining).2.calls =
        t.device.calls + t.callsBefore turn + (if t.Whole turn then 0 else 1) ∧
      (¬t.Whole turn → (fillScratch device scratch base remaining).1 =
        if t.fillFails turn then t.spliced src turn else t.device.disk (t.sector turn)) := by
  have whole := progress.whole_iff more
  rw [fillScratch]
  split
  next partly =>
    rw [if_neg fun all => (whole.mp all) partly, Device.calls_nvsRead, writing.calls]
    refine ⟨rfl, fun _ => ?_⟩
    have fails : device.fails device.calls = t.fillFails turn := by
      rw [fillFails, writing.calls, writing.fails]
    rw [Device.nvsRead_mem, fails, div_sectorBytes_toNat, progress.div_base more,
      writing.disk_sector, writing.scratch]
  next all =>
    rw [if_pos (whole.mpr all), writing.calls]
    exact ⟨rfl, fun partly => absurd (whole.mpr all) partly⟩

/-- A turn leaves its sector in the scratch sector. -/
theorem splicedScratch_eq :
    splicedScratch device scratch rest base remaining = t.spliced src (turn + 1) := by
  have start := progress.start
  have div := progress.div_base more
  funext offset
  have inside := progress.inside_iff more offset.isLt
  simp only [splicedScratch, splice, mod_sectorBytes_toNat, spliced]
  by_cases mine : t.Inside (t.sector turn * 4096 + offset)
  · rw [if_pos (inside.mp mine), if_pos mine, writing.source]
    refine congrArg src ?_
    have low := (inside.mp mine).1
    omega
  · have partly : ¬t.Whole turn := by
      rintro ⟨first, last⟩
      have small := offset.isLt
      refine mine ?_
      rw [Inside]
      omega
    rw [if_neg fun within => mine (inside.mpr within), if_neg mine,
      (writing.fillScratch_eq progress more).2 partly]
    split <;> rfl

/-- A turn writes its sector, unless the write fails. -/
theorem next : Writing t src (turn + 1) (writtenDevice device scratch rest base remaining)
    (splicedScratch device scratch rest base remaining)
    (fun index => rest ((chunkLen base remaining).toNat + index))
    (base + chunkLen base remaining) := by
  have inRange : base.toNat + remaining.toNat < 18446744073709551616 :=
    progress.ending ▸ progress.inRange
  have start := progress.start
  have filled := (writing.fillScratch_eq progress more).1
  have media := fillScratch_sameMedia device scratch base remaining
  have spliced := writing.splicedScratch_eq progress more
  constructor
  · rw [writtenDevice, Device.calls_nvsWrite, filled, callsBefore]
    split <;> omega
  · obtain ⟨writes, wrote, -⟩ := writtenDevice_wrote device scratch rest base remaining
    rw [wrote.fails, writing.fails]
  · intro number
    have here : (base / sectorBytes).toNat = t.sector turn := by
      rw [div_sectorBytes_toNat, progress.div_base more]
    have fails : (fillScratch device scratch base remaining).2.fails
        (fillScratch device scratch base remaining).2.calls = t.storeFails turn := by
      rw [filled, media.fails, writing.fails, storeFails]
    rw [writtenDevice, Device.nvsWrite_disk, fails, spliced, here, media.disk]
    have first : t.base / 4096 ≤ t.sector turn := Nat.le_add_right _ _
    have index : t.sector turn - t.base / 4096 = turn := Nat.add_sub_cancel_left _ _
    have later : t.sector (turn + 1) = t.sector turn + 1 := rfl
    by_cases mine : number = t.sector turn
    · subst mine
      rw [index, later]
      cases failed : t.storeFails turn with
      | true => simp [writing.disk_sector]
      | false => simp [first]
    · have same : number < t.sector (turn + 1) ↔ number < t.sector turn := by omega
      simp only [same]
      rw [← writing.disk number]
      split
      · rfl
      · exact Function.update_of_ne mine _ _
  · exact spliced
  · intro index
    rw [writing.source, base_add_chunkLen_toNat inRange]
    refine congrArg src ?_
    omega

end Writing

/-- Whatever fails, a sector of the transfer is left as its turn writes it, or as it was
if the write fails; all other sectors are as they were. -/
theorem pwriteLoop_of_writing {src rest : Nat → UInt8} {turn : Nat} {device : Device}
    {scratch : Sector} {base remaining : UInt64} (nonempty : t.count ≠ 0)
    (writing : Writing t src turn device scratch rest base)
    (progress : Progress t turn base remaining) (number : Nat) :
    (pwriteLoop device scratch rest base remaining).2.disk number =
      if number ∈ sectorsOf t.base t.count ∧ t.storeFails (number - t.base / 4096) = false then
        t.spliced src (number - t.base / 4096 + 1)
      else
        t.device.disk number := by
  generalize count : remaining.toNat = n
  induction n using Nat.strong_induction_on
    generalizing turn device scratch rest base remaining with
  | _ n ih =>
      by_cases finished : remaining = 0
      · rw [finished, pwriteLoop_zero, writing.disk number]
        simp only [progress.finished finished nonempty number]
      · have shorter : (remaining - chunkLen base remaining).toNat < n :=
          count ▸ remaining_sub_chunkLen_lt finished
        rw [pwriteLoop_of_ne_zero _ _ _ _ finished]
        exact ih _ shorter (writing.next progress finished) (progress.next finished) rfl

/-! ## When a failure does no harm -/

/-- A read that fails finds the bytes it was to deliver in the scratch sector. -/
def Delivers (t : SectorLoop) : Prop :=
  ∀ address, t.Inside address → t.readFails (t.turn address) = true →
    t.held (t.turn address) (place 4096 address) = cell t.device.disk address

/-- A write that fails was to store what the drive has already, and a read that fails
before a write finds in the scratch sector what the drive has next to the transfer. -/
structure Stores (t : SectorLoop) (src : Nat → UInt8) : Prop where
  stored : ∀ address, t.Inside address → t.storeFails (t.turn address) = true →
    cell t.device.disk address = src (address - t.base)
  kept : ∀ address, ¬t.Inside address → address / 4096 ∈ sectorsOf t.base t.count →
    t.storeFails (t.turn address) = false → t.fillFails (t.turn address) = true →
      t.spliced src (t.turn address) (place 4096 address) = cell t.device.disk address

/-- An address lies in the sector its turn works on. -/
theorem sector_turn {address : Nat} (first : t.base / 4096 ≤ address / 4096) :
    t.sector (t.turn address) = address / 4096 := by
  simp only [sector, turn]
  omega

theorem Inside.mem_sectorsOf {address : Nat} (inside : t.Inside address) :
    address / 4096 ∈ sectorsOf t.base t.count := by
  obtain ⟨low, high⟩ := inside
  exact ⟨Nat.div_le_div_right low, by omega⟩

theorem spliced_turn (src : Nat → UInt8) {address : Nat}
    (first : t.base / 4096 ≤ address / 4096) :
    t.spliced src (t.turn address + 1) (place 4096 address) =
      if t.Inside address then src (address - t.base)
      else if t.fillFails (t.turn address) then
        t.spliced src (t.turn address) (place 4096 address)
      else cell t.device.disk address := by
  have whole : address / 4096 * 4096 + (place 4096 address).val = address := by
    rw [val_place]
    omega
  simp only [spliced, sector_turn first, whole]
  rfl

/-- Calls that are served do no harm. -/
theorem Stores.of_served {src : Nat → UInt8}
    (served : ∀ turn, t.sector turn ∈ sectorsOf t.base t.count →
      t.storeFails turn = false ∧ t.fillFails turn = false) : t.Stores src := by
  constructor
  · intro address inside failed
    have touched := inside.mem_sectorsOf
    rw [← sector_turn touched.1] at touched
    rw [(served _ touched).1] at failed
    contradiction
  · intro address _ touched _ failed
    rw [← sector_turn touched.1] at touched
    rw [(served _ touched).2] at failed
    contradiction

section Loops

variable (device : Device) (scratch : Sector) {base remaining : UInt64}
  (inRange : base.toNat + remaining.toNat < 18446744073709551616)

include inRange

/-- A read loop delivers the bytes of the drive exactly if its failures do no harm. -/
theorem preadLoop_bytes_iff :
    (preadLoop device scratch base remaining).1 =
        ((List.range remaining.toNat).map fun offset => cell device.disk (base.toNat + offset)) ↔
      Delivers ⟨device, scratch, base.toNat, remaining.toNat⟩ := by
  have reading : Reading ⟨device, scratch, base.toNat, remaining.toNat⟩ 0 device scratch :=
    ⟨rfl, rfl, rfl, rfl⟩
  rw [preadLoop_of_reading reading (.initial device scratch inRange), List.map_inj_left]
  constructor
  · rintro bytes address ⟨low, high⟩ failed
    dsimp only at low high
    have delivered := bytes (address - base.toNat) (List.mem_range.mpr (by omega))
    rw [Nat.add_sub_cancel' low, held, if_pos failed] at delivered
    exact delivered
  · intro delivers offset membership
    have bound := List.mem_range.mp membership
    have low : base.toNat / 4096 ≤ (base.toNat + offset) / 4096 :=
      Nat.div_le_div_right (Nat.le_add_right _ _)
    rw [held]
    split
    next failed => exact delivers _ ⟨Nat.le_add_right _ _, Nat.add_lt_add_left bound _⟩ failed
    next => rw [sector_turn low, cell]

/-- A write loop stores its bytes and leaves all others exactly if its failures do no
harm. -/
theorem pwriteLoop_cell_iff (src : Nat → UInt8) (more : remaining ≠ 0) :
    (∀ address, cell (pwriteLoop device scratch src base remaining).2.disk address =
        if base.toNat ≤ address ∧ address < base.toNat + remaining.toNat then
          src (address - base.toNat)
        else
          cell device.disk address) ↔
      Stores ⟨device, scratch, base.toNat, remaining.toNat⟩ src := by
  generalize loop : SectorLoop.mk device scratch base.toNat remaining.toNat = t
  have nonempty : t.count ≠ 0 := by
    subst loop
    simpa [← UInt64.toNat_inj] using more
  have progress : Progress t 0 base remaining := loop ▸ .initial device scratch inRange
  have writing : Writing t src 0 device scratch src base := by
    subst loop
    refine ⟨rfl, rfl, fun number => ?_, rfl, fun index => by rw [Nat.sub_self, Nat.zero_add]⟩
    rw [if_neg]
    rintro ⟨⟨first, last⟩, -⟩
    exact absurd first (Nat.not_le.mpr last)
  have final : ∀ address, cell (pwriteLoop device scratch src base remaining).2.disk address =
      if address / 4096 ∈ sectorsOf t.base t.count ∧ t.storeFails (t.turn address) = false then
        t.spliced src (t.turn address + 1) (place 4096 address)
      else
        cell t.device.disk address := by
    intro address
    rw [cell, pwriteLoop_of_writing nonempty writing progress, ite_apply]
    rfl
  have expected : ∀ address, (if base.toNat ≤ address ∧ address < base.toNat + remaining.toNat
      then src (address - base.toNat) else cell device.disk address) =
      if t.Inside address then src (address - t.base) else cell t.device.disk address := by
    subst loop
    intro address
    rfl
  simp only [final, expected]
  constructor
  · intro cells
    refine ⟨fun address inside failed => ?_, fun address outside touched served failed => ?_⟩
    · have same := cells address
      rwa [if_neg (by simp [failed]), if_pos inside] at same
    · have same := cells address
      rwa [if_pos ⟨touched, served⟩, spliced_turn src touched.1, if_neg outside, if_pos failed,
        if_neg outside] at same
  · rintro ⟨stored, kept⟩ address
    by_cases inside : t.Inside address
    · rw [if_pos inside]
      split
      next touched => rw [spliced_turn src touched.1.1, if_pos inside]
      next untouched =>
        refine stored address inside ?_
        simpa [inside.mem_sectorsOf] using untouched
    · rw [if_neg inside]
      split
      next touched =>
        rw [spliced_turn src touched.1.1, if_neg inside]
        split
        next failed => exact kept address inside touched.1 touched.2 failed
        next => rfl
      next => rfl

end Loops

end SectorLoop

end AppPortKit.Bmfs
