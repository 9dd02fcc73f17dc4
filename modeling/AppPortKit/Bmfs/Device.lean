import AppPortKit.Foundation.SectorStore
import AppPortKit.Foundation.Word64

/-!
# The storage device

The kernel transfers single sectors of 4096 bytes.  Both calls return the number
of sectors transferred; a call that fails returns zero and has no effect.  Which
calls fail is part of the device, so a statement about every failure pattern is a
statement about every device.
-/

namespace AppPortKit.Bmfs

open SectorStore

instance sector_nonempty : Fact (0 < 4096) := ⟨by decide⟩

abbrev Sector := SectorStore.Sector UInt8 4096

abbrev Disk := SectorStore.Store UInt8 4096

/-- A drive: its contents, the sector writes it has performed, oldest first, the
number of calls made to it, the sectors they asked for, oldest first, and which calls
it fails. -/
structure Device where
  disk : Disk
  log : List (Nat × Sector)
  calls : Nat
  requests : List Nat
  fails : Nat → Bool

namespace Device

/-- The drive when a call for a sector has been made. -/
def ask (device : Device) (start : UInt64) : Device :=
  { device with
    calls := device.calls + 1
    requests := device.requests ++ [start.toNat] }

/-- `b_nvs_read(mem, start, 1, drive)`: sectors read, and the memory afterwards. -/
def nvsRead (device : Device) (mem : Sector) (start : UInt64) :
    UInt64 × Sector × Device :=
  let served := device.ask start
  if device.fails device.calls then (0, mem, served)
  else (1, device.disk start.toNat, served)

/-- `b_nvs_write(mem, start, 1, drive)`: sectors written. -/
def nvsWrite (device : Device) (mem : Sector) (start : UInt64) : UInt64 × Device :=
  let served := device.ask start
  if device.fails device.calls then (0, served)
  else
    (1, { served with
      disk := Function.update device.disk start.toNat mem
      log := device.log ++ [(start.toNat, mem)] })

/-- A device that never fails. -/
def Reliable (device : Device) : Prop := ∀ call, device.fails call = false

/-- Two states of one device with the same contents and history of writes. -/
structure SameMedia (before after : Device) : Prop where
  disk : after.disk = before.disk
  log : after.log = before.log
  fails : after.fails = before.fails

@[refl] theorem SameMedia.refl (device : Device) : SameMedia device device :=
  ⟨rfl, rfl, rfl⟩

theorem SameMedia.trans {first second third : Device}
    (left : SameMedia first second) (right : SameMedia second third) :
    SameMedia first third :=
  ⟨right.disk.trans left.disk, right.log.trans left.log, right.fails.trans left.fails⟩

/-- Later states of one device: the writes performed in between are appended to
the log and applied to the contents. -/
structure Wrote (before after : Device) (writes : List (Nat × Sector)) : Prop where
  disk : after.disk = replay before.disk writes
  log : after.log = before.log ++ writes
  fails : after.fails = before.fails

theorem SameMedia.wrote {before after : Device} (same : SameMedia before after) :
    Wrote before after [] :=
  ⟨by simp [same.disk], by simp [same.log], same.fails⟩

theorem Wrote.trans {first second third : Device} {early late : List (Nat × Sector)}
    (left : Wrote first second early) (right : Wrote second third late) :
    Wrote first third (early ++ late) :=
  ⟨by rw [right.disk, left.disk, replay_append],
    by rw [right.log, left.log, List.append_assoc],
    right.fails.trans left.fails⟩

theorem Reliable.of_fails_eq {before after : Device} (reliable : before.Reliable)
    (same : after.fails = before.fails) : after.Reliable := by
  intro call
  rw [same]
  exact reliable call

theorem nvsRead_sameMedia (device : Device) (mem : Sector) (start : UInt64) :
    SameMedia device (device.nvsRead mem start).2.2 := by
  rw [nvsRead]
  split <;> exact ⟨rfl, rfl, rfl⟩

theorem nvsRead_mem (device : Device) (mem : Sector) (start : UInt64) :
    (device.nvsRead mem start).2.1 =
      if device.fails device.calls then mem else device.disk start.toNat := by
  rw [nvsRead]
  split <;> rfl

theorem nvsWrite_disk (device : Device) (mem : Sector) (start : UInt64) :
    (device.nvsWrite mem start).2.disk =
      if device.fails device.calls then device.disk
      else Function.update device.disk start.toNat mem := by
  rw [nvsWrite]
  split <;> rfl

/-- A reliable device delivers the sector. -/
theorem Reliable.nvsRead_mem {device : Device} (reliable : device.Reliable)
    (mem : Sector) (start : UInt64) :
    (device.nvsRead mem start).2.1 = device.disk start.toNat := by
  simp [nvsRead, reliable device.calls]

/-- A write reaches the medium whole or not at all. -/
theorem nvsWrite_cases (device : Device) (mem : Sector) (start : UInt64) :
    Wrote device (device.nvsWrite mem start).2 [] ∨
      Wrote device (device.nvsWrite mem start).2 [(start.toNat, mem)] := by
  rw [nvsWrite]
  split
  · exact .inl ⟨rfl, (List.append_nil _).symm, rfl⟩
  · exact .inr ⟨rfl, rfl, rfl⟩

/-- A reliable device performs the write. -/
theorem Reliable.nvsWrite_wrote {device : Device} (reliable : device.Reliable)
    (mem : Sector) (start : UInt64) :
    Wrote device (device.nvsWrite mem start).2 [(start.toNat, mem)] := by
  simp only [nvsWrite, reliable device.calls, Bool.false_eq_true, ↓reduceIte]
  exact ⟨rfl, rfl, rfl⟩

/-! ## Requests -/

theorem calls_nvsRead (device : Device) (mem : Sector) (start : UInt64) :
    (device.nvsRead mem start).2.2.calls = device.calls + 1 := by
  rw [nvsRead]
  split <;> rfl

theorem calls_nvsWrite (device : Device) (mem : Sector) (start : UInt64) :
    (device.nvsWrite mem start).2.calls = device.calls + 1 := by
  rw [nvsWrite]
  split <;> rfl

/-- All sectors asked for between two states of one device are among given ones. -/
def Within (before after : Device) (sectors : Set Nat) : Prop :=
  ∃ requests, after.requests = before.requests ++ requests ∧ ∀ sector ∈ requests, sector ∈ sectors

theorem Within.refl (device : Device) (sectors : Set Nat) : device.Within device sectors :=
  ⟨[], (List.append_nil _).symm, by simp⟩

theorem Within.trans {first second third : Device} {sectors : Set Nat}
    (early : first.Within second sectors) (late : second.Within third sectors) :
    first.Within third sectors := by
  obtain ⟨left, appendedLeft, withinLeft⟩ := early
  obtain ⟨right, appendedRight, withinRight⟩ := late
  refine ⟨left ++ right, ?_, ?_⟩
  · rw [appendedRight, appendedLeft, List.append_assoc]
  · intro sector membership
    exact (List.mem_append.mp membership).elim (withinLeft sector) (withinRight sector)

theorem Within.mono {before after : Device} {sectors larger : Set Nat}
    (within : before.Within after sectors) (subset : sectors ⊆ larger) :
    before.Within after larger := by
  obtain ⟨requests, appended, inside⟩ := within
  exact ⟨requests, appended, fun sector membership => subset (inside sector membership)⟩

theorem nvsRead_within (device : Device) (mem : Sector) {start : UInt64} {sectors : Set Nat}
    (inside : start.toNat ∈ sectors) : device.Within (device.nvsRead mem start).2.2 sectors := by
  refine ⟨[start.toNat], ?_, by simpa using inside⟩
  rw [nvsRead]
  split <;> rfl

theorem nvsWrite_within (device : Device) (mem : Sector) {start : UInt64} {sectors : Set Nat}
    (inside : start.toNat ∈ sectors) : device.Within (device.nvsWrite mem start).2 sectors := by
  refine ⟨[start.toNat], ?_, by simpa using inside⟩
  rw [nvsWrite]
  split <;> rfl

end Device

end AppPortKit.Bmfs
