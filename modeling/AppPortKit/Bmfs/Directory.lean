import AppPortKit.Bmfs.Device
import AppPortKit.Foundation.LittleEndian
import AppPortKit.Libc
import Mathlib.Data.List.FinRange

/-!
# The directory table

One sector holds 64 entries of 64 bytes: a name field of 32 bytes and four
little-endian numbers.  This module gives the codec between the sector and the
table in memory and the searches the operations make in the table.
-/

namespace AppPortKit.Bmfs

open Libc

/-- Geometry of the volume, as machine words. -/
def sectorBytes : UInt64 := 4096

@[inherit_doc sectorBytes] def blockSectors : UInt64 := 512

@[inherit_doc sectorBytes] def blockBytes : UInt64 := blockSectors * sectorBytes

@[inherit_doc sectorBytes] def dirSector : UInt64 := 1

/-- Block 0 holds the superblock and the directory. -/
def firstDataBlock : UInt64 := 1

/-- Reservation given to newly created files. -/
def defaultBlocks : UInt64 := 1

@[simp] theorem sectorBytes_toNat : sectorBytes.toNat = 4096 := rfl

@[simp] theorem blockBytes_toNat : blockBytes.toNat = 2097152 := rfl

@[simp] theorem dirSector_toNat : dirSector.toNat = 1 := rfl

/-- `struct bmfs_dirent`. -/
@[ext] structure Dirent where
  name : Fin 32 → UInt8
  startBlock : UInt64
  reservedBlocks : UInt64
  size : UInt64
  unused : UInt64

/-- The table in memory. -/
abbrev Dir := Fin 64 → Dirent

namespace Dirent

/-- An entry of zeros, as `memset` leaves it. -/
def zero : Dirent :=
  { name := fun _ => 0, startBlock := 0, reservedBlocks := 0, size := 0, unused := 0 }

/-- The name field as bytes from its start; reading stops inside the field. -/
def nameChar (entry : Dirent) (offset : Nat) : UInt8 :=
  if bound : offset < 32 then entry.name ⟨offset, bound⟩ else 0

/-- An entry is in use if its name is not empty. -/
def Live (entry : Dirent) : Prop := entry.name 0 ≠ 0

instance (entry : Dirent) : Decidable entry.Live := inferInstanceAs (Decidable (_ ≠ _))

theorem not_live_zero : ¬zero.Live := by simp [Live, zero]

/-- One number of an entry, from its eight bytes. -/
def field (bytes : Fin 64 → UInt8) (start : Nat) : UInt64 :=
  UInt64.ofNat (LittleEndian.ofBytes 8 fun offset => bytes (Fin.ofNat 64 (start + offset)))

/-- The entry stored in 64 bytes. -/
def decode (bytes : Fin 64 → UInt8) : Dirent :=
  { name := fun offset => bytes (offset.castLE (by omega))
    startBlock := field bytes 32
    reservedBlocks := field bytes 40
    size := field bytes 48
    unused := field bytes 56 }

/-- The 64 bytes of an entry. -/
def encode (entry : Dirent) (offset : Fin 64) : UInt8 :=
  if bound : offset.val < 32 then entry.name ⟨offset.val, bound⟩
  else if offset.val < 40 then
    LittleEndian.byte entry.startBlock.toNat (offset.val - 32)
  else if offset.val < 48 then
    LittleEndian.byte entry.reservedBlocks.toNat (offset.val - 40)
  else if offset.val < 56 then
    LittleEndian.byte entry.size.toNat (offset.val - 48)
  else
    LittleEndian.byte entry.unused.toNat (offset.val - 56)

/-- A number whose eight bytes stand at `start` is read back. -/
theorem field_eq {bytes : Fin 64 → UInt8} {start : Nat} {value : UInt64}
    (stored : ∀ offset < 8, bytes (Fin.ofNat 64 (start + offset)) =
      LittleEndian.byte value.toNat offset) :
    field bytes start = value := by
  rw [field, LittleEndian.ofBytes_congr stored,
    LittleEndian.ofBytes_byte (by simpa using value.toNat_lt)]
  exact UInt64.ofNat_toNat

@[simp] theorem decode_encode (entry : Dirent) : decode entry.encode = entry := by
  apply Dirent.ext
  · funext offset
    simp [decode, encode]
  all_goals
    apply field_eq
    intro offset bound
    simp (disch := omega) only [encode, Fin.val_ofNat, Nat.mod_eq_of_lt]
    split_ifs <;> first | omega | (congr 1; omega)

end Dirent

namespace Dir

def first : Fin 64 := 0

/-- The table with one entry, in its first slot. -/
def single (entry : Dirent) : Dir := Function.update (fun _ => Dirent.zero) first entry

/-- The table stored in a sector. -/
def decode (sector : Sector) : Dir :=
  fun slot => Dirent.decode fun offset => sector (Fin.ofNat 4096 (64 * slot.val + offset.val))

/-- The sector that stores a table. -/
def encode (dir : Dir) : Sector :=
  fun position =>
    (dir ⟨position.val / 64, by omega⟩).encode ⟨position.val % 64, by omega⟩

@[simp] theorem decode_encode (dir : Dir) : decode dir.encode = dir := by
  funext slot
  rw [← Dirent.decode_encode (dir slot), decode]
  congr 1
  funext offset
  have inside : 64 * slot.val + offset.val < 4096 := by omega
  simp only [encode, Fin.val_ofNat, Nat.mod_eq_of_lt inside]
  congr 2
  · simp only [Fin.ext_iff]
    omega
  · omega

end Dir

/-! ## Searches -/

def dirFind (dir : Dir) (name : CString) : Option (Fin 64) :=
  (List.finRange 64).find? fun slot =>
    (dir slot).Live ∧ strncmp (dir slot).nameChar name.char 32 = 0

def dirFindFreeSlot (dir : Dir) : Option (Fin 64) :=
  (List.finRange 64).find? fun slot => ¬(dir slot).Live

/-- The bump allocator over block numbers: the highest end of any live entry. -/
def dirNextFreeBlock (dir : Dir) : UInt64 :=
  (List.finRange 64).foldl
    (fun next slot =>
      if (dir slot).Live then
        let limit := (dir slot).startBlock + (dir slot).reservedBlocks
        if limit > next then limit else next
      else
        next)
    firstDataBlock

/-- A path without one leading slash. -/
def bmfsName (path : CString) : CString :=
  if path.char 0 = slash then path.tail else path

end AppPortKit.Bmfs
