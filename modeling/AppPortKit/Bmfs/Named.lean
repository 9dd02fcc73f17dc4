import AppPortKit.Bmfs.Consecutive
import AppPortKit.Bmfs.Durability

/-!
# A file under its name

An open file belongs to the entry of its name.  What is written at its end and then closed
is what the next `open` of that name finds.
-/

namespace AppPortKit.Bmfs

open Libc SectorStore

/-- The bytes under a name.  There are none under a name that is not there. -/
def named (s : State) (name : CString) : List UInt8 :=
  ((dirFind s.table name).map fun slot => (s.table slot).contents s.device.disk).getD []

/-- The bytes that are reserved under a name, or will be for a new file. -/
def reserved (s : State) (name : CString) : Nat :=
  ((dirFind s.table name).map fun slot => (s.table slot).reservedBlocks.toNat).getD 1 * 2097152

/-- All entries have their blocks, and there are block numbers left for new ones. -/
structure Usable (s : State) : Prop where
  sound : Sound s
  reliable : s.device.Reliable
  fits : s.table.SizesFit
  bounded : s.table.Bounded

/-- A record is open on the entry of a name. -/
structure Attached (s : State) (index : Fin 8) (name : CString) : Prop where
  used : (s.files index).used = true
  loaded : s.dirLoaded = true
  reliable : s.device.Reliable
  placed : (s.files index).Placed
  fits : (s.files index).Fits
  found : dirFind s.dir name = some (s.files index).dirIndex
  holds : (s.files index).Holds (s.dir (s.files index).dirIndex)
  clean : (s.files index).dirty = false →
    (s.files index).size = (s.dir (s.files index).dirIndex).size

/-- These bytes are under a name, and a record is free to open it. -/
structure Saved (s : State) (name : CString) (bytes : List UInt8) : Prop where
  loaded : s.dirLoaded = true
  reliable : s.device.Reliable
  free : findFreeFile s.files ≠ none
  entry : ∃ di, dirFind s.dir name = some di ∧ (s.dir di).Placed ∧ (s.dir di).Fits ∧
    (s.dir di).contents s.device.disk = bytes

section Opening

variable {s : State} {slot : Fin 8} {di : Fin 64} {name : CString} {flags : UInt32}

theorem Attached.openIndex_eq {index : Fin 8} (attached : Attached s index name) :
    openIndex s (3 + index.val) = some index :=
  (openIndex_eq_some_iff _ _ _).mpr ⟨(fdIndex_eq_some_iff _ _).mpr rfl, attached.used⟩

/-- What `open` leaves in the record it fills. -/
structure Opens (s : State) (slot : Fin 8) (flags : UInt32) (bytes : List UInt8) (cap : Nat) :
    Prop where
  append : (s.files slot).append = hasFlag flags oAppend
  pos : (s.files slot).pos = if hasFlag flags oAppend then (s.files slot).size else 0
  contents : (s.files slot).contents s.device.disk = bytes
  capacity : (s.files slot).cap = cap

/-- A record is filled for an entry. -/
theorem attached_setFile (loaded : s.dirLoaded = true) (reliable : s.device.Reliable)
    (found : dirFind s.dir name = some di) (placed : (s.dir di).Placed)
    (fits : (s.dir di).Fits) (slot : Fin 8) (flags : UInt32) :
    Attached (s.setFile slot (openedFile (s.dir di) di flags)) slot name ∧
      Opens (s.setFile slot (openedFile (s.dir di) di flags)) slot flags
        ((s.dir di).contents s.device.disk) ((s.dir di).reservedBlocks.toNat * 2097152) := by
  have file : (s.setFile slot (openedFile (s.dir di) di flags)).files slot =
      openedFile (s.dir di) di flags := by rw [files_setFile, Function.update_self]
  constructor
  · constructor
    case loaded => exact loaded
    case reliable => exact reliable
    all_goals rw [file]
    case used => rfl
    case placed => exact placed.openedFile di flags
    case fits => exact fits
    case found => exact found
    case holds => exact ⟨rfl, rfl⟩
    case clean => exact fun _ => rfl
  · constructor
    all_goals rw [file]
    case append => rfl
    case pos => rfl
    case contents => rfl
    case capacity => rfl

theorem openEntry_attached (loaded : s.dirLoaded = true) (reliable : s.device.Reliable)
    (found : dirFind s.dir name = some di) (placed : (s.dir di).Placed)
    (fits : (s.dir di).Fits) (slot : Fin 8) (flags : UInt32) :
    ∃ s', openEntry s slot di flags = (3 + (slot.val : Int), s') ∧ Attached s' slot name ∧
      Opens s' slot flags
        (if hasFlag flags oTrunc then [] else (s.dir di).contents s.device.disk)
        ((s.dir di).reservedBlocks.toNat * 2097152) := by
  cases trunc : hasFlag flags oTrunc with
  | false =>
      exact ⟨_, openEntry_of_keep s slot di trunc,
        attached_setFile loaded reliable found placed fits slot flags⟩
  | true =>
      have same := s.dir.sameFile_resize di 0
      have emptied : (s.dir.resize di 0 di).size = 0 := by rw [Dir.resize, Function.update_self]
      have attached := attached_setFile (s := s.edit (s.dir.resize di 0)) loaded
        (reliable.of_fails_eq (edit_wrote _ reliable).fails)
        ((dirFind_congr same name).trans found) ((same di).placed placed) (by
          rw [Dirent.Fits, dir_edit, emptied]
          exact Nat.zero_le _) slot flags
      have empty : ((s.edit (s.dir.resize di 0)).dir di).contents
          (s.edit (s.dir.resize di 0)).device.disk = [] := by
        rw [Dirent.contents, dir_edit, emptied]
        rfl
      have blocks : ((s.edit (s.dir.resize di 0)).dir di).reservedBlocks =
          (s.dir di).reservedBlocks := by rw [dir_edit, Dir.resize, Function.update_self]
      rw [empty, blocks] at attached
      exact ⟨_, openEntry_of_trunc s slot di trunc, attached⟩

/-- `open` of a name fails, or opens the file under it, truncated if asked to. -/
theorem bmfsOpen_attached (usable : Usable s) (path : CString) (flags : UInt32) :
    (bmfsOpen s path flags).1 < 0 ∨
      validName (bmfsName path) ∧
      ∃ slot s', bmfsOpen s path flags = (3 + ((slot : Fin 8).val : Int), s') ∧
        Attached s' slot (bmfsName path) ∧
        Opens s' slot flags (if hasFlag flags oTrunc then [] else named s (bmfsName path))
          (reserved s (bmfsName path)) := by
  have outcome := bmfsOpen_outcome s path flags
  have reliable : (dirLoad s).device.Reliable :=
    usable.reliable.of_fails_eq (dirLoad_sameMedia s).fails
  generalize bmfsOpen s path flags = result at outcome
  cases outcome with
  | badName | tooMany | missing | dirFull | exclusive =>
      exact .inl (Int.neg_neg_of_pos (by decide))
  | @created slot di valid free missing create freeSlot =>
      have entry := createEntry_self s.table di (bmfsName path)
      obtain ⟨first, last, -⟩ := createEntry_startBlock usable.bounded di (bmfsName path)
      have one : (createEntry s.table di (bmfsName path) di).reservedBlocks.toNat = 1 := by
        rw [entry]
        rfl
      have placed : (createEntry s.table di (bmfsName path) di).Placed := ⟨first, by omega⟩
      have emptied : (createEntry s.table di (bmfsName path) di).size = 0 := by rw [entry]
      have fits : (createEntry s.table di (bmfsName path) di).Fits := by
        rw [Dirent.Fits, emptied]
        exact Nat.zero_le _
      obtain ⟨s', opened, attached, opens⟩ := openEntry_attached
        (s := (dirLoad s).edit (createEntry s.table di (bmfsName path))) (dirLoaded_dirLoad s)
        (reliable.of_fails_eq (edit_wrote _ reliable).fails) (dirFind_createEntry valid missing)
        placed fits slot flags
      refine .inr ⟨valid, slot, s', opened, attached, ?_⟩
      have empty : ∀ disk, (createEntry s.table di (bmfsName path) di).contents disk = [] := by
        intro disk
        rw [Dirent.contents, emptied]
        rfl
      rw [dir_edit, empty, ite_self, one] at opens
      rwa [named, reserved, missing, Option.map_none, Option.map_none, Option.getD_none,
        Option.getD_none, ite_self]
  | @opened slot di valid free found allowed =>
      have live := (dirFind_some found).1
      obtain ⟨s', opened, attached, opens⟩ := openEntry_attached (dirLoaded_dirLoad s) reliable
        (by rw [dir_dirLoad]; exact found)
        (by rw [dir_dirLoad]; exact usable.sound.entries di live)
        (by rw [dir_dirLoad]; exact usable.fits di live) slot flags
      rw [dir_dirLoad, (dirLoad_sameMedia s).disk] at opens
      refine .inr ⟨valid, slot, s', opened, attached, ?_⟩
      rwa [named, reserved, found, Option.map_some, Option.map_some, Option.getD_some,
        Option.getD_some]

end Opening

section Writing

variable {s s' : State} {index : Fin 8} {name : CString} {bytes : List UInt8}

/-- Bytes that an open file has room for are stored. -/
theorem Attached.stores (attached : Attached s index name) (stores : Stores s s' index bytes)
    (nonempty : bytes ≠ []) (inside : bytes.length ≤ (s.files index).space) :
    Attached s' index name := by
  have capacity := attached.placed.addressable.cap_le
  have positive := List.length_pos_iff.mpr nonempty
  rw [File.space] at inside
  have length : (UInt64.ofNat bytes.length).toNat = bytes.length := toNat_ofNat_length (by omega)
  have same := stores.sameHandle
  have size : (s'.files index).size.toNat = max (s.files index).size.toNat
      ((s.files index).offset.toNat + bytes.length) := by
    rw [stores.file, size_writtenFile _ (by omega), length]
  constructor
  case used => rw [same.used]; exact attached.used
  case loaded => rw [stores.loaded]; exact attached.loaded
  case reliable => exact attached.reliable.of_fails_eq stores.fails
  case placed => exact same.placed attached.placed
  case fits =>
    rw [File.Fits, size, same.cap]
    exact max_le attached.fits (by omega)
  case found => rw [stores.dir, same.dirIndex]; exact attached.found
  case holds => rw [stores.dir, same.dirIndex]; exact attached.holds.of_sameHandle same
  case clean =>
    intro clean
    rw [stores.file] at clean
    obtain ⟨wasClean, unchanged⟩ := size_of_clean_writtenFile clean
    rw [stores.dir, same.dirIndex, stores.file, unchanged]
    exact attached.clean wasClean

/-- Bytes that are stored at the end of a file follow those it has. -/
theorem Attached.contents_stores (attached : Attached s index name)
    (stores : Stores s s' index bytes) (inside : bytes.length ≤ (s.files index).space)
    (atEnd : (s.files index).offset = (s.files index).size) :
    (s'.files index).contents s'.device.disk =
      (s.files index).contents s.device.disk ++ bytes := by
  have capacity := attached.placed.addressable.cap_le
  have fits := attached.fits
  rw [File.Fits] at fits
  rw [File.space, atEnd] at inside
  have length : (UInt64.ofNat bytes.length).toNat = bytes.length := toNat_ofNat_length (by omega)
  have size : (s'.files index).size.toNat = (s.files index).size.toNat + bytes.length := by
    rw [stores.file, size_writtenFile _ (by rw [atEnd]; omega), length, atEnd]
    omega
  have address : ∀ off, (s'.files index).address off = (s.files index).address off := by
    intro off
    rw [File.address, File.address, stores.sameHandle.startBlock]
  apply List.ext_getElem
  · simp [File.contents, size]
  · intro off bound _
    rw [File.contents, List.length_map, List.length_range, size] at bound
    simp only [File.contents, List.getElem_map, List.getElem_range, List.getElem_append,
      List.length_map, List.length_range]
    rw [address, stores.cells, atEnd, File.address, File.address]
    by_cases old : off < (s.files index).size.toNat
    · rw [if_neg (by omega), dif_pos old]
    · rw [if_pos (by omega), dif_neg old, Nat.add_sub_add_left]
      exact List.getD_eq_getElem _ _ (by omega)

/-- A record that was given up is free. -/
theorem findFreeFile_ne_none (s : State) (index : Fin 8) :
    findFreeFile (s.setFile index { s.files index with used := false }).files ≠ none := by
  intro noneFree
  have used := List.find?_eq_none.mp noneFree index (List.mem_finRange index)
  rw [files_setFile, Function.update_self] at used
  exact used rfl

/-- A closed file is found under its name as it was. -/
theorem Attached.close (attached : Attached s index name) :
    Saved (bmfsClose s index).2 name ((s.files index).contents s.device.disk) := by
  have placed : (s.dir (s.files index).dirIndex).Placed := by
    rw [Dirent.Placed, ← attached.holds.1, ← attached.holds.2]
    exact attached.placed
  have fits := attached.fits
  rw [File.Fits, File.cap, attached.holds.2] at fits
  by_cases dirty : (s.files index).dirty = true
  · rw [bmfsClose_of_dirty dirty]
    have same := s.dir.sameFile_resize (s.files index).dirIndex (s.files index).size
    have entry : s.dir.resize (s.files index).dirIndex (s.files index).size
        (s.files index).dirIndex =
        { s.dir (s.files index).dirIndex with size := (s.files index).size } := by
      rw [Dir.resize, Function.update_self]
    refine ⟨attached.loaded, attached.reliable.of_fails_eq (edit_wrote _ attached.reliable).fails,
      findFreeFile_ne_none (s.edit _) index, (s.files index).dirIndex,
      (dirFind_congr same name).trans attached.found, (same _).placed placed, ?_, ?_⟩
    · rw [dir_setFile, dir_edit, entry]
      exact fits
    · -- The flush writes the directory, none of the file's sectors.
      rw [dir_setFile, dir_edit, device_setFile, entry]
      apply List.map_congr_left
      intro off member
      have inside := Nat.lt_of_lt_of_le (List.mem_range.mp member) fits
      have address : ({ s.dir (s.files index).dirIndex with
          size := (s.files index).size } : Dirent).address off = (s.files index).address off := by
        rw [Dirent.address, File.address, attached.holds.1]
      rw [← address]
      exact cell_of_edit attached.reliable _ placed (Dirent.address_mem_bytes inside)
  · rw [bmfsClose_of_clean dirty]
    have size := attached.clean (Bool.eq_false_iff.mpr dirty)
    rw [size] at fits
    refine ⟨attached.loaded, attached.reliable, findFreeFile_ne_none s index,
      (s.files index).dirIndex, attached.found, placed, fits, ?_⟩
    rw [dir_setFile, device_setFile, Dirent.contents, File.contents, size]
    simp only [Dirent.address, File.address, attached.holds.1]

/-- What is under a name is what an `open` without truncation finds. -/
theorem Saved.open {path : CString} (saved : Saved s (bmfsName path) bytes)
    (valid : validName (bmfsName path)) {flags : UInt32} (keep : hasFlag flags oTrunc = false)
    (noCreate : hasFlag flags oCreat = false) :
    ∃ slot s', bmfsOpen s path flags = (3 + ((slot : Fin 8).val : Int), s') ∧
      Attached s' slot (bmfsName path) ∧ ∃ cap, Opens s' slot flags bytes cap := by
  obtain ⟨di, found, placed, fits, contents⟩ := saved.entry
  obtain ⟨slot, free⟩ := Option.ne_none_iff_exists'.mp saved.free
  obtain ⟨s', opened, attached, opens⟩ := openEntry_attached saved.loaded saved.reliable found
    placed fits slot flags
  rw [keep, contents] at opens
  refine ⟨slot, s', ?_, attached, _, opens⟩
  have outcome : OpenOutcome s path flags (openEntry (dirLoad s) slot di flags) :=
    .opened valid free ((table_of_loaded saved.loaded).symm ▸ found)
      (by rw [noCreate, Bool.false_and])
  rw [outcome.eq, dirLoad_of_loaded saved.loaded, opened]

end Writing

end AppPortKit.Bmfs
