import AppPortKit.Bmfs.Exclusive

/-!
# Closed files and crashes

A file that nobody has open is found after a crash as it was last closed, at whatever
sector write the crash strikes.  Every write of the directory carries the entry of the
closed file along, and data is only ever written to the blocks of open files, which are
none of its.
-/

namespace AppPortKit.Bmfs

open Libc SectorStore Transition

/-! ## What a start finds -/

/-- The bytes of the file of an entry. -/
def Dirent.contents (entry : Dirent) (disk : Disk) : List UInt8 :=
  (List.range entry.size.toNat).map fun off => cell disk (entry.address off)

/-- The bytes of an open file. -/
def File.contents (f : File) (disk : Disk) : List UInt8 :=
  (List.range f.size.toNat).map fun off => cell disk (f.address off)

/-- What the image finds under a name when it is started over a drive: the bytes of
the file, as many as its size says. -/
def mounted (disk : Disk) (name : CString) : Option (List UInt8) :=
  let table := (State.boot disk fun _ => false).table
  (dirFind table name).map fun slot => (table slot).contents disk

/-- The file in a slot of the directory of a drive, with its name and its bytes. -/
structure Stands (slot : Fin 64) (name : CString) (bytes : List UInt8) (disk : Disk) : Prop where
  wellFormed : (Dir.decode (disk 1)).WellFormed
  live : (Dir.decode (disk 1) slot).Live
  placed : (Dir.decode (disk 1) slot).Placed
  fits : (Dir.decode (disk 1) slot).Fits
  named : (Dir.decode (disk 1) slot).nameString = name
  contents : (Dir.decode (disk 1) slot).contents disk = bytes

theorem mounted_eq (disk : Disk) (name : CString) :
    mounted disk name =
      (dirFind (Dir.decode (disk 1)) name).map fun slot =>
        (Dir.decode (disk 1) slot).contents disk := by
  have table : (State.boot disk fun _ => false).table = Dir.decode (disk 1) :=
    table_of_unloaded (fun _ => rfl) rfl
  rw [mounted, table]

/-- An entry has the same bytes on drives that agree on its blocks. -/
theorem Dirent.Fits.contents_congr {entry : Dirent} (fits : entry.Fits) {disk disk' : Disk}
    (agree : ∀ address ∈ entry.bytes, cell disk' address = cell disk address) :
    entry.contents disk' = entry.contents disk := by
  apply List.map_congr_left
  intro off member
  apply agree
  exact address_mem_bytes (Nat.lt_of_lt_of_le (List.mem_range.mp member) fits)

namespace Stands

variable {slot : Fin 64} {name : CString} {bytes : List UInt8} {disk : Disk}

/-- A start finds the file under its name. -/
theorem mounted (stands : Stands slot name bytes disk) :
    mounted disk name = some bytes := by
  have found := (stands.wellFormed.dirFind_eq_some_iff name slot).mpr ⟨stands.live, stands.named⟩
  rw [mounted_eq, found, Option.map_some, stands.contents]

/-- Any drive with the same entry and the same bytes will do. -/
theorem of_agree (stands : Stands slot name bytes disk) {disk' : Disk}
    (wellFormed : (Dir.decode (disk' 1)).WellFormed)
    (entry : Dir.decode (disk' 1) slot = Dir.decode (disk 1) slot)
    (cells : ∀ address ∈ (Dir.decode (disk 1) slot).bytes,
      cell disk' address = cell disk address) : Stands slot name bytes disk' where
  wellFormed := wellFormed
  live := by
    rw [entry]
    exact stands.live
  placed := by
    rw [entry]
    exact stands.placed
  fits := by
    rw [entry]
    exact stands.fits
  named := by
    rw [entry]
    exact stands.named
  contents := by
    rw [entry, stands.fits.contents_congr cells]
    exact stands.contents

/-- A flush of a directory with the same entry. -/
theorem flush (stands : Stands slot name bytes disk) {dir : Dir} (wellFormed : dir.WellFormed)
    (entry : dir slot = Dir.decode (disk 1) slot) :
    Stands slot name bytes (Function.update disk 1 dir.encode) := by
  have decoded : Dir.decode (Function.update disk 1 dir.encode 1) = dir := by
    rw [Function.update_self, Dir.decode_encode]
  apply stands.of_agree
  · rw [decoded]
    exact wellFormed
  · rw [decoded]
    exact entry
  · intro address inside
    apply cell_update_of_ne
    have first := stands.placed.1
    have low := (Set.mem_Ico.mp inside).1
    omega

/-- Writes to the blocks of an open file apart from the entry's. -/
theorem store (stands : Stands slot name bytes disk) {f : File} (placed : f.Placed)
    (apart : Disjoint f.extent (Dir.decode (disk 1) slot).extent)
    {writes : List (Nat × Sector)}
    (within : ∀ write ∈ writes, f.startBlock.toNat * 512 ≤ write.1 ∧
      write.1 < (f.startBlock.toNat + f.reservedBlocks.toNat) * 512) :
    Stands slot name bytes (replay disk writes) := by
  have directory : replay disk writes 1 = disk 1 := by
    apply replay_of_forall_ne
    intro write member
    have first := placed.1
    have low := (within write member).1
    omega
  apply stands.of_agree
  · rw [directory]
    exact stands.wellFormed
  · rw [directory]
  · intro address inside
    apply cell_replay_of_forall_ne
    intro write member same
    obtain ⟨low, high⟩ := within write member
    refine not_mem_bytes_of_disjoint apart ?_ inside
    rw [File.address, File.address, File.cap]
    omega

end Stands

/-! ## What a call leaves alone -/

/-- A file stands on the drive and nobody has it open. -/
structure Shut (slot : Fin 64) (name : CString) (bytes : List UInt8) (s : State) : Prop where
  stands : Stands slot name bytes s.device.disk
  idle : ∀ index, (s.files index).used = true → (s.files index).dirIndex ≠ slot

/-- Between two states the drive performs some writes, the file stands after each of
them, and nobody has it open at the end. -/
def Survives (slot : Fin 64) (name : CString) (bytes : List UInt8) (s s' : State) : Prop :=
  ∃ writes, Device.Wrote s.device s'.device writes ∧
    (∀ count, Stands slot name bytes (replay s.device.disk (writes.take count))) ∧
    ∀ index, (s'.files index).used = true → (s'.files index).dirIndex ≠ slot

section Survives

variable {slot : Fin 64} {name : CString} {bytes : List UInt8} {s s' s'' : State}

theorem Survives.shut (survives : Survives slot name bytes s s') : Shut slot name bytes s' := by
  obtain ⟨writes, wrote, stands, idle⟩ := survives
  refine ⟨?_, idle⟩
  have last := stands writes.length
  rw [List.take_length, ← wrote.disk] at last
  exact last

theorem Survives.trans (first : Survives slot name bytes s s')
    (second : Survives slot name bytes s' s'') : Survives slot name bytes s s'' := by
  obtain ⟨early, wroteEarly, standsEarly, -⟩ := first
  obtain ⟨late, wroteLate, standsLate, idle⟩ := second
  refine ⟨early ++ late, wroteEarly.trans wroteLate, fun count => ?_, idle⟩
  rw [List.take_append, replay_append]
  rcases Nat.le_total count early.length with before | after
  · rw [Nat.sub_eq_zero_of_le before, List.take_zero, replay_nil]
    exact standsEarly count
  · rw [List.take_of_length_le after, ← wroteEarly.disk]
    exact standsLate _

namespace Shut

/-- Nothing is written. -/
theorem quiet (shut : Shut slot name bytes s) (media : Device.SameMedia s.device s'.device)
    (idle : ∀ index, (s'.files index).used = true → (s'.files index).dirIndex ≠ slot) :
    Survives slot name bytes s s' := by
  refine ⟨[], media.wrote, fun count => ?_, idle⟩
  rw [List.take_nil, replay_nil]
  exact shut.stands

theorem load (shut : Shut slot name bytes s) : Survives slot name bytes s (dirLoad s) := by
  apply shut.quiet (dirLoad_sameMedia s)
  rw [files_dirLoad]
  exact shut.idle

theorem setFile (shut : Shut slot name bytes s) (index : Fin 8) {file : File}
    (elsewhere : file.used = true → file.dirIndex ≠ slot) :
    Survives slot name bytes s (s.setFile index file) := by
  have media : Device.SameMedia s.device (s.setFile index file).device := .refl _
  apply shut.quiet media
  rw [files_setFile,
    Function.forall_update_iff s.files fun _ f => f.used = true → f.dirIndex ≠ slot]
  exact ⟨elsewhere, fun other _ => shut.idle other⟩

/-- The directory is flushed with the entry as it is. -/
theorem edit (shut : Shut slot name bytes s) (reliable : s.device.Reliable) {dir : Dir}
    (wellFormed : dir.WellFormed) (entry : dir slot = Dir.decode (s.device.disk 1) slot) :
    Survives slot name bytes s (s.edit dir) := by
  refine ⟨_, edit_wrote dir reliable, fun count => ?_, shut.idle⟩
  cases count with
  | zero =>
      rw [List.take_zero, replay_nil]
      exact shut.stands
  | succ count =>
      rw [List.take_succ_cons, List.take_nil, replay_singleton]
      exact shut.stands.flush wellFormed entry

/-- Another slot's entry is given a new size. -/
theorem resize (shut : Shut slot name bytes s) (reliable : s.device.Reliable)
    (agrees : s.dir = Dir.decode (s.device.disk 1)) {other : Fin 64} (elsewhere : other ≠ slot)
    (size : UInt64) : Survives slot name bytes s (s.edit (s.dir.resize other size)) := by
  apply shut.edit reliable
  · have wellFormed := shut.stands.wellFormed
    rw [← agrees] at wellFormed
    exact wellFormed.of_kept fun target _ => s.dir.sameFile_resize other size target
  · rw [Dir.resize, Function.update_of_ne elsewhere.symm, agrees]

/-- The end of `open` on another slot's entry. -/
theorem openEntry (shut : Shut slot name bytes s) (reliable : s.device.Reliable)
    (agrees : s.dir = Dir.decode (s.device.disk 1)) (index : Fin 8) {di : Fin 64}
    (elsewhere : di ≠ slot) (flags : UInt32) :
    Survives slot name bytes s (openEntry s index di flags).2 := by
  cases trunc : hasFlag flags oTrunc with
  | false =>
      rw [openEntry_of_keep s index di trunc]
      exact shut.setFile index fun _ => elsewhere
  | true =>
      rw [openEntry_of_trunc s index di trunc]
      have resized := shut.resize reliable agrees elsewhere 0
      exact resized.trans (resized.shut.setFile index fun _ => elsewhere)

end Shut

end Survives

/-! ## Calls -/

namespace Related

variable {s : State} {a : RefStore} {slot : Fin 64} {name : CString} {bytes : List UInt8}

theorem dir_dirLoad_agrees (related : Related s a) :
    (dirLoad s).dir = Dir.decode ((dirLoad s).device.disk 1) := by
  rw [dir_dirLoad, (dirLoad_sameMedia s).disk]
  exact related.synced.agrees

/-- A slot whose entry has another name is another slot. -/
theorem slot_ne (related : Related s a) (shut : Shut slot name bytes s) {other : Fin 64}
    {otherName : CString} (found : dirFind s.table otherName = some other)
    (different : otherName ≠ name) : other ≠ slot := by
  rintro rfl
  have named := ((related.handles.wellFormed.dirFind_eq_some_iff otherName other).mp found).2
  rw [related.synced.agrees, shut.stands.named] at named
  exact different named.symm

theorem survives_open (related : Related s a) (bounded : s.table.Bounded)
    (shut : Shut slot name bytes s) {path : CString} (flags : UInt32)
    (spared : 0 ≤ (bmfsOpen s path flags).1 → bmfsName path ≠ name) :
    Survives slot name bytes s (bmfsOpen s path flags).2 := by
  have loaded := shut.load
  have reliable : (dirLoad s).device.Reliable :=
    related.synced.reliable.of_fails_eq (dirLoad_sameMedia s).fails
  have outcome := bmfsOpen_outcome s path flags
  generalize bmfsOpen s path flags = result at outcome spared ⊢
  cases outcome with
  | badName invalid => exact shut.quiet (.refl _) shut.idle
  | tooMany | missing | dirFull | exclusive => exact loaded
  | @created index di valid free missing create freeSlot =>
      have live := shut.stands.live
      rw [← related.synced.agrees] at live
      have elsewhere : di ≠ slot := by
        rintro rfl
        exact dirFindFreeSlot_some freeSlot live
      have entry : createEntry s.table di (bmfsName path) slot =
          Dir.decode ((dirLoad s).device.disk 1) slot := by
        rw [createEntry_of_ne _ elsewhere.symm, ← related.dir_dirLoad_agrees, dir_dirLoad]
      have created := loaded.shut.edit reliable
        (related.handles.wellFormed.createEntry bounded valid missing di) entry
      have wrote := edit_wrote (createEntry s.table di (bmfsName path)) reliable
      refine loaded.trans (created.trans (created.shut.openEntry
        (reliable.of_fails_eq wrote.fails) ?_ index elsewhere flags))
      rw [dir_edit, wrote.disk, replay_singleton, Function.update_self, Dir.decode_encode]
  | @opened index di valid free found allowed =>
      have elsewhere := related.slot_ne shut found (spared (openEntry_nonneg _ _ _ _))
      exact loaded.trans
        (loaded.shut.openEntry reliable related.dir_dirLoad_agrees index elsewhere flags)

theorem survives_unlink (related : Related s a) (shut : Shut slot name bytes s) {path : CString}
    (spared : bmfsName path ≠ name) : Survives slot name bytes s (bmfsUnlink s path).2 := by
  have loaded := shut.load
  cases found : dirFind s.table (bmfsName path) with
  | none =>
      rw [bmfsUnlink_of_missing found]
      exact loaded
  | some di =>
      have elsewhere := related.slot_ne shut found spared
      rw [bmfsUnlink_of_found found]
      refine loaded.trans (loaded.shut.edit
        (related.synced.reliable.of_fails_eq (dirLoad_sameMedia s).fails) ?_ ?_)
      · exact (related.handles.remove di).wellFormed
      · rw [Function.update_of_ne elsewhere.symm, ← related.dir_dirLoad_agrees, dir_dirLoad]

theorem survives_close (related : Related s a) (shut : Shut slot name bytes s) {index : Fin 8}
    (used : (s.files index).used = true) :
    Survives slot name bytes s (bmfsClose s index).2 := by
  have loaded := related.synced.sound.loaded used
  have agrees : s.dir = Dir.decode (s.device.disk 1) := by
    rw [← table_of_loaded loaded]
    exact related.synced.agrees
  by_cases dirty : (s.files index).dirty = true
  · rw [bmfsClose_of_dirty dirty]
    have resized := shut.resize related.synced.reliable agrees (shut.idle index used)
      (s.files index).size
    exact resized.trans (resized.shut.setFile index nofun)
  · rw [bmfsClose_of_clean dirty]
    exact shut.setFile index nofun

/-- Sectors written through an open file are none of the closed one's. -/
theorem survives_write (related : Related s a) (shut : Shut slot name bytes s) {index : Fin 8}
    (used : (s.files index).used = true) (buf : Nat → UInt8) {len : UInt64}
    (short : len.toNat < 9223372036854775808) :
    Survives slot name bytes s (bmfsWrite s index buf len).2 := by
  have placed := related.synced.sound.opened index used
  have live := shut.stands.live
  rw [← related.synced.agrees] at live
  have apart := (related.handles.foreign used live fun own => shut.idle index used own.2).2
  rw [related.synced.agrees] at apart
  obtain ⟨writes, wrote, within⟩ := bmfsWrite_wrote placed.addressable buf short
  refine ⟨writes, wrote, fun count => ?_, ?_⟩
  · exact shut.stands.store placed apart fun write member =>
      within write (List.mem_of_mem_take member)
  · obtain ⟨scratch, device, file, state, same⟩ := bmfsWrite_state s index buf len
    rw [state, files_setFile, Function.forall_update_iff s.files fun _ f =>
      f.used = true → f.dirIndex ≠ slot, same.used, same.dirIndex]
    exact ⟨shut.idle index, fun other _ => shut.idle other⟩

/-- A file that has just been closed stands on the drive as it was. -/
theorem shut_close (related : Related s a) {index : Fin 8}
    (used : (s.files index).used = true) :
    Shut (s.files index).dirIndex (s.table (s.files index).dirIndex).nameString
      ((s.files index).contents s.device.disk) (bmfsClose s index).2 := by
  have sound := related.synced.sound
  have loaded := sound.loaded used
  obtain ⟨live, holds⟩ := related.handles.own index used rfl
  have size := related.handles.fits_of_used used live
  have alone : ∀ other, ((Function.update s.files index { s.files index with used := false })
      other).used = true →
      ((Function.update s.files index { s.files index with used := false }) other).dirIndex ≠
        (s.files index).dirIndex := by
    rw [Function.forall_update_iff s.files fun _ f =>
      f.used = true → f.dirIndex ≠ (s.files index).dirIndex]
    exact ⟨nofun, fun other different otherUsed same =>
      different (related.single other index otherUsed used same)⟩
  -- The entry after the close is the one before it with the size of the record.
  have closed : ∀ disk : Disk,
      Dir.decode (disk 1) = s.table.resize (s.files index).dirIndex (s.files index).size →
      (∀ address ∈ (s.table (s.files index).dirIndex).bytes,
        cell disk address = cell s.device.disk address) →
      Stands (s.files index).dirIndex (s.table (s.files index).dirIndex).nameString
        ((s.files index).contents s.device.disk) disk := by
    intro disk decoded cells
    have same := s.table.sameFile_resize (s.files index).dirIndex (s.files index).size
      (s.files index).dirIndex
    have entry : Dir.decode (disk 1) (s.files index).dirIndex =
        { s.table (s.files index).dirIndex with size := (s.files index).size } := by
      rw [decoded, Dir.resize, Function.update_self]
    constructor
    · rw [decoded]
      exact related.handles.wellFormed.of_kept fun other _ => s.table.sameFile_resize _ _ other
    · rw [decoded]
      exact same.live_iff.mpr live
    · rw [decoded]
      exact same.placed (sound.entries _ live)
    · rw [entry]
      exact size
    · rw [decoded, same.nameString]
    · rw [entry]
      apply List.map_congr_left
      intro off member
      have inside : off < (s.table (s.files index).dirIndex).reservedBlocks.toNat * 2097152 :=
        Nat.lt_of_lt_of_le (List.mem_range.mp member) size
      have address : ({ s.table (s.files index).dirIndex with
          size := (s.files index).size } : Dirent).address off = (s.files index).address off := by
        rw [Dirent.address, File.address, holds.1]
      rw [← address]
      exact cells _ (Dirent.address_mem_bytes inside)
  by_cases dirty : (s.files index).dirty = true
  · rw [bmfsClose_of_dirty dirty, ← table_of_loaded loaded]
    have wrote := edit_wrote (s.table.resize (s.files index).dirIndex (s.files index).size)
      related.synced.reliable
    refine ⟨closed _ ?_ ?_, alone⟩
    · rw [device_setFile, wrote.disk, replay_singleton, Function.update_self, Dir.decode_encode]
    · intro address inside
      exact cell_of_edit related.synced.reliable _ (sound.entries _ live) inside
  · rw [bmfsClose_of_clean dirty]
    refine ⟨closed _ ?_ fun _ _ => rfl, alone⟩
    rw [device_setFile, ← related.synced.agrees, Dir.resize,
      related.clean index used (Bool.eq_false_iff.mpr dirty), Function.update_eq_self]

end Related

/-! ## Runs -/

/-- The file system with the files nobody has open, and their bytes when they were
last closed. -/
structure Remembered where
  fs : State
  closed : CString → Option (List UInt8)

namespace Remembered

/-- At the start the files of the drive are closed. -/
def boot (disk : Disk) : Remembered :=
  { fs := State.boot disk fun _ => false, closed := mounted disk }

/-- An `open` that succeeds and an `unlink` that is issued take a name out; a close
puts it back with the bytes the file has. -/
def remember (t : Remembered) (call : Call) (reply : Reply) : CString → Option (List UInt8) :=
  match call with
  | .open path _ =>
      if 0 ≤ reply.ret then Function.update t.closed (bmfsName path) none else t.closed
  | .unlink path => Function.update t.closed (bmfsName path) none
  | .close fd =>
      match openIndex t.fs fd with
      | none => t.closed
      | some index =>
          Function.update t.closed (t.fs.table (t.fs.files index).dirIndex).nameString
            (some ((t.fs.files index).contents t.fs.device.disk))
  | _ => t.closed

end Remembered

/-- The file system as a machine over calls, with the files that are closed. -/
def remembering : Machine Remembered Call Reply where
  step t call :=
    ((serve t.fs call).1,
      { fs := (serve t.fs call).2, closed := t.remember call (serve t.fs call).1 })

/-- Every closed file is found under its name by a start over a drive, with its bytes. -/
def Remembered.FoundOn (t : Remembered) (disk : Disk) : Prop :=
  ∀ name bytes, t.closed name = some bytes → mounted disk name = some bytes

/-- A crash before a call, or after any number of its sector writes, leaves every file
that is closed and stays closed as it was last closed. -/
def SurvivesCrash (disk : Disk) (t : Remembered) (call : Call) : Prop :=
  t.FoundOn (replay disk t.fs.device.log) ∧
    ∀ count, t.fs.device.log.length ≤ count →
      ∀ name bytes, t.closed name = some bytes →
        (remembering.next t call).closed name = some bytes →
          mounted (replay disk ((remembering.next t call).fs.device.log.take count)) name =
            some bytes

/-- The drive holds every closed file as it was last closed. -/
structure Kept (disk : Disk) (t : Remembered) : Prop where
  implements : Implements t.fs
  replayed : t.fs.device.disk = replay disk t.fs.device.log
  shut : ∀ name bytes, t.closed name = some bytes → ∃ slot, Shut slot name bytes t.fs

namespace Kept

variable {disk : Disk} {t : Remembered} {call : Call}

/-- A closed file that a call does not open or remove survives the call. -/
theorem survives (kept : Kept disk t) (careful : Careful t.fs call) {name : CString}
    {bytes : List UInt8} (before : t.closed name = some bytes)
    (after : (remembering.next t call).closed name = some bytes) :
    ∃ slot, Survives slot name bytes t.fs (remembering.next t call).fs := by
  obtain ⟨a, related⟩ := kept.implements
  obtain ⟨slot, shut⟩ := kept.shut name bytes before
  obtain ⟨⟨bounded, short⟩, -, -⟩ := careful
  refine ⟨slot, ?_⟩
  have still : Survives slot name bytes t.fs t.fs := shut.quiet (.refl _) shut.idle
  cases call with
  | «open» path flags =>
      apply related.survives_open bounded shut
      rintro success rfl
      have reply : 0 ≤ (serve t.fs (.open path flags)).1.ret := success
      simp only [Machine.next, remembering, Remembered.remember, reply, ↓reduceIte,
        Function.update_self] at after
      contradiction
  | read fd len =>
      cases opened : openIndex t.fs fd with
      | none =>
          simp only [Machine.next, remembering, serve, opened]
          exact still
      | some index =>
          have used := ((openIndex_eq_some_iff _ _ _).mp opened).2
          obtain ⟨scratch, device, pos, state, media⟩ := bmfsRead_state t.fs index len
          simp only [Machine.next, remembering, serve_read opened, state]
          apply shut.quiet media
          rw [files_setFile, Function.forall_update_iff t.fs.files fun _ f =>
            f.used = true → f.dirIndex ≠ slot]
          exact ⟨fun _ => shut.idle index used, fun other _ => shut.idle other⟩
  | write fd buf len =>
      cases opened : openIndex t.fs fd with
      | none =>
          simp only [Machine.next, remembering, serve, opened]
          exact still
      | some index =>
          simp only [Machine.next, remembering, serve_write opened, Reply.ofResult]
          exact related.survives_write shut ((openIndex_eq_some_iff _ _ _).mp opened).2 buf short
  | lseek fd offset whence =>
      cases opened : openIndex t.fs fd with
      | none =>
          simp only [Machine.next, remembering, serve, opened]
          exact still
      | some index =>
          have used := ((openIndex_eq_some_iff _ _ _).mp opened).2
          simp only [Machine.next, remembering, serve_lseek opened, Reply.ofResult]
          rcases bmfsLseek_cases t.fs index offset whence with refused | ⟨np, -, moved⟩
          · rw [refused]
            exact still
          · rw [moved]
            exact shut.setFile index fun _ => shut.idle index used
  | close fd =>
      cases opened : openIndex t.fs fd with
      | none =>
          simp only [Machine.next, remembering, serve, opened]
          exact still
      | some index =>
          simp only [Machine.next, remembering, serve_close opened, Reply.ofResult]
          exact related.survives_close shut ((openIndex_eq_some_iff _ _ _).mp opened).2
  | fstat fd =>
      cases opened : openIndex t.fs fd <;>
        simp only [Machine.next, remembering, serve, opened] <;> exact still
  | fstatat path =>
      simp only [Machine.next, remembering, serve, bmfsFstatat]
      split <;> exact shut.load
  | unlink path =>
      simp only [Machine.next, remembering, serve, Reply.ofResult]
      apply related.survives_unlink shut
      rintro rfl
      simp only [Machine.next, remembering, Remembered.remember, Function.update_self] at after
      contradiction

/-- A name that a call leaves closed was closed before with the same bytes, or has
just been closed. -/
theorem shut_next (kept : Kept disk t) (careful : Careful t.fs call) {name : CString}
    {bytes : List UInt8} (after : (remembering.next t call).closed name = some bytes) :
    ∃ slot, Shut slot name bytes (remembering.next t call).fs := by
  have earlier : t.closed name = some bytes →
      ∃ slot, Shut slot name bytes (remembering.next t call).fs := by
    intro before
    obtain ⟨slot, survives⟩ := kept.survives careful before after
    exact ⟨slot, survives.shut⟩
  have taken : ∀ target, Function.update t.closed target none name = some bytes →
      t.closed name = some bytes := by
    intro target remains
    by_cases same : name = target
    · rw [same, Function.update_self] at remains
      contradiction
    · rwa [Function.update_of_ne same] at remains
  cases call with
  | «open» path flags =>
      apply earlier
      simp only [Machine.next, remembering, Remembered.remember] at after
      split at after
      · exact taken _ after
      · exact after
  | unlink path => exact earlier (taken _ after)
  | close fd =>
      cases opened : openIndex t.fs fd with
      | none =>
          apply earlier
          simpa only [Machine.next, remembering, Remembered.remember, opened] using after
      | some index =>
          have used := ((openIndex_eq_some_iff _ _ _).mp opened).2
          simp only [Machine.next, remembering, Remembered.remember, opened] at after
          by_cases same : name = (t.fs.table (t.fs.files index).dirIndex).nameString
          · subst same
            rw [Function.update_self, Option.some.injEq] at after
            subst after
            obtain ⟨a, related⟩ := kept.implements
            simp only [Machine.next, remembering, serve_close opened, Reply.ofResult]
            exact ⟨_, related.shut_close used⟩
          · apply earlier
            rwa [Function.update_of_ne same] at after
  | read | write | lseek | fstat | fstatat => exact earlier after

theorem next (kept : Kept disk t) (careful : Careful t.fs call) :
    Kept disk (remembering.next t call) where
  implements := kept.implements.next careful
  replayed := by
    obtain ⟨a, related⟩ := kept.implements
    have appended : ∃ writes,
        Device.Wrote t.fs.device (remembering.next t call).fs.device writes := by
      apply next_of_changes fun s => ∃ writes, Device.Wrote t.fs.device s.device writes
      case holds => exact ⟨[], (Device.SameMedia.refl _).wrote⟩
      rintro before after ⟨writes, wrote⟩ changed
      obtain ⟨more, wroteMore⟩ := changed.appends
      exact ⟨_, wrote.trans wroteMore⟩
    obtain ⟨writes, wrote⟩ := appended
    rw [wrote.disk, wrote.log, replay_append, kept.replayed]
  shut _ _ := kept.shut_next careful

theorem boot (wellFormed : (Dir.decode (disk 1)).WellFormed)
    (fits : (Dir.decode (disk 1)).SizesFit)
    (bounded : (Dir.decode (disk 1)).Bounded) : Kept disk (Remembered.boot disk) where
  implements := .boot wellFormed fits bounded
  replayed := rfl
  shut name bytes closed := by
    have found : (dirFind (Dir.decode (disk 1)) name).map (fun slot =>
        (Dir.decode (disk 1) slot).contents disk) = some bytes := mounted_eq disk name ▸ closed
    obtain ⟨slot, search, contents⟩ := Option.map_eq_some_iff.mp found
    obtain ⟨live, named⟩ := (wellFormed.dirFind_eq_some_iff name slot).mp search
    exact ⟨slot,
      ⟨wellFormed, live, wellFormed.placed bounded slot live, fits slot live, named, contents⟩,
      nofun⟩

theorem foundOn (kept : Kept disk t) : t.FoundOn (replay disk t.fs.device.log) := by
  intro name bytes closed
  obtain ⟨slot, shut⟩ := kept.shut name bytes closed
  rw [← kept.replayed]
  exact shut.stands.mounted

theorem survivesCrash (kept : Kept disk t) (careful : Careful t.fs call) :
    SurvivesCrash disk t call := by
  refine ⟨kept.foundOn, fun count later name bytes before after => ?_⟩
  obtain ⟨slot, writes, wrote, stands, -⟩ := kept.survives careful before after
  rw [wrote.log, List.take_append, List.take_of_length_le later, replay_append, ← kept.replayed]
  exact (stands _).mounted

end Kept

/-- Over a drive that never fails, with names opened and removed only while nobody has
them open and with lengths and block numbers in range, a crash at any sector write
leaves every closed file as it was last closed. -/
theorem closed_files_survive_crash (disk : Disk) (calls : List Call)
    (wellFormed : (Dir.decode (disk 1)).WellFormed)
    (fits : (Dir.decode (disk 1)).SizesFit)
    (bounded : (Dir.decode (disk 1)).Bounded)
    (careful : remembering.Along (fun t call => Careful t.fs call) (Remembered.boot disk) calls) :
    remembering.Along (SurvivesCrash disk) (Remembered.boot disk) calls ∧
      (remembering.run (Remembered.boot disk) calls).FoundOn
        (replay disk (remembering.run (Remembered.boot disk) calls).fs.device.log) := by
  have initial := Kept.boot wellFormed fits bounded
  refine ⟨?_, ?_⟩
  · exact Machine.along_of_invariant (fun _ _ => Kept.next) (fun _ _ => Kept.survivesCrash)
      initial careful
  · exact (Machine.run_invariant (fun _ _ => Kept.next) initial careful).foundOn

/-- Create two files, write a byte to the second and close it, and move the first to
the last byte of its block. -/
def closedNeighbour : List Call :=
  [.open nameA oCreat, .open nameB oCreat, .write 4 (fun _ => 7) 1, .close 4,
    .lseek 3 2097151 0]

/-- The closed file is found with its byte whatever is then written to the other. -/
theorem closedNeighbour_survives :
    remembering.Along (SurvivesCrash blankDisk) (Remembered.boot blankDisk)
      (closedNeighbour ++ [.write 3 (fun _ => 0) 5000, .close 3, .unlink nameA]) :=
  (closed_files_survive_crash blankDisk _ blankDisk_wellFormed
    (fun slot live => absurd live (blankDisk_dead slot)) blankDisk_bounded
    (by decide +kernel)).1

theorem Remembered.next_write {t : Remembered} {fd : Int} {index : Fin 8}
    (opened : openIndex t.fs fd = some index) (buf : Nat → UInt8) (len : UInt64) :
    (remembering.next t (.write fd buf len)).fs = (bmfsWrite t.fs index buf len).2 := by
  simp only [Machine.next, remembering, serve_write opened, Reply.ofResult]

/-- A write at the last byte of the block of one file, of so many bytes that the end
of the transfer wraps to zero, is not cut off and goes on into the next block.  After
two of its sectors the file there, which is closed, has lost its byte. -/
theorem wrappingWrite_destroys_closed :
    remembering.Along (fun t call => Exclusive t.fs call) (Remembered.boot blankDisk)
        (closedNeighbour ++ [.write 3 (fun _ => 0) 18446744073707454465]) ∧
      ¬remembering.Along (SurvivesCrash blankDisk) (Remembered.boot blankDisk)
        (closedNeighbour ++ [.write 3 (fun _ => 0) 18446744073707454465]) := by
  rw [Machine.along_append, Machine.along_append, Machine.along_cons, Machine.along_cons]
  have before : remembering.Along (fun t call => Careful t.fs call) (Remembered.boot blankDisk)
      closedNeighbour := by
    decide +kernel
  have kept := Machine.run_invariant (fun _ _ => Kept.next) (Kept.boot blankDisk_wellFormed
    (fun slot live => absurd live (blankDisk_dead slot)) blankDisk_bounded) before
  obtain ⟨a, related⟩ := kept.implements
  have opened : openIndex (remembering.run (Remembered.boot blankDisk) closedNeighbour).fs 3 =
      some 0 := by
    decide +kernel
  have closed : (remembering.run (Remembered.boot blankDisk) closedNeighbour).closed nameB =
      some [7] := by
    decide +kernel
  have log := bmfsWrite_log_two related.synced.reliable 0 (fun _ => 0) 18446744073707454465
    18446744073707454465 4194303 (by decide +kernel) (by decide +kernel) (by decide +kernel)
    (by decide) (by decide +kernel)
  constructor
  · exact ⟨by decide +kernel, trivial, trivial⟩
  · rintro ⟨-, survives, -⟩
    have found := survives.2 _ (Nat.le_add_right _ 2) nameB [7] closed closed
    rw [Remembered.next_write opened, log] at found
    revert found
    decide +kernel

end AppPortKit.Bmfs
