import AppPortKit.Bmfs.Invariant

/-!
# Two runs on the same calls

Two states with the same directory and the same open files answer a call alike and
stay alike, whatever is left in the scratch sector and in records that are not in
use.  How the contents of the two drives compare is a parameter, which only reads
and writes of data look at.
-/

namespace AppPortKit.Bmfs

open Libc SectorStore Transition

/-- Two states over reliable drives with the same directory and the same open files.
`media` relates the contents of the drives. -/
structure Alike (media : Disk → Disk → Prop) (s s' : State) : Prop where
  reliable : s.device.Reliable
  reliable' : s'.device.Reliable
  idle : s.dirLoaded = false → ∀ index, (s.files index).used = false
  idle' : s'.dirLoaded = false → ∀ index, (s'.files index).used = false
  table : s'.table = s.table
  used : ∀ index, (s'.files index).used = (s.files index).used
  files : ∀ index, (s.files index).used = true → s'.files index = s.files index
  disk : media s.device.disk s'.device.disk

/-- A call is answered alike and leaves states alike. -/
def Alike.Serves (media : Disk → Disk → Prop) (s s' : State) (call : Call) : Prop :=
  (serve s' call).1 = (serve s call).1 ∧ Alike media (serve s call).2 (serve s' call).2

namespace Alike

variable {media : Disk → Disk → Prop} {s s' : State}

theorem openIndex_eq (alike : Alike media s s') (fd : Int) : openIndex s' fd = openIndex s fd :=
  openIndex_congr fd alike.used

theorem findFreeFile_eq (alike : Alike media s s') :
    findFreeFile s'.files = findFreeFile s.files := by
  simp only [findFreeFile, alike.used]

/-- Whatever is open, both directories have been loaded, and they are the same. -/
theorem loaded (alike : Alike media s s') {index : Fin 8}
    (used : (s.files index).used = true) : s.dirLoaded = true ∧ s'.dirLoaded = true := by
  constructor
  · cases loaded : s.dirLoaded with
    | true => rfl
    | false =>
        rw [alike.idle loaded index] at used
        contradiction
  · cases loaded : s'.dirLoaded with
    | true => rfl
    | false =>
        rw [← alike.used, alike.idle' loaded index] at used
        contradiction

theorem dir_eq (alike : Alike media s s') (loaded : s.dirLoaded = true)
    (loaded' : s'.dirLoaded = true) : s'.dir = s.dir := by
  rw [← table_of_loaded loaded, ← table_of_loaded loaded']
  exact alike.table

theorem load (alike : Alike media s s') : Alike media (dirLoad s) (dirLoad s') where
  reliable := alike.reliable.of_fails_eq (dirLoad_sameMedia s).fails
  reliable' := alike.reliable'.of_fails_eq (dirLoad_sameMedia s').fails
  idle unloaded := by
    rw [dirLoaded_dirLoad] at unloaded
    contradiction
  idle' unloaded := by
    rw [dirLoaded_dirLoad] at unloaded
    contradiction
  table := by
    rw [table_dirLoad, table_dirLoad]
    exact alike.table
  used := by
    rw [files_dirLoad, files_dirLoad]
    exact alike.used
  files := by
    rw [files_dirLoad, files_dirLoad]
    exact alike.files
  disk := by
    rw [(dirLoad_sameMedia s).disk, (dirLoad_sameMedia s').disk]
    exact alike.disk

/-- One record is replaced by the same record in both states. -/
theorem setFile (alike : Alike media s s') (index : Fin 8) {file : File}
    (usable : file.used = true → s.dirLoaded = true ∧ s'.dirLoaded = true) :
    Alike media (s.setFile index file) (s'.setFile index file) where
  reliable := alike.reliable
  reliable' := alike.reliable'
  idle unloaded := by
    rw [files_setFile, Function.forall_update_iff s.files fun _ f => f.used = false]
    refine ⟨?_, fun other _ => alike.idle unloaded other⟩
    rw [← Bool.not_eq_true]
    exact fun used => absurd ((usable used).1.symm.trans unloaded) (by decide)
  idle' unloaded := by
    rw [files_setFile, Function.forall_update_iff s'.files fun _ f => f.used = false]
    refine ⟨?_, fun other _ => alike.idle' unloaded other⟩
    rw [← Bool.not_eq_true]
    exact fun used => absurd ((usable used).2.symm.trans unloaded) (by decide)
  table := by
    rw [table_setFile, table_setFile]
    exact alike.table
  used other := by
    by_cases same : other = index
    · subst same
      rw [files_setFile, files_setFile, Function.update_self, Function.update_self]
    · rw [files_setFile, files_setFile, Function.update_of_ne same, Function.update_of_ne same]
      exact alike.used other
  files other used := by
    by_cases same : other = index
    · subst same
      rw [files_setFile, files_setFile, Function.update_self, Function.update_self]
    · rw [files_setFile, Function.update_of_ne same] at used
      rw [files_setFile, files_setFile, Function.update_of_ne same, Function.update_of_ne same]
      exact alike.files other used
  disk := alike.disk

/-- A record in use is replaced. -/
theorem update (alike : Alike media s s') {index : Fin 8} (used : (s.files index).used = true)
    (file : File) : Alike media (s.setFile index file) (s'.setFile index file) :=
  alike.setFile index fun _ => alike.loaded used

/-- Data is transferred. -/
theorem transfer (alike : Alike media s s') (loaded : s.dirLoaded = true ∧ s'.dirLoaded = true)
    (scratch scratch' : Sector) {device device' : Device}
    (fails : device.fails = s.device.fails) (fails' : device'.fails = s'.device.fails)
    (disk : media device.disk device'.disk) :
    Alike media { s with scratch, device } { s' with scratch := scratch', device := device' } where
  reliable := alike.reliable.of_fails_eq fails
  reliable' := alike.reliable'.of_fails_eq fails'
  idle := alike.idle
  idle' := alike.idle'
  table := by
    rw [table_transfer loaded.1, table_transfer loaded.2]
    exact alike.table
  used := alike.used
  files := alike.files
  disk := disk

/-! ## Transfers -/

/-- The count of a read does not depend on the drive. -/
theorem bmfsPread_count (s s' : State) (f : File) (len off : UInt64) :
    (bmfsPread s' f len off).1 = (bmfsPread s f len off).1 := by
  rw [bmfsPread, bmfsPread]
  split <;> rfl

/-- A read is answered alike if it finds the same bytes. -/
theorem serves_read (alike : Alike media s s') {fd : Int} {index : Fin 8} {len : UInt64}
    (opened : openIndex s fd = some index)
    (bytes : (bmfsPread s' (s.files index) len (s.files index).pos).2.1 =
      (bmfsPread s (s.files index) len (s.files index).pos).2.1) :
    Serves media s s' (.read fd len) := by
  have used := ((openIndex_eq_some_iff _ _ _).mp opened).2
  have same := alike.files index used
  have opened' : openIndex s' fd = some index := (alike.openIndex_eq fd).trans opened
  obtain ⟨scratch, device, state, drive⟩ :=
    bmfsPread_state s (s.files index) len (s.files index).pos
  obtain ⟨scratch', device', state', drive'⟩ :=
    bmfsPread_state s' (s.files index) len (s.files index).pos
  have count := bmfsPread_count s s' (s.files index) len (s.files index).pos
  have fetched : Alike media { s with scratch, device }
      { s' with scratch := scratch', device := device' } := by
    apply alike.transfer (alike.loaded used) _ _ drive.fails drive'.fails
    rw [drive.disk, drive'.disk]
    exact alike.disk
  rw [Serves, serve_read opened, serve_read opened', bmfsRead, bmfsRead, same, state, state',
    count, bytes]
  refine ⟨rfl, ?_⟩
  simp only [advance]
  split
  · rw [same]
    exact fetched.update used _
  · exact fetched

/-- A write is answered alike if it leaves drives that compare as before. -/
theorem serves_write (alike : Alike media s s') {fd : Int} {index : Fin 8} {buf : Nat → UInt8}
    {len : UInt64} (opened : openIndex s fd = some index)
    (stored : ∀ n base,
      n = clampLen ((s.files index).reservedBlocks * blockBytes) (s.files index).offset len →
      base = (s.files index).startBlock * blockBytes + (s.files index).offset →
      (s.files index).offset < (s.files index).reservedBlocks * blockBytes → n ≠ 0 →
      media (pwriteLoop s.device s.scratch buf base n).2.disk
        (pwriteLoop s'.device s'.scratch buf base n).2.disk) :
    Serves media s s' (.write fd buf len) := by
  have used := ((openIndex_eq_some_iff _ _ _).mp opened).2
  have same := alike.files index used
  have opened' : openIndex s' fd = some index := (alike.openIndex_eq fd).trans opened
  rw [Serves, serve_write opened, serve_write opened']
  have first := bmfsWrite_cases s index buf len
  have second := bmfsWrite_cases s' index buf len
  rw [same] at second
  rcases first with ⟨reason, refused⟩ | ⟨n, base, count, start, inside, nonzero, written⟩
  · rcases second with ⟨-, refused'⟩ | ⟨n', base', count', -, inside', nonzero', -⟩
    · rw [refused, refused']
      exact ⟨rfl, alike.update used _⟩
    · rcases reason with past | nothing
      · exact absurd inside' (UInt64.not_lt.mpr past)
      · exact absurd (count'.trans nothing) nonzero'
  · rcases second with ⟨reason', -⟩ | ⟨n', base', count', start', -, -, written'⟩
    · rcases reason' with past | nothing
      · exact absurd inside (UInt64.not_lt.mpr past)
      · exact absurd (count.trans nothing) nonzero
    · obtain rfl : n' = n := count'.trans count.symm
      obtain rfl : base' = base := start'.trans start.symm
      obtain ⟨writes, wrote⟩ := pwriteLoop_appends s.device s.scratch buf base' n'
      obtain ⟨writes', wrote'⟩ := pwriteLoop_appends s'.device s'.scratch buf base' n'
      rw [written, written']
      refine ⟨rfl, ?_⟩
      have moved := alike.transfer (alike.loaded used)
        (pwriteLoop s.device s.scratch buf base' n').1
        (pwriteLoop s'.device s'.scratch buf base' n').1 wrote.fails wrote'.fails
        (stored n' base' count start inside nonzero)
      exact moved.setFile index fun _ => alike.loaded used

/-! ## Other calls -/

theorem serves_lseek (alike : Alike media s s') {fd : Int} {index : Fin 8}
    (opened : openIndex s fd = some index) (offset : Int64) (whence : Int32) :
    Serves media s s' (.lseek fd offset whence) := by
  have used := ((openIndex_eq_some_iff _ _ _).mp opened).2
  have same := alike.files index used
  rw [Serves, serve_lseek opened, serve_lseek ((alike.openIndex_eq fd).trans opened), bmfsLseek,
    bmfsLseek, same]
  split
  · exact ⟨rfl, alike⟩
  · simp only []
    split
    · exact ⟨rfl, alike⟩
    · exact ⟨rfl, alike.update used _⟩

theorem serves_fstat (alike : Alike media s s') {fd : Int} {index : Fin 8}
    (opened : openIndex s fd = some index) : Serves media s s' (.fstat fd) := by
  have used := ((openIndex_eq_some_iff _ _ _).mp opened).2
  simp only [Serves, serve, opened, (alike.openIndex_eq fd).trans opened, bmfsFstatFd,
    alike.files index used]
  exact ⟨trivial, alike⟩

theorem serves_fstatat (alike : Alike media s s') (path : CString) :
    Serves media s s' (.fstatat path) := by
  simp only [Serves, serve, bmfsFstatat, dir_dirLoad, alike.table]
  split <;> exact ⟨rfl, alike.load⟩

section Flushes

variable (flushed : ∀ (disk disk' : Disk) (sector : Sector), media disk disk' →
  media (Function.update disk 1 sector) (Function.update disk' 1 sector))

include flushed

/-- The same table is flushed on both sides. -/
theorem edit (alike : Alike media s s') (loaded : s.dirLoaded = true ∧ s'.dirLoaded = true)
    (dir : Dir) : Alike media (s.edit dir) (s'.edit dir) where
  reliable := alike.reliable.of_fails_eq (edit_wrote dir alike.reliable).fails
  reliable' := alike.reliable'.of_fails_eq (edit_wrote dir alike.reliable').fails
  idle := alike.idle
  idle' := alike.idle'
  table := by
    rw [table_edit dir loaded.1, table_edit dir loaded.2]
  used := alike.used
  files := alike.files
  disk := by
    rw [(edit_wrote dir alike.reliable).disk, (edit_wrote dir alike.reliable').disk]
    exact flushed _ _ _ alike.disk

theorem openEntry_alike (alike : Alike media s s')
    (loaded : s.dirLoaded = true ∧ s'.dirLoaded = true) (slot : Fin 8) (di : Fin 64)
    (flags : UInt32) :
    (openEntry s' slot di flags).1 = (openEntry s slot di flags).1 ∧
      Alike media (openEntry s slot di flags).2 (openEntry s' slot di flags).2 := by
  have dir := alike.dir_eq loaded.1 loaded.2
  cases trunc : hasFlag flags oTrunc with
  | false =>
      rw [openEntry_of_keep _ _ _ trunc, openEntry_of_keep _ _ _ trunc, dir]
      exact ⟨rfl, alike.setFile slot fun _ => loaded⟩
  | true =>
      rw [openEntry_of_trunc _ _ _ trunc, openEntry_of_trunc _ _ _ trunc, dir]
      exact ⟨rfl, (alike.edit flushed loaded _).setFile slot fun _ => loaded⟩

theorem serves_open (alike : Alike media s s') (path : CString) (flags : UInt32) :
    Serves media s s' (.open path flags) := by
  have both := alike.load
  have loaded : (dirLoad s).dirLoaded = true ∧ (dirLoad s').dirLoaded = true :=
    ⟨dirLoaded_dirLoad s, dirLoaded_dirLoad s'⟩
  have table := alike.table
  have files := alike.findFreeFile_eq
  simp only [Serves, serve, Reply.ofResult]
  have outcome := bmfsOpen_outcome s path flags
  generalize bmfsOpen s path flags = result at outcome ⊢
  -- The other state meets the conditions of the same outcome.
  cases outcome with
  | badName invalid =>
      have other : OpenOutcome s' path flags _ := .badName invalid
      rw [other.eq]
      exact ⟨rfl, alike⟩
  | tooMany valid full =>
      have other : OpenOutcome s' path flags _ := .tooMany valid (files.trans full)
      rw [other.eq]
      exact ⟨rfl, both⟩
  | missing valid free missing noCreate =>
      have other : OpenOutcome s' path flags _ :=
        .missing valid (files.trans free) (table ▸ missing) noCreate
      rw [other.eq]
      exact ⟨rfl, both⟩
  | dirFull valid free missing create noSlot =>
      have other : OpenOutcome s' path flags _ :=
        .dirFull valid (files.trans free) (table ▸ missing) create (table ▸ noSlot)
      rw [other.eq]
      exact ⟨rfl, both⟩
  | @created slot di valid free missing create freeSlot =>
      have other : OpenOutcome s' path flags _ :=
        .created valid (files.trans free) (table ▸ missing) create (table ▸ freeSlot)
      rw [other.eq, table]
      have edited := both.edit flushed loaded (createEntry s.table di (bmfsName path))
      obtain ⟨same, kept⟩ := edited.openEntry_alike flushed loaded slot di flags
      exact ⟨congrArg Reply.code same, kept⟩
  | exclusive valid free found refused =>
      have other : OpenOutcome s' path flags _ :=
        .exclusive valid (files.trans free) (table ▸ found) refused
      rw [other.eq]
      exact ⟨rfl, both⟩
  | @opened slot di valid free found allowed =>
      have other : OpenOutcome s' path flags _ :=
        .opened valid (files.trans free) (table ▸ found) allowed
      rw [other.eq]
      obtain ⟨same, kept⟩ := both.openEntry_alike flushed loaded slot di flags
      exact ⟨congrArg Reply.code same, kept⟩

theorem serves_close (alike : Alike media s s') {fd : Int} {index : Fin 8}
    (opened : openIndex s fd = some index) : Serves media s s' (.close fd) := by
  have used := ((openIndex_eq_some_iff _ _ _).mp opened).2
  have same := alike.files index used
  have loaded := alike.loaded used
  rw [Serves, serve_close opened, serve_close ((alike.openIndex_eq fd).trans opened)]
  by_cases dirty : (s.files index).dirty = true
  · rw [bmfsClose_of_dirty dirty, bmfsClose_of_dirty (same ▸ dirty), same,
      alike.dir_eq loaded.1 loaded.2]
    exact ⟨rfl, (alike.edit flushed loaded _).setFile index nofun⟩
  · rw [bmfsClose_of_clean dirty, bmfsClose_of_clean (same ▸ dirty), same]
    exact ⟨rfl, alike.setFile index nofun⟩

theorem serves_unlink (alike : Alike media s s') (path : CString) :
    Serves media s s' (.unlink path) := by
  have loaded : (dirLoad s).dirLoaded = true ∧ (dirLoad s').dirLoaded = true :=
    ⟨dirLoaded_dirLoad s, dirLoaded_dirLoad s'⟩
  simp only [Serves, serve, Reply.ofResult]
  cases found : dirFind s.table (bmfsName path) with
  | none =>
      rw [bmfsUnlink_of_missing found, bmfsUnlink_of_missing (alike.table ▸ found)]
      exact ⟨rfl, alike.load⟩
  | some di =>
      rw [bmfsUnlink_of_found found, bmfsUnlink_of_found (alike.table ▸ found), alike.table]
      exact ⟨rfl, alike.load.edit flushed loaded _⟩

/-- Every call is answered alike, if reads of data are and writes of data leave drives
that compare as before. -/
theorem serves (alike : Alike media s s') (call : Call)
    (reads : ∀ fd index len, call = .read fd len → openIndex s fd = some index →
      (bmfsPread s' (s.files index) len (s.files index).pos).2.1 =
        (bmfsPread s (s.files index) len (s.files index).pos).2.1)
    (writes : ∀ fd index buf len, call = .write fd buf len → openIndex s fd = some index →
      ∀ n base,
        n = clampLen ((s.files index).reservedBlocks * blockBytes) (s.files index).offset len →
        base = (s.files index).startBlock * blockBytes + (s.files index).offset →
        (s.files index).offset < (s.files index).reservedBlocks * blockBytes → n ≠ 0 →
        media (pwriteLoop s.device s.scratch buf base n).2.disk
          (pwriteLoop s'.device s'.scratch buf base n).2.disk) :
    Serves media s s' call := by
  have closed : ∀ fd, openIndex s fd = none → openIndex s' fd = none :=
    fun fd => (alike.openIndex_eq fd).trans
  cases call with
  | «open» path flags => exact alike.serves_open flushed path flags
  | read fd len =>
      cases opened : openIndex s fd with
      | none =>
          simp only [Serves, serve, opened, closed fd opened]
          exact ⟨trivial, alike⟩
      | some index => exact alike.serves_read opened (reads fd index len rfl opened)
  | write fd buf len =>
      cases opened : openIndex s fd with
      | none =>
          simp only [Serves, serve, opened, closed fd opened]
          exact ⟨trivial, alike⟩
      | some index => exact alike.serves_write opened (writes fd index buf len rfl opened)
  | lseek fd offset whence =>
      cases opened : openIndex s fd with
      | none =>
          simp only [Serves, serve, opened, closed fd opened]
          exact ⟨trivial, alike⟩
      | some index => exact alike.serves_lseek opened offset whence
  | close fd =>
      cases opened : openIndex s fd with
      | none =>
          simp only [Serves, serve, opened, closed fd opened]
          exact ⟨trivial, alike⟩
      | some index => exact alike.serves_close flushed opened
  | fstat fd =>
      cases opened : openIndex s fd with
      | none =>
          simp only [Serves, serve, opened, closed fd opened]
          exact ⟨trivial, alike⟩
      | some index => exact alike.serves_fstat opened
  | fstatat path => exact alike.serves_fstatat path
  | unlink path => exact alike.serves_unlink flushed path

end Flushes

end Alike

end AppPortKit.Bmfs
