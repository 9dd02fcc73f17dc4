import AppPortKit.Bmfs.CrashPoints

/-!
# Several descriptors on one file

Every descriptor has its own copy of the size of its file, taken when it was
opened and grown by its own writes.  A session follows the descriptors opened on
one file and the highest byte any of them has stored.  The copies drift apart as
soon as two descriptors write; a close then records whatever its own copy says,
and an append goes to the end its own copy knows.
-/

namespace AppPortKit.Bmfs

open Libc SectorStore Transition

/-- The file system, the records opened on the shared file in this session, and the
end of the file: its size at the start or the end of the furthest write since. -/
structure Shared where
  fs : State
  mine : Fin 8 → Bool
  peak : Nat

namespace Shared

/-- A session on the file in a slot, with no descriptor opened yet. -/
def start (s : State) (slot : Fin 64) : Shared :=
  { fs := s, mine := fun _ => false, peak := (s.table slot).size.toNat }

/-- The session's records after a call and its reply. -/
def hold (t : Shared) (call : Call) (reply : Reply) : Fin 8 → Bool :=
  match call with
  | .open _ _ =>
      match fdIndex reply.ret with
      | some index => Function.update t.mine index true
      | none => t.mine
  | .close fd =>
      match fdIndex fd with
      | some index => Function.update t.mine index false
      | none => t.mine
  | _ => t.mine

/-- The end of the file after a call and its reply. -/
def reach (t : Shared) (call : Call) (reply : Reply) : Nat :=
  match call with
  | .write fd _ _ =>
      match fdIndex fd with
      | some index =>
          if 0 < reply.ret then
            max t.peak ((t.fs.files index).offset.toNat + reply.ret.toNat)
          else
            t.peak
      | none => t.peak
  | _ => t.peak

end Shared

/-- Sessions as a machine over calls. -/
def sharing : Machine Shared Call Reply where
  step t call :=
    ((serve t.fs call).1,
      { fs := (serve t.fs call).2
        mine := t.hold call (serve t.fs call).1
        peak := t.reach call (serve t.fs call).1 })

/-- One step of a session, from what the file system did. -/
theorem sharing_next {t : Shared} {call : Call} {reply : Reply} {s : State}
    (served : serve t.fs call = (reply, s)) :
    sharing.next t call = { fs := s, mine := t.hold call reply, peak := t.reach call reply } := by
  simp only [Machine.next, sharing, served]

theorem Shared.reach_write (t : Shared) {fd : Int} {index : Fin 8}
    (stands : fdIndex fd = some index) (buf : Nat → UInt8) (len : UInt64) (ret : Int) :
    t.reach (.write fd buf len) (.code ret) =
      if 0 < ret then max t.peak ((t.fs.files index).offset.toNat + ret.toNat)
      else t.peak := by
  rw [Shared.reach, stands]
  rfl

/-- A descriptor of the session. -/
def Shared.Owns (t : Shared) (fd : Int) : Prop :=
  ∃ index, fdIndex fd = some index ∧ t.mine index = true

/-- A call of a session on the file of a name: it is opened without truncation, or
one of the session's descriptors is used. -/
def OnFile (name : CString) (t : Shared) : Call → Prop
  | .open path flags => bmfsName path = name ∧ hasFlag flags oTrunc = false
  | .read fd _ | .write fd _ _ | .lseek fd _ _ | .close fd => t.Owns fd
  | .fstat _ | .fstatat _ | .unlink _ => False

/-- The number of bytes a write asks for is a `long`, and if it starts within the
reservation their offsets are below `2 ^ 64`. -/
def WriteInRange (t : Shared) : Call → Prop
  | .write fd _ len =>
      len.toNat < 9223372036854775808 ∧
        ∀ index, fdIndex fd = some index →
          (t.fs.files index).offset < (t.fs.files index).reservedBlocks * blockBytes →
            (t.fs.files index).offset.toNat + len.toNat < 18446744073709551616
  | _ => True

/-! ## The invariant -/

/-- The sizes of a session: none is past the end of the file, and the end is the
recorded size or that of a descriptor which will record it. -/
structure Shares (name : CString) (slot : Fin 64) (t : Shared) : Prop where
  found : dirFind t.fs.table name = some slot
  held : ∀ index, t.mine index = true → t.fs.dirLoaded = true ∧
    (t.fs.files index).used = true ∧ (t.fs.files index).dirIndex = slot
  recorded : (t.fs.table slot).size.toNat ≤ t.peak
  sizes : ∀ index, t.mine index = true → (t.fs.files index).size.toNat ≤ t.peak
  clean : ∀ index, t.mine index = true → (t.fs.files index).dirty = false →
    (t.fs.files index).size.toNat ≤ (t.fs.table slot).size.toNat
  reached : t.peak = (t.fs.table slot).size.toNat ∨
    ∃ index, t.mine index = true ∧ (t.fs.files index).dirty = true ∧
      (t.fs.files index).size.toNat = t.peak

namespace Shares

variable {name : CString} {slot : Fin 64} {t : Shared}

theorem start {s : State} (found : dirFind s.table name = some slot) :
    Shares name slot (Shared.start s slot) where
  found := found
  held index mine := by contradiction
  recorded := Nat.le_refl _
  sizes index mine := by contradiction
  clean index mine := by contradiction
  reached := .inl rfl

/-- Loading the directory changes nothing a session looks at. -/
theorem load (shares : Shares name slot t) : Shares name slot { t with fs := dirLoad t.fs } where
  found := by
    rw [table_dirLoad]
    exact shares.found
  held index mine := by
    rw [files_dirLoad]
    exact ⟨dirLoaded_dirLoad t.fs, (shares.held index mine).2⟩
  recorded := by
    rw [table_dirLoad]
    exact shares.recorded
  sizes := by
    rw [files_dirLoad]
    exact shares.sizes
  clean := by
    rw [files_dirLoad, table_dirLoad]
    exact shares.clean
  reached := by
    rw [files_dirLoad, table_dirLoad]
    exact shares.reached

/-- A new descriptor knows the recorded size. -/
theorem attach (shares : Shares name slot t) (loaded : t.fs.dirLoaded = true) {index : Fin 8}
    (free : (t.fs.files index).used = false) (flags : UInt32) :
    Shares name slot
      { t with
        fs := t.fs.setFile index (openedFile (t.fs.table slot) slot flags)
        mine := Function.update t.mine index true } := by
  have notMine : ∀ other, t.mine other = true → other ≠ index := by
    rintro other mine rfl
    rw [(shares.held other mine).2.1] at free
    contradiction
  have split : ∀ other, Function.update t.mine index true other = true →
      other = index ∨ (other ≠ index ∧ t.mine other = true) := by
    intro other mine
    by_cases same : other = index
    · exact .inl same
    · rw [Function.update_of_ne same] at mine
      exact .inr ⟨same, mine⟩
  constructor
  · simpa using shares.found
  · intro other mine
    rcases split other mine with rfl | ⟨different, mine⟩
    · simp [loaded, openedFile]
    · simpa [different] using shares.held other mine
  · simpa using shares.recorded
  · intro other mine
    rcases split other mine with rfl | ⟨different, mine⟩
    · simpa [openedFile] using shares.recorded
    · simpa [different] using shares.sizes other mine
  · intro other mine
    rcases split other mine with rfl | ⟨different, mine⟩
    · simp [openedFile]
    · simpa [different] using shares.clean other mine
  · rcases shares.reached with recorded | ⟨other, mine, dirty, size⟩
    · left
      simpa using recorded
    · right
      have different := notMine other mine
      exact ⟨other, by simpa [different] using mine, by simpa [different] using dirty,
        by simpa [different] using size⟩

/-- One of the session's records is replaced by one for the same file: it keeps its
size, or grows to the end of a write and is marked. -/
theorem replace (shares : Shares name slot t) {index : Fin 8} (mine : t.mine index = true)
    {file : File} (same : (t.fs.files index).SameHandle file)
    (grows : (file.size = (t.fs.files index).size ∧ file.dirty = (t.fs.files index).dirty) ∨
      ((t.fs.files index).size.toNat ≤ file.size.toNat ∧ file.dirty = true))
    {s : State} (table : s.table = t.fs.table) (loaded : s.dirLoaded = t.fs.dirLoaded)
    (files : s.files = Function.update t.fs.files index file) :
    Shares name slot
      { fs := s, mine := t.mine, peak := max t.peak file.size.toNat } := by
  have known := shares.sizes index mine
  constructor
  · rw [table]
    exact shares.found
  · rw [files, loaded, Function.forall_update_iff t.fs.files fun other f =>
      t.mine other = true → t.fs.dirLoaded = true ∧ f.used = true ∧ f.dirIndex = slot]
    refine ⟨fun _ => ?_, fun other _ => shares.held other⟩
    rw [same.used, same.dirIndex]
    exact shares.held index mine
  · rw [table]
    exact Nat.le_trans shares.recorded (Nat.le_max_left _ _)
  · rw [files, Function.forall_update_iff t.fs.files fun other f =>
      t.mine other = true → f.size.toNat ≤ max t.peak file.size.toNat]
    refine ⟨fun _ => Nat.le_max_right _ _, fun other _ otherMine => ?_⟩
    exact Nat.le_trans (shares.sizes other otherMine) (Nat.le_max_left _ _)
  · rw [files, table, Function.forall_update_iff t.fs.files fun other f =>
      t.mine other = true → f.dirty = false → f.size.toNat ≤ (t.fs.table slot).size.toNat]
    refine ⟨fun _ clean => ?_, fun other _ => shares.clean other⟩
    rcases grows with ⟨size, dirty⟩ | ⟨-, dirty⟩
    · rw [size]
      exact shares.clean index mine (dirty ▸ clean)
    · rw [dirty] at clean
      contradiction
  · -- Either the replaced record now reaches furthest, or the end is where it was.
    rw [table, files]
    by_cases further : t.peak ≤ file.size.toNat ∧ file.dirty = true
    · exact .inr ⟨index, mine, by simpa using further.2, by simp; omega⟩
    · have still : max t.peak file.size.toNat = t.peak := by
        rcases grows with ⟨kept, -⟩ | ⟨-, marked⟩
        · rw [kept]
          omega
        · have below : ¬t.peak ≤ file.size.toNat := fun above => further ⟨above, marked⟩
          omega
      simp only [still]
      rcases shares.reached with recorded | ⟨other, otherMine, dirty, size⟩
      · exact .inl recorded
      · have different : other ≠ index := by
          rintro rfl
          rcases grows with ⟨kept, keptDirty⟩ | ⟨larger, marked⟩
          · exact further ⟨by rw [kept]; omega, keptDirty.trans dirty⟩
          · exact further ⟨by omega, marked⟩
        exact .inr ⟨other, otherMine, by simpa [different] using dirty,
          by simpa [different] using size⟩

/-- Moving a position leaves a session as it is. -/
theorem move (shares : Shares name slot t) {index : Fin 8} (mine : t.mine index = true)
    (pos : UInt64) {s : State} (table : s.table = t.fs.table)
    (loaded : s.dirLoaded = t.fs.dirLoaded)
    (files : s.files = Function.update t.fs.files index { t.fs.files index with pos }) :
    Shares name slot { t with fs := s } := by
  have moved := shares.replace mine (sameHandle_pos _ pos) (.inl ⟨rfl, rfl⟩) table loaded files
  rw [Nat.max_eq_left (shares.sizes index mine)] at moved
  exact moved

/-- Closing a descriptor whose size is at least the recorded one loses nothing. -/
theorem close (shares : Shares name slot t) {index : Fin 8} (mine : t.mine index = true)
    (monotone : (t.fs.files index).dirty = true →
      (t.fs.table slot).size.toNat ≤ (t.fs.files index).size.toNat) :
    Shares name slot
      { t with
        fs := (bmfsClose t.fs index).2
        mine := Function.update t.mine index false } := by
  obtain ⟨loaded, used, named⟩ := shares.held index mine
  have known := shares.sizes index mine
  -- The recorded size afterwards, which has not shrunk and covers this descriptor.
  have recorded : ∃ size : UInt64,
      (bmfsClose t.fs index).2.table = t.fs.table.resize slot size ∧
      (bmfsClose t.fs index).2.dirLoaded = true ∧
      (bmfsClose t.fs index).2.files = Function.update t.fs.files index
        { t.fs.files index with used := false } ∧
      size.toNat = max (t.fs.table slot).size.toNat (t.fs.files index).size.toNat := by
    by_cases dirty : (t.fs.files index).dirty = true
    · refine ⟨(t.fs.files index).size, ?_, ?_, ?_, ?_⟩
      · rw [bmfsClose_of_dirty dirty, table_setFile, table_edit _ loaded, named,
          table_of_loaded loaded]
      · rw [bmfsClose_of_dirty dirty]
        exact loaded
      · rw [bmfsClose_of_dirty dirty]
        rfl
      · have := monotone dirty
        omega
    · have clean := shares.clean index mine (by simpa using dirty)
      refine ⟨(t.fs.table slot).size, ?_, ?_, ?_, ?_⟩
      · rw [bmfsClose_of_clean dirty, table_setFile, Dir.resize, Function.update_eq_self]
      · rw [bmfsClose_of_clean dirty]
        exact loaded
      · rw [bmfsClose_of_clean dirty]
        rfl
      · omega
  obtain ⟨size, table, stillLoaded, files, sizeEq⟩ := recorded
  have entry : ((bmfsClose t.fs index).2.table slot).size = size := by
    rw [table, Dir.resize, Function.update_self]
  have others : ∀ other, Function.update t.mine index false other = true →
      other ≠ index ∧ t.mine other = true ∧
        (bmfsClose t.fs index).2.files other = t.fs.files other := by
    intro other otherMine
    by_cases same : other = index
    · rw [same, Function.update_self] at otherMine
      contradiction
    · rw [Function.update_of_ne same] at otherMine
      exact ⟨same, otherMine, by rw [files, Function.update_of_ne same]⟩
  constructor
  · rw [table, dirFind_congr (t.fs.table.sameFile_resize slot size)]
    exact shares.found
  · intro other otherMine
    obtain ⟨-, otherMine, kept⟩ := others other otherMine
    rw [kept]
    exact ⟨stillLoaded, (shares.held other otherMine).2⟩
  · rw [entry, sizeEq]
    exact Nat.max_le.mpr ⟨shares.recorded, known⟩
  · intro other otherMine
    obtain ⟨-, otherMine, kept⟩ := others other otherMine
    rw [kept]
    exact shares.sizes other otherMine
  · intro other otherMine clean
    obtain ⟨-, otherMine, kept⟩ := others other otherMine
    rw [kept] at clean ⊢
    rw [entry, sizeEq]
    exact Nat.le_trans (shares.clean other otherMine clean) (Nat.le_max_left _ _)
  · rw [entry, sizeEq]
    have bound := shares.recorded
    rcases shares.reached with atRecorded | ⟨other, otherMine, dirty, atOther⟩
    · left
      simp only
      omega
    · by_cases same : other = index
      · subst same
        left
        simp only
        omega
      · right
        refine ⟨other, ?_, ?_, ?_⟩
        · simpa [same] using otherMine
        · rw [files, Function.update_of_ne same]
          exact dirty
        · rw [files, Function.update_of_ne same]
          exact atOther

/-- A session's descriptor is open. -/
theorem openIndex_eq (shares : Shares name slot t) {fd : Int} {index : Fin 8}
    (stands : fdIndex fd = some index) (mine : t.mine index = true) :
    openIndex t.fs fd = some index :=
  (openIndex_eq_some_iff t.fs fd index).mpr ⟨stands, (shares.held index mine).2.1⟩

/-- An open of a session fails, or attaches a free record to the file. -/
theorem next_open_cases (shares : Shares name slot t) {path : CString} {flags : UInt32}
    (onFile : OnFile name t (.open path flags)) :
    sharing.next t (.open path flags) = t ∨
      sharing.next t (.open path flags) = { t with fs := dirLoad t.fs } ∨
      ∃ index, (t.fs.files index).used = false ∧ sharing.next t (.open path flags) =
        { t with
          fs := (dirLoad t.fs).setFile index (openedFile (t.fs.table slot) slot flags)
          mine := Function.update t.mine index true } := by
  obtain ⟨rfl, keep⟩ := onFile
  have outcome := bmfsOpen_outcome t.fs path flags
  have served : serve t.fs (.open path flags) = Reply.ofResult (bmfsOpen t.fs path flags) := by
    simp only [serve]
  generalize bmfsOpen t.fs path flags = result at outcome served
  rw [sharing_next served]
  cases outcome with
  | badName invalid => exact .inl rfl
  | tooMany valid full | exclusive valid free found refused => exact .inr (.inl rfl)
  | missing valid free missing noCreate
  | dirFull valid free missing create noSlot
  | created valid free missing create freeSlot =>
      rw [shares.found] at missing
      contradiction
  | @opened index di valid free found allowed =>
      rw [shares.found] at found
      cases found
      refine .inr (.inr ⟨index, findFreeFile_some free, ?_⟩)
      have stands : fdIndex (3 + (index.val : Int)) = some index :=
        (fdIndex_eq_some_iff _ _).mpr rfl
      simp only [openEntry_of_keep _ _ _ keep, Reply.code, Shared.hold, Shared.reach, stands,
        dir_dirLoad]

theorem next_open (shares : Shares name slot t) {path : CString} {flags : UInt32}
    (onFile : OnFile name t (.open path flags)) :
    Shares name slot (sharing.next t (.open path flags)) := by
  rcases shares.next_open_cases onFile with same | loaded | ⟨index, free, attached⟩
  · rw [same]
    exact shares
  · rw [loaded]
    exact shares.load
  · rw [attached, ← table_dirLoad]
    rw [← files_dirLoad] at free
    exact shares.load.attach (dirLoaded_dirLoad t.fs) free flags

theorem next_read (shares : Shares name slot t) {fd : Int} (owns : t.Owns fd) (len : UInt64) :
    Shares name slot (sharing.next t (.read fd len)) := by
  obtain ⟨index, stands, mine⟩ := owns
  have loaded := (shares.held index mine).1
  obtain ⟨scratch, device, pos, state, -⟩ := bmfsRead_state t.fs index len
  have served := serve_read (shares.openIndex_eq stands mine) len
  rw [state] at served
  rw [sharing_next served]
  exact shares.move mine pos (by rw [table_setFile, table_transfer loaded]) rfl rfl

theorem next_lseek (shares : Shares name slot t) {fd : Int} (owns : t.Owns fd)
    (offset : Int64) (whence : Int32) :
    Shares name slot (sharing.next t (.lseek fd offset whence)) := by
  obtain ⟨index, stands, mine⟩ := owns
  have served := serve_lseek (shares.openIndex_eq stands mine) offset whence
  rcases bmfsLseek_cases t.fs index offset whence with failed | ⟨np, -, moved⟩
  · rw [failed] at served
    rw [sharing_next served]
    exact shares
  · rw [moved] at served
    rw [sharing_next served]
    exact shares.move mine _ (table_setFile _ _ _) rfl rfl

/-- A record is marked exactly when it grows. -/
theorem grows_writtenFile (f : File) {n off : UInt64}
    (noWrap : off.toNat + n.toNat < 18446744073709551616) :
    ((writtenFile f n off).size = f.size ∧ (writtenFile f n off).dirty = f.dirty) ∨
      (f.size.toNat ≤ (writtenFile f n off).size.toNat ∧
        (writtenFile f n off).dirty = true) := by
  have size : (writtenFile f n off).size.toNat = max f.size.toNat (off.toNat + n.toNat) :=
    size_writtenFile f noWrap
  by_cases further : off + n > f.size
  · right
    refine ⟨by omega, ?_⟩
    simp [writtenFile, grownFile, further]
  · left
    simp [writtenFile, grownFile, further]

theorem next_write (shares : Shares name slot t) {fd : Int} {buf : Nat → UInt8}
    {len : UInt64} (owns : t.Owns fd) (inRange : WriteInRange t (.write fd buf len)) :
    Shares name slot (sharing.next t (.write fd buf len)) := by
  obtain ⟨index, stands, mine⟩ := owns
  obtain ⟨short, noWrap⟩ := inRange
  have loaded := (shares.held index mine).1
  have known := shares.sizes index mine
  have served := serve_write (shares.openIndex_eq stands mine) buf len
  rcases bmfsWrite_cases t.fs index buf len with
    ⟨-, refused⟩ | ⟨n, base, count, -, inside, nonzero, stored⟩
  · rw [refused, Reply.ofResult_mk] at served
    rw [sharing_next served, t.reach_write stands, if_neg (by decide)]
    exact shares.move mine _ (table_setFile _ _ _) rfl rfl
  · have noWrap := noWrap index stands inside
    have atMost : n.toNat ≤ len.toNat := count ▸ clampLen_le inside noWrap
    have positive : n.toNat ≠ 0 := by
      simpa [← UInt64.toNat_inj] using nonzero
    have size : (writtenFile (t.fs.files index) n (t.fs.files index).offset).size.toNat =
        max (t.fs.files index).size.toNat ((t.fs.files index).offset.toNat + n.toNat) :=
      size_writtenFile _ (by omega)
    have ending : max t.peak
        (writtenFile (t.fs.files index) n (t.fs.files index).offset).size.toNat =
        max t.peak ((t.fs.files index).offset.toNat + n.toNat) := by
      omega
    rw [stored, Word64.signed_of_lt (by omega), Reply.ofResult_mk] at served
    rw [sharing_next served, t.reach_write stands, if_pos (by omega), Int.toNat_natCast, ← ending]
    exact shares.replace mine (sameHandle_writtenFile _ _ _)
      (grows_writtenFile _ (by omega)) (by rw [table_setFile, table_transfer loaded]) rfl rfl

end Shares

/-! ## Sizes recorded at close -/

/-- A descriptor that closes after growing knows at least the size recorded by
then. -/
def ClosesUpwards (slot : Fin 64) (t : Shared) : Call → Prop
  | .close fd => ∀ index, fdIndex fd = some index → (t.fs.files index).dirty = true →
      (t.fs.table slot).size.toNat ≤ (t.fs.files index).size.toNat
  | _ => True

namespace Shares

variable {name : CString} {slot : Fin 64} {t : Shared}

theorem next_close (shares : Shares name slot t) {fd : Int} (owns : t.Owns fd)
    (upwards : ClosesUpwards slot t (.close fd)) :
    Shares name slot (sharing.next t (.close fd)) := by
  obtain ⟨index, stands, mine⟩ := owns
  have served := serve_close (shares.openIndex_eq stands mine)
  rw [Reply.ofResult] at served
  rw [sharing_next served]
  simp only [Shared.hold, Shared.reach, stands]
  exact shares.close mine (upwards index stands)

theorem next {call : Call} (shares : Shares name slot t)
    (guard : OnFile name t call ∧ WriteInRange t call ∧ ClosesUpwards slot t call) :
    Shares name slot (sharing.next t call) := by
  obtain ⟨onFile, inRange, upwards⟩ := guard
  cases call with
  | «open» path flags => exact shares.next_open onFile
  | read fd len => exact shares.next_read onFile len
  | write fd buf len => exact shares.next_write onFile inRange
  | lseek fd offset whence => exact shares.next_lseek onFile offset whence
  | close fd => exact shares.next_close onFile upwards
  | fstat | fstatat | unlink => exact onFile.elim

end Shares

/-- If every descriptor that closes after growing knows at least the recorded size,
the size recorded in the end is the end of the file. -/
theorem recordedSize_eq_peak_if_upwards (s : State) (name : CString) (slot : Fin 64)
    (found : dirFind s.table name = some slot) (calls : List Call)
    (guarded : sharing.Along
      (fun t call => OnFile name t call ∧ WriteInRange t call ∧ ClosesUpwards slot t call)
      (Shared.start s slot) calls)
    (closed : ∀ index, (sharing.run (Shared.start s slot) calls).mine index = false) :
    ((sharing.run (Shared.start s slot) calls).fs.table slot).size.toNat =
      (sharing.run (Shared.start s slot) calls).peak := by
  have shares := Machine.run_invariant (fun _ _ => Shares.next) (Shares.start found) guarded
  rcases shares.reached with recorded | ⟨index, mine, -⟩
  · exact recorded.symm
  · rw [closed index] at mine
    contradiction

instance (t : Shared) (fd : Int) : Decidable (t.Owns fd) :=
  inferInstanceAs (Decidable (∃ _, _ ∧ _))

instance (name : CString) (t : Shared) : (call : Call) → Decidable (OnFile name t call)
  | .open path flags =>
      inferInstanceAs (Decidable (bmfsName path = name ∧ hasFlag flags oTrunc = false))
  | .read fd _ | .write fd _ _ | .lseek fd _ _ | .close fd =>
      inferInstanceAs (Decidable (t.Owns fd))
  | .fstat _ | .fstatat _ | .unlink _ => isFalse not_false

instance (t : Shared) : (call : Call) → Decidable (WriteInRange t call)
  | .write fd _ len =>
      inferInstanceAs (Decidable (len.toNat < 9223372036854775808 ∧
        ∀ index, fdIndex fd = some index →
          (t.fs.files index).offset < (t.fs.files index).reservedBlocks * blockBytes →
            (t.fs.files index).offset.toNat + len.toNat < 18446744073709551616))
  | .open _ _ | .read _ _ | .lseek _ _ _ | .close _ | .fstat _ | .fstatat _ | .unlink _ =>
      isTrue trivial

instance (slot : Fin 64) (t : Shared) : (call : Call) → Decidable (ClosesUpwards slot t call)
  | .close fd =>
      inferInstanceAs (Decidable (∀ index, fdIndex fd = some index →
        (t.fs.files index).dirty = true →
          (t.fs.table slot).size.toNat ≤ (t.fs.files index).size.toNat))
  | .open _ _ | .read _ _ | .write _ _ _ | .lseek _ _ _ | .fstat _ | .fstatat _ | .unlink _ =>
      isTrue trivial

/-- A volume on which the file `a` has been created and closed. -/
def afterCreate : State :=
  fileSystem.run (State.boot blankDisk fun _ => false) [.open nameA oCreat, .close 3]

/-- Two descriptors write two bytes and one byte; the shorter one closes last. -/
def shorterClosesLast : List Call :=
  [.open nameA 0, .open nameA 0, .write 3 (fun _ => 7) 2, .write 4 (fun _ => 8) 1, .close 3,
    .close 4]

/-- The file shrinks to the one byte the last descriptor knows of. -/
theorem shorterClosesLast_loses_size :
    dirFind afterCreate.table nameA = some 0 ∧
      sharing.Along (fun t call => OnFile nameA t call ∧ WriteInRange t call)
        (Shared.start afterCreate 0) shorterClosesLast ∧
      (∀ index, (sharing.run (Shared.start afterCreate 0) shorterClosesLast).mine index =
        false) ∧
      ((sharing.run (Shared.start afterCreate 0) shorterClosesLast).fs.table 0).size.toNat = 1 ∧
      (sharing.run (Shared.start afterCreate 0) shorterClosesLast).peak = 2 := by
  refine ⟨?_, ?_, ?_, ?_, ?_⟩ <;> decide +kernel

/-- With the closes in the other order nothing is lost. -/
theorem shorterClosesFirst_keeps_size :
    ((sharing.run (Shared.start afterCreate 0)
      [.open nameA 0, .open nameA 0, .write 3 (fun _ => 7) 2, .write 4 (fun _ => 8) 1,
        .close 4, .close 3]).fs.table 0).size.toNat =
    (sharing.run (Shared.start afterCreate 0)
      [.open nameA 0, .open nameA 0, .write 3 (fun _ => 7) 2, .write 4 (fun _ => 8) 1,
        .close 4, .close 3]).peak :=
  recordedSize_eq_peak_if_upwards afterCreate nameA 0 (by decide +kernel) _
    (by decide +kernel) (by decide +kernel)

end AppPortKit.Bmfs
