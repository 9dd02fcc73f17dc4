import AppPortKit.Bmfs.CrashPoints

/-!
# Paths

Only `open` checks that a path can be a file's name; `stat` and `unlink` compare it with
the name fields as it is.  They still agree on every path, because the names in the
directory stay terminated and free of slashes: a path that `open` would not accept is
then nobody's name.
-/

namespace AppPortKit.Bmfs

open Libc Transition

/-- Names of live entries end inside their fields and hold no slash. -/
structure Dir.Named (dir : Dir) : Prop where
  terminated : ∀ slot, (dir slot).Live → (dir slot).Terminated
  noSlash : ∀ slot, (dir slot).Live → slash ∉ (dir slot).nameString.bytes

namespace Dir.Named

variable {dir : Dir}

theorem of_kept {dir' : Dir} (named : dir.Named)
    (kept : ∀ slot, (dir' slot).Live → Dirent.SameFile (dir slot) (dir' slot)) : dir'.Named where
  terminated slot alive := by
    have same := kept slot alive
    rw [Dirent.terminated_iff, same.nameString, ← Dirent.terminated_iff]
    exact named.terminated slot (same.live_iff.mp alive)
  noSlash slot alive := by
    have same := kept slot alive
    rw [same.nameString]
    exact named.noSlash slot (same.live_iff.mp alive)

theorem createEntry {name : CString} (named : dir.Named) (valid : validName name)
    (slot : Fin 64) : (createEntry dir slot name).Named := by
  obtain ⟨-, short, noSlash⟩ := (validName_iff name).mp valid
  constructor
  · intro other live
    by_cases same : other = slot
    · rw [same, Dirent.terminated_iff, nameString_createEntry valid]
      exact short
    · rw [createEntry_of_ne name same] at live ⊢
      exact named.terminated other live
  · intro other live
    by_cases same : other = slot
    · rw [same, nameString_createEntry valid]
      exact noSlash
    · rw [createEntry_of_ne name same] at live ⊢
      exact named.noSlash other live

theorem edit {origin s : State} {call : Call} (named : s.table.Named) (loaded : s.dirLoaded = true)
    (edit : Edit origin call s dir) : dir.Named := by
  rw [table_of_loaded loaded] at named
  cases edit with
  | create called asked valid missing free record => exact named.createEntry valid _
  | truncate | commit => exact named.of_kept fun slot _ => s.dir.sameFile_resize _ _ slot
  | @remove _ path di called loaded found =>
      refine named.of_kept fun slot live => ?_
      by_cases same : slot = di
      · rw [same, Function.update_self] at live
        exact absurd live Dirent.not_live_zero
      · rw [Function.update_of_ne same]
        exact .refl _

/-- A search finds an entry of the name, which is then a name that `open` accepts. -/
theorem name_of_found (named : dir.Named) {name : CString} {slot : Fin 64}
    (found : dirFind dir name = some slot) :
    (dir slot).Live ∧ (dir slot).nameString = name ∧ validName name := by
  obtain ⟨live, same⟩ := dirFind_some found
  have spelled := (Dirent.strncmp_eq_zero_iff (named.terminated slot live) name).mp same
  refine ⟨live, spelled, (validName_iff name).mpr ⟨?_, ?_, ?_⟩⟩
  · exact spelled ▸ live.nameString_ne_nil
  · exact spelled ▸ (Dirent.terminated_iff _).mp (named.terminated slot live)
  · exact spelled ▸ named.noSlash slot live

end Dir.Named

/-! ## Over a run -/

/-- Nothing is open before the directory is loaded, and its names are in order. -/
structure Resolving (s : State) : Prop where
  idle : s.Idle
  named : s.table.Named

namespace Resolving

theorem next {s : State} (resolving : Resolving s) (call : Call) :
    Resolving (fileSystem.next s call) := by
  refine next_of_changes Resolving (fun before after holds change => ?_) resolving
  refine ⟨holds.idle.change change, ?_⟩
  rcases change.table_cases holds.idle with same | ⟨loaded, edit⟩
  · rw [same]
    exact holds.named
  · exact holds.named.edit loaded edit

theorem boot {disk : Disk} (fails : Nat → Bool) (named : (Dir.decode (disk 1)).Named) :
    Resolving (State.boot disk fails) where
  idle _ _ := rfl
  named := by
    rcases table_boot disk fails with table | dead
    · rw [table]
      exact named
    · exact ⟨fun slot live => absurd live (dead slot), fun slot live => absurd live (dead slot)⟩

theorem run {disk : Disk} (fails : Nat → Bool) (named : (Dir.decode (disk 1)).Named)
    (calls : List Call) : Resolving (fileSystem.run (State.boot disk fails) calls) :=
  Machine.run_invariant (fun _ call holds _ => holds.next call) (.boot fails named)
    (Machine.along_of_forall (fun _ _ => trivial) _ calls)

end Resolving

/-! ## Spelling -/

/-- The two ways to write a name as a path. -/
def Spells (path name : CString) : Prop :=
  path.bytes = name.bytes ∨ path.bytes = slash :: name.bytes

/-- Two paths are the same up to a leading slash. -/
def SamePath (path other : CString) : Prop :=
  other.bytes = path.bytes ∨ other.bytes = slash :: path.bytes ∨ path.bytes = slash :: other.bytes

/-- A name without slashes is that of the paths that spell it. -/
theorem bmfsName_eq_iff {name : CString} (noSlash : slash ∉ name.bytes) (path : CString) :
    bmfsName path = name ↔ Spells path name := by
  obtain ⟨bytes, noNul⟩ := path
  obtain ⟨nameBytes, nameNoNul⟩ := name
  simp only [bmfsName, Spells, CString.char, CString.tail]
  cases bytes with
  | nil =>
      have notSlash : ¬(0 : UInt8) = slash := by decide
      simp [notSlash]
  | cons first rest =>
      by_cases leading : first = slash
      · subst leading
        have different : slash :: rest ≠ nameBytes := by
          rintro rfl
          exact noSlash List.mem_cons_self
        simp [different]
      · simp [leading]

/-- Paths that spell one name are the same up to a leading slash. -/
theorem Spells.samePath {path other name : CString} (spelled : Spells path name)
    (spells : Spells other name) : SamePath path other := by
  rw [SamePath]
  rcases spelled with left | left <;> rcases spells with right | right <;> simp [left, right]

/-! ## Slots the calls refer to -/

/-- `stat` of the path describes the file in a slot. -/
def StatsSlot (s : State) (path : CString) (di : Fin 64) : Prop :=
  (fileSystem.reply s (.fstatat path)).ret = 0 ∧
    ∃ stat, (fileSystem.reply s (.fstatat path)).stat = some stat ∧
      stat.ino = UInt64.ofNat (di.val + 1)

/-- `unlink` of the path removes the file in a slot. -/
def UnlinksSlot (s : State) (path : CString) (di : Fin 64) : Prop :=
  (fileSystem.reply s (.unlink path)).ret = 0 ∧
    (fileSystem.next s (.unlink path)).table = Function.update s.table di Dirent.zero

/-- `open` of the path opens the file in a slot. -/
def OpensSlot (s : State) (path : CString) (flags : UInt32) (di : Fin 64) : Prop :=
  ∃ index : Fin 8, (fileSystem.reply s (.open path flags)).ret = 3 + (index.val : Int) ∧
    ((fileSystem.next s (.open path flags)).files index).used = true ∧
      ((fileSystem.next s (.open path flags)).files index).dirIndex = di

section Slots

variable {s : State} {path : CString} {di : Fin 64}

theorem ino_injective {left right : Fin 64}
    (same : UInt64.ofNat (left.val + 1) = UInt64.ofNat (right.val + 1)) : left = right := by
  have numbers := congrArg UInt64.toNat same
  rw [UInt64.toNat_ofNat_of_lt' (by rw [UInt64.size]; omega),
    UInt64.toNat_ofNat_of_lt' (by rw [UInt64.size]; omega)] at numbers
  exact Fin.ext (by omega)

theorem statsSlot_iff : StatsSlot s path di ↔ dirFind s.table (bmfsName path) = some di := by
  rw [StatsSlot]
  have reply : fileSystem.reply s (.fstatat path) =
    { ret := (bmfsFstatat s path).1, bytes := [], stat := (bmfsFstatat s path).2.1 } := rfl
  rw [reply]
  simp only [bmfsFstatat, dir_dirLoad]
  cases found : dirFind s.table (bmfsName path) with
  | none => simp [ENOENT]
  | some slot =>
      simp only [Option.some.injEq, exists_eq_left', true_and]
      exact ⟨ino_injective, fun same => by rw [same]⟩

theorem stat_ret_iff :
    (fileSystem.reply s (.fstatat path)).ret = 0 ↔ (dirFind s.table (bmfsName path)).isSome := by
  have reply : (fileSystem.reply s (.fstatat path)).ret = (bmfsFstatat s path).1 := rfl
  rw [reply]
  simp only [bmfsFstatat, dir_dirLoad]
  cases found : dirFind s.table (bmfsName path) with
  | none => simp [ENOENT]
  | some slot => simp

theorem unlink_ret_iff :
    (fileSystem.reply s (.unlink path)).ret = 0 ↔ (dirFind s.table (bmfsName path)).isSome := by
  have reply : (fileSystem.reply s (.unlink path)).ret = (bmfsUnlink s path).1 := rfl
  rw [reply]
  cases found : dirFind s.table (bmfsName path) with
  | none => simp [bmfsUnlink_of_missing found, ENOENT]
  | some slot => simp [bmfsUnlink_of_found found]

theorem unlinksSlot_iff (live : (s.table di).Live) :
    UnlinksSlot s path di ↔ dirFind s.table (bmfsName path) = some di := by
  have next : fileSystem.next s (.unlink path) = (bmfsUnlink s path).2 := rfl
  rw [UnlinksSlot, unlink_ret_iff, next]
  cases found : dirFind s.table (bmfsName path) with
  | none => simp
  | some slot =>
      rw [bmfsUnlink_of_found found, table_edit _ (dirLoaded_dirLoad s)]
      simp only [Option.isSome_some, true_and, Option.some.injEq]
      constructor
      · intro same
        by_contra different
        have entry := congrFun same di
        rw [Function.update_self, Function.update_of_ne (Ne.symm different)] at entry
        rw [entry] at live
        exact Dirent.not_live_zero live
      · intro same
        rw [same]

/-- What `open` without creation finds. -/
theorem open_cases {index : Fin 8} (resolving : Resolving s)
    (free : findFreeFile s.files = some index) {flags : UInt32}
    (noCreate : hasFlag flags oCreat = false) :
    (dirFind s.table (bmfsName path) = none ∧ (bmfsOpen s path flags).1 < 0) ∨
      ∃ slot, dirFind s.table (bmfsName path) = some slot ∧
        bmfsOpen s path flags = openEntry (dirLoad s) index slot flags := by
  cases found : dirFind s.table (bmfsName path) with
  | none =>
      refine .inl ⟨rfl, ?_⟩
      have negative : -ENOENT < 0 := by decide
      by_cases valid : validName (bmfsName path)
      · rw [(OpenOutcome.missing valid free found noCreate).eq]
        exact negative
      · rw [(OpenOutcome.badName valid).eq]
        exact negative
  | some slot =>
      have allowed : (hasFlag flags oCreat && hasFlag flags oExcl) = false := by simp [noCreate]
      obtain ⟨-, -, valid⟩ := resolving.named.name_of_found found
      exact .inr ⟨slot, rfl, (OpenOutcome.opened valid free found allowed).eq⟩

/-- The record `open` fills. -/
theorem openEntry_record (s : State) (index : Fin 8) (di : Fin 64) (flags : UInt32) :
    (openEntry s index di flags).1 = 3 + (index.val : Int) ∧
      ((openEntry s index di flags).2.files index).used = true ∧
      ((openEntry s index di flags).2.files index).dirIndex = di := by
  simp only [openEntry, files_setFile, Function.update_self, openedFile, and_self]

theorem open_ret_iff {index : Fin 8} (resolving : Resolving s)
    (free : findFreeFile s.files = some index) {flags : UInt32}
    (noCreate : hasFlag flags oCreat = false) :
    0 ≤ (fileSystem.reply s (.open path flags)).ret ↔
      (dirFind s.table (bmfsName path)).isSome := by
  have reply : (fileSystem.reply s (.open path flags)).ret = (bmfsOpen s path flags).1 := rfl
  rw [reply]
  rcases open_cases resolving free noCreate with ⟨missing, failed⟩ | ⟨slot, found, opened⟩
  · rw [missing]
    exact iff_of_false (Int.not_le.mpr failed) (by decide)
  · rw [found, opened]
    exact iff_of_true (openEntry_nonneg _ _ _ _) rfl

theorem opensSlot_iff {index : Fin 8} (resolving : Resolving s)
    (free : findFreeFile s.files = some index) {flags : UInt32}
    (noCreate : hasFlag flags oCreat = false) :
    OpensSlot s path flags di ↔ dirFind s.table (bmfsName path) = some di := by
  have reply : (fileSystem.reply s (.open path flags)).ret = (bmfsOpen s path flags).1 := rfl
  have next : fileSystem.next s (.open path flags) = (bmfsOpen s path flags).2 := rfl
  rw [OpensSlot, reply, next]
  rcases open_cases resolving free noCreate with ⟨missing, failed⟩ | ⟨slot, found, opened⟩
  · rw [missing]
    refine iff_of_false ?_ nofun
    rintro ⟨other, ret, -⟩
    omega
  · obtain ⟨ret, used, record⟩ := openEntry_record (dirLoad s) index slot flags
    rw [found, opened, Option.some.injEq]
    constructor
    · rintro ⟨other, same, -, dirIndex⟩
      obtain rfl : other = index := Fin.ext (by omega)
      exact record.symm.trans dirIndex
    · rintro rfl
      exact ⟨index, ret, used, record⟩

end Slots

/-! ## Agreement -/

/-- Some record of the table of open files is free. -/
def State.HasRoom (s : State) : Prop := findFreeFile s.files ≠ none

/-- The three calls refer to one slot by a path, which holds its name. -/
structure Resolved (s : State) (path : CString) (di : Fin 64) : Prop where
  live : (s.table di).Live
  name : (s.table di).nameString = bmfsName path
  stats : StatsSlot s path di
  unlinks : UnlinksSlot s path di
  opens : ∀ flags, hasFlag flags oCreat = false → OpensSlot s path flags di

/-- After a file was opened for creation, all calls refer to it by the two spellings of
its name and by no other path. -/
structure FoundAgain (s : State) (path : CString) (di : Fin 64) : Prop where
  stats : ∀ other, StatsSlot s other di ↔ Spells other (bmfsName path)
  unlinks : ∀ other, UnlinksSlot s other di ↔ Spells other (bmfsName path)
  opens : s.HasRoom → ∀ other flags, hasFlag flags oCreat = false →
    (OpensSlot s other flags di ↔ Spells other (bmfsName path))
  spelled : Spells path (bmfsName path)
  samePath : ∀ other, Spells other (bmfsName path) → SamePath path other

/-- `open`, `stat` and `unlink` agree on a path. -/
structure Agree (s : State) (path : CString) : Prop where
  open_iff_stat : ∀ flags, hasFlag flags oCreat = false →
    (0 ≤ (fileSystem.reply s (.open path flags)).ret ↔
      (fileSystem.reply s (.fstatat path)).ret = 0)
  stat_iff_unlink : (fileSystem.reply s (.fstatat path)).ret = 0 ↔
    (fileSystem.reply s (.unlink path)).ret = 0
  slot : (fileSystem.reply s (.fstatat path)).ret = 0 → ∃ di, Resolved s path di
  created : ∀ flags, hasFlag flags oCreat = true →
    0 ≤ (fileSystem.reply s (.open path flags)).ret →
      ∃ di, OpensSlot s path flags di ∧ FoundAgain (fileSystem.next s (.open path flags)) path di

/-- A file found under a path is found again under its spellings. -/
theorem Resolving.foundAgain {s : State} {path : CString} {di : Fin 64} (resolving : Resolving s)
    (found : dirFind s.table (bmfsName path) = some di) : FoundAgain s path di := by
  obtain ⟨live, name, valid⟩ := resolving.named.name_of_found found
  have noSlash := ((validName_iff _).mp valid).2.2
  have again : ∀ other, dirFind s.table (bmfsName other) = some di ↔
      Spells other (bmfsName path) := by
    intro other
    rw [← bmfsName_eq_iff noSlash]
    constructor
    · intro search
      obtain ⟨-, same, -⟩ := resolving.named.name_of_found search
      exact same.symm.trans name
    · intro same
      rw [same]
      exact found
  have spelled := (bmfsName_eq_iff noSlash path).mp rfl
  refine ⟨fun other => ?_, fun other => ?_, fun room other flags noCreate => ?_, spelled,
    fun other spells => spelled.samePath spells⟩
  · rw [statsSlot_iff, again]
  · rw [unlinksSlot_iff live, again]
  · obtain ⟨index, free⟩ := Option.ne_none_iff_exists'.mp room
    rw [opensSlot_iff resolving free noCreate, again]

/-- A successful `open` opens the slot in which it leaves the name. -/
theorem opened_found {s : State} {path : CString} {flags : UInt32}
    (success : 0 ≤ (fileSystem.reply s (.open path flags)).ret) :
    ∃ di, OpensSlot s path flags di ∧
      dirFind (fileSystem.next s (.open path flags)).table (bmfsName path) = some di := by
  have reply : (fileSystem.reply s (.open path flags)).ret = (bmfsOpen s path flags).1 := rfl
  have next : fileSystem.next s (.open path flags) = (bmfsOpen s path flags).2 := rfl
  simp only [OpensSlot, reply, next] at success ⊢
  have outcome := bmfsOpen_outcome s path flags
  generalize bmfsOpen s path flags = result at outcome success ⊢
  cases outcome with
  | badName | tooMany | missing | dirFull | exclusive =>
      simp [ENOENT, EMFILE, ENOSPC, EEXIST] at success
  | @created index di valid free missing create freeSlot =>
      refine ⟨di, ⟨index, openEntry_record _ index di flags⟩, ?_⟩
      have loaded : ((dirLoad s).edit (createEntry s.table di (bmfsName path))).dirLoaded = true :=
        dirLoaded_dirLoad s
      rw [dirFind_openEntry loaded]
      exact dirFind_createEntry valid missing
  | @opened index di valid free found allowed =>
      refine ⟨di, ⟨index, openEntry_record _ index di flags⟩, ?_⟩
      rw [dirFind_openEntry (dirLoaded_dirLoad s)]
      exact found

/-- From any drive whose directory holds terminated names without slashes, and whatever
device calls fail, `open`, `stat` and `unlink` agree on every path while a file can be
opened. -/
theorem paths_resolve_alike (disk : Disk) (fails : Nat → Bool)
    (named : (Dir.decode (disk 1)).Named) (calls : List Call) (path : CString)
    (room : (fileSystem.run (State.boot disk fails) calls).HasRoom) :
    Agree (fileSystem.run (State.boot disk fails) calls) path := by
  have resolving := Resolving.run fails named calls
  generalize fileSystem.run (State.boot disk fails) calls = s at room resolving
  obtain ⟨index, free⟩ := Option.ne_none_iff_exists'.mp room
  refine ⟨fun flags noCreate => ?_, ?_, fun success => ?_, fun flags _ success => ?_⟩
  · rw [open_ret_iff resolving free noCreate, stat_ret_iff]
  · rw [stat_ret_iff, unlink_ret_iff]
  · obtain ⟨di, found⟩ := Option.isSome_iff_exists.mp (stat_ret_iff.mp success)
    obtain ⟨live, name, -⟩ := resolving.named.name_of_found found
    exact ⟨di, live, name, statsSlot_iff.mpr found, (unlinksSlot_iff live).mpr found,
      fun flags noCreate => (opensSlot_iff resolving free noCreate).mpr found⟩
  · obtain ⟨di, opens, found⟩ := opened_found success
    exact ⟨di, opens, (resolving.next _).foundAgain found⟩

/-- The path `/a` after the file `a` was created. -/
theorem createdName_agree :
    Agree (fileSystem.run (State.boot blankDisk fun _ => false) [.open nameA oCreat])
      ⟨[slash, 97], by decide⟩ := by
  apply paths_resolve_alike blankDisk (fun _ => false)
    ⟨blankDisk_wellFormed.terminated, blankDisk_wellFormed.noSlash⟩
  rw [State.HasRoom]
  decide +kernel

end AppPortKit.Bmfs
