import AppPortKit.Bmfs.Refinement
import AppPortKit.Bmfs.CrashPoints

/-!
# The file system refines the reference store

Each call of the file system is matched by the same call of the reference store,
with the same result, the same bytes and the same reported size.  Induction over
the calls gives the refinement of whole runs from any disk with a well-formed
directory.
-/

namespace AppPortKit.Bmfs

open Libc SectorStore Transition

/-! ## The calls considered -/

/-- No descriptor is open on a name. -/
def State.Unopened (s : State) (name : CString) : Prop :=
  ∀ index, (s.files index).used = true →
    (s.table (s.files index).dirIndex).nameString ≠ name

instance (s : State) (name : CString) : Decidable (s.Unopened name) :=
  inferInstanceAs (Decidable (∀ index, (s.files index).used = true →
    (s.table (s.files index).dirIndex).nameString ≠ name))

/-- A name is opened or removed only while no descriptor is open on it.  An `open`
that is refused for other reasons is not restricted. -/
def Exclusive (s : State) : Call → Prop
  | .open path flags =>
      (hasFlag flags oCreat && hasFlag flags oExcl) = false →
        findFreeFile s.files ≠ none → s.Unopened (bmfsName path)
  | .unlink path => s.Unopened (bmfsName path)
  | _ => True

instance (s : State) : (call : Call) → Decidable (Exclusive s call)
  | .open _ _ => inferInstanceAs (Decidable (_ → _ ≠ _ → s.Unopened _))
  | .unlink _ => inferInstanceAs (Decidable (s.Unopened _))
  | .read _ _ | .write _ _ _ | .lseek _ _ _ | .close _ | .fstat _ | .fstatat _ => isTrue trivial

/-- Callers use names exclusively, write at least one byte, and stay below `2 ^ 63` with
lengths and seek targets. -/
def Disciplined (s : State) (call : Call) : Prop :=
  s.table.Bounded ∧ Exclusive s call ∧
    match call with
    | .read _ len => len.toNat < 9223372036854775808
    | .write _ _ len => len ≠ 0 ∧ len.toNat < 9223372036854775808
    | .lseek fd offset whence =>
        ∀ index, openIndex s fd = some index →
          ∀ base,
            seekBase (s.files index).pos.toNat (s.files index).size.toNat whence = some base →
              (base : Int) + offset.toInt < 9223372036854775808
    | .open _ _ | .close _ | .fstat _ | .fstatat _ | .unlink _ => True

instance (s : State) (call : Call) : Decidable (Disciplined s call) :=
  match call with
  | .read _ _ => inferInstanceAs (Decidable (_ ∧ Exclusive s _ ∧ _ < _))
  | .write _ _ _ => inferInstanceAs (Decidable (_ ∧ Exclusive s _ ∧ _ ≠ _ ∧ _ < _))
  | .lseek fd offset whence =>
      inferInstanceAs (Decidable (_ ∧ Exclusive s _ ∧ ∀ index, openIndex s fd = some index →
        ∀ base, seekBase (s.files index).pos.toNat (s.files index).size.toNat whence = some base →
          (base : Int) + offset.toInt < 9223372036854775808))
  | .open _ _ | .close _ | .fstat _ | .fstatat _ | .unlink _ =>
      inferInstanceAs (Decidable (_ ∧ Exclusive s _ ∧ True))

/-- The store has a step with the reply of the file system, to a store related to
the state the call leaves. -/
def Matched (s : State) (a : RefStore) (call : Call) : Prop :=
  ∃ a', reference.step a call (fileSystem.reply s call).observe a' ∧
    Related (fileSystem.next s call) a'

/-- A call is matched if the store serves it with the same reply. -/
theorem matched_of_serve {s s' : State} {a a' : RefStore} {call : Call} {reply : Reply}
    (init : Nat → UInt8) (served : serve s call = (reply, s'))
    (stored : a.serve init call = (reply.observe, a')) (related : Related s' a') :
    Matched s a call := by
  have stepped : fileSystem.step s call = (reply, s') := served
  refine ⟨a', ⟨init, ?_⟩, ?_⟩
  · rw [stored, Machine.reply, stepped]
  · rw [Machine.next, stepped]
    exact related

namespace Related

variable {s : State} {a : RefStore}

/-- A call that both sides refuse is matched. -/
theorem matched_of_refused (related : Related s a) {call : Call} (code : Int)
    (served : serve s call = (.code code, s))
    (stored : a.serve (fun _ => 0) call = (.code code, a)) : Matched s a call :=
  matched_of_serve _ served stored related

/-! ## Searches -/

/-- A name is in the store if the directory has it. -/
theorem mem_names_iff (related : Related s a) (name : CString) :
    name ∈ a.names ↔ ∃ slot, dirFind s.table name = some slot := by
  rw [related.names, Dir.mem_names]
  exact exists_congr fun slot =>
    (related.handles.wellFormed.dirFind_eq_some_iff name slot).symm

/-- The lowest free descriptors are the same. -/
theorem freeFd_eq (related : Related s a) : a.freeFd = findFreeFile s.files := by
  rw [RefStore.freeFd, findFreeFile]
  congr 1
  funext index
  rw [related.fds, File.view]
  cases (s.files index).used <;> rfl

/-- The store is full when the directory has no free slot. -/
theorem full_iff (related : Related s a) :
    64 ≤ a.names.card ↔ dirFindFreeSlot s.table = none := by
  have injective : Set.InjOn (fun slot => (s.table slot).nameString)
      ((Finset.univ.filter fun slot => (s.table slot).Live : Finset (Fin 64)) : Set (Fin 64)) := by
    intro left leftLive right rightLive same
    simp only [Finset.coe_filter, Finset.mem_univ, true_and, Set.mem_ofPred_eq]
      at leftLive rightLive
    exact related.slot_eq leftLive rightLive same
  rw [dirFindFreeSlot_eq_none_iff, related.names, Dir.names,
    Finset.card_image_of_injOn injective]
  constructor
  · intro full slot
    have all := Finset.eq_univ_of_card _
      (le_antisymm (Finset.card_le_univ _) (by rw [Fintype.card_fin]; exact full))
    have member := Finset.mem_univ slot
    rw [← all, Finset.mem_filter] at member
    exact member.2
  · intro live
    rw [Finset.filter_true_of_mem fun slot _ => live slot, Finset.card_univ, Fintype.card_fin]

/-- A number that is no open descriptor is none of the store. -/
theorem handle_of_closed (related : Related s a) {fd : Int} (closed : openIndex s fd = none) :
    a.handle fd = none := by
  rw [openIndex] at closed
  rw [RefStore.handle]
  cases found : fdIndex fd with
  | none => rfl
  | some index =>
      rw [found] at closed
      have unused : (s.files index).used = false := by simpa [Option.filter] using closed
      rw [Option.bind_some, related.fds, File.view, unused]
      rfl

/-- An open descriptor is one of the store. -/
theorem handle_of_open (related : Related s a) {fd : Int} {index : Fin 8}
    (opened : openIndex s fd = some index) :
    a.handle fd = some (index, (s.files index).handle s.table) := by
  obtain ⟨found, used⟩ := (openIndex_eq_some_iff s fd index).mp opened
  rw [RefStore.handle, found, Option.bind_some, related.fds, File.view, used]
  rfl

/-- Nobody is attached to the slot of an unopened name. -/
theorem unopened_slot {name : CString} (unopened : s.Unopened name) {slot : Fin 64}
    (named : (s.table slot).nameString = name) (index : Fin 8)
    (used : (s.files index).used = true) : (s.files index).dirIndex ≠ slot := by
  rintro rfl
  exact unopened index used named

/-! ## Calls with paths -/

/-- The end of `open`, on an entry nobody has open. -/
theorem openEntry (related : Related s a) (loaded : s.dirLoaded = true) {slot : Fin 8}
    {di : Fin 64} (free : (s.files slot).used = false) (live : (s.table di).Live)
    (unopened : ∀ index, (s.files index).used = true → (s.files index).dirIndex ≠ di)
    (flags : UInt32) :
    ∃ s', Bmfs.openEntry s slot di flags = (3 + (slot.val : Int), s') ∧
      Related s' (a.openNamed slot (s.table di).nameString flags).2 := by
  have table := table_of_loaded loaded
  rw [RefStore.openNamed]
  cases trunc : hasFlag flags oTrunc with
  | false =>
      have attached := related.attach loaded free live unopened flags
      rw [table] at attached ⊢
      exact ⟨_, openEntry_of_keep s slot di trunc, attached⟩
  | true =>
      have resized : Related (s.edit (s.table.resize di 0))
          (a.commit (s.table di).nameString 0) :=
        related.resize loaded live (Nat.zero_le _)
          fun index used same => absurd same (unopened index used)
      have same := s.table.sameFile_resize di 0 di
      have editTable := table_edit (s := s) (s.table.resize di 0) loaded
      have stillLive : ((s.edit (s.table.resize di 0)).table di).Live := by
        rw [editTable]
        exact same.live_iff.mpr live
      have attached := resized.attach loaded free stillLive unopened flags
      rw [editTable, same.nameString] at attached
      refine ⟨_, openEntry_of_trunc s slot di trunc, ?_⟩
      rw [← table]
      exact attached

theorem matched_open (related : Related s a) {path : CString} {flags : UInt32}
    (disciplined : Disciplined s (.open path flags)) : Matched s a (.open path flags) := by
  obtain ⟨bounded, unopened, _⟩ := disciplined
  have outcome := bmfsOpen_outcome s path flags
  have nameable : RefStore.Nameable (bmfsName path) ↔ validName (bmfsName path) :=
    (validName_iff _).symm
  have served : serve s (.open path flags) = Reply.ofResult (bmfsOpen s path flags) := rfl
  -- Every case computes the store's answer from the conditions of the outcome.
  have stored : ∀ init, a.serve init (.open path flags) =
      a.openFile init (bmfsName path) flags := fun _ => rfl
  simp only [RefStore.openFile, nameable, related.freeFd_eq, related.mem_names_iff,
    related.full_iff] at stored
  generalize bmfsOpen s path flags = result at outcome served
  cases outcome with
  | badName invalid =>
      refine matched_of_serve (fun _ => 0) served ?_ related
      simp [stored, invalid]
  | tooMany valid full =>
      refine matched_of_serve (fun _ => 0) served ?_ related.load
      simp [stored, valid, full]
  | missing valid free missing noCreate =>
      refine matched_of_serve (fun _ => 0) served ?_ related.load
      simp [stored, valid, free, missing, noCreate]
  | dirFull valid free missing create noSlot =>
      refine matched_of_serve (fun _ => 0) served ?_ related.load
      simp [stored, valid, free, missing, create, noSlot]
  | exclusive valid free found refused =>
      refine matched_of_serve (fun _ => 0) served ?_ related.load
      simp [stored, valid, free, found, refused]
  | @created slot di valid free missing create freeSlot =>
      have record := Option.isSome_of_eq_some free
      obtain ⟨init, created⟩ := related.create bounded create valid missing freeSlot record
      have table := table_edit (s := dirLoad s) (createEntry s.table di (bmfsName path))
        (dirLoaded_dirLoad s)
      have clear := related.handles.clear bounded freeSlot (bmfsName path)
      have live := live_createEntry valid s.table di
      rw [← files_dirLoad] at free clear
      rw [← table] at live
      obtain ⟨s', opened, after⟩ := created.openEntry (dirLoaded_dirLoad s)
        (findFreeFile_some free) live (fun index used => (clear index used).1) flags
      rw [table, nameString_createEntry valid] at after
      rw [opened, Reply.ofResult_mk] at served
      rw [files_dirLoad] at free
      have creates : a.serve init (.open path flags) =
          (a.create (bmfsName path) init).openNamed slot (bmfsName path) flags := by
        simp [stored, valid, free, missing, create, freeSlot]
      exact matched_of_serve init served creates after
  | @opened slot di valid free found allowed =>
      obtain ⟨live, named⟩ :=
        (related.handles.wellFormed.dirFind_eq_some_iff _ di).mp found
      have untouched := unopened_slot (unopened allowed (by rw [free]; nofun)) named
      have opens : a.serve (fun _ => 0) (.open path flags) =
          a.openNamed slot (bmfsName path) flags := by
        simp [stored, valid, free, found, allowed]
      rw [← files_dirLoad] at free untouched
      rw [← table_dirLoad] at live named
      obtain ⟨s', opened, after⟩ := related.load.openEntry (dirLoaded_dirLoad s)
        (findFreeFile_some free) live untouched flags
      rw [named] at after
      rw [opened, Reply.ofResult_mk] at served
      exact matched_of_serve (fun _ => 0) served opens after

/-- The size of a live entry is reported as it is. -/
theorem signed_size (related : Related s a) {slot : Fin 64} (live : (s.table slot).Live) :
    Word64.signed (s.table slot).size = ((a.file (s.table slot).nameString).size : Int) := by
  have fits := related.handles.entriesFit slot live
  have capacity := ((related.synced.sound.entries slot live).openedFile slot 0).addressable.cap_le
  rw [(related.contents slot live).size]
  apply Word64.signed_of_lt
  rw [Dirent.Fits] at fits
  rw [File.cap] at capacity
  exact Nat.lt_of_le_of_lt fits capacity

theorem matched_fstatat (related : Related s a) (path : CString) :
    Matched s a (.fstatat path) := by
  have stored : a.serve (fun _ => 0) (.fstatat path) = a.stat (bmfsName path) := rfl
  have served : serve s (.fstatat path) =
      ({ ret := (bmfsFstatat s path).1, bytes := [], stat := (bmfsFstatat s path).2.1 },
        (bmfsFstatat s path).2.2) := rfl
  rw [RefStore.stat] at stored
  cases found : dirFind s.table (bmfsName path) with
  | none =>
      have missing : bmfsName path ∉ a.names := by
        rw [related.mem_names_iff, found]
        nofun
      rw [bmfsFstatat_of_missing found] at served
      rw [if_neg missing] at stored
      exact matched_of_serve _ served stored related.load
  | some di =>
      obtain ⟨live, named⟩ :=
        (related.handles.wellFormed.dirFind_eq_some_iff _ di).mp found
      have present : bmfsName path ∈ a.names := (related.mem_names_iff _).mpr ⟨di, found⟩
      obtain ⟨stat, size, result⟩ := bmfsFstatat_of_found found
      rw [result] at served
      rw [if_pos present, ← named, ← related.signed_size live, ← size] at stored
      exact matched_of_serve _ served stored related.load

theorem matched_unlink (related : Related s a) {path : CString}
    (disciplined : Disciplined s (.unlink path)) : Matched s a (.unlink path) := by
  have stored : a.serve (fun _ => 0) (.unlink path) = a.unlink (bmfsName path) := rfl
  have served : serve s (.unlink path) = Reply.ofResult (bmfsUnlink s path) := rfl
  rw [RefStore.unlink] at stored
  cases found : dirFind s.table (bmfsName path) with
  | none =>
      have missing : bmfsName path ∉ a.names := by
        rw [related.mem_names_iff, found]
        nofun
      rw [bmfsUnlink_of_missing found] at served
      rw [if_neg missing] at stored
      exact matched_of_serve _ served stored related.load
  | some di =>
      obtain ⟨live, named⟩ :=
        (related.handles.wellFormed.dirFind_eq_some_iff _ di).mp found
      have present : bmfsName path ∈ a.names := (related.mem_names_iff _).mpr ⟨di, found⟩
      have untouched := unopened_slot disciplined.2.1 named
      rw [bmfsUnlink_of_found found] at served
      rw [if_pos present] at stored
      rw [← files_dirLoad] at untouched
      rw [← table_dirLoad] at live named
      have removed := related.load.remove (dirLoaded_dirLoad s) live untouched
      rw [named, table_dirLoad] at removed
      exact matched_of_serve _ served stored removed

/-! ## Calls with descriptors -/

/-- An open file in range. -/
theorem file_bounds (related : Related s a) {index : Fin 8}
    (used : (s.files index).used = true) :
    (s.files index).Placed ∧ (s.files index).Fits ∧
      (s.files index).cap < 9223372036854775808 :=
  have placed := related.synced.sound.opened index used
  ⟨placed, related.handles.filesFit index used, placed.addressable.cap_le⟩

/-- The bytes and the capacity of an open file are those of its file in the store. -/
theorem represents_file (related : Related s a) {index : Fin 8}
    (used : (s.files index).used = true) :
    (a.file (s.table (s.files index).dirIndex).nameString).cap = (s.files index).cap ∧
      ∀ offset < (s.files index).cap,
        (a.file (s.table (s.files index).dirIndex).nameString).data offset =
          cell s.device.disk ((s.files index).address offset) := by
  obtain ⟨live, holds⟩ := related.handles.own index used rfl
  have represents := related.contents _ live
  have capacity : (a.file (s.table (s.files index).dirIndex).nameString).cap =
      (s.files index).cap := by
    rw [represents.cap, File.cap, holds.2]
  refine ⟨capacity, fun offset inside => ?_⟩
  rw [represents.data offset (by rw [capacity]; exact inside), Dirent.address, File.address,
    holds.1]

/-- A record's position changes alone. -/
theorem move (related : Related s a) {index : Fin 8} (used : (s.files index).used = true)
    {pos : UInt64} (seeks : pos.toNat < 9223372036854775808) :
    Related (s.setFile index { s.files index with pos })
      (a.setFd index (some { (s.files index).handle s.table with pos := pos.toNat })) := by
  have moved := related.update used (sameHandle_pos _ pos)
    (related.handles.filesFit index used) (related.clean index used) seeks
  rw [File.view, if_pos used] at moved
  exact moved

/-- The bytes of an open file are those of its file in the store. -/
theorem bytes_eq (related : Related s a) {index : Fin 8} (used : (s.files index).used = true)
    {start n : Nat} (inside : ∀ offset < n, start + offset < (s.files index).cap) :
    ((List.range n).map fun offset =>
        (a.file (s.table (s.files index).dirIndex).nameString).data (start + offset)) =
      (List.range n).map fun offset =>
        cell s.device.disk ((s.files index).address start + offset) := by
  apply List.map_congr_left
  intro offset member
  rw [(related.represents_file used).2 _ (inside offset (List.mem_range.mp member)),
    File.address, File.address, Nat.add_assoc]

theorem matched_read (related : Related s a) {fd : Int} {len : UInt64}
    (disciplined : Disciplined s (.read fd len)) : Matched s a (.read fd len) := by
  cases opened : openIndex s fd with
  | none =>
      exact related.matched_of_refused (-EBADF) (by simp only [serve, opened])
        (by simp only [RefStore.serve, related.handle_of_closed opened])
  | some index =>
      obtain ⟨_, used⟩ := (openIndex_eq_some_iff s fd index).mp opened
      obtain ⟨placed, fits, capacity⟩ := related.file_bounds used
      have loaded := related.synced.sound.loaded used
      have seeks := related.seeks index used
      have stored : a.serve (fun _ => 0) (.read fd len) =
          a.read index ((s.files index).handle s.table) len.toNat := by
        simp only [RefStore.serve, related.handle_of_open opened]
      have served := serve_read opened len
      generalize count : min len.toNat ((s.files index).size.toNat -
        (s.files index).pos.toNat) = n
      obtain ⟨scratch, device, pos, media, moved, result⟩ :=
        bmfsRead_spec related.synced.reliable placed.addressable fits disciplined.2.2 count.symm
      rw [File.Fits] at fits
      have inside : ∀ offset < n, (s.files index).pos.toNat + offset < (s.files index).cap := by
        omega
      have inRange : pos.toNat < 9223372036854775808 := by omega
      have after := (related.fetch loaded scratch media).move used inRange
      rw [table_transfer loaded] at after
      rw [result] at served
      refine matched_of_serve (fun _ => 0) served ?_ after
      rw [stored, RefStore.read_eq a index _ count, moved]
      exact congrArg (fun bytes => (Observation.mk n bytes none, _))
        (related.bytes_eq used inside)

theorem offset_handle (f : File) (table : Dir) :
    (f.handle table).offset = f.offset.toNat := by
  rw [RefHandle.offset, File.offset]
  cases append : f.append <;> simp [File.handle, append]

/-- The bytes a write stores within the capacity, and the record it leaves. -/
theorem stored (related : Related s a) {index : Fin 8} (used : (s.files index).used = true)
    (buf : Nat → UInt8) {n base : UInt64}
    (room : (s.files index).offset.toNat + n.toNat ≤ (s.files index).cap)
    (start : base.toNat = (s.files index).address (s.files index).offset.toNat) :
    Related ({ s with
        scratch := (pwriteLoop s.device s.scratch buf base n).1
        device := (pwriteLoop s.device s.scratch buf base n).2 }.setFile index
          (writtenFile (s.files index) n (s.files index).offset))
      ((a.store (s.table (s.files index).dirIndex).nameString fun offset =>
        if (s.files index).offset.toNat ≤ offset ∧
            offset < (s.files index).offset.toNat + n.toNat then
          buf (offset - (s.files index).offset.toNat)
        else
          (a.file (s.table (s.files index).dirIndex).nameString).data offset).setFd index
        (some { (s.files index).handle s.table with
          pos := (s.files index).offset.toNat + n.toNat
          size := max (s.files index).size.toNat
            ((s.files index).offset.toNat + n.toNat) })) := by
  obtain ⟨placed, fits, capacity⟩ := related.file_bounds used
  have loaded := related.synced.sound.loaded used
  have below := placed.addressable.address_add_lt room
  have inRange : base.toNat + n.toNat < 18446744073709551616 := by omega
  obtain ⟨writes, wrote, within⟩ := pwriteLoop_wrote s.device s.scratch buf inRange
  have cells := pwriteLoop_cell related.synced.reliable s.scratch buf inRange
  generalize pwriteLoop s.device s.scratch buf base n = loop at wrote cells ⊢
  have data : ∀ write ∈ writes, 512 ≤ write.1 := by
    intro write member
    have first := (within write member).1
    have positive := placed.1
    rw [start, File.address] at first
    omega
  rw [start] at cells
  have same := sameHandle_writtenFile (s.files index) n (s.files index).offset
  have noWrap : (s.files index).offset.toNat + n.toNat < 18446744073709551616 := by omega
  have pos := pos_writtenFile (s.files index) (by omega : n.toNat < 9223372036854775808) noWrap
  have size := size_writtenFile (s.files index) noWrap
  have after := (related.store used loop.1 wrote.fails (wrote.disk_of_data data (by omega))
    room cells).update used same ?_ ?_ (by omega)
  · rw [table_transfer loaded loop.1 loop.2, File.view, same.used, if_pos used, File.handle,
      same.dirIndex, same.append, pos, size] at after
    exact after
  · rw [File.Fits] at fits ⊢
    rw [size, same.cap]
    exact max_le fits room
  · intro clean
    obtain ⟨wasClean, unchanged⟩ := size_of_clean_writtenFile clean
    rw [table_transfer loaded loop.1 loop.2, unchanged]
    exact related.clean index used wasClean

theorem matched_write (related : Related s a) {fd : Int} {buf : Nat → UInt8} {len : UInt64}
    (disciplined : Disciplined s (.write fd buf len)) : Matched s a (.write fd buf len) := by
  cases opened : openIndex s fd with
  | none =>
      exact related.matched_of_refused (-EBADF) (by simp only [serve, opened])
        (by simp only [RefStore.serve, related.handle_of_closed opened])
  | some index =>
      obtain ⟨_, _, nonempty, short⟩ := disciplined
      obtain ⟨_, used⟩ := (openIndex_eq_some_iff s fd index).mp opened
      obtain ⟨placed, fits, capacity⟩ := related.file_bounds used
      have offset := offset_handle (s.files index) s.table
      have cap : (a.file ((s.files index).handle s.table).name).cap = (s.files index).cap :=
        (related.represents_file used).1
      have stored : a.serve (fun _ => 0) (.write fd buf len) =
          a.write index ((s.files index).handle s.table) buf len.toNat := by
        simp only [RefStore.serve, related.handle_of_open opened]
      have served := serve_write opened buf len
      by_cases room : (s.files index).offset.toNat < (s.files index).cap
      · obtain ⟨n, base, count, start, result⟩ :=
          bmfsWrite_of_room placed.addressable buf short nonempty room
        have inside : (s.files index).offset.toNat + n.toNat ≤ (s.files index).cap := by omega
        have after := related.stored used buf inside start
        rw [result, Reply.ofResult_mk] at served
        rw [← offset, ← cap] at room count
        rw [RefStore.write_of_room room count, offset] at stored
        exact matched_of_serve _ served stored after
      · have full := Nat.le_of_not_lt room
        have seeks : (s.files index).offset.toNat < 9223372036854775808 := by
          have below := related.seeks index used
          rw [File.Fits] at fits
          rw [File.offset]
          split <;> omega
        rw [bmfsWrite_of_full placed.addressable buf (.inl full), Reply.ofResult_mk] at served
        rw [← offset, ← cap] at full
        rw [RefStore.write_of_full full, offset] at stored
        exact matched_of_serve _ served stored (related.move used seeks)

theorem matched_lseek (related : Related s a) {fd : Int} {offset : Int64} {whence : Int32}
    (disciplined : Disciplined s (.lseek fd offset whence)) :
    Matched s a (.lseek fd offset whence) := by
  cases opened : openIndex s fd with
  | none =>
      exact related.matched_of_refused (-ESPIPE) (by simp only [serve, opened])
        (by simp only [RefStore.serve, related.handle_of_closed opened])
  | some index =>
      obtain ⟨_, used⟩ := (openIndex_eq_some_iff s fd index).mp opened
      obtain ⟨_, fits, capacity⟩ := related.file_bounds used
      have stored : a.serve (fun _ => 0) (.lseek fd offset whence) =
          a.seek index ((s.files index).handle s.table) offset.toInt whence := by
        simp only [RefStore.serve, related.handle_of_open opened]
      have served := serve_lseek opened offset whence
      have seeks := related.seeks index used
      have size := Nat.lt_of_le_of_lt fits capacity
      have inRange := disciplined.2.2 index opened
      rw [RefStore.seek] at stored
      cases found : seekBase (s.files index).pos.toNat (s.files index).size.toNat whence with
      | none =>
          rw [bmfsLseek_of_no_base seeks size found, Reply.ofResult_mk] at served
          simp only [File.handle, found] at stored
          exact related.matched_of_refused (-EINVAL) served stored
      | some base =>
          simp only [File.handle, found] at stored
          rcases bmfsLseek_of_base seeks size found (inRange base found) with
            ⟨negative, result⟩ | ⟨pos, target, result⟩
          · rw [result, Reply.ofResult_mk] at served
            rw [if_pos negative] at stored
            exact related.matched_of_refused (-EINVAL) served stored
          · have below := inRange base found
            have seeks : pos.toNat < 9223372036854775808 := by omega
            rw [result, Reply.ofResult_mk] at served
            rw [if_neg (by omega), ← target, Int.toNat_natCast] at stored
            rw [← target] at served
            exact matched_of_serve _ served stored (related.move used seeks)

/-- Committing the size a file has changes nothing. -/
theorem commit_self (store : RefStore) (name : CString) :
    store.commit name (store.file name).size = store := by
  rw [RefStore.commit, Function.update_eq_self]

theorem matched_close (related : Related s a) (fd : Int) : Matched s a (.close fd) := by
  cases opened : openIndex s fd with
  | none =>
      exact related.matched_of_refused (-EBADF) (by simp only [serve, opened])
        (by simp only [RefStore.serve, related.handle_of_closed opened])
  | some index =>
      obtain ⟨_, used⟩ := (openIndex_eq_some_iff s fd index).mp opened
      obtain ⟨live, _⟩ := related.handles.own index used rfl
      have loaded := related.synced.sound.loaded used
      have stored : a.serve (fun _ => 0) (.close fd) =
          a.close index ((s.files index).handle s.table) := by
        simp only [RefStore.serve, related.handle_of_open opened]
      have served := serve_close opened
      by_cases dirty : (s.files index).dirty = true
      · have resized := related.resize loaded live
          (related.handles.fits_of_used used live) fun other otherUsed same => by
            rw [related.single other index otherUsed used same]
        rw [bmfsClose_of_dirty dirty, Reply.ofResult_mk, ← table_of_loaded loaded] at served
        exact matched_of_serve _ served stored (resized.detach index)
      · have recorded := related.clean index used (Bool.eq_false_iff.mpr dirty)
        have size : (s.files index).size.toNat =
            (a.file (s.table (s.files index).dirIndex).nameString).size := by
          rw [(related.contents _ live).size, recorded]
        rw [bmfsClose_of_clean dirty, Reply.ofResult_mk] at served
        simp only [RefStore.close, File.handle, size, commit_self] at stored
        exact matched_of_serve _ served stored (related.detach index)

theorem matched_fstat (related : Related s a) (fd : Int) : Matched s a (.fstat fd) := by
  cases opened : openIndex s fd with
  | none =>
      exact related.matched_of_refused (-EBADF) (by simp only [serve, opened])
        (by simp only [RefStore.serve, related.handle_of_closed opened])
  | some index =>
      obtain ⟨_, used⟩ := (openIndex_eq_some_iff s fd index).mp opened
      obtain ⟨_, fits, capacity⟩ := related.file_bounds used
      have size : (bmfsFstatFd s index).size = ((s.files index).size.toNat : Int) :=
        Word64.signed_of_lt (Nat.lt_of_le_of_lt fits capacity)
      have served : serve s (.fstat fd) =
          ({ ret := 0, bytes := [], stat := some (bmfsFstatFd s index) }, s) := by
        simp only [serve, opened]
      refine matched_of_serve (fun _ => 0) served ?_ related
      simp only [RefStore.serve, related.handle_of_open opened, Reply.observe,
        Option.map_some, size]
      rfl

/-- Every call is matched. -/
theorem matched (related : Related s a) {call : Call} (disciplined : Disciplined s call) :
    Matched s a call := by
  cases call with
  | «open» path flags => exact related.matched_open disciplined
  | read fd len => exact related.matched_read disciplined
  | write fd buf len => exact related.matched_write disciplined
  | lseek fd offset whence => exact related.matched_lseek disciplined
  | close fd => exact related.matched_close fd
  | fstat fd => exact related.matched_fstat fd
  | fstatat path => exact related.matched_fstatat path
  | unlink path => exact related.matched_unlink disciplined

end Related

/-! ## Runs -/

/-- The file of an entry. -/
def Dirent.toFile (entry : Dirent) (disk : Disk) : RefFile :=
  { cap := entry.reservedBlocks.toNat * 2097152
    data := fun index => cell disk (entry.address index)
    size := entry.size.toNat }

/-- The store a disk holds. -/
def RefStore.ofDisk (disk : Disk) : RefStore :=
  let dir := Dir.decode (disk 1)
  { names := dir.names
    file := fun name =>
      match dirFind dir name with
      | some slot => (dir slot).toFile disk
      | none => Dirent.zero.toFile disk
    fds := fun _ => none }

theorem Related.boot {disk : Disk} (wellFormed : (Dir.decode (disk 1)).WellFormed)
    (fits : (Dir.decode (disk 1)).SizesFit)
    (bounded : (Dir.decode (disk 1)).Bounded) :
    Related (State.boot disk fun _ => false) (RefStore.ofDisk disk) := by
  have synced : Synced (State.boot disk fun _ => false) :=
    .boot (wellFormed.placed bounded)
  have table : (State.boot disk fun _ => false).table = Dir.decode (disk 1) := synced.agrees
  have closed : ∀ index, ((State.boot disk fun _ => false).files index).used = false :=
    synced.sound.idle rfl
  have unused : ∀ {index}, ¬((State.boot disk fun _ => false).files index).used = true :=
    fun used => absurd used (by rw [closed]; decide)
  constructor
  · exact synced
  · rw [table]
    exact
      { wellFormed
        entriesFit := fits
        filesFit := fun _ used => absurd used unused
        idle := fun _ _ => rfl
        own := fun _ used => absurd used unused
        stray := fun _ _ used => absurd used unused }
  · exact fun _ _ used => absurd used unused
  · rw [table]
    rfl
  · intro slot live
    rw [table] at live ⊢
    have found := (wellFormed.dirFind_eq_some_iff _ slot).mpr ⟨live, rfl⟩
    simp only [RefStore.ofDisk, found]
    exact ⟨rfl, rfl, fun _ _ => rfl⟩
  · intro index
    rw [File.view, if_neg unused]
    rfl
  · exact fun _ used => absurd used unused
  · exact fun _ used => absurd used unused

/-- From a disk with a well-formed directory, and over a drive that never fails, a
disciplined caller sees what it would see of the reference store. -/
theorem fileSystem_refines_reference (disk : Disk) (calls : List Call)
    (wellFormed : (Dir.decode (disk 1)).WellFormed)
    (fits : (Dir.decode (disk 1)).SizesFit)
    (bounded : (Dir.decode (disk 1)).Bounded)
    (disciplined : fileSystem.Along Disciplined (State.boot disk fun _ => false) calls) :
    ∃ last, reference.Run (RefStore.ofDisk disk) calls
      ((fileSystem.replies (State.boot disk fun _ => false) calls).map Reply.observe) last := by
  have matched : ∀ s a call, Related s a → Disciplined s call → Matched s a call :=
    fun _ _ _ related guarded => related.matched guarded
  obtain ⟨last, ran, _⟩ := Machine.run_simulated matched
    (Related.boot wellFormed fits bounded) disciplined
  exact ⟨last, ran⟩

/-- Two files written, read back and measured, one of them then removed and created
again. -/
def twoFiles : List Call :=
  [.open nameA oCreat, .open nameB (oCreat ||| oAppend), .write 3 (fun _ => 7) 3,
    .write 4 (fun offset => UInt8.ofNat offset) 2, .lseek 3 1 0, .read 3 10, .close 3,
    .fstatat nameA, .unlink nameA, .open nameA 0, .open nameA oCreat, .fstat 4, .read 9 1]

theorem twoFiles_refines :
    ∃ last, reference.Run (RefStore.ofDisk blankDisk) twoFiles
      [.code 3, .code 4, .code 3, .code 2, .code 1,
        { ret := 2, bytes := [7, 7], size := none }, .code 0,
        { ret := 0, bytes := [], size := some 3 }, .code 0, .code (-ENOENT), .code 3,
        { ret := 0, bytes := [], size := some 2 }, .code (-EBADF)] last := by
  have replies : (fileSystem.replies (State.boot blankDisk fun _ => false)
      twoFiles).map Reply.observe =
      [.code 3, .code 4, .code 3, .code 2, .code 1,
        { ret := 2, bytes := [7, 7], size := none }, .code 0,
        { ret := 0, bytes := [], size := some 3 }, .code 0, .code (-ENOENT), .code 3,
        { ret := 0, bytes := [], size := some 2 }, .code (-EBADF)] := by
    decide +kernel
  rw [← replies]
  exact fileSystem_refines_reference blankDisk twoFiles blankDisk_wellFormed
    (fun slot live => absurd live (blankDisk_dead slot)) blankDisk_bounded (by decide +kernel)

end AppPortKit.Bmfs
