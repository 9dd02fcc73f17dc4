import AppPortKit.Bmfs.Positioned

/-!
# One transfer after another

A write stores its bytes at the offset of its file and moves on, so two writes in a row
store what one write of both buffers stores.  Reads deliver the bytes at the position of
their file and move on in the same way.
-/

namespace AppPortKit.Bmfs

open Libc SectorStore

/-- The same directory, the same open files and the same contents of the drive. -/
structure SameVolume (s s' : State) : Prop where
  dir : s'.dir = s.dir
  loaded : s'.dirLoaded = s.dirLoaded
  files : s'.files = s.files
  disk : s'.device.disk = s.device.disk

/-- The bytes stand at the offset of an open file, which has moved on and grown
accordingly; nothing else is different. -/
structure Stores (s s' : State) (index : Fin 8) (bytes : List UInt8) : Prop where
  dir : s'.dir = s.dir
  loaded : s'.dirLoaded = s.dirLoaded
  fails : s'.device.fails = s.device.fails
  files : s'.files = Function.update s.files index (writtenFile (s.files index)
    (UInt64.ofNat bytes.length) (s.files index).offset)
  cells : ∀ address, cell s'.device.disk address =
    if (s.files index).address (s.files index).offset.toNat ≤ address ∧
        address < (s.files index).address (s.files index).offset.toNat + bytes.length then
      bytes.getD (address - (s.files index).address (s.files index).offset.toNat) 0
    else
      cell s.device.disk address

/-- The bytes a file has room for at its offset. -/
def File.space (f : File) : Nat := f.cap - f.offset.toNat

theorem SameVolume.refl (s : State) : SameVolume s s := ⟨rfl, rfl, rfl, rfl⟩

section OneFile

variable {s s' s'' : State} {index : Fin 8} {bytes more : List UInt8}

/-- What was stored determines the outcome. -/
theorem Stores.sameVolume (stores : Stores s s' index bytes) (stores' : Stores s s'' index bytes) :
    SameVolume s' s'' where
  dir := stores'.dir.trans stores.dir.symm
  loaded := stores'.loaded.trans stores.loaded.symm
  files := stores'.files.trans stores.files.symm
  disk := by
    apply ext_cell
    intro address
    rw [stores'.cells, stores.cells]

theorem toNat_ofNat_length (small : bytes.length < 9223372036854775808) :
    (UInt64.ofNat bytes.length).toNat = bytes.length :=
  UInt64.toNat_ofNat_of_lt' (by rw [UInt64.size]; omega)

/-- A record after something was stored, without reference to signs. -/
theorem writtenFile_eq (f : File) {n off : UInt64} (nonzero : n ≠ 0)
    (short : n.toNat < 9223372036854775808) :
    writtenFile f n off = { f with
      size := if off + n > f.size then off + n else f.size
      dirty := decide (off + n > f.size) || f.dirty
      pos := off + n } := by
  have positive : 0 < n.toNat := by
    rw [Nat.pos_iff_ne_zero]
    simpa [← UInt64.toNat_inj] using nonzero
  have sign : (n.toNat : Int) > 0 := by omega
  simp only [writtenFile, Word64.signed_of_lt short, sign, ↓reduceIte, Int.toNat_natCast,
    UInt64.ofNat_toNat, grownFile]
  split
  next grows => simp [grows]
  next stays => simp [stays]

/-- After something was stored, position and offset are at its end. -/
theorem offset_writtenFile (f : File) {n : UInt64} (nonzero : n ≠ 0)
    (noWrap : f.offset.toNat + n.toNat < 9223372036854775808) :
    (writtenFile f n f.offset).offset = f.offset + n ∧
      (writtenFile f n f.offset).pos = f.offset + n := by
  have positive : 0 < n.toNat := by
    rw [Nat.pos_iff_ne_zero]
    simpa [← UInt64.toNat_inj] using nonzero
  rw [writtenFile_eq f nonzero (by omega)]
  refine ⟨?_, rfl⟩
  change (if f.append then if f.offset + n > f.size then f.offset + n else f.size
    else f.offset + n) = f.offset + n
  by_cases appends : f.append = true
  · have start : f.offset = f.size := by simp [File.offset, appends]
    have grows : f.offset + n > f.size := by
      rw [start] at noWrap ⊢
      rw [gt_iff_lt, UInt64.lt_iff_toNat_lt, Word64.toNat_add_of_lt (by omega)]
      omega
    rw [if_pos appends, if_pos grows]
  · rw [if_neg appends]

/-- Two stored pieces make one. -/
theorem writtenFile_writtenFile (f : File) {n m : UInt64} (nonzero : n ≠ 0) (nonzero' : m ≠ 0)
    (noWrap : f.offset.toNat + n.toNat + m.toNat < 9223372036854775808) :
    writtenFile (writtenFile f n f.offset) m (f.offset + n) = writtenFile f (n + m) f.offset := by
  have positive : 0 < m.toNat := by
    rw [Nat.pos_iff_ne_zero]
    simpa [← UInt64.toNat_inj] using nonzero'
  have sum : (n + m).toNat = n.toNat + m.toNat := Word64.toNat_add_of_lt (by omega)
  have both : n + m ≠ 0 := by
    rw [Ne, ← UInt64.toNat_inj, sum, UInt64.toNat_zero]
    omega
  have half : (f.offset + n).toNat = f.offset.toNat + n.toNat := Word64.toNat_add_of_lt (by omega)
  have whole : (f.offset + (n + m)).toNat = f.offset.toNat + n.toNat + m.toNat := by
    rw [Word64.toNat_add_of_lt (by omega), sum, Nat.add_assoc]
  rw [writtenFile_eq f nonzero (by omega), writtenFile_eq _ nonzero' (by omega),
    writtenFile_eq f both (by omega)]
  simp only [UInt64.add_assoc]
  by_cases grows : f.offset + n > f.size
  · have later : f.offset + (n + m) > f.offset + n := by
      rw [gt_iff_lt, UInt64.lt_iff_toNat_lt]
      omega
    have beyond : f.offset + (n + m) > f.size := UInt64.lt_trans grows later
    simp [grows, later, beyond]
  · simp [grows]

theorem ofNat_length_ne_zero (small : bytes.length < 9223372036854775808) (nonempty : bytes ≠ []) :
    UInt64.ofNat bytes.length ≠ 0 := by
  rw [Ne, ← UInt64.toNat_inj, toNat_ofNat_length small, UInt64.toNat_zero,
    List.length_eq_zero_iff]
  exact nonempty

namespace Stores

variable (stores : Stores s s' index bytes)

include stores

theorem file : s'.files index = writtenFile (s.files index) (UInt64.ofNat bytes.length)
    (s.files index).offset := by
  rw [stores.files, Function.update_self]

theorem sameHandle : (s.files index).SameHandle (s'.files index) := by
  rw [stores.file]
  exact sameHandle_writtenFile _ _ _

theorem openIndex_eq (fd : Int) : openIndex s' fd = openIndex s fd := by
  apply openIndex_congr
  intro other
  by_cases same : other = index
  · rw [same, stores.sameHandle.used]
  · rw [stores.files, Function.update_of_ne same]

variable (nonempty : bytes ≠ [])
  (inside : (s.files index).offset.toNat + bytes.length < 9223372036854775808)

include nonempty inside

/-- The next write goes where the last one ended. -/
theorem offset_eq :
    (s'.files index).offset = (s.files index).offset + UInt64.ofNat bytes.length ∧
      (s'.files index).pos = (s'.files index).offset := by
  have small : bytes.length < 9223372036854775808 := by omega
  have moved := offset_writtenFile (s.files index) (ofNat_length_ne_zero small nonempty)
    (by rw [toNat_ofNat_length small]; exact inside)
  rw [stores.file]
  exact ⟨moved.1, moved.2.trans moved.1.symm⟩

theorem offset_toNat :
    (s'.files index).offset.toNat = (s.files index).offset.toNat + bytes.length := by
  have length : (UInt64.ofNat bytes.length).toNat = bytes.length := toNat_ofNat_length (by omega)
  rw [(stores.offset_eq nonempty inside).1, Word64.toNat_add_of_lt (by omega), length]

theorem space_eq : (s'.files index).space = (s.files index).space - bytes.length := by
  rw [File.space, File.space, stores.offset_toNat nonempty inside, File.cap, File.cap,
    stores.sameHandle.reservedBlocks]
  omega

end Stores

/-- What is stored after other bytes is stored with them. -/
theorem Stores.trans (stores : Stores s s' index bytes) (stores' : Stores s' s'' index more)
    (nonempty : bytes ≠ []) (nonempty' : more ≠ [])
    (inside : (s.files index).offset.toNat + bytes.length + more.length < 9223372036854775808) :
    Stores s s'' index (bytes ++ more) := by
  have length : (UInt64.ofNat bytes.length).toNat = bytes.length := toNat_ofNat_length (by omega)
  have length' : (UInt64.ofNat more.length).toNat = more.length := toNat_ofNat_length (by omega)
  have nonzero := ofNat_length_ne_zero (by omega) nonempty
  have nonzero' := ofNat_length_ne_zero (by omega) nonempty'
  have offset := (stores.offset_eq nonempty (by omega)).1
  have address : (s'.files index).address (s'.files index).offset.toNat =
      (s.files index).address (s.files index).offset.toNat + bytes.length := by
    rw [File.address, File.address, stores.sameHandle.startBlock,
      stores.offset_toNat nonempty (by omega), Nat.add_assoc]
  refine ⟨stores'.dir.trans stores.dir, stores'.loaded.trans stores.loaded,
    stores'.fails.trans stores.fails, ?_, fun position => ?_⟩
  · rw [stores'.files, offset, stores.file, stores.files, Function.update_idem, List.length_append,
      UInt64.ofNat_add, writtenFile_writtenFile _ nonzero nonzero' (by omega)]
  · rw [stores'.cells, stores.cells, address, List.length_append]
    generalize (s.files index).address (s.files index).offset.toNat = base
    by_cases second : base + bytes.length ≤ position ∧
        position < base + bytes.length + more.length
    · rw [if_pos second, if_pos (by omega), List.getD_append_right _ _ _ _ (by omega)]
      congr 1
      omega
    · rw [if_neg second]
      by_cases first : base ≤ position ∧ position < base + bytes.length
      · rw [if_pos first, if_pos (by omega), List.getD_append _ _ _ _ (by omega)]
      · rw [if_neg first, if_neg (by omega)]

/-- An open file after a write that was refused: its position is where the write would
have gone. -/
def State.atOffset (s : State) (index : Fin 8) : State :=
  s.setFile index { s.files index with pos := (s.files index).offset }

namespace State

theorem files_atOffset (s : State) (index : Fin 8) :
    (s.atOffset index).files index = { s.files index with pos := (s.files index).offset } := by
  rw [atOffset, files_setFile, Function.update_self]

theorem offset_atOffset (s : State) (index : Fin 8) :
    ((s.atOffset index).files index).offset = (s.files index).offset := by
  rw [files_atOffset]
  simp only [File.offset]
  split
  · rfl
  · rfl

theorem sameHandle_atOffset (s : State) (index : Fin 8) :
    (s.files index).SameHandle ((s.atOffset index).files index) := by
  rw [files_atOffset]
  exact ⟨rfl, rfl, rfl, rfl, rfl⟩

theorem openIndex_atOffset (s : State) (index : Fin 8) (fd : Int) :
    openIndex (s.atOffset index) fd = openIndex s fd := by
  apply openIndex_congr
  intro other
  by_cases same : other = index
  · rw [same, (s.sameHandle_atOffset index).used]
  · rw [atOffset, files_setFile, Function.update_of_ne same]

theorem space_atOffset (s : State) (index : Fin 8) :
    ((s.atOffset index).files index).space = (s.files index).space := by
  rw [File.space, File.space, s.offset_atOffset, File.cap, File.cap,
    (s.sameHandle_atOffset index).reservedBlocks]

theorem atOffset_of_eq (stands : (s.files index).pos = (s.files index).offset) :
    s.atOffset index = s := by
  rw [atOffset, ← stands, setFile_self]

theorem atOffset_atOffset (s : State) (index : Fin 8) :
    (s.atOffset index).atOffset index = s.atOffset index := by
  apply atOffset_of_eq
  rw [offset_atOffset, files_atOffset]

end State

/-- Where a file stands does not matter to what is stored at its offset. -/
theorem Stores.of_atOffset (stores : Stores (s.atOffset index) s' index bytes)
    (nonempty : bytes ≠ []) (small : bytes.length < 9223372036854775808) :
    Stores s s' index bytes := by
  have nonzero := ofNat_length_ne_zero small nonempty
  have length : (UInt64.ofNat bytes.length).toNat < 9223372036854775808 := by
    rwa [toNat_ofNat_length small]
  have address : ((s.atOffset index).files index).address
      ((s.atOffset index).files index).offset.toNat =
      (s.files index).address (s.files index).offset.toNat := by
    rw [s.offset_atOffset, File.address, File.address,
      (s.sameHandle_atOffset index).startBlock]
  refine ⟨stores.dir, stores.loaded, stores.fails, ?_, fun position => ?_⟩
  · rw [stores.files, s.offset_atOffset, s.files_atOffset, writtenFile_eq _ nonzero length,
      writtenFile_eq _ nonzero length, State.atOffset, files_setFile, Function.update_idem]
  · rw [stores.cells, address]
    rfl

/-! ## Writes -/

variable (reliable : s.device.Reliable) (addressable : (s.files index).Addressable)

include reliable addressable

omit reliable in
/-- A write of nothing, or without room, fails; it only moves to its offset. -/
theorem bmfsWrite_refused (buf : Nat → UInt8) {len : UInt64}
    (refused : (s.files index).space = 0 ∨ len = 0) :
    bmfsWrite s index buf len = (-ENOSPC, s.atOffset index) := by
  refine bmfsWrite_of_full addressable buf (refused.imp_left fun full => ?_)
  rw [File.space] at full
  omega

/-- A write stores as much of its buffer as there is room for. -/
theorem bmfsWrite_stores (buf : Nat → UInt8) {len : UInt64}
    (short : len.toNat < 9223372036854775808) (nonempty : len ≠ 0)
    (room : 0 < (s.files index).space) :
    (bmfsWrite s index buf len).1 = (min len.toNat (s.files index).space : Nat) ∧
      Stores s (bmfsWrite s index buf len).2 index
        ((List.range (min len.toNat (s.files index).space)).map buf) := by
  rw [File.space] at room ⊢
  obtain ⟨n, base, count, start, stored⟩ :=
    bmfsWrite_of_room addressable buf short nonempty (by omega)
  have cells := bmfsWrite_cell addressable buf reliable short
  obtain ⟨writes, wrote⟩ := pwriteLoop_appends s.device s.scratch buf base n
  have result : (bmfsWrite s index buf len).1 = n.toNat := by rw [stored]
  rw [← count]
  refine ⟨result, ?_⟩
  refine ⟨by rw [stored, dir_setFile], by rw [stored, dirLoaded_setFile], ?_, ?_, ?_⟩
  · rw [stored, device_setFile, device_transfer, wrote.fails]
  · rw [stored, files_setFile, List.length_map, List.length_range, UInt64.ofNat_toNat]
  · intro address
    rw [cells address, result, Int.toNat_natCast, List.length_map, List.length_range]
    split
    next inside =>
      rw [List.getD_eq_getElem _ _ (by simp; omega), List.getElem_map, List.getElem_range]
    next => rfl

end OneFile

/-! ## Reads -/

/-- The position of an open file has moved on; nothing else that lasts is different. -/
structure Moves (s s' : State) (index : Fin 8) (count : Nat) : Prop where
  dir : s'.dir = s.dir
  loaded : s'.dirLoaded = s.dirLoaded
  media : Device.SameMedia s.device s'.device
  files : s'.files = Function.update s.files index
    { s.files index with pos := (s.files index).pos + UInt64.ofNat count }

/-- The bytes between the position and the end of a file. -/
def File.unread (f : File) : Nat := f.size.toNat - f.pos.toNat

/-- The bytes on the drive from the position of an open file on. -/
def ahead (s : State) (index : Fin 8) (count : Nat) : List UInt8 :=
  (List.range count).map fun offset => cell s.device.disk
    ((s.files index).startBlock * blockBytes + (s.files index).pos + UInt64.ofNat offset).toNat

@[simp] theorem length_ahead (s : State) (index : Fin 8) (count : Nat) :
    (ahead s index count).length = count := by
  simp [ahead]

section Reads

variable {s s' s'' : State} {index : Fin 8} {count more : Nat}

theorem Moves.zero (s : State) (index : Fin 8) : Moves s s index 0 where
  dir := rfl
  loaded := rfl
  media := .refl _
  files := by
    have still : (s.files index).pos + UInt64.ofNat 0 = (s.files index).pos := UInt64.add_zero _
    rw [still]
    exact (Function.update_eq_self index s.files).symm

/-- How far the position moved determines the outcome. -/
theorem Moves.sameVolume (moves : Moves s s' index count) (moves' : Moves s s'' index count) :
    SameVolume s' s'' where
  dir := moves'.dir.trans moves.dir.symm
  loaded := moves'.loaded.trans moves.loaded.symm
  files := moves'.files.trans moves.files.symm
  disk := moves'.media.disk.trans moves.media.disk.symm

namespace Moves

variable (moves : Moves s s' index count)

include moves

theorem file : s'.files index =
    { s.files index with pos := (s.files index).pos + UInt64.ofNat count } := by
  rw [moves.files, Function.update_self]

theorem openIndex_eq (fd : Int) : openIndex s' fd = openIndex s fd := by
  apply openIndex_congr
  intro other
  by_cases same : other = index
  · rw [same, moves.file]
  · rw [moves.files, Function.update_of_ne same]

theorem trans (moves' : Moves s' s'' index more) : Moves s s'' index (count + more) where
  dir := moves'.dir.trans moves.dir
  loaded := moves'.loaded.trans moves.loaded
  media := moves.media.trans moves'.media
  files := by
    rw [moves'.files, moves.file, moves.files, Function.update_idem, UInt64.ofNat_add,
      UInt64.add_assoc]

/-- What is ahead after a move was ahead before it. -/
theorem ahead_append (more : Nat) :
    ahead s index count ++ ahead s' index more = ahead s index (count + more) := by
  simp only [ahead, moves.file, moves.media.disk, List.range_add, List.map_append, List.map_map,
    Function.comp_def, UInt64.ofNat_add, UInt64.add_assoc]

variable (inside : count ≤ (s.files index).unread)

include inside

theorem pos_toNat : (s'.files index).pos.toNat = (s.files index).pos.toNat + count := by
  have small := (s.files index).size.toNat_lt
  have position := (s.files index).pos.toNat_lt
  rw [File.unread] at inside
  by_cases still : count = 0
  · rw [moves.file, still]
    exact congrArg UInt64.toNat (UInt64.add_zero _)
  · have word : (UInt64.ofNat count).toNat = count :=
      UInt64.toNat_ofNat_of_lt' (by rw [UInt64.size]; omega)
    rw [moves.file, Word64.toNat_add_of_lt (by omega), word]

theorem unread_eq : (s'.files index).unread = (s.files index).unread - count := by
  have size : (s'.files index).size = (s.files index).size := by rw [moves.file]
  rw [File.unread, moves.pos_toNat inside, size, File.unread]
  omega

end Moves

/-- A read delivers what is ahead, as far as the end of the file. -/
theorem bmfsRead_moves (reliable : s.device.Reliable) {len : UInt64}
    (short : len.toNat < 9223372036854775808)
    (noWrap : (s.files index).pos.toNat < (s.files index).size.toNat →
      (s.files index).pos.toNat + len.toNat < 18446744073709551616) :
    (bmfsRead s index len).1 = (min len.toNat (s.files index).unread : Nat) ∧
      (bmfsRead s index len).2.1 = ahead s index (min len.toNat (s.files index).unread) ∧
      Moves s (bmfsRead s index len).2.2 index (min len.toNat (s.files index).unread) := by
  by_cases past : (s.files index).size.toNat ≤ (s.files index).pos.toNat
  · have nothing : min len.toNat (s.files index).unread = 0 := by
      rw [File.unread]
      omega
    rw [bmfsRead, bmfsPread_of_past s len past, nothing, advance_zero]
    exact ⟨rfl, rfl, .zero s index⟩
  · rw [Nat.not_le] at past
    have clamped : (clampLen (s.files index).size (s.files index).pos len).toNat =
        min len.toNat (s.files index).unread := clampLen_toNat past (noWrap past)
    obtain ⟨state, result⟩ := bmfsPread_of_lt s len past
    obtain ⟨scratch, device, pos, moved, media⟩ := bmfsRead_state s index len
    have count : (bmfsRead s index len).1 = (min len.toNat (s.files index).unread : Nat) := by
      rw [bmfsRead, result, Word64.signed_of_lt (by omega), clamped]
    refine ⟨count, ?_, ⟨by rw [moved]; rfl, by rw [moved]; rfl, by rw [moved]; exact media, ?_⟩⟩
    · rw [bmfsRead, result, preadLoop_words reliable, clamped, ahead]
    · rw [files_bmfsRead, count, Int.toNat_natCast]
      split
      next => rfl
      next nothing =>
        have still : min len.toNat (s.files index).unread = 0 := by omega
        rw [still]
        exact congrArg (fun pos => Function.update s.files index { s.files index with pos })
          (UInt64.add_zero _).symm

end Reads

end AppPortKit.Bmfs
