import AppPortKit.Bmfs.Steps

/-!
# Invariants of every run

Three invariants are carried along every run whose block numbers and lengths
stay in range.  A sound state has all blocks, in the directory and in the open
files, after the first; so data never lands on the superblock or the directory.
On a reliable drive the directory in memory and the one on the drive agree.  And
the drive's log holds only well-formed directories, so a crash between any two
sector writes leaves one behind.
-/

namespace AppPortKit.Bmfs

open Libc Relation SectorStore Transition

/-! ## Soundness -/

/-- The blocks of an entry lie after the first and below byte `2 ^ 63`. -/
def Dirent.Placed (entry : Dirent) : Prop :=
  1 ≤ entry.startBlock.toNat ∧
    entry.startBlock.toNat + entry.reservedBlocks.toNat ≤ 4398046511104

theorem Dirent.SameFile.placed {left right : Dirent} (same : SameFile left right)
    (placed : left.Placed) : right.Placed := by
  rw [Dirent.Placed, same.startBlock, same.reservedBlocks]
  exact placed

/-- A record opened from an entry has the entry's blocks. -/
theorem Dirent.Placed.openedFile {entry : Dirent} (placed : entry.Placed) (di : Fin 64)
    (flags : UInt32) : (openedFile entry di flags).Placed := placed

/-- Writes are shorter than `2 ^ 63` bytes. -/
def Call.Short : Call → Prop
  | .write _ _ len => len.toNat < 9223372036854775808
  | _ => True

instance : (call : Call) → Decidable call.Short
  | .write _ _ len => inferInstanceAs (Decidable (len.toNat < 9223372036854775808))
  | .open _ _ | .read _ _ | .lseek _ _ _ | .close _ | .fstat _ | .fstatat _ | .unlink _ =>
      isTrue trivial

/-- Block numbers and lengths are in range when a call is made. -/
def InRange (s : State) (call : Call) : Prop := s.table.Bounded ∧ call.Short

instance (s : State) (call : Call) : Decidable (InRange s call) :=
  inferInstanceAs (Decidable (_ ∧ _))

/-- Nothing is open before the directory is loaded, and all blocks are data
blocks. -/
structure Sound (s : State) : Prop where
  idle : s.dirLoaded = false → ∀ index, (s.files index).used = false
  entries : ∀ slot, (s.table slot).Live → (s.table slot).Placed
  opened : ∀ index, (s.files index).used = true → (s.files index).Placed

/-- Edits keep all blocks placed, creation because the directory ends below block
`2 ^ 42`. -/
theorem Edit.placed {origin s : State} {call : Call} {dir : Dir}
    (edit : Edit origin call s dir) (bounded : origin.table.Bounded)
    (placed : ∀ slot, (s.dir slot).Live → (s.dir slot).Placed) (slot : Fin 64)
    (live : (dir slot).Live) : (dir slot).Placed := by
  cases edit with
  | @create path flags target called asked valid missing free record =>
      by_cases same : slot = target
      · subst same
        obtain ⟨positive, small, -⟩ :=
          createEntry_startBlock bounded slot (bmfsName path)
        refine ⟨positive, ?_⟩
        rw [createEntry_self] at small ⊢
        exact small
      · rw [createEntry_of_ne _ same] at live ⊢
        exact placed slot live
  | @truncate _ path flags di called asked loaded found =>
      have same := s.dir.sameFile_resize di 0 slot
      exact same.placed (placed slot (same.live_iff.mp live))
  | @commit _ fd index called opened dirty =>
      have same := s.dir.sameFile_resize (s.files index).dirIndex (s.files index).size slot
      exact same.placed (placed slot (same.live_iff.mp live))
  | @remove _ path di called loaded found =>
      by_cases same : slot = di
      · rw [same, Function.update_self] at live
        exact absurd live Dirent.not_live_zero
      · rw [Function.update_of_ne same] at live ⊢
        exact placed slot live

namespace Sound

variable {s : State}

/-- Whatever is open, the directory has been loaded. -/
theorem loaded (sound : Sound s) {index : Fin 8}
    (used : (s.files index).used = true) : s.dirLoaded = true := by
  cases loaded : s.dirLoaded with
  | true => rfl
  | false =>
      rw [sound.idle loaded index] at used
      contradiction

theorem loaded_of_openIndex (sound : Sound s) {fd : Int} {index : Fin 8}
    (opened : openIndex s fd = some index) : s.dirLoaded = true :=
  sound.loaded ((openIndex_eq_some_iff s fd index).mp opened).2

/-- The directory is only edited once it is loaded. -/
theorem loaded_of_edit (sound : Sound s) {origin : State} {call : Call} {dir : Dir}
    (edit : Edit origin call s dir) : s.dirLoaded = true := by
  cases edit with
  | create called asked valid missing free record => exact dirLoaded_dirLoad origin
  | truncate called asked loaded found | remove called loaded found => exact loaded
  | commit called opened dirty => exact sound.loaded_of_openIndex opened

theorem edit (sound : Sound s) (loaded : s.dirLoaded = true) {dir : Dir}
    (placed : ∀ slot, (dir slot).Live → (dir slot).Placed) : Sound (s.edit dir) where
  idle unloaded := by
    rw [dirLoaded_edit, loaded] at unloaded
    contradiction
  entries := by
    rw [table_edit dir loaded]
    exact placed
  opened := sound.opened

theorem setFile (sound : Sound s) (index : Fin 8) {file : File}
    (usable : file.used = true → s.dirLoaded = true ∧ file.Placed) :
    Sound (s.setFile index file) where
  idle unloaded other := by
    by_cases same : other = index
    · subst same
      rw [files_setFile, Function.update_self]
      cases used : file.used with
      | false => rfl
      | true =>
          rw [dirLoaded_setFile, (usable used).1] at unloaded
          contradiction
    · rw [files_setFile, Function.update_of_ne same]
      exact sound.idle unloaded other
  entries := by
    rw [table_setFile]
    exact sound.entries
  opened other used := by
    by_cases same : other = index
    · subst same
      rw [files_setFile, Function.update_self] at used ⊢
      exact (usable used).2
    · rw [files_setFile, Function.update_of_ne same] at used ⊢
      exact sound.opened other used

theorem transfer (sound : Sound s) (loaded : s.dirLoaded = true) (scratch : Sector)
    (device : Device) : Sound { s with scratch, device } where
  idle := sound.idle
  entries := by
    rw [table_transfer loaded]
    exact sound.entries
  opened := sound.opened

/-- Every change keeps a state sound. -/
theorem change {origin : State} {call : Call} {before after : State}
    (bounded : origin.table.Bounded) (sound : Sound before)
    (change : Change origin call before after) : Sound after := by
  cases change with
  | load unloaded =>
      refine ⟨?_, ?_, ?_⟩
      · intro still
        rw [dirLoaded_dirLoad] at still
        contradiction
      · rw [table_dirLoad]
        exact sound.entries
      · rw [files_dirLoad]
        exact sound.opened
  | edit edit =>
      have loaded := sound.loaded_of_edit edit
      apply sound.edit loaded
      apply edit.placed bounded
      rw [← table_of_loaded loaded]
      exact sound.entries
  | attach called loaded free found =>
      apply sound.setFile
      intro used
      refine ⟨loaded, Dirent.Placed.openedFile ?_ _ _⟩
      rw [← table_of_loaded loaded] at found ⊢
      exact sound.entries _ (dirFind_some found).1
  | fetch opened media =>
      exact sound.transfer (sound.loaded_of_openIndex opened) _ _
  | @store fd buf len index called opened =>
      have used := ((openIndex_eq_some_iff _ _ _).mp opened).2
      have loaded := sound.loaded used
      obtain ⟨scratch, device, file, state, same, -⟩ :=
        bmfsPwrite_state before index buf len (before.files index).pos
      rw [state]
      apply (sound.transfer loaded scratch device).setFile
      exact fun _ => ⟨loaded, same.placed (sound.opened index used)⟩
  | @move fd index pos opened =>
      have used := ((openIndex_eq_some_iff _ _ _).mp opened).2
      apply sound.setFile
      exact fun _ => ⟨sound.loaded used, sound.opened index used⟩
  | detach called opened =>
      apply sound.setFile
      intro used
      contradiction

end Sound

/-- The first load delivers the directory of the drive or, if it fails, an empty one. -/
theorem table_boot (disk : Disk) (fails : Nat → Bool) :
    (State.boot disk fails).table = Dir.decode (disk 1) ∨
      ∀ slot, ¬((State.boot disk fails).table slot).Live := by
  cases failed : fails 0 with
  | false =>
      left
      simp [State.table, dirLoad, State.boot, Device.nvsRead, failed]
  | true =>
      right
      intro slot
      have table : (State.boot disk fails).table slot = Dirent.zero := by
        simp [State.table, dirLoad, State.boot, Device.nvsRead, failed]
      rw [table]
      exact Dirent.not_live_zero

/-- A freshly loaded image over a drive with placed entries is sound. -/
theorem Sound.boot {disk : Disk} (fails : Nat → Bool)
    (placed : ∀ slot, (Dir.decode (disk 1) slot).Live → (Dir.decode (disk 1) slot).Placed) :
    Sound (State.boot disk fails) where
  idle _ _ := rfl
  entries slot live := by
    rcases table_boot disk fails with table | dead
    · rw [table] at live ⊢
      exact placed slot live
    · exact absurd live (dead slot)
  opened _ used := by
    contradiction

/-! ## Effects on the drive -/

/-- The effect of a change on the directory and the drive: none, one flush of an
edited directory, or writes to data sectors. -/
inductive Effect (origin : State) (call : Call) (before : State) : State → Prop where
  | quiet {after : State} (table : after.table = before.table)
      (media : Device.SameMedia before.device after.device) : Effect origin call before after
  | edit {dir : Dir} (loaded : before.dirLoaded = true) (edit : Edit origin call before dir) :
      Effect origin call before (before.edit dir)
  | store {after : State} {writes : List (Nat × Sector)} (table : after.table = before.table)
      (wrote : Device.Wrote before.device after.device writes)
      (data : ∀ write ∈ writes, 512 ≤ write.1) : Effect origin call before after

theorem Change.effect {origin : State} {call : Call} {before after : State}
    (change : Change origin call before after) (sound : Sound before) (short : call.Short) :
    Effect origin call before after := by
  cases change with
  | load unloaded => exact .quiet (table_dirLoad before) (dirLoad_sameMedia before)
  | edit edit => exact .edit (sound.loaded_of_edit edit) edit
  | attach called loaded free found => exact .quiet (table_setFile _ _ _) (.refl _)
  | fetch opened media =>
      exact .quiet (table_transfer (sound.loaded_of_openIndex opened) _ _) media
  | @store fd buf len index called opened =>
      have used := ((openIndex_eq_some_iff _ _ _).mp opened).2
      have placed := sound.opened index used
      subst called
      obtain ⟨writes, wrote, sectors⟩ :=
        bmfsPwrite_wrote placed.addressable buf (before.files index).pos short
      refine .store ?_ wrote ?_
      · obtain ⟨scratch, device, file, state, -⟩ :=
          bmfsPwrite_state before index buf len (before.files index).pos
        rw [state, table_setFile, table_transfer (sound.loaded used)]
      · intro write membership
        have := placed.1
        have := (sectors write membership).1
        omega
  | move pos opened => exact .quiet (table_setFile _ _ _) (.refl _)
  | detach called opened => exact .quiet (table_setFile _ _ _) (.refl _)

/-! ## Agreement of memory and drive -/

/-- A sound state over a reliable drive whose directory is the one in memory. -/
structure Synced (s : State) : Prop where
  sound : Sound s
  reliable : s.device.Reliable
  agrees : s.table = Dir.decode (s.device.disk 1)

/-- Data sectors are not the directory's. -/
theorem Device.Wrote.disk_of_data {before after : Device} {writes : List (Nat × Sector)}
    (wrote : Wrote before after writes) (data : ∀ write ∈ writes, 512 ≤ write.1)
    {sector : Nat} (low : sector < 512) : after.disk sector = before.disk sector := by
  rw [wrote.disk]
  apply replay_of_forall_ne
  intro write membership
  have := data write membership
  omega

/-- Every edit is flushed at once, so memory and drive stay in step. -/
theorem Synced.edit {s : State} (synced : Synced s) (loaded : s.dirLoaded = true) {dir : Dir}
    (placed : ∀ slot, (dir slot).Live → (dir slot).Placed) : Synced (s.edit dir) := by
  have wrote := edit_wrote dir synced.reliable
  refine ⟨synced.sound.edit loaded placed, synced.reliable.of_fails_eq wrote.fails, ?_⟩
  rw [table_edit dir loaded, wrote.disk, replay_singleton, Function.update_self,
    Dir.decode_encode]

theorem Synced.change {origin : State} {call : Call} {before after : State}
    (inRange : InRange origin call) (synced : Synced before)
    (change : Change origin call before after) : Synced after := by
  have sound := synced.sound.change inRange.1 change
  cases change.effect synced.sound inRange.2 with
  | quiet table media =>
      refine ⟨sound, synced.reliable.of_fails_eq media.fails, ?_⟩
      rw [table, media.disk]
      exact synced.agrees
  | edit loaded edit =>
      apply synced.edit loaded
      have placed := synced.sound.entries
      rw [table_of_loaded loaded] at placed
      exact edit.placed inRange.1 placed
  | store table wrote data =>
      refine ⟨sound, synced.reliable.of_fails_eq wrote.fails, ?_⟩
      rw [table, wrote.disk_of_data data (by omega)]
      exact synced.agrees

theorem Synced.next {s : State} {call : Call} (synced : Synced s) (inRange : InRange s call) :
    Synced (fileSystem.next s call) :=
  next_of_changes _ (fun _ _ holds changed => holds.change inRange changed) synced

theorem Synced.boot {disk : Disk}
    (placed : ∀ slot, (Dir.decode (disk 1) slot).Live → (Dir.decode (disk 1) slot).Placed) :
    Synced (State.boot disk fun _ => false) where
  sound := Sound.boot _ placed
  reliable _ := rfl
  agrees := table_of_unloaded (fun _ => rfl) rfl

end AppPortKit.Bmfs
