import AppPortKit.Bmfs.Exclusive
import AppPortKit.Bmfs.Lockstep

/-!
# Leftover contents of free blocks

A new file is given blocks as they are: neither creation nor a write past the end
clears them.  What callers are told does not depend on what free blocks held exactly if
every byte they read has been written before in the run, or belongs to a file that was
there from the start.
-/

namespace AppPortKit.Bmfs

open Libc SectorStore Transition

/-- Two drives with the same directory and the same bytes in the blocks of live files.
All other blocks may differ. -/
structure SameFiles (disk disk' : Disk) : Prop where
  directory : Dir.decode (disk' 1) = Dir.decode (disk 1)
  files : ∀ slot, (Dir.decode (disk 1) slot).Live →
    ∀ address ∈ (Dir.decode (disk 1) slot).bytes, cell disk' address = cell disk address

/-- The file system with the addresses written since the start. -/
structure Aged where
  fs : State
  written : Nat → Bool

namespace Aged

def boot (disk : Disk) : Aged :=
  { fs := State.boot disk fun _ => false, written := fun _ => false }

/-- A write marks the bytes it reports as stored. -/
def mark (t : Aged) (call : Call) (reply : Reply) : Nat → Bool :=
  match call with
  | .write fd _ _ =>
      match openIndex t.fs fd with
      | none => t.written
      | some index => fun address =>
          t.written address ||
            decide ((t.fs.files index).address (t.fs.files index).offset.toNat ≤ address ∧
              address < (t.fs.files index).address (t.fs.files index).offset.toNat +
                reply.ret.toNat)
  | _ => t.written

end Aged

/-- The file system as a machine over calls, with the addresses written. -/
def aging : Machine Aged Call Reply where
  step t call :=
    ((serve t.fs call).1, { fs := (serve t.fs call).2, written := t.mark call (serve t.fs call).1 })

theorem Aged.mark_write (t : Aged) {fd : Int} {index : Fin 8}
    (opened : openIndex t.fs fd = some index) (buf : Nat → UInt8) (len : UInt64) (reply : Reply)
    (address : Nat) :
    t.mark (.write fd buf len) reply address = (t.written address ||
      decide ((t.fs.files index).address (t.fs.files index).offset.toNat ≤ address ∧
        address < (t.fs.files index).address (t.fs.files index).offset.toNat +
          reply.ret.toNat)) := by
  simp only [Aged.mark, opened]

theorem aging_written (t : Aged) (call : Call) :
    (aging.next t call).written = t.mark call (serve t.fs call).1 := rfl

theorem aging_replies (t : Aged) (calls : List Call) :
    aging.replies t calls = fileSystem.replies t.fs calls := by
  induction calls generalizing t with
  | nil => rfl
  | cons call rest ih => exact congrArg _ (ih (aging.next t call))

theorem aging_boot_replies (disk : Disk) (calls : List Call) :
    aging.replies (Aged.boot disk) calls =
      fileSystem.replies (State.boot disk fun _ => false) calls :=
  aging_replies (Aged.boot disk) calls

/-- A byte of a file that was there from the start, or one written since. -/
def Known (disk : Disk) (t : Aged) (address : Nat) : Prop :=
  t.written address = true ∨
    ∃ slot, (Dir.decode (disk 1) slot).Live ∧ address ∈ (Dir.decode (disk 1) slot).bytes

instance (entry : Dirent) (address : Nat) : Decidable (address ∈ entry.bytes) :=
  decidable_of_iff _ Set.mem_Ico.symm

instance (disk : Disk) (t : Aged) (address : Nat) : Decidable (Known disk t address) :=
  inferInstanceAs (Decidable (_ ∨ _))

/-- A read finds only known bytes between the position and the end of its file. -/
def ReadsKnown (disk : Disk) (t : Aged) : Call → Prop
  | .read fd len =>
      ∀ index, openIndex t.fs fd = some index →
        ∀ offset < min len.toNat
            ((t.fs.files index).size.toNat - (t.fs.files index).pos.toNat),
          Known disk t ((t.fs.files index).address ((t.fs.files index).pos.toNat + offset))
  | _ => True

instance (disk : Disk) (t : Aged) : (call : Call) → Decidable (ReadsKnown disk t call)
  | .read fd len =>
      inferInstanceAs (Decidable (∀ index, openIndex t.fs fd = some index →
        ∀ offset < min len.toNat
            ((t.fs.files index).size.toNat - (t.fs.files index).pos.toNat),
          Known disk t ((t.fs.files index).address ((t.fs.files index).pos.toNat + offset))))
  | .open _ _ | .write _ _ _ | .lseek _ _ _ | .close _ | .fstat _ | .fstatat _ | .unlink _ =>
      isTrue trivial

/-! ## Two runs -/

/-- Runs over two drives: alike but for bytes nobody has written, which are still
those of each drive. -/
structure Tandem (disk disk' : Disk) (t t' : Aged) : Prop where
  implements : Implements t.fs
  alike : Alike (fun _ _ => True) t.fs t'.fs
  marks : t'.written = t.written
  same : ∀ address, address / 4096 ≠ 1 → t.written address = true →
    cell t'.fs.device.disk address = cell t.fs.device.disk address
  kept : ∀ address, address / 4096 ≠ 1 → t.written address = false →
    cell t.fs.device.disk address = cell disk address ∧
      cell t'.fs.device.disk address = cell disk' address

namespace Tandem

variable {disk disk' : Disk} {t t' : Aged}

theorem boot (wellFormed : (Dir.decode (disk 1)).WellFormed)
    (fits : (Dir.decode (disk 1)).SizesFit)
    (bounded : (Dir.decode (disk 1)).Bounded)
    (directory : Dir.decode (disk' 1) = Dir.decode (disk 1)) :
    Tandem disk disk' (Aged.boot disk) (Aged.boot disk') where
  implements := .boot wellFormed fits bounded
  alike :=
    { reliable := fun _ => rfl
      reliable' := fun _ => rfl
      idle := fun _ _ => rfl
      idle' := fun _ _ => rfl
      table := by
        have table : (Aged.boot disk).fs.table = Dir.decode (disk 1) :=
          table_of_unloaded (fun _ => rfl) rfl
        have table' : (Aged.boot disk').fs.table = Dir.decode (disk' 1) :=
          table_of_unloaded (fun _ => rfl) rfl
        rw [table, table', directory]
      used := fun _ => rfl
      files := nofun
      disk := trivial }
  marks := rfl
  same _ _ := nofun
  kept _ _ _ := ⟨rfl, rfl⟩

/-- Every byte of an open file lies outside the directory. -/
theorem data_of_used (tandem : Tandem disk disk' t t') {index : Fin 8}
    (used : (t.fs.files index).used = true) (offset : Nat) :
    (t.fs.files index).address offset / 4096 ≠ 1 := by
  obtain ⟨a, related⟩ := tandem.implements
  have positive := (related.synced.sound.opened index used).1
  rw [File.address]
  omega

/-- The two runs read these bytes. -/
theorem read_bytes (tandem : Tandem disk disk' t t') {fd : Int} {index : Fin 8} {len : UInt64}
    (opened : openIndex t.fs fd = some index) (short : len.toNat < 9223372036854775808)
    {n : Nat} (count : n = min len.toNat
      ((t.fs.files index).size.toNat - (t.fs.files index).pos.toNat)) :
    (serve t.fs (.read fd len)).1.bytes = (List.range n).map (fun offset =>
        cell t.fs.device.disk
          ((t.fs.files index).address ((t.fs.files index).pos.toNat + offset))) ∧
      (serve t'.fs (.read fd len)).1.bytes = (List.range n).map fun offset =>
        cell t'.fs.device.disk
          ((t.fs.files index).address ((t.fs.files index).pos.toNat + offset)) := by
  obtain ⟨a, related⟩ := tandem.implements
  have used := ((openIndex_eq_some_iff _ _ _).mp opened).2
  have opened' : openIndex t'.fs fd = some index := (tandem.alike.openIndex_eq fd).trans opened
  have record := tandem.alike.files index used
  obtain ⟨placed, fits, -⟩ := related.file_bounds used
  obtain ⟨scratch, device, pos, -, -, read⟩ :=
    bmfsRead_spec tandem.alike.reliable placed.addressable fits short count
  obtain ⟨scratch', device', pos', -, -, read'⟩ :=
    bmfsRead_spec tandem.alike.reliable' (record ▸ placed.addressable) (record ▸ fits) short
      (record ▸ count)
  rw [record] at read'
  rw [serve_read opened, serve_read opened', read, read']
  simp only [File.address, Nat.add_assoc, and_self]

/-- Known bytes are the same in both runs. -/
theorem cell_of_known (tandem : Tandem disk disk' t t') (sameFiles : SameFiles disk disk')
    {address : Nat} (data : address / 4096 ≠ 1) (known : Known disk t address) :
    cell t'.fs.device.disk address = cell t.fs.device.disk address := by
  cases marked : t.written address with
  | true => exact tandem.same address data marked
  | false =>
      obtain ⟨first, second⟩ := tandem.kept address data marked
      rcases known with written | ⟨slot, live, inside⟩
      · rw [marked] at written
        contradiction
      · rw [first, second]
        exact sameFiles.files slot live address inside

/-- A call that reads only known bytes is answered alike. -/
theorem serves (tandem : Tandem disk disk' t t') (sameFiles : SameFiles disk disk') {call : Call}
    (careful : Careful t.fs call) (known : ReadsKnown disk t call) :
    Alike.Serves (fun _ _ => True) t.fs t'.fs call := by
  apply tandem.alike.serves (fun _ _ _ _ => trivial)
  case writes => exact fun _ _ _ _ _ _ _ _ _ _ _ _ => trivial
  case reads =>
    rintro fd index len rfl opened
    have used := ((openIndex_eq_some_iff _ _ _).mp opened).2
    have opened' : openIndex t'.fs fd = some index := (tandem.alike.openIndex_eq fd).trans opened
    obtain ⟨bytes, bytes'⟩ := tandem.read_bytes opened careful.2.1 rfl
    have agree : (serve t'.fs (.read fd len)).1.bytes = (serve t.fs (.read fd len)).1.bytes := by
      rw [bytes, bytes']
      apply List.map_congr_left
      intro offset member
      exact tandem.cell_of_known sameFiles (tandem.data_of_used used _)
        (known index opened offset (List.mem_range.mp member))
    rw [serve_read opened, serve_read opened', bmfsRead, bmfsRead,
      tandem.alike.files index used] at agree
    exact agree

/-- A write stores the same bytes at the same addresses in both runs. -/
theorem next_write (tandem : Tandem disk disk' t t') {fd : Int} {buf : Nat → UInt8}
    {len : UInt64} {index : Fin 8} (opened : openIndex t.fs fd = some index)
    (careful : Careful t.fs (.write fd buf len))
    (serves : Alike.Serves (fun _ _ => True) t.fs t'.fs (.write fd buf len)) :
    Tandem disk disk' (aging.next t (.write fd buf len)) (aging.next t' (.write fd buf len)) := by
  obtain ⟨a, related⟩ := tandem.implements
  have used := ((openIndex_eq_some_iff _ _ _).mp opened).2
  have opened' : openIndex t'.fs fd = some index := (tandem.alike.openIndex_eq fd).trans opened
  have record := tandem.alike.files index used
  have placed := related.synced.sound.opened index used
  have short : len.toNat < 9223372036854775808 := careful.1.2
  have state : (aging.next t (.write fd buf len)).fs = (bmfsWrite t.fs index buf len).2 := by
    simp only [Machine.next, aging, serve_write opened, Reply.ofResult]
  have state' : (aging.next t' (.write fd buf len)).fs = (bmfsWrite t'.fs index buf len).2 := by
    simp only [Machine.next, aging, serve_write opened', Reply.ofResult]
  have replies : (bmfsWrite t'.fs index buf len).1 = (bmfsWrite t.fs index buf len).1 := by
    have same := congrArg Reply.ret serves.1
    rw [serve_write opened, serve_write opened', Reply.ret_ofResult, Reply.ret_ofResult] at same
    exact same
  have cells := bmfsWrite_cell placed.addressable buf tandem.alike.reliable short
  have cells' := bmfsWrite_cell (record ▸ placed.addressable) buf tandem.alike.reliable' short
  rw [record, replies] at cells'
  have marks : ∀ address, (aging.next t (.write fd buf len)).written address =
      (t.written address ||
        decide ((t.fs.files index).address (t.fs.files index).offset.toNat ≤ address ∧
          address < (t.fs.files index).address (t.fs.files index).offset.toNat +
            (bmfsWrite t.fs index buf len).1.toNat)) := by
    intro address
    rw [aging_written, t.mark_write opened, serve_write opened, Reply.ret_ofResult]
  constructor
  · exact tandem.implements.next careful
  · exact serves.2
  · funext address
    rw [marks, aging_written, t'.mark_write opened', serve_write opened', Reply.ret_ofResult,
      record, replies, tandem.marks]
  · intro address data marked
    rw [marks, Bool.or_eq_true, decide_eq_true_eq] at marked
    rw [state, state', cells, cells']
    split
    · rfl
    next outside =>
      exact tandem.same address data (marked.resolve_right outside)
  · intro address data unmarked
    rw [marks, Bool.or_eq_false_iff, decide_eq_false_iff_not] at unmarked
    rw [state, state', cells, cells', if_neg unmarked.2, if_neg unmarked.2]
    exact tandem.kept address data unmarked.1

/-- Calls that are answered alike keep the runs in step. -/
theorem next (tandem : Tandem disk disk' t t') {call : Call} (careful : Careful t.fs call)
    (serves : Alike.Serves (fun _ _ => True) t.fs t'.fs call) :
    Tandem disk disk' (aging.next t call) (aging.next t' call) := by
  have quiet : (∀ fd buf len, call ≠ .write fd buf len) →
      (aging.next t call).written = t.written → (aging.next t' call).written = t'.written →
      Tandem disk disk' (aging.next t call) (aging.next t' call) := by
    intro noWrite marks marks'
    have cells : ∀ address, address / 4096 ≠ 1 →
        cell (aging.next t call).fs.device.disk address = cell t.fs.device.disk address :=
      fun _ data => cell_next_of_not_write noWrite data
    have cells' : ∀ address, address / 4096 ≠ 1 →
        cell (aging.next t' call).fs.device.disk address = cell t'.fs.device.disk address :=
      fun _ data => cell_next_of_not_write noWrite data
    refine ⟨tandem.implements.next careful, serves.2, ?_, ?_, ?_⟩
    · rw [marks, marks', tandem.marks]
    · intro address data
      rw [marks, cells address data, cells' address data]
      exact tandem.same address data
    · intro address data
      rw [marks, cells address data, cells' address data]
      exact tandem.kept address data
  cases call with
  | write fd buf len =>
      cases opened : openIndex t.fs fd with
      | none =>
          have closed : openIndex t'.fs fd = none := (tandem.alike.openIndex_eq fd).trans opened
          simp only [Machine.next, aging, Aged.mark, serve, opened, closed]
          exact tandem
      | some index => exact tandem.next_write opened careful serves
  | «open» | read | lseek | close | fstat | fstatat | unlink =>
      exact quiet (fun _ _ _ => Call.noConfusion) rfl rfl

/-- Runs that read only known bytes stay in step and get the same answers. -/
theorem run (tandem : Tandem disk disk' t t') (sameFiles : SameFiles disk disk')
    {calls : List Call} (careful : aging.Along (fun t call => Careful t.fs call) t calls)
    (known : aging.Along (ReadsKnown disk) t calls) :
    aging.replies t' calls = aging.replies t calls ∧
      Tandem disk disk' (aging.run t calls) (aging.run t' calls) := by
  have guarded : aging.Along (fun t call => Careful t.fs call ∧ ReadsKnown disk t call) t calls :=
    careful.combine known fun _ _ careful known => ⟨careful, known⟩
  apply Machine.lockstep _ tandem guarded
  intro t t' call tandem guard
  have serves := tandem.serves sameFiles guard.1 guard.2
  exact ⟨serves.1, tandem.next guard.1 serves⟩

/-- An unknown byte that is read shows: on a drive that differs in this byte alone the
same read answers differently. -/
theorem read_unknown {address : Nat} {value : UInt8}
    (tandem : Tandem disk (poke disk address value) t t') {fd : Int} {index : Fin 8}
    {len : UInt64} (opened : openIndex t.fs fd = some index)
    (short : len.toNat < 9223372036854775808) {offset : Nat}
    (bound : offset < min len.toNat
      ((t.fs.files index).size.toNat - (t.fs.files index).pos.toNat))
    (here : (t.fs.files index).address ((t.fs.files index).pos.toNat + offset) = address)
    (unmarked : t.written address = false) (other : value ≠ cell disk address) :
    (serve t'.fs (.read fd len)).1 ≠ (serve t.fs (.read fd len)).1 := by
  intro same
  have used := ((openIndex_eq_some_iff _ _ _).mp opened).2
  have data : address / 4096 ≠ 1 := here ▸ tandem.data_of_used used _
  obtain ⟨bytes, bytes'⟩ := tandem.read_bytes opened short rfl
  have agree := congrArg (fun reply => reply.bytes[offset]?) same
  simp only [bytes, bytes', List.getElem?_map, List.getElem?_range bound, Option.map_some, here,
    Option.some.injEq] at agree
  obtain ⟨first, second⟩ := tandem.kept address data unmarked
  rw [first, second, cell_poke, if_pos rfl] at agree
  exact other agree

end Tandem

/-- A drive that differs in one byte outside the directory and all live files. -/
theorem SameFiles.poke {disk : Disk} {address : Nat} (data : address / 4096 ≠ 1)
    (free : ∀ slot, (Dir.decode (disk 1) slot).Live → address ∉ (Dir.decode (disk 1) slot).bytes)
    (value : UInt8) : SameFiles disk (SectorStore.poke disk address value) where
  directory := by rw [SectorStore.poke, Function.update_of_ne data.symm]
  files slot live other inside := by
    have different : other ≠ address := fun same => free slot live (same ▸ inside)
    rw [cell_poke, if_neg different]

/-- With names opened and removed only while nobody has them open, the answers to a
run do not depend on what free blocks of the drive held exactly if every byte read
belongs to a file that was there from the start or has been written in the run. -/
theorem replies_independent_iff (disk : Disk) (calls : List Call)
    (wellFormed : (Dir.decode (disk 1)).WellFormed)
    (fits : (Dir.decode (disk 1)).SizesFit)
    (bounded : (Dir.decode (disk 1)).Bounded)
    (careful : aging.Along (fun t call => Careful t.fs call) (Aged.boot disk) calls) :
    (∀ disk', SameFiles disk disk' →
        fileSystem.replies (State.boot disk' fun _ => false) calls =
          fileSystem.replies (State.boot disk fun _ => false) calls) ↔
      aging.Along (ReadsKnown disk) (Aged.boot disk) calls := by
  constructor
  · intro independent
    by_contra fails
    obtain ⟨front, call, back, rfl, known, unknown⟩ := Machine.exists_first_of_not_along fails
    rw [Machine.along_append] at careful
    obtain ⟨before, guard, -⟩ := careful
    cases call with
    | read fd len =>
        simp only [ReadsKnown, not_forall] at unknown
        obtain ⟨index, opened, offset, bound, unknown⟩ := unknown
        obtain ⟨unmarked, free⟩ := not_or.mp unknown
        -- Change the byte that is read, which no file of the start has.
        generalize here : ((aging.run (Aged.boot disk) front).fs.files index).address
          (((aging.run (Aged.boot disk) front).fs.files index).pos.toNat + offset) = address
          at unmarked free
        have tandemFor := fun disk' (sameFiles : SameFiles disk disk') =>
          (Tandem.boot wellFormed fits bounded sameFiles.directory).run sameFiles before known
        have used := ((openIndex_eq_some_iff _ _ _).mp opened).2
        have same : SameFiles disk disk := ⟨rfl, fun _ _ _ _ => rfl⟩
        have data : address / 4096 ≠ 1 := here ▸ (tandemFor disk same).2.data_of_used used _
        have sameFiles : SameFiles disk (poke disk address (cell disk address + 1)) :=
          .poke data (fun slot live inside => free ⟨slot, live, inside⟩) _
        obtain ⟨replies, tandem⟩ := tandemFor _ sameFiles
        have shown := tandem.read_unknown opened guard.2.1 bound here
          (Bool.eq_false_iff.mpr unmarked) (by simp)
        have equal := independent _ sameFiles
        rw [← aging_boot_replies, ← aging_boot_replies, Machine.replies_append,
          Machine.replies_append, replies, List.append_cancel_left_eq] at equal
        exact shown (List.cons.inj equal).1
    | «open» | write | lseek | close | fstat | fstatat | unlink => exact unknown trivial
  · intro known disk' sameFiles
    have tandem := (Tandem.boot wellFormed fits bounded sameFiles.directory).run sameFiles
      careful known
    rw [aging_boot_replies, aging_boot_replies] at tandem
    exact tandem.1

/-- A new file is written past its end, and read from its start. -/
def readsGap : List Call :=
  [.open nameA oCreat, .lseek 3 1 0, .write 3 (fun _ => 5) 1, .lseek 3 0 0, .read 3 2]

/-- The first byte of the file is the one its block held before. -/
theorem readsGap_exposes_block :
    SameFiles blankDisk (poke blankDisk 2097152 7) ∧
      aging.Along (fun t call => Careful t.fs call) (Aged.boot blankDisk) readsGap ∧
      fileSystem.replies (State.boot (poke blankDisk 2097152 7) fun _ => false) readsGap ≠
        fileSystem.replies (State.boot blankDisk fun _ => false) readsGap :=
  ⟨.poke (by decide) (fun slot live => absurd live (blankDisk_dead slot)) 7,
    by decide +kernel, by decide +kernel⟩

/-- Without the gap nothing shows. -/
theorem readsWritten_independent :
    fileSystem.replies (State.boot (poke blankDisk 2097152 7) fun _ => false)
        [.open nameA oCreat, .write 3 (fun _ => 5) 2, .lseek 3 0 0, .read 3 4] =
      fileSystem.replies (State.boot blankDisk fun _ => false)
        [.open nameA oCreat, .write 3 (fun _ => 5) 2, .lseek 3 0 0, .read 3 4] :=
  (replies_independent_iff blankDisk _ blankDisk_wellFormed
    (fun slot live => absurd live (blankDisk_dead slot)) blankDisk_bounded
    (by decide +kernel)).mpr (by decide +kernel) _
    (.poke (by decide) (fun slot live => absurd live (blankDisk_dead slot)) 7)

end AppPortKit.Bmfs
