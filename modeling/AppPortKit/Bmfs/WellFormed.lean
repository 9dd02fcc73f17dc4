import AppPortKit.Bmfs.Core
import Mathlib.Data.List.TakeWhile
import Mathlib.Order.CompletePartialOrder
import Mathlib.Order.Interval.Set.Disjoint

/-!
# Well-formed directories

A directory is well formed if its live entries have distinct, terminated names
without slashes and own disjoint extents of blocks after the first.  Searches in
such a directory are searches for names, and every change the operations make to
the table keeps it well formed.
-/

namespace AppPortKit.Bmfs

open Libc

/-- The first value that `takeWhile` rejects stands right after the accepted ones. -/
theorem getElem?_length_takeWhile {α : Type} (accept : α → Bool) (values : List α)
    (shorter : (values.takeWhile accept).length < values.length) :
    ∃ value, values[(values.takeWhile accept).length]? = some value ∧
      accept value = false := by
  induction values with
  | nil => simp at shorter
  | cons head rest ih =>
      cases accepted : accept head with
      | false => exact ⟨head, by simp [accepted], accepted⟩
      | true =>
          simp only [List.takeWhile_cons, accepted, ↓reduceIte, List.length_cons] at shorter ⊢
          simpa using ih (by omega)

namespace Dirent

/-- The bytes of the name field before its first zero. -/
def nameString (entry : Dirent) : CString :=
  ⟨(List.ofFn entry.name).takeWhile (· ≠ 0), by
    intro membership
    simpa using List.mem_takeWhile_imp membership⟩

/-- The name field holds a terminator. -/
def Terminated (entry : Dirent) : Prop := ∃ offset, entry.name offset = 0

/-- The blocks an entry owns. -/
def extent (entry : Dirent) : Set Nat :=
  Set.Ico entry.startBlock.toNat (entry.startBlock.toNat + entry.reservedBlocks.toNat)

/-- Two entries describe one file, up to its size. -/
structure SameFile (left right : Dirent) : Prop where
  name : right.name = left.name
  startBlock : right.startBlock = left.startBlock
  reservedBlocks : right.reservedBlocks = left.reservedBlocks

theorem SameFile.refl (entry : Dirent) : SameFile entry entry := ⟨rfl, rfl, rfl⟩

theorem SameFile.live_iff {left right : Dirent} (same : SameFile left right) :
    right.Live ↔ left.Live := by
  rw [Live, Live, same.name]

theorem SameFile.nameString {left right : Dirent} (same : SameFile left right) :
    right.nameString = left.nameString := by
  simp only [Dirent.nameString, same.name]

theorem SameFile.nameChar {left right : Dirent} (same : SameFile left right) :
    right.nameChar = left.nameChar := by
  funext offset
  simp only [Dirent.nameChar, same.name]

theorem SameFile.extent {left right : Dirent} (same : SameFile left right) :
    right.extent = left.extent := by
  rw [Dirent.extent, Dirent.extent, same.startBlock, same.reservedBlocks]

theorem nameString_prefix (entry : Dirent) :
    entry.nameString.bytes <+: List.ofFn entry.name :=
  List.takeWhile_prefix _

theorem nameString_length_le (entry : Dirent) : entry.nameString.bytes.length ≤ 32 := by
  have shorter := entry.nameString_prefix.length_le
  rwa [List.length_ofFn] at shorter

/-- Up to the end of the name, the field holds its bytes. -/
theorem nameChar_of_lt {entry : Dirent} {offset : Nat}
    (bound : offset < entry.nameString.bytes.length) :
    entry.nameChar offset = entry.nameString.char offset := by
  have inField := Nat.lt_of_lt_of_le bound entry.nameString_length_le
  rw [CString.char_of_lt bound, entry.nameString_prefix.getElem bound, nameChar,
    dif_pos inField, List.getElem_ofFn]

/-- The first zero of the field ends the name. -/
theorem nameString_length_le_of_zero {entry : Dirent} {offset : Nat}
    (zero : entry.nameChar offset = 0) : entry.nameString.bytes.length ≤ offset := by
  by_contra longer
  rw [nameChar_of_lt (by omega), CString.char_eq_zero_iff] at zero
  exact longer zero

/-- A name that ends inside the field is followed by a zero. -/
theorem nameChar_length {entry : Dirent}
    (inside : entry.nameString.bytes.length < 32) :
    entry.nameChar entry.nameString.bytes.length = 0 := by
  obtain ⟨byte, found, rejected⟩ := getElem?_length_takeWhile (· ≠ 0)
    (List.ofFn entry.name) (by rw [List.length_ofFn]; exact inside)
  rw [List.getElem?_eq_some_iff] at found
  obtain ⟨bound, found⟩ := found
  rw [List.getElem_ofFn] at found
  rw [nameChar, dif_pos inside]
  exact found.trans (by simpa using rejected)

theorem terminated_iff (entry : Dirent) :
    entry.Terminated ↔ entry.nameString.bytes.length < 32 := by
  constructor
  · rintro ⟨offset, zero⟩
    have short : entry.nameString.bytes.length ≤ offset.val := by
      apply nameString_length_le_of_zero
      simpa [nameChar] using zero
    omega
  · intro inside
    have zero := nameChar_length inside
    rw [nameChar, dif_pos inside] at zero
    exact ⟨_, zero⟩

/-- A terminated field compares equal to a string exactly if it holds it. -/
theorem strncmp_eq_zero_iff {entry : Dirent} (terminated : entry.Terminated)
    (name : CString) :
    strncmp entry.nameChar name.char 32 = 0 ↔ entry.nameString = name := by
  have inside := (terminated_iff entry).mp terminated
  have zero := nameChar_length inside
  rw [strncmp, strncmpFrom_eq_zero_iff]
  simp only [Nat.zero_add]
  constructor
  · intro agree
    apply CString.ext_char
    intro offset bound
    rcases Nat.lt_or_eq_of_le bound with before | atEnd
    · rw [← nameChar_of_lt before]
      refine agree offset (by omega) fun earlier earlierBound nul => ?_
      have := nameString_length_le_of_zero nul
      omega
    · rw [CString.char_of_ge (by omega), ← agree offset (by omega), atEnd, zero]
      intro earlier earlierBound nul
      have := nameString_length_le_of_zero nul
      omega
  · rintro rfl offset bound before
    rcases Nat.lt_trichotomy offset entry.nameString.bytes.length with
      inName | atEnd | beyond
    · exact nameChar_of_lt inName
    · rw [CString.char_of_ge (by omega), atEnd, zero]
    · exact absurd zero (before _ beyond)

/-- A live entry has a non-empty name. -/
theorem Live.nameString_ne_nil {entry : Dirent} (live : entry.Live) :
    entry.nameString.bytes ≠ [] := by
  intro empty
  have inside : entry.nameString.bytes.length < 32 := by simp [empty]
  have zero := nameChar_length inside
  rw [empty, List.length_nil] at zero
  exact live (by simpa [nameChar] using zero)

end Dirent

/-- The size of an entry is within its reservation. -/
def Dirent.Fits (entry : Dirent) : Prop :=
  entry.size.toNat ≤ entry.reservedBlocks.toNat * 2097152

namespace Dir

/-- What the directory promises about its live entries. -/
structure WellFormed (dir : Dir) : Prop where
  terminated : ∀ slot, (dir slot).Live → (dir slot).Terminated
  noSlash : ∀ slot, (dir slot).Live → slash ∉ (dir slot).nameString.bytes
  distinct : ∀ slot other, (dir slot).Live → (dir other).Live → slot ≠ other →
    (dir slot).nameString ≠ (dir other).nameString
  positive : ∀ slot, (dir slot).Live → 1 ≤ (dir slot).startBlock.toNat
  apart : ∀ slot other, (dir slot).Live → (dir other).Live → slot ≠ other →
    Disjoint (dir slot).extent (dir other).extent

/-- Every live extent ends below block `2 ^ 42`, so byte addresses stay below
`2 ^ 63`. -/
def Bounded (dir : Dir) : Prop :=
  ∀ slot, (dir slot).Live →
    (dir slot).startBlock.toNat + (dir slot).reservedBlocks.toNat < 4398046511104

instance (dir : Dir) : Decidable dir.Bounded :=
  inferInstanceAs (Decidable (∀ slot, (dir slot).Live →
    (dir slot).startBlock.toNat + (dir slot).reservedBlocks.toNat < 4398046511104))

/-- Every live file fits in its reservation. -/
def SizesFit (dir : Dir) : Prop := ∀ slot, (dir slot).Live → (dir slot).Fits

instance (dir : Dir) : Decidable dir.SizesFit :=
  inferInstanceAs (Decidable (∀ slot, (dir slot).Live →
    (dir slot).size.toNat ≤ (dir slot).reservedBlocks.toNat * 2097152))

/-- Dropping entries and changing sizes keep a directory well formed. -/
theorem WellFormed.of_kept {dir dir' : Dir} (wellFormed : dir.WellFormed)
    (kept : ∀ slot, (dir' slot).Live → Dirent.SameFile (dir slot) (dir' slot)) :
    dir'.WellFormed := by
  have live : ∀ slot, (dir' slot).Live → (dir slot).Live :=
    fun slot alive => (kept slot alive).live_iff.mp alive
  constructor
  · intro slot alive
    obtain ⟨offset, zero⟩ := wellFormed.terminated slot (live slot alive)
    exact ⟨offset, by rw [(kept slot alive).name]; exact zero⟩
  · intro slot alive
    rw [(kept slot alive).nameString]
    exact wellFormed.noSlash slot (live slot alive)
  · intro slot other alive otherAlive different
    rw [(kept slot alive).nameString, (kept other otherAlive).nameString]
    exact wellFormed.distinct slot other (live slot alive) (live other otherAlive) different
  · intro slot alive
    rw [(kept slot alive).startBlock]
    exact wellFormed.positive slot (live slot alive)
  · intro slot other alive otherAlive different
    rw [(kept slot alive).extent, (kept other otherAlive).extent]
    exact wellFormed.apart slot other (live slot alive) (live other otherAlive) different

end Dir

/-! ## Searches -/

theorem dirFind_some {dir : Dir} {name : CString} {slot : Fin 64}
    (found : dirFind dir name = some slot) :
    (dir slot).Live ∧ strncmp (dir slot).nameChar name.char 32 = 0 := by
  simpa using List.find?_some found

theorem dirFind_none {dir : Dir} {name : CString} (missing : dirFind dir name = none)
    (slot : Fin 64) (live : (dir slot).Live) :
    strncmp (dir slot).nameChar name.char 32 ≠ 0 := by
  have rejected := List.find?_eq_none.mp missing slot (List.mem_finRange slot)
  simpa [live] using rejected

/-- In a well-formed directory the search finds the entry with the name. -/
theorem Dir.WellFormed.dirFind_eq_some_iff {dir : Dir} (wellFormed : dir.WellFormed)
    (name : CString) (slot : Fin 64) :
    dirFind dir name = some slot ↔ (dir slot).Live ∧ (dir slot).nameString = name := by
  constructor
  · intro found
    obtain ⟨live, same⟩ := dirFind_some found
    exact ⟨live, (Dirent.strncmp_eq_zero_iff (wellFormed.terminated slot live) name).mp same⟩
  · rintro ⟨live, named⟩
    cases search : dirFind dir name with
    | none =>
        have different := dirFind_none search slot live
        rw [Ne, Dirent.strncmp_eq_zero_iff (wellFormed.terminated slot live)] at different
        exact absurd named different
    | some other =>
        obtain ⟨otherLive, same⟩ := dirFind_some search
        rw [Dirent.strncmp_eq_zero_iff (wellFormed.terminated other otherLive)] at same
        by_contra different
        refine wellFormed.distinct slot other live otherLive ?_ (named.trans same.symm)
        exact fun equal => different (congrArg some equal.symm)

theorem Dir.WellFormed.dirFind_eq_none_iff {dir : Dir} (wellFormed : dir.WellFormed)
    (name : CString) :
    dirFind dir name = none ↔ ∀ slot, (dir slot).Live → (dir slot).nameString ≠ name := by
  rw [Option.eq_none_iff_forall_ne_some]
  simp only [Ne, wellFormed.dirFind_eq_some_iff, not_and]

theorem dirFindFreeSlot_some {dir : Dir} {slot : Fin 64}
    (found : dirFindFreeSlot dir = some slot) : ¬(dir slot).Live := by
  simpa using List.find?_some found

theorem dirFindFreeSlot_eq_none_iff (dir : Dir) :
    dirFindFreeSlot dir = none ↔ ∀ slot, (dir slot).Live := by
  simp [dirFindFreeSlot]

/-! ## Block allocation -/

/-- The block after an entry's extent, as the allocator computes it. -/
def Dirent.limit (entry : Dirent) : UInt64 := entry.startBlock + entry.reservedBlocks

/-- One step of the allocator's scan. -/
def scanEntry (dir : Dir) (next : UInt64) (slot : Fin 64) : UInt64 :=
  if (dir slot).Live then
    if (dir slot).limit > next then (dir slot).limit else next
  else
    next

theorem dirNextFreeBlock_eq (dir : Dir) :
    dirNextFreeBlock dir = (List.finRange 64).foldl (scanEntry dir) firstDataBlock := rfl

theorem le_scanEntry (dir : Dir) (next : UInt64) (slot : Fin 64) :
    next ≤ scanEntry dir next slot := by
  rw [scanEntry]
  split
  · split
    · next higher => exact UInt64.le_of_lt higher
    · exact UInt64.le_refl next
  · exact UInt64.le_refl next

theorem limit_le_scanEntry {dir : Dir} {slot : Fin 64} (live : (dir slot).Live)
    (next : UInt64) : (dir slot).limit ≤ scanEntry dir next slot := by
  rw [scanEntry, if_pos live]
  split
  · exact UInt64.le_refl _
  · next lower => exact UInt64.not_lt.mp lower

/-- The scan of a list of slots: it never goes down, it covers every live entry,
and it stops at its start or at the limit of a live entry. -/
theorem foldl_scanEntry (dir : Dir) (slots : List (Fin 64)) (next : UInt64) :
    next ≤ slots.foldl (scanEntry dir) next ∧
      (∀ slot ∈ slots, (dir slot).Live →
        (dir slot).limit ≤ slots.foldl (scanEntry dir) next) ∧
      (slots.foldl (scanEntry dir) next = next ∨
        ∃ slot, (dir slot).Live ∧ slots.foldl (scanEntry dir) next = (dir slot).limit) := by
  induction slots generalizing next with
  | nil => simp
  | cons slot rest ih =>
      obtain ⟨grows, covers, stops⟩ := ih (scanEntry dir next slot)
      refine ⟨UInt64.le_trans (le_scanEntry dir next slot) grows, ?_, ?_⟩
      · intro other membership live
        rcases List.mem_cons.mp membership with rfl | later
        · exact UInt64.le_trans (limit_le_scanEntry live next) grows
        · exact covers other later live
      · rcases stops with atStart | found
        · rw [List.foldl_cons, atStart, scanEntry]
          split
          · next live =>
            split
            · exact .inr ⟨slot, live, rfl⟩
            · exact .inl rfl
          · exact .inl rfl
        · exact .inr found

theorem one_le_dirNextFreeBlock (dir : Dir) : 1 ≤ (dirNextFreeBlock dir).toNat := by
  have grows := (foldl_scanEntry dir (List.finRange 64) firstDataBlock).1
  rw [dirNextFreeBlock_eq]
  exact UInt64.le_iff_toNat_le.mp grows

theorem limit_le_dirNextFreeBlock {dir : Dir} {slot : Fin 64} (live : (dir slot).Live) :
    (dir slot).limit.toNat ≤ (dirNextFreeBlock dir).toNat := by
  rw [dirNextFreeBlock_eq, ← UInt64.le_iff_toNat_le]
  exact (foldl_scanEntry dir (List.finRange 64) firstDataBlock).2.1 slot
    (List.mem_finRange slot) live

theorem Dir.Bounded.limit_toNat {dir : Dir} (bounded : dir.Bounded) {slot : Fin 64}
    (live : (dir slot).Live) :
    (dir slot).limit.toNat =
      (dir slot).startBlock.toNat + (dir slot).reservedBlocks.toNat := by
  have := bounded slot live
  exact Word64.toNat_add_of_lt (by omega)

/-! ## Creation -/

theorem validName_iff (name : CString) :
    validName name ↔ name.bytes ≠ [] ∧ name.bytes.length < 32 ∧ slash ∉ name.bytes := by
  have empty : name.strnlen 32 = 0 ↔ name.bytes = [] := by
    rw [← List.length_eq_zero_iff, CString.strnlen]
    omega
  have long : name.strnlen 32 ≥ 32 ↔ ¬name.bytes.length < 32 := by
    rw [CString.strnlen]
    omega
  simp only [validName, empty, long, CString.strchr, List.contains_iff_mem, not_or, not_not, Ne]

/-- The created entry. -/
theorem createEntry_self (dir : Dir) (slot : Fin 64) (name : CString) :
    createEntry dir slot name slot =
      { namedEntry name with
        startBlock := dirNextFreeBlock (Function.update dir slot (namedEntry name))
        reservedBlocks := defaultBlocks
        size := 0 } := by
  simp [createEntry]

theorem createEntry_of_ne {dir : Dir} {slot other : Fin 64} (name : CString)
    (different : other ≠ slot) : createEntry dir slot name other = dir other := by
  simp [createEntry, different]

section ValidName

variable {name : CString}

theorem nameChar_namedEntry (valid : validName name) (offset : Nat) :
    (namedEntry name).nameChar offset = name.char offset := by
  obtain ⟨-, short, -⟩ := (validName_iff name).mp valid
  by_cases inName : offset < name.bytes.length
  · have inField : offset < 32 := by omega
    simp [Dirent.nameChar, namedEntry, CString.strnlen, inName, inField]
  · rw [CString.char_of_ge (by omega)]
    simp [Dirent.nameChar, namedEntry, CString.strnlen, inName]

theorem terminated_namedEntry (valid : validName name) : (namedEntry name).Terminated := by
  obtain ⟨-, short, -⟩ := (validName_iff name).mp valid
  have zero := nameChar_namedEntry valid name.bytes.length
  rw [CString.char_of_ge (Nat.le_refl _), Dirent.nameChar, dif_pos short] at zero
  exact ⟨_, zero⟩

theorem nameString_namedEntry (valid : validName name) :
    (namedEntry name).nameString = name := by
  rw [← Dirent.strncmp_eq_zero_iff (terminated_namedEntry valid), strncmp,
    strncmpFrom_eq_zero_iff]
  intro offset _ _
  exact nameChar_namedEntry valid _

theorem live_namedEntry (valid : validName name) : (namedEntry name).Live := by
  obtain ⟨nonempty, -, -⟩ := (validName_iff name).mp valid
  have first := nameChar_namedEntry valid 0
  rw [Dirent.nameChar, dif_pos (by omega)] at first
  intro zero
  have empty := (name.char_eq_zero_iff 0).mp (first.symm.trans zero)
  exact nonempty (List.length_eq_zero_iff.mp (by omega))

/-- The allocator skips the named entry, which has no blocks yet. -/
theorem createEntry_startBlock {dir : Dir} (bounded : dir.Bounded) (slot : Fin 64)
    (name : CString) :
    1 ≤ (createEntry dir slot name slot).startBlock.toNat ∧
      (createEntry dir slot name slot).startBlock.toNat < 4398046511104 ∧
      ∀ other, other ≠ slot → (dir other).Live →
        (dir other).startBlock.toNat + (dir other).reservedBlocks.toNat ≤
          (createEntry dir slot name slot).startBlock.toNat := by
  rw [createEntry_self]
  simp only
  refine ⟨one_le_dirNextFreeBlock _, ?_, ?_⟩
  · have stops := (foldl_scanEntry (Function.update dir slot (namedEntry name))
      (List.finRange 64) firstDataBlock).2.2
    rw [← dirNextFreeBlock_eq] at stops
    rcases stops with atStart | ⟨other, live, found⟩
    · rw [atStart]
      decide
    · rw [found]
      by_cases same : other = slot
      · rw [same, Function.update_self]
        change ((0 : UInt64) + 0).toNat < 4398046511104
        decide
      · rw [Function.update_of_ne same] at live ⊢
        rw [bounded.limit_toNat live]
        exact bounded other live
  · intro other different live
    have kept : Function.update dir slot (namedEntry name) other = dir other :=
      Function.update_of_ne different _ _
    have keptLive : (Function.update dir slot (namedEntry name) other).Live := by
      rw [kept]
      exact live
    have covered := limit_le_dirNextFreeBlock keptLive
    rwa [kept, bounded.limit_toNat live] at covered

/-- A created entry has the name asked for. -/
theorem sameName_createEntry (dir : Dir) (slot : Fin 64) (name : CString) :
    (createEntry dir slot name slot).name = (namedEntry name).name := by
  rw [createEntry_self]

theorem live_createEntry (valid : validName name) (dir : Dir) (slot : Fin 64) :
    (createEntry dir slot name slot).Live := by
  rw [Dirent.Live, sameName_createEntry]
  exact live_namedEntry valid

theorem nameString_createEntry (valid : validName name) (dir : Dir) (slot : Fin 64) :
    (createEntry dir slot name slot).nameString = name := by
  calc (createEntry dir slot name slot).nameString
      = (namedEntry name).nameString := by
        simp only [Dirent.nameString, sameName_createEntry]
    _ = name := nameString_namedEntry valid

/-- Creating a file under a new name in a free slot keeps a directory well
formed. -/
theorem Dir.WellFormed.createEntry {dir : Dir} (wellFormed : dir.WellFormed)
    (bounded : dir.Bounded) (valid : validName name) (missing : dirFind dir name = none)
    (slot : Fin 64) : (createEntry dir slot name).WellFormed := by
  have fresh := (wellFormed.dirFind_eq_none_iff name).mp missing
  obtain ⟨positive, small, above⟩ := createEntry_startBlock bounded slot name
  have createdApart : ∀ other, other ≠ slot → (dir other).Live →
      Disjoint (dir other).extent (Bmfs.createEntry dir slot name slot).extent := by
    intro other different live
    have := above other different live
    rw [Dirent.extent, Dirent.extent, Set.Ico_disjoint_Ico]
    omega
  constructor
  · intro other live
    by_cases same : other = slot
    · subst same
      obtain ⟨offset, zero⟩ := terminated_namedEntry valid
      exact ⟨offset, by rw [sameName_createEntry]; exact zero⟩
    · rw [createEntry_of_ne name same] at live ⊢
      exact wellFormed.terminated other live
  · intro other live
    by_cases same : other = slot
    · subst same
      rw [nameString_createEntry valid]
      exact ((validName_iff name).mp valid).2.2
    · rw [createEntry_of_ne name same] at live ⊢
      exact wellFormed.noSlash other live
  · intro left right leftLive rightLive different
    by_cases leftSame : left = slot <;> by_cases rightSame : right = slot
    · exact absurd (leftSame.trans rightSame.symm) different
    · subst leftSame
      rw [createEntry_of_ne name rightSame] at rightLive ⊢
      rw [nameString_createEntry valid]
      exact (fresh right rightLive).symm
    · subst rightSame
      rw [createEntry_of_ne name leftSame] at leftLive ⊢
      rw [nameString_createEntry valid]
      exact fresh left leftLive
    · rw [createEntry_of_ne name leftSame] at leftLive ⊢
      rw [createEntry_of_ne name rightSame] at rightLive ⊢
      exact wellFormed.distinct left right leftLive rightLive different
  · intro other live
    by_cases same : other = slot
    · subst same
      exact positive
    · rw [createEntry_of_ne name same] at live ⊢
      exact wellFormed.positive other live
  · intro left right leftLive rightLive different
    by_cases leftSame : left = slot <;> by_cases rightSame : right = slot
    · exact absurd (leftSame.trans rightSame.symm) different
    · subst leftSame
      rw [createEntry_of_ne name rightSame] at rightLive ⊢
      exact (createdApart right rightSame rightLive).symm
    · subst rightSame
      rw [createEntry_of_ne name leftSame] at leftLive ⊢
      exact createdApart left leftSame leftLive
    · rw [createEntry_of_ne name leftSame] at leftLive ⊢
      rw [createEntry_of_ne name rightSame] at rightLive ⊢
      exact wellFormed.apart left right leftLive rightLive different

end ValidName

end AppPortKit.Bmfs
