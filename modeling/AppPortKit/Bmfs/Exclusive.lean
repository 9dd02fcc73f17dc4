import AppPortKit.Bmfs.Isolation
import AppPortKit.Bmfs.Simulation

/-!
# One descriptor for each name

Callers that open a name only while no descriptor is open on it, and remove it only
then, keep the file system in states that implement some reference store.  Unlike
refinement of the store's answers this holds of empty writes and of every seek too.
-/

namespace AppPortKit.Bmfs

open Libc Transition

/-- Exclusive use, with block numbers and lengths in range. -/
def Careful (s : State) (call : Call) : Prop :=
  InRange s call ∧ call.ShortRead ∧ Exclusive s call

instance (s : State) (call : Call) : Decidable (Careful s call) :=
  inferInstanceAs (Decidable (_ ∧ _ ∧ _))

/-- The state of the file system is that of some reference store. -/
def Implements (s : State) : Prop := ∃ a, Related s a

namespace Implements

variable {s : State}

theorem of_disciplined {call : Call} (implements : Implements s)
    (disciplined : Disciplined s call) : Implements (fileSystem.next s call) := by
  obtain ⟨a, related⟩ := implements
  obtain ⟨a', -, after⟩ := related.matched disciplined
  exact ⟨a', after⟩

/-- A write of nothing at most moves the position to the end. -/
theorem write_nothing (implements : Implements s) (fd : Int) (buf : Nat → UInt8) :
    Implements (fileSystem.next s (.write fd buf 0)) := by
  obtain ⟨a, related⟩ := implements
  cases opened : openIndex s fd with
  | none =>
      simp only [Machine.next, fileSystem, serve, opened]
      exact ⟨a, related⟩
  | some index =>
      have used := ((openIndex_eq_some_iff s fd index).mp opened).2
      obtain ⟨placed, fits, capacity⟩ := related.file_bounds used
      have seeks : (s.files index).offset.toNat < 9223372036854775808 := by
        have below := related.seeks index used
        rw [File.Fits] at fits
        rw [File.offset]
        split <;> omega
      simp only [Machine.next, fileSystem, serve_write opened,
        bmfsWrite_of_full placed.addressable buf (.inr rfl), Reply.ofResult]
      exact ⟨_, related.move used seeks⟩

/-- A seek leaves the position below `2 ^ 63`, wherever it goes. -/
theorem lseek (implements : Implements s) (fd : Int) (offset : Int64) (whence : Int32) :
    Implements (fileSystem.next s (.lseek fd offset whence)) := by
  obtain ⟨a, related⟩ := implements
  cases opened : openIndex s fd with
  | none =>
      simp only [Machine.next, fileSystem, serve, opened]
      exact ⟨a, related⟩
  | some index =>
      have used := ((openIndex_eq_some_iff s fd index).mp opened).2
      rcases bmfsLseek_cases s index offset whence with refused | ⟨np, nonneg, moved⟩
      · simp only [Machine.next, fileSystem, serve_lseek opened, refused, Reply.ofResult]
        exact ⟨a, related⟩
      · simp only [Machine.next, fileSystem, serve_lseek opened, moved, Reply.ofResult]
        have target : 0 ≤ np.toInt := Int64.le_iff_toInt_le.mp nonneg
        have below := np.toInt_lt
        have position := Word64.toNat_toUInt64 target
        exact ⟨_, related.move used (by omega)⟩

/-- Careful calls keep the file system in such states. -/
theorem next {call : Call} (implements : Implements s) (careful : Careful s call) :
    Implements (fileSystem.next s call) := by
  obtain ⟨⟨bounded, short⟩, shortRead, exclusive⟩ := careful
  cases call with
  | «open» path flags => exact implements.of_disciplined ⟨bounded, exclusive, trivial⟩
  | read fd len => exact implements.of_disciplined ⟨bounded, exclusive, shortRead⟩
  | write fd buf len =>
      by_cases nothing : len = 0
      · rw [nothing]
        exact implements.write_nothing fd buf
      · exact implements.of_disciplined ⟨bounded, exclusive, nothing, short⟩
  | lseek fd offset whence => exact implements.lseek fd offset whence
  | close fd => exact implements.of_disciplined ⟨bounded, exclusive, trivial⟩
  | fstat fd => exact implements.of_disciplined ⟨bounded, exclusive, trivial⟩
  | fstatat path => exact implements.of_disciplined ⟨bounded, exclusive, trivial⟩
  | unlink path => exact implements.of_disciplined ⟨bounded, exclusive, trivial⟩

theorem boot {disk : Disk} (wellFormed : (Dir.decode (disk 1)).WellFormed)
    (fits : (Dir.decode (disk 1)).SizesFit)
    (bounded : (Dir.decode (disk 1)).Bounded) : Implements (State.boot disk fun _ => false) :=
  ⟨_, .boot wellFormed fits bounded⟩

end Implements

end AppPortKit.Bmfs
