import LedSequencer.Chip.Memory
import LedSequencer.Proofs.Chip.Moves

/-! What the registers of the chip hold after accesses. Main statement: filling a page changes none
of the registers outside program memory. -/
namespace LedSequencer.ChipMemory

variable {F N : Type} (memory : ChipMemory)

def afterCalls (calls : List (AnsweredAccess F)) : ChipMemory :=
  calls.foldl (fun memory call =>
    memory.next (.called call.1 call.2 : Event (.registers F) (Notice F))) memory

/-- Notices change nothing. -/
theorem afterAll_eq_afterCalls (events : List (Event (.registers F) N)) :
    memory.afterAll events = memory.afterCalls (callsOf events) := by
  induction events generalizing memory with
  | nil => rfl
  | cons e events ih =>
    cases e with
    | called c reply =>
      cases reply with
      | error failure => exact ih memory
      | ok => exact ih _
    | noted n => exact ih memory

theorem registers_writePaged (register value : UInt8) :
    (memory.writePaged register value).registers = memory.registers := by
  unfold writePaged
  split <;> rfl

/-- Program memory is seen through its registers, it is not in them. -/
theorem registers_write_paged {register : UInt8} (h : isPaged register = true) (value : UInt8) :
    (memory.write register value).registers = memory.registers := by
  have hreset : ¬ (register = Register.reset ∧ value = Register.resetAll) := by
    rintro ⟨rfl, _⟩
    exact absurd h (by decide)
  rw [write, if_neg hreset, if_pos h]
  exact memory.registers_writePaged register value

theorem registers_write_self {register : UInt8} (hreset : register ≠ Register.reset)
    (h : isPaged register = false) (value : UInt8) :
    (memory.write register value).registers register = some value := by
  simp [write, hreset, h]

theorem registers_write_of_ne {register other : UInt8} (hreset : register ≠ Register.reset)
    (hne : other ≠ register) (value : UInt8) :
    (memory.write register value).registers other = memory.registers other := by
  cases h : isPaged register with
  | true => rw [registers_write_paged memory h]
  | false => simp [write, hreset, h, hne]

theorem isPaged_programMemory {offset : Nat} (h : offset < Page.size) :
    isPaged (Register.programMemory + UInt8.ofNat offset) = true := by
  have hall : ∀ offset < 32, isPaged (Register.programMemory + UInt8.ofNat offset) = true := by
    decide
  exact hall offset h

/-- Every byte of a buffer that fits goes into program memory. -/
theorem isPaged_of_mem_writes {data : List UInt8} (hfits : data.length ≤ Page.size)
    {w : UInt8 × UInt8} (hw : w ∈ (RegisterCall.writeBlock Register.programMemory data).writes) :
    isPaged w.1 = true := by
  obtain ⟨offset, hoffset, rfl⟩ := List.mem_mapIdx.1 hw
  exact isPaged_programMemory (Nat.lt_of_lt_of_le hoffset hfits)

def writeAll (writes : List (UInt8 × UInt8)) : ChipMemory :=
  writes.foldl (fun memory w => memory.write w.1 w.2) memory

theorem writeAll_append (a b : List (UInt8 × UInt8)) :
    memory.writeAll (a ++ b) = (memory.writeAll a).writeAll b :=
  List.foldl_append

/-- Writes leave the registers that they do not write as they are. -/
theorem registers_writeAll {writes : List (UInt8 × UInt8)} {register : UInt8}
    (h : ∀ w ∈ writes, isPaged w.1 = true ∨ w.1 ≠ Register.reset ∧ register ≠ w.1) :
    (memory.writeAll writes).registers register = memory.registers register := by
  induction writes generalizing memory with
  | nil => rfl
  | cons w writes ih =>
    obtain ⟨hfirst, hrest⟩ := List.forall_mem_cons.1 h
    have hw : (memory.write w.1 w.2).registers register = memory.registers register := by
      obtain hpaged | ⟨hreset, hne⟩ := hfirst
      · rw [registers_write_paged memory hpaged]
      · exact memory.registers_write_of_ne hreset hne w.2
    exact (ih _ hrest).trans hw

/-- A register holds what was written into it last. -/
theorem registers_writeAll_last (before : List (UInt8 × UInt8)) {w : UInt8 × UInt8}
    {later : List (UInt8 × UInt8)} (hreset : w.1 ≠ Register.reset) (hpaged : isPaged w.1 = false)
    (hlater : ∀ other ∈ later,
      isPaged other.1 = true ∨ other.1 ≠ Register.reset ∧ w.1 ≠ other.1) :
    (memory.writeAll (before ++ w :: later)).registers w.1 = some w.2 := by
  rw [writeAll_append]
  refine (registers_writeAll _ hlater).trans ?_
  exact (memory.writeAll before).registers_write_self hreset hpaged w.2

/-- Accesses that all succeed make all of their writes. -/
theorem afterCalls_made (accesses : List RegisterCall) :
    memory.afterCalls (accesses.map (AnsweredAccess.made (F := F))) =
      memory.writeAll (accesses.flatMap RegisterCall.writes) := by
  induction accesses generalizing memory with
  | nil => rfl
  | cons c accesses ih =>
    rw [List.flatMap_cons, writeAll_append]
    exact ih _

/-- Single writes count if they succeed; one that fails changes nothing. -/
theorem afterCalls_writes (writes : List (UInt8 × UInt8)) :
    memory.afterCalls (writes.map fun w => (.made (.write w.1 w.2) : AnsweredAccess F)) =
      memory.writeAll writes := by
  induction writes generalizing memory with
  | nil => rfl
  | cons w writes ih => exact ih (memory.write w.1 w.2)

theorem afterCalls_missed (calls : List (AnsweredAccess F)) (c : RegisterCall)
    (failure : Failure F) : memory.afterCalls (calls ++ [.missed c failure]) =
      memory.afterCalls calls :=
  List.foldl_append

/-- Filling a page leaves the other registers as they are. -/
theorem registers_next_fill {data : List UInt8} (hfits : data.length ≤ Page.size) :
    (memory.next (.called (.writeBlock Register.programMemory data) (.ok ()) :
      Event (.registers F) N)).registers = memory.registers :=
  funext fun _ => memory.registers_writeAll fun _ hw => Or.inl (isPaged_of_mem_writes hfits hw)

end LedSequencer.ChipMemory
