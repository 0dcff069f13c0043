import LedSequencer.Chip.Sequence
import LedSequencer.Routine.Run

/-! The chip as a memory: what its registers and its pages hold after some accesses. -/
namespace LedSequencer

/-- What the registers of the chip hold, as far as it is known, and the two pages of program memory.
The registers of program memory show one page at a time. -/
structure ChipMemory where
  registers : UInt8 → Option UInt8
  pages : Page → List UInt8

namespace ChipMemory

def shown? (memory : ChipMemory) : Option Page :=
  match memory.registers Register.pageSelect with
  | some 0 => some .program
  | some 1 => some .ledMux
  | _ => none

def isPaged (register : UInt8) : Bool :=
  Register.programMemory ≤ register &&
    (register - Register.programMemory).toNat < Page.size

def writePaged (memory : ChipMemory) (register value : UInt8) : ChipMemory :=
  match memory.shown? with
  | none => memory
  | some page =>
    { memory with
      pages := fun p =>
        if p = page then (memory.pages p).set (register - Register.programMemory).toNat value
        else memory.pages p }

def write (memory : ChipMemory) (register value : UInt8) : ChipMemory :=
  -- A reset leaves no register known.
  if register = Register.reset ∧ value = Register.resetAll then
    { memory with registers := fun _ => none }
  else if isPaged register then memory.writePaged register value
  else
    { memory with registers := fun r => if r = register then some value else memory.registers r }

def next {F N : Type} (memory : ChipMemory) : Event (.registers F) N → ChipMemory
  | .called c (.ok ()) => c.writes.foldl (fun memory w => memory.write w.1 w.2) memory
  | .called _ (.error _) | .noted _ => memory

def afterAll {F N : Type} (memory : ChipMemory) (events : List (Event (.registers F) N)) :
    ChipMemory :=
  events.foldl next memory

theorem afterAll_append {F N : Type} (memory : ChipMemory) (a b : List (Event (.registers F) N)) :
    memory.afterAll (a ++ b) = (memory.afterAll a).afterAll b :=
  List.foldl_append

end ChipMemory

end LedSequencer
