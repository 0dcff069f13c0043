import LedSequencer.Chip.Basic
import LedSequencer.Routine.Run

/-! A chip on a bench. -/
namespace LedSequencer

/-- A device on a bench that only takes note of accesses. `failing` are the numbers of those that
fail, and how; `accesses` counts them. -/
structure RegisterBench (F : Type) where
  failing : List (Nat × Failure F)
  accesses : Nat

namespace RegisterBench

variable {F : Type}

/-- The failure of the next access, by the last entry for it. -/
def failure? (bench : RegisterBench F) : Option (Failure F) :=
  bench.failing.foldl
    (fun found entry => if entry.1 = bench.accesses then some entry.2 else found) none

def recount (bench : RegisterBench F) : RegisterBench F := { bench with accesses := 0 }

def world : World (.registers F) (RegisterBench F)
  | _, bench =>
    some (match bench.failure? with | some failure => .error failure | none => .ok (),
      { bench with accesses := bench.accesses + 1 })

end RegisterBench

end LedSequencer
