import LedSequencer.Line.Basic
import LedSequencer.Routine.Run

/-! The cost of a run in calls and delays. -/
namespace LedSequencer

/-- What a run cost: how often it drove and sampled a line, the microseconds that it let pass in
all, and its waits in milliseconds. -/
structure Usage where
  outputs : Nat
  inputs : Nat
  settled : Nat
  waits : List Nat
  deriving DecidableEq

namespace Usage

variable {L F N : Type}

def cons (e : Event (.lines L F) N) (usage : Usage) : Usage :=
  -- Calls that fault cost as much as others.
  match e with
  | .called (.drive _ _) _ => { usage with outputs := usage.outputs + 1 }
  | .called (.sample _) _ => { usage with inputs := usage.inputs + 1 }
  | .called (.settle us) _ => { usage with settled := us.toNat + usage.settled }
  | .called (.wait ms) _ => { usage with waits := ms.toNat :: usage.waits }
  | .called (.request _) _ | .called (.release _) _ | .noted _ => usage

def ofEvents (events : List (Event (.lines L F) N)) : Usage := events.foldr cons ⟨0, 0, 0, []⟩

end Usage

end LedSequencer
