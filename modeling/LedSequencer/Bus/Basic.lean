import LedSequencer.Line.Basic
import LedSequencer.Notice

/-! A two-wire bus: taking it, giving it back and its delays. -/
namespace LedSequencer

/-- A two-wire bus: its lines, and half the period of its clock in microseconds. -/
structure Bus (L : Type) where
  clock : L
  data : L
  halfPeriod : UInt32
  deriving DecidableEq

inductive Acknowledge where
  | ack
  | nack
  deriving DecidableEq

namespace Acknowledge

/-- The receiver acknowledges by pulling the line low. -/
def ofLevel (level : UInt8) : Acknowledge := if level = 0 then ack else nack

def isAck : Acknowledge → Bool
  | ack => true
  | nack => false

end Acknowledge

namespace Bus

variable {L F α : Type}

abbrev Action (L F : Type) := ExceptT (Failure F) (Routine (.lines L F) (Notice F))

-- Gives a clock of roughly 100 kHz.
def defaultHalfPeriod : UInt32 := 5

-- The lines on the reference board.
def defaultClock : UInt8 := 3
def defaultData : UInt8 := 2

def attempt (call : Routine (.lines L F) (Notice F) (Except F α)) : Action L F α :=
  ExceptT.mk (Except.mapError Failure.io <$> call)

def takeLine (line : L) : Action L F Unit := attempt (.call (.request line) .done)

def freeLine (line : L) : Action L F Unit := attempt (.call (.release line) .done)

def acquire (bus : Bus L) : Action L F Unit := do
  reporting (fun _ => .requestFailed true) (takeLine bus.clock)
  -- The clock line is given back if the data line cannot be had.
  tryCatch (reporting (fun _ => .requestFailed false) (takeLine bus.data)) fun failure => do
    tryCatch (reporting (fun _ => .rollbackFailed) (freeLine bus.clock)) fun _ => pure ()
    throw failure
  Journal.note (Notice.busAcquired bus.halfPeriod)

def release (bus : Bus L) : Action L F Unit := ExceptT.mk do
  -- The data line is given up even if the clock line faults, and the first failure counts.
  let clock ← (reporting (fun _ => .freeFailed true) (freeLine bus.clock)).run
  let data ← (reporting (fun _ => .freeFailed false) (freeLine bus.data)).run
  return (do clock; data)

def wait (milliseconds : UInt32) : Action L F Unit :=
  ExceptT.lift (.call (.wait milliseconds) .done)

def settle (bus : Bus L) : Action L F Unit :=
  ExceptT.lift (.call (.settle bus.halfPeriod) .done)

end Bus

end LedSequencer
