import LedSequencer.Engine.Tape
import LedSequencer.Failure

/-! Commands to the LEDs and how they fail. -/
namespace LedSequencer

inductive Command where
  | boot
  | haltedError
  deriving DecidableEq

inductive Phase where
  | acquire
  | init
  | play
  | release
  deriving DecidableEq

/-- A failed command: the first failure, and that of giving the bus back if it followed one. -/
structure CommandFailure (F : Type) where
  phase : Phase
  error : Failure F
  teardown : Option (Failure F)
  deriving DecidableEq

def Command.tape : Command → Tape
  | boot => .boot
  | haltedError => .error

def Command.text : Command → String
  | boot => "Boot"
  | haltedError => "HaltedError"

def Phase.text : Phase → String
  | acquire => "Acquire"
  | init => "Init"
  | play => "Play"
  | release => "Release"

end LedSequencer
