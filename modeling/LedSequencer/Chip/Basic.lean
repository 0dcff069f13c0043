import LedSequencer.Chip.Setup
import LedSequencer.Chip.RegisterMap
import LedSequencer.Notice
import LedSequencer.Routine.Basic

/-! The chip behind its registers: single operations, and bringing it up. -/
namespace LedSequencer

inductive RegisterCall where
  | write (register value : UInt8)
  | writeBlock (start : UInt8) (data : List UInt8)
  deriving DecidableEq

@[reducible] def Interface.registers (F : Type) : Interface :=
  ⟨RegisterCall, fun _ => Except (Failure F) Unit⟩

/-- What is known of the engines from the operations that succeeded. -/
inductive EngineStatus where
  | reset
  | configured
  | loadProgram (page : Page)
  | halted
  | running
  deriving DecidableEq

namespace Chip

/-- Operations on the chip. They keep track of the engines, which are unknown before the first
reset, and end with a value or a failure. -/
abbrev Action (F : Type) :=
  ExceptT (Failure F) (StateT (Option EngineStatus) (Routine (.registers F) (Notice F)))

variable {F : Type}

def access (c : RegisterCall) : Action F Unit :=
  ExceptT.mk (StateT.lift (.call c .done))

def write (register value : UInt8) : Action F Unit := access (.write register value)

def writeBlock (start : UInt8) (data : List UInt8) : Action F Unit :=
  access (.writeBlock start data)

def reached (status : EngineStatus) : Action F Unit := set (some status)

def step (s : ChipStep) (act : Action F Unit) : Action F Unit := reporting (.stepFailed s) act

def reset : Action F Unit := do
  write Register.reset Register.resetAll
  reached .reset

def enable (on : Bool) : Action F Unit :=
  write Register.config (if on then Register.chipEnable else 0)

def setCurrent (led current : UInt8) : Action F Unit :=
  -- It is for the caller to name an LED that there is.
  if led < ledCount then write (Register.ledCurrent led) current
  else ExceptT.mk fun _ => .abort

def selectPage (page : Page) : Action F Unit := write Register.pageSelect page.selector

def loadEngines : Action F Unit := write Register.engineControl2 Register.enginesLoad

def haltEngines : Action F Unit := do
  write Register.engineControl2 Register.enginesHalt
  reached .halted

def runEngine : Action F Unit := do
  step .run (write Register.engineControl2 Register.engine1Run)
  step .freeRun (write Register.engineControl1 Register.engine1FreeRun)
  reached .running

/-- Resets, enables and configures the chip, up to the first failure. It can be tried again. -/
def bringUp (setup : Setup) : Action F Unit := do
  step .reset reset
  step .enable (enable true)
  step .configure (write Register.misc setup.misc)
  step .startAddress (write Register.engine1Start setup.engine1Start)
  setup.currents.forM fun (led, current) =>
    step (.ledCurrent led) (setCurrent led current)
  reached .configured
  Journal.note (Notice.chipConfigured : Notice F)

end Chip

end LedSequencer
