import LedSequencer.Bus.Transaction
import LedSequencer.Chip.Basic

/-! The chip at the end of a bus. -/
namespace LedSequencer

/-- A device on a bus. Its address is the byte that goes over the wire. -/
structure Device (L : Type) where
  bus : Bus L
  address : UInt8

namespace Device

variable {L F α : Type}

def chipAddress : UInt8 := 0x64

def answer (device : Device L) :
    RegisterCall → Routine (.lines L F) (Notice F) (Except (Failure F) Unit)
  | .write register value => (device.bus.transact device.address register value).run
  | .writeBlock start data => (device.bus.writeBlock device.address start data).run

abbrev Action (L F : Type) :=
  ExceptT (Failure F) (StateT (Option EngineStatus) (Routine (.lines L F) (Notice F)))

/-- Carries an operation on the chip out over the bus. -/
def perform (device : Device L) (act : Chip.Action F α) : Action L F α :=
  ExceptT.mk fun state => (act.run.run state).handle device.answer

def wait (milliseconds : UInt32) : Action L F Unit :=
  ExceptT.mk (StateT.lift (Bus.wait milliseconds).run)

end Device

end LedSequencer
