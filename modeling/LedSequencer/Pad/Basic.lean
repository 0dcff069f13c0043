import LedSequencer.Pad.Register
import LedSequencer.Notice
import LedSequencer.Routine.Basic

/-! Changing the settings of the pads. -/
namespace LedSequencer

inductive PadCall where
  | read (pad : UInt8)
  | write (pad : UInt8) (value : UInt32)
  deriving DecidableEq

@[reducible] def PadCall.Reply (F : Type) : PadCall → Type
  | read _ => Except F UInt32
  | write _ _ => Except F Unit

@[reducible] def Interface.pads (F : Type) : Interface := ⟨PadCall, PadCall.Reply F⟩

inductive PadFailure (F : Type) where
  | access (fault : F)
  | invalidPad (pad : UInt8)
  | invalidDrive (drive : UInt8)
  deriving DecidableEq

namespace PadFailure

variable {F : Type}

def kind : PadFailure F → String
  | access _ => "Access"
  | invalidPad _ => "InvalidPad"
  | invalidDrive _ => "InvalidDrive"

def text (fault : F → String) (e : PadFailure F) : String :=
  e.kind ++
    match e with
    | access f => s!"({fault f})"
    | invalidPad pad => s!"({pad.toNat})"
    | invalidDrive drive => s!"({drive.toNat})"

end PadFailure

/-- What is left in the log about a pad: the control word found, and the one it is given. -/
inductive PadNotice where
  | found (pad : UInt8) (control : PadRegister)
  | giving (pad : UInt8) (control : PadRegister)
  deriving DecidableEq

namespace PadNotice

def severity : PadNotice → Severity
  | found _ _ | giving _ _ => .debug

def text : PadNotice → String
  | found pad control => s!"pad {pad.toNat} control: {hex control.word.toNat}"
  | giving pad control => s!"set pad {pad.toNat} control: {hex control.word.toNat}"

end PadNotice

namespace Pad

variable {F : Type}

abbrev Action (F : Type) := ExceptT (PadFailure F) (Routine (.pads F) PadNotice)

def count : UInt8 := 4

/-- The highest drive strength, 16 mA. -/
def maxDrive : UInt8 := 7

def read (pad : UInt8) : Action F PadRegister :=
  ExceptT.mk (.call (.read pad) fun reply =>
    .done ((reply.map PadRegister.mk).mapError PadFailure.access))

def write (pad : UInt8) (control : PadRegister) : Action F Unit :=
  ExceptT.mk (.call (.write pad control.word) fun reply => .done (reply.mapError PadFailure.access))

/-- Gives a pad new settings, and returns the control word that was written. -/
def configure (pad : UInt8) (settings : PadSettings) : Action F PadRegister :=
  -- Nothing is read or written before the arguments are found valid.
  if pad ≥ count then throw (.invalidPad pad)
  else if settings.drive > maxDrive then throw (.invalidDrive settings.drive)
  else do
    let current ← read pad
    Journal.note (PadNotice.found pad current)
    let control := current.apply settings
    Journal.note (PadNotice.giving pad control)
    write pad control
    return control

end Pad

end LedSequencer
