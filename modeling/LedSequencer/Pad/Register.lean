import LedSequencer.Text.Hex

/-! The control register of a group of pads. -/
namespace LedSequencer

/-- The settings of a group of pads. The drive strength counts in steps of 2 mA from 2 mA on. -/
structure PadSettings where
  slew : Bool
  hysteresis : Bool
  drive : UInt8
  deriving DecidableEq

structure PadRegister where
  word : UInt32
  deriving DecidableEq

namespace PadRegister

def driveMask : UInt32 := 0x7

def hysteresisBit : UInt32 := 0x8

def slewBit : UInt32 := 0x10

/-- The byte that a write carries at the top, the hardware ignores any other write. -/
def password : UInt32 := 0x5A

def settingsMask : UInt32 := driveMask ||| hysteresisBit ||| slewBit ||| 0xFF000000

def drive (control : PadRegister) : UInt8 := (control.word &&& driveMask).toUInt8

def hysteresis (control : PadRegister) : Bool := control.word &&& hysteresisBit != 0

def slew (control : PadRegister) : Bool := control.word &&& slewBit != 0

/-- The register with new settings. Reserved bits stay. -/
def apply (control : PadRegister) (settings : PadSettings) : PadRegister :=
  ⟨(control.word &&& ~~~settingsMask) ||| (settings.drive.toUInt32 &&& driveMask) |||
    (if settings.hysteresis then hysteresisBit else 0) |||
    (if settings.slew then slewBit else 0) |||
    (password <<< 24)⟩

private def digit (on : Bool) : String := if on then "1" else "0"

def text (control : PadRegister) : String :=
  s!"{hexWord control.word.toNat} (slew: {digit control.slew}, " ++
    s!"hyst: {digit control.hysteresis}, drive: {control.drive.toNat})"

end PadRegister

end LedSequencer
