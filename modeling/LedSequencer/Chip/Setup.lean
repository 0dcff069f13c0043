/-! What the chip is set up with. -/
namespace LedSequencer

inductive PumpMode where
  | off
  | bypass
  | boost
  | auto
  deriving DecidableEq

def PumpMode.selector : PumpMode → UInt8
  | off => 0
  | bypass => 1
  | boost => 2
  | auto => 3

def ledCount : UInt8 := 9

/-- What the chip is set up with: the current of each colour in steps of 0.1 mA, its general
settings, and where engine 1 starts. -/
structure Setup where
  red : UInt8
  green : UInt8
  blue : UInt8
  internalOscillator : Bool
  pumpMode : PumpMode
  powerSave : Bool
  autoIncrement : Bool
  engine1Start : UInt8
  deriving DecidableEq

inductive Setting where
  | red (current : UInt8)
  | green (current : UInt8)
  | blue (current : UInt8)
  | internalOscillator (on : Bool)
  | pumpMode (mode : PumpMode)
  | powerSave (on : Bool)
  | autoIncrement (on : Bool)
  | engine1Start (address : UInt8)
  deriving DecidableEq

namespace Setup

def defaultRed : UInt8 := 10

def defaultGreen : UInt8 := 3

def defaultBlue : UInt8 := 8

def standard : Setup where
  red := defaultRed
  green := defaultGreen
  blue := defaultBlue
  internalOscillator := true
  pumpMode := .auto
  powerSave := false
  autoIncrement := true
  engine1Start := 0

def set (setup : Setup) : Setting → Setup
  | .red current => { setup with red := current }
  | .green current => { setup with green := current }
  | .blue current => { setup with blue := current }
  | .internalOscillator on => { setup with internalOscillator := on }
  | .pumpMode mode => { setup with pumpMode := mode }
  | .powerSave on => { setup with powerSave := on }
  | .autoIncrement on => { setup with autoIncrement := on }
  | .engine1Start address => { setup with engine1Start := address }

def ofSettings (settings : List Setting) : Setup := settings.foldl set standard

/-- The general settings in one byte: bit 0 is the oscillator, bits 3 and 4 the pump mode, bit 5
the power save mode and bit 6 the automatic increment. -/
def misc (setup : Setup) : UInt8 :=
  (if setup.internalOscillator then (0x01 : UInt8) else 0) ||| (setup.pumpMode.selector <<< 3) |||
    (if setup.powerSave then (0x20 : UInt8) else 0) |||
    (if setup.autoIncrement then (0x40 : UInt8) else 0)

def current (setup : Setup) (led : UInt8) : UInt8 :=
  -- LEDs are wired as triples of red, green and blue.
  match led % 3 with
  | 0 => setup.red
  | 1 => setup.green
  | _ => setup.blue

def order : List UInt8 := [0, 1, 2].flatMap fun colour => [colour, colour + 3, colour + 6]

def currents (setup : Setup) : List (UInt8 × UInt8) :=
  order.map fun led => (led, setup.current led)

end Setup

end LedSequencer
