import LedSequencer.Line.Basic

/-! Lines on a pair of open-drain pins. -/
namespace LedSequencer

inductive Signal where
  | clock
  | data
  deriving DecidableEq

/-- Calls on open-drain pins that are named by `P`. Setting a pin high leaves it to its pull-up. -/
inductive PinCall (P : Type) where
  | set (pin : P) (high : Bool)
  | isHigh (pin : P)
  | settle (microseconds : UInt32)
  | wait (milliseconds : UInt32)
  deriving DecidableEq

@[reducible] def PinCall.Reply (F : Type) {P : Type} : PinCall P → Type
  | set _ _ => Except F Unit
  | isHigh _ => Except F Bool
  | settle _ | wait _ => Unit

@[reducible] def Interface.pins (P F : Type) : Interface := ⟨PinCall P, PinCall.Reply F⟩

structure PinPair (P : Type) where
  clock : P
  data : P

namespace PinPair

variable {P F N : Type}

def pin (pair : PinPair P) : Signal → P
  | .clock => pair.clock
  | .data => pair.data

def sample (pair : PinPair P) (line : Signal) : Routine (.pins P F) N (Except F UInt8) :=
  -- The pin is let go, so that the other side can pull it low.
  .call (.set (pair.pin line) true) fun
    | .error fault => .done (.error fault)
    | .ok () => .call (.isHigh (pair.pin line)) fun reply =>
      .done (reply.map fun high => if high then 1 else 0)

def answer (pair : PinPair P) : (c : LineCall Signal) → Routine (.pins P F) N (LineCall.Reply F c)
  -- The pins are the pair's own, so taking and giving up a line always succeeds without a call.
  | .request _ | .release _ => .done (.ok ())
  | .drive line high => .call (.set (pair.pin line) high) .done
  | .sample line => pair.sample line
  | .settle us => .call (.settle us) .done
  | .wait ms => .call (.wait ms) .done

def release (pair : PinPair P) : P × P := (pair.clock, pair.data)

end PinPair

end LedSequencer
