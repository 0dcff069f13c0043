import LedSequencer.Routine.Basic

/-! Digital lines as an interface. -/
namespace LedSequencer

/-- Calls on digital lines that are named by `L`, and for the passing of time: taking and giving
up a line, driving it to a level, sampling it, and delays of microseconds and milliseconds. -/
inductive LineCall (L : Type) where
  | request (line : L)
  | release (line : L)
  | drive (line : L) (high : Bool)
  | sample (line : L)
  | settle (microseconds : UInt32)
  | wait (milliseconds : UInt32)
  deriving DecidableEq

/-- A sample gives the raw level, which need not be 0 or 1. Every call on a line may fault, a
delay may not. -/
@[reducible] def LineCall.Reply (F : Type) {L : Type} : LineCall L → Type
  | request _ | release _ | drive _ _ => Except F Unit
  | sample _ => Except F UInt8
  | settle _ | wait _ => Unit

@[reducible] def Interface.lines (L F : Type) : Interface := ⟨LineCall L, LineCall.Reply F⟩

end LedSequencer
