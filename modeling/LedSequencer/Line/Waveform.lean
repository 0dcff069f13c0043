import LedSequencer.Line.Basic
import LedSequencer.Routine.Run

/-! What the calls on two lines look like from the other end of the bus: levels and edges. Main
statement: the waveform of a sequence is the waveforms of its parts, one after the other. -/
namespace LedSequencer

structure Levels where
  clock : Bool
  data : Bool
  deriving DecidableEq

/-- What a receiver can tell apart on a bus: a clock pulse begins with the data line at some level,
or the data line falls (a start condition) or rises (a stop condition) while the clock is high. -/
inductive Edge where
  | clockRise (data : Bool)
  | start
  | stop
  deriving DecidableEq

namespace Levels

/-- Both lines high, as the pull-ups leave them. -/
def idle : Levels := ⟨true, true⟩

def drive (levels : Levels) (onClock high : Bool) : Levels :=
  if onClock then { levels with clock := high } else { levels with data := high }

def edge? (levels : Levels) (onClock high : Bool) : Option Edge :=
  if onClock then
    if high && !levels.clock then some (.clockRise levels.data) else none
  else if levels.clock && levels.data != high then
    some (if high then .stop else .start)
  else none

end Levels

section Events

variable {L F N : Type} [DecidableEq L]

/-- Which line an event drove, and how, if it drove one. -/
def Event.driven? (clock : L) : Event (.lines L F) N → Option (Bool × Bool)
  -- Every line but the clock counts as the data line.
  | .called (.drive line high) (.ok ()) => some (decide (line = clock), high)
  -- A drive that faults moves nothing.
  | _ => none

def Levels.next (clock : L) (levels : Levels) (e : Event (.lines L F) N) : Levels :=
  match e.driven? clock with
  | some (onClock, high) => levels.drive onClock high
  | none => levels

def Event.edge? (clock : L) (levels : Levels) (e : Event (.lines L F) N) : Option Edge :=
  match e.driven? clock with
  | some (onClock, high) => levels.edge? onClock high
  | none => none

def Levels.afterAll (clock : L) (levels : Levels) (events : List (Event (.lines L F) N)) : Levels :=
  events.foldl (Levels.next clock) levels

/-- The edges that a list of events puts on the bus. -/
def waveform (clock : L) : Levels → List (Event (.lines L F) N) → List Edge
  | _, [] => []
  | levels, e :: events =>
    (e.edge? clock levels).toList ++ waveform clock (levels.next clock e) events

theorem Levels.afterAll_append (clock : L) (levels : Levels) (a b : List (Event (.lines L F) N)) :
    levels.afterAll clock (a ++ b) = (levels.afterAll clock a).afterAll clock b :=
  List.foldl_append

theorem waveform_append (clock : L) (levels : Levels) (a b : List (Event (.lines L F) N)) :
    waveform clock levels (a ++ b) =
      waveform clock levels a ++ waveform clock (levels.afterAll clock a) b := by
  induction a generalizing levels with
  | nil => rfl
  | cons e a ih =>
    rw [List.cons_append, waveform, waveform, ih, List.append_assoc]
    rfl

end Events

end LedSequencer
