import LedSequencer.Bench.Script
import LedSequencer.Line.OpenDrain
import LedSequencer.Routine.Run

/-! Lines on a bench. -/
namespace LedSequencer

/-- Lines on a bench. A line has at most one holder, faults and levels follow a script, and only so
many waits return. -/
structure LineBench (L : Type) where
  script : Script
  calls : Tally
  held : List L
  waitsLeft : Nat

namespace LineBench

variable {L : Type}

def fresh (script : Script) (waits : Nat) : LineBench L := ⟨script, .zero, [], waits⟩

def rescript (bench : LineBench L) (script : Script) : LineBench L :=
  { bench with script := script, calls := .zero }

def fault? (bench : LineBench L) (kind : CallKind) : Option Fault :=
  bench.script.fault? kind (bench.calls.of kind)

def count (bench : LineBench L) (kind : CallKind) : LineBench L :=
  { bench with calls := bench.calls.count kind }

variable [DecidableEq L]

def hold (bench : LineBench L) (line : L) : LineBench L :=
  { bench with held := bench.held ++ [line] }

def free (bench : LineBench L) (line : L) : LineBench L :=
  { bench with held := bench.held.filter (· ≠ line) }

/-- Faults of the script come first. Taking a line that is held, or giving up one that is not,
faults too. -/
def world : World (.lines L Fault) (LineBench L)
  | .request line, bench =>
    match bench.fault? .request with
    | some fault => some (.error fault, bench.count .request)
    | none =>
      if line ∈ bench.held then some (.error .busy, bench.count .request)
      else some (.ok (), (bench.count .request).hold line)
  | .release line, bench =>
    match bench.fault? .release with
    | some fault => some (.error fault, bench.count .release)
    | none =>
      if line ∈ bench.held then some (.ok (), (bench.count .release).free line)
      else some (.error .notHeld, bench.count .release)
  | .drive _ _, bench =>
    match bench.fault? .output with
    | some fault => some (.error fault, bench.count .output)
    | none => some (.ok (), bench.count .output)
  | .sample _, bench =>
    match bench.fault? .input with
    | some fault => some (.error fault, bench.count .input)
    | none => some (.ok (bench.script.levelAt bench.calls.input), bench.count .input)
  | .settle _, bench => some ((), bench)
  | .wait _, bench =>
    match bench.waitsLeft with
    | 0 => none
    | waits + 1 => some ((), { bench with waitsLeft := waits })

end LineBench

/-- Lines as open-drain pins: a pin is high unless its level is 0. -/
def linesAsPins {L F N : Type} : (c : PinCall L) → Routine (.lines L F) N (PinCall.Reply F c)
  | .set pin high => .call (.drive pin high) .done
  | .isHigh pin => .call (.sample pin) fun reply => .done (reply.map (· != 0))
  | .settle us => .call (.settle us) .done
  | .wait ms => .call (.wait ms) .done

end LedSequencer
