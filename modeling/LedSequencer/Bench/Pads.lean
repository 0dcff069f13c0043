import LedSequencer.Bench.Script
import LedSequencer.Pad.Basic
import LedSequencer.Routine.Run

/-! Pads on a bench. -/
namespace LedSequencer

structure PadBench where
  script : Script
  calls : Tally
  words : List UInt32

/-- Pad accesses on the bench. Pads that there are not read as 0. A faulty write changes nothing. -/
def PadBench.world : World (.pads Fault) PadBench
  | .read pad, bench =>
    let counted := { bench with calls := bench.calls.count .read }
    match bench.script.fault? .read bench.calls.read with
    | some fault => some (.error fault, counted)
    | none => some (.ok (bench.words.getD pad.toNat 0), counted)
  | .write pad value, bench =>
    let counted := { bench with calls := bench.calls.count .write }
    match bench.script.fault? .write bench.calls.write with
    | some fault => some (.error fault, counted)
    | none => some (.ok (), { counted with words := bench.words.set pad.toNat value })

end LedSequencer
