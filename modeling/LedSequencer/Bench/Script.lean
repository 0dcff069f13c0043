/-! Scripted faults and levels. -/
namespace LedSequencer

inductive Fault where
  | busy
  | notHeld
  | code (n : Nat)
  deriving DecidableEq

def Fault.text : Fault → String
  | busy => "Busy"
  | notHeld => "NotHeld"
  | code n => s!"Code({n})"

inductive CallKind where
  | request
  | release
  | output
  | input
  | read
  | write
  deriving DecidableEq

structure Tally where
  request : Nat
  release : Nat
  output : Nat
  input : Nat
  read : Nat
  write : Nat
  deriving DecidableEq

namespace Tally

def zero : Tally := ⟨0, 0, 0, 0, 0, 0⟩

def of (tally : Tally) : CallKind → Nat
  | .request => tally.request
  | .release => tally.release
  | .output => tally.output
  | .input => tally.input
  | .read => tally.read
  | .write => tally.write

def count (tally : Tally) : CallKind → Tally
  | .request => { tally with request := tally.request + 1 }
  | .release => { tally with release := tally.release + 1 }
  | .output => { tally with output := tally.output + 1 }
  | .input => { tally with input := tally.input + 1 }
  | .read => { tally with read := tally.read + 1 }
  | .write => { tally with write := tally.write + 1 }

end Tally

/-- From the call numbered `index` on, `count` calls of a kind fault with a code. -/
structure FaultRule where
  kind : CallKind
  index : Nat
  count : Nat
  code : Nat
  deriving DecidableEq

structure Script where
  rules : List FaultRule
  level : UInt8
  levels : List (Nat × UInt8)
  deriving DecidableEq

namespace Script

def quiet : Script := ⟨[], 0, []⟩

/-- The fault of a call, by the first rule that speaks of it. Calls of each kind are numbered from 0
on. -/
def fault? (script : Script) (kind : CallKind) (index : Nat) : Option Fault :=
  (script.rules.find? fun rule =>
    rule.kind = kind && rule.index ≤ index && index - rule.index < rule.count).map
      fun rule => .code rule.code

/-- The level of an input, by the last entry for it. -/
def levelAt (script : Script) (index : Nat) : UInt8 :=
  script.levels.foldl (fun level entry => if entry.1 = index then entry.2 else level) script.level

end Script

end LedSequencer
