import LedSequencer.Engine.Page

/-! The code of an LED engine. -/
namespace LedSequencer

/-- Instructions of an LED engine. They act on the LEDs of the selected row of a mux table. -/
inductive Instruction where
  /-- Load the start address of the mux table and select its first row. -/
  | mapStart (address : UInt8)
  /-- Load the end address of the mux table. -/
  | loadEnd (address : UInt8)
  /-- Select the next row, after the last one the first. -/
  | mapNext
  /-- Set the brightness of the mapped LEDs. -/
  | setPwm (pwm : UInt8)
  /-- Pause for some steps of 0.49 ms, or 15.6 ms with the prescaler. -/
  | wait (prescale : Bool) (steps : UInt8)
  /-- Jump to a step some times, zero stands for ever. -/
  | branch (loops step : UInt8)
  deriving DecidableEq

namespace Instruction

def encode : Instruction → List UInt8
  -- Addresses and steps keep 7 bits of an argument, loops 6 and waits 5.
  | mapStart address => [0x9C, address &&& 0x7F]
  | loadEnd address => [0x9C, 0x80 ||| (address &&& 0x7F)]
  | mapNext => [0x9D, 0x80]
  | setPwm pwm => [0x40, pwm]
  | wait prescale steps =>
    bigEndian ((if prescale then (0x4000 : UInt16) else 0) ||| ((steps.toUInt16 &&& 0x1F) <<< 9))
  | branch loops step =>
    bigEndian ((0xA000 : UInt16) ||| ((loops.toUInt16 &&& 0x3F) <<< 7) ||| (step.toUInt16 &&& 0x7F))

def assemble (program : List Instruction) : List UInt8 := program.flatMap encode

theorem length_encode (i : Instruction) : i.encode.length = 2 := by cases i <;> rfl

theorem length_assemble (program : List Instruction) :
    (assemble program).length = 2 * program.length := by
  induction program with
  | nil => rfl
  | cons i program ih =>
    have hrest : (program.flatMap encode).length = 2 * program.length := ih
    rw [assemble, List.flatMap_cons, List.length_append, length_encode, hrest, List.length_cons]
    omega

end Instruction

end LedSequencer
