/-! Failures of the bus and of the chip, with their texts. -/
namespace LedSequencer

/-- Why an operation on the bus or the chip failed. `F` are the faults of the lines. -/
inductive Failure (F : Type) where
  | io (fault : F)
  | invalidLevel (level : UInt8)
  | addressNack (address : UInt8)
  | registerNack (register : UInt8)
  | valueNack (register value : UInt8)
  | programTooLarge (length : Nat)
  | indexOutOfRange (index : Nat)
  deriving DecidableEq

namespace Failure

variable {F : Type}

def isNack : Failure F → Bool
  | addressNack _ | registerNack _ | valueNack _ _ => true
  | _ => false

def kind : Failure F → String
  | io _ => "Io"
  | invalidLevel _ => "InvalidLevel"
  | addressNack _ => "AddressNack"
  | registerNack _ => "RegisterNack"
  | valueNack _ _ => "ValueNack"
  | programTooLarge _ => "ProgramTooLarge"
  | indexOutOfRange _ => "IndexOutOfRange"

/-- The kind with its details, `fault` gives the text of a fault. -/
def text (fault : F → String) (failure : Failure F) : String :=
  failure.kind ++
    match failure with
    | io f => s!"({fault f})"
    | invalidLevel level => s!"({level.toNat})"
    | addressNack address => s!" \x7b address: {address.toNat} \x7d"
    | registerNack register => s!" \x7b register: {register.toNat} \x7d"
    | valueNack register value => s!" \x7b register: {register.toNat}, value: {value.toNat} \x7d"
    | programTooLarge length => s!" \x7b len: {length} \x7d"
    | indexOutOfRange index => s!" \x7b index: {index} \x7d"

end Failure

end LedSequencer
