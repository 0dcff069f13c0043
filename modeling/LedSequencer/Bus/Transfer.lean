import LedSequencer.Bus.Basic

/-! Start and stop conditions, bits and bytes on a bus. Half a clock period passes after every
change of a line. -/
namespace LedSequencer.Bus

variable {L F : Type} (bus : Bus L)

def setClock (high : Bool) : Action L F Unit := attempt (.call (.drive bus.clock high) .done)

def setData (high : Bool) : Action L F Unit := attempt (.call (.drive bus.data high) .done)

def sampleData : Action L F UInt8 := attempt (.call (.sample bus.data) .done)

/-- A level other than 0 and 1 is no bit. -/
def checkLevel (level : UInt8) : Action L F UInt8 :=
  if level ≤ 1 then pure level
  else reporting (fun _ => .badLevel level) (throw (.invalidLevel level))

/-- A start condition: the data line falls while the clock is high. -/
def start : Action L F Unit := do
  bus.settle
  bus.setData true
  bus.settle
  bus.setClock true
  bus.settle
  bus.setData false
  bus.settle

/-- A stop condition: the data line rises while the clock is high. It leaves the bus idle. -/
def stop : Action L F Unit := do
  bus.setClock false
  bus.settle
  bus.setData false
  bus.settle
  bus.setClock true
  bus.settle
  bus.setData true
  bus.settle

/-- Clocks out a bit. The data line moves while the clock is low, the receiver looks at it while
the clock is high. -/
def sendBit (bit : Bool) : Action L F Unit := do
  bus.setClock false
  bus.settle
  bus.setData bit
  bus.settle
  bus.setClock true
  bus.settle
  bus.settle

def receiveBit : Action L F UInt8 := do
  bus.setClock true
  bus.settle
  let level ← checkLevel (← bus.sampleData)
  bus.settle
  bus.setClock false
  bus.settle
  bus.settle
  return level

/-- Lets go of the data line, so that the receiver can drive it. -/
def letGo : Action L F Unit := do
  bus.setClock false
  bus.settle
  bus.setData true
  bus.settle
  -- The sample turns the line into an input, its level is of no interest yet.
  let _ ← bus.sampleData

/-- The bits of a byte, the most significant first. -/
def bitsOf (byte : UInt8) : List Bool :=
  [7, 6, 5, 4, 3, 2, 1, 0].map fun place : UInt8 => byte &&& (1 <<< place) != 0

def sendByte (byte : UInt8) : Action L F Acknowledge := do
  (bitsOf byte).forM bus.sendBit
  bus.settle
  bus.letGo
  return .ofLevel (← bus.receiveBit)

end LedSequencer.Bus
