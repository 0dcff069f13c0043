/-! The registers of the chip that are written, and the values that are written into them. -/
namespace LedSequencer.Register

def config : UInt8 := 0x00
def engineControl1 : UInt8 := 0x01
def engineControl2 : UInt8 := 0x02
def firstLedCurrent : UInt8 := 0x22
def misc : UInt8 := 0x2F
def reset : UInt8 := 0x3F
def engine1Start : UInt8 := 0x4B
def pageSelect : UInt8 := 0x4F

-- A page of program memory is seen in the registers from here on.
def programMemory : UInt8 := 0x50

def ledCurrent (led : UInt8) : UInt8 := firstLedCurrent + led

-- What is written into `reset`, `config` and `engineControl1`, and into `engineControl2`.
def resetAll : UInt8 := 0xFF
def chipEnable : UInt8 := 0x40
def engine1FreeRun : UInt8 := 0x80
def enginesLoad : UInt8 := 0x40 ||| 0x10 ||| 0x04
def engine1Run : UInt8 := 0x80
def enginesHalt : UInt8 := 0x00

end LedSequencer.Register
