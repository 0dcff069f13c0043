import LedSequencer.Bus.Transfer

/-! Register writes on a bus, alone and in a row. -/
namespace LedSequencer.Bus

variable {L F : Type} (bus : Bus L)

def sendAcked (byte : UInt8) (missing : Failure F) : Action L F Unit := do
  match ← bus.sendByte byte with
  | .ack => return
  | .nack => throw missing

def sendPart (part : BytePart) (byte : UInt8) (missing : Failure F) : Action L F Unit :=
  reporting (fun _ => .byteFailed part byte) (bus.sendAcked byte missing)

def sendFrame (address register value : UInt8) : Action L F Unit := do
  bus.sendPart .address address (.addressNack address)
  bus.sendPart .register register (.registerNack register)
  bus.sendPart .value value (.valueNack register value)

/-- Writes a register of the device at `address` in one transaction. -/
def transact (address register value : UInt8) : Action L F Unit := do
  Journal.note (Notice.writing register value)
  bus.start
  -- From here on a stop condition follows in any case, and the first failure counts.
  tryCatch (bus.sendFrame address register value) fun failure => do
    tryCatch (reporting (.stopFailed register) bus.stop) fun _ => pure ()
    throw failure
  bus.stop

/-- Writes bytes into consecutive registers, one transaction each, up to the first failure. The
register after 255 is 0. `offset` counts the bytes before these. -/
def writeFrom (address register : UInt8) (offset : Nat) : List UInt8 → Action L F Unit
  | [] => return
  | value :: values => do
    reporting (fun _ => .bulkFailed offset) (bus.transact address register value)
    writeFrom address (register + 1) (offset + 1) values

def writeBlock (address register : UInt8) (data : List UInt8) : Action L F Unit :=
  if data.length > Page.size then throw (.programTooLarge data.length)
  else bus.writeFrom address register 0 data

end LedSequencer.Bus
