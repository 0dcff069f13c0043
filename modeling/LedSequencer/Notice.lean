import LedSequencer.Command.Basic
import LedSequencer.Text.Hex

/-! The log: what is reported, how much it matters and how it reads. -/
namespace LedSequencer

inductive Severity where
  | trace
  | debug
  | warn
  | error
  deriving DecidableEq

def Severity.rank : Severity → Nat
  | trace => 0
  | debug => 1
  | warn => 2
  | error => 3

inductive BytePart where
  | address
  | register
  | value
  deriving DecidableEq

inductive ChipStep where
  | reset
  | enable
  | configure
  | startAddress
  | ledCurrent (led : UInt8)
  | loadMode
  | muxPage
  | muxTable
  | programPage
  | program
  | halt
  | run
  | freeRun
  deriving DecidableEq

inductive Notice (F : Type) where
  | requestFailed (onClock : Bool)
  | rollbackFailed
  | busAcquired (halfPeriod : UInt32)
  | freeFailed (onClock : Bool)
  | badLevel (level : UInt8)
  | writing (register value : UInt8)
  | byteFailed (part : BytePart) (byte : UInt8)
  | stopFailed (register : UInt8) (failure : Failure F)
  | bulkFailed (offset : Nat)
  | stepFailed (step : ChipStep) (failure : Failure F)
  | chipConfigured
  | uploadTooLarge
  | engineRunning
  | noSuchTape (index : Nat)
  | tapeFailed (index : Nat) (failure : Failure F)
  | attemptFailed (attempt attempts : Nat) (failure : Failure F)
  | initFailed (attempts : Nat) (failure : Failure F)
  | teardownFailed
  | commandFailed (command : Command) (phase : Phase) (failure : Failure F)
  deriving DecidableEq

def BytePart.text : BytePart → String
  | address => "address"
  | register => "register"
  | value => "value"

def ChipStep.text : ChipStep → String
  | reset => "reset LED chip"
  | enable => "enable chip"
  | configure => "configure chip"
  | startAddress => "set engine program start address"
  | ledCurrent led => s!"set current of LED {led.toNat}"
  | loadMode => "set engines to load program mode"
  | muxPage => "select LED mux memory page"
  | muxTable => "write LED mux table"
  | programPage => "select program memory page"
  | program => "write program"
  | halt => "halt engines"
  | run => "set engine 1 to run mode"
  | freeRun => "set engine 1 to free run mode"

namespace Notice

variable {F : Type}

def severity : Notice F → Severity
  | writing _ _ => .trace
  | busAcquired _ | chipConfigured | engineRunning => .debug
  | rollbackFailed | stopFailed _ _ | attemptFailed _ _ _ => .warn
  | requestFailed _ | freeFailed _ | badLevel _ | byteFailed _ _ | bulkFailed _ | stepFailed _ _
  | uploadTooLarge | noSuchTape _ | tapeFailed _ _ | initFailed _ _ | teardownFailed
  | commandFailed _ _ _ => .error

private def lineName (onClock : Bool) : String := if onClock then "SCL" else "SDA"

/-- The line that a notice makes in the log, `fault` gives the text of a fault. -/
def text (fault : F → String) : Notice F → String
  | requestFailed onClock => s!"requesting {lineName onClock} failed"
  | rollbackFailed => "releasing SCL after failed SDA request failed"
  | busAcquired halfPeriod => s!"bus acquired, half period {halfPeriod.toNat} us"
  | freeFailed onClock => s!"failed to free {lineName onClock}"
  | badLevel level => s!"invalid level {level.toNat} sampled on SDA"
  | writing register value => s!"write register {hex register.toNat} = {hex value.toNat}"
  | byteFailed part byte => s!"writing {part.text} {hex byte.toNat} failed"
  | stopFailed register e =>
    s!"stop after failed write of register {hex register.toNat} failed: {e.text fault}"
  | bulkFailed offset => s!"bulk write failed at offset {offset}"
  | stepFailed step e => s!"failed to {step.text}: {e.text fault}"
  | chipConfigured => "LP5569 configured"
  | uploadTooLarge => s!"only {Page.size} bytes for program and LED mux table"
  | engineRunning => "engine 1 running"
  | noSuchTape index => s!"LED tape index {index} out of range"
  | tapeFailed index e => s!"failed to play tape {index}: {e.text fault}"
  | attemptFailed attempt attempts e =>
    s!"LP5569 init attempt {attempt} of {attempts} failed: {e.text fault}"
  | initFailed attempts e => s!"LP5569 init failed after {attempts} attempts: {e.text fault}"
  | teardownFailed => "releasing the bus failed as well"
  | commandFailed command phase e =>
    s!"{command.text} command failed in {phase.text}: {e.text fault}"

end Notice

end LedSequencer
