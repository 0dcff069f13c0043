import LedSequencer.Chip.Device
import LedSequencer.Chip.Upload

/-! Carrying out a command: take the bus, bring the chip up, play a tape, give the bus back. -/
namespace LedSequencer.Command

variable {L F : Type}

-- The chip may need time after power-up.
def attempts : Nat := 15

-- In milliseconds, as is the period of the polls.
def retryDelay : UInt32 := 100
def pollPeriod : UInt32 := 100

/-- Brings the chip up. `attempt` counts the attempts from 1 on, `more` are the attempts left after
this one. -/
def bringUpFrom (device : Device L) (setup : Setup) (attempt : Nat) :
    Nat → Device.Action L F Unit
  | 0 => reporting (.initFailed attempt) (device.perform (Chip.bringUp setup))
  | more + 1 =>
    tryCatch
      (reporting (.attemptFailed attempt attempts) (device.perform (Chip.bringUp setup)))
      fun _ => do
        Device.wait retryDelay
        bringUpFrom device setup (attempt + 1) more

def bringUpAndPlay (device : Device L) (setup : Setup) (tape : Tape) :
    ExceptT (Phase × Failure F) (StateT (Option EngineStatus) (Routine (.lines L F) (Notice F)))
      Unit := do
  (bringUpFrom device setup 1 (attempts - 1)).adapt fun failure => (.init, failure)
  (device.perform (Chip.play tape.index)).adapt fun failure => (.play, failure)

def play (bus : Bus L) (setup : Setup) (tape : Tape) :
    ExceptT (CommandFailure F) (Routine (.lines L F) (Notice F)) Unit := do
  bus.acquire.adapt fun failure => ⟨.acquire, failure, none⟩
  let (result, _) ←
    ExceptT.lift ((bringUpAndPlay ⟨bus, Device.chipAddress⟩ setup tape).run.run none)
  -- Once the bus is taken it is given back in any case.
  let teardown ← ExceptT.lift bus.release.run
  match result, teardown with
  | .ok (), .ok () => return
  | .ok (), .error failure => throw ⟨.release, failure, none⟩
  | .error (phase, failure), .ok () => throw ⟨phase, failure, none⟩
  | .error (phase, failure), .error second =>
    reporting (fun _ => .teardownFailed) (throw ⟨phase, failure, some second⟩)

inductive Ending (F : Type) where
  | returned (result : Except (CommandFailure F) Unit)
  | parked

/-- Stays halted. A halted caller polls for ever; these are its first `polls` polls. -/
def park : (polls : Nat) → Routine (.lines L F) (Notice F) (Ending F)
  | 0 => .done .parked
  | polls + 1 => .call (.wait pollPeriod) fun _ => park polls

/-- Runs a command, followed up to `polls` polls deep if it stays halted. -/
def run (polls : Nat) (command : Command) (bus : Bus L) (setup : Setup) :
    Routine (.lines L F) (Notice F) (Ending F) := do
  let result ← (reporting (fun e => .commandFailed command e.phase e.error)
    (play bus setup command.tape)).run
  match command with
  | .boot => return .returned result
  | .haltedError => park polls

end LedSequencer.Command
