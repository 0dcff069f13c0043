import LedSequencer.Chip.Basic

/-! Uploading to the engines of the chip. -/
namespace LedSequencer.Chip

variable {F : Type}

def oversize? (ledMux program : List UInt8) : Option Nat :=
  [ledMux.length, program.length].find? fun length => length > Page.size

def fillPage (page : Page) (selecting writing : ChipStep) (data : List UInt8) : Action F Unit := do
  step selecting (selectPage page)
  reached (.loadProgram page)
  step writing (writeBlock Register.programMemory data)

/-- Uploads two buffers that fit into a page and lets engine 1 run the program. A failure ends the
upload where it is. -/
def upload (ledMux program : List UInt8) : Action F Unit := do
  step .loadMode loadEngines
  fillPage .ledMux .muxPage .muxTable ledMux
  fillPage .program .programPage .program program
  step .halt haltEngines
  runEngine
  Journal.note (Notice.engineRunning : Notice F)

def uploadAndRun (ledMux program : List UInt8) : Action F Unit :=
  match oversize? ledMux program with
  | some length => reporting (fun _ => .uploadTooLarge) (throw (.programTooLarge length))
  | none => upload ledMux program

def play (index : Nat) : Action F Unit :=
  match Tape.all[index]? with
  | none => reporting (fun _ => .noSuchTape index) (throw (.indexOutOfRange index))
  | some tape =>
    reporting (.tapeFailed index) (uploadAndRun tape.ledMux Tape.playerCode)

end LedSequencer.Chip
