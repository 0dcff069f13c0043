import LedSequencer.Chip.Basic

/-! The register accesses of the chip's longer operations, as lists: what each of them does when
nothing fails. -/
namespace LedSequencer

namespace RegisterCall

/-- The single writes that an access amounts to, in order. The register after 255 is 0. -/
def writes : RegisterCall → List (UInt8 × UInt8)
  | write register value => [(register, value)]
  | writeBlock start data =>
    data.mapIdx fun offset value => (start + UInt8.ofNat offset, value)

end RegisterCall

def Setup.accesses (setup : Setup) : List RegisterCall :=
  [.write Register.reset Register.resetAll, .write Register.config Register.chipEnable,
    .write Register.misc setup.misc, .write Register.engine1Start setup.engine1Start] ++
    setup.currents.map fun (led, current) => .write (Register.ledCurrent led) current

def uploadAccesses (ledMux program : List UInt8) : List RegisterCall :=
  [.write Register.engineControl2 Register.enginesLoad,
    .write Register.pageSelect Page.ledMux.selector,
    .writeBlock Register.programMemory ledMux,
    .write Register.pageSelect Page.program.selector,
    .writeBlock Register.programMemory program,
    .write Register.engineControl2 Register.enginesHalt,
    .write Register.engineControl2 Register.engine1Run,
    .write Register.engineControl1 Register.engine1FreeRun]

end LedSequencer
