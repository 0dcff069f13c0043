import LedSequencer.Chip.Device
import LedSequencer.Proofs.Bus.Parts
import LedSequencer.Proofs.Chip.Session
import LedSequencer.Proofs.Routine.Makes

/-! The calls of transfers over a bus. Main statement: whatever the replies, all that is done to a
device at the end of a bus drives the two lines of the bus, samples the data line and lets half clock
periods pass. -/
namespace LedSequencer

def Bus.Transfers {L : Type} (bus : Bus L) : LineCall L → Prop
  | .drive line _ => line = bus.clock ∨ line = bus.data
  | .sample line => line = bus.data
  | .settle microseconds => microseconds = bus.halfPeriod
  | .request _ | .release _ | .wait _ => False

namespace Bus
open Routine

variable {L F : Type} (bus : Bus L)

section Steps

variable {P : LineCall L → Prop}

theorem makes_setClock {high : Bool} (hclock : P (.drive bus.clock high)) :
    (bus.setClock high : Action L F Unit).run.Makes P :=
  ⟨hclock, fun _ => trivial⟩

theorem makes_setData {high : Bool} (hdata : P (.drive bus.data high)) :
    (bus.setData high : Action L F Unit).run.Makes P :=
  ⟨hdata, fun _ => trivial⟩

theorem makes_sampleData (hsample : P (.sample bus.data)) :
    (bus.sampleData : Action L F UInt8).run.Makes P :=
  ⟨hsample, fun _ => trivial⟩

theorem makes_settle (hsettle : P (.settle bus.halfPeriod)) :
    (bus.settle : Action L F Unit).run.Makes P :=
  ⟨hsettle, fun _ => trivial⟩

theorem makes_checkLevel (level : UInt8) : (checkLevel level : Action L F UInt8).run.Makes P := by
  unfold checkLevel
  split <;> trivial

variable (hclock : ∀ high, P (.drive bus.clock high)) (hsample : P (.sample bus.data))
variable (hsettle : P (.settle bus.halfPeriod))
include hclock hsample hsettle

theorem makes_letGo (hdata : P (.drive bus.data true)) :
    (bus.letGo : Action L F Unit).run.Makes P := by
  have hpause := bus.makes_settle (F := F) hsettle
  exact (bus.makes_setClock (hclock false)).andThen fun _ => hpause.andThen fun _ =>
    (bus.makes_setData hdata).andThen fun _ => hpause.andThen fun _ =>
      (bus.makes_sampleData hsample).andThen fun _ => trivial

theorem makes_receiveBit : (bus.receiveBit : Action L F UInt8).run.Makes P := by
  have hpause := bus.makes_settle (F := F) hsettle
  exact (bus.makes_setClock (hclock true)).andThen fun _ => hpause.andThen fun _ =>
    (bus.makes_sampleData hsample).andThen fun level => (makes_checkLevel level).andThen fun _ =>
      hpause.andThen fun _ => (bus.makes_setClock (hclock false)).andThen fun _ =>
        hpause.andThen fun _ => hpause.andThen fun _ => trivial

end Steps

theorem closed_makes : bus.Closed (F := F) fun act => act.run.Makes bus.Transfers where
  pure _ := trivial
  throw _ := trivial
  bind h hf := h.andThen hf
  tryCatch h hf := h.tryCatch hf
  reporting notice h := h.reporting notice
  note _ := trivial
  settle := bus.makes_settle rfl
  setClock _ := (bus.makes_setClock (.inl rfl)).andThen fun _ => bus.makes_settle rfl
  setData _ := (bus.makes_setData (.inr rfl)).andThen fun _ => bus.makes_settle rfl
  acknowledge := by
    have hclock (high : Bool) : bus.Transfers (.drive bus.clock high) := .inl rfl
    exact (bus.makes_letGo hclock rfl rfl (.inr rfl)).andThen fun _ =>
      (bus.makes_receiveBit hclock rfl rfl).andThen fun _ => trivial

end Bus

namespace Device
open Routine

variable {L F : Type} (device : Device L)

theorem makes_answer (c : RegisterCall) :
    (device.answer c : Routine (.lines L F) (Notice F) _).Makes device.bus.Transfers := by
  cases c with
  | write register value => exact device.bus.closed_makes.transact _ register value
  | writeBlock start data => exact device.bus.closed_makes.writeBlock _ start data

/-- An operation that goes through at the registers is nothing but transfers at the bus. -/
theorem makes_perform {act : Chip.Action F Unit} {moves : List Move} (h : Chip.Goes act moves)
    (state : Option EngineStatus) :
    ((device.perform act : Action L F Unit).run.run state).Makes device.bus.Transfers := by
  have hgoes : (act.run.run state).Makes fun _ => True := (h state []).makes
  exact hgoes.handle fun c _ => device.makes_answer c

end Device

end LedSequencer
