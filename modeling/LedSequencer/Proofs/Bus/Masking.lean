import LedSequencer.Chip.Device
import LedSequencer.Proofs.Bus.Parts
import LedSequencer.Proofs.Line.Masking

/-! The samples on a bus that are ignored. Main statement: no operation on the chip goes by the
level that is sampled where the data line is let go. -/
namespace LedSequencer

variable {L F α : Type}

namespace Bus
open Routine

variable (bus : Bus L)

theorem settle_overlooks : (bus.settle : Action L F Unit).run.Overlooks :=
  fun _ _ => ⟨rfl, trivial⟩

theorem setClock_overlooks (high : Bool) :
    (bus.setClock high : Action L F Unit).run.Overlooks :=
  fun _ _ => ⟨rfl, trivial⟩

theorem setData_overlooks (high : Bool) :
    (bus.setData high : Action L F Unit).run.Overlooks :=
  fun _ _ => ⟨rfl, trivial⟩

theorem checkLevel_overlooks (level : UInt8) :
    (checkLevel level : Action L F UInt8).run.Overlooks := by
  unfold checkLevel
  split
  · exact overlooks_done _
  · exact Overlooks.reporting (overlooks_done _) _

/-- What a bit that was sampled is followed by. -/
theorem received_overlooks (level : UInt8) : (do
    let level ← checkLevel level
    bus.settle
    bus.setClock false
    bus.settle
    bus.settle
    return level : Action L F UInt8).run.Overlooks :=
  (checkLevel_overlooks level).andThen fun _ => bus.settle_overlooks.andThen fun _ =>
    (bus.setClock_overlooks false).andThen fun _ => bus.settle_overlooks.andThen fun _ =>
      bus.settle_overlooks.andThen fun _ => overlooks_done _

/-- The level that is sampled where the data line is let go has no part in what follows. -/
theorem acknowledge_overlooks :
    (do bus.letGo; return Acknowledge.ofLevel (← bus.receiveBit) :
      Action L F Acknowledge).run.Overlooks := by
  intro low clock
  refine ⟨rfl, ?_⟩
  rcases clock with fault | _
  · trivial
  refine fun _ => ⟨rfl, fun data => ⟨rfl, ?_⟩⟩
  rcases data with fault | _
  · trivial
  refine fun _ => ⟨rfl, fun ignored => ⟨?_, ?_⟩⟩
  · rcases ignored with fault | level <;> cases low <;> rfl
  rcases ignored with fault | level
  · trivial
  refine fun clock => ⟨rfl, ?_⟩
  rcases clock with fault | _
  · trivial
  refine fun _ => ⟨rfl, fun sample => ⟨rfl, ?_⟩⟩
  rcases sample with fault | level
  · trivial
  exact ((bus.received_overlooks level).andThen fun _ => overlooks_done _) _

theorem closed_overlooks : bus.Closed (F := F) fun act => act.run.Overlooks where
  pure _ := overlooks_done _
  throw _ := overlooks_done _
  bind h hf := h.andThen hf
  tryCatch h hf := h.tryCatch hf
  reporting notice h := h.reporting notice
  note n := (overlooks_note n).bind fun _ => overlooks_done _
  settle := bus.settle_overlooks
  setClock high := (bus.setClock_overlooks high).andThen fun _ => bus.settle_overlooks
  setData high := (bus.setData_overlooks high).andThen fun _ => bus.settle_overlooks
  acknowledge := bus.acknowledge_overlooks

end Bus

/-- No operation on the chip goes by the level of an ignored sample. -/
theorem Device.perform_overlooks (device : Device L) (act : Chip.Action F α)
    (state : Option EngineStatus) :
    ((device.perform act : Device.Action L F α).run.run state).Overlooks := by
  refine Routine.Overlooks.handle (fun c => ?_) _
  cases c with
  | write register value => exact device.bus.closed_overlooks.transact _ register value
  | writeBlock start data => exact device.bus.closed_overlooks.writeBlock _ start data

end LedSequencer
