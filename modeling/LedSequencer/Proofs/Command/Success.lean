import LedSequencer.Command.Play
import LedSequencer.Proofs.Bus.Success
import LedSequencer.Proofs.Chip.Stages
import LedSequencer.Proofs.Line.Steady

/-! Commands on lines that do as they are told and show nothing but the level 0. Main statement:
they succeed, if the lines can be had and given up. -/
namespace LedSequencer
open Routine

namespace Device

variable {L F σ : Type} (device : Device L) {w : World (.lines L F) σ}

theorem stagewise_succeeds (hw : w.Obliging) :
    device.Stagewise (F := F) fun act => ∃ a, act.run.Yields w (.ok a) where
  pure a := ⟨a, yields_done _⟩
  bind := by
    rintro _ _ act f ⟨a, hact⟩ hrest
    obtain ⟨b, hrest⟩ := hrest a
    exact ⟨b, hact.andThen hrest⟩
  step _ c hfits := by
    have hanswer : (device.answer c : Routine (.lines L F) (Notice F) _).Yields w (.ok ()) := by
      cases c with
      | write register value => exact device.bus.transact_succeeds hw _ _ _
      | writeBlock start data => exact device.bus.writeBlock_succeeds hw _ _ hfits
    exact ⟨(), Yields.reporting hanswer _⟩
  configured := ⟨(), (yields_done _).note _⟩
  running := ⟨(), (yields_done _).note _⟩
  tape _ := by
    rintro ⟨a, hact⟩
    exact ⟨a, hact.reporting _⟩

/-- The same of an operation on the chip, which ends with what is known of the engines. -/
theorem yields_knowing {act : Action L F Unit} {known : Option EngineStatus}
    (h : ∃ a, (knowing known act).run.Yields w (.ok a)) :
    ∃ after, (act.run.run known).Yields w (.ok (), after) := by
  obtain ⟨⟨⟨⟩, after⟩, hyields⟩ := h
  refine ⟨after, fun s => ?_⟩
  obtain ⟨⟨result, last⟩, hreturned, hending⟩ := hyields.of_map s
  cases result with
  | error failure => cases hending
  | ok =>
    obtain ⟨_, rfl⟩ := Prod.mk.inj (Except.ok.inj hending)
    exact hreturned

theorem bringUp_succeeds (hw : w.Obliging) (setup : Setup) (known : Option EngineStatus) :
    ∃ after, ((device.perform (Chip.bringUp setup : Chip.Action F Unit)).run.run known).Yields w
      (.ok (), after) :=
  yields_knowing ((device.stagewise_succeeds hw).bringUp setup known)

theorem play_succeeds (hw : w.Obliging) (tape : Tape) (known : Option EngineStatus) :
    ∃ after, ((device.perform (Chip.play tape.index : Chip.Action F Unit)).run.run known).Yields w
      (.ok (), after) :=
  yields_knowing ((device.stagewise_succeeds hw).play tape known)

end Device

namespace Command

variable {L F σ : Type} {w : World (.lines L F) σ}

/-- The first attempt is enough. -/
theorem bringUpFrom_succeeds (hw : w.Obliging) (device : Device L) (setup : Setup)
    (attempt more : Nat) (known : Option EngineStatus) :
    ∃ after, ((bringUpFrom device setup attempt more : Device.Action L F Unit).run.run
      known).Yields w (.ok (), after) := by
  obtain ⟨after, hup⟩ := device.bringUp_succeeds hw setup known
  cases more with
  | zero => exact ⟨after, Yields.bind hup (yields_done _)⟩
  | succ more => exact ⟨after, Yields.bind (Yields.bind hup (yields_done _)) (yields_done _)⟩

theorem play_succeeds (hw : w.Obliging)
    (request : ∀ line s, ∃ s', w (.request line) s = some (.ok (), s'))
    (release : ∀ line s, ∃ s', w (.release line) s = some (.ok (), s'))
    (bus : Bus L) (setup : Setup) (tape : Tape) :
    (play bus setup tape : ExceptT (CommandFailure F) (Routine (.lines L F) (Notice F))
      Unit).run.Yields w (.ok ()) := by
  have htake (line : L) : (Bus.takeLine line : Bus.Action L F Unit).run.Yields w (.ok ()) :=
    yields_call (request line) (yields_done _)
  have hfree (line : L) : (Bus.freeLine line : Bus.Action L F Unit).run.Yields w (.ok ()) :=
    yields_call (release line) (yields_done _)
  have hacquire : (bus.acquire : Bus.Action L F Unit).run.Yields w (.ok ()) := by
    refine ((htake bus.clock).reporting _).andThen ?_
    exact (((htake bus.data).reporting _).tryCatch _).andThen ((yields_done _).note _)
  have hrelease : (bus.release : Bus.Action L F Unit).run.Yields w (.ok ()) :=
    Yields.bind ((hfree bus.clock).reporting _)
      (Yields.bind ((hfree bus.data).reporting _) (yields_done _))
  -- What the chip does in between goes through a state that the lines do not see.
  let device : Device L := ⟨bus, Device.chipAddress⟩
  obtain ⟨known, hup⟩ := bringUpFrom_succeeds (F := F) hw device setup 1 (attempts - 1) none
  obtain ⟨after, hplay⟩ := device.play_succeeds (F := F) hw tape known
  have hmiddle : ((bringUpAndPlay device setup tape : ExceptT (Phase × Failure F)
      (StateT (Option EngineStatus) (Routine (.lines L F) (Notice F))) Unit).run.run none).Yields w
        (.ok (), after) :=
    Yields.bind (Yields.bind hup (yields_done _)) (Yields.bind hplay (yields_done _))
  refine Yields.bind (Yields.bind hacquire (yields_done _)) ?_
  refine Yields.bind (Yields.bind hmiddle (yields_done _)) ?_
  exact Yields.bind (Yields.bind hrelease (yields_done _)) (yields_done _)

/-- Steady lines that show 0 oblige. -/
theorem play_steady (bus : Bus L) (setup : Setup) (tape : Tape) (n : Nat) :
    ((play bus setup tape : ExceptT (CommandFailure F) (Routine (.lines L F) (Notice F))
      Unit).run.run (.answering (steadyLines fun _ => 0)) n).outcome = .returned (.ok ()) := by
  have obliging : World.Obliging (L := L) (F := F) (.answering (steadyLines fun _ => 0)) :=
    ⟨fun _ _ n => ⟨n, rfl⟩, fun _ n => ⟨n + 1, rfl⟩, fun _ n => ⟨n, rfl⟩⟩
  exact play_succeeds obliging (fun _ n => ⟨n, rfl⟩) (fun _ n => ⟨n, rfl⟩) bus setup tape n

end Command

end LedSequencer
