import LedSequencer.Chip.Device
import LedSequencer.Chip.Sequence
import LedSequencer.Chip.Upload

/-! The long operations of the chip as sequences of stages. Each stage accesses registers once. Main
statements: bringing up the chip and uploading to it do nothing but go through their stages, and the
accesses of the stages are those that are listed for the operation. -/
namespace LedSequencer

def RegisterCall.Fits : RegisterCall → Prop
  | write _ _ => True
  | writeBlock _ data => data.length ≤ Page.size

/-- One access within an operation of the chip: the step that a failure is reported for, and what is
known of the engines from then on if it is anything new. -/
structure Stage where
  step : ChipStep
  access : RegisterCall
  reaches : Option EngineStatus
  deriving DecidableEq

namespace Chip

variable {F : Type}

def pass (stage : Stage) : Action F Unit := do
  step stage.step (access stage.access)
  match stage.reaches with
  | some status => reached status
  | none => pure ()

def passAll (stages : List Stage) : Action F Unit := stages.forM pass

theorem passAll_cons (stage : Stage) (stages : List Stage) :
    passAll (stage :: stages) = pass stage >>= fun _ => (passAll stages : Action F Unit) := rfl

theorem passAll_append (a b : List Stage) :
    passAll (a ++ b) = passAll a >>= fun _ => (passAll b : Action F Unit) := by
  induction a with
  | nil => exact (pure_bind () fun _ => (passAll b : Action F Unit)).symm
  | cons stage a ih =>
    rw [List.cons_append, passAll_cons, passAll_cons, bind_assoc, ih]

/-- What is known of the engines does not fail, so it does not matter whether it is noted within a
step or after it. -/
theorem step_reached (s : ChipStep) (act : Action F Unit) (status : EngineStatus) :
    step s (act >>= fun _ => reached status) = step s act >>= fun _ => reached status := by
  refine ExceptT.ext (StateT.ext fun state => ?_)
  simp only [step, reporting, ExceptT.run_bind, ExceptT.run_mk, StateT.run_bind, bind_assoc]
  apply bind_congr
  intro (result, state)
  cases result <;> rfl

theorem pass_none (s : ChipStep) (c : RegisterCall) :
    pass ⟨s, c, none⟩ = (step s (access c) : Action F Unit) :=
  bind_pure_unit

theorem pass_some (s : ChipStep) (c : RegisterCall) (status : EngineStatus) :
    pass ⟨s, c, some status⟩ =
      step s (access c) >>= fun _ => (reached status : Action F Unit) := rfl

def bringUpStages (setup : Setup) : List Stage :=
  [⟨.reset, .write Register.reset Register.resetAll, some .reset⟩,
    ⟨.enable, .write Register.config Register.chipEnable, none⟩,
    ⟨.configure, .write Register.misc setup.misc, none⟩,
    ⟨.startAddress, .write Register.engine1Start setup.engine1Start, none⟩] ++
  setup.currents.map fun (led, current) =>
    ⟨.ledCurrent led, .write (Register.ledCurrent led) current, none⟩

def uploadStages (ledMux program : List UInt8) : List Stage :=
  [⟨.loadMode, .write Register.engineControl2 Register.enginesLoad, none⟩,
    ⟨.muxPage, .write Register.pageSelect Page.ledMux.selector, some (.loadProgram .ledMux)⟩,
    ⟨.muxTable, .writeBlock Register.programMemory ledMux, none⟩,
    ⟨.programPage, .write Register.pageSelect Page.program.selector, some (.loadProgram .program)⟩,
    ⟨.program, .writeBlock Register.programMemory program, none⟩,
    ⟨.halt, .write Register.engineControl2 Register.enginesHalt, some .halted⟩,
    ⟨.run, .write Register.engineControl2 Register.engine1Run, none⟩,
    ⟨.freeRun, .write Register.engineControl1 Register.engine1FreeRun, some .running⟩]

theorem access_bringUpStages (setup : Setup) :
    (bringUpStages setup).map Stage.access = setup.accesses := rfl

theorem access_uploadStages (ledMux program : List UInt8) :
    (uploadStages ledMux program).map Stage.access = uploadAccesses ledMux program := rfl

theorem bringUpStages_fit (setup : Setup) : ∀ stage ∈ bringUpStages setup, stage.access.Fits := by
  intro stage hstage
  obtain h | h := List.mem_append.1 hstage
  · simp only [List.mem_cons, List.not_mem_nil, or_false] at h
    obtain rfl | rfl | rfl | rfl := h <;> trivial
  · obtain ⟨led, _, rfl⟩ := List.mem_map.1 h
    trivial

theorem uploadStages_fit {ledMux program : List UInt8} (hmux : ledMux.length ≤ Page.size)
    (hprogram : program.length ≤ Page.size) :
    ∀ stage ∈ uploadStages ledMux program, stage.access.Fits := by
  simp [uploadStages, RegisterCall.Fits, hmux, hprogram]

theorem bringUp_eq (setup : Setup) :
    (bringUp setup : Action F Unit) = (do
      passAll (bringUpStages setup)
      reached .configured
      Journal.note (Notice.chipConfigured : Notice F)) := by
  have hcurrents : (setup.currents.forM fun (led, current) =>
      step (.ledCurrent led) (setCurrent led current) : Action F Unit) =
        passAll (setup.currents.map fun (led, current) =>
          ⟨.ledCurrent led, .write (Register.ledCurrent led) current, none⟩) := by
    -- The nine LEDs are named, so the check on the number of an LED comes out for each of them.
    rw [passAll, List.forM_eq_forM, List.forM_eq_forM, List.forM_map]
    simp only [pass_none]
    rfl
  rw [bringUp, hcurrents, bringUpStages, passAll_append, reset, step_reached]
  simp only [passAll_cons, pass_some, pass_none, bind_assoc]
  rfl

theorem upload_eq (ledMux program : List UInt8) :
    (upload ledMux program : Action F Unit) = (do
      passAll (uploadStages ledMux program)
      Journal.note (Notice.engineRunning : Notice F)) := by
  rw [upload, uploadStages, fillPage, fillPage, haltEngines, step_reached, runEngine]
  simp only [passAll_cons, pass_some, pass_none, bind_assoc]
  rfl

/-- The tapes that there are fit into a page, so playing one is an upload. -/
theorem play_eq (tape : Tape) :
    (play tape.index : Action F Unit) =
      reporting (.tapeFailed tape.index) (upload tape.ledMux Tape.playerCode) := by
  have hfits : oversize? tape.ledMux Tape.playerCode = none := by
    simp [oversize?, Tape.length_ledMux, Tape.length_playerCode]
  rw [play, Tape.all_index]
  exact congrArg (reporting _) (by rw [uploadAndRun, hfits])

end Chip

namespace Device

variable {L F α β : Type} (device : Device L)

/-- Operations are carried out over the bus one after the other. -/
theorem perform_bind (act : Chip.Action F α) (f : α → Chip.Action F β) :
    device.perform (act >>= f) = device.perform act >>= fun a => device.perform (f a) := by
  refine ExceptT.ext (StateT.ext fun state => ?_)
  refine (Routine.handle_bind device.answer (act.run.run state) _).trans ?_
  apply bind_congr
  intro (result, state)
  cases result <;> rfl

theorem perform_reporting (notice : Failure F → Notice F) (act : Chip.Action F α) :
    device.perform (reporting notice act) = reporting notice (device.perform act) := by
  refine ExceptT.ext (StateT.ext fun state => ?_)
  refine (Routine.handle_bind device.answer (act.run.run state) _).trans ?_
  apply bind_congr
  intro (result, state)
  cases result <;> rfl

/-- An operation where so much is known of the engines, as an action on the bus: its value comes
with what is known then. -/
def knowing (known : Option EngineStatus) (act : Action L F α) :
    Bus.Action L F (α × Option EngineStatus) :=
  ExceptT.mk ((fun ending => ending.1.map (·, ending.2)) <$> act.run.run known)

section Knowing

variable (known : Option EngineStatus)

theorem knowing_bind (act : Action L F α) (f : α → Action L F β) :
    knowing known (act >>= f) = knowing known act >>= fun (a, known) => knowing known (f a) := by
  refine ExceptT.ext ?_
  simp only [knowing, ExceptT.run_mk, ExceptT.run_bind, StateT.run_bind, map_bind, bind_map_left]
  apply bind_congr
  intro (result, known)
  cases result <;> rfl

theorem knowing_reporting (notice : Failure F → Notice F) (act : Action L F α) :
    knowing known (reporting notice act) = reporting notice (knowing known act) := by
  refine ExceptT.ext ?_
  simp only [knowing, reporting, ExceptT.run_mk, StateT.run_bind, map_bind, bind_map_left]
  apply bind_congr
  intro (result, known)
  cases result <;> rfl

theorem knowing_access (c : RegisterCall) :
    knowing known (device.perform (Chip.access c : Chip.Action F Unit)) =
      (·, known) <$> (ExceptT.mk (device.answer c) : Bus.Action L F Unit) := by
  refine ExceptT.ext ?_
  rw [ExceptT.run_map, knowing, ExceptT.run_mk]
  exact (map_bind _ _ _).trans (bind_pure_comp _ _)

theorem knowing_step (notice : Failure F → Notice F) (c : RegisterCall) :
    knowing known (reporting notice (device.perform (Chip.access c))) =
      (·, known) <$> reporting notice (ExceptT.mk (device.answer c) : Bus.Action L F Unit) := by
  rw [knowing_reporting, knowing_access]
  refine ExceptT.ext ?_
  simp only [reporting, ExceptT.run_map, ExceptT.run_mk, map_bind, bind_map_left]
  apply bind_congr
  intro result
  cases result <;> rfl

end Knowing

/-- A property that carries over to sequences and to tapes, and that every access which fits into a
page has as a step. -/
structure Stagewise (P : ∀ {α : Type}, Bus.Action L F α → Prop) : Prop where
  pure {α : Type} (a : α) : P (pure a)
  bind {α β : Type} {act : Bus.Action L F α} {f : α → Bus.Action L F β} :
    P act → (∀ a, P (f a)) → P (act >>= f)
  step (s : ChipStep) {c : RegisterCall} :
    c.Fits → P (reporting (.stepFailed s) (ExceptT.mk (device.answer c) : Bus.Action L F Unit))
  configured : P (Journal.note .chipConfigured)
  running : P (Journal.note .engineRunning)
  tape {α : Type} {act : Bus.Action L F α} (index : Nat) :
    P act → P (reporting (.tapeFailed index) act)

namespace Stagewise

variable {device} {P : ∀ {α : Type}, Bus.Action L F α → Prop} (h : device.Stagewise P)
include h

theorem map {act : Bus.Action L F α} (hact : P act) (f : α → β) : P (f <$> act) := by
  rw [← bind_pure_comp]
  exact h.bind hact fun a => h.pure (f a)

theorem andThen {first second : Action L F Unit} (hfirst : ∀ known, P (knowing known first))
    (hsecond : ∀ known, P (knowing known second)) (known : Option EngineStatus) :
    P (knowing known (first >>= fun _ => second)) := by
  rw [knowing_bind]
  exact h.bind (hfirst known) fun ending => hsecond ending.2

theorem pass {stage : Stage} (hfits : stage.access.Fits) (known : Option EngineStatus) :
    P (knowing known (device.perform (Chip.pass stage))) := by
  rw [Chip.pass, perform_bind, Chip.step, perform_reporting]
  refine h.andThen (fun known => ?_) (fun known => ?_) known
  · rw [knowing_step]
    exact h.map (h.step stage.step hfits) _
  · cases stage.reaches with
    | none => exact h.pure ((), known)
    | some status => exact h.pure ((), some status)

theorem passAll {stages : List Stage} (hfits : ∀ stage ∈ stages, stage.access.Fits)
    (known : Option EngineStatus) :
    P (knowing known (device.perform (Chip.passAll stages))) := by
  induction stages generalizing known with
  | nil => exact h.pure ((), known)
  | cons stage stages ih =>
    rw [Chip.passAll_cons, perform_bind]
    exact h.andThen (h.pass (hfits stage List.mem_cons_self))
      (ih fun stage hmem => hfits stage (List.mem_cons_of_mem _ hmem)) known

theorem bringUp (setup : Setup) (known : Option EngineStatus) :
    P (knowing known (device.perform (Chip.bringUp setup))) := by
  rw [Chip.bringUp_eq, perform_bind, perform_bind]
  refine h.andThen (h.passAll (Chip.bringUpStages_fit setup)) (h.andThen ?_ ?_) known
  · exact fun _ => h.pure ((), some EngineStatus.configured)
  · exact fun known => h.map h.configured (·, known)

theorem play (tape : Tape) (known : Option EngineStatus) :
    P (knowing known (device.perform (Chip.play tape.index))) := by
  have hfits : ∀ stage ∈ Chip.uploadStages tape.ledMux Tape.playerCode, stage.access.Fits :=
    Chip.uploadStages_fit (Nat.le_of_eq tape.length_ledMux) (Nat.le_of_eq Tape.length_playerCode)
  rw [Chip.play_eq, perform_reporting, knowing_reporting, Chip.upload_eq, perform_bind]
  refine h.tape tape.index (h.andThen (h.passAll hfits) ?_ known)
  exact fun known => h.map h.running (·, known)

end Stagewise

end Device

end LedSequencer
