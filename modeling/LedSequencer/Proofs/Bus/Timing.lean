import LedSequencer.Line.Usage
import LedSequencer.Proofs.Bus.Ensures
import LedSequencer.Proofs.Bus.Parts
import LedSequencer.Proofs.Bus.Session
import LedSequencer.Proofs.Line.Holding
import LedSequencer.Proofs.Line.Steady
import LedSequencer.Proofs.Routine.Handle
import LedSequencer.Proofs.Routine.Returns
import Mathlib.Data.List.Forall2

/-! The timing on a bus. Main statement: whatever is done on a bus and wherever it breaks off, half a
clock period passes right behind every output that moves a line, and the length of that period shows
nowhere else. -/
namespace LedSequencer

variable {L F N : Type}

/-- An event that needs no pause behind it: it moves no line, and a pause has the right length. -/
def Event.Calm (pause : UInt32) : Event (.lines L F) N → Prop
  | .called (.drive _ _) (.ok ()) => False
  | .called (.settle us) _ => us = pause
  | _ => True

/-- Every output that succeeds has the pause right behind it, and all pauses have its length. -/
inductive Paced (pause : UInt32) : List (Event (.lines L F) N) → Prop where
  | nil : Paced pause []
  | moved (line : L) (high : Bool) {events : List (Event (.lines L F) N)} (h : Paced pause events) :
    Paced pause (.called (.drive line high) (.ok ()) :: .called (.settle pause) () :: events)
  | calm {e : Event (.lines L F) N} {events : List (Event (.lines L F) N)} (he : e.Calm pause)
      (h : Paced pause events) : Paced pause (e :: events)

namespace Paced

variable {pause : UInt32}

theorem append {a b : List (Event (.lines L F) N)} (ha : Paced pause a) (hb : Paced pause b) :
    Paced pause (a ++ b) := by
  induction ha with
  | nil => exact hb
  | moved line high _ ih => exact .moved line high ih
  | calm he _ ih => exact .calm he ih

theorem joins : Joins (Paced pause : List (Event (.lines L F) N) → Prop) := ⟨.nil, append⟩

theorem one {e : Event (.lines L F) N} (he : e.Calm pause) : Paced pause [e] := .calm he .nil

variable {before after : List (Event (.lines L F) N)} {line : L} {high : Bool}

theorem followed (h : Paced pause (before ++ .called (.drive line high) (.ok ()) :: after)) :
    ∃ rest, after = .called (.settle pause) () :: rest := by
  -- The output may be the one in front, the pause behind it is not it, or it lies further on.
  generalize hevents : before ++ .called (.drive line high) (.ok ()) :: after = events at h
  induction h generalizing before with
  | nil => exact absurd hevents (List.append_ne_nil_of_right_ne_nil _ nofun)
  | moved line' high' _ ih =>
    match before, hevents with
    | [], hevents => exact ⟨_, (List.cons.inj hevents).2⟩
    | [_], hevents => exact absurd (List.cons.inj (List.cons.inj hevents).2).1 nofun
    | _ :: _ :: before, hevents => exact ih (List.cons.inj (List.cons.inj hevents).2).2
  | calm he _ ih =>
    cases before with
    | nil =>
      obtain ⟨rfl, _⟩ := List.cons.inj hevents
      exact he.elim
    | cons e before => exact ih (List.cons.inj hevents).2

theorem settle_eq {events : List (Event (.lines L F) N)} (h : Paced pause events) {us : UInt32}
    {reply : Unit} (hmem : .called (.settle us) reply ∈ events) : us = pause := by
  induction h with
  | nil => exact absurd hmem List.not_mem_nil
  | moved line high _ ih =>
    rcases List.mem_cons.1 hmem with heq | hmem
    · exact absurd heq nofun
    · rcases List.mem_cons.1 hmem with heq | hmem
      · cases heq
        rfl
      · exact ih hmem
  | calm he _ ih =>
    rcases List.mem_cons.1 hmem with rfl | hmem
    · exact he
    · exact ih hmem

/-- Between an output that moves a line and the next use of a line the pause has passed. -/
theorem separated {between : List (Event (.lines L F) N)} {c : LineCall L} {reply : c.Reply F}
    (h : Paced pause (before ++ .called (.drive line high) (.ok ()) ::
      (between ++ .called c reply :: after))) (huse : c.isUse) :
    pause.toNat ≤ (Usage.ofEvents between).settled := by
  obtain ⟨rest, hrest⟩ := h.followed
  cases between with
  | nil =>
    -- The pause itself is no use of a line.
    obtain ⟨heq, _⟩ := List.cons.inj hrest
    cases heq
    exact absurd huse nofun
  | cons e between =>
    obtain ⟨rfl, _⟩ := List.cons.inj hrest
    show pause.toNat ≤ pause.toNat + (Usage.ofEvents between).settled
    omega

end Paced

namespace Bus
open Routine

variable (bus : Bus L)

theorem settle_paced : (bus.settle : Action L F Unit).run.Adds (Paced bus.halfPeriod) := by
  intro past
  rw [ensures_settle]
  exact ⟨_, rfl, .one rfl⟩

theorem setClock_paced (high : Bool) :
    (do bus.setClock high; bus.settle : Action L F Unit).run.Adds (Paced bus.halfPeriod) := by
  intro past
  simp only [ensures_run_bind, ensures_setClock, ensures_settle, List.append_assoc]
  exact ⟨fun fault => ⟨_, rfl, .one trivial⟩, _, rfl, .moved bus.clock high .nil⟩

theorem setData_paced (high : Bool) :
    (do bus.setData high; bus.settle : Action L F Unit).run.Adds (Paced bus.halfPeriod) := by
  intro past
  simp only [ensures_run_bind, ensures_setData, ensures_settle, List.append_assoc]
  exact ⟨fun fault => ⟨_, rfl, .one trivial⟩, _, rfl, .moved bus.data high .nil⟩

theorem sampleData_paced : (bus.sampleData : Action L F UInt8).run.Adds (Paced bus.halfPeriod) := by
  intro past
  rw [ensures_sampleData]
  exact ⟨fun fault => ⟨_, rfl, .one trivial⟩, fun level => ⟨_, rfl, .one trivial⟩⟩

theorem checkLevel_paced (level : UInt8) :
    (checkLevel level : Action L F UInt8).run.Adds (Paced bus.halfPeriod) := by
  intro past
  rw [ensures_checkLevel]
  split
  · exact ⟨[], (List.append_nil past).symm, .nil⟩
  · exact ⟨_, rfl, .one trivial⟩

theorem stepwise_paced : bus.Stepwise (F := F) fun act => act.run.Adds (Paced bus.halfPeriod) :=
  bus.stepwise_adds Paced.joins (fun _ => .one trivial) bus.settle_paced bus.setClock_paced
    bus.setData_paced

theorem letGo_paced : (bus.letGo : Action L F Unit).run.Adds (Paced bus.halfPeriod) := by
  have hsteps := bus.stepwise_paced (F := F)
  apply hsteps.setClock_then false
  apply hsteps.setData_then true
  exact hsteps.bind bus.sampleData_paced fun _ => hsteps.pure ()

theorem receiveBit_paced : (bus.receiveBit : Action L F UInt8).run.Adds (Paced bus.halfPeriod) := by
  have hsteps := bus.stepwise_paced (F := F)
  apply hsteps.setClock_then true
  refine hsteps.bind bus.sampleData_paced fun raw => ?_
  refine hsteps.bind (bus.checkLevel_paced raw) fun level => ?_
  refine hsteps.bind hsteps.settle fun _ => ?_
  apply hsteps.setClock_then false
  exact hsteps.bind hsteps.settle fun _ => hsteps.pure level

theorem closed_paced : bus.Closed (F := F) fun act => act.run.Adds (Paced bus.halfPeriod) where
  toStepwise := bus.stepwise_paced
  acknowledge := by
    have hsteps := bus.stepwise_paced (F := F)
    exact hsteps.bind bus.letGo_paced fun _ => hsteps.bind bus.receiveBit_paced fun level =>
      hsteps.pure (Acknowledge.ofLevel level)

end Bus

inductive BusStep where
  | start
  | stop
  | sendBit (bit : Bool)
  | receiveBit
  | letGo
  | sendByte (byte : UInt8)
  | call (c : BusCall)
  deriving DecidableEq

inductive BusResult where
  | done
  | level (level : UInt8)
  | answer (a : Acknowledge)
  deriving DecidableEq

namespace Bus
open Routine

variable (bus : Bus L)

def step : BusStep → Action L F BusResult
  | .start => do bus.start; return .done
  | .stop => do bus.stop; return .done
  | .sendBit bit => do bus.sendBit bit; return .done
  | .receiveBit => return .level (← bus.receiveBit)
  | .letGo => do bus.letGo; return .done
  | .sendByte byte => return .answer (← bus.sendByte byte)
  | .call (.write address register value) => do bus.transact address register value; return .done
  | .call (.writeBlock address start data) => do bus.writeBlock address start data; return .done

def stepAll (steps : List BusStep) :
    Routine (.lines L F) (Notice F) (List (Except (Failure F) BusResult)) :=
  steps.mapM' fun step => (bus.step step).run

theorem step_paced (step : BusStep) :
    (bus.step step : Action L F BusResult).run.Adds (Paced bus.halfPeriod) := by
  have hclosed := bus.closed_paced (F := F)
  have hdone {α : Type} (f : α → BusResult) (a : α) :
      (pure (f a) : Action L F BusResult).run.Adds (Paced bus.halfPeriod) := hclosed.pure (f a)
  rcases step with _ | _ | bit | _ | _ | byte | ⟨address, register, value⟩ | ⟨address, start, data⟩
  · exact hclosed.bind hclosed.start (hdone fun _ => .done)
  · exact hclosed.bind hclosed.stop (hdone fun _ => .done)
  · exact hclosed.bind (hclosed.sendBit bit) (hdone fun _ => .done)
  · exact hclosed.bind bus.receiveBit_paced (hdone .level)
  · exact hclosed.bind bus.letGo_paced (hdone fun _ => .done)
  · exact hclosed.bind (hclosed.sendByte byte) (hdone .answer)
  · exact hclosed.bind (hclosed.transact address register value) (hdone fun _ => .done)
  · exact hclosed.bind (hclosed.writeBlock address start data) (hdone fun _ => .done)

end Bus

def LineCall.repaced (period : UInt32) :
    (c : LineCall L) → Routine (.lines L F) N (c.Reply F)
  | .request line => .call (.request line) .done
  | .release line => .call (.release line) .done
  | .drive line high => .call (.drive line high) .done
  | .sample line => .call (.sample line) .done
  | .settle _ => .call (.settle period) .done
  | .wait ms => .call (.wait ms) .done

/-- Surroundings that cannot tell pauses apart. -/
def PauseBlind {σ : Type} (answer : (c : LineCall L) → σ → c.Reply F × σ) : Prop :=
  ∀ us us' s, answer (.settle us) s = answer (.settle us') s

def AnsweredCall.inPeriod (period : UInt32) : AnsweredCall L F → AnsweredCall L F
  | ⟨.settle _, _⟩ => ⟨.settle period, ()⟩
  | call => call

namespace Bus
open Routine

variable {α β : Type} (bus : Bus L) (period : UInt32)

def repace (act : Action L F α) : Action L F α :=
  ExceptT.mk (act.run.handle (LineCall.repaced period))

section Repace

variable {period}

theorem repace_pure (a : α) : repace period (pure a : Action L F α) = pure a := rfl

theorem repace_throw (failure : Failure F) :
    repace period (throw failure : Action L F α) = throw failure := rfl

theorem repace_bind (act : Action L F α) (f : α → Action L F β) :
    repace period (act >>= f) = repace period act >>= fun a => repace period (f a) := by
  refine ExceptT.ext ((handle_bind _ act.run _).trans ?_)
  apply bind_congr
  intro result
  cases result <;> rfl

theorem repace_tryCatch (act : Action L F α) (f : Failure F → Action L F α) :
    repace period (tryCatch act f) = tryCatch (repace period act) fun e => repace period (f e) := by
  refine ExceptT.ext ((handle_bind _ act.run _).trans ?_)
  apply bind_congr
  intro result
  cases result <;> rfl

theorem repace_reporting (notice : Failure F → Notice F) (act : Action L F α) :
    repace period (reporting notice act) = reporting notice (repace period act) := by
  refine ExceptT.ext ((handle_bind _ act.run _).trans ?_)
  apply bind_congr
  intro result
  cases result <;> rfl

theorem repace_note (n : Notice F) :
    repace period (Journal.note n : Action L F Unit) = Journal.note n := rfl

theorem repace_settle : repace period (bus.settle : Action L F Unit) =
    { bus with halfPeriod := period }.settle := rfl

theorem repace_setClock (high : Bool) : repace period (bus.setClock high : Action L F Unit) =
    { bus with halfPeriod := period }.setClock high := rfl

theorem repace_setData (high : Bool) : repace period (bus.setData high : Action L F Unit) =
    { bus with halfPeriod := period }.setData high := rfl

theorem repace_sampleData : repace period (bus.sampleData : Action L F UInt8) =
    { bus with halfPeriod := period }.sampleData := rfl

theorem repace_checkLevel (level : UInt8) :
    repace period (checkLevel level : Action L F UInt8) = checkLevel level := by
  unfold checkLevel
  split <;> rfl

theorem repace_start : repace period (bus.start : Action L F Unit) =
    { bus with halfPeriod := period }.start := by
  simp only [start, repace_bind, repace_settle, repace_setClock, repace_setData]

theorem repace_stop : repace period (bus.stop : Action L F Unit) =
    { bus with halfPeriod := period }.stop := by
  simp only [stop, repace_bind, repace_settle, repace_setClock, repace_setData]

theorem repace_sendBit (bit : Bool) : repace period (bus.sendBit bit : Action L F Unit) =
    { bus with halfPeriod := period }.sendBit bit := by
  simp only [sendBit, repace_bind, repace_settle, repace_setClock, repace_setData]

theorem repace_receiveBit : repace period (bus.receiveBit : Action L F UInt8) =
    { bus with halfPeriod := period }.receiveBit := by
  simp only [receiveBit, repace_bind, repace_settle, repace_setClock, repace_sampleData,
    repace_checkLevel, repace_pure]

theorem repace_letGo : repace period (bus.letGo : Action L F Unit) =
    { bus with halfPeriod := period }.letGo := by
  simp only [letGo, repace_bind, repace_settle, repace_setClock, repace_setData, repace_sampleData,
    repace_pure]

theorem repace_sendByte (byte : UInt8) : repace period (bus.sendByte byte : Action L F Acknowledge) =
    { bus with halfPeriod := period }.sendByte byte := by
  -- The bits are a loop, and everything else is a sequence of parts.
  have hbits (bits : List Bool) : repace period (bits.forM bus.sendBit : Action L F Unit) =
      bits.forM { bus with halfPeriod := period }.sendBit := by
    induction bits with
    | nil => rfl
    | cons bit bits ih =>
      rw [List.forM_eq_forM, List.forM_cons, repace_bind, repace_sendBit]
      exact congrArg _ (funext fun _ => ih)
  simp only [sendByte, repace_bind, hbits, repace_settle, repace_letGo, repace_receiveBit,
    repace_pure]

theorem repace_transact (address register value : UInt8) :
    repace period (bus.transact address register value : Action L F Unit) =
      { bus with halfPeriod := period }.transact address register value := by
  have hpart (part : BytePart) (byte : UInt8) (missing : Failure F) :
      repace period (bus.sendPart part byte missing : Action L F Unit) =
        { bus with halfPeriod := period }.sendPart part byte missing := by
    simp only [sendPart, repace_reporting, sendAcked, repace_bind, repace_sendByte]
    refine congrArg _ (congrArg _ (funext fun answer => ?_))
    cases answer <;> rfl
  simp only [transact, sendFrame, repace_bind, repace_note, repace_start, repace_tryCatch, hpart,
    repace_reporting, repace_stop, repace_pure, repace_throw]

theorem repace_writeBlock (address start : UInt8) (data : List UInt8) :
    repace period (bus.writeBlock address start data : Action L F Unit) =
      { bus with halfPeriod := period }.writeBlock address start data := by
  have hfrom (offset : Nat) :
      repace period (bus.writeFrom address start offset data : Action L F Unit) =
        { bus with halfPeriod := period }.writeFrom address start offset data := by
    induction data generalizing start offset with
    | nil => rfl
    | cons value values ih =>
      simp only [writeFrom, repace_bind, repace_reporting, repace_transact, ih]
  unfold writeBlock
  split
  · rfl
  · exact hfrom 0

theorem repace_step (step : BusStep) : repace period (bus.step step : Action L F BusResult) =
    { bus with halfPeriod := period }.step step := by
  rcases step with _ | _ | bit | _ | _ | byte | ⟨address, register, value⟩ | ⟨address, start, data⟩ <;>
    simp only [Bus.step, repace_bind, repace_pure, repace_start, repace_stop, repace_sendBit,
      repace_receiveBit, repace_letGo, repace_sendByte, repace_transact, repace_writeBlock]

end Repace

/-- The half period shows nowhere but in the length of the pauses. -/
theorem stepAll_repaced (steps : List BusStep) :
    { bus with halfPeriod := period }.stepAll steps =
      (bus.stepAll steps : Routine (.lines L F) (Notice F) _).handle (LineCall.repaced period) := by
  induction steps with
  | nil => rfl
  | cons step steps ih =>
    have hstep : (bus.step step : Action L F BusResult).run.handle (LineCall.repaced period) =
        ({ bus with halfPeriod := period }.step step).run :=
      congrArg ExceptT.run (bus.repace_step step)
    unfold stepAll at ih ⊢
    simp only [List.mapM'_cons, handle_bind, hstep, ih]
    rfl

section Runs

variable {σ : Type} (answer : (c : LineCall L) → σ → c.Reply F × σ)

/-- Such surroundings are the same for another half period. -/
theorem through_repaced (blind : PauseBlind answer) :
    (.answering answer : World (.lines L F) σ).through (LineCall.repaced (N := Notice F) period) =
      (.answering answer : World (.lines L F) σ) := by
  funext c s
  cases c with
  | settle us => exact congrArg some (blind period us s)
  | request line | release line | drive line high | sample line | wait ms => rfl

theorem stepAll_inPeriod (blind : PauseBlind answer)
    (steps : List BusStep) (s : σ) :
    let w : World (.lines L F) σ := .answering answer
    let run := (bus.stepAll steps).run w s
    let other := ({ bus with halfPeriod := period }.stepAll steps).run w s
    other.outcome = run.outcome ∧ other.world = run.world ∧
      callsOf other.events = (callsOf run.events).map (AnsweredCall.inPeriod period) := by
  intro w run other
  have hreturns (c : (Interface.lines L F).Call) (s : σ) :
      ∃ reply, ((LineCall.repaced (N := Notice F) period c).run w s).outcome = .returned reply := by
    cases c <;> exact ⟨_, rfl⟩
  -- The other run is this one with its calls made by handlers, in a world that is the same.
  obtain ⟨houtcome, hworld, hcalls⟩ := run_handle hreturns (bus.stepAll steps) s
  rw [← stepAll_repaced, through_repaced period answer blind] at houtcome hworld hcalls
  refine ⟨houtcome, hworld, hcalls.trans ?_⟩
  rw [callsOf_run, List.map_map, List.map_eq_flatMap]
  apply List.flatMap_congr
  intro x hx
  -- Each call is made once, and the world gives the same reply to it.
  obtain ⟨s', hx⟩ := exchanges_answered w hx
  obtain ⟨c, s, reply⟩ := x
  have hreply : (answer c s).1 = reply := congrArg Prod.fst (Option.some.inj hx)
  subst hreply
  cases c <;> rfl

/-- Whatever is done on a bus, in any order, each of it however the last one ended: every output that
succeeds has half a clock period right behind it, within the same step. So at least that much lies
between such an output and the next use of a line. No pause has another length; and in surroundings
that cannot tell pauses apart the run with another half period has the same results and makes the
same calls, but for the length of the pauses. -/
theorem steps_timed (steps : List BusStep) (s : σ) :
    let w : World (.lines L F) σ := .answering answer
    let run := (bus.stepAll steps).run w s
    (∃ runs : List (BusStep × σ), runs.map Prod.fst = steps ∧
      (∃ results, run.outcome = .returned results ∧
        List.Forall₂ (fun r result => ((bus.step r.1).run.run w r.2).outcome = .returned result)
          runs results) ∧
      run.events = runs.flatMap (fun r => ((bus.step r.1).run.run w r.2).events) ∧
      ∀ r ∈ runs, ∀ before line high after, ((bus.step r.1).run.run w r.2).events =
          before ++ .called (.drive line high) (.ok ()) :: after →
        ∃ rest, after = .called (.settle bus.halfPeriod) () :: rest) ∧
      (∀ before line high between (c : LineCall L) reply after, run.events =
          before ++ .called (.drive line high) (.ok ()) :: (between ++ .called c reply :: after) →
        c.isUse → bus.halfPeriod.toNat ≤ (Usage.ofEvents between).settled) ∧
      (∀ us reply, .called (.settle us) reply ∈ run.events → us = bus.halfPeriod) ∧
      ∀ period, PauseBlind answer →
        let other := ({ bus with halfPeriod := period }.stepAll steps).run w s
        other.outcome = run.outcome ∧ other.world = run.world ∧
          callsOf other.events = (callsOf run.events).map (AnsweredCall.inPeriod period) := by
  intro w run
  have hreturns (step : BusStep) (s : σ) :
      ∃ result, ((bus.step step).run.run w s).outcome = .returned result := by
    obtain ⟨result, hresult, _⟩ := (bus.step_paced step).run answer s
    exact ⟨result, hresult⟩
  obtain ⟨runs, hsteps, hresults, hevents⟩ := mapM'_runs hreturns steps s
  have hstep (r : BusStep × σ) : Paced bus.halfPeriod ((bus.step r.1).run.run w r.2).events := by
    obtain ⟨_, _, hpaced⟩ := (bus.step_paced r.1).run answer r.2
    exact hpaced
  -- Paced runs in a row are a paced run: no output is left without its pause in between.
  have hpaced : Paced bus.halfPeriod run.events := by
    obtain ⟨_, _, hpaced⟩ := (adds_mapM' Paced.joins bus.step_paced steps).run answer s
    exact hpaced
  refine ⟨⟨runs, hsteps, hresults, hevents, ?_⟩, ?_, ?_, ?_⟩
  · intro r _ before line high after hsplit
    have hr := hstep r
    rw [hsplit] at hr
    exact hr.followed
  · intro before line high between c reply after hsplit huse
    rw [hsplit] at hpaced
    exact hpaced.separated huse
  · intro us reply hmem
    exact hpaced.settle_eq hmem
  · intro period blind
    exact bus.stepAll_inPeriod period answer blind steps s

end Runs

/-- A byte that breaks off between two bits, and the stop condition behind it. -/
theorem steps_timed_broken :
    let bus : Bus UInt8 := ⟨defaultClock, defaultData, defaultHalfPeriod⟩
    let w : World (.lines UInt8 Unit) Nat := .answering (brokenLines 9)
    let steps : List BusStep := [.start, .sendByte 0x64, .stop]
    let run := (bus.stepAll steps).run w 0
    let other := ({ bus with halfPeriod := 50 }.stepAll steps).run w 0
    run.outcome = .returned [.ok .done, .error (.io ()), .ok .done] ∧
      PauseBlind (brokenLines (L := UInt8) 9) ∧
      other.outcome = run.outcome ∧
      callsOf other.events = (callsOf run.events).map (AnsweredCall.inPeriod 50) := by
  intro bus w steps run other
  have blind : PauseBlind (brokenLines (L := UInt8) 9) := fun us us' n => rfl
  obtain ⟨_, _, _, hother⟩ := steps_timed bus (brokenLines 9) steps 0
  obtain ⟨houtcome, _, hcalls⟩ := hother 50 blind
  exact ⟨by decide +kernel, blind, houtcome, hcalls⟩

end Bus

end LedSequencer
