import LedSequencer.Command.Play
import LedSequencer.Proofs.Bus.Ensures
import LedSequencer.Proofs.Bus.Transfers

/-! A command in phases: taking the bus, the work on it, and giving it up. Main statement: once the
bus is taken the clock line and then the data line are given up at the very end, and the work before
that consists of transfers and pauses. -/
namespace LedSequencer

/-- The calls of the work on a bus that was taken: transfers, and the pause between two attempts. -/
def Bus.Works {L : Type} (bus : Bus L) (c : LineCall L) : Prop :=
  bus.Transfers c ∨ c = .wait Command.retryDelay

namespace Bus
open Routine

variable {L F : Type} (bus : Bus L)

/-- Taking the bus makes some calls, with a result: the clock line cannot be had, or the data line
cannot and the clock line is given back, or both are taken. -/
inductive Takes : List ((c : LineCall L) × c.Reply F) → Except (Failure F) Unit → Prop where
  | refused (fault : F) : Takes [⟨.request bus.clock, .error fault⟩] (.error (.io fault))
  | rolledBack (fault : F) (reply : Except F Unit) :
      Takes [⟨.request bus.clock, .ok ()⟩, ⟨.request bus.data, .error fault⟩,
        ⟨.release bus.clock, reply⟩] (.error (.io fault))
  | taken : Takes [⟨.request bus.clock, .ok ()⟩, ⟨.request bus.data, .ok ()⟩] (.ok ())

theorem acquire_calls (past : List (Event (.lines L F) (Notice F))) :
    (bus.acquire : Action L F Unit).run.Ensures (fun events e => events ++ [e])
      (fun result events => ∃ calls, callsOf events = callsOf past ++ calls ∧
        bus.Takes calls result) past := by
  simp only [acquire, ensures_run_bind, ensures_reporting, ensures_run_tryCatch, ensures_takeLine,
    ensures_freeLine, ensures_run_note]
  refine ⟨fun fault => ⟨_, ?_, .refused fault⟩,
    fun fault => ⟨fun second => ⟨_, ?_, .rolledBack fault (.error second)⟩,
      ⟨_, ?_, .rolledBack fault (.ok ())⟩⟩, ⟨_, ?_, .taken⟩⟩
  all_goals simp [callsOf]

def releaseFailure? : Except F Unit → Except F Unit → Option (Failure F)
  | .error fault, _ => some (.io fault)
  | .ok _, .error fault => some (.io fault)
  | .ok _, .ok _ => none

theorem releaseFailure?_eq_none {clock data : Except F Unit} :
    releaseFailure? clock data = none ↔ clock = .ok () ∧ data = .ok () := by
  cases clock <;> cases data <;> simp [releaseFailure?]

theorem release_calls (past : List (Event (.lines L F) (Notice F))) :
    (bus.release : Action L F Unit).run.Ensures (fun events e => events ++ [e])
      (fun result events => ∃ clock data, callsOf events =
          callsOf past ++ [⟨.release bus.clock, clock⟩, ⟨.release bus.data, data⟩] ∧
        result = match releaseFailure? clock data with
          | some failure => .error failure
          | none => .ok ()) past := by
  simp only [release, ExceptT.run_mk, ensures_bind, ensures_reporting, ensures_freeLine]
  refine ⟨fun fault => ⟨fun second => ⟨.error fault, .error second, ?_, rfl⟩,
      .error fault, .ok (), ?_, rfl⟩,
    fun fault => ⟨.ok (), .error fault, ?_, rfl⟩, .ok (), .ok (), ?_, rfl⟩
  all_goals simp [callsOf]

end Bus

namespace Command
open Routine

variable {L F : Type}

theorem makes_bringUpFrom (device : Device L) (setup : Setup) (more attempt : Nat)
    (state : Option EngineStatus) :
    ((bringUpFrom device setup attempt more : Device.Action L F Unit).run.run state).Makes
      device.bus.Works := by
  have hup (notice : Failure F → Notice F) (state : Option EngineStatus) :
      ((reporting notice (device.perform (Chip.bringUp setup)) : Device.Action L F Unit).run.run
        state).Makes device.bus.Works := by
    have hgoes := (Chip.goes_bringUp (F := F) setup).reporting notice
    rw [← Device.perform_reporting]
    exact (device.makes_perform hgoes state).mono fun c => Or.inl
  induction more generalizing attempt state with
  | zero => exact hup _ state
  | succ more ih =>
    rw [bringUpFrom, ExceptT.run_tryCatch, StateT.run_bind]
    refine Makes.bind (hup _ state) ?_
    rintro ⟨failure | ⟨⟨⟩⟩, state⟩
    · exact ⟨Or.inr rfl, fun _ => ih (attempt + 1) state⟩
    · trivial

theorem makes_bringUpAndPlay (device : Device L) (setup : Setup) (tape : Tape)
    (state : Option EngineStatus) :
    ((bringUpAndPlay device setup tape : ExceptT (Phase × Failure F) (StateT (Option EngineStatus)
      (Routine (.lines L F) (Notice F))) Unit).run.run state).Makes device.bus.Works := by
  have hup := makes_bringUpFrom (F := F) device setup (attempts - 1) 1 state
  have hplay (state : Option EngineStatus) :
      ((device.perform (Chip.play tape.index) : Device.Action L F Unit).run.run state).Makes
        device.bus.Works :=
    (device.makes_perform (Chip.goes_play tape.all_index) state).mono fun c => Or.inl
  rw [bringUpAndPlay, ExceptT.run_bind, StateT.run_bind]
  refine Makes.bind (hup.map _) ?_
  rintro ⟨failure | ⟨⟨⟩⟩, state⟩
  · trivial
  · exact (hplay state).map _

def concluding : Except (Phase × Failure F) Unit → Except (Failure F) Unit →
    ExceptT (CommandFailure F) (Routine (.lines L F) (Notice F)) Unit
  | .ok (), .ok () => return
  | .ok (), .error failure => throw ⟨.release, failure, none⟩
  -- A failure of the work counts before one of giving up the bus.
  | .error (phase, failure), .ok () => throw ⟨phase, failure, none⟩
  | .error (phase, failure), .error second =>
    reporting (fun _ => .teardownFailed) (throw ⟨phase, failure, some second⟩)

def serve (bus : Bus L) (setup : Setup) (tape : Tape) :
    Routine (.lines L F) (Notice F) (Except (CommandFailure F) Unit) := do
  let (result, _) ← (bringUpAndPlay ⟨bus, Device.chipAddress⟩ setup tape).run.run none
  let teardown ← bus.release.run
  (concluding result teardown).run

/-- A command in two parts. -/
theorem play_run (bus : Bus L) (setup : Setup) (tape : Tape) :
    (play bus setup tape : ExceptT (CommandFailure F) (Routine (.lines L F) (Notice F)) Unit).run =
      bus.acquire.run >>= fun
        | .error failure => .done (.error ⟨.acquire, failure, none⟩)
        | .ok _ => serve bus setup tape := by
  have hadapt : ((bus.acquire : Bus.Action L F Unit).adapt fun failure =>
      (⟨.acquire, failure, none⟩ : CommandFailure F)).run =
        Except.mapError (fun failure => ⟨.acquire, failure, none⟩) <$> bus.acquire.run := rfl
  rw [play, ExceptT.run_bind, hadapt, bind_map_left]
  apply bind_congr
  intro acquired
  cases acquired with
  | error failure => rfl
  | ok =>
    dsimp only [Except.mapError]
    rw [ExceptT.run_bind, ExceptT.run_lift, bind_map_left, serve]
    apply bind_congr
    intro (result, _)
    dsimp only
    rw [ExceptT.run_bind, ExceptT.run_lift, bind_map_left]
    apply bind_congr
    intro teardown
    obtain ⟨phase, failure⟩ | ⟨⟨⟩⟩ := result <;> cases teardown <;> rfl

theorem serve_calls (bus : Bus L) (setup : Setup) (tape : Tape)
    (past : List (Event (.lines L F) (Notice F))) :
    (serve bus setup tape).Ensures (fun events e => events ++ [e])
      (fun _ events => ∃ work clock data,
        callsOf events = callsOf past ++
          (work ++ [⟨.release bus.clock, clock⟩, ⟨.release bus.data, data⟩]) ∧
        ∀ call ∈ work, bus.Works call.1) past := by
  have hwork := makes_bringUpAndPlay (F := F) ⟨bus, Device.chipAddress⟩ setup tape none
  rw [serve, ensures_bind]
  refine (hwork.adds past).mono ?_
  rintro ⟨result, _⟩ _ ⟨added, rfl, hall⟩
  have hcalls : callsOf (past ++ added) = callsOf past ++ callsOf added := callsOf_append past added
  rw [ensures_bind]
  refine (bus.release_calls _).mono ?_
  rintro teardown events ⟨clock, data, hrelease, _⟩
  have hend : callsOf events = callsOf past ++
      (callsOf added ++ [⟨.release bus.clock, clock⟩, ⟨.release bus.data, data⟩]) := by
    rw [hrelease, hcalls, List.append_assoc]
  -- The conclusion is drawn without a call.
  obtain ⟨phase, failure⟩ | ⟨⟨⟩⟩ := result
  · cases teardown with
    | ok => exact ⟨_, clock, data, hend, hall⟩
    | error second =>
      refine ⟨_, clock, data, ?_, hall⟩
      rw [callsOf_append, hend]
      exact List.append_nil _
  · cases teardown with
    | ok => exact ⟨_, clock, data, hend, hall⟩
    | error failure => exact ⟨_, clock, data, hend, hall⟩

/-- Where every call is answered the command returns. Its calls are those that try to take the bus
and, once it is taken, the work and the two that give up the lines. -/
theorem play_phases (bus : Bus L) (setup : Setup) (tape : Tape) {σ : Type}
    (answer : (c : LineCall L) → σ → c.Reply F × σ) (s : σ) :
    let w : World (.lines L F) σ := .answering answer
    let played := (play bus setup tape).run.run w s
    ∃ result taking ending serving,
      (bus.acquire.run.run w s).outcome = .returned result ∧ bus.Takes taking result ∧
      played.outcome = .returned ending ∧ callsOf played.events = taking ++ serving ∧
      match result with
      | .error failure => ending = .error ⟨.acquire, failure, none⟩ ∧ serving = []
      | .ok _ => ∃ work clock data,
          serving = work ++ [⟨.release bus.clock, clock⟩, ⟨.release bus.data, data⟩] ∧
            ∀ call ∈ work, bus.Works call.1 := by
  intro w played
  have hacquire := bus.acquire_calls (F := F) []
  obtain ⟨result, hresult⟩ := hacquire.returns answer s
  obtain ⟨taking, htaking, htakes⟩ := hacquire.recorded w hresult
  let acquired := (bus.acquire : Bus.Action L F Unit).run.run w s
  have hplayed : played = _ := congrArg (fun p => Routine.run w p s) (play_run bus setup tape)
  -- What follows depends on whether the bus could be taken.
  rw [run_bind, Run.andThen, hresult] at hplayed
  cases result with
  | error failure =>
    have hended : played.outcome = .returned (.error ⟨.acquire, failure, none⟩) := by
      rw [hplayed]
      rfl
    have hcalls : callsOf played.events = taking ++ [] := by
      rw [hplayed, Run.events_after, List.append_nil]
      exact (congrArg callsOf (List.append_nil _)).trans htaking
    exact ⟨.error failure, taking, _, [], hresult, htakes, hended, hcalls, rfl, rfl⟩
  | ok =>
    have hserve := serve_calls (F := F) bus setup tape []
    obtain ⟨ending, hending⟩ := hserve.returns answer acquired.world
    obtain ⟨work, clock, data, hserving, hall⟩ := hserve.recorded w hending
    have hended : played.outcome = .returned ending := by
      rw [hplayed]
      dsimp only [Run.after]
      exact hending
    have hcalls : callsOf played.events = taking ++
        (work ++ [⟨.release bus.clock, clock⟩, ⟨.release bus.data, data⟩]) := by
      rw [hplayed, Run.events_after, callsOf_append]
      show callsOf acquired.events ++ _ = _
      rw [htaking, hserving]
      rfl
    exact ⟨.ok (), taking, ending, _, hresult, htakes, hended, hcalls, work, clock, data, rfl, hall⟩

end Command

end LedSequencer
