import LedSequencer.Proofs.Bus.Confined
import LedSequencer.Proofs.Command.Phases
import LedSequencer.Proofs.Routine.Returns

/-! The attempts of a command to bring up the chip. Main statement: once the bus is taken a command
consists of attempts, all but the last one failed and followed by a pause, then of one upload if the
last attempt succeeded, and of giving up the bus. -/
namespace LedSequencer

structure Attempt (σ : Type) where
  known : Option EngineStatus
  world : σ

namespace Bus
open Routine

variable {L F : Type} (bus : Bus L)

theorem takeLine_confined (line : L) : Confined (takeLine line : Action L F Unit) := by
  intro past hpast
  rw [ensures_takeLine]
  exact ⟨fun fault => ⟨hpast.snoc rfl, unrefused_error.2 rfl⟩, hpast.snoc rfl, unrefused_ok ()⟩

theorem freeLine_confined (line : L) : Confined (freeLine line : Action L F Unit) := by
  intro past hpast
  rw [ensures_freeLine]
  exact ⟨fun fault => ⟨hpast.snoc rfl, unrefused_error.2 rfl⟩, hpast.snoc rfl, unrefused_ok ()⟩

theorem acquire_confined : Confined (bus.acquire : Action L F Unit) := by
  have hrollback (failure : Failure F) (h : failure.isRefusal = false) : Confined (do
      tryCatch (reporting (fun _ => .rollbackFailed) (freeLine bus.clock)) fun _ => pure ()
      throw failure : Action L F Unit) :=
    (((freeLine_confined bus.clock).reporting fun _ => rfl).tryCatch fun _ _ =>
      confined_pure ()).bind fun _ => confined_throw h
  refine ((takeLine_confined bus.clock).reporting fun _ => rfl).bind fun _ => ?_
  refine (((takeLine_confined bus.data).reporting fun _ => rfl).tryCatch hrollback).bind fun _ => ?_
  exact fun _ hpast => ⟨hpast.snoc rfl, unrefused_ok ()⟩

theorem release_confined : Confined (bus.release : Action L F Unit) := by
  intro past hpast
  have hclock : Confined (reporting (fun _ => .freeFailed true) (freeLine bus.clock) :
      Action L F Unit) := (freeLine_confined bus.clock).reporting fun _ => rfl
  have hdata : Confined (reporting (fun _ => .freeFailed false) (freeLine bus.data) :
      Action L F Unit) := (freeLine_confined bus.data).reporting fun _ => rfl
  rw [release, ExceptT.run_mk, ensures_bind]
  refine (hclock past hpast).mono ?_
  rintro clock events ⟨hevents, hfirst⟩
  rw [ensures_bind]
  refine (hdata events hevents).mono ?_
  rintro data events ⟨hevents, hsecond⟩
  cases clock with
  | error failure => exact ⟨hevents, unrefused_error.2 (unrefused_error.1 hfirst)⟩
  | ok => exact ⟨hevents, hsecond⟩

end Bus

namespace Command
open Routine

variable {L F σ : Type}

section Attempts

variable (device : Device L) (setup : Setup) (w : World (.lines L F) σ)

def attempt (a : Attempt σ) :
    Run (.lines L F) (Notice F) σ (Except (Failure F) Unit × Option EngineStatus) :=
  ((device.perform (Chip.bringUp setup)).run.run a.known).run w a.world

def uploading (tape : Tape) (last : Attempt σ) (known : Option EngineStatus) :
    Run (.lines L F) (Notice F) σ (Except (Failure F) Unit × Option EngineStatus) :=
  ((device.perform (Chip.play tape.index)).run.run known).run w (attempt device setup w last).world

/-- Attempts one after the other, each of them from where the pause after the one before it ends.
All of `tried` failed, each with its failure; `last` is the attempt behind them. -/
inductive Tries : Attempt σ → List (Attempt σ × Failure F) → Attempt σ → Prop where
  | last (a : Attempt σ) : Tries a [] a
  | again {a last : Attempt σ} {failure : Failure F} {known : Option EngineStatus} {s : σ}
      {tried : List (Attempt σ × Failure F)}
      (failed : (attempt device setup w a).outcome = .returned (.error failure, known))
      (paused : w (.wait retryDelay) (attempt device setup w a).world = some ((), s))
      (rest : Tries ⟨known, s⟩ tried last) : Tries a ((a, failure) :: tried) last

/-- The events of failed attempts that are numbered from `number` on: each of them is reported and
followed by a pause. -/
def triedEvents (number : Nat) :
    List (Attempt σ × Failure F) → List (Event (.lines L F) (Notice F))
  | [] => []
  | (a, failure) :: tried => (attempt device setup w a).events ++
      (.noted (.attemptFailed number attempts failure) :: .called (.wait retryDelay) () ::
        triedEvents (number + 1) tried)

end Attempts

section Runs

variable (device : Device L) (setup : Setup) (answer : (c : LineCall L) → σ → c.Reply F × σ)

/-- Every attempt returns, and without a wait. -/
theorem attempt_returned (a : Attempt σ) :
    ∃ result known, (attempt device setup (.answering answer) a).outcome =
        .returned (result, known) ∧
      Unretried (attempt device setup (.answering answer) a).events := by
  have hconfined := device.bringUp_confined (F := F) setup a.known
  obtain ⟨⟨result, known⟩, hreturned⟩ := hconfined.returns answer a.world
  exact ⟨result, known, hreturned, (hconfined.recorded _ hreturned).1⟩

theorem uploading_returned (tape : Tape) (last : Attempt σ) (known : Option EngineStatus) :
    ∃ result after, (uploading device setup (.answering answer) tape last known).outcome =
        .returned (result, after) ∧
      Unretried (uploading device setup (.answering answer) tape last known).events := by
  have hconfined := device.play_confined (F := F) tape known
  obtain ⟨⟨result, after⟩, hreturned⟩ :=
    hconfined.returns answer (attempt device setup (.answering answer) last).world
  exact ⟨result, after, hreturned, (hconfined.recorded _ hreturned).1⟩

/-- The loop over the attempts: with `more` attempts left it makes at most as many again, and it
ends with the first that succeeds or with the last one. -/
theorem bringUpFrom_returns (more number : Nat) (a : Attempt σ) :
    ∃ tried last result known, Tries device setup (.answering answer) a tried last ∧
      tried.length ≤ more ∧ (result = .ok () ∨ tried.length = more) ∧
      (attempt device setup (.answering answer) last).outcome = .returned (result, known) ∧
      ((bringUpFrom device setup number more : Device.Action L F Unit).run.run a.known).Returns
        (.answering answer) a.world (result, known)
        (attempt device setup (.answering answer) last).world
        (triedEvents device setup (.answering answer) number tried ++
          ((attempt device setup (.answering answer) last).events ++
            reported (.initFailed (number + more)) result)) := by
  -- By induction on the attempts left: the next one begins behind the pause after a failure.
  induction more generalizing number a with
  | zero =>
    obtain ⟨result, known, hreturned, _⟩ := attempt_returned device setup answer a
    refine ⟨[], a, result, known, .last a, Nat.le_refl 0, Or.inr rfl, hreturned, ?_⟩
    exact (returns_of_outcome hreturned).reporting_stateful _
  | succ more ih =>
    obtain ⟨result, known, hreturned, _⟩ := attempt_returned device setup answer a
    have hfirst := (returns_of_outcome hreturned).reporting_stateful
      (.attemptFailed number attempts)
    rw [bringUpFrom, ExceptT.run_tryCatch, StateT.run_bind]
    cases result with
    | ok =>
      refine ⟨[], a, .ok (), known, .last a, Nat.zero_le _, Or.inl rfl, hreturned, ?_⟩
      rw [← List.append_nil (_ ++ reported _ (.ok ()))]
      exact hfirst.bind (returns_done _)
    | error failure =>
      let failed := attempt device setup (.answering answer) a
      let paused := answer (.wait retryDelay) failed.world
      have hpause : (.answering answer : World (.lines L F) σ) (.wait retryDelay) failed.world =
          some ((), paused.2) := rfl
      obtain ⟨tried, last, result, after, htries, hlength, hends, hlast, hrest⟩ :=
        ih (number + 1) ⟨known, paused.2⟩
      refine ⟨(a, failure) :: tried, last, result, after, .again hreturned hpause htries,
        Nat.succ_le_succ hlength, hends.imp_right (congrArg Nat.succ), hlast, ?_⟩
      have hnumber : number + (more + 1) = number + 1 + more := by omega
      have hevents : triedEvents device setup (.answering answer) number ((a, failure) :: tried) ++
          ((attempt device setup (.answering answer) last).events ++
            reported (.initFailed (number + (more + 1))) result) =
          ((attempt device setup (.answering answer) a).events ++
            reported (.attemptFailed number attempts) (.error failure : Except (Failure F) Unit)) ++
          ([.called (.wait retryDelay) ()] ++
            (triedEvents device setup (.answering answer) (number + 1) tried ++
              ((attempt device setup (.answering answer) last).events ++
                reported (.initFailed (number + 1 + more)) result))) := by
        simp [triedEvents, reported, hnumber]
      rw [hevents]
      exact hfirst.bind ((returns_call hpause).bind hrest)

def concluded : Except (Phase × Failure F) Unit → Option (Failure F) →
    Except (CommandFailure F) Unit
  | .error (phase, failure), teardown => .error ⟨phase, failure, teardown⟩
  | .ok _, some failure => .error ⟨.release, failure, none⟩
  | .ok _, none => .ok ()

/-- The end of a command: the bus is given up, and the conclusion drawn. -/
theorem closing_returns (bus : Bus L) (result : Except (Phase × Failure F) Unit) (s : σ) :
    ∃ clock data s' closing,
      (bus.release.run >>= fun teardown => (concluding result teardown).run).Returns
        (.answering answer) s (concluded result (Bus.releaseFailure? clock data)) s' closing ∧
      callsOf closing = [⟨.release bus.clock, clock⟩, ⟨.release bus.data, data⟩] ∧
      Unretried closing := by
  have hcalls := bus.release_calls (F := F) []
  obtain ⟨teardown, hreturned⟩ := hcalls.returns answer s
  obtain ⟨clock, data, hclosing, hteardown⟩ := hcalls.recorded _ hreturned
  have hevents := ((bus.release_confined (F := F) [] nofun).recorded _ hreturned).1
  have hrelease := returns_of_outcome hreturned
  -- The conclusion makes no call, and leaves a notice only where a failure is one of two.
  have hconclusion (s : σ) : ∃ more, (concluding result teardown).run.Returns (.answering answer) s
      (concluded result (Bus.releaseFailure? clock data)) s more ∧ callsOf more = [] ∧
        Unretried more := by
    rw [hteardown]
    obtain ⟨phase, failure⟩ | ⟨⟨⟩⟩ := result
    · cases Bus.releaseFailure? clock data with
      | none => exact ⟨[], returns_done _, rfl, nofun⟩
      | some second =>
        refine ⟨[.noted .teardownFailed], ?_, rfl, unretried_singleton.2 rfl⟩
        exact (returns_done _).reporting _
    · cases Bus.releaseFailure? clock data with
      | none => exact ⟨[], returns_done _, rfl, nofun⟩
      | some failure => exact ⟨[], returns_done _, rfl, nofun⟩
  obtain ⟨more, hmore, hnone, hquiet⟩ := hconclusion _
  refine ⟨clock, data, _, _, hrelease.bind hmore, ?_, unretried_append.2 ⟨hevents, hquiet⟩⟩
  rw [callsOf_append, hclosing, hnone, List.append_nil]
  rfl

/-- The work of a command: the attempts, and the upload behind the last one if that one succeeded.
-/
theorem bringUpAndPlay_returns (tape : Tape) (a : Attempt σ) :
    let w : World (.lines L F) σ := .answering answer
    ∃ tried last brought known result after s' events,
      Tries device setup w a tried last ∧
      tried.length < attempts ∧ (brought = .ok () ∨ tried.length + 1 = attempts) ∧
      (attempt device setup w last).outcome = .returned (brought, known) ∧
      ((bringUpAndPlay device setup tape : ExceptT (Phase × Failure F) (StateT (Option EngineStatus)
        (Routine (.lines L F) (Notice F))) Unit).run.run a.known).Returns w a.world
          (result, after) s'
          (triedEvents device setup w 1 tried ++ ((attempt device setup w last).events ++ events)) ∧
      match brought with
      | .error failure => result = .error (.init, failure) ∧
          events = [.noted (.initFailed attempts failure)]
      | .ok _ => ∃ uploaded,
          (uploading device setup w tape last known).outcome = .returned (uploaded, after) ∧
            result = uploaded.mapError (fun failure => (.play, failure)) ∧
            events = (uploading device setup w tape last known).events := by
  intro w
  obtain ⟨tried, last, brought, known, htries, hlength, hends, hlast, hup⟩ :=
    bringUpFrom_returns device setup answer (attempts - 1) 1 a
  have hlength : tried.length < attempts := Nat.lt_succ_of_le hlength
  have hends : brought = .ok () ∨ tried.length + 1 = attempts := hends.imp_right (congrArg Nat.succ)
  have hinit := hup.adapt fun failure => (Phase.init, failure)
  cases brought with
  | error failure =>
    exact ⟨tried, last, .error failure, known, .error (.init, failure), known, _, _, htries,
      hlength, hends, hlast, hinit.bind_error, rfl, rfl⟩
  | ok =>
    obtain ⟨uploaded, after, huploaded, _⟩ := uploading_returned device setup answer tape last known
    have hplay := (returns_of_outcome huploaded).adapt fun failure => (Phase.play, failure)
    have hwork := hinit.bind_ok (f := fun _ =>
      (device.perform (Chip.play tape.index)).adapt fun failure => (Phase.play, failure)) hplay
    rw [List.append_assoc, List.append_assoc] at hwork
    exact ⟨tried, last, .ok (), known, _, after, _, _, htries, hlength, hends, hlast, hwork,
      uploaded, huploaded, rfl, rfl⟩

/-- A command that took the bus, from its first attempt to its end. -/
theorem play_course (bus : Bus L) (tape : Tape) {s : σ}
    (taken : ((bus.acquire : Bus.Action L F Unit).run.run (.answering answer) s).outcome =
      .returned (.ok ())) :
    let w : World (.lines L F) σ := .answering answer
    let device : Device L := ⟨bus, Device.chipAddress⟩
    let taking := (bus.acquire : Bus.Action L F Unit).run.run w s
    let played := (play bus setup tape).run.run w s
    ∃ tried last brought known clock data, ∃ closing : List (Event (.lines L F) (Notice F)),
      Tries device setup w ⟨none, taking.world⟩ tried last ∧
      tried.length < attempts ∧ (brought = .ok () ∨ tried.length + 1 = attempts) ∧
      (attempt device setup w last).outcome = .returned (brought, known) ∧
      callsOf closing = [⟨.release bus.clock, clock⟩, ⟨.release bus.data, data⟩] ∧
      Unretried closing ∧
      match brought with
      | .error failure =>
          played.outcome =
            .returned (.error ⟨.init, failure, Bus.releaseFailure? clock data⟩) ∧
          played.events = taking.events ++ (triedEvents device setup w 1 tried ++
            ((attempt device setup w last).events ++
              (.noted (.initFailed attempts failure) :: closing)))
      | .ok _ => ∃ uploaded after,
          (uploading device setup w tape last known).outcome = .returned (uploaded, after) ∧
          played.outcome = .returned (concluded (uploaded.mapError fun failure => (.play, failure))
            (Bus.releaseFailure? clock data)) ∧
          played.events = taking.events ++ (triedEvents device setup w 1 tried ++
            ((attempt device setup w last).events ++
              ((uploading device setup w tape last known).events ++ closing))) := by
  intro w device taking played
  obtain ⟨tried, last, brought, known, result, after, s', events, htries, hlength, hends, hlast,
    hwork, hcase⟩ := bringUpAndPlay_returns device setup answer tape ⟨none, taking.world⟩
  obtain ⟨clock, data, s'', closing, hclosing, hcalls, hquiet⟩ :=
    closing_returns answer bus result s'
  have hserve : (serve bus setup tape).Returns w taking.world _ s'' _ := hwork.bind hclosing
  rw [List.append_assoc, List.append_assoc] at hserve
  have hplay : (play bus setup tape).run.Returns w s
      (concluded result (Bus.releaseFailure? clock data)) s'' (taking.events ++
        (triedEvents device setup w 1 tried ++ ((attempt device setup w last).events ++
          (events ++ closing)))) := by
    rw [play_run]
    exact (returns_of_outcome taken).bind hserve
  refine ⟨tried, last, brought, known, clock, data, closing, htries, hlength, hends, hlast, hcalls,
    hquiet, ?_⟩
  cases brought with
  | error failure =>
    obtain ⟨rfl, rfl⟩ := hcase
    exact ⟨hplay.outcome, hplay.events⟩
  | ok =>
    obtain ⟨uploaded, huploaded, rfl, rfl⟩ := hcase
    exact ⟨uploaded, after, huploaded, hplay.outcome, hplay.events⟩

end Runs

end Command

end LedSequencer
