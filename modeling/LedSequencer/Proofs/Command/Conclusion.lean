import LedSequencer.Proofs.Command.Attempts
import LedSequencer.Proofs.Line.Holding

/-! How a command ends. Main statement: the failure to take the bus, to bring up the chip or to
upload the tape is what the command fails with, and the failure to give up the bus comes beside it;
only where all of the work succeeded it stands alone. -/
namespace LedSequencer

variable {L F σ : Type}

/-- A line that is given up can fail, but not be refused. -/
theorem Bus.releaseFailure?_not_isRefusal {clock data : Except F Unit} {failure : Failure F}
    (h : releaseFailure? clock data = some failure) : failure.isRefusal = false := by
  cases clock with
  | error fault =>
    obtain rfl := Option.some.inj h
    rfl
  | ok =>
    cases data with
    | error fault =>
      obtain rfl := Option.some.inj h
      rfl
    | ok => exact absurd h nofun

namespace Command
open Routine

/-- A failure for which a command may end: it is no refusal, and only a failed bring-up or upload
carries a failure to give up the bus along. -/
structure Reportable (failure : CommandFailure F) : Prop where
  error : failure.error.isRefusal = false
  teardown : ∀ second ∈ failure.teardown, second.isRefusal = false
  phase : failure.teardown.isSome → failure.phase = .init ∨ failure.phase = .play

variable {phase : Phase} {failure : Failure F}

theorem reportable_alone (h : failure.isRefusal = false) : Reportable ⟨phase, failure, none⟩ :=
  ⟨h, nofun, nofun⟩

theorem reportable_work {clock data : Except F Unit} (h : failure.isRefusal = false)
    (hphase : phase = .init ∨ phase = .play) :
    Reportable ⟨phase, failure, Bus.releaseFailure? clock data⟩ :=
  ⟨h, fun _ hsecond => Bus.releaseFailure?_not_isRefusal hsecond, fun _ => hphase⟩

section Taken

variable {bus : Bus L} {setup : Setup} {tape : Tape} {answer : (c : LineCall L) → σ → c.Reply F × σ}
  {s : σ}

theorem attempt_unrefused {device : Device L} {a : Attempt σ} {result : Except (Failure F) Unit}
    {known : Option EngineStatus}
    (h : (attempt device setup (.answering answer) a).outcome = .returned (result, known)) :
    Unrefused result :=
  ((device.bringUp_confined setup a.known).recorded _ h).2

theorem uploading_unrefused {device : Device L} {last : Attempt σ}
    {result : Except (Failure F) Unit} {known after : Option EngineStatus}
    (h : (uploading device setup (.answering answer) tape last known).outcome =
      .returned (result, after)) : Unrefused result :=
  ((device.play_confined tape known).recorded _ h).2

/-- A command that cannot take the bus fails with that. -/
theorem play_refused (setup : Setup) (tape : Tape) {failure : Failure F}
    (h : ((bus.acquire : Bus.Action L F Unit).run.run (.answering answer) s).outcome =
      .returned (.error failure)) :
    ((play bus setup tape).run.run (.answering answer) s).outcome =
        .returned (.error ⟨.acquire, failure, none⟩) ∧ Reportable ⟨.acquire, failure, none⟩ := by
  obtain ⟨_, _, _, _, hacquired, _, hended, _, hcase⟩ := play_phases bus setup tape answer s
  obtain rfl := Outcome.returned.inj (h.symm.trans hacquired)
  obtain ⟨rfl, _⟩ := hcase
  have hrefused := ((bus.acquire_confined [] nofun).recorded _ h).2
  exact ⟨hended, reportable_alone (unrefused_error.1 hrefused)⟩

/-- The calls of a command that took the bus and ends by giving it up. What lies in between is
work. -/
theorem play_calls {front closing : List (Event (.lines L F) (Notice F))}
    {clock data : Except F Unit}
    (taken : ((bus.acquire : Bus.Action L F Unit).run.run (.answering answer) s).outcome =
      .returned (.ok ()))
    (hevents : ((play bus setup tape).run.run (.answering answer) s).events = front ++ closing)
    (hclosing : callsOf closing = [⟨.release bus.clock, clock⟩, ⟨.release bus.data, data⟩]) :
    ∃ work, callsOf ((play bus setup tape).run.run (.answering answer) s).events =
        [⟨.request bus.clock, .ok ()⟩, ⟨.request bus.data, .ok ()⟩] ++
          (work ++ [⟨.release bus.clock, clock⟩, ⟨.release bus.data, data⟩]) ∧
      ∀ call ∈ work, bus.Works call.1 := by
  obtain ⟨_, taking, _, _, hacquired, htakes, _, hsplit, hserving⟩ :=
    play_phases bus setup tape answer s
  obtain rfl := Outcome.returned.inj (taken.symm.trans hacquired)
  obtain _ | _ | _ := htakes
  obtain ⟨work, clock', data', rfl, hwork⟩ := hserving
  refine ⟨work, ?_, hwork⟩
  rw [hevents, callsOf_append, hclosing, ← List.append_assoc] at hsplit
  have hfront := (List.append_inj' hsplit rfl).1
  rw [hevents, callsOf_append, hclosing, hfront, List.append_assoc]

/-- A command that took the bus ends by how its work and giving up the bus went. -/
theorem play_served (setup : Setup) (tape : Tape)
    (taken : ((bus.acquire : Bus.Action L F Unit).run.run (.answering answer) s).outcome =
      .returned (.ok ())) :
    let w : World (.lines L F) σ := .answering answer
    let device : Device L := ⟨bus, Device.chipAddress⟩
    let taking := (bus.acquire : Bus.Action L F Unit).run.run w s
    let played := (play bus setup tape).run.run w s
    ∃ tried last brought known work clock data result,
      Tries device setup w ⟨none, taking.world⟩ tried last ∧
      tried.length < attempts ∧ (brought = .ok () ∨ tried.length + 1 = attempts) ∧
      (attempt device setup w last).outcome = .returned (brought, known) ∧
      callsOf played.events = [⟨.request bus.clock, .ok ()⟩, ⟨.request bus.data, .ok ()⟩] ++
        (work ++ [⟨.release bus.clock, clock⟩, ⟨.release bus.data, data⟩]) ∧
      (∀ call ∈ work, bus.Works call.1) ∧
      played.outcome = .returned (concluded result (Bus.releaseFailure? clock data)) ∧
      match brought with
      | .error failure => result = .error (.init, failure)
      | .ok _ => ∃ uploaded after,
          (uploading device setup w tape last known).outcome = .returned (uploaded, after) ∧
            result = uploaded.mapError fun failure => (.play, failure) := by
  intro w device taking played
  obtain ⟨tried, last, brought, known, clock, data, closing, htries, hlength, hends, hlast,
    hclosing, _, hcase⟩ := play_course setup answer bus tape taken
  cases brought with
  | error failure =>
    obtain ⟨hended, hevents⟩ := hcase
    have hfront : played.events = (taking.events ++ (triedEvents device setup w 1 tried ++
        ((attempt device setup w last).events ++ [.noted (.initFailed attempts failure)]))) ++
          closing := by
      simpa using hevents
    obtain ⟨work, hcalls, hwork⟩ := play_calls taken hfront hclosing
    exact ⟨tried, last, .error failure, known, work, clock, data, .error (.init, failure), htries,
      hlength, hends, hlast, hcalls, hwork, hended, rfl⟩
  | ok =>
    obtain ⟨uploaded, after, huploaded, hended, hevents⟩ := hcase
    have hfront : played.events = (taking.events ++ (triedEvents device setup w 1 tried ++
        ((attempt device setup w last).events ++
          (uploading device setup w tape last known).events))) ++ closing := by
      simpa using hevents
    obtain ⟨work, hcalls, hwork⟩ := play_calls taken hfront hclosing
    exact ⟨tried, last, .ok (), known, work, clock, data, _, htries, hlength, hends, hlast, hcalls,
      hwork, hended, uploaded, after, huploaded, rfl⟩

/-- What a command reports of its upload and of giving up the bus. -/
theorem reportable_of_upload {uploaded : Except (Failure F) Unit} {clock data : Except F Unit}
    {failure : CommandFailure F} (hupload : Unrefused uploaded)
    (h : concluded (uploaded.mapError fun failure => (.play, failure))
      (Bus.releaseFailure? clock data) = .error failure) : Reportable failure := by
  cases uploaded with
  | error first =>
    obtain rfl := Except.error.inj h
    exact reportable_work (unrefused_error.1 hupload) (Or.inr rfl)
  | ok =>
    cases hteardown : Bus.releaseFailure? clock data with
    | none =>
      rw [hteardown] at h
      exact absurd h nofun
    | some second =>
      rw [hteardown] at h
      obtain rfl := Except.error.inj h
      exact reportable_alone (Bus.releaseFailure?_not_isRefusal hteardown)

end Taken

/-- If the bus cannot be taken, the command fails with that. Otherwise both lines are given up in
the end, the clock line first, and `Bus.releaseFailure?` is the first failure among these two
calls, if there is one. A command whose attempts all failed ends with the failure of the last
attempt, one whose upload failed ends with the failure of the upload, and in both cases it carries
along the failure to give up the bus. That failure is all the command fails with if the work
succeeded; if both did, the command succeeds. It never fails with a refusal. -/
theorem play_reports (bus : Bus L) (setup : Setup) (tape : Tape)
    (answer : (c : LineCall L) → σ → c.Reply F × σ) (s : σ) :
    let w : World (.lines L F) σ := .answering answer
    let device : Device L := ⟨bus, Device.chipAddress⟩
    let taking := (bus.acquire : Bus.Action L F Unit).run.run w s
    let played := (play bus setup tape).run.run w s
    ((∃ failure, taking.outcome = .returned (.error failure) ∧
        played.outcome = .returned (.error ⟨.acquire, failure, none⟩)) ∨
      (taking.outcome = .returned (.ok ()) ∧ ∃ tried last brought known work clock data,
        Tries device setup w ⟨none, taking.world⟩ tried last ∧
        tried.length + 1 ≤ 15 ∧ (brought = .ok () ∨ tried.length + 1 = 15) ∧
        (attempt device setup w last).outcome = .returned (brought, known) ∧
        callsOf played.events = [⟨.request bus.clock, .ok ()⟩, ⟨.request bus.data, .ok ()⟩] ++
          (work ++ [⟨.release bus.clock, clock⟩, ⟨.release bus.data, data⟩]) ∧
        (∀ call ∈ work, bus.Works call.1) ∧
        match brought with
        | .error failure => played.outcome =
            .returned (.error ⟨.init, failure, Bus.releaseFailure? clock data⟩)
        | .ok _ => ∃ uploaded after,
            (uploading device setup w tape last known).outcome = .returned (uploaded, after) ∧
            played.outcome = .returned (match uploaded, Bus.releaseFailure? clock data with
              | .error failure, teardown => .error ⟨.play, failure, teardown⟩
              | .ok _, some failure => .error ⟨.release, failure, none⟩
              | .ok _, none => .ok ()))) ∧
      ∃ result, played.outcome = .returned result ∧
        ∀ failure, result = .error failure → Reportable failure := by
  intro w device taking played
  obtain ⟨result, hresult⟩ := (bus.acquire_confined (F := F) [] nofun).returns answer s
  cases result with
  | error failure =>
    obtain ⟨hended, hreportable⟩ := play_refused setup tape hresult
    refine ⟨Or.inl ⟨failure, hresult, hended⟩, _, hended, ?_⟩
    rintro _ ⟨⟩
    exact hreportable
  | ok =>
    obtain ⟨tried, last, brought, known, work, clock, data, result, htries, hlength, hends, hlast,
      hcalls, hwork, hended, hcase⟩ := play_served setup tape hresult
    cases brought with
    | error failure =>
      obtain rfl := hcase
      refine ⟨Or.inr ⟨hresult, tried, last, .error failure, known, work, clock, data, htries,
        hlength, hends, hlast, hcalls, hwork, hended⟩, _, hended, ?_⟩
      rintro _ ⟨⟩
      exact reportable_work (unrefused_error.1 (attempt_unrefused hlast)) (Or.inl rfl)
    | ok =>
      obtain ⟨uploaded, after, huploaded, rfl⟩ := hcase
      refine ⟨Or.inr ⟨hresult, tried, last, .ok (), known, work, clock, data, htries, hlength,
        hends, hlast, hcalls, hwork, uploaded, after, huploaded, ?_⟩, _, hended, fun failure h =>
          reportable_of_upload (uploading_unrefused huploaded) h⟩
      -- The conclusion of the upload is the one stated, whichever of the two failed.
      rw [hended]
      cases uploaded with
      | error failure => rfl
      | ok =>
        cases Bus.releaseFailure? clock data with
        | none => rfl
        | some failure => rfl

end Command

end LedSequencer
