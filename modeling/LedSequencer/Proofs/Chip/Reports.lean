import LedSequencer.Proofs.Chip.Session
import Mathlib.Data.List.Nodup

/-! What the operations on the chip report. Main statement: an operation that succeeds reports no
error, and one that fails reports the step whose access failed, once, with the failure; the reports
of different steps begin with different texts. -/
namespace LedSequencer
open Routine

namespace ChipStep

def heading (step : ChipStep) : String := "failed to " ++ step.text ++ ": "

def plain : List ChipStep :=
  [.reset, .enable, .configure, .startAddress, .loadMode, .muxPage, .muxTable, .programPage,
    .program, .halt, .run, .freeRun]

theorem mem_plain (step : ChipStep) : step ∈ plain ∨ ∃ led, step = .ledCurrent led := by
  cases step with
  | ledCurrent led => exact .inr ⟨led, rfl⟩
  | _ => exact .inl (by decide)

theorem toList_text_ledCurrent (led : UInt8) : (ledCurrent led).text.toList =
    "set current of LED ".toList ++ Nat.toDigits 10 led.toNat := by
  have htext : (ledCurrent led).text =
      "set current of LED " ++ String.ofList (Nat.toDigits 10 led.toNat) := rfl
  rw [htext, String.toList_append]
  exact congrArg _ String.toList_ofList

theorem text_injective {a b : ChipStep} (h : a.text = b.text) : a = b := by
  have hplain : (plain.map text).Nodup := by decide
  have hother : ∀ step ∈ plain, ¬ "set current of LED ".toList <+: step.text.toList := by decide
  have hled (led : UInt8) : "set current of LED ".toList <+: (ledCurrent led).text.toList :=
    ⟨_, (toList_text_ledCurrent led).symm⟩
  obtain ha | ⟨first, rfl⟩ := mem_plain a
  · obtain hb | ⟨second, rfl⟩ := mem_plain b
    · exact List.inj_on_of_nodup_map hplain ha hb h
    · exact absurd (h ▸ hled second) (hother a ha)
  · obtain hb | ⟨second, rfl⟩ := mem_plain b
    · exact absurd (h ▸ hled first) (hother b hb)
    · -- The number of an LED is read off its digits.
      have hdigits : Nat.toDigits 10 first.toNat = Nat.toDigits 10 second.toNat := by
        have hlist := congrArg String.toList h
        rwa [toList_text_ledCurrent, toList_text_ledCurrent, List.append_right_inj] at hlist
      have hnumber : first.toNat = second.toNat := by
        rw [← Nat.ofDigitChars_ten_toDigits (n := first.toNat), hdigits,
          Nat.ofDigitChars_ten_toDigits]
      rw [UInt8.toNat_inj.1 hnumber]

theorem colon_not_mem_text (step : ChipStep) : ':' ∉ step.text.toList := by
  obtain hstep | ⟨led, rfl⟩ := mem_plain step
  · have hplain : ∀ step ∈ plain, ':' ∉ step.text.toList := by decide
    exact hplain step hstep
  · rw [toList_text_ledCurrent, List.mem_append]
    rintro (hword | hdigit)
    · exact absurd hword (by decide)
    · exact absurd (Nat.isDigit_of_mem_toDigits (by decide) (by decide) hdigit) (by decide)

/-- A text that begins like the report of one step begins like that of no other. -/
theorem eq_of_heading {a b : ChipStep} {rest : String}
    (h : a.heading.toList <+: (b.heading ++ rest).toList) : a = b := by
  -- The text before the first colon is that of the step.
  have hlist (step : ChipStep) : step.heading.toList =
      ("failed to ".toList ++ step.text.toList) ++ ':' :: [' '] := by
    simp only [heading, String.toList_append]
    rfl
  have hcolon (step : ChipStep) : ':' ∉ "failed to ".toList ++ step.text.toList := by
    rw [List.mem_append, not_or]
    exact ⟨by decide, step.colon_not_mem_text⟩
  have htake (step : ChipStep) (more : List Char) :
      (step.heading.toList ++ more).takeWhile (· != ':') =
        "failed to ".toList ++ step.text.toList := by
    rw [hlist, List.append_assoc, List.takeWhile_append_of_pos, List.cons_append,
      List.takeWhile_cons_of_neg (by decide), List.append_nil]
    exact fun c hc => bne_iff_ne.2 fun heq => hcolon step (heq ▸ hc)
  obtain ⟨more, hmore⟩ := h
  rw [String.toList_append] at hmore
  have htexts := congrArg (List.takeWhile (· != ':')) hmore
  rw [htake, htake, List.append_right_inj] at htexts
  exact text_injective (String.toList_inj.1 htexts)

end ChipStep

variable {F σ : Type}

def errorsOf {I : Interface} (events : List (Event I (Notice F))) : List (Notice F) :=
  (notices events).filter fun n => n.severity = .error

theorem errorsOf_append {I : Interface} (a b : List (Event I (Notice F))) :
    errorsOf (a ++ b) = errorsOf a ++ errorsOf b := by
  rw [errorsOf, notices, List.filterMap_append, List.filter_append]
  rfl

/-- A run made some accesses strictly in order, and reported nothing as an error if it ended well.
Otherwise one access failed, the last one, and the errors reported are that of its step and
`behind`. -/
def Run.Reports
    (r : Run (.registers F) (Notice F) σ (Except (Failure F) Unit × Option EngineStatus))
    (accesses : List RegisterCall) (steps : List ChipStep) (behind : Failure F → List (Notice F)) :
    Prop :=
  ∃ result last, r.outcome = .returned (result, last) ∧
    match result with
    | .ok _ => callsOf r.events = accesses.map AnsweredAccess.made ∧ errorsOf r.events = []
    | .error failure => ∃ (i : Nat) (c : RegisterCall) (step : ChipStep),
        accesses[i]? = some c ∧ steps[i]? = some step ∧
          callsOf r.events = (accesses.take i).map AnsweredAccess.made ++ [.missed c failure] ∧
          errorsOf r.events = .stepFailed step failure :: behind failure

inductive Stage.Passed :
    List Stage → Except (Failure F) Unit → List (Event (.registers F) (Notice F)) → Prop where
  | nil : Passed [] (.ok ()) []
  | failed (stage : Stage) (stages : List Stage) (failure : Failure F) :
    Passed (stage :: stages) (.error failure)
      [.called stage.access (.error failure), .noted (.stepFailed stage.step failure)]
  | passed (stage : Stage) {stages : List Stage} {result : Except (Failure F) Unit}
      {events : List (Event (.registers F) (Notice F))} (rest : Passed stages result events) :
    Passed (stage :: stages) result (.called stage.access (.ok ()) :: events)

/-- What some stages leave in the log: nothing if all pass, or the step of the one that failed. -/
theorem Stage.Passed.reports {stages : List Stage} {result : Except (Failure F) Unit}
    {events : List (Event (.registers F) (Notice F))} (h : Passed stages result events) :
    match result with
    | .ok _ => callsOf events = (stages.map Stage.access).map AnsweredAccess.made ∧
        errorsOf events = []
    | .error failure => ∃ (i : Nat) (stage : Stage), stages[i]? = some stage ∧
        callsOf events =
          ((stages.map Stage.access).take i).map AnsweredAccess.made ++
            [.missed stage.access failure] ∧
        errorsOf events = [.stepFailed stage.step failure] := by
  induction h with
  | nil => exact ⟨rfl, rfl⟩
  | failed stage stages failure => exact ⟨0, stage, rfl, rfl, rfl⟩
  | @passed stage stages result events rest ih =>
    cases result with
    | ok =>
      obtain ⟨hcalls, herrors⟩ := ih
      exact ⟨congrArg (List.cons _) hcalls, herrors⟩
    | error failure =>
      obtain ⟨i, failed, hi, hcalls, herrors⟩ := ih
      exact ⟨i + 1, failed, hi, congrArg (List.cons _) hcalls, herrors⟩

namespace Chip

/-- The first of some stages, and what follows on the reply to its access. -/
theorem run_passAll_cons (stage : Stage) (stages : List Stage) (known : Option EngineStatus) :
    (passAll (stage :: stages) : Action F Unit).run.run known = .call stage.access fun
      | .ok () => (passAll stages : Action F Unit).run.run (stage.reaches.or known)
      | .error failure =>
        .note (.stepFailed stage.step failure) (.done (.error failure, known)) := by
  obtain ⟨step, c, reaches⟩ := stage
  rw [passAll_cons]
  refine congrArg (Routine.call (I := .registers F) c) (funext fun reply => ?_)
  cases reply with
  | error failure => rfl
  | ok => cases reaches <;> rfl

theorem passAll_passes (stages : List Stage) (known : Option EngineStatus)
    (past : List (Event (.registers F) (Notice F))) :
    ((passAll stages : Action F Unit).run.run known).Ensures (fun events e => events ++ [e])
      (fun ending events => ∃ more, events = past ++ more ∧ Stage.Passed stages ending.1 more)
        past := by
  induction stages generalizing known past with
  | nil => exact ⟨[], (List.append_nil past).symm, .nil⟩
  | cons stage stages ih =>
    rw [run_passAll_cons]
    intro reply
    -- An access that fails is the last one; behind one that succeeds the other stages follow.
    cases reply with
    | error failure => exact ⟨_, List.append_assoc past _ _, .failed stage stages failure⟩
    | ok =>
      refine (ih _ _).mono ?_
      rintro ending events ⟨more, rfl, hmore⟩
      exact ⟨_, List.append_assoc past _ _, .passed stage hmore⟩

/-- Whatever the replies to its accesses are, an operation goes through some stages, and the errors
that it reports are theirs and, if it fails, `behind`. -/
def Logs (act : Action F Unit) (stages : List Stage) (behind : Failure F → List (Notice F)) :
    Prop :=
  ∀ known, (act.run.run known).Ensures (fun events e => events ++ [e])
    (fun ending events => ∃ passed, Stage.Passed stages ending.1 passed ∧
      callsOf events = callsOf passed ∧
        errorsOf events = errorsOf passed ++
          match ending.1 with
          | .ok _ => []
          | .error failure => behind failure) []

section Rules

variable {act : Action F Unit} {stages : List Stage} {behind : Failure F → List (Notice F)}

/-- What is noted when all stages are passed is no error. -/
theorem logs_passAll (stages : List Stage) {rest : Action F Unit}
    (hrest : ∀ known, ∃ (n : Notice F) (last : Option EngineStatus), n.severity ≠ .error ∧
      rest.run.run known = .note n (.done (.ok (), last))) :
    Logs (passAll stages >>= fun _ => rest) stages fun _ => [] := by
  intro known
  rw [ExceptT.run_bind, StateT.run_bind, ensures_bind]
  refine (passAll_passes stages known []).mono ?_
  rintro ⟨result, middle⟩ passed ⟨_, rfl, hpassed⟩
  cases result with
  | error failure => exact ⟨passed, hpassed, rfl, (List.append_nil _).symm⟩
  | ok =>
    obtain ⟨n, last, hn, hnote⟩ := hrest middle
    have hquiet : errorsOf [(.noted n : Event (.registers F) (Notice F))] = [] := by
      simp [errorsOf, notices, hn]
    show (rest.run.run middle).Ensures _ _ _
    rw [hnote]
    refine ⟨passed, hpassed, ?_, ?_⟩
    · rw [callsOf_append]
      exact List.append_nil _
    · rw [errorsOf_append, hquiet]

/-- A report of the whole operation comes behind that of the step. -/
theorem Logs.reporting (h : Logs act stages fun _ => []) {notice : Failure F → Notice F}
    (hnotice : ∀ failure, (notice failure).severity = .error) :
    Logs (LedSequencer.reporting notice act) stages fun failure => [notice failure] := by
  intro known
  refine (ensures_bind _ _ _ _).2 ((h known).mono ?_)
  rintro ⟨result, last⟩ events ⟨passed, hpassed, hcalls, herrors⟩
  cases result with
  | ok => exact ⟨passed, hpassed, hcalls, herrors⟩
  | error failure =>
    have hone : errorsOf [(.noted (notice failure) : Event (.registers F) (Notice F))] =
        [notice failure] := by
      simp [errorsOf, notices, hnotice]
    refine ⟨passed, hpassed, ?_, ?_⟩
    · rw [callsOf_append, hcalls]
      exact List.append_nil _
    · rw [errorsOf_append, herrors, hone, List.append_nil]

/-- The runs of such an operation. -/
theorem Logs.reports (h : Logs act stages behind)
    (answer : (c : RegisterCall) → σ → Except (Failure F) Unit × σ) (known : Option EngineStatus)
    (s : σ) :
    Run.Reports ((act.run.run known).run (.answering answer) s) (stages.map Stage.access)
      (stages.map Stage.step) behind := by
  obtain ⟨⟨result, last⟩, hreturned⟩ := (h known).returns answer s
  obtain ⟨passed, hpassed, hcalls, herrors⟩ := (h known).recorded _ hreturned
  refine ⟨result, last, hreturned, ?_⟩
  have hreports := hpassed.reports
  cases result with
  | ok =>
    obtain ⟨hall, hnone⟩ := hreports
    exact ⟨hcalls.trans hall, by rw [herrors, hnone]; rfl⟩
  | error failure =>
    obtain ⟨i, stage, hi, hbefore, hone⟩ := hreports
    refine ⟨i, stage.access, stage.step, ?_, ?_, hcalls.trans hbefore, ?_⟩
    · rw [List.getElem?_map, hi]
      rfl
    · rw [List.getElem?_map, hi]
      rfl
    · rw [herrors, hone]
      rfl

end Rules

theorem logs_bringUp (setup : Setup) :
    Logs (bringUp setup : Action F Unit) (bringUpStages setup) fun _ => [] := by
  rw [bringUp_eq]
  exact logs_passAll _ fun _ => ⟨.chipConfigured, some .configured, nofun, rfl⟩

theorem logs_upload (ledMux program : List UInt8) :
    Logs (upload ledMux program : Action F Unit) (uploadStages ledMux program) fun _ => [] := by
  rw [upload_eq]
  exact logs_passAll _ fun known => ⟨.engineRunning, known, nofun, rfl⟩

theorem logs_play {index : Nat} {tape : Tape} (h : Tape.all[index]? = some tape) :
    Logs (play index : Action F Unit) (uploadStages tape.ledMux Tape.playerCode)
      fun failure => [.tapeFailed index failure] := by
  rw [play, h]
  refine Logs.reporting ?_ fun _ => rfl
  rw [uploadAndRun_eq (fits_tape tape)]
  exact logs_upload tape.ledMux Tape.playerCode

/-- Whichever accesses fail: bringing up the chip and uploading to it report one error if they fail
and none if they succeed, and so does a tape, which reports its own failure behind that of the step.
The error is that of the step whose access failed, in the order of the accesses; a refused upload
and a tape that there is not are reported once. Each report of a failed access ends with the text of
the failure, and no report of one step begins like that of another. -/
theorem operations_report (answer : (c : RegisterCall) → σ → Except (Failure F) Unit × σ)
    (known : Option EngineStatus) (s : σ) (setup : Setup) (ledMux program : List UInt8)
    (index : Nat) :
    let run (op : Operation) := Turn.run ⟨op, known, s⟩ (.answering answer)
    let bringUpSteps : List ChipStep := [.reset, .enable, .configure, .startAddress] ++
      [0, 3, 6, 1, 4, 7, 2, 5, 8].map .ledCurrent
    let uploadSteps : List ChipStep :=
      [.loadMode, .muxPage, .muxTable, .programPage, .program, .halt, .run, .freeRun]
    let tape : Tape := if index = 0 then .boot else .error
    (run (.bringUp setup)).Reports setup.accesses bringUpSteps (fun _ => []) ∧
    (if ledMux.length ≤ 32 ∧ program.length ≤ 32 then
      (run (.uploadAndRun ledMux program)).Reports (uploadAccesses ledMux program) uploadSteps
        fun _ => []
    else ∃ length, (run (.uploadAndRun ledMux program)).outcome =
        .returned (.error (.programTooLarge length), known) ∧
      errorsOf (run (.uploadAndRun ledMux program)).events = [.uploadTooLarge]) ∧
    (if index < 2 then
      (run (.play index)).Reports (uploadAccesses tape.ledMux Tape.playerCode) uploadSteps
        fun failure => [.tapeFailed index failure]
    else (run (.play index)).outcome = .returned (.error (.indexOutOfRange index), known) ∧
      errorsOf (run (.play index)).events = [.noSuchTape index]) ∧
    bringUpSteps.Nodup ∧ uploadSteps.Nodup ∧
    ∀ fault : F → String,
      (∀ step failure, (Notice.stepFailed step failure).text fault =
        step.heading ++ failure.text fault) ∧
      (∀ failure, (Notice.tapeFailed index failure).text fault =
        s!"failed to play tape {index}: " ++ failure.text fault) ∧
      ∀ step other failure,
        step.heading.toList <+: ((Notice.stepFailed other failure).text fault).toList →
          step = other := by
  intro run bringUpSteps uploadSteps tape
  have htext (fault : F → String) (step : ChipStep) (failure : Failure F) :
      (Notice.stepFailed step failure).text fault = step.heading ++ failure.text fault := rfl
  refine ⟨(logs_bringUp setup).reports answer known s, ?_, ?_, by decide, by decide, fun fault =>
    ⟨htext fault, fun failure => rfl, ?_⟩⟩
  · split
    · rename_i hfits
      have hupload : (run (.uploadAndRun ledMux program)) =
          ((upload ledMux program).run.run known).run (.answering answer) s := by
        rw [← uploadAndRun_eq hfits]
        rfl
      rw [hupload]
      exact (logs_upload ledMux program).reports answer known s
    · rename_i hlong
      -- A buffer does not fit: that is reported, and no access is made.
      obtain ⟨length, hlength⟩ := Option.ne_none_iff_exists'.1 (mt oversize?_eq_none.1 hlong)
      have hrefused : run (.uploadAndRun ledMux program) =
          Routine.run (.answering answer) (.note .uploadTooLarge
            (.done (.error (.programTooLarge length), known))) s := by
        simp only [run, Turn.run, Operation.action, uploadAndRun, hlength]
        rfl
      rw [hrefused]
      exact ⟨length, rfl, rfl⟩
  · by_cases hindex : index < 2
    · rw [if_pos hindex]
      exact (logs_play (Tape.all_of_lt hindex)).reports answer known s
    · rw [if_neg hindex]
      have htape : Tape.all[index]? = none := Tape.all_of_le (Nat.not_lt.1 hindex)
      have hrefused : run (.play index) =
          Routine.run (.answering answer) (.note (.noSuchTape index)
            (.done (.error (.indexOutOfRange index), known))) s := by
        simp only [run, Turn.run, Operation.action, play, htape]
        rfl
      rw [hrefused]
      exact ⟨rfl, rfl⟩
  · intro step other failure h
    rw [htext] at h
    exact ChipStep.eq_of_heading h

end Chip

end LedSequencer
