import LedSequencer.Line.Usage
import LedSequencer.Proofs.Command.Attempts
import LedSequencer.Proofs.Line.Holding

/-! How often a command tries to bring up the chip. Main statement: at most 15 times, with a pause
of 100 milliseconds between two attempts and no other wait, and it uploads once if an attempt
succeeds and not at all if none does. -/
namespace LedSequencer

variable {L F N σ : Type}

theorem Usage.waits_append (a b : List (Event (.lines L F) N)) :
    (ofEvents (a ++ b)).waits = (ofEvents a).waits ++ (ofEvents b).waits := by
  induction a with
  | nil => rfl
  | cons e a ih =>
    have hcons (events : List (Event (.lines L F) N)) :
        (ofEvents (e :: events)).waits = (ofEvents [e]).waits ++ (ofEvents events).waits := by
      rcases e with ⟨_ | _ | _ | _ | _ | _, _⟩ | _ <;> rfl
    rw [List.cons_append, hcons, ih, hcons a, List.append_assoc]

def Notice.attempt? : Notice F → Option Nat
  | attemptFailed attempt _ _ => some attempt
  | _ => none

def retriesOf (events : List (Event (.lines L F) (Notice F))) : List Nat :=
  (notices events).filterMap Notice.attempt?

theorem retriesOf_append (a b : List (Event (.lines L F) (Notice F))) :
    retriesOf (a ++ b) = retriesOf a ++ retriesOf b := by
  rw [retriesOf, notices, List.filterMap_append, List.filterMap_append]
  rfl

/-- Without an event of a retry there is no wait and no report of an attempt. -/
theorem Unretried.quiet {events : List (Event (.lines L F) (Notice F))} (h : Unretried events) :
    (Usage.ofEvents events).waits = [] ∧ retriesOf events = [] := by
  induction events with
  | nil => exact ⟨rfl, rfl⟩
  | cons e events ih =>
    obtain ⟨he, hevents⟩ := List.forall_mem_cons.1 h
    obtain ⟨hwaits, hretries⟩ := ih hevents
    have hone : (Usage.ofEvents [e]).waits = [] ∧ retriesOf [e] = [] := by
      cases e with
      | called c reply =>
        cases c with
        | wait ms => exact absurd he nofun
        | _ => exact ⟨rfl, rfl⟩
      | noted n =>
        cases n with
        | attemptFailed attempt attempts failure => exact absurd he nofun
        | _ => exact ⟨rfl, rfl⟩
    rw [← List.singleton_append, Usage.waits_append, retriesOf_append, hone.1, hone.2, hwaits,
      hretries]
    exact ⟨rfl, rfl⟩

namespace Command
open Routine

section Attempts

variable {device : Device L} {setup : Setup} {w : World (.lines L F) σ}

/-- All attempts but the last one failed. -/
theorem Tries.failed {a last : Attempt σ} {tried : List (Attempt σ × Failure F)}
    (h : Tries device setup w a tried last) :
    ∀ t ∈ tried, ∃ known, (attempt device setup w t.1).outcome =
      .returned (.error t.2, known) := by
  induction h with
  | last a => exact nofun
  | again failed paused rest ih => exact List.forall_mem_cons.2 ⟨⟨_, failed⟩, ih⟩

/-- Every attempt starts over with the write that resets the chip. -/
theorem attempt_resets (bus : Bus L) (setup : Setup) (w : World (.lines L F) σ) (a : Attempt σ) :
    ((bus.transact 0x64 0x3F 0xFF).run.run w a.world).events <+:
      (attempt ⟨bus, Device.chipAddress⟩ setup w a).events := by
  have hfirst : ∃ rest, (Device.perform ⟨bus, Device.chipAddress⟩
      (Chip.bringUp setup : Chip.Action F Unit)).run.run a.known =
        (bus.transact 0x64 0x3F 0xFF).run >>= rest := ⟨_, rfl⟩
  obtain ⟨rest, hrest⟩ := hfirst
  rw [attempt, hrest, events_bind]
  exact List.prefix_append _ _

/-- An upload begins with the write that puts the engines into load mode. -/
theorem uploading_loads (bus : Bus L) (setup : Setup) (w : World (.lines L F) σ) (tape : Tape)
    (last : Attempt σ) (known : Option EngineStatus) :
    let device : Device L := ⟨bus, Device.chipAddress⟩
    ((bus.transact 0x64 0x02 0x54).run.run w (attempt device setup w last).world).events <+:
      (uploading device setup w tape last known).events := by
  intro device
  have hfirst : ∃ rest, (device.perform (Chip.play tape.index : Chip.Action F Unit)).run.run known =
      (bus.transact 0x64 0x02 0x54).run >>= rest := by
    rw [Chip.play_eq]
    exact ⟨_, rfl⟩
  obtain ⟨rest, hrest⟩ := hfirst
  rw [uploading, hrest, events_bind]
  exact List.prefix_append _ _

/-- The waits and the reports among the failed attempts: one of each behind every attempt. -/
theorem quiet_triedEvents (device : Device L) (setup : Setup)
    (answer : (c : LineCall L) → σ → c.Reply F × σ)
    (tried : List (Attempt σ × Failure F)) (number : Nat) :
    (Usage.ofEvents (triedEvents device setup (.answering answer) number tried)).waits =
        List.replicate tried.length 100 ∧
      retriesOf (triedEvents device setup (.answering answer) number tried) =
        List.range' number tried.length := by
  induction tried generalizing number with
  | nil => exact ⟨rfl, rfl⟩
  | cons t tried ih =>
    obtain ⟨a, failure⟩ := t
    obtain ⟨_, _, _, hevents⟩ := attempt_returned device setup answer a
    obtain ⟨hwaits, hretries⟩ := hevents.quiet
    obtain ⟨hmoreWaits, hmoreRetries⟩ := ih (number + 1)
    have hpause (events : List (Event (.lines L F) (Notice F))) :
        (Usage.ofEvents (.noted (.attemptFailed number attempts failure) ::
            .called (.wait retryDelay) () :: events)).waits = 100 :: (Usage.ofEvents events).waits ∧
          retriesOf (.noted (.attemptFailed number attempts failure) ::
            .called (.wait retryDelay) () :: events) = number :: retriesOf events := ⟨rfl, rfl⟩
    rw [triedEvents, Usage.waits_append, retriesOf_append, hwaits, hretries, (hpause _).1,
      (hpause _).2, hmoreWaits, hmoreRetries]
    exact ⟨rfl, rfl⟩

end Attempts

/-- A command that took the bus tries to bring up the chip up to 15 times. All attempts but the
last one failed, the last one succeeded or is the fifteenth, and each of them starts over with a
reset. Between two attempts there are the report of the failure, with the number of the attempt,
and a pause; there is no other wait and no other such report. Behind the last attempt the tape is
uploaded once if the attempt succeeded, from the write that puts the engines into load mode on,
whatever becomes of the upload; otherwise the failure of the attempt is reported and is what the
command fails with. All that follows is that both lines are given up. -/
theorem play_retries (bus : Bus L) (setup : Setup) (tape : Tape)
    (answer : (c : LineCall L) → σ → c.Reply F × σ) (s : σ)
    (taken : ((bus.acquire : Bus.Action L F Unit).run.run (.answering answer) s).outcome =
      .returned (.ok ())) :
    let w : World (.lines L F) σ := .answering answer
    let device : Device L := ⟨bus, Device.chipAddress⟩
    let taking := (bus.acquire : Bus.Action L F Unit).run.run w s
    let played := (play bus setup tape).run.run w s
    ∃ tried last brought known, ∃ rest closing : List (Event (.lines L F) (Notice F)),
      Tries device setup w ⟨none, taking.world⟩ tried last ∧
      tried.length + 1 ≤ 15 ∧
      (∀ t ∈ tried, ∃ known, (attempt device setup w t.1).outcome =
        .returned (.error t.2, known)) ∧
      (attempt device setup w last).outcome = .returned (brought, known) ∧
      (∀ a ∈ tried.map Prod.fst ++ [last],
        ((bus.transact 0x64 0x3F 0xFF).run.run w a.world).events <+:
          (attempt device setup w a).events) ∧
      played.events = taking.events ++ (triedEvents device setup w 1 tried ++
        ((attempt device setup w last).events ++ (rest ++ closing))) ∧
      (Usage.ofEvents played.events).waits = List.replicate tried.length 100 ∧
      retriesOf played.events = List.range' 1 tried.length ∧
      (match brought with
        | .error failure => tried.length + 1 = 15 ∧
            rest = [.noted (.initFailed 15 failure)] ∧
            ∃ teardown, played.outcome = .returned (.error ⟨.init, failure, teardown⟩)
        | .ok _ => rest = (uploading device setup w tape last known).events ∧
            ((bus.transact 0x64 0x02 0x54).run.run w
              (attempt device setup w last).world).events <+: rest) ∧
      ∃ clock data, callsOf closing =
        [⟨.release bus.clock, clock⟩, ⟨.release bus.data, data⟩] := by
  intro w device taking played
  obtain ⟨tried, last, brought, known, clock, data, closing, htries, hlength, hends, hlast, hcalls,
    hclosing, hcase⟩ := play_course setup answer bus tape taken
  have hresets : ∀ a ∈ tried.map Prod.fst ++ [last],
      ((bus.transact 0x64 0x3F 0xFF).run.run w a.world).events <+:
        (attempt device setup w a).events := fun a _ => attempt_resets bus setup w a
  have htaking : Unretried taking.events := (bus.acquire_confined [] nofun).recorded w taken |>.1
  have hattempt : Unretried (attempt device setup w last).events := by
    obtain ⟨_, _, _, hevents⟩ := attempt_returned device setup answer last
    exact hevents
  -- Only the pauses between the attempts contribute to the waits and to the reports.
  have hquiet {rest : List (Event (.lines L F) (Notice F))} (hrest : Unretried rest)
      (hevents : played.events = taking.events ++ (triedEvents device setup w 1 tried ++
        ((attempt device setup w last).events ++ (rest ++ closing)))) :
      (Usage.ofEvents played.events).waits = List.replicate tried.length 100 ∧
        retriesOf played.events = List.range' 1 tried.length := by
    have hbehind := unretried_append.2 ⟨hattempt, unretried_append.2 ⟨hrest, hclosing⟩⟩
    obtain ⟨hwaits, hretries⟩ := quiet_triedEvents device setup answer tried 1
    rw [hevents]
    constructor
    · rw [Usage.waits_append, Usage.waits_append, htaking.quiet.1, hwaits, hbehind.quiet.1,
        List.nil_append, List.append_nil]
    · rw [retriesOf_append, retriesOf_append, htaking.quiet.2, hretries, hbehind.quiet.2,
        List.nil_append, List.append_nil]
  cases brought with
  | error failure =>
    obtain ⟨houtcome, hevents⟩ := hcase
    have hall : tried.length + 1 = 15 := hends.resolve_left nofun
    have hreport : Unretried [(.noted (.initFailed 15 failure) : Event (.lines L F) (Notice F))] :=
      unretried_singleton.2 rfl
    obtain ⟨hwaits, hretries⟩ := hquiet hreport hevents
    exact ⟨tried, last, .error failure, known, [.noted (.initFailed 15 failure)], closing, htries,
      hlength, htries.failed, hlast, hresets, hevents, hwaits, hretries, ⟨hall, rfl, _, houtcome⟩,
      clock, data, hcalls⟩
  | ok =>
    obtain ⟨uploaded, after, _, _, hevents⟩ := hcase
    obtain ⟨_, _, _, hupload⟩ := uploading_returned device setup answer tape last known
    obtain ⟨hwaits, hretries⟩ := hquiet hupload hevents
    exact ⟨tried, last, .ok (), known, (uploading device setup w tape last known).events, closing,
      htries, hlength, htries.failed, hlast, hresets, hevents, hwaits, hretries,
      ⟨rfl, uploading_loads bus setup w tape last known⟩, clock, data, hcalls⟩

/-- The first output of the first attempt fails, the second attempt succeeds, and the upload fails
with its first output: it is not tried again. -/
theorem play_retries_second :
    let bus : Bus UInt8 := ⟨Bus.defaultClock, Bus.defaultData, Bus.defaultHalfPeriod⟩
    let device : Device UInt8 := ⟨bus, Device.chipAddress⟩
    let w : World (.lines UInt8 Unit) (List UInt8 × Nat) :=
      .answering (exclusiveLines [2, 1264])
    let taking := (bus.acquire : Bus.Action UInt8 Unit Unit).run.run w ([], 0)
    let played := (play bus .standard .boot).run.run w ([], 0)
    taking.outcome = .returned (.ok ()) ∧
      (Usage.ofEvents played.events).waits = [100] ∧ retriesOf played.events = [1] ∧
      ∃ first last known closing, Tries device .standard w ⟨none, taking.world⟩ [first] last ∧
        (attempt device .standard w last).outcome = .returned (.ok (), known) ∧
        played.events = taking.events ++ (triedEvents device .standard w 1 [first] ++
          ((attempt device .standard w last).events ++
            ((uploading device .standard w .boot last known).events ++ closing))) := by
  intro bus device w taking played
  have taken : taking.outcome = .returned (.ok ()) := rfl
  have hpauses : (Usage.ofEvents played.events).waits = [100] := by decide +kernel
  obtain ⟨tried, last, brought, known, rest, closing, htries, _, _, hlast, _, hevents, hwaits,
    hretries, hcase, _⟩ := play_retries bus .standard .boot (exclusiveLines [2, 1264]) ([], 0) taken
  have hone : tried.length = 1 := by
    have hlength := congrArg List.length (hwaits.symm.trans hpauses)
    rwa [List.length_replicate] at hlength
  rw [hone] at hretries
  obtain ⟨first, rfl⟩ := List.length_eq_one_iff.1 hone
  cases brought with
  | error failure => exact absurd hcase.1 nofun
  | ok =>
    obtain ⟨rfl, _⟩ := hcase
    exact ⟨taken, hpauses, hretries, first, last, known, closing, htries, hlast, hevents⟩

end Command

end LedSequencer
