import LedSequencer.Proofs.Command.Conclusion
import LedSequencer.Proofs.Command.Holding

/-! Lines that a command leaves behind. Main statement: a command that ends with a line it took
reports a failure to give up a line, except where taking the bus failed half-way and the clock line
could not be given back. -/
namespace LedSequencer

variable {L F σ : Type} [DecidableEq L]

/-- Who cannot take the bus leaves at most the clock line behind, because giving it back failed. -/
theorem Bus.Takes.leaves_of_error {bus : Bus L} {calls : List (AnsweredCall L F)}
    {held now : List L} {failure : Failure F} (h : bus.Takes calls (.error failure))
    (hnow : heldAfterAll? held calls = some now) {line : L} (free : line ∉ held)
    (leaked : line ∈ now) :
    line = bus.clock ∧ ∃ fault second, failure = .io fault ∧
      calls = [⟨.request bus.clock, .ok ()⟩, ⟨.request bus.data, .error fault⟩,
        ⟨.release bus.clock, .error second⟩] := by
  have hfails : ¬ ∀ call ∈ calls, releaseFails call = false := by
    intro hrelease
    exact free (h.held_of_error hnow hrelease ▸ leaked)
  cases h with
  | refused fault => exact absurd (by simp [releaseFails]) hfails
  | rolledBack fault reply =>
    cases reply with
    | ok => exact absurd (by simp [releaseFails]) hfails
    | error second =>
      -- Of the three calls only the first one changed what is held.
      rw [heldAfterAll?_cons, Option.bind_eq_some_iff] at hnow
      obtain ⟨first, hfirst, hrest⟩ := hnow
      obtain ⟨_, rfl⟩ := heldAfter?_request.1 hfirst
      obtain rfl := Option.some.inj hrest
      rcases List.mem_append.1 leaked with hheld | hclock
      · exact absurd hheld free
      · exact ⟨List.mem_singleton.1 hclock, fault, second, rfl, rfl⟩

namespace Command
open Routine

omit [DecidableEq L] in
/-- A failure to give up the bus is reported, alone or beside another one. -/
theorem concluded_some (result : Except (Phase × Failure F) Unit) (second : Failure F) :
    ∃ failure, concluded result (some second) = .error failure ∧
      (failure.phase = .release ∨ failure.teardown.isSome) := by
  rcases result with ⟨phase, failure⟩ | _
  · exact ⟨⟨phase, failure, some second⟩, rfl, Or.inr rfl⟩
  · exact ⟨⟨.release, second, none⟩, rfl, Or.inl rfl⟩

/-- On exclusive lines, a command behind which a line is held that was free before fails, and what
it reports is a failed release: its phase is that of giving up the bus, or it carries such a
failure along. The exception is the clock line if the data line could not be had and then the clock
line could not be given back: the command then fails with the first of these faults alone. -/
theorem play_leaks (bus : Bus L) (setup : Setup) (tape : Tape)
    {answer : (c : LineCall L) → σ → c.Reply F × σ} {held : σ → List L}
    (exclusive : Exclusive (.answering answer) held) (s : σ) (line : L) (free : line ∉ held s)
    (leaked : line ∈ held ((play bus setup tape).run.run (.answering answer) s).world) :
    let played := (play bus setup tape).run.run (.answering answer) s
    ∃ failure, played.outcome = .returned (.error failure) ∧
      (failure.phase = .release ∨ failure.teardown.isSome ∨
        (line = bus.clock ∧ ∃ fault second, failure = ⟨.acquire, .io fault, none⟩ ∧
          callsOf played.events = [⟨.request bus.clock, .ok ()⟩, ⟨.request bus.data, .error fault⟩,
            ⟨.release bus.clock, .error second⟩])) := by
  intro played
  have hheld : heldAfterAll? (held s) (callsOf played.events) = some (held played.world) :=
    exclusive.run _ s
  obtain ⟨result, taking, ending, serving, hacquired, htakes, hended, hcalls, hserving⟩ :=
    play_phases bus setup tape answer s
  cases result with
  | error failure =>
    obtain ⟨rfl, rfl⟩ := hserving
    have hnone : callsOf played.events = taking := hcalls.trans (List.append_nil taking)
    rw [hnone] at hheld
    obtain ⟨hline, fault, second, rfl, hrollback⟩ := htakes.leaves_of_error hheld free leaked
    exact ⟨_, hended, Or.inr (Or.inr ⟨hline, fault, second, rfl, hnone.trans hrollback⟩)⟩
  | ok =>
    obtain ⟨_, _, _, _, work, clock, data, result, _, _, _, _, hserved, hwork, hend, _⟩ :=
      play_served setup tape hacquired
    replace hserved : callsOf played.events = _ := hserved
    rw [hserved] at hheld
    cases hteardown : Bus.releaseFailure? clock data with
    | none =>
      -- Both lines were given up, so nothing is left behind.
      obtain ⟨rfl, rfl⟩ := Bus.releaseFailure?_eq_none.1 hteardown
      have hback : held played.world = held s := Bus.held_of_taken hwork hheld rfl rfl
      exact absurd (hback ▸ leaked) free
    | some second =>
      rw [hteardown] at hend
      obtain ⟨failure, hconcluded, hreports⟩ := concluded_some result second
      exact ⟨failure, hend.trans (congrArg Outcome.returned hconcluded),
        hreports.imp_right Or.inl⟩

/-- The chip never comes up because the first output of each attempt fails, and then the clock line
is not given up. -/
theorem play_leaks_givenUp :
    let bus : Bus UInt8 := ⟨Bus.defaultClock, Bus.defaultData, Bus.defaultHalfPeriod⟩
    let w : World (.lines UInt8 Unit) (List UInt8 × Nat) :=
      .answering (exclusiveLines (List.range' 2 16))
    let played := (play bus .standard .boot).run.run w ([7], 0)
    Exclusive w Prod.fst ∧ bus.clock ∉ [7] ∧ bus.clock ∈ played.world.1 ∧
      ∃ failure, played.outcome = .returned (.error failure) ∧
        (failure.phase = .release ∨ failure.teardown.isSome) := by
  intro bus w played
  have exclusive : Exclusive w Prod.fst := exclusiveLines_exclusive _
  have free : bus.clock ∉ [7] := by decide
  have leaked : bus.clock ∈ played.world.1 := by decide +kernel
  obtain ⟨failure, hended, hreports⟩ :=
    play_leaks bus .standard .boot exclusive ([7], 0) bus.clock free (by decide +kernel)
  have hcount : (callsOf played.events).length ≠ 3 := by decide +kernel
  refine ⟨exclusive, free, leaked, failure, hended, ?_⟩
  rcases hreports with hphase | hteardown | ⟨_, _, _, _, hcalls⟩
  · exact Or.inl hphase
  · exact Or.inr hteardown
  · exact absurd (congrArg List.length hcalls) hcount

/-- The data line cannot be had, and giving back the clock line fails. The clock line stays held,
and the command reports neither. -/
theorem play_leaks_rollback :
    let bus : Bus UInt8 := ⟨Bus.defaultClock, Bus.defaultData, Bus.defaultHalfPeriod⟩
    let w : World (.lines UInt8 Unit) (List UInt8 × Nat) := .answering (exclusiveLines [1, 2])
    let played := (play bus .standard .boot).run.run w ([], 0)
    Exclusive w Prod.fst ∧ bus.clock ∉ [] ∧ bus.clock ∈ played.world.1 ∧
      ¬ ∃ failure, played.outcome = .returned (.error failure) ∧
        (failure.phase = .release ∨ failure.teardown.isSome) := by
  intro bus w played
  have hended : played.outcome = .returned (.error ⟨.acquire, .io (), none⟩) := rfl
  refine ⟨exclusiveLines_exclusive _, List.not_mem_nil, by decide +kernel, ?_⟩
  rintro ⟨failure, hfailure, hreports⟩
  obtain rfl := Except.error.inj (Outcome.returned.inj (hended.symm.trans hfailure))
  rcases hreports with hphase | hteardown
  · exact Phase.noConfusion hphase
  · exact Bool.noConfusion hteardown

end Command

end LedSequencer
