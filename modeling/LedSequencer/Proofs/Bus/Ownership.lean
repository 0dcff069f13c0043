import LedSequencer.Proofs.Command.Holding
import Mathlib.Data.List.Nodup

/-! Buses that are taken and given up on exclusive lines, one after the other. Main statement: both
lines are taken or none, but for a clock line that cannot be given back; what is given up is gone
and all else stays; and no line is ever held twice. -/
namespace LedSequencer

section Lines

variable {L F : Type}

def refusal? (calls : List (AnsweredCall L F)) : Option F :=
  calls.findSome? fun
    | ⟨.request _, .error fault⟩ => some fault
    | _ => none

def givenUp (calls : List (AnsweredCall L F)) : List L :=
  calls.filterMap fun
    | ⟨.release line, .ok ()⟩ => some line
    | _ => none

variable [DecidableEq L] {held now : List L}

/-- Only a held line is given up, and the others stay held. -/
theorem heldAfter?_free {line : L} :
    heldAfter? (F := F) held ⟨.release line, .ok ()⟩ = some now ↔
      line ∈ held ∧ now = held.filter (· ≠ line) := by
  rw [heldAfter?]
  by_cases hheld : line ∈ held
  · simp [hheld, eq_comm]
  · simp [hheld]

theorem heldAfter?_nodup {call : AnsweredCall L F} (h : heldAfter? held call = some now)
    (hheld : held.Nodup) : now.Nodup := by
  obtain ⟨c, reply⟩ := call
  cases c with
  | request line =>
    cases reply with
    | error fault => exact Option.some.inj h ▸ hheld
    | ok =>
      obtain ⟨hfree, rfl⟩ := heldAfter?_request.1 h
      exact hheld.append (List.nodup_singleton line) (List.disjoint_singleton.2 hfree)
  | release line =>
    cases reply with
    | error fault => exact Option.some.inj h ▸ hheld
    | ok =>
      obtain ⟨_, rfl⟩ := heldAfter?_free.1 h
      exact hheld.filter _
  | drive line high | sample line | settle us | wait ms => exact Option.some.inj h ▸ hheld

/-- No line is ever held twice. -/
theorem heldAfterAll?_nodup {calls : List (AnsweredCall L F)}
    (h : heldAfterAll? held calls = some now) (hheld : held.Nodup) : now.Nodup := by
  induction calls generalizing held with
  | nil => exact Option.some.inj h ▸ hheld
  | cons call calls ih =>
    rw [heldAfterAll?_cons, Option.bind_eq_some_iff] at h
    obtain ⟨next, hnext, hrest⟩ := h
    exact ih hrest (heldAfter?_nodup hnext hheld)

/-- Exclusive lines answer the first of some calls as they answer all of them. -/
theorem heldAfterAll?_of_prefix {before calls : List (AnsweredCall L F)}
    (h : heldAfterAll? held calls = some now) (hbefore : before <+: calls) :
    ∃ earlier, heldAfterAll? held before = some earlier := by
  obtain ⟨rest, rfl⟩ := hbefore
  rw [heldAfterAll?_append, Option.bind_eq_some_iff] at h
  obtain ⟨earlier, hthen, _⟩ := h
  exact ⟨earlier, hthen⟩

/-- Where lines are only given up, those that are given up were held, and all others stay, in the
same order. -/
theorem heldAfterAll?_of_release {calls : List (AnsweredCall L F)}
    (hcalls : ∀ call ∈ calls, ∃ line reply, call = ⟨.release line, reply⟩)
    (h : heldAfterAll? held calls = some now) :
    givenUp calls ⊆ held ∧ now = held.filter (· ∉ givenUp calls) := by
  induction calls generalizing held with
  | nil =>
    obtain rfl := Option.some.inj h
    exact ⟨List.nil_subset held, (List.filter_eq_self.2 fun _ _ => rfl).symm⟩
  | cons call calls ih =>
    obtain ⟨⟨line, reply, rfl⟩, hrest⟩ := List.forall_mem_cons.1 hcalls
    rw [heldAfterAll?_cons, Option.bind_eq_some_iff] at h
    obtain ⟨next, hnext, h⟩ := h
    obtain ⟨hsub, rfl⟩ := ih hrest h
    cases reply with
    | error fault =>
      obtain rfl := Option.some.inj hnext
      exact ⟨hsub, rfl⟩
    | ok =>
      obtain ⟨hline, rfl⟩ := heldAfter?_free.1 hnext
      refine ⟨List.cons_subset.2 ⟨hline, fun _ hmem => List.mem_of_mem_filter (hsub hmem)⟩, ?_⟩
      rw [List.filter_filter]
      refine List.filter_congr fun other _ => ?_
      show _ = decide (other ∉ line :: givenUp calls)
      simp [Bool.and_comm]

end Lines

namespace Bus

inductive Claim (L : Type) where
  | take (bus : Bus L)
  | giveUp (bus : Bus L)

variable {L F σ : Type}

def Claim.make : Claim L → Routine (.lines L F) (Notice F) (Except (Failure F) Unit)
  | take bus => bus.acquire.run
  | giveUp bus => bus.release.run

structure ClaimTurn (L σ : Type) where
  claim : Claim L
  world : σ

section Turns

variable (answer : (c : LineCall L) → σ → c.Reply F × σ)

namespace ClaimTurn

variable (t : ClaimTurn L σ)

def run : Run (.lines L F) (Notice F) σ (Except (Failure F) Unit) :=
  t.claim.make.run (.answering answer) t.world

def calls : List (AnsweredCall L F) := callsOf (t.run answer).events

end ClaimTurn

def claimTurns : List (Claim L) → σ → List (ClaimTurn L σ)
  | [], _ => []
  | claim :: claims, s => ⟨claim, s⟩ :: claimTurns claims (ClaimTurn.run answer ⟨claim, s⟩).world

theorem claimTurns_claims (claims : List (Claim L)) (s : σ) :
    (claimTurns answer claims s).map ClaimTurn.claim = claims := by
  induction claims generalizing s with
  | nil => rfl
  | cons claim claims ih => exact congrArg (List.cons claim) (ih _)

end Turns

variable [DecidableEq L]

/-- How a claim ends and which lines are held then, given its calls and which lines were held
before. A bus that cannot be taken leaves nothing behind, but for the clock line where giving it
back fails after the data line was refused. -/
def Claim.Settles (calls : List (AnsweredCall L F)) (result : Except (Failure F) Unit)
    (held now : List L) : Claim L → Prop
  | take bus => bus.Takes calls result ∧
      result = (match refusal? calls with
        | some fault => .error (.io fault)
        | none => .ok ()) ∧
      now = held ++ (match result with
        | .ok _ => [bus.clock, bus.data]
        | .error _ => if calls.any releaseFails then [bus.clock] else []) ∧
      (result = .ok () → bus.clock ≠ bus.data)
  | giveUp bus => ∃ clock data,
      calls = [⟨.release bus.clock, clock⟩, ⟨.release bus.data, data⟩] ∧
      result = (match releaseFailure? clock data with
        | some failure => .error failure
        | none => .ok ()) ∧
      now = held.filter (· ∉ givenUp calls) ∧ givenUp calls ⊆ held

variable {bus : Bus L} {calls : List (AnsweredCall L F)} {result : Except (Failure F) Unit}
  {held now : List L}

theorem Takes.settles (h : bus.Takes calls result) (hnow : heldAfterAll? held calls = some now) :
    (Claim.take bus).Settles calls result held now := by
  refine ⟨h, ?_⟩
  cases h with
  | refused fault =>
    obtain rfl := Option.some.inj hnow
    exact ⟨rfl, (List.append_nil held).symm, nofun⟩
  | rolledBack fault reply =>
    cases reply with
    | error second =>
      -- Of the three calls only the first one changed what is held.
      rw [heldAfterAll?_cons, Option.bind_eq_some_iff] at hnow
      obtain ⟨first, hfirst, hrest⟩ := hnow
      obtain ⟨_, rfl⟩ := heldAfter?_request.1 hfirst
      obtain rfl := Option.some.inj hrest
      exact ⟨rfl, rfl, nofun⟩
    | ok =>
      obtain rfl := (rolledBack fault (.ok ())).held_of_error hnow (by simp [releaseFails])
      exact ⟨rfl, (List.append_nil _).symm, nofun⟩
  | taken =>
    obtain ⟨_, _, hne, rfl⟩ := heldAfterAll?_take hnow
    exact ⟨rfl, rfl, fun _ => hne⟩

/-- How each claim ends in a world with exclusive lines. -/
theorem ClaimTurn.settles {answer : (c : LineCall L) → σ → c.Reply F × σ} {held : σ → List L}
    (exclusive : Exclusive (.answering answer) held) (t : ClaimTurn L σ) :
    ∃ result, (t.run answer).outcome = .returned result ∧
      t.claim.Settles (t.calls answer) result (held t.world) (held (t.run answer).world) := by
  obtain ⟨claim, s⟩ := t
  have hheld : heldAfterAll? (held s) (ClaimTurn.calls answer ⟨claim, s⟩) =
      some (held (ClaimTurn.run answer ⟨claim, s⟩).world) := exclusive.run claim.make s
  cases claim with
  | take bus =>
    have htake := bus.acquire_calls (F := F) []
    obtain ⟨result, hresult⟩ := htake.returns answer s
    obtain ⟨calls, hcalls, htakes⟩ := htake.recorded (.answering answer) hresult
    replace hcalls : ClaimTurn.calls answer ⟨.take bus, s⟩ = calls := hcalls
    exact ⟨result, hresult, (hcalls.symm ▸ htakes).settles hheld⟩
  | giveUp bus =>
    have hgiveUp := bus.release_calls (F := F) []
    obtain ⟨result, hresult⟩ := hgiveUp.returns answer s
    obtain ⟨clock, data, hcalls, hends⟩ := hgiveUp.recorded (.answering answer) hresult
    replace hcalls : ClaimTurn.calls answer ⟨.giveUp bus, s⟩ =
      [⟨.release bus.clock, clock⟩, ⟨.release bus.data, data⟩] := hcalls
    have hreleases : ∀ call ∈ ClaimTurn.calls answer ⟨.giveUp bus, s⟩,
        ∃ line reply, call = ⟨.release line, reply⟩ := by
      simp [hcalls]
    obtain ⟨hsub, hnow⟩ := heldAfterAll?_of_release hreleases hheld
    exact ⟨result, hresult, clock, data, hcalls, hends, hnow, hsub⟩

section Turns

variable {answer : (c : LineCall L) → σ → c.Reply F × σ} {held : σ → List L}

/-- The lines held after some claims are those that their calls leave. -/
theorem claimTurns_held (exclusive : Exclusive (.answering answer) held) (claims : List (Claim L))
    (s : σ) :
    ∃ now, heldAfterAll? (held s) ((claimTurns answer claims s).flatMap (ClaimTurn.calls answer)) =
      some now := by
  induction claims generalizing s with
  | nil => exact ⟨held s, rfl⟩
  | cons claim claims ih =>
    obtain ⟨now, hnow⟩ := ih (ClaimTurn.run answer ⟨claim, s⟩).world
    refine ⟨now, ?_⟩
    have hfirst : heldAfterAll? (held s) (ClaimTurn.calls answer ⟨claim, s⟩) =
        some (held (ClaimTurn.run answer ⟨claim, s⟩).world) := exclusive.run claim.make s
    rw [claimTurns, List.flatMap_cons, heldAfterAll?_append, hfirst]
    exact hnow

/-- On exclusive lines, whichever of them are held at first and whatever faults, for buses with any
two lines: each claim returns. A bus is taken where both requests succeed, and its two lines, which
are not the same, are then held after the others; otherwise the failure is that of the request that
was refused, and the held lines are those from before, except for the clock line if giving it back
failed. Giving up a bus attempts both lines, fails with the first fault, and takes away those lines
that were given up and no others. At every point no line is held twice. This includes giving up a
bus that was not taken. -/
theorem claimTurns_settle (exclusive : Exclusive (.answering answer) held)
    (claims : List (Claim L)) (s : σ) (hdistinct : (held s).Nodup) :
    let turns := claimTurns answer claims s
    turns.map ClaimTurn.claim = claims ∧
      (∀ t ∈ turns, ∃ result, (t.run answer).outcome = .returned result ∧
        t.claim.Settles (t.calls answer) result (held t.world) (held (t.run answer).world)) ∧
      ∀ before, before <+: turns.flatMap (ClaimTurn.calls answer) →
        ∃ now, heldAfterAll? (held s) before = some now ∧ now.Nodup := by
  intro turns
  refine ⟨claimTurns_claims answer claims s, fun t _ => t.settles exclusive, ?_⟩
  intro before hbefore
  obtain ⟨last, hlast⟩ := claimTurns_held exclusive claims s
  obtain ⟨now, hnow⟩ := heldAfterAll?_of_prefix hlast hbefore
  exact ⟨now, hnow, heldAfterAll?_nodup hnow hdistinct⟩

end Turns

/-- The data line of the first bus is refused and its clock line stays held, the second bus has the
same line twice, and the third bus is taken and its clock line is not given up. Line 7 is held by
someone else. -/
theorem claimTurns_settle_leak :
    let answer := exclusiveLines [1, 2, 8]
    let bus (clock data : UInt8) : Bus UInt8 := ⟨clock, data, defaultHalfPeriod⟩
    let claims := [.take (bus 3 2), .take (bus 2 2), .take (bus 5 2), .giveUp (bus 5 2)]
    let turns := claimTurns answer claims ([7], 0)
    Exclusive (.answering answer) Prod.fst ∧ [(7 : UInt8)].Nodup ∧
      (∀ t ∈ turns, ∃ result, (t.run answer).outcome = .returned result ∧
        t.claim.Settles (t.calls answer) result t.world.1 (t.run answer).world.1) ∧
      turns.map (fun t => (t.run answer).world.1) = [[7, 3], [7, 3], [7, 3, 5, 2], [7, 3, 5]] := by
  intro answer bus claims turns
  have exclusive : Exclusive (.answering answer) Prod.fst := exclusiveLines_exclusive _
  have hdistinct : [(7 : UInt8)].Nodup := by decide
  obtain ⟨_, hsettles, _⟩ := claimTurns_settle exclusive claims ([7], 0) hdistinct
  exact ⟨exclusive, hdistinct, hsettles, by decide +kernel⟩

end Bus

end LedSequencer
