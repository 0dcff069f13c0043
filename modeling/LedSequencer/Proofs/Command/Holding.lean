import LedSequencer.Proofs.Command.Phases
import LedSequencer.Proofs.Line.Holding

/-! Who holds the lines while a command is carried out. Main statement: on exclusive lines the bus is
used only while both of its lines are held, each line is given up once and at the end, and what was
held before is held again. -/
namespace LedSequencer

/-- Whatever occurs in a list but in neither end of it occurs in the middle. -/
theorem exists_middle {α : Type} {a b c earlier later : List α} {x : α}
    (h : a ++ (b ++ c) = earlier ++ x :: later) (ha : x ∉ a) (hc : x ∉ c) :
    ∃ before after, earlier = a ++ before ∧ b = before ++ x :: after := by
  have hrest : ∃ before, earlier = a ++ before ∧ b ++ c = before ++ x :: later := by
    obtain ⟨before, hearlier, hrest⟩ | ⟨more, rfl, hrest⟩ := List.append_eq_append_iff.1 h
    · exact ⟨before, hearlier, hrest⟩
    · cases more with
      | nil => exact ⟨[], by simp, hrest.symm⟩
      | cons y more =>
        obtain ⟨rfl, _⟩ := List.cons.inj hrest
        exact absurd (List.mem_append_right earlier List.mem_cons_self) ha
  obtain ⟨before, hearlier, hrest⟩ := hrest
  obtain ⟨more, _, rfl⟩ | ⟨more, hb, hlater⟩ := List.append_eq_append_iff.1 hrest
  · exact absurd (List.mem_append_right more List.mem_cons_self) hc
  · cases more with
    | nil =>
      have hmem : x ∈ [] ++ c := hlater ▸ List.mem_cons_self
      exact absurd hmem hc
    | cons y after =>
      obtain ⟨rfl, _⟩ := List.cons.inj hlater
      exact ⟨before, after, hearlier, hb⟩

namespace Bus

variable {L F : Type} {bus : Bus L} {c : LineCall L}

/-- All that uses a line on a bus that was taken is a transfer. -/
theorem Works.transfers (h : bus.Works c) (huse : c.isUse) : bus.Transfers c :=
  h.resolve_right fun hwait => absurd (hwait ▸ huse) nofun

theorem Works.not_isClaim (h : bus.Works c) : c.isClaim = false := by
  obtain h | rfl := h
  · cases c with
    | request line | release line => exact h.elim
    | drive line high | sample line | settle us | wait ms => rfl
  · rfl

theorem Takes.isClaim {calls : List (AnsweredCall L F)} {result : Except (Failure F) Unit}
    (h : bus.Takes calls result) : ∀ call ∈ calls, call.1.isClaim := by
  cases h <;> simp [LineCall.isClaim]

theorem not_mem_of_isClaim {calls : List (AnsweredCall L F)}
    (h : ∀ call ∈ calls, call.1.isClaim) (huse : c.isUse) (reply : c.Reply F) :
    ⟨c, reply⟩ ∉ calls := by
  intro hmem
  have hclaim := h _ hmem
  cases c with
  | drive line high | sample line => exact absurd hclaim nofun
  | request line | release line | settle us | wait ms => exact absurd huse nofun

end Bus

section Lines

variable {L F : Type} [DecidableEq L]

/-- Two lines that are taken one after the other were free, and they are not the same. -/
theorem heldAfterAll?_take {held now : List L} {clock data : L}
    (h : heldAfterAll? (F := F) held [⟨.request clock, .ok ()⟩, ⟨.request data, .ok ()⟩] =
      some now) :
    clock ∉ held ∧ data ∉ held ∧ clock ≠ data ∧ now = held ++ [clock, data] := by
  rw [heldAfterAll?_cons, Option.bind_eq_some_iff] at h
  obtain ⟨first, hfirst, h⟩ := h
  rw [heldAfterAll?_cons, Option.bind_eq_some_iff] at h
  obtain ⟨second, hsecond, h⟩ := h
  obtain ⟨hclock, rfl⟩ := heldAfter?_request.1 hfirst
  obtain ⟨hdata, rfl⟩ := heldAfter?_request.1 hsecond
  obtain rfl := Option.some.inj h
  refine ⟨hclock, fun hmem => hdata (List.mem_append_left _ hmem), ?_, List.append_assoc _ _ _⟩
  rintro rfl
  exact hdata (List.mem_append_right held List.mem_cons_self)

/-- Lines that are given up as they were taken are all that is gone. -/
theorem heldAfterAll?_giveUp {held : List L} {clock data : L} (hclock : clock ∉ held)
    (hdata : data ∉ held) (hne : clock ≠ data) :
    heldAfterAll? (F := F) (held ++ [clock, data])
      [⟨.release clock, .ok ()⟩, ⟨.release data, .ok ()⟩] = some held := by
  have hfirst := heldAfter?_release (F := F) hclock [data] (by simpa using hne)
  have hsecond := heldAfter?_release (F := F) hdata [] (by simp)
  rw [heldAfterAll?_cons, hfirst, Option.bind_some, heldAfterAll?_cons, hsecond, List.append_nil]
  rfl

/-- Who cannot take the bus leaves no line behind, unless giving up the clock line fails. -/
theorem Bus.Takes.held_of_error {bus : Bus L} {calls : List (AnsweredCall L F)} {held now : List L}
    {failure : Failure F} (h : bus.Takes calls (.error failure))
    (hnow : heldAfterAll? held calls = some now)
    (hrelease : ∀ call ∈ calls, releaseFails call = false) : now = held := by
  cases h with
  | refused fault => exact (Option.some.inj hnow).symm
  | rolledBack fault reply =>
    cases reply with
    | error second =>
      have hfails := hrelease ⟨.release bus.clock, .error second⟩ (by simp)
      exact Bool.noConfusion hfails
    | ok =>
      rw [heldAfterAll?_cons, Option.bind_eq_some_iff] at hnow
      obtain ⟨first, hfirst, hnow⟩ := hnow
      obtain ⟨hclock, rfl⟩ := heldAfter?_request.1 hfirst
      have hback := heldAfter?_release (F := F) hclock [] (by simp)
      -- The data line was refused, which changes nothing.
      have hrest : heldAfterAll? (F := F) (held ++ [bus.clock])
          [⟨.request bus.data, .error fault⟩, ⟨.release bus.clock, .ok ()⟩] =
            heldAfterAll? (F := F) (held ++ [bus.clock]) [⟨.release bus.clock, .ok ()⟩] := rfl
      rw [hrest, heldAfterAll?_cons, hback, List.append_nil] at hnow
      exact (Option.some.inj hnow).symm

section Taken

variable {bus : Bus L} {work : List (AnsweredCall L F)} {clock data : Except F Unit}
  {held now : List L}

/-- Once the bus is taken, every line is used while both lines are held. -/
theorem Bus.held_of_isUse {earlier later : List (AnsweredCall L F)} {c : LineCall L}
    {reply : c.Reply F} (hwork : ∀ call ∈ work, bus.Works call.1)
    (hnow : heldAfterAll? held ([⟨.request bus.clock, .ok ()⟩, ⟨.request bus.data, .ok ()⟩] ++
      (work ++ [⟨.release bus.clock, clock⟩, ⟨.release bus.data, data⟩])) = some now)
    (hsplit : [⟨.request bus.clock, .ok ()⟩, ⟨.request bus.data, .ok ()⟩] ++
      (work ++ [⟨.release bus.clock, clock⟩, ⟨.release bus.data, data⟩]) =
        earlier ++ ⟨c, reply⟩ :: later)
    (huse : c.isUse) :
    bus.Transfers c ∧ ∃ now, heldAfterAll? held earlier = some now ∧
      bus.clock ∈ now ∧ bus.data ∈ now := by
  have htaking : ∀ call ∈ ([⟨.request bus.clock, .ok ()⟩, ⟨.request bus.data, .ok ()⟩] :
      List (AnsweredCall L F)), call.1.isClaim := by
    simp [LineCall.isClaim]
  have hgivingUp : ∀ call ∈ ([⟨.release bus.clock, clock⟩, ⟨.release bus.data, data⟩] :
      List (AnsweredCall L F)), call.1.isClaim := by
    simp [LineCall.isClaim]
  -- The call is part of the work, behind some of it that changes nothing.
  obtain ⟨before, after, rfl, rfl⟩ := exists_middle hsplit
    (Bus.not_mem_of_isClaim htaking huse reply) (Bus.not_mem_of_isClaim hgivingUp huse reply)
  have hc := hwork ⟨c, reply⟩ (List.mem_append_right before List.mem_cons_self)
  have hbefore : ∀ call ∈ before, call.1.isClaim = false := by
    intro call hcall
    exact (hwork call (List.mem_append_left _ hcall)).not_isClaim
  rw [heldAfterAll?_append, Option.bind_eq_some_iff] at hnow
  obtain ⟨both, hboth, _⟩ := hnow
  obtain ⟨_, _, _, rfl⟩ := heldAfterAll?_take hboth
  refine ⟨hc.transfers huse, held ++ [bus.clock, bus.data], ?_, by simp, by simp⟩
  rw [heldAfterAll?_append, hboth]
  exact heldAfterAll?_of_not_isClaim hbefore _

/-- Once the bus is taken, the lines held in the end are those from before, unless giving one up
fails. -/
theorem Bus.held_of_taken (hwork : ∀ call ∈ work, bus.Works call.1)
    (hnow : heldAfterAll? held ([⟨.request bus.clock, .ok ()⟩, ⟨.request bus.data, .ok ()⟩] ++
      (work ++ [⟨.release bus.clock, clock⟩, ⟨.release bus.data, data⟩])) = some now)
    (hclock : releaseFails (F := F) ⟨.release bus.clock, clock⟩ = false)
    (hdata : releaseFails (F := F) ⟨.release bus.data, data⟩ = false) : now = held := by
  have hquiet : ∀ call ∈ work, call.1.isClaim = false := fun call hcall =>
    (hwork call hcall).not_isClaim
  rw [heldAfterAll?_append, Option.bind_eq_some_iff] at hnow
  obtain ⟨both, hboth, hnow⟩ := hnow
  obtain ⟨hclockFree, hdataFree, hne, rfl⟩ := heldAfterAll?_take hboth
  rw [heldAfterAll?_append, heldAfterAll?_of_not_isClaim hquiet, Option.bind_some] at hnow
  have hback := heldAfterAll?_giveUp (F := F) hclockFree hdataFree hne
  cases clock with
  | error fault => exact Bool.noConfusion hclock
  | ok =>
    cases data with
    | error fault => exact Bool.noConfusion hdata
    | ok => exact Option.some.inj (hnow.symm.trans hback)

end Taken

end Lines

namespace Command
open Routine

variable {L F σ : Type} [DecidableEq L]

/-- On exclusive lines, whichever of them others hold and whatever faults: the command returns; every
line is driven and sampled while the clock line and the data line are held, and only these two are
driven and only the data line is sampled; once the bus was taken both lines are given up, each once,
at the very end; if it could not be taken there are no other calls; and unless giving up a line
fails, the held lines in the end are those from before, in the same order. -/
theorem play_holds (bus : Bus L) (setup : Setup) (tape : Tape)
    {answer : (c : LineCall L) → σ → c.Reply F × σ} {held : σ → List L}
    (exclusive : Exclusive (.answering answer) held) (s : σ) :
    let w : World (.lines L F) σ := .answering answer
    let acquired := (bus.acquire : Bus.Action L F Unit).run.run w s
    let played := (play bus setup tape).run.run w s
    let calls := callsOf played.events
    (∃ result, played.outcome = .returned result) ∧
      (∀ earlier (c : LineCall L) reply later, calls = earlier ++ ⟨c, reply⟩ :: later → c.isUse →
        bus.Transfers c ∧ ∃ now, heldAfterAll? (held s) earlier = some now ∧
          bus.clock ∈ now ∧ bus.data ∈ now) ∧
      (acquired.outcome = .returned (.ok ()) → ∃ work clock data,
        calls = [⟨.request bus.clock, .ok ()⟩, ⟨.request bus.data, .ok ()⟩] ++
            (work ++ [⟨.release bus.clock, clock⟩, ⟨.release bus.data, data⟩]) ∧
          ∀ call ∈ work, call.1.isClaim = false) ∧
      (acquired.outcome ≠ .returned (.ok ()) → ∀ call ∈ calls, call.1.isClaim) ∧
      ((∀ call ∈ calls, releaseFails call = false) → held played.world = held s) := by
  intro w acquired played calls
  obtain ⟨result, taking, ending, serving, hacquired, htakes, hplayed, hcalls, hserving⟩ :=
    play_phases bus setup tape answer s
  have hheld : heldAfterAll? (held s) calls = some (held played.world) := exclusive.run _ s
  cases result with
  | error failure =>
    -- Without the bus there are only the claims, and a line that was taken is given back.
    obtain ⟨_, rfl⟩ := hserving
    have hnone : calls = taking := hcalls.trans (List.append_nil taking)
    have hclaims : ∀ call ∈ calls, call.1.isClaim := hnone ▸ htakes.isClaim
    refine ⟨⟨ending, hplayed⟩, ?_, fun hok => absurd (hacquired.symm.trans hok) nofun,
      fun _ => hclaims, ?_⟩
    · intro earlier c reply later hsplit huse
      exact absurd (hsplit ▸ List.mem_append_right earlier List.mem_cons_self)
        (Bus.not_mem_of_isClaim hclaims huse reply)
    · rw [hnone] at hheld ⊢
      exact htakes.held_of_error hheld
  | ok =>
    obtain ⟨work, clock, data, rfl, hwork⟩ := hserving
    obtain _ | _ | _ := htakes
    replace hcalls : calls = _ := hcalls
    rw [hcalls] at hheld ⊢
    refine ⟨⟨ending, hplayed⟩, ?_, fun _ => ⟨work, clock, data, rfl, ?_⟩,
      fun hfails => absurd hacquired hfails, ?_⟩
    · intro earlier c reply later hsplit huse
      exact Bus.held_of_isUse hwork hheld hsplit huse
    · intro call hcall
      exact (hwork call hcall).not_isClaim
    · intro hrelease
      exact Bus.held_of_taken hwork hheld (hrelease _ (by simp)) (hrelease _ (by simp))

/-- The chip never comes up because the first output of each attempt fails. Line 7 is held by someone
else. -/
theorem play_holds_givenUp :
    let bus : Bus UInt8 := ⟨Bus.defaultClock, Bus.defaultData, Bus.defaultHalfPeriod⟩
    let w : World (.lines UInt8 Unit) (List UInt8 × Nat) :=
      .answering (exclusiveLines (List.range' 2 15))
    let acquired := (bus.acquire : Bus.Action UInt8 Unit Unit).run.run w ([7], 0)
    let played := (play bus .standard .boot).run.run w ([7], 0)
    let calls := callsOf played.events
    Exclusive w Prod.fst ∧ acquired.outcome = .returned (.ok ()) ∧
      (∃ earlier reply later, calls = earlier ++ ⟨.drive bus.data true, reply⟩ :: later ∧
        ∃ now, heldAfterAll? [7] earlier = some now ∧ bus.clock ∈ now ∧ bus.data ∈ now) ∧
      (∃ work clock data,
        calls = [⟨.request bus.clock, .ok ()⟩, ⟨.request bus.data, .ok ()⟩] ++
            (work ++ [⟨.release bus.clock, clock⟩, ⟨.release bus.data, data⟩]) ∧
          ∀ call ∈ work, call.1.isClaim = false) ∧
      (∀ call ∈ calls, releaseFails call = false) ∧ played.world.1 = [7] := by
  intro bus w acquired played calls
  have exclusive : Exclusive w Prod.fst := exclusiveLines_exclusive _
  have hacquired : acquired.outcome = .returned (.ok ()) := rfl
  have hdrives : LineCall.drive bus.data true ∈ calls.map Sigma.fst := by decide +kernel
  have hrelease : ∀ call ∈ calls, releaseFails call = false := by decide +kernel
  obtain ⟨_, huses, htaken, _, hback⟩ := play_holds bus .standard .boot exclusive ([7], 0)
  have hused : ∃ earlier reply later, calls = earlier ++ ⟨.drive bus.data true, reply⟩ :: later ∧
      ∃ now, heldAfterAll? [7] earlier = some now ∧ bus.clock ∈ now ∧ bus.data ∈ now := by
    obtain ⟨⟨c, reply⟩, hmem, hc⟩ := List.mem_map.1 hdrives
    have hdrive : c = .drive bus.data true := hc
    subst hdrive
    obtain ⟨earlier, later, hsplit⟩ := List.append_of_mem hmem
    obtain ⟨_, hnow⟩ := huses earlier (.drive bus.data true) reply later hsplit rfl
    exact ⟨earlier, reply, later, hsplit, hnow⟩
  have hworld : played.world.1 = [7] := by rw [hback hrelease]
  exact ⟨exclusive, hacquired, hused, htaken hacquired, hrelease, hworld⟩

end Command

end LedSequencer
