import LedSequencer.Proofs.Line.Holding
import LedSequencer.Proofs.Routine.Returns

/-! Samples whose level is ignored. A sample that is the first one since a line was driven low only
turns the line into an input. Main statement: if no such level has a part in how a routine goes on,
it leaves the same notices in the log where all of them read 0. -/
namespace LedSequencer

variable {L F N ε σ α β : Type}

namespace LineCall

def turns (low : Bool) : LineCall L → Bool
  | drive _ high => low || !high
  | sample _ => false
  | request _ | release _ | settle _ | wait _ => low

def blank (low : Bool) : (c : LineCall L) → c.Reply F → c.Reply F
  | sample _, reply => if low then reply.map fun _ => 0 else reply
  | request _, reply | release _, reply | drive _ _, reply => reply
  | settle _, reply | wait _, reply => reply

end LineCall

def blanked : Bool → List (AnsweredCall L F) → List (AnsweredCall L F)
  | _, [] => []
  | low, ⟨c, reply⟩ :: calls => ⟨c, c.blank low reply⟩ :: blanked (c.turns low) calls

/-- Lines that answer as before but for the levels of ignored samples. The state tells as well
whether the next sample is ignored. -/
def blanking (answer : (c : LineCall L) → σ → c.Reply F × σ) (c : LineCall L) (s : σ × Bool) :
    c.Reply F × (σ × Bool) :=
  (c.blank s.2 (answer c s.1).1, (answer c s.1).2, c.turns s.2)

namespace Routine

/-- No level of an ignored sample has a part in how the routine goes on. -/
def Blind : Routine (.lines L F) N α → Bool → Prop
  | done _, _ => True
  | call c next, low => ∀ reply : LineCall.Reply F c,
      next (LineCall.blank low c reply) = next reply ∧ (next reply).Blind (LineCall.turns low c)
  | note _ next, low => next.Blind low
  | abort, _ => True

theorem Blind.run {p : Routine (.lines L F) N α} {low : Bool} (h : p.Blind low)
    (answer : (c : LineCall L) → σ → c.Reply F × σ) (s : σ) :
    let seen := p.run (.answering answer) s
    let masked := p.run (.answering (blanking answer)) (s, low)
    masked.outcome = seen.outcome ∧ masked.world.1 = seen.world ∧
      callsOf masked.events = blanked low (callsOf seen.events) ∧
        notices masked.events = notices seen.events := by
  induction p generalizing s low with
  | done a => exact ⟨rfl, rfl, rfl, rfl⟩
  | call c next ih =>
    have hseen : (World.answering answer) c s = some ((answer c s).1, (answer c s).2) := rfl
    have hmasked : (World.answering (blanking answer)) c (s, low) =
        some (LineCall.blank low c (answer c s).1, (answer c s).2, LineCall.turns low c) := rfl
    -- The blanked reply leads to the same rest of the routine, so the induction goes on from there.
    obtain ⟨hsame, hrest⟩ := h (answer c s).1
    obtain ⟨houtcome, hworld, hcalls, hnotices⟩ := ih _ hrest (answer c s).2
    simp only [run_call _ hseen, run_call _ hmasked, Run.events_after]
    rw [hsame]
    refine ⟨houtcome, hworld, ?_, hnotices⟩
    exact congrArg (List.cons _) hcalls
  | note n next ih =>
    obtain ⟨houtcome, hworld, hcalls, hnotices⟩ := ih h s
    simp only [run_note, Run.events_after]
    exact ⟨houtcome, hworld, hcalls, congrArg (List.cons n) hnotices⟩
  | abort => exact ⟨rfl, rfl, rfl, rfl⟩

def Overlooks (p : Routine (.lines L F) N α) : Prop := ∀ low, p.Blind low

theorem Blind.bind {p : Routine (.lines L F) N α} {f : α → Routine (.lines L F) N β} {low : Bool}
    (h : p.Blind low) (hf : ∀ a, (f a).Overlooks) : (p >>= f).Blind low := by
  induction p generalizing low with
  | done a => exact hf a low
  | call c next ih =>
    intro reply
    obtain ⟨hsame, hrest⟩ := h reply
    exact ⟨congrArg (· >>= f) hsame, ih reply hrest⟩
  | note n next ih => exact ih h
  | abort => trivial

theorem Overlooks.bind {p : Routine (.lines L F) N α} {f : α → Routine (.lines L F) N β}
    (h : p.Overlooks) (hf : ∀ a, (f a).Overlooks) : (p >>= f).Overlooks :=
  fun low => (h low).bind hf

theorem overlooks_done (a : α) : (done a : Routine (.lines L F) N α).Overlooks := fun _ => trivial

theorem overlooks_note (n : N) : (note n (done ()) : Routine (.lines L F) N Unit).Overlooks :=
  fun _ => trivial

theorem Overlooks.handle {I : Interface} {h : (c : I.Call) → Routine (.lines L F) N (I.Reply c)}
    (hh : ∀ c, (h c).Overlooks) (p : Routine I N α) : (p.handle h).Overlooks := by
  induction p with
  | done a => exact overlooks_done a
  | call c next ih => exact (hh c).bind ih
  | note n next ih => exact ih
  | abort => exact fun _ => trivial

section Failing

variable {act : ExceptT ε (Routine (.lines L F) N) α}

theorem Overlooks.andThen {f : α → ExceptT ε (Routine (.lines L F) N) β}
    (h : act.run.Overlooks) (hf : ∀ a, (f a).run.Overlooks) : (act >>= f).run.Overlooks := by
  refine Overlooks.bind h ?_
  rintro (e | a)
  · exact overlooks_done _
  · exact hf a

theorem Overlooks.tryCatch {f : ε → ExceptT ε (Routine (.lines L F) N) α}
    (h : act.run.Overlooks) (hf : ∀ e, (f e).run.Overlooks) : (tryCatch act f).run.Overlooks := by
  refine Overlooks.bind h ?_
  rintro (e | a)
  · exact hf e
  · exact overlooks_done _

theorem Overlooks.reporting (h : act.run.Overlooks) (notice : ε → N) :
    (reporting notice act).run.Overlooks := by
  refine Overlooks.bind h ?_
  rintro (e | a)
  · exact (overlooks_note (notice e)).bind fun _ => overlooks_done _
  · exact overlooks_done _

end Failing

end Routine

end LedSequencer
