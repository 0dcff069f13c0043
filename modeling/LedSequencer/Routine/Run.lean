import LedSequencer.Routine.Basic

/-! Running a routine in a world, and what can be seen of a run. Main statement: a sequence runs its
second part from where the first part returned. -/
namespace LedSequencer

/-- Surroundings with a state: the reply to a call and the state after it, or none for a call that
never returns. -/
abbrev World (I : Interface) (σ : Type) := (c : I.Call) → σ → Option (I.Reply c × σ)

inductive Event (I : Interface) (N : Type) where
  | called (c : I.Call) (reply : I.Reply c)
  | noted (n : N)

def notices {I : Interface} {N : Type} (events : List (Event I N)) : List N :=
  events.filterMap fun
    | .noted n => some n
    | .called _ _ => none

/-- How a run ends. It is cut off by a call that never returns. -/
inductive Outcome (α : Type) where
  | returned (a : α)
  | cutOff
  | aborted
  deriving DecidableEq

/-- A run that is over: its outcome, the state it leaves the world in and its events, the latest
first. -/
structure Run (I : Interface) (N σ α : Type) where
  outcome : Outcome α
  world : σ
  past : List (Event I N)

namespace Run

variable {I : Interface} {N σ α β : Type}

def events (r : Run I N σ α) : List (Event I N) := r.past.reverse

def after (r : Run I N σ α) (past : List (Event I N)) : Run I N σ α :=
  { r with past := r.past ++ past }

def andThen (r : Run I N σ α) (f : α → σ → List (Event I N) → Run I N σ β) : Run I N σ β :=
  match r.outcome with
  | .returned a => f a r.world r.past
  | .cutOff => ⟨.cutOff, r.world, r.past⟩
  | .aborted => ⟨.aborted, r.world, r.past⟩

end Run

namespace Routine

variable {I : Interface} {N σ α β : Type} (w : World I σ)

/-- Runs a routine from the state `s`; `past` are the events before it, the latest first. -/
def runFrom : Routine I N α → σ → List (Event I N) → Run I N σ α
  | done a, s, past => ⟨.returned a, s, past⟩
  | call c next, s, past =>
    match w c s with
    | none => ⟨.cutOff, s, past⟩
    | some (reply, s) => (next reply).runFrom s (.called c reply :: past)
  | note n next, s, past => next.runFrom s (.noted n :: past)
  | abort, s, past => ⟨.aborted, s, past⟩

def run (p : Routine I N α) (s : σ) : Run I N σ α := p.runFrom w s []

/-- The earlier events have no part in a run. -/
theorem runFrom_eq (p : Routine I N α) (s : σ) (past : List (Event I N)) :
    p.runFrom w s past = (p.run w s).after past := by
  suffices h : ∀ recent, p.runFrom w s (recent ++ past) = (p.runFrom w s recent).after past from
    h []
  induction p generalizing s with
  | done a => intro recent; rfl
  | call c next ih =>
    intro recent
    simp only [runFrom]
    split
    · rfl
    · exact ih _ _ (_ :: recent)
  | note n next ih => intro recent; exact ih s (_ :: recent)
  | abort => intro recent; rfl

theorem runFrom_bind (p : Routine I N α) (f : α → Routine I N β) (s : σ)
    (past : List (Event I N)) :
    (p >>= f).runFrom w s past = (p.runFrom w s past).andThen fun a => (f a).runFrom w := by
  induction p generalizing s past with
  | done a => rfl
  | call c next ih =>
    rw [call_bind]
    simp only [runFrom]
    split
    · rfl
    · exact ih _ _ _
  | note n next ih => exact ih _ _
  | abort => rfl

/-- A sequence runs its second part from where the first one returned. -/
theorem run_bind (p : Routine I N α) (f : α → Routine I N β) (s : σ) :
    (p >>= f).run w s =
      (p.run w s).andThen fun a s past => ((f a).run w s).after past := by
  have h : (fun a => (f a).runFrom w) = fun a s past => ((f a).run w s).after past := by
    funext a s past
    exact runFrom_eq w (f a) s past
  rw [← h]
  exact runFrom_bind w p f s []

end Routine

end LedSequencer
