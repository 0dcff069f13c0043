import LedSequencer.Proofs.Routine.Calls
import LedSequencer.Proofs.Routine.Ensures
import Mathlib.Data.List.Forall2

/-! Runs in full: what a routine returns, the state in which it leaves the world, and its events.
Main statement: the run of a sequence is the run of its first part and then that of its second
part. -/
namespace LedSequencer.Routine

variable {I : Interface} {N ε σ τ α β : Type} {w : World I σ} {s s' s'' : σ}

structure Returns (w : World I σ) (p : Routine I N α) (s : σ) (a : α) (s' : σ)
    (events : List (Event I N)) : Prop where
  outcome : (p.run w s).outcome = .returned a
  world : (p.run w s).world = s'
  events : (p.run w s).events = events

theorem returns_done (a : α) : (done a : Routine I N α).Returns w s a s [] := ⟨rfl, rfl, rfl⟩

theorem returns_note (n : N) : (note n (done ()) : Routine I N Unit).Returns w s () s [.noted n] :=
  ⟨rfl, rfl, rfl⟩

theorem returns_call {c : I.Call} {reply : I.Reply c} (h : w c s = some (reply, s')) :
    (call c done : Routine I N (I.Reply c)).Returns w s reply s' [.called c reply] := by
  have hrun : (call c done : Routine I N (I.Reply c)).run w s = _ := run_call w h
  exact ⟨by rw [hrun]; rfl, by rw [hrun]; rfl, by rw [hrun]; rfl⟩

/-- A run that returns is known in full. -/
theorem returns_of_outcome {p : Routine I N α} {a : α} (h : (p.run w s).outcome = .returned a) :
    p.Returns w s a (p.run w s).world (p.run w s).events :=
  ⟨h, rfl, rfl⟩

/-- The second part of a sequence runs from where the first part returned. -/
theorem Returns.bind_run {p : Routine I N α} {a : α} {before : List (Event I N)}
    (h : p.Returns w s a s' before) (f : α → Routine I N β) :
    ((p >>= f).run w s).outcome = ((f a).run w s').outcome ∧
      ((p >>= f).run w s).world = ((f a).run w s').world ∧
        ((p >>= f).run w s).events = before ++ ((f a).run w s').events := by
  have hrun : (p >>= f).run w s = ((f a).run w s').after (p.run w s).past := by
    rw [run_bind, Run.andThen, h.outcome, h.world]
  have hbefore : (p.run w s).past.reverse = before := h.events
  rw [hrun, Run.events_after, hbefore]
  exact ⟨rfl, rfl, rfl⟩

theorem Returns.bind {p : Routine I N α} {f : α → Routine I N β} {a : α} {b : β}
    {before after : List (Event I N)} (h : p.Returns w s a s' before)
    (hf : (f a).Returns w s' b s'' after) :
    (p >>= f).Returns w s b s'' (before ++ after) := by
  obtain ⟨houtcome, hworld, hevents⟩ := h.bind_run f
  exact ⟨houtcome.trans hf.outcome, hworld.trans hf.world, by rw [hevents, hf.events]⟩

/-- A sequence is cut off with its first part. -/
theorem cutOff_bind {p : Routine I N α} (h : (p.run w s).outcome = .cutOff)
    (f : α → Routine I N β) :
    ((p >>= f).run w s).outcome = .cutOff ∧ ((p >>= f).run w s).world = (p.run w s).world ∧
      ((p >>= f).run w s).events = (p.run w s).events := by
  rw [run_bind, Run.andThen, h]
  exact ⟨rfl, rfl, rfl⟩

/-- Routines in turn: the whole is the runs of the single ones, each from the state that the one
before leaves. -/
theorem mapM'_runs {f : β → Routine I N α}
    (hreturns : ∀ b s, ∃ a, ((f b).run w s).outcome = .returned a) (bs : List β) (s : σ) :
    ∃ runs : List (β × σ), runs.map Prod.fst = bs ∧
      (∃ results, ((bs.mapM' f).run w s).outcome = .returned results ∧
        List.Forall₂ (fun r a => ((f r.1).run w r.2).outcome = .returned a) runs results) ∧
      ((bs.mapM' f).run w s).events = runs.flatMap fun r => ((f r.1).run w r.2).events := by
  induction bs generalizing s with
  | nil => exact ⟨[], rfl, ⟨[], rfl, .nil⟩, rfl⟩
  | cons b bs ih =>
    obtain ⟨a, ha⟩ := hreturns b s
    obtain ⟨runs, hruns, ⟨results, hresults, hall⟩, hevents⟩ := ih ((f b).run w s).world
    have hwhole := (returns_of_outcome ha).bind (f := fun a =>
      bs.mapM' f >>= fun as => done (a :: as))
      ((returns_of_outcome hresults).bind (returns_done _))
    refine ⟨(b, s) :: runs, by rw [List.map_cons, hruns], ⟨_, hwhole.outcome, .cons ha hall⟩,
      hwhole.events.trans ?_⟩
    rw [List.append_nil, hevents, List.flatMap_cons]

def reported (notice : ε → N) : Except ε α → List (Event I N)
  | .ok _ => []
  | .error e => [.noted (notice e)]

theorem Returns.reporting {act : ExceptT ε (Routine I N) α} {result : Except ε α}
    {events : List (Event I N)} (h : act.run.Returns w s result s' events) (notice : ε → N) :
    (LedSequencer.reporting notice act).run.Returns w s result s'
      (events ++ reported notice result) := by
  refine Returns.bind h ?_
  cases result with
  | ok a => exact returns_done _
  | error e => exact (returns_note (notice e)).bind (returns_done _)

theorem reporting_cutOff {act : ExceptT ε (Routine I N) α} (h : (act.run.run w s).outcome = .cutOff)
    (notice : ε → N) :
    ((LedSequencer.reporting notice act).run.run w s).outcome = .cutOff ∧
      ((LedSequencer.reporting notice act).run.run w s).world = (act.run.run w s).world ∧
        ((LedSequencer.reporting notice act).run.run w s).events = (act.run.run w s).events :=
  cutOff_bind h _

section Failing

variable {act : ExceptT ε (Routine I N) α} {a : α} {before after : List (Event I N)}

/-- The same for actions: the second part runs if the first one succeeds. -/
theorem Returns.andThen {f : α → ExceptT ε (Routine I N) β} {result : Except ε β}
    (h : act.run.Returns w s (.ok a) s' before) (hf : (f a).run.Returns w s' result s'' after) :
    (act >>= f).run.Returns w s result s'' (before ++ after) :=
  h.bind hf

theorem Returns.tryCatch (h : act.run.Returns w s (.ok a) s' before)
    (f : ε → ExceptT ε (Routine I N) α) :
    (MonadExcept.tryCatch act f).run.Returns w s (.ok a) s' before := by
  rw [← List.append_nil before]
  exact h.bind (returns_done _)

theorem returns_journal (n : N) :
    (Journal.note n : ExceptT ε (Routine I N) Unit).run.Returns w s (.ok ()) s [.noted n] :=
  ⟨rfl, rfl, rfl⟩

end Failing

section Stateful

variable {act : ExceptT ε (StateT τ (Routine I N)) α} {t t' : τ} {before after : List (Event I N)}

/-- The same for actions that carry a state along. -/
theorem Returns.bind_ok {f : α → ExceptT ε (StateT τ (Routine I N)) β} {a : α}
    {ending : Except ε β × τ} (h : (act.run.run t).Returns w s (.ok a, t') s' before)
    (hf : ((f a).run.run t').Returns w s' ending s'' after) :
    ((act >>= f).run.run t).Returns w s ending s'' (before ++ after) := by
  rw [ExceptT.run_bind, StateT.run_bind]
  exact h.bind hf

theorem Returns.bind_error {f : α → ExceptT ε (StateT τ (Routine I N)) β} {e : ε}
    (h : (act.run.run t).Returns w s (.error e, t') s' before) :
    ((act >>= f).run.run t).Returns w s (.error e, t') s' before := by
  rw [ExceptT.run_bind, StateT.run_bind, ← List.append_nil before]
  exact h.bind (returns_done _)

theorem Returns.adapt {ε' : Type} {result : Except ε α}
    (h : (act.run.run t).Returns w s (result, t') s' before) (f : ε → ε') :
    ((act.adapt f).run.run t).Returns w s (result.mapError f, t') s' before := by
  rw [← List.append_nil before]
  exact h.bind (f := fun ending => done (ending.1.mapError f, ending.2)) (returns_done _)

theorem Returns.reporting_stateful {result : Except ε α}
    (h : (act.run.run t).Returns w s (result, t') s' before) (notice : ε → N) :
    ((LedSequencer.reporting notice act).run.run t).Returns w s (result, t') s'
      (before ++ reported notice result) := by
  refine Returns.bind h ?_
  cases result with
  | ok a => exact returns_done _
  | error e => exact (returns_note (notice e)).bind (f := fun _ => done _) (returns_done _)

end Stateful

end LedSequencer.Routine
