import LedSequencer.Routine.Run

/-! Runs of sequences, and the calls in them. Main statement: reports change neither the calls of a
run nor its end. -/
namespace LedSequencer

variable {I : Interface} {N ε σ α β : Type}

def callsOf (events : List (Event I N)) : List ((c : I.Call) × I.Reply c) :=
  events.filterMap fun
    | .called c reply => some ⟨c, reply⟩
    | .noted _ => none

theorem callsOf_append (a b : List (Event I N)) : callsOf (a ++ b) = callsOf a ++ callsOf b :=
  List.filterMap_append

theorem callsOf_flatMap {γ : Type} (xs : List γ) (f : γ → List (Event I N)) :
    callsOf (xs.flatMap f) = xs.flatMap fun x => callsOf (f x) :=
  List.filterMap_flatMap

def Outcome.map (f : α → β) : Outcome α → Outcome β
  | returned a => .returned (f a)
  | cutOff => .cutOff
  | aborted => .aborted

namespace Run

theorem events_after (r : Run I N σ α) (past : List (Event I N)) :
    (r.after past).events = past.reverse ++ r.events :=
  List.reverse_append

end Run

namespace Routine

variable (w : World I σ)

/-- The second part of a sequence adds its events if the first one returns. -/
theorem events_bind (p : Routine I N α) (f : α → Routine I N β) (s : σ) :
    ((p >>= f).run w s).events = (p.run w s).events ++
      match (p.run w s).outcome with
      | .returned a => ((f a).run w (p.run w s).world).events
      | _ => [] := by
  rw [run_bind, Run.andThen]
  cases (p.run w s).outcome with
  | returned a => exact Run.events_after _ _
  | cutOff => exact (List.append_nil _).symm
  | aborted => exact (List.append_nil _).symm

theorem run_map (p : Routine I N α) (f : α → β) (s : σ) : (f <$> p).run w s =
    ⟨(p.run w s).outcome.map f, (p.run w s).world, (p.run w s).past⟩ := by
  rw [← bind_pure_comp, run_bind, Run.andThen]
  cases (p.run w s).outcome <;> rfl

theorem events_map (p : Routine I N α) (f : α → β) (s : σ) :
    ((f <$> p).run w s).events = (p.run w s).events := by
  rw [run_map]
  rfl

theorem run_call {c : I.Call} {next : I.Reply c → Routine I N α} {reply : I.Reply c} {s s' : σ}
    (h : w c s = some (reply, s')) :
    (call c next).run w s = ((next reply).run w s').after [.called c reply] := by
  rw [run, runFrom, h]
  exact runFrom_eq w _ s' _

theorem run_note (n : N) (p : Routine I N α) (s : σ) :
    (note n p).run w s = (p.run w s).after [.noted n] :=
  runFrom_eq w p s _

theorem calls_note (n : N) (p : Routine I N α) (s : σ) :
    callsOf ((note n p).run w s).events = callsOf (p.run w s).events := by
  rw [run_note, Run.events_after, callsOf_append]
  rfl

/-- The same for actions: the second part adds its events if the first one succeeds. -/
theorem events_run_bind (act : ExceptT ε (Routine I N) α) (f : α → ExceptT ε (Routine I N) β)
    (s : σ) :
    ((act >>= f).run.run w s).events = (act.run.run w s).events ++
      match (act.run.run w s).outcome with
      | .returned (.ok a) => ((f a).run.run w (act.run.run w s).world).events
      | _ => [] := by
  rw [ExceptT.run_bind, events_bind]
  rcases (act.run.run w s).outcome with (e | a) | _ | _ <;> rfl

/-- A report changes neither how an action ends nor its calls. -/
theorem run_reporting (notice : ε → N) (act : ExceptT ε (Routine I N) α) (s : σ) :
    ((reporting notice act).run.run w s).outcome = (act.run.run w s).outcome ∧
      ((reporting notice act).run.run w s).world = (act.run.run w s).world ∧
        callsOf ((reporting notice act).run.run w s).events = callsOf (act.run.run w s).events := by
  rw [reporting, ExceptT.run_mk, run_bind, Run.andThen]
  cases ho : (act.run.run w s).outcome with
  | returned result =>
    cases result with
    | ok a => exact ⟨rfl, rfl, rfl⟩
    | error e =>
      refine ⟨rfl, rfl, ?_⟩
      simp [callsOf, Run.events, Run.after, Routine.run, Routine.runFrom, Journal.note]
  | cutOff => exact ⟨rfl, rfl, rfl⟩
  | aborted => exact ⟨rfl, rfl, rfl⟩

/-- A view of the world that single calls change by `after?` is changed so by a whole run, if it
makes no other calls. -/
theorem run_view {τ : Type} {view : σ → τ} {after? : τ → (c : I.Call) × I.Reply c → Option τ}
    {P : I.Call → Prop} (h : ∀ c s reply s', P c → w c s = some (reply, s') →
      after? (view s) ⟨c, reply⟩ = some (view s')) (p : Routine I N α) (s : σ)
    (hp : ∀ c ∈ callsOf (p.run w s).events, P c.1) :
    (callsOf (p.run w s).events).foldlM after? (view s) = some (view (p.run w s).world) := by
  induction p generalizing s with
  | done a => rfl
  | call c next ih =>
    cases hw : w c s with
    | none =>
      have hrun : (call c next).run w s = ⟨.cutOff, s, []⟩ := by
        rw [run, runFrom, hw]
      rw [hrun]
      rfl
    | some answer =>
      obtain ⟨reply, s'⟩ := answer
      have hcalls : callsOf ((call c next).run w s).events =
          ⟨c, reply⟩ :: callsOf ((next reply).run w s').events := by
        rw [run_call w hw, Run.events_after, callsOf_append]
        rfl
      -- The first call changes the view by its reply, the rest is the induction hypothesis.
      rw [hcalls] at hp ⊢
      obtain ⟨hfirst, hrest⟩ := List.forall_mem_cons.1 hp
      rw [List.foldlM_cons, h c s reply s' hfirst hw, run_call w hw]
      exact ih reply s' hrest
  | note n next ih =>
    rw [calls_note] at hp ⊢
    rw [run_note]
    exact ih s hp
  | abort => rfl

end Routine

end LedSequencer
