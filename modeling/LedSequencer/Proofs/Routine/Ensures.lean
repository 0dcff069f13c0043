import LedSequencer.Routine.Run

/-! What a routine ensures whatever the replies to its calls are. An observer keeps a state `τ` that
every event changes by `see`; the condition is about the value that the routine returns and about
the state of the observer then. Main statement: what a routine ensures holds of its runs. -/
namespace LedSequencer

def World.answering {I : Interface} {σ : Type} (answer : (c : I.Call) → σ → I.Reply c × σ) :
    World I σ :=
  fun c s => some (answer c s)

namespace Routine

variable {I : Interface} {N α β ε σ τ : Type} {see : τ → Event I N → τ}

/-- Wherever the routine returns, `Q` holds of its value and of the observer, who starts in the
given state. A routine that may abort ensures nothing. -/
def Ensures (see : τ → Event I N → τ) : Routine I N α → (α → τ → Prop) → τ → Prop
  | done a, Q, t => Q a t
  | call c next, Q, t => ∀ reply, (next reply).Ensures see Q (see t (.called c reply))
  | note n next, Q, t => next.Ensures see Q (see t (.noted n))
  | abort, _, _ => False

@[simp] theorem ensures_done (a : α) (Q : α → τ → Prop) (t : τ) :
    (done a : Routine I N α).Ensures see Q t ↔ Q a t := Iff.rfl

@[simp] theorem ensures_call (c : I.Call) (next : I.Reply c → Routine I N α) (Q : α → τ → Prop)
    (t : τ) :
    (call c next).Ensures see Q t ↔
      ∀ reply, (next reply).Ensures see Q (see t (.called c reply)) := Iff.rfl

@[simp] theorem ensures_note (n : N) (next : Routine I N α) (Q : α → τ → Prop) (t : τ) :
    (note n next).Ensures see Q t ↔ next.Ensures see Q (see t (.noted n)) := Iff.rfl

theorem Ensures.mono {p : Routine I N α} {Q R : α → τ → Prop} {t : τ} (h : p.Ensures see Q t)
    (hqr : ∀ a t, Q a t → R a t) : p.Ensures see R t := by
  induction p generalizing t with
  | done a => exact hqr a t h
  | call c next ih => exact fun reply => ih reply (h reply)
  | note n next ih => exact ih h
  | abort => exact h

theorem ensures_congr {p : Routine I N α} {Q R : α → τ → Prop} {t : τ}
    (h : ∀ a t, Q a t ↔ R a t) : p.Ensures see Q t ↔ p.Ensures see R t :=
  ⟨fun hq => hq.mono fun a t => (h a t).1, fun hr => hr.mono fun a t => (h a t).2⟩

/-- A sequence ensures what its second part ensures from wherever the first one returns. -/
theorem ensures_bind (p : Routine I N α) (f : α → Routine I N β) (Q : β → τ → Prop) (t : τ) :
    (p >>= f).Ensures see Q t ↔ p.Ensures see (fun a t => (f a).Ensures see Q t) t := by
  induction p generalizing t with
  | done a => exact Iff.rfl
  | call c next ih => exact forall_congr' fun reply => ih reply _
  | note n next ih => exact ih _
  | abort => exact Iff.rfl

@[simp] theorem ensures_map (p : Routine I N α) (f : α → β) (Q : β → τ → Prop) (t : τ) :
    (f <$> p).Ensures see Q t ↔ p.Ensures see (fun a t => Q (f a) t) t := by
  rw [← bind_pure_comp, ensures_bind]
  exact Iff.rfl

section Failing

variable (act : ExceptT ε (Routine I N) α) (Q : Except ε α → τ → Prop) (t : τ)

/-- An action that fails ends a sequence; what follows starts from where it returned a value. -/
theorem ensures_run_bind (f : α → ExceptT ε (Routine I N) β) (Q : Except ε β → τ → Prop) :
    (act >>= f).run.Ensures see Q t ↔
      act.run.Ensures see (fun result t =>
        match result with
        | .ok a => (f a).run.Ensures see Q t
        | .error e => Q (.error e) t) t := by
  rw [ExceptT.run_bind, ensures_bind]
  exact ensures_congr fun result t => by cases result <;> exact Iff.rfl

theorem ensures_run_tryCatch (f : ε → ExceptT ε (Routine I N) α) :
    (tryCatch act f).run.Ensures see Q t ↔
      act.run.Ensures see (fun result t =>
        match result with
        | .ok a => Q (.ok a) t
        | .error e => (f e).run.Ensures see Q t) t := by
  rw [ExceptT.run_tryCatch, ensures_bind]
  exact ensures_congr fun result t => by cases result <;> exact Iff.rfl

theorem ensures_run_adapt {ε' : Type} (f : ε → ε') (Q : Except ε' α → τ → Prop) :
    (act.adapt f).run.Ensures see Q t ↔
      act.run.Ensures see (fun result t => Q (result.mapError f) t) t :=
  ensures_map _ _ _ _

theorem ensures_run_lift (p : Routine I N α) :
    (ExceptT.lift p : ExceptT ε (Routine I N) α).run.Ensures see Q t ↔
      p.Ensures see (fun a t => Q (.ok a) t) t :=
  ensures_map _ _ _ _

theorem ensures_reporting (notice : ε → N) :
    (reporting notice act).run.Ensures see Q t ↔
      act.run.Ensures see (fun result t =>
        match result with
        | .ok a => Q (.ok a) t
        | .error e => Q (.error e) (see t (.noted (notice e)))) t := by
  rw [reporting, ExceptT.run_mk, ensures_bind]
  exact ensures_congr fun result t => by cases result <;> exact Iff.rfl

theorem ensures_run_note (n : N) (Q : Except ε Unit → τ → Prop) :
    (Journal.note n : ExceptT ε (Routine I N) Unit).run.Ensures see Q t ↔
      Q (.ok ()) (see t (.noted n)) := Iff.rfl

end Failing

section Runs

variable (w : World I σ)

/-- The earlier events count as well: `t₀` is what the observer started with before them. -/
theorem Ensures.returnedFrom {p : Routine I N α} {Q : α → τ → Prop} {t₀ : τ} {s : σ}
    {past : List (Event I N)} {a : α}
    (h : p.Ensures see Q (past.foldr (fun e t => see t e) t₀))
    (hr : (p.runFrom w s past).outcome = .returned a) :
    Q a ((p.runFrom w s past).past.foldr (fun e t => see t e) t₀) := by
  induction p generalizing s past with
  | done b =>
    obtain rfl : b = a := by simpa [runFrom] using hr
    exact h
  | call c next ih =>
    cases hw : w c s with
    | none => simp [runFrom, hw] at hr
    | some answer =>
      obtain ⟨reply, s'⟩ := answer
      simp only [runFrom, hw] at hr ⊢
      exact ih reply (h reply) hr
  | note n next ih => exact ih h hr
  | abort => exact h.elim

/-- What a routine ensures holds of any run that returns. -/
theorem Ensures.returned {p : Routine I N α} {Q : α → τ → Prop} {t : τ} {s : σ} {a : α}
    (h : p.Ensures see Q t) (hr : (p.run w s).outcome = .returned a) :
    Q a ((p.run w s).events.foldl see t) := by
  rw [Run.events, List.foldl_reverse]
  exact Ensures.returnedFrom w h hr

/-- What a routine ensures for an observer who records everything holds of the events of its
runs. -/
theorem Ensures.recorded {p : Routine I N α} {Q : α → List (Event I N) → Prop} {s : σ} {a : α}
    (h : p.Ensures (fun events e => events ++ [e]) Q []) (hr : (p.run w s).outcome = .returned a) :
    Q a (p.run w s).events := by
  have hq := h.returned w hr
  rwa [List.foldl_append_eq_append, List.nil_append, ← List.flatMap_def,
    List.flatMap_singleton'] at hq

/-- Where every call returns, so does a routine that ensures anything. -/
theorem Ensures.returns {p : Routine I N α} {Q : α → τ → Prop} {t : τ} (h : p.Ensures see Q t)
    (answer : (c : I.Call) → σ → I.Reply c × σ) (s : σ) :
    ∃ a, (p.run (.answering answer) s).outcome = .returned a := by
  -- The events before the run have no part in its end, but the induction meets them.
  suffices h : ∀ past, ∃ a, (p.runFrom (.answering answer) s past).outcome = .returned a from h []
  induction p generalizing s t with
  | done a => exact fun past => ⟨a, rfl⟩
  | call c next ih => exact fun past => ih _ (h _) _ _
  | note n next ih => exact fun past => ih h s _
  | abort => exact h.elim

/-- Nor does it abort, whichever calls return. -/
theorem Ensures.not_aborted {p : Routine I N α} {Q : α → τ → Prop} {t : τ} {s : σ}
    (h : p.Ensures see Q t) : (p.run w s).outcome ≠ .aborted := by
  suffices h : ∀ past, (p.runFrom w s past).outcome ≠ .aborted from h []
  induction p generalizing s t with
  | done a => exact fun past => nofun
  | call c next ih =>
    intro past
    cases hw : w c s with
    | none => simp [runFrom, hw]
    | some answer =>
      rw [runFrom, hw]
      exact ih answer.1 (h answer.1) _
  | note n next ih => exact fun past => ih h _
  | abort => exact h.elim

end Runs

end Routine

end LedSequencer
