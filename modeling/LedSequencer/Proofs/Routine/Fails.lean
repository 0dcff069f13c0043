import LedSequencer.Proofs.Routine.Ensures

/-! What all failures of an action have in common, whatever the replies to its calls are. -/
namespace LedSequencer.Routine

variable {I : Interface} {N α β ε σ : Type}

def Fails (P : ε → Prop) (act : ExceptT ε (Routine I N) α) : Prop :=
  act.run.Ensures (fun (u : Unit) _ => u) (fun result _ => ∀ e, result = .error e → P e) ()

variable {P Q : ε → Prop} {act : ExceptT ε (Routine I N) α}

theorem fails_pure (a : α) : Fails P (pure a : ExceptT ε (Routine I N) α) := by
  intro e he
  cases he

theorem fails_throw {e : ε} (h : P e) : Fails P (throw e : ExceptT ε (Routine I N) α) := by
  intro e' he
  exact Except.error.inj he ▸ h

theorem Fails.bind {f : α → ExceptT ε (Routine I N) β} (h : Fails P act) (hf : ∀ a, Fails P (f a)) :
    Fails P (act >>= f) := by
  rw [Fails, ensures_run_bind]
  refine h.mono ?_
  rintro (e | a) _ hresult
  · intro e' he
    exact Except.error.inj he ▸ hresult e rfl
  · exact hf a

theorem Fails.tryCatch {f : ε → ExceptT ε (Routine I N) α} (h : Fails Q act)
    (hf : ∀ e, Q e → Fails P (f e)) : Fails P (tryCatch act f) := by
  rw [Fails, ensures_run_tryCatch]
  refine h.mono ?_
  rintro (e | a) _ hresult
  · exact hf e (hresult e rfl)
  · exact fails_pure (I := I) (N := N) a

theorem Fails.reporting (h : Fails P act) (notice : ε → N) :
    Fails P (reporting notice act) := by
  rw [Fails, ensures_reporting]
  refine h.mono ?_
  rintro (e | a) _ hresult
  · exact hresult
  · exact hresult

theorem Fails.returned (h : Fails P act) (w : World I σ) {s : σ} {e : ε}
    (hr : (act.run.run w s).outcome = .returned (.error e)) : P e :=
  Ensures.returned w h hr e rfl

end LedSequencer.Routine
