import LedSequencer.Proofs.Routine.Calls

/-! Routines without their notices. Main statement: two routines that differ in nothing but their
notices end alike in every world and make the same calls. -/
namespace LedSequencer.Routine

variable {I : Interface} {N α β ε σ : Type}

def mute : Routine I N α → Routine I N α
  | done a => done a
  | call c next => call c fun reply => (next reply).mute
  | note _ next => next.mute
  | abort => abort

theorem mute_bind (p : Routine I N α) (f : α → Routine I N β) :
    (p >>= f).mute = p.mute >>= fun a => (f a).mute := by
  induction p with
  | done a => rfl
  | call c next ih => exact congrArg (call c) (funext ih)
  | note n next ih => exact ih
  | abort => rfl

theorem run_mute (w : World I σ) (p : Routine I N α) (s : σ) :
    (p.mute.run w s).outcome = (p.run w s).outcome ∧
      (p.mute.run w s).world = (p.run w s).world ∧
        callsOf (p.mute.run w s).events = callsOf (p.run w s).events := by
  induction p generalizing s with
  | done a => exact ⟨rfl, rfl, rfl⟩
  | call c next ih =>
    cases hw : w c s with
    | none =>
      have hrun (next : I.Reply c → Routine I N α) : (call c next).run w s = ⟨.cutOff, s, []⟩ := by
        rw [run, runFrom, hw]
      rw [mute, hrun, hrun]
      exact ⟨rfl, rfl, rfl⟩
    | some answer =>
      obtain ⟨reply, s'⟩ := answer
      obtain ⟨houtcome, hworld, hcalls⟩ := ih reply s'
      rw [mute, run_call w hw, run_call w hw, Run.events_after, Run.events_after, callsOf_append,
        callsOf_append, hcalls]
      exact ⟨houtcome, hworld, rfl⟩
  | note n next ih =>
    rw [calls_note, run_note]
    exact ih s
  | abort => exact ⟨rfl, rfl, rfl⟩

/-- Notices have no part in how a run ends and what it calls. -/
theorem run_of_mute_eq {p q : Routine I N α} (h : p.mute = q.mute) (w : World I σ) (s : σ) :
    (p.run w s).outcome = (q.run w s).outcome ∧ (p.run w s).world = (q.run w s).world ∧
      callsOf (p.run w s).events = callsOf (q.run w s).events := by
  obtain ⟨houtcome, hworld, hcalls⟩ := run_mute w p s
  rw [h] at houtcome hworld hcalls
  obtain ⟨houtcome', hworld', hcalls'⟩ := run_mute w q s
  exact ⟨houtcome.symm.trans houtcome', hworld.symm.trans hworld', hcalls.symm.trans hcalls'⟩

section Failing

variable {act other : ExceptT ε (Routine I N) α}

/-- A report is nothing but a notice. -/
theorem mute_reporting (notice : ε → N) (act : ExceptT ε (Routine I N) α) :
    (reporting notice act).run.mute = act.run.mute := by
  refine (mute_bind act.run _).trans (Eq.trans ?_ (bind_done _))
  apply bind_congr
  intro result
  cases result <;> rfl

/-- What is the same but for notices is so when something else follows. -/
theorem mute_andThen {f g : α → ExceptT ε (Routine I N) β} (h : act.run.mute = other.run.mute)
    (hfg : ∀ a, (f a).run.mute = (g a).run.mute) :
    (act >>= f).run.mute = (other >>= g).run.mute := by
  rw [ExceptT.run_bind, ExceptT.run_bind, mute_bind, mute_bind, h]
  refine congrArg (other.run.mute >>= ·) (funext fun result => ?_)
  cases result with
  | error e => rfl
  | ok a => exact hfg a

end Failing

end LedSequencer.Routine
