import LedSequencer.Proofs.Routine.Calls
import LedSequencer.Proofs.Routine.Ensures

/-! What all calls of a routine have in common, whatever the replies to them are. Main statement:
what every event leaves as it is a routine that never aborts leaves as it is. -/
namespace LedSequencer.Routine

variable {I J : Interface} {N α β ε τ : Type}

/-- The routine makes no calls but such with `P`, and never aborts. -/
def Makes (P : I.Call → Prop) : Routine I N α → Prop
  | done _ => True
  | call c next => P c ∧ ∀ reply, (next reply).Makes P
  | note _ next => next.Makes P
  | abort => False

variable {P Q : I.Call → Prop}

theorem Makes.mono {p : Routine I N α} (h : p.Makes P) (hpq : ∀ c, P c → Q c) : p.Makes Q := by
  induction p with
  | done a => trivial
  | call c next ih => exact ⟨hpq c h.1, fun reply => ih reply (h.2 reply)⟩
  | note n next ih => exact ih h
  | abort => exact h

theorem Makes.bind {p : Routine I N α} {f : α → Routine I N β} (h : p.Makes P)
    (hf : ∀ a, (f a).Makes P) : (p >>= f).Makes P := by
  induction p with
  | done a => exact hf a
  | call c next ih => exact ⟨h.1, fun reply => ih reply (h.2 reply)⟩
  | note n next ih => exact ih h
  | abort => exact h.elim

theorem Makes.map {p : Routine I N α} (h : p.Makes P) (f : α → β) : (f <$> p).Makes P :=
  Makes.bind h fun _ => trivial

/-- Where each call is made by a routine over another interface, its calls are all that is left. -/
theorem Makes.handle {h : (c : I.Call) → Routine J N (I.Reply c)} {R : J.Call → Prop}
    {p : Routine I N α} (hp : p.Makes P) (hh : ∀ c, P c → (h c).Makes R) : (p.handle h).Makes R := by
  induction p with
  | done a => trivial
  | call c next ih => exact (hh c hp.1).bind fun reply => ih reply (hp.2 reply)
  | note n next ih => exact ih hp
  | abort => exact hp.elim

/-- A routine that ensures anything never aborts. -/
theorem Ensures.makes {see : τ → Event I N → τ} {p : Routine I N α} {R : α → τ → Prop} {t : τ}
    (h : p.Ensures see R t) : p.Makes fun _ => True := by
  induction p generalizing t with
  | done a => trivial
  | call c next ih => exact ⟨trivial, fun reply => ih reply (h reply)⟩
  | note n next ih => exact ih h
  | abort => exact h

theorem Makes.keeps {see : τ → Event I N → τ} {p : Routine I N α} (h : p.Makes P) {R : τ → Prop}
    (hsee : ∀ t e, R t → R (see t e)) {t : τ} (ht : R t) : p.Ensures see (fun _ t => R t) t := by
  induction p generalizing t with
  | done a => exact ht
  | call c next ih => exact fun reply => ih reply (h.2 reply) (hsee t _ ht)
  | note n next ih => exact ih h (hsee t _ ht)
  | abort => exact h.elim

section Recorded

variable {Q : α → List (Event I N) → Prop} {p : Routine I N α} {past : List (Event I N)}

/-- There are replies with which the routine returns. -/
theorem Ensures.exists_end (hreply : ∀ c, Nonempty (I.Reply c))
    (h : p.Ensures (fun events e => events ++ [e]) Q past) : ∃ a more, Q a (past ++ more) := by
  induction p generalizing past with
  | done a => exact ⟨a, [], (List.append_nil past).symm ▸ h⟩
  | call c next ih =>
    obtain ⟨reply⟩ := hreply c
    obtain ⟨a, more, hq⟩ := ih reply (h reply)
    rw [List.append_assoc] at hq
    exact ⟨a, .called c reply :: more, hq⟩
  | note n next ih =>
    obtain ⟨a, more, hq⟩ := ih h
    rw [List.append_assoc] at hq
    exact ⟨a, .noted n :: more, hq⟩
  | abort => exact h.elim

/-- A routine makes no calls but those that can be among its events in the end. -/
theorem Ensures.makes_calls (hreply : ∀ c, Nonempty (I.Reply c))
    (h : p.Ensures (fun events e => events ++ [e]) Q past)
    (hq : ∀ a events, Q a events → ∀ call ∈ callsOf events, P call.1) : p.Makes P := by
  induction p generalizing past with
  | done a => trivial
  | call c next ih =>
    refine ⟨?_, fun reply => ih reply (h reply)⟩
    -- Whatever the reply is, the call is among the events from then on.
    obtain ⟨reply⟩ := hreply c
    obtain ⟨a, more, hend⟩ := (h reply).exists_end hreply
    refine hq a _ hend ⟨c, reply⟩ ?_
    rw [callsOf_append, callsOf_append]
    exact List.mem_append_left _ (List.mem_append_right _ List.mem_cons_self)
  | note n next ih => exact ih h
  | abort => exact h.elim

end Recorded

section Failing

variable {act : ExceptT ε (Routine I N) α}

/-- What follows is only done if the first part succeeds. -/
theorem Makes.andThen {f : α → ExceptT ε (Routine I N) β} (h : act.run.Makes P)
    (hf : ∀ a, (f a).run.Makes P) : (act >>= f).run.Makes P := by
  rw [ExceptT.run_bind]
  refine Makes.bind h ?_
  rintro (e | a)
  · trivial
  · exact hf a

theorem Makes.tryCatch {f : ε → ExceptT ε (Routine I N) α} (h : act.run.Makes P)
    (hf : ∀ e, (f e).run.Makes P) : (tryCatch act f).run.Makes P := by
  rw [ExceptT.run_tryCatch]
  refine Makes.bind h ?_
  rintro (e | a)
  · exact hf e
  · trivial

theorem Makes.reporting (h : act.run.Makes P) (notice : ε → N) :
    (reporting notice act).run.Makes P := by
  rw [LedSequencer.reporting, ExceptT.run_mk]
  refine Makes.bind h ?_
  rintro (e | a) <;> trivial

end Failing

end LedSequencer.Routine
