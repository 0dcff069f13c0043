import LedSequencer.Proofs.Routine.Calls
import LedSequencer.Proofs.Routine.Makes

/-! Properties of the events of a run that are kept where one run follows another. Main statement:
what each part of a sequence adds to the events is enough to know what the sequence adds. -/
namespace LedSequencer

variable {I : Interface} {N α β ε σ : Type}

/-- A property of lists of events that carries over to lists put one behind the other. -/
structure Joins (E : List (Event I N) → Prop) : Prop where
  nil : E []
  append {a b : List (Event I N)} : E a → E b → E (a ++ b)

namespace Routine

/-- Whatever the replies, the routine returns and the events that it adds have `E`. -/
def Adds (E : List (Event I N) → Prop) (p : Routine I N α) : Prop :=
  ∀ past, p.Ensures (fun events e => events ++ [e]) (fun _ events =>
    ∃ more, events = past ++ more ∧ E more) past

variable {E : List (Event I N) → Prop} {p : Routine I N α}

/-- A run where every call returns. -/
theorem Adds.run (h : p.Adds E) (answer : (c : I.Call) → σ → I.Reply c × σ) (s : σ) :
    ∃ a, (p.run (.answering answer) s).outcome = .returned a ∧
      E (p.run (.answering answer) s).events := by
  obtain ⟨a, ha⟩ := (h []).returns answer s
  obtain ⟨more, hmore, he⟩ := (h []).recorded _ ha
  rw [hmore]
  exact ⟨a, ha, he⟩

theorem Adds.mono {E' : List (Event I N) → Prop} (h : p.Adds E)
    (hmono : ∀ events, E events → E' events) : p.Adds E' := by
  intro past
  refine (h past).mono ?_
  rintro a _ ⟨more, rfl, hmore⟩
  exact ⟨more, rfl, hmono more hmore⟩

theorem adds_done (hE : Joins E) (a : α) : (done a : Routine I N α).Adds E :=
  fun past => ⟨[], (List.append_nil past).symm, hE.nil⟩

theorem adds_note {n : N} (h : E [.noted n]) : (note n (done ()) : Routine I N Unit).Adds E :=
  fun _ => ⟨_, rfl, h⟩

theorem adds_call {c : I.Call} (h : ∀ reply, E [.called c reply]) :
    (call c done : Routine I N (I.Reply c)).Adds E :=
  fun _ reply => ⟨_, rfl, h reply⟩

theorem Adds.bind (hE : Joins E) {f : α → Routine I N β} (h : p.Adds E) (hf : ∀ a, (f a).Adds E) :
    (p >>= f).Adds E := by
  intro past
  rw [ensures_bind]
  refine (h past).mono ?_
  rintro a _ ⟨before, rfl, hbefore⟩
  refine (hf a _).mono ?_
  rintro b _ ⟨after, rfl, hafter⟩
  exact ⟨before ++ after, List.append_assoc _ _ _, hE.append hbefore hafter⟩

theorem adds_mapM' (hE : Joins E) {f : β → Routine I N α} (h : ∀ b, (f b).Adds E) (bs : List β) :
    (bs.mapM' f).Adds E := by
  induction bs with
  | nil => exact adds_done hE []
  | cons b bs ih => exact (h b).bind hE fun a => ih.bind hE fun as => adds_done hE (a :: as)

/-- The calls that a routine adds have what all its calls have in common. -/
theorem Makes.adds {P : I.Call → Prop} (h : p.Makes P) :
    p.Adds fun events => ∀ c ∈ callsOf events, P c.1 := by
  have hjoins : Joins fun events : List (Event I N) => ∀ c ∈ callsOf events, P c.1 := by
    refine ⟨nofun, fun {a b} ha hb => ?_⟩
    rw [callsOf_append]
    exact List.forall_mem_append.2 ⟨ha, hb⟩
  induction p with
  | done a => exact adds_done hjoins a
  | call c next ih =>
    have hcall : (call c done : Routine I N (I.Reply c)).Adds fun events =>
        ∀ c ∈ callsOf events, P c.1 := adds_call fun reply => List.forall_mem_singleton.2 h.1
    exact hcall.bind hjoins fun reply => ih reply (h.2 reply)
  | note n next ih =>
    have hnote : (note n (done ()) : Routine I N Unit).Adds fun events =>
        ∀ c ∈ callsOf events, P c.1 := adds_note nofun
    exact hnote.bind hjoins fun _ => ih h
  | abort => exact h.elim

/-- The same in any world, also if the run does not return. -/
theorem Makes.calls {P : I.Call → Prop} (h : p.Makes P) (w : World I σ) (s : σ) :
    ∀ c ∈ callsOf (p.run w s).events, P c.1 := by
  induction p generalizing s with
  | done a => exact List.forall_mem_nil _
  | call c next ih =>
    cases hw : w c s with
    | none =>
      rw [run, runFrom, hw]
      exact List.forall_mem_nil _
    | some answer =>
      obtain ⟨reply, s'⟩ := answer
      rw [run_call w hw, Run.events_after, callsOf_append]
      exact List.forall_mem_cons.2 ⟨h.1, ih reply (h.2 reply) s'⟩
  | note n next ih =>
    rw [calls_note]
    exact ih h s
  | abort => exact h.elim

section Failing

variable {act : ExceptT ε (Routine I N) α}

theorem Adds.andThen (hE : Joins E) {f : α → ExceptT ε (Routine I N) β} (h : act.run.Adds E)
    (hf : ∀ a, (f a).run.Adds E) : (act >>= f).run.Adds E := by
  refine Adds.bind hE h ?_
  rintro (e | a)
  · exact adds_done hE _
  · exact hf a

theorem Adds.tryCatch (hE : Joins E) {f : ε → ExceptT ε (Routine I N) α} (h : act.run.Adds E)
    (hf : ∀ e, (f e).run.Adds E) : (tryCatch act f).run.Adds E := by
  refine Adds.bind hE h ?_
  rintro (e | a)
  · exact hf e
  · exact adds_done hE _

theorem Adds.reporting (hE : Joins E) (hnote : ∀ n, E [.noted n]) (h : act.run.Adds E)
    (notice : ε → N) : (reporting notice act).run.Adds E := by
  refine Adds.bind hE h ?_
  rintro (e | a)
  · exact Adds.bind hE (adds_note (hnote (notice e))) fun _ => adds_done hE _
  · exact adds_done hE _

end Failing

end Routine

end LedSequencer
