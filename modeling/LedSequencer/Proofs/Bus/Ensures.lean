import LedSequencer.Bus.Transaction
import LedSequencer.Proofs.Routine.Ensures

/-! What the single steps of a bus ensure for any observer. -/
namespace LedSequencer.Bus
open Routine

variable {L F α τ : Type} (bus : Bus L)
variable {see : τ → Event (.lines L F) (Notice F) → τ} {t : τ}

theorem forall_except {ε : Type} {P : Except ε α → Prop} :
    (∀ result, P result) ↔ (∀ e, P (.error e)) ∧ ∀ a, P (.ok a) := by
  refine ⟨fun h => ⟨fun e => h (.error e), fun a => h (.ok a)⟩, ?_⟩
  rintro ⟨herror, hok⟩ (e | a)
  · exact herror e
  · exact hok a

theorem forall_except_unit {ε : Type} {P : Except ε Unit → Prop} :
    (∀ result, P result) ↔ (∀ e, P (.error e)) ∧ P (.ok ()) :=
  forall_except.trans (and_congr_right fun _ => ⟨fun h => h (), fun h _ => h⟩)

theorem ensures_takeLine (line : L) (Q : Except (Failure F) Unit → τ → Prop) :
    (takeLine line : Action L F Unit).run.Ensures see Q t ↔
      (∀ fault, Q (.error (.io fault)) (see t (.called (.request line) (.error fault)))) ∧
        Q (.ok ()) (see t (.called (.request line) (.ok ()))) :=
  (ensures_map _ _ _ _).trans forall_except_unit

theorem ensures_freeLine (line : L) (Q : Except (Failure F) Unit → τ → Prop) :
    (freeLine line : Action L F Unit).run.Ensures see Q t ↔
      (∀ fault, Q (.error (.io fault)) (see t (.called (.release line) (.error fault)))) ∧
        Q (.ok ()) (see t (.called (.release line) (.ok ()))) :=
  (ensures_map _ _ _ _).trans forall_except_unit

theorem ensures_setClock (high : Bool) (Q : Except (Failure F) Unit → τ → Prop) :
    (bus.setClock high : Action L F Unit).run.Ensures see Q t ↔
      (∀ fault, Q (.error (.io fault)) (see t (.called (.drive bus.clock high) (.error fault)))) ∧
        Q (.ok ()) (see t (.called (.drive bus.clock high) (.ok ()))) :=
  (ensures_map _ _ _ _).trans forall_except_unit

theorem ensures_setData (high : Bool) (Q : Except (Failure F) Unit → τ → Prop) :
    (bus.setData high : Action L F Unit).run.Ensures see Q t ↔
      (∀ fault, Q (.error (.io fault)) (see t (.called (.drive bus.data high) (.error fault)))) ∧
        Q (.ok ()) (see t (.called (.drive bus.data high) (.ok ()))) :=
  (ensures_map _ _ _ _).trans forall_except_unit

theorem ensures_sampleData (Q : Except (Failure F) UInt8 → τ → Prop) :
    (bus.sampleData : Action L F UInt8).run.Ensures see Q t ↔
      (∀ fault, Q (.error (.io fault)) (see t (.called (.sample bus.data) (.error fault)))) ∧
        ∀ level, Q (.ok level) (see t (.called (.sample bus.data) (.ok level))) :=
  (ensures_map _ _ _ _).trans forall_except

theorem ensures_settle (Q : Except (Failure F) Unit → τ → Prop) :
    (bus.settle : Action L F Unit).run.Ensures see Q t ↔
      Q (.ok ()) (see t (.called (.settle bus.halfPeriod) ())) := by
  simp only [settle, ExceptT.run_lift, ensures_map, ensures_call, ensures_done]
  exact ⟨fun h => h (), fun h _ => h⟩

theorem ensures_checkLevel (level : UInt8) (Q : Except (Failure F) UInt8 → τ → Prop) :
    (checkLevel level : Action L F UInt8).run.Ensures see Q t ↔
      if level ≤ 1 then Q (.ok level) t
      else Q (.error (.invalidLevel level)) (see t (.noted (.badLevel level))) := by
  unfold checkLevel
  split
  · exact Iff.rfl
  · exact Iff.rfl

end LedSequencer.Bus
