import LedSequencer.Proofs.Line.Steady
import LedSequencer.Proofs.Routine.Returns
import Mathlib.Algebra.BigOperators.Group.List.Basic

/-! What runs on lines cost in outputs, inputs and pauses, and the levels that their samples show.
Main statement: a sequence costs what its parts cost together. -/
namespace LedSequencer

variable {L F N σ α β : Type}

/-- Lines whose outputs and inputs never fault. The samples may show any levels. -/
structure World.Reliable (w : World (.lines L F) σ) : Prop where
  drive (line : L) (high : Bool) (s : σ) : ∃ s', w (.drive line high) s = some (.ok (), s')
  sample (line : L) (s : σ) : ∃ level s', w (.sample line) s = some (.ok level, s')
  settle (us : UInt32) (s : σ) : ∃ s', w (.settle us) s = some ((), s')

theorem reliable_steadyLines (level : Nat → UInt8) :
    World.Reliable (.answering (steadyLines level) : World (.lines L F) Nat) where
  drive _ _ n := ⟨n, rfl⟩
  sample _ n := ⟨level n, n + 1, rfl⟩
  settle _ n := ⟨n, rfl⟩

@[ext] structure Effort where
  outputs : Nat
  inputs : Nat
  pauses : Nat
  deriving DecidableEq

namespace Effort

instance : Zero Effort := ⟨⟨0, 0, 0⟩⟩

instance : Add Effort :=
  ⟨fun a b => ⟨a.outputs + b.outputs, a.inputs + b.inputs, a.pauses + b.pauses⟩⟩

instance : AddCommMonoid Effort where
  add_assoc _ _ _ := Effort.ext (Nat.add_assoc _ _ _) (Nat.add_assoc _ _ _) (Nat.add_assoc _ _ _)
  zero_add _ := Effort.ext (Nat.zero_add _) (Nat.zero_add _) (Nat.zero_add _)
  add_zero _ := rfl
  add_comm _ _ := Effort.ext (Nat.add_comm _ _) (Nat.add_comm _ _) (Nat.add_comm _ _)
  nsmul := nsmulRec

theorem add_eq (a b : Effort) :
    a + b = ⟨a.outputs + b.outputs, a.inputs + b.inputs, a.pauses + b.pauses⟩ := rfl

def ofCall : LineCall L → Effort
  | .drive _ _ => ⟨1, 0, 0⟩
  | .sample _ => ⟨0, 1, 0⟩
  | .settle _ => ⟨0, 0, 1⟩
  | .request _ | .release _ | .wait _ => 0

def ofEvents (events : List (Event (.lines L F) N)) : Effort :=
  ((callsOf events).map fun c => ofCall c.1).sum

theorem ofEvents_append (a b : List (Event (.lines L F) N)) :
    ofEvents (a ++ b) = ofEvents a + ofEvents b := by
  rw [ofEvents, callsOf_append, List.map_append, List.sum_append]
  rfl

def usage (period : UInt32) (effort : Effort) : Usage :=
  ⟨effort.outputs, effort.inputs, effort.pauses * period.toNat, []⟩

end Effort

def levelsOf (events : List (Event (.lines L F) N)) : List UInt8 :=
  events.filterMap fun
    | .called (.sample _) (.ok level) => some level
    | _ => none

theorem levelsOf_append (a b : List (Event (.lines L F) N)) :
    levelsOf (a ++ b) = levelsOf a ++ levelsOf b :=
  List.filterMap_append

namespace Routine

variable {w : World (.lines L F) σ} {s s' s'' : σ}
variable {effort more : Effort} {levels rest : List UInt8}

/-- The run from `s` returns `a` and leaves the world in the state `s'`. It costs `effort`, and its
samples show `levels`. -/
def Spends (w : World (.lines L F) σ) (p : Routine (.lines L F) N α) (s : σ) (a : α) (s' : σ)
    (effort : Effort) (levels : List UInt8) : Prop :=
  ∃ events, p.Returns w s a s' events ∧ Effort.ofEvents events = effort ∧ levelsOf events = levels

theorem spends_done (a : α) : (done a : Routine (.lines L F) N α).Spends w s a s 0 [] :=
  ⟨[], returns_done a, rfl, rfl⟩

theorem Spends.bind {p : Routine (.lines L F) N α} {f : α → Routine (.lines L F) N β} {a : α}
    {b : β} (h : p.Spends w s a s' effort levels) (hf : (f a).Spends w s' b s'' more rest) :
    (p >>= f).Spends w s b s'' (effort + more) (levels ++ rest) := by
  obtain ⟨before, hp, rfl, rfl⟩ := h
  obtain ⟨after, hf, rfl, rfl⟩ := hf
  exact ⟨before ++ after, hp.bind hf, Effort.ofEvents_append before after,
    levelsOf_append before after⟩

theorem Spends.of_eq {p : Routine (.lines L F) N α} {a : α} (h : p.Spends w s a s' effort levels)
    (heffort : effort = more) (hlevels : levels = rest) : p.Spends w s a s' more rest :=
  heffort ▸ hlevels ▸ h

/-- What follows without a cost and without samples changes nothing but the value. -/
theorem Spends.bind_free {p : Routine (.lines L F) N α} {f : α → Routine (.lines L F) N β} {a : α}
    {b : β} (h : p.Spends w s a s' effort levels) (hf : (f a).Spends w s' b s'' 0 []) :
    (p >>= f).Spends w s b s'' effort levels := by
  rw [← add_zero effort, ← List.append_nil levels]
  exact h.bind hf

theorem Spends.note {p : Routine (.lines L F) N α} {a : α} (h : p.Spends w s a s' effort levels)
    (n : N) : (Routine.note n p).Spends w s a s' effort levels := by
  obtain ⟨events, hp, rfl, rfl⟩ := h
  exact ⟨_, (returns_note n).bind (f := fun _ => p) hp, rfl, rfl⟩

section Failing

variable {ε : Type} {act : ExceptT ε (Routine (.lines L F) N) α}

theorem Spends.andThen {f : α → ExceptT ε (Routine (.lines L F) N) β} {a : α} {result : Except ε β}
    (h : act.run.Spends w s (.ok a) s' effort levels)
    (hf : (f a).run.Spends w s' result s'' more rest) :
    (act >>= f).run.Spends w s result s'' (effort + more) (levels ++ rest) :=
  h.bind hf

theorem Spends.andThen_error {f : α → ExceptT ε (Routine (.lines L F) N) β} {e : ε}
    (h : act.run.Spends w s (.error e) s' effort levels) :
    (act >>= f).run.Spends w s (.error e) s' effort levels :=
  h.bind_free (spends_done _)

theorem Spends.reporting {result : Except ε α} (h : act.run.Spends w s result s' effort levels)
    (notice : ε → N) :
    (LedSequencer.reporting notice act).run.Spends w s result s' effort levels := by
  refine Spends.bind_free h ?_
  cases result with
  | ok a => exact spends_done _
  | error e => exact (spends_done _).note (notice e)

end Failing

end Routine

end LedSequencer
