import LedSequencer.Line.Usage
import LedSequencer.Proofs.Line.Wire

/-! Lines that do as they are told. Main statement: on lines that never fault a run of a sequence is
a run of its first part and, from where that one leads, a run of its second part. -/
namespace LedSequencer

variable {L F N σ ε α β : Type}

/-- Lines that never fault. The samples show the levels `level`, one after the other; the state is
how many of them were taken. -/
def steadyLines (level : Nat → UInt8) : (c : LineCall L) → Nat → LineCall.Reply F c × Nat
  | .request _, n | .release _, n | .drive _ _, n => (.ok (), n)
  | .sample _, n => (.ok (level n), n + 1)
  | .settle _, n | .wait _, n => ((), n)

/-- Lines that work but for one output. All samples are 0; the state is how many outputs there
were. -/
def brokenLines (broken : Nat) : (c : LineCall L) → Nat → LineCall.Reply Unit c × Nat
  | .request _, n | .release _, n => (.ok (), n)
  | .drive _ _, n => (if n = broken then .error () else .ok (), n + 1)
  | .sample _, n => (.ok 0, n)
  | .settle _, n | .wait _, n => ((), n)

theorem Usage.inputs_append (a b : List (Event (.lines L F) N)) :
    (ofEvents (a ++ b)).inputs = (ofEvents a).inputs + (ofEvents b).inputs := by
  induction a with
  | nil => exact (Nat.zero_add _).symm
  | cons e a ih =>
    have hcons (events : List (Event (.lines L F) N)) :
        (ofEvents (e :: events)).inputs = (ofEvents [e]).inputs + (ofEvents events).inputs := by
      rcases e with ⟨_ | _ | _ | _ | _ | _, _⟩ | _ <;> simp [ofEvents, cons, Nat.add_comm]
    rw [List.cons_append, hcons, ih, hcons a, Nat.add_assoc]

/-- On steady lines the state counts the inputs. -/
theorem inputs_steadyLines (level : Nat → UInt8) (p : Routine (.lines L F) N α) (n : Nat) :
    (p.run (.answering (steadyLines level)) n).world =
      n + (Usage.ofEvents (p.run (.answering (steadyLines level)) n).events).inputs := by
  induction p generalizing n with
  | done a => rfl
  | call c next ih =>
    have hcount : (Usage.ofEvents [(.called c (steadyLines level c n).1 :
        Event (.lines L F) N)]).inputs + n = (steadyLines (F := F) level c n).2 := by
      cases c <;> simp [Usage.ofEvents, Usage.cons, steadyLines, Nat.add_comm]
    -- The rest of the run starts from the state after the call.
    rcases hreply : steadyLines (F := F) level c n with ⟨reply, m⟩
    have hcall : World.answering (steadyLines (F := F) level) c n = some (reply, m) :=
      congrArg some hreply
    rw [hreply] at hcount
    rw [Routine.run_call _ hcall, Run.events_after, List.reverse_singleton, Usage.inputs_append,
      ← Nat.add_assoc, Nat.add_comm n, hcount]
    exact ih reply m
  | note notice next ih =>
    rw [Routine.run_note, Run.events_after, List.reverse_singleton, Usage.inputs_append]
    refine (ih n).trans ?_
    simp [Usage.ofEvents, Usage.cons]
  | abort => rfl

namespace Routine

/-- A run from the state `s` returns `a`, leads to the state `s'` and changes the wire. -/
structure Leads [DecidableEq L] (w : World (.lines L F) σ) (clock : L)
    (p : Routine (.lines L F) N α) (s : σ) (wire : Wire) (a : α) (s' : σ) (wire' : Wire) :
    Prop where
  outcome : (p.run w s).outcome = .returned a
  world : (p.run w s).world = s'
  wire : (p.run w s).events.foldl (Wire.next clock) wire = wire'

variable [DecidableEq L] {w : World (.lines L F) σ} {clock : L}
variable {s s' s'' : σ} {wire wire' wire'' : Wire}

theorem leads_done (a : α) : (done a : Routine (.lines L F) N α).Leads w clock s wire a s wire :=
  ⟨rfl, rfl, rfl⟩

/-- The second part of a sequence starts from where the first part leads. -/
theorem Leads.bind {p : Routine (.lines L F) N α} {f : α → Routine (.lines L F) N β} {a : α} {b : β}
    (h : p.Leads w clock s wire a s' wire') (hf : (f a).Leads w clock s' wire' b s'' wire'') :
    (p >>= f).Leads w clock s wire b s'' wire'' := by
  have hrun : (p >>= f).run w s = ((f a).run w s').after (p.run w s).past := by
    rw [run_bind, Run.andThen, h.outcome, h.world]
  refine ⟨?_, ?_, ?_⟩
  · rw [hrun]
    exact hf.outcome
  · rw [hrun]
    exact hf.world
  · rw [hrun, Run.events_after, List.foldl_append]
    have hfirst : (p.run w s).past.reverse.foldl (Wire.next clock) wire = wire' := h.wire
    rw [hfirst, hf.wire]

theorem Leads.bind_ok {act : ExceptT ε (Routine (.lines L F) N) α}
    {f : α → ExceptT ε (Routine (.lines L F) N) β} {a : α} {result : Except ε β}
    (h : act.run.Leads w clock s wire (.ok a) s' wire')
    (hf : (f a).run.Leads w clock s' wire' result s'' wire'') :
    (act >>= f).run.Leads w clock s wire result s'' wire'' :=
  Leads.bind h hf

theorem Leads.bind_error {act : ExceptT ε (Routine (.lines L F) N) α}
    {f : α → ExceptT ε (Routine (.lines L F) N) β} {e : ε}
    (h : act.run.Leads w clock s wire (.error e) s' wire') :
    (act >>= f).run.Leads w clock s wire (.error e) s' wire' :=
  Leads.bind h (leads_done _)

/-- A notice changes nothing on the lines. -/
theorem Leads.note {p : Routine (.lines L F) N α} {a : α} (h : p.Leads w clock s wire a s' wire')
    (n : N) : (Routine.note n p).Leads w clock s wire a s' wire' := by
  have hfirst : (Routine.note n (done ()) : Routine (.lines L F) N Unit).Leads
      w clock s wire () s wire := ⟨rfl, rfl, Wire.next_noted clock wire n⟩
  exact hfirst.bind (f := fun _ => p) h

theorem Leads.reporting {act : ExceptT ε (Routine (.lines L F) N) α} {result : Except ε α}
    (h : act.run.Leads w clock s wire result s' wire') (notice : ε → N) :
    (LedSequencer.reporting notice act).run.Leads w clock s wire result s' wire' := by
  refine Leads.bind h ?_
  cases result with
  | ok a => exact leads_done _
  | error e => exact (leads_done _).note (notice e)

end Routine

end LedSequencer
