import LedSequencer.Bench.Lines
import LedSequencer.Line.Usage
import LedSequencer.Proofs.Routine.Calls
import LedSequencer.Proofs.Routine.Makes

/-! Lines whose surroundings let only so many waits return. Main statement: a run is cut off only
when no waits are left, and each wait that was left before it was made in it or is left after it. -/
namespace LedSequencer

variable {L F N σ α : Type}

def LineCall.isWait : LineCall L → Bool
  | wait _ => true
  | request _ | release _ | drive _ _ | sample _ | settle _ => false

theorem Usage.waits_called (c : LineCall L) (reply : c.Reply F)
    (events : List (Event (.lines L F) N)) :
    (ofEvents (.called c reply :: events)).waits.length =
      (if c.isWait then 1 else 0) + (ofEvents events).waits.length := by
  cases c with
  | wait ms => exact Nat.add_comm _ 1
  | request line | release line | drive line high | sample line | settle us =>
    exact (Nat.zero_add _).symm

/-- Only so many waits return, in every state `left` more of them. Every other call returns. -/
structure Patience (w : World (.lines L F) σ) (left : σ → Nat) : Prop where
  cutOff {c : LineCall L} {s : σ} (h : w c s = none) : c.isWait ∧ left s = 0
  returned {c : LineCall L} {s s' : σ} {reply : c.Reply F} (h : w c s = some (reply, s')) :
    left s = (if c.isWait then 1 else 0) + left s'

structure Spends (left : σ → Nat) (s : σ) (r : Run (.lines L F) N σ α) : Prop where
  outcome : (∃ a, r.outcome = .returned a) ∨ r.outcome = .cutOff ∧ left r.world = 0
  waits : left s = (Usage.ofEvents r.events).waits.length + left r.world

open Routine in
theorem Patience.spends {w : World (.lines L F) σ} {left : σ → Nat} (h : Patience w left)
    {p : Routine (.lines L F) N α} {P : LineCall L → Prop} (hp : p.Makes P) (s : σ) :
    Spends left s (p.run w s) := by
  induction p generalizing s with
  | done a => exact ⟨.inl ⟨a, rfl⟩, (Nat.zero_add _).symm⟩
  | call c next ih =>
    cases hw : w c s with
    | none =>
      -- Nothing but a wait is cut off, and only when none are left.
      rw [run, runFrom, hw]
      exact ⟨.inr ⟨rfl, (h.cutOff hw).2⟩, (Nat.zero_add _).symm⟩
    | some answer =>
      obtain ⟨reply, s'⟩ := answer
      obtain ⟨houtcome, hwaits⟩ := ih reply (hp.2 reply) s'
      have hevents : (((next reply).run w s').after [.called c reply]).events =
          .called c reply :: ((next reply).run w s').events := Run.events_after _ _
      rw [run_call w hw]
      refine ⟨houtcome, ?_⟩
      rw [h.returned hw, hevents, Usage.waits_called, hwaits, Nat.add_assoc]
      rfl
  | note n p ih =>
    obtain ⟨houtcome, hwaits⟩ := ih hp s
    rw [run_note]
    exact ⟨houtcome, by rw [Run.events_after]; exact hwaits⟩
  | abort => exact hp.elim

namespace LineBench

variable [DecidableEq L]

theorem world_spends (c : LineCall L) (bench : LineBench L) :
    world c bench = none ∧ c.isWait ∧ bench.waitsLeft = 0 ∨ ∃ reply bench',
      world c bench = some (reply, bench') ∧
        bench.waitsLeft = (if c.isWait then 1 else 0) + bench'.waitsLeft := by
  cases c with
  | wait ms =>
    simp only [world]
    split
    · exact .inl ⟨rfl, rfl, ‹_›⟩
    · exact .inr ⟨_, _, rfl, by rw [‹bench.waitsLeft = _›]; exact Nat.add_comm _ 1⟩
  | settle us => exact .inr ⟨_, _, rfl, (Nat.zero_add _).symm⟩
  | drive line high | sample line =>
    simp only [world]
    split <;> exact .inr ⟨_, _, rfl, (Nat.zero_add _).symm⟩
  | request line | release line =>
    simp only [world]
    split
    · exact .inr ⟨_, _, rfl, (Nat.zero_add _).symm⟩
    · split <;> exact .inr ⟨_, _, rfl, (Nat.zero_add _).symm⟩

theorem patience : Patience (world (L := L)) waitsLeft where
  cutOff := by
    intro c bench h
    rcases world_spends c bench with ⟨_, hspent⟩ | ⟨reply, bench', hreply, _⟩
    · exact hspent
    · exact absurd (h.symm.trans hreply) nofun
  returned := by
    intro c bench bench' reply h
    rcases world_spends c bench with ⟨hnone, _⟩ | ⟨_, _, hreply, hleft⟩
    · exact absurd (hnone.symm.trans h) nofun
    · obtain ⟨_, rfl⟩ := Prod.mk.inj (Option.some.inj (hreply.symm.trans h))
      exact hleft

end LineBench

end LedSequencer
