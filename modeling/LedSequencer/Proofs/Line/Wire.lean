import LedSequencer.Line.Waveform
import LedSequencer.Proofs.Routine.Calls
import LedSequencer.Proofs.Routine.Ensures

/-! The two lines of a bus as an observer of the calls sees them. -/
namespace LedSequencer

structure Wire where
  levels : Levels
  edges : List Edge

namespace Wire

variable {L F N : Type}

def drive (wire : Wire) (onClock high : Bool) : Wire :=
  ⟨wire.levels.drive onClock high, wire.edges ++ (wire.levels.edge? onClock high).toList⟩

variable [DecidableEq L]

def next (clock : L) (wire : Wire) (e : Event (.lines L F) N) : Wire :=
  ⟨wire.levels.next clock e, wire.edges ++ (e.edge? clock wire.levels).toList⟩

@[simp] theorem next_drive (clock line : L) (wire : Wire) (high : Bool) :
    wire.next clock (.called (.drive line high) (.ok ()) : Event (.lines L F) N) =
      wire.drive (decide (line = clock)) high := rfl

/-- Only a drive that succeeds moves a line. -/
@[simp] theorem next_eq_self {clock : L} {e : Event (.lines L F) N} (wire : Wire)
    (h : e.driven? clock = none) : wire.next clock e = wire := by
  simp [next, Levels.next, Event.edge?, h]

@[simp] theorem next_noted (clock : L) (wire : Wire) (n : N) :
    wire.next clock (.noted n : Event (.lines L F) N) = wire :=
  next_eq_self wire rfl

/-- Watching a list of events shows their waveform. -/
theorem foldl_next (clock : L) (events : List (Event (.lines L F) N)) (levels : Levels)
    (edges : List Edge) :
    events.foldl (next clock) ⟨levels, edges⟩ =
      ⟨levels.afterAll clock events, edges ++ waveform clock levels events⟩ := by
  induction events generalizing levels edges with
  | nil => simp [Levels.afterAll, waveform]
  | cons e events ih =>
    rw [List.foldl_cons, waveform, ← List.append_assoc]
    exact ih _ _

theorem foldl_callsOf (clock : L) (events : List (Event (.lines L F) N)) (wire : Wire) :
    events.foldl (next clock) wire =
      ((callsOf events).map fun c => (.called c.1 c.2 : Event (.lines L F) N)).foldl
        (next clock) wire := by
  induction events generalizing wire with
  | nil => rfl
  | cons e events ih =>
    cases e with
    | called c reply => exact ih _
    | noted n =>
      rw [List.foldl_cons, next_noted]
      exact ih wire

/-- Notices change nothing on the wire. -/
theorem foldl_congr (clock : L) {a b : List (Event (.lines L F) N)} (h : callsOf a = callsOf b)
    (wire : Wire) : a.foldl (next clock) wire = b.foldl (next clock) wire := by
  rw [foldl_callsOf, h, ← foldl_callsOf]

end Wire

section Runs

variable {L F N σ α : Type} [DecidableEq L] {clock : L}

theorem waveform_congr {a b : List (Event (.lines L F) N)} (h : callsOf a = callsOf b)
    (levels : Levels) : waveform clock levels a = waveform clock levels b := by
  have hwire := Wire.foldl_congr clock h ⟨levels, []⟩
  simpa only [Wire.foldl_next, List.nil_append] using congrArg Wire.edges hwire

theorem afterAll_congr {a b : List (Event (.lines L F) N)} (h : callsOf a = callsOf b)
    (levels : Levels) : levels.afterAll clock a = levels.afterAll clock b := by
  have hwire := Wire.foldl_congr clock h ⟨levels, []⟩
  simpa only [Wire.foldl_next] using congrArg Wire.levels hwire

/-- What a routine ensures for the wire holds of its runs where every call returns. -/
theorem Routine.Ensures.wave {p : Routine (.lines L F) N α} {Q : α → Wire → Prop} {levels : Levels}
    (h : p.Ensures (Wire.next clock) Q ⟨levels, []⟩)
    (answer : (c : LineCall L) → σ → LineCall.Reply F c × σ) (s : σ) :
    ∃ a, (p.run (.answering answer) s).outcome = .returned a ∧
      Q a ⟨levels.afterAll clock (p.run (.answering answer) s).events,
        waveform clock levels (p.run (.answering answer) s).events⟩ := by
  obtain ⟨a, ha⟩ := h.returns answer s
  have hq := h.returned _ ha
  rw [Wire.foldl_next, List.nil_append] at hq
  exact ⟨a, ha, hq⟩

end Runs

end LedSequencer
