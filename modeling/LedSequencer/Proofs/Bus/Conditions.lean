import LedSequencer.Proofs.Bus.Session
import LedSequencer.Proofs.Bus.Wave

/-! Which outputs of a transaction make start and stop conditions. Main statement: the calls of a
transaction are those of its start condition, its bytes and its stop condition. -/
namespace LedSequencer

def Event.fault? {L F N : Type} : Event (.lines L F) N → Option F
  | .called (.request _) (.error fault) | .called (.release _) (.error fault)
  | .called (.drive _ _) (.error fault) | .called (.sample _) (.error fault) => some fault
  | _ => none

section Outputs

variable {L F N : Type} [DecidableEq L] (clock : L)

/-- If an event is an output: what it does to the bus, the edge that it makes, if it makes one. -/
def Event.outputs (levels : Levels) (e : Event (.lines L F) N) : List (Option Edge) :=
  match e with
  | .called (.drive _ _) _ => [e.edge? clock levels]
  | _ => []

def outputEdges : Levels → List (Event (.lines L F) N) → List (Option Edge)
  | _, [] => []
  | levels, e :: events => e.outputs clock levels ++ outputEdges (levels.next clock e) events

/-- Only outputs make edges. -/
theorem mem_waveform_of_outputEdges {levels : Levels} {events : List (Event (.lines L F) N)}
    {k : Nat} {edge : Edge} (h : (outputEdges clock levels events)[k]? = some (some edge)) :
    edge ∈ waveform clock levels events := by
  have hmem : some edge ∈ outputEdges clock levels events := List.mem_of_getElem? h
  clear h
  induction events generalizing levels with
  | nil => exact absurd hmem List.not_mem_nil
  | cons e events ih =>
    rw [outputEdges, List.mem_append] at hmem
    rw [waveform, List.mem_append]
    refine hmem.imp (fun hedge => ?_) ih
    unfold Event.outputs at hedge
    split at hedge
    · exact Option.mem_toList.2 (List.mem_singleton.1 hedge).symm
    · exact absurd hedge List.not_mem_nil

end Outputs

namespace Transaction

variable {L F σ : Type} (t : Transaction σ) (bus : Bus L) (w : World (.lines L F) σ)

def starting : Run (.lines L F) (Notice F) σ (Except (Failure F) Unit) :=
  bus.start.run.run w t.world

def sending? : Option (Run (.lines L F) (Notice F) σ (Except (Failure F) Unit)) :=
  match (t.starting bus w).outcome with
  | .returned (.ok _) =>
    some ((bus.sendFrame t.address t.register t.value).run.run w (t.starting bus w).world)
  | _ => none

def stopping? : Option (Run (.lines L F) (Notice F) σ (Except (Failure F) Unit)) :=
  (t.sending? bus w).bind fun sending =>
    match sending.outcome with
    | .returned _ => some (bus.stop.run.run w sending.world)
    | _ => none

def StopFailed : Prop :=
  ∃ stopping failure, t.stopping? bus w = some stopping ∧
    stopping.outcome = .returned (.error failure)

end Transaction

def eventsOf? {I : Interface} {N σ α : Type} (run : Option (Run I N σ α)) : List (Event I N) :=
  (run.map Run.events).getD []

namespace Bus

variable {L F σ : Type} (bus : Bus L) (w : World (.lines L F) σ)

theorem calls_closing (register : UInt8) (sent : Except (Failure F) Unit) (s : σ) :
    callsOf ((bus.closing register sent).run.run w s).events =
      callsOf ((bus.stop : Action L F Unit).run.run w s).events := by
  cases sent with
  | ok => rfl
  | error failure =>
    rw [closing_run_error, Routine.events_map]
    exact (Routine.run_reporting w (.stopFailed register) bus.stop s).2.2

/-- A transaction makes the calls of its parts. -/
theorem calls_parts (t : Transaction σ) :
    callsOf (t.events bus w) = callsOf ((t.starting bus w).events ++
      (eventsOf? (t.sending? bus w) ++ eventsOf? (t.stopping? bus w))) := by
  rw [Transaction.events, Transaction.run, transact_run, Routine.calls_note, Routine.events_bind,
    callsOf_append, callsOf_append, callsOf_append]
  refine congrArg (callsOf _ ++ ·) ?_
  simp only [Transaction.stopping?, Transaction.sending?, Transaction.starting]
  rcases (bus.start.run.run w t.world).outcome with (failure | ok) | _ | _
  · rfl
  · simp only [Routine.events_bind, callsOf_append]
    refine congrArg (callsOf _ ++ ·) ?_
    simp only [Option.bind_some]
    rcases ((bus.sendFrame t.address t.register t.value).run.run w _).outcome with sent | _ | _
    · exact calls_closing bus w t.register sent _
    · rfl
    · rfl
  · rfl
  · rfl

theorem not_started (t : Transaction σ) {failure : Failure F}
    (h : (t.starting bus w).outcome = .returned (.error failure)) :
    t.sending? bus w = none ∧ t.stopping? bus w = none ∧
      callsOf (t.events bus w) = callsOf (t.starting bus w).events := by
  have hsending : t.sending? bus w = none := by rw [Transaction.sending?, h]
  have hstopping : t.stopping? bus w = none := by
    rw [Transaction.stopping?, hsending, Option.bind_none]
  refine ⟨hsending, hstopping, (calls_parts bus w t).trans ?_⟩
  rw [hsending, hstopping]
  exact congrArg callsOf (List.append_nil _)

theorem stopping_eq (t : Transaction σ)
    {part : Run (.lines L F) (Notice F) σ (Except (Failure F) Unit)}
    (h : t.stopping? bus w = some part) : ∃ s, part = bus.stop.run.run w s := by
  obtain ⟨sending, _, hpart⟩ := Option.bind_eq_some_iff.1 h
  split at hpart
  · exact ⟨sending.world, (Option.some.inj hpart).symm⟩
  · exact absurd hpart nofun

section Outputs

variable [DecidableEq L]

/-- The parts of a transaction that was started make its edges, one after the other. -/
theorem wave_parts (t : Transaction σ) (levels : Levels)
    {sending stopping : Run (.lines L F) (Notice F) σ (Except (Failure F) Unit)}
    (hsending : t.sending? bus w = some sending) (hstopping : t.stopping? bus w = some stopping) :
    let started := levels.afterAll bus.clock (t.starting bus w).events
    let sent := started.afterAll bus.clock sending.events
    waveform bus.clock levels (t.events bus w) =
        waveform bus.clock levels (t.starting bus w).events ++
          (waveform bus.clock started sending.events ++
            waveform bus.clock sent stopping.events) ∧
      levels.afterAll bus.clock (t.events bus w) = sent.afterAll bus.clock stopping.events := by
  intro started sent
  have hcalls := calls_parts bus w t
  rw [hsending, hstopping] at hcalls
  constructor
  · rw [waveform_congr hcalls, waveform_append, waveform_append]
    rfl
  · rw [afterAll_congr hcalls, Levels.afterAll_append, Levels.afterAll_append]
    rfl

def startEdges (levels : Levels) : List (Option Edge) :=
  [levels.edge? false true, Levels.edge? ⟨levels.clock, true⟩ true true, some .start]

def stopEdges : List (Option Edge) := [none, none, some (.clockRise false), some .stop]

def Within (outputs expected : List (Option Edge)) : Prop :=
  ∀ (k : Nat) (edge : Edge), outputs[k]? = some (some edge) → expected[k]? = some (some edge)

@[simp] theorem within_nil (expected : List (Option Edge)) : Within [] expected := nofun

@[simp] theorem within_none (outputs expected : List (Option Edge)) (edge : Option Edge) :
    Within (none :: outputs) (edge :: expected) ↔ Within outputs expected := by
  refine ⟨fun h k => h (k + 1), fun h k => ?_⟩
  cases k with
  | zero => exact nofun
  | succ k => exact h k

@[simp] theorem within_cons (outputs expected : List (Option Edge)) (edge : Option Edge) :
    Within (edge :: outputs) (edge :: expected) ↔ Within outputs expected := by
  refine ⟨fun h k => h (k + 1), fun h k => ?_⟩
  cases k with
  | zero => exact fun _ => id
  | succ k => exact h k

theorem start_outputs (distinct : bus.clock ≠ bus.data) :
    (bus.start : Action L F Unit).run.Ensures (fun events e => events ++ [e])
      (fun _ events => ∀ levels, Within (outputEdges bus.clock levels events) (startEdges levels))
      [] := by
  have hd : ¬ bus.data = bus.clock := fun h => distinct h.symm
  simp only [start, Routine.ensures_run_bind, ensures_settle, ensures_setData, ensures_setClock]
  simp [outputEdges, Event.outputs, startEdges, Event.edge?, Event.driven?, Levels.next,
    Levels.edge?, Levels.drive, hd]

theorem stop_outputs (distinct : bus.clock ≠ bus.data) :
    (bus.stop : Action L F Unit).run.Ensures (fun events e => events ++ [e])
      (fun _ events => ∀ levels, Within (outputEdges bus.clock levels events) stopEdges) [] := by
  have hd : ¬ bus.data = bus.clock := fun h => distinct h.symm
  simp only [stop, Routine.ensures_run_bind, ensures_settle, ensures_setData, ensures_setClock]
  simp [outputEdges, Event.outputs, stopEdges, Event.edge?, Event.driven?, Levels.next,
    Levels.edge?, Levels.drive, hd]

theorem startEdges_cases {levels : Levels} {k : Nat} {edge : Edge}
    (h : (startEdges levels)[k]? = some (some edge)) :
    (∃ bit, edge = .clockRise bit) ∨ (k = 2 ∧ edge = .start) ∨
      (k = 0 ∧ edge = .stop ∧ levels = ⟨true, false⟩) := by
  obtain ⟨clock, data⟩ := levels
  match k with
  | 0 => cases clock <;> cases data <;> simp_all [startEdges, Levels.edge?]
  | 1 => cases clock <;> simp_all [startEdges, Levels.edge?]
  | 2 => simp_all [startEdges]
  | k + 3 => simp [startEdges] at h

theorem stopEdges_cases {k : Nat} {edge : Edge} (h : stopEdges[k]? = some (some edge)) :
    (∃ bit, edge = .clockRise bit) ∨ (k = 3 ∧ edge = .stop) := by
  match k with
  | 0 | 1 => simp [stopEdges] at h
  | 2 => simp_all [stopEdges]
  | 3 => simp_all [stopEdges]
  | k + 4 => simp [stopEdges] at h

end Outputs

/-- A stop condition fails only at a fault. -/
theorem stop_faultless :
    (bus.stop : Action L F Unit).run.Ensures (fun events e => events ++ [e])
      (fun result events => (∀ e ∈ events, e.fault? = none) → result = .ok ()) [] := by
  have hfault (line : L) (high : Bool) (fault : F) :
      (Event.called (.drive line high) (.error fault) :
        Event (.lines L F) (Notice F)).fault? = some fault := rfl
  simp only [stop, Routine.ensures_run_bind, ensures_settle, ensures_setData, ensures_setClock]
  simp [hfault]

end Bus

end LedSequencer
