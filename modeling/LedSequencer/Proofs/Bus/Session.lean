import LedSequencer.Bus.Transaction
import LedSequencer.Proofs.Routine.Calls

/-! Sessions on a bus: calls that write registers, one after the other, and the transactions that
they make. Main statement: the line calls of a session are those of its transactions. -/
namespace LedSequencer

inductive BusCall where
  | write (address register value : UInt8)
  | writeBlock (address start : UInt8) (data : List UInt8)
  deriving DecidableEq

/-- A transaction: the bytes that it writes, and the state of the world when it begins. -/
structure Transaction (σ : Type) where
  address : UInt8
  register : UInt8
  value : UInt8
  world : σ
  deriving DecidableEq

namespace Transaction

variable {L F σ : Type}

def bytes (t : Transaction σ) : List UInt8 := [t.address, t.register, t.value]

def run (t : Transaction σ) (bus : Bus L) (w : World (.lines L F) σ) :
    Run (.lines L F) (Notice F) σ (Except (Failure F) Unit) :=
  (bus.transact t.address t.register t.value).run.run w t.world

def events (t : Transaction σ) (bus : Bus L) (w : World (.lines L F) σ) :
    List (Event (.lines L F) (Notice F)) :=
  (t.run bus w).events

end Transaction

namespace Bus

variable {L F σ : Type} (bus : Bus L)

def perform : BusCall → Routine (.lines L F) (Notice F) (Except (Failure F) Unit)
  | .write address register value => (bus.transact address register value).run
  | .writeBlock address start data => (bus.writeBlock address start data).run

/-- Makes some calls, each of them however the last one ended. -/
def performAll :
    List BusCall → Routine (.lines L F) (Notice F) (List (Except (Failure F) Unit))
  | [] => .done []
  | c :: calls => do
    let result ← bus.perform c
    let results ← performAll calls
    return result :: results

theorem performAll_eq (calls : List BusCall) :
    bus.performAll calls =
      (calls.mapM' bus.perform : Routine (.lines L F) (Notice F) _) := by
  induction calls with
  | nil => rfl
  | cons c calls ih =>
    rw [performAll, List.mapM'_cons, ih]

variable (w : World (.lines L F) σ)

def transactionsFrom (address register : UInt8) : List UInt8 → σ → List (Transaction σ)
  | [], _ => []
  | value :: values, s =>
    let run := (bus.transact address register value).run.run w s
    ⟨address, register, value, s⟩ :: match run.outcome with
      | .returned (.ok _) => transactionsFrom address (register + 1) values run.world
      | _ => []

def transactions : BusCall → σ → List (Transaction σ)
  | .write address register value, s => [⟨address, register, value, s⟩]
  | .writeBlock address start data, s =>
    if data.length > Page.size then [] else bus.transactionsFrom w address start data s

def session : List BusCall → σ → List (Transaction σ)
  | [], _ => []
  | c :: calls, s =>
    bus.transactions w c s ++ match ((bus.perform c).run w s).outcome with
      | .returned _ => session calls ((bus.perform c).run w s).world
      | _ => []

def eventsOf (ts : List (Transaction σ)) : List (Event (.lines L F) (Notice F)) :=
  ts.flatMap fun t => t.events bus w

theorem eventsOf_append (a b : List (Transaction σ)) :
    bus.eventsOf w (a ++ b) = bus.eventsOf w a ++ bus.eventsOf (F := F) w b :=
  List.flatMap_append

theorem eventsOf_cons (t : Transaction σ) (ts : List (Transaction σ)) :
    bus.eventsOf w (t :: ts) = t.events bus w ++ bus.eventsOf (F := F) w ts :=
  List.flatMap_cons

theorem calls_writeFrom (address register : UInt8) (offset : Nat) (data : List UInt8) (s : σ) :
    callsOf ((bus.writeFrom address register offset data).run.run w s).events =
      callsOf (bus.eventsOf w (bus.transactionsFrom w address register data s)) := by
  induction data generalizing register offset s with
  | nil => rfl
  | cons value values ih =>
    have hreport := Routine.run_reporting w (fun _ => Notice.bulkFailed offset)
      (bus.transact address register value) s
    rw [writeFrom, Routine.events_run_bind, callsOf_append, hreport.2.2, hreport.1, hreport.2.1,
      transactionsFrom, eventsOf_cons, callsOf_append]
    refine congrArg (callsOf _ ++ ·) ?_
    rcases ((bus.transact address register value).run.run w s).outcome with (e | a) | _ | _
    · rfl
    · exact ih (register + 1) (offset + 1) _
    · rfl
    · rfl

theorem calls_perform (c : BusCall) (s : σ) :
    callsOf ((bus.perform c).run w s).events =
      callsOf (bus.eventsOf w (bus.transactions w c s)) := by
  cases c with
  | write address register value =>
    rw [transactions, eventsOf, List.flatMap_singleton]
    rfl
  | writeBlock address start data =>
    rw [perform, writeBlock, transactions]
    split
    · rfl
    · exact calls_writeFrom bus w address start 0 data s

/-- A session makes the line calls of its transactions and no others. -/
theorem calls_performAll (calls : List BusCall) (s : σ) :
    callsOf ((bus.performAll calls).run w s).events =
      callsOf (bus.eventsOf w (bus.session w calls s)) := by
  induction calls generalizing s with
  | nil => rfl
  | cons c calls ih =>
    rw [performAll, Routine.events_bind, callsOf_append, calls_perform, session, eventsOf_append,
      callsOf_append]
    refine congrArg (callsOf _ ++ ·) ?_
    cases ((bus.perform c).run w s).outcome with
    | returned result =>
      simp only [bind_pure_comp, Routine.events_map]
      exact ih _
    | cutOff => rfl
    | aborted => rfl

end Bus

end LedSequencer
