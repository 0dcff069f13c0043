import LedSequencer.Bus.Transaction
import LedSequencer.Proofs.Routine.Traces

/-! A transaction in parts: the start condition, the bytes, and what closes it. -/
namespace LedSequencer.Bus

variable {L F : Type} (bus : Bus L)

/-- A property that carries over from the outputs and the pauses on a bus to sequences of them. -/
structure Carries (P : Action L F Unit → Prop) : Prop where
  nothing : P (pure ())
  andThen {first second : Action L F Unit} : P first → P second → P (first >>= fun _ => second)
  settle : P bus.settle
  setClock (high : Bool) : P (bus.setClock high)
  setData (high : Bool) : P (bus.setData high)

namespace Carries

variable {bus} {P : Action L F Unit → Prop} (h : bus.Carries P)
include h

theorem start : P bus.start := by
  refine h.andThen h.settle (h.andThen (h.setData true) (h.andThen h.settle ?_))
  exact h.andThen (h.setClock true) (h.andThen h.settle (h.andThen (h.setData false) h.settle))

theorem stop : P bus.stop := by
  refine h.andThen (h.setClock false) (h.andThen h.settle (h.andThen (h.setData false) ?_))
  refine h.andThen h.settle (h.andThen (h.setClock true) (h.andThen h.settle ?_))
  exact h.andThen (h.setData true) h.settle

theorem sendBits (bits : List Bool) : P (bits.forM bus.sendBit) := by
  induction bits with
  | nil => exact h.nothing
  | cons bit bits ih =>
    have hbit : P (bus.sendBit bit) := by
      refine h.andThen (h.setClock false) (h.andThen h.settle (h.andThen (h.setData bit) ?_))
      exact h.andThen h.settle (h.andThen (h.setClock true) (h.andThen h.settle h.settle))
    exact h.andThen hbit ih

end Carries

/-- A property that carries over to sequences, to reports and where a failure is handled, and that
outputs have together with the pauses behind them. -/
structure Stepwise (P : ∀ {α : Type}, Action L F α → Prop) : Prop where
  pure {α : Type} (a : α) : P (pure a)
  throw {α : Type} (failure : Failure F) : P (throw failure : Action L F α)
  bind {α β : Type} {act : Action L F α} {f : α → Action L F β} :
    P act → (∀ a, P (f a)) → P (act >>= f)
  tryCatch {α : Type} {act : Action L F α} {f : Failure F → Action L F α} :
    P act → (∀ failure, P (f failure)) → P (tryCatch act f)
  reporting {α : Type} {act : Action L F α} (notice : Failure F → Notice F) :
    P act → P (reporting notice act)
  note (n : Notice F) : P (Journal.note n)
  settle : P bus.settle
  setClock (high : Bool) : P (do bus.setClock high; bus.settle)
  setData (high : Bool) : P (do bus.setData high; bus.settle)

namespace Stepwise

variable {bus} {α : Type} {P : ∀ {α : Type}, Action L F α → Prop} (h : bus.Stepwise P)
include h

theorem setClock_then (high : Bool) {rest : Action L F α} (hrest : P rest) :
    P (do bus.setClock high; bus.settle; rest) := by
  rw [← bind_assoc]
  exact h.bind (h.setClock high) fun _ => hrest

theorem setData_then (high : Bool) {rest : Action L F α} (hrest : P rest) :
    P (do bus.setData high; bus.settle; rest) := by
  rw [← bind_assoc]
  exact h.bind (h.setData high) fun _ => hrest

theorem start : P bus.start :=
  h.bind h.settle fun _ => h.setData_then true (h.setClock_then true (h.setData false))

theorem stop : P bus.stop :=
  h.setClock_then false (h.setData_then false (h.setClock_then true (h.setData true)))

theorem sendBit (bit : Bool) : P (bus.sendBit bit) :=
  h.setClock_then false (h.setData_then bit (h.setClock_then true h.settle))

end Stepwise

/-- The same where the acknowledge pulse, with the data line let go, has the property as well. It
carries over to everything that is made of steps on a bus. -/
structure Closed (P : ∀ {α : Type}, Action L F α → Prop) : Prop extends bus.Stepwise P where
  acknowledge : P (do bus.letGo; return Acknowledge.ofLevel (← bus.receiveBit))

namespace Closed

variable {bus} {P : ∀ {α : Type}, Action L F α → Prop} (h : bus.Closed P)
include h

theorem sendByte (byte : UInt8) : P (bus.sendByte byte) := by
  have hbits (bits : List Bool) : P (bits.forM bus.sendBit) := by
    induction bits with
    | nil => exact h.pure ()
    | cons bit bits ih => exact h.bind (h.sendBit bit) fun _ => ih
  exact h.bind (hbits (bitsOf byte)) fun _ => h.bind h.settle fun _ => h.acknowledge

theorem sendPart (part : BytePart) (byte : UInt8) (missing : Failure F) :
    P (bus.sendPart part byte missing) := by
  refine h.reporting _ (h.bind (h.sendByte byte) ?_)
  rintro (_ | _)
  · exact h.pure ()
  · exact h.throw missing

theorem transact (address register value : UInt8) : P (bus.transact address register value) := by
  have hframe : P (bus.sendFrame address register value) :=
    h.bind (h.sendPart _ _ _) fun _ => h.bind (h.sendPart _ _ _) fun _ => h.sendPart _ _ _
  -- The stop condition behind a failed byte is tried as well, and the failure stays.
  have hclose (failure : Failure F) : P (do
      MonadExcept.tryCatch (LedSequencer.reporting (.stopFailed register) bus.stop) fun _ =>
        Pure.pure ()
      MonadExcept.throw failure : Action L F Unit) :=
    h.bind (h.tryCatch (h.reporting _ h.stop) fun _ => h.pure ()) fun _ => h.throw failure
  exact h.bind (h.note _) fun _ => h.bind h.start fun _ =>
    h.bind (h.tryCatch hframe hclose) fun _ => h.stop

theorem writeFrom (address register : UInt8) (offset : Nat) (data : List UInt8) :
    P (bus.writeFrom address register offset data) := by
  induction data generalizing register offset with
  | nil => exact h.pure ()
  | cons value values ih =>
    exact h.bind (h.reporting _ (h.transact address register value)) fun _ => ih _ _

theorem writeBlock (address register : UInt8) (data : List UInt8) :
    P (bus.writeBlock address register data) := by
  unfold Bus.writeBlock
  split
  · exact h.throw _
  · exact h.writeFrom address register 0 data

end Closed

/-- A block that fits into a page is nothing but transactions. -/
theorem writeBlock_of_transact {P : Action L F Unit → Prop} (nothing : P (pure ()))
    (andThen : ∀ {first second : Action L F Unit}, P first → P second →
      P (first >>= fun _ => second)) {address : UInt8}
    (transact : ∀ register value offset,
      P (reporting (fun _ => .bulkFailed offset) (bus.transact address register value)))
    (register : UInt8) {data : List UInt8} (hfits : data.length ≤ Page.size) :
    P (bus.writeBlock address register data) := by
  have hfrom (data : List UInt8) (register : UInt8) (offset : Nat) :
      P (bus.writeFrom address register offset data) := by
    induction data generalizing register offset with
    | nil => exact nothing
    | cons value values ih => exact andThen (transact register value offset) (ih _ _)
  rw [writeBlock, if_neg (Nat.not_lt.2 hfits)]
  exact hfrom data register 0

/-- What is added to the events carries over, if it joins and allows for every notice. -/
theorem stepwise_adds {E : List (Event (.lines L F) (Notice F)) → Prop} (hE : Joins E)
    (hnote : ∀ n, E [.noted n]) (hsettle : (bus.settle : Action L F Unit).run.Adds E)
    (hclock : ∀ high, (do bus.setClock high; bus.settle : Action L F Unit).run.Adds E)
    (hdata : ∀ high, (do bus.setData high; bus.settle : Action L F Unit).run.Adds E) :
    bus.Stepwise (F := F) fun act => act.run.Adds E where
  pure _ := Routine.adds_done hE _
  throw _ := Routine.adds_done hE _
  bind h hf := h.andThen hE hf
  tryCatch h hf := h.tryCatch hE hf
  reporting notice h := h.reporting hE hnote notice
  note n := (Routine.adds_note (hnote n)).bind hE fun _ => Routine.adds_done hE _
  settle := hsettle
  setClock := hclock
  setData := hdata

def closing (register : UInt8) : Except (Failure F) Unit → Action L F Unit
  | .ok _ => bus.stop
  | .error failure => do
    tryCatch (reporting (.stopFailed register) bus.stop) fun _ => pure ()
    throw failure

/-- After a failure the stop condition has no say in how the transaction ends. -/
theorem closing_run_error (register : UInt8) (failure : Failure F) :
    (bus.closing register (.error failure)).run =
      (fun _ => .error failure) <$> (reporting (.stopFailed register) bus.stop).run := by
  rw [closing, ExceptT.run_bind, ExceptT.run_tryCatch, bind_assoc, ← bind_pure_comp]
  apply bind_congr
  intro closed
  cases closed <;> rfl

/-- A transaction in its three parts. -/
theorem transact_run (address register value : UInt8) :
    (bus.transact address register value : Action L F Unit).run =
      .note (.writing register value) (bus.start.run >>= fun
        | .error failure => .done (.error failure)
        | .ok _ => (bus.sendFrame address register value).run >>= fun result =>
          (bus.closing register result).run) := by
  rw [transact, ExceptT.run_bind]
  refine congrArg (Routine.note _) ?_
  rw [ExceptT.run_bind]
  apply bind_congr
  intro started
  cases started with
  | error failure => rfl
  | ok =>
    simp only [ExceptT.run_bind, ExceptT.run_tryCatch, bind_assoc]
    -- A failed transfer goes through the handler, a complete one past it: both come to `closing`.
    apply bind_congr
    intro sent
    cases sent with
    | ok => rfl
    | error failure =>
      rw [closing_run_error, ← bind_pure_comp]
      simp only [bind_assoc]
      apply bind_congr
      intro closed
      cases closed <;> rfl

end LedSequencer.Bus
