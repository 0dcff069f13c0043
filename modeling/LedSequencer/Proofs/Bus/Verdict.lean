import LedSequencer.Proofs.Bus.Arrival
import LedSequencer.Proofs.Bus.Parts
import LedSequencer.Proofs.Bus.Session
import LedSequencer.Proofs.Bus.Transfers

/-! Which of the failures on its lines a call reports. Main statement: a write of registers
succeeds if no line call fails and every byte is acknowledged, and otherwise it fails with the
first failure that there is, whatever else fails behind it. A missing acknowledge is one when its
clock pulse is over. -/
namespace LedSequencer

variable {L F σ α β : Type}

/-- What an observer of the lines knows of a call that writes registers: what the bytes that are
still to be acknowledged fail with, whether the next sample is the second one of its byte, the
failure of a byte whose clock pulse is not over yet, and the failures so far, in order of time. -/
structure Watch (F : Type) where
  due : List (Failure F)
  turned : Bool
  missed : Option (Failure F)
  failures : List (Failure F)

namespace Watch

def clear (due : List (Failure F)) : Watch F := ⟨due, false, none, []⟩

def fail (watch : Watch F) (fresh : List (Failure F)) : Watch F :=
  { watch with failures := watch.failures ++ fresh }

def drive (watch : Watch F) (fresh : List (Failure F)) : Watch F :=
  -- An output ends the clock pulse of a byte that was not acknowledged.
  { watch.fail (fresh ++ watch.missed.toList) with missed := none }

/-- The second sample of a byte. A level that is no bit fails at once. A byte that is not
acknowledged fails at once too or, if `late`, when its clock pulse is over. -/
def acknowledge (late : Bool) (watch : Watch F) (level : UInt8) : Watch F :=
  let nack := watch.due.head?
  let told : Watch F := { watch with due := watch.due.tail, turned := false }
  if level = 0 then told
  else if 1 < level then told.fail [.invalidLevel level]
  else if late then { told with missed := nack }
  else told.fail nack.toList

def next (late : Bool) (watch : Watch F) : Event (.lines L F) (Notice F) → Watch F
  | .called (.drive _ _) (.error fault) => watch.drive [.io fault]
  | .called (.drive _ _) (.ok _) => watch.drive []
  | .called (.sample _) (.error fault) => watch.fail [.io fault]
  -- Of the two samples of a byte the second one counts.
  | .called (.sample _) (.ok level) =>
    if watch.turned then watch.acknowledge late level else { watch with turned := true }
  | _ => watch

def sampled (nack : Failure F) (due : List (Failure F)) (level : UInt8) : Watch F :=
  ⟨due, false, if level = 0 then none else some nack, []⟩

def pulsed (nack : Failure F) (due : List (Failure F)) : Acknowledge → Watch F
  | .ack => clear due
  | .nack => (clear due).fail [nack]

theorem drive_sampled (nack : Failure F) (due : List (Failure F)) (level : UInt8) :
    (sampled nack due level).drive [] = pulsed nack due (.ofLevel level) := by
  rw [sampled, Acknowledge.ofLevel]
  split_ifs <;> rfl

/-- A level that is a bit tells whether its byte is acknowledged. -/
theorem acknowledge_of_le (nack : Failure F) (due : List (Failure F)) {level : UInt8}
    (h : level ≤ 1) :
    acknowledge true ⟨nack :: due, true, none, []⟩ level = sampled nack due level := by
  rw [acknowledge, sampled]
  by_cases hlow : level = 0
  · rw [if_pos hlow, if_pos hlow]
    rfl
  · rw [if_neg hlow, if_neg hlow, if_neg (UInt8.not_lt.2 h)]
    rfl

section First

variable {late : Bool} {watch : Watch F} {failure : Failure F}

theorem head?_fail (h : watch.failures.head? = some failure) (fresh : List (Failure F)) :
    (watch.fail fresh).failures.head? = some failure := by
  rw [fail, List.head?_append, h]
  rfl

theorem head?_acknowledge (h : watch.failures.head? = some failure) (level : UInt8) :
    (watch.acknowledge late level).failures.head? = some failure := by
  unfold acknowledge
  split_ifs
  · exact h
  · exact head?_fail h _
  · exact h
  · exact head?_fail h _

/-- The first failure stays the first one. -/
theorem head?_next (h : watch.failures.head? = some failure)
    (e : Event (.lines L F) (Notice F)) : (watch.next late e).failures.head? = some failure := by
  cases e with
  | noted n => exact h
  | called c reply =>
    cases c with
    | request line | release line | settle us | wait ms => exact h
    | drive line high =>
      rcases reply with fault | _
      · exact head?_fail h _
      · exact head?_fail h _
    | sample line =>
      rcases reply with fault | level
      · exact head?_fail h _
      · rw [next]
        split_ifs
        · exact head?_acknowledge h level
        · exact h

end First

end Watch

def frameNacks (address : UInt8) (w : UInt8 × UInt8) : List (Failure F) :=
  [.addressNack address, .registerNack w.1, .valueNack w.1 w.2]

def BusCall.nacks : BusCall → List (Failure F)
  | .write address register value => frameNacks address (register, value)
  | .writeBlock address start data =>
    (RegisterCall.writeBlock start data).writes.flatMap (frameNacks address)

def failuresOf (late : Bool) (c : BusCall) (events : List (Event (.lines L F) (Notice F))) :
    List (Failure F) :=
  (events.foldl (Watch.next late) (.clear c.nacks)).failures

def verdict : List (Failure F) → Except (Failure F) Unit
  | [] => .ok ()
  | failure :: _ => .error failure

/-- Lines with some outputs that fault, which are counted from 0 on as the inputs are. The samples
show the levels `level`, one after the other. -/
def faultyLines (broken : List Nat) (level : Nat → UInt8) (c : LineCall L) (s : Nat × Nat) :
    c.Reply Unit × (Nat × Nat) :=
  let (outputs, inputs) := s
  match c with
  | .request _ | .release _ => (.ok (), s)
  | .drive _ _ => (if outputs ∈ broken then .error () else .ok (), outputs + 1, inputs)
  | .sample _ => (.ok (level inputs), outputs, inputs + 1)
  | .settle _ | .wait _ => ((), s)

namespace Bus
open Routine

/-- The result of an action is as the observer saw it: a value and what was expected next, or the
first failure. -/
def Told (after : α → Watch F) (result : Except (Failure F) α) (watch : Watch F) : Prop :=
  match result with
  | .ok a => watch = after a
  | .error failure => watch.failures.head? = some failure

def Tells (before : Watch F) (act : Action L F α) (after : α → Watch F) : Prop :=
  act.run.Ensures (Watch.next true) (Told after) before

section Rules

variable {before : Watch F} {mid : α → Watch F} {after : β → Watch F} {act : Action L F α}

theorem Tells.bind {f : α → Action L F β} (h : Tells before act mid)
    (hf : ∀ a, Tells (mid a) (f a) after) : Tells before (act >>= f) after := by
  rw [Tells, ensures_run_bind]
  refine h.mono ?_
  rintro (failure | a) watch hwatch
  · exact hwatch
  · obtain rfl : watch = mid a := hwatch
    exact hf a

theorem Tells.reporting (h : Tells before act mid) (notice : Failure F → Notice F) :
    Tells before (reporting notice act) mid := by
  rw [Tells, ensures_reporting]
  refine h.mono ?_
  rintro (failure | a) watch hwatch
  · exact hwatch
  · exact hwatch

theorem Tells.tryCatch {f : Failure F → Action L F α} (h : Tells before act mid)
    (hf : ∀ failure watch, watch.failures.head? = some failure → Tells watch (f failure) mid) :
    Tells before (tryCatch act f) mid := by
  rw [Tells, ensures_run_tryCatch]
  refine h.mono ?_
  rintro (failure | a) watch hwatch
  · exact hf failure watch hwatch
  · exact hwatch

theorem tells_note (n : Notice F) :
    Tells before (Journal.note n : Action L F Unit) fun _ => before := rfl

theorem tells_throw {failure : Failure F} (h : before.failures.head? = some failure) :
    Tells before (throw failure : Action L F α) mid := h

end Rules

section Steps

variable (bus : Bus L) {before : Watch F}

theorem settle_tells : Tells before bus.settle fun _ => before := by
  rw [Tells, ensures_settle]
  exact rfl

theorem drive_error_tells (h : before.failures = []) (fault : F) :
    (before.drive [.io fault]).failures.head? = some (.io fault) := by
  rw [Watch.drive, Watch.fail, h]
  rfl

theorem setClock_tells (h : before.failures = []) (high : Bool) :
    Tells before (bus.setClock high) fun _ => before.drive [] := by
  rw [Tells, ensures_setClock]
  exact ⟨drive_error_tells h, rfl⟩

theorem setData_tells (h : before.failures = []) (high : Bool) :
    Tells before (bus.setData high) fun _ => before.drive [] := by
  rw [Tells, ensures_setData]
  exact ⟨drive_error_tells h, rfl⟩

theorem sampleData_tells (h : before.failures = []) :
    Tells before bus.sampleData fun level =>
      if before.turned then before.acknowledge true level else { before with turned := true } := by
  rw [Tells, ensures_sampleData]
  refine ⟨fun fault => ?_, fun level => rfl⟩
  show (before.fail [.io fault]).failures.head? = some (.io fault)
  rw [Watch.fail, h]
  rfl

end Steps

section Bytes

variable (bus : Bus L) (due : List (Failure F))

theorem carries_tells : bus.Carries fun act => Tells (.clear due) act fun _ => .clear due where
  nothing := rfl
  andThen first second := first.bind fun _ => second
  settle := bus.settle_tells
  setClock := bus.setClock_tells rfl
  setData := bus.setData_tells rfl

/-- The first sample of a byte is done. -/
theorem letGo_tells : Tells (.clear due) bus.letGo fun _ => ⟨due, true, none, []⟩ := by
  have hsettle : Tells (.clear due) bus.settle fun _ => .clear due := bus.settle_tells
  exact (bus.setClock_tells rfl false).bind fun _ => hsettle.bind fun _ =>
    (bus.setData_tells rfl true).bind fun _ => hsettle.bind fun _ =>
      (bus.sampleData_tells rfl).bind fun _ => rfl

theorem checkLevel_tells (nack : Failure F) (level : UInt8) :
    Tells (Watch.acknowledge true ⟨nack :: due, true, none, []⟩ level)
      (checkLevel level : Action L F UInt8) (Watch.sampled nack due) := by
  rw [Tells, ensures_checkLevel]
  by_cases hbit : level ≤ 1
  · rw [if_pos hbit, Watch.acknowledge_of_le nack due hbit]
    exact rfl
  · have hhigh : 1 < level := UInt8.not_le.1 hbit
    have hlow : level ≠ 0 := by
      rintro rfl
      exact absurd hhigh (by decide)
    rw [if_neg hbit, Watch.acknowledge, if_neg hlow, if_pos hhigh]
    exact rfl

theorem receiveBit_tells (nack : Failure F) :
    Tells ⟨nack :: due, true, none, []⟩ bus.receiveBit fun level =>
      .pulsed nack due (.ofLevel level) := by
  refine (bus.setClock_tells rfl true).bind fun _ => bus.settle_tells.bind fun _ =>
    (bus.sampleData_tells rfl).bind fun level => (checkLevel_tells due nack level).bind fun level =>
      bus.settle_tells.bind fun _ => (bus.setClock_tells rfl false).bind fun _ =>
        bus.settle_tells.bind fun _ => bus.settle_tells.bind fun _ => ?_
  exact Watch.drive_sampled nack due level

theorem sendPart_tells (part : BytePart) (byte : UInt8) (nack : Failure F) :
    Tells (.clear (nack :: due)) (bus.sendPart part byte nack) fun _ => .clear due := by
  have hbyte : Tells (.clear (nack :: due)) (bus.sendByte byte) (.pulsed nack due) :=
    ((bus.carries_tells _).sendBits (bitsOf byte)).bind fun _ => bus.settle_tells.bind fun _ =>
      (bus.letGo_tells _).bind fun _ => (bus.receiveBit_tells due nack).bind fun _ => rfl
  refine (hbyte.bind ?_).reporting _
  rintro (_ | _)
  · exact rfl
  · exact tells_throw rfl

/-- A transaction: its start condition, its bytes, and a stop condition in any case. -/
theorem transact_tells (address register value : UInt8) :
    Tells (.clear (frameNacks address (register, value) ++ due))
      (bus.transact address register value) fun _ => .clear due := by
  have hframe : Tells (.clear (frameNacks address (register, value) ++ due))
      (bus.sendFrame address register value) fun _ => .clear due :=
    (bus.sendPart_tells _ _ _ _).bind fun _ => (bus.sendPart_tells _ _ _ _).bind fun _ =>
      bus.sendPart_tells _ _ _ _
  have hbytes : Tells (.clear (frameNacks address (register, value) ++ due)) (tryCatch
      (bus.sendFrame address register value) fun failure => do
        tryCatch (reporting (.stopFailed register) bus.stop) fun _ => pure ()
        throw failure) fun _ => .clear due := by
    refine hframe.tryCatch fun failure watch hwatch => ?_
    have hstop := (bus.closed_makes (F := F)).stop.reporting (.stopFailed register)
    rw [Tells, ensures_run_bind, ensures_run_tryCatch]
    -- Whatever the stop condition adds comes behind the failure.
    have hfirst : (reporting (.stopFailed register) bus.stop : Action L F Unit).run.Ensures
        (Watch.next true) (fun _ watch => watch.failures.head? = some failure) watch :=
      hstop.keeps (fun _ e h => Watch.head?_next h e) hwatch
    refine hfirst.mono ?_
    rintro (second | _) watch hkept
    · exact hkept
    · exact hkept
  exact (tells_note (.writing register value)).bind fun _ =>
    (bus.carries_tells _).start.bind fun _ => hbytes.bind fun _ => (bus.carries_tells due).stop

theorem writeFrom_tells (address register : UInt8) (offset : Nat) (data : List UInt8) :
    Tells (.clear ((RegisterCall.writeBlock register data).writes.flatMap (frameNacks address)))
      (bus.writeFrom address register offset data) fun _ => (.clear [] : Watch F) := by
  induction data generalizing register offset with
  | nil => exact rfl
  | cons value values ih =>
    rw [writes_cons, List.flatMap_cons]
    exact ((bus.transact_tells _ address register value).reporting _).bind fun _ => ih _ _

theorem perform_tells (c : BusCall)
    (fits : ∀ address start data, c = .writeBlock address start data → data.length ≤ 32) :
    (bus.perform c : Routine (.lines L F) (Notice F) _).Ensures (Watch.next true)
      (Told fun _ => .clear []) (.clear c.nacks) := by
  cases c with
  | write address register value =>
    have htransact := bus.transact_tells (F := F) [] address register value
    rwa [List.append_nil] at htransact
  | writeBlock address start data =>
    have hfits : ¬ data.length > Page.size := Nat.not_lt.2 (fits address start data rfl)
    rw [perform, writeBlock, if_neg hfits]
    exact bus.writeFrom_tells address start 0 data

end Bytes

/-- A call on a bus with any faults and levels, whose data fit into a page: it returns, and it ends
as the failures in its events say, which are in order of time but for a byte that is not
acknowledged: that counts when its clock pulse is over. If nothing failed the call succeeds,
otherwise it fails with the first failure. What the stop condition adds behind a failure is never
the first, and without one it is. -/
theorem perform_verdict (bus : Bus L) (c : BusCall)
    (fits : ∀ address start data, c = .writeBlock address start data → data.length ≤ 32)
    (answer : (c : LineCall L) → σ → c.Reply F × σ) (s : σ) :
    let run := (bus.perform c).run (.answering answer) s
    run.outcome = .returned (verdict (failuresOf true c run.events)) := by
  intro run
  have htells := bus.perform_tells (F := F) c fits
  obtain ⟨result, hreturned⟩ := htells.returns answer s
  have htold := htells.returned _ hreturned
  refine hreturned.trans (congrArg Outcome.returned ?_)
  cases result with
  | ok =>
    have hnone : failuresOf true c run.events = [] := congrArg Watch.failures htold
    rw [hnone]
    rfl
  | error failure =>
    obtain ⟨more, hfirst⟩ := List.head?_eq_some_iff.1 htold
    have hfailures : failuresOf true c run.events = failure :: more := hfirst
    rw [hfailures]
    rfl

/-- The register byte of the second transaction is not acknowledged, and the stop condition behind
it fails. -/
theorem perform_verdict_stopped :
    let bus : Bus UInt8 := ⟨defaultClock, defaultData, defaultHalfPeriod⟩
    let c : BusCall := .writeBlock 0x64 0x3F [1, 2]
    let run := (bus.perform c).run (.answering (faultyLines [151] fun n => if n = 9 then 1 else 0))
      (0, 0)
    (∀ address start data, c = .writeBlock address start data → data.length ≤ 32) ∧
      failuresOf true c run.events = [.registerNack 0x40, .io ()] ∧
      run.outcome = .returned (.error (.registerNack 0x40)) := by
  intro bus c run
  have fits : ∀ address start data, c = .writeBlock address start data → data.length ≤ 32 := by
    intro address start data h
    obtain ⟨_, _, rfl⟩ := BusCall.writeBlock.inj h
    decide
  have hfailures : failuresOf true c run.events = [.registerNack 0x40, .io ()] := by
    decide +kernel
  have hverdict : run.outcome = .returned (verdict (failuresOf true c run.events)) :=
    perform_verdict bus c fits (faultyLines [151] fun n => if n = 9 then 1 else 0) (0, 0)
  rw [hfailures] at hverdict
  exact ⟨fits, hfailures, hverdict⟩

/-- The address is not acknowledged, and the output that ends its clock pulse fails: in the order of
time that is the second failure, and it is what the call fails with. -/
theorem verdict_overtaken :
    let bus : Bus UInt8 := ⟨defaultClock, defaultData, defaultHalfPeriod⟩
    let c : BusCall := .write 0x64 0x3F 0xFF
    let run := (bus.perform c).run (.answering (faultyLines [30] fun _ => 1)) (0, 0)
    failuresOf false c run.events = [.addressNack 0x64, .io ()] ∧
      run.outcome = .returned (.error (.io ())) ∧
      run.outcome ≠ .returned (verdict (failuresOf false c run.events)) := by
  intro bus c run
  have hfailures : failuresOf false c run.events = [.addressNack 0x64, .io ()] := by
    decide +kernel
  have hended : run.outcome = .returned (.error (.io ())) := by decide +kernel
  refine ⟨hfailures, hended, ?_⟩
  rw [hfailures, hended]
  exact nofun

end Bus

end LedSequencer
