import LedSequencer.Proofs.Bus.Ensures
import LedSequencer.Proofs.Bus.Parts
import LedSequencer.Proofs.Chip.Stages

/-! What transfers over a bus never do: wait, report an attempt, or fail for a refusal. Main
statement: bringing up the chip and playing a tape at the end of a bus are confined in this way. -/
namespace LedSequencer

variable {L F α β : Type}

/-- What belongs to the attempts of a command and to nothing within them: the waits, and the reports
of attempts that failed. -/
def Event.isRetry : Event (.lines L F) (Notice F) → Bool
  | .called (.wait _) _ | .noted (.attemptFailed _ _ _) => true
  | _ => false

/-- The failures of a check that is made before the lines are used. -/
def Failure.isRefusal : Failure F → Bool
  | programTooLarge _ | indexOutOfRange _ => true
  | _ => false

def Unretried (events : List (Event (.lines L F) (Notice F))) : Prop :=
  ∀ e ∈ events, e.isRetry = false

theorem unretried_append {a b : List (Event (.lines L F) (Notice F))} :
    Unretried (a ++ b) ↔ Unretried a ∧ Unretried b :=
  List.forall_mem_append

theorem unretried_singleton {e : Event (.lines L F) (Notice F)} :
    Unretried [e] ↔ e.isRetry = false :=
  List.forall_mem_singleton

theorem Unretried.snoc {events : List (Event (.lines L F) (Notice F))} (h : Unretried events)
    {e : Event (.lines L F) (Notice F)} (he : e.isRetry = false) : Unretried (events ++ [e]) :=
  unretried_append.2 ⟨h, unretried_singleton.2 he⟩

def Unrefused (result : Except (Failure F) α) : Prop :=
  ∀ failure, result = .error failure → failure.isRefusal = false

theorem unrefused_ok (a : α) : Unrefused (.ok a : Except (Failure F) α) := nofun

theorem unrefused_error {failure : Failure F} :
    Unrefused (.error failure : Except (Failure F) α) ↔ failure.isRefusal = false := by
  constructor
  · intro h
    exact h failure rfl
  · rintro h _ ⟨⟩
    exact h

namespace Bus
open Routine

def Confined (act : Action L F α) : Prop :=
  ∀ past, Unretried past → act.run.Ensures (fun events e => events ++ [e])
    (fun result events => Unretried events ∧ Unrefused result) past

section Rules

variable {act : Action L F α}

theorem confined_pure (a : α) : Confined (pure a : Action L F α) :=
  fun _ hpast => ⟨hpast, unrefused_ok a⟩

theorem confined_throw {failure : Failure F} (h : failure.isRefusal = false) :
    Confined (throw failure : Action L F α) :=
  fun _ hpast => ⟨hpast, unrefused_error.2 h⟩

theorem Confined.bind {f : α → Action L F β} (h : Confined act) (hf : ∀ a, Confined (f a)) :
    Confined (act >>= f) := by
  intro past hpast
  rw [ensures_run_bind]
  refine (h past hpast).mono ?_
  rintro (failure | a) events ⟨hevents, hresult⟩
  · exact ⟨hevents, unrefused_error.2 (unrefused_error.1 hresult)⟩
  · exact hf a events hevents

theorem Confined.tryCatch {f : Failure F → Action L F α} (h : Confined act)
    (hf : ∀ failure, failure.isRefusal = false → Confined (f failure)) :
    Confined (tryCatch act f) := by
  intro past hpast
  rw [ensures_run_tryCatch]
  refine (h past hpast).mono ?_
  rintro (failure | a) events ⟨hevents, hresult⟩
  · exact hf failure (unrefused_error.1 hresult) events hevents
  · exact ⟨hevents, hresult⟩

theorem Confined.reporting (h : Confined act) {notice : Failure F → Notice F}
    (hnotice : ∀ failure, (.noted (notice failure) : Event (.lines L F) _).isRetry = false) :
    Confined (LedSequencer.reporting notice act) := by
  intro past hpast
  rw [ensures_reporting]
  refine (h past hpast).mono ?_
  rintro (failure | a) events ⟨hevents, hresult⟩
  · exact ⟨hevents.snoc (hnotice failure), hresult⟩
  · exact ⟨hevents, hresult⟩

end Rules

variable (bus : Bus L)

theorem setClock_confined (high : Bool) : Confined (bus.setClock high : Action L F Unit) := by
  intro past hpast
  rw [ensures_setClock]
  exact ⟨fun fault => ⟨hpast.snoc rfl, unrefused_error.2 rfl⟩, hpast.snoc rfl, unrefused_ok ()⟩

theorem setData_confined (high : Bool) : Confined (bus.setData high : Action L F Unit) := by
  intro past hpast
  rw [ensures_setData]
  exact ⟨fun fault => ⟨hpast.snoc rfl, unrefused_error.2 rfl⟩, hpast.snoc rfl, unrefused_ok ()⟩

theorem sampleData_confined : Confined (bus.sampleData : Action L F UInt8) := by
  intro past hpast
  rw [ensures_sampleData]
  exact ⟨fun fault => ⟨hpast.snoc rfl, unrefused_error.2 rfl⟩,
    fun level => ⟨hpast.snoc rfl, unrefused_ok level⟩⟩

theorem settle_confined : Confined (bus.settle : Action L F Unit) := by
  intro past hpast
  rw [ensures_settle]
  exact ⟨hpast.snoc rfl, unrefused_ok ()⟩

theorem checkLevel_confined (level : UInt8) :
    Confined (checkLevel level : Action L F UInt8) := by
  unfold checkLevel
  split
  · exact confined_pure level
  · exact (confined_throw rfl).reporting fun _ => rfl

theorem carries_confined : bus.Carries (F := F) Confined where
  nothing := confined_pure ()
  andThen first second := first.bind fun _ => second
  settle := bus.settle_confined
  setClock := bus.setClock_confined
  setData := bus.setData_confined

theorem sendByte_confined (byte : UInt8) :
    Confined (bus.sendByte byte : Action L F Acknowledge) := by
  have hsettle := bus.settle_confined (F := F)
  have hletGo : Confined (bus.letGo : Action L F Unit) :=
    (bus.setClock_confined false).bind fun _ => hsettle.bind fun _ =>
      (bus.setData_confined true).bind fun _ => hsettle.bind fun _ =>
        bus.sampleData_confined.bind fun _ => confined_pure ()
  have hreceive : Confined (bus.receiveBit : Action L F UInt8) :=
    (bus.setClock_confined true).bind fun _ => hsettle.bind fun _ =>
      bus.sampleData_confined.bind fun level => (checkLevel_confined level).bind fun _ =>
        hsettle.bind fun _ => (bus.setClock_confined false).bind fun _ =>
          hsettle.bind fun _ => hsettle.bind fun _ => confined_pure _
  exact (bus.carries_confined.sendBits (bitsOf byte)).bind fun _ => hsettle.bind fun _ =>
    hletGo.bind fun _ => hreceive.bind fun _ => confined_pure _

theorem sendPart_confined (part : BytePart) (byte : UInt8) {missing : Failure F}
    (h : missing.isRefusal = false) : Confined (bus.sendPart part byte missing) := by
  have hacked : Confined (bus.sendAcked byte missing) := by
    refine (bus.sendByte_confined byte).bind ?_
    rintro (_ | _)
    · exact confined_pure ()
    · exact confined_throw h
  exact hacked.reporting fun _ => rfl

theorem transact_confined (address register value : UInt8) :
    Confined (bus.transact address register value : Action L F Unit) := by
  have hframe : Confined (bus.sendFrame address register value : Action L F Unit) :=
    (bus.sendPart_confined _ _ rfl).bind fun _ => (bus.sendPart_confined _ _ rfl).bind fun _ =>
      bus.sendPart_confined _ _ rfl
  have hnote : Confined (Journal.note (.writing register value) : Action L F Unit) :=
    fun _ hpast => ⟨hpast.snoc rfl, unrefused_ok ()⟩
  -- The failure of a byte is what the handler ends with.
  have hbytes := hframe.tryCatch (f := fun failure => do
      tryCatch (reporting (.stopFailed register) bus.stop) fun _ => pure ()
      throw failure) fun failure hfailure =>
    ((bus.carries_confined.stop.reporting fun _ => rfl).tryCatch fun _ _ => confined_pure ()).bind
      fun _ => confined_throw hfailure
  exact hnote.bind fun _ => bus.carries_confined.start.bind fun _ => hbytes.bind fun _ =>
    bus.carries_confined.stop

/-- A block that fits into a page is not refused. -/
theorem writeBlock_confined (address register : UInt8) {data : List UInt8}
    (hfits : data.length ≤ Page.size) :
    Confined (bus.writeBlock address register data : Action L F Unit) :=
  bus.writeBlock_of_transact (confined_pure ()) (fun first second => first.bind fun _ => second)
    (fun register value _ =>
      (bus.transact_confined address register value).reporting fun _ => rfl) register hfits

end Bus

namespace Device
open Routine

variable (device : Device L)

theorem answer_confined {c : RegisterCall} (hfits : c.Fits) :
    Bus.Confined (ExceptT.mk (device.answer c) : Bus.Action L F Unit) := by
  cases c with
  | write register value => exact device.bus.transact_confined _ register value
  | writeBlock start data => exact device.bus.writeBlock_confined _ start hfits

theorem stagewise_confined : device.Stagewise (F := F) Bus.Confined where
  pure := Bus.confined_pure
  bind := Bus.Confined.bind
  step _ _ hfits := (device.answer_confined hfits).reporting fun _ => rfl
  configured := fun _ hpast => ⟨hpast.snoc rfl, unrefused_ok ()⟩
  running := fun _ hpast => ⟨hpast.snoc rfl, unrefused_ok ()⟩
  tape _ h := h.reporting fun _ => rfl

/-- The same of an operation on the chip, which ends with what is known of the engines. -/
theorem ensures_confined {act : Action L F α} {known : Option EngineStatus}
    (h : Bus.Confined (knowing known act)) :
    (act.run.run known).Ensures (fun events e => events ++ [e])
      (fun ending events => Unretried events ∧ Unrefused ending.1) [] := by
  refine ((ensures_map _ _ _ _).1 (h [] nofun)).mono ?_
  rintro ⟨failure | a, known⟩ events ⟨hevents, hresult⟩
  · exact ⟨hevents, unrefused_error.2 (unrefused_error.1 hresult)⟩
  · exact ⟨hevents, unrefused_ok a⟩

theorem bringUp_confined (setup : Setup) (known : Option EngineStatus) :
    ((device.perform (Chip.bringUp setup : Chip.Action F Unit)).run.run known).Ensures
      (fun events e => events ++ [e])
      (fun ending events => Unretried events ∧ Unrefused ending.1) [] :=
  ensures_confined (device.stagewise_confined.bringUp setup known)

theorem play_confined (tape : Tape) (known : Option EngineStatus) :
    ((device.perform (Chip.play tape.index : Chip.Action F Unit)).run.run known).Ensures
      (fun events e => events ++ [e])
      (fun ending events => Unretried events ∧ Unrefused ending.1) [] :=
  ensures_confined (device.stagewise_confined.play tape known)

end Device

end LedSequencer
