import LedSequencer.Line.Usage
import LedSequencer.Proofs.Bus.Ensures
import LedSequencer.Proofs.Bus.Transfers
import LedSequencer.Proofs.Chip.Stages
import LedSequencer.Proofs.Line.Masking
import LedSequencer.Proofs.Line.Patience

/-! What goes wrong on a bus, and what of it is reported. Main statement: operations on the chip
that succeed report nothing and nothing went wrong in them, and those that fail report it. -/
namespace LedSequencer

variable {L F α β : Type}

def Notice.isLoud (n : Notice F) : Bool := Severity.warn.rank ≤ n.severity.rank

def Silent (events : List (Event (.lines L F) (Notice F))) : Prop :=
  ∀ n ∈ notices events, n.isLoud = false

/-- A call did not fail, and a sample showed a low level, as a receiver shows that acknowledges. -/
def wentWell : AnsweredCall L F → Bool
  | ⟨.request _, .ok ()⟩ | ⟨.release _, .ok ()⟩ | ⟨.drive _ _, .ok ()⟩ => true
  | ⟨.sample _, .ok level⟩ => level = 0
  | ⟨.settle _, ()⟩ | ⟨.wait _, ()⟩ => true
  | _ => false

/-- What an observer notes down: whether a line was driven low since the last sample, and whether
any call did not go well, any warning or error was left in the log and any wait was made. A sample
that is ignored always goes well, unless it fails. -/
structure Signs where
  low : Bool
  troubled : Bool
  loud : Bool
  paused : Bool

namespace Signs

def clean (low : Bool) : Signs := ⟨low, false, false, false⟩

def next (t : Signs) : Event (.lines L F) (Notice F) → Signs
  | .called c reply =>
    ⟨LineCall.turns t.low c, t.troubled || !wentWell ⟨c, LineCall.blank t.low c reply⟩, t.loud,
      t.paused || LineCall.isWait c⟩
  | .noted n => { t with loud := t.loud || n.isLoud }

section Seen

variable (events : List (Event (.lines L F) (Notice F))) (t : Signs)

theorem loud_foldl :
    (events.foldl next t).loud = (t.loud || (notices events).any Notice.isLoud) := by
  induction events generalizing t with
  | nil => exact (Bool.or_false _).symm
  | cons e events ih =>
    rw [List.foldl_cons, ih]
    cases e with
    | called c reply => rfl
    | noted n => exact Bool.or_assoc _ _ _

theorem paused_foldl : (events.foldl next t).paused =
    (t.paused || !(Usage.ofEvents events).waits.isEmpty) := by
  induction events generalizing t with
  | nil => exact (Bool.or_false _).symm
  | cons e events ih =>
    rw [List.foldl_cons, ih]
    cases e with
    | noted n => rfl
    | called c reply =>
      cases c with
      | wait ms =>
        show (t.paused || true || _) = (t.paused || true)
        rw [Bool.or_true, Bool.true_or]
      | request line | release line | drive line high | sample line | settle us =>
        show (t.paused || false || _) = _
        rw [Bool.or_false]
        rfl

theorem troubled_foldl : (events.foldl next t).troubled =
    (t.troubled || (blanked t.low (callsOf events)).any fun call => !wentWell call) := by
  induction events generalizing t with
  | nil => exact (Bool.or_false _).symm
  | cons e events ih =>
    rw [List.foldl_cons, ih]
    cases e with
    | called c reply => exact Bool.or_assoc _ _ _
    | noted n => rfl

variable (low : Bool)

theorem silent_iff : Silent events ↔ (events.foldl next (clean low)).loud = false := by
  rw [loud_foldl, clean, Bool.false_or, List.any_eq_false]
  simp only [Silent, Bool.not_eq_true]

theorem waits_eq_nil_iff : (Usage.ofEvents events).waits = [] ↔
    (events.foldl next (clean low)).paused = false := by
  rw [paused_foldl, clean, Bool.false_or, Bool.not_eq_false', List.isEmpty_iff]

theorem wentWell_iff : (∀ call ∈ blanked low (callsOf events), wentWell call = true) ↔
    (events.foldl next (clean low)).troubled = false := by
  rw [troubled_foldl, clean, Bool.false_or, List.any_eq_false]
  simp only [Bool.not_eq_true', Bool.not_eq_false]

end Seen

/-- Some call did not go well, which has left a warning or an error in the log if `logged`. -/
def Marked (logged : Bool) (t : Signs) : Prop :=
  t.troubled = true ∧ (logged = true → t.loud = true)

theorem Marked.next {logged : Bool} {t : Signs} (h : t.Marked logged)
    (e : Event (.lines L F) (Notice F)) : (t.next e).Marked logged := by
  cases e with
  | called c reply => exact ⟨by rw [Signs.next, h.1, Bool.true_or], h.2⟩
  | noted n => exact ⟨h.1, fun hl => by rw [Signs.next, h.2 hl, Bool.true_or]⟩

/-- A failed call leaves a mark. -/
theorem marked_called (t : Signs) {c : LineCall L} {reply : c.Reply F}
    (h : wentWell ⟨c, c.blank t.low reply⟩ = false) :
    (t.next (.called c reply)).Marked false :=
  ⟨by rw [next, h, Bool.not_false, Bool.or_true], nofun⟩

/-- An error that is reported is logged. -/
theorem Marked.noted {t : Signs} (h : t.Marked false) {n : Notice F} (hn : n.isLoud = true) :
    (t.next (.noted n : Event (.lines L F) (Notice F))).Marked true :=
  ⟨h.1, fun _ => by rw [Signs.next, hn, Bool.or_true]⟩

def Clear (t : Signs) : Prop := ∃ low, t = clean low

def Judge (logged : Bool) (after : α → Signs → Prop) : Except (Failure F) α → Signs → Prop
  | .ok a, t => after a t
  | .error _, t => t.Marked logged

end Signs

namespace Bus
open Routine

/-- From the signs `t` an action ends as `after` says or, if it fails, with a mark. -/
def Signals (logged : Bool) (t : Signs) (act : Action L F α) (after : α → Signs → Prop) : Prop :=
  act.run.Ensures Signs.next (Signs.Judge logged after) t

/-- An action that begins without a sign ends without one or, if it fails, with a mark. -/
def Sound (logged : Bool) (act : Action L F α) : Prop :=
  ∀ low, Signals logged (.clean low) act fun _ => Signs.Clear

section Rules

variable {logged : Bool} {t : Signs} {mid : α → Signs → Prop} {after : β → Signs → Prop}
variable {act : Action L F α}

theorem Signals.bind {f : α → Action L F β} (h : Signals logged t act mid)
    (hf : ∀ a t, mid a t → Signals logged t (f a) after) : Signals logged t (act >>= f) after := by
  rw [Signals, ensures_run_bind]
  refine h.mono ?_
  rintro (failure | a) t ht
  · exact ht
  · exact hf a t ht

theorem sound_pure (a : α) : Sound logged (pure a : Action L F α) := fun low => ⟨low, rfl⟩

theorem Sound.bind {f : α → Action L F β} (h : Sound logged act) (hf : ∀ a, Sound logged (f a)) :
    Sound logged (act >>= f) := by
  intro low
  refine (h low).bind ?_
  rintro a _ ⟨low, rfl⟩
  exact hf a low

theorem Sound.unlogged (h : Sound logged act) : Sound false act := by
  intro low
  refine (h low).mono ?_
  rintro (failure | a) t ht
  · exact ⟨ht.1, nofun⟩
  · exact ht

/-- A failure that is reported is logged. -/
theorem Sound.reporting (h : Sound false act) {notice : Failure F → Notice F}
    (hnotice : ∀ failure, (notice failure).isLoud = true) :
    Sound true (LedSequencer.reporting notice act) := by
  intro low
  rw [Signals, ensures_reporting]
  refine (h low).mono ?_
  rintro (failure | a) t ht
  · exact Signs.Marked.noted ht (hnotice failure)
  · exact ht

/-- What is cleaned up behind a failure does not take its mark away. -/
theorem Sound.cleaning {P : LineCall L → Prop} {cleanup : Action L F Unit} (h : Sound logged act)
    (hmakes : cleanup.run.Makes P) : Sound logged (tryCatch act fun failure => do
      tryCatch cleanup fun _ => pure ()
      throw failure) := by
  intro low
  rw [Signals, ensures_run_tryCatch]
  refine (h low).mono ?_
  rintro (failure | a) t ht
  · dsimp only
    rw [ensures_run_bind, ensures_run_tryCatch]
    refine (hmakes.keeps (R := Signs.Marked logged) (fun _ e h => h.next e) ht).mono ?_
    rintro (second | _) t hmarked
    · exact hmarked
    · exact hmarked
  · exact ht

end Rules

section Steps

variable (bus : Bus L)

theorem carries_sound : bus.Carries (F := F) (Sound false) where
  nothing := sound_pure ()
  andThen first second := first.bind fun _ => second
  settle low := by
    rw [Signals, ensures_settle]
    exact ⟨low, rfl⟩
  setClock high low := by
    rw [Signals, ensures_setClock]
    exact ⟨fun fault => Signs.marked_called _ rfl, low || !high, rfl⟩
  setData high low := by
    rw [Signals, ensures_setData]
    exact ⟨fun fault => Signs.marked_called _ rfl, low || !high, rfl⟩

/-- The sample that lets go of the data line is ignored, and the next one will not be. -/
theorem letGo_signals (low : Bool) :
    Signals false (.clean low) (bus.letGo : Action L F Unit) fun _ t => t = .clean false := by
  simp only [Signals, letGo, ensures_run_bind, ensures_setClock, ensures_settle, ensures_setData,
    ensures_sampleData]
  refine ⟨fun fault => Signs.marked_called _ rfl, fun fault => Signs.marked_called _ rfl,
    fun fault => Signs.marked_called _ ?_, fun level => ?_⟩
  -- The clock was driven low, so the level of the sample is blanked.
  · cases low <;> rfl
  · cases low <;> rfl

/-- The sample of an acknowledge bit counts: a level that is not low leaves a mark. -/
theorem receiveBit_signals :
    Signals false (.clean false) (bus.receiveBit : Action L F UInt8) fun level t =>
      if level = 0 then t = .clean true else t.Marked false := by
  simp only [Signals, receiveBit, ensures_run_bind, ensures_setClock, ensures_settle,
    ensures_sampleData, ensures_checkLevel]
  refine ⟨fun fault => Signs.marked_called _ rfl, fun fault => Signs.marked_called _ rfl,
    fun level => ?_⟩
  -- A level that is a bit but not low is marked here and fails later, where it is looked at.
  by_cases hlow : level = 0
  · subst hlow
    exact ⟨fun fault => Signs.marked_called _ rfl, rfl⟩
  · have hmarked : ((Signs.clean false).next (.called (.sample bus.data) (.ok level) :
        Event (.lines L F) (Notice F))).Marked false :=
      Signs.marked_called _ (decide_eq_false hlow)
    split_ifs with hbit
    · refine ⟨fun fault => (hmarked.next _).next _, ?_⟩
      show if level = 0 then _ else _
      rw [if_neg hlow]
      exact (((hmarked.next _).next _).next _).next _
    · exact hmarked.next _

/-- A byte that is not acknowledged leaves a mark. -/
theorem sendByte_signals (byte : UInt8) (low : Bool) :
    Signals false (.clean low) (bus.sendByte byte : Action L F Acknowledge) fun answer t =>
      match answer with
      | .ack => t.Clear
      | .nack => t.Marked false := by
  refine (bus.carries_sound.sendBits (bitsOf byte) low).bind ?_
  rintro _ _ ⟨low, rfl⟩
  refine (bus.carries_sound.settle low).bind ?_
  rintro _ _ ⟨low, rfl⟩
  refine (bus.letGo_signals low).bind ?_
  rintro _ _ rfl
  refine bus.receiveBit_signals.bind fun level t ht => ?_
  by_cases hlow : level = 0
  · rw [if_pos hlow] at ht
    rw [Acknowledge.ofLevel, if_pos hlow]
    exact ⟨true, ht⟩
  · rw [if_neg hlow] at ht
    rw [Acknowledge.ofLevel, if_neg hlow]
    exact ht

theorem sendPart_sound (part : BytePart) (byte : UInt8) (missing : Failure F) :
    Sound true (bus.sendPart part byte missing) := by
  refine Sound.reporting (fun low => ?_) fun _ => rfl
  refine (bus.sendByte_signals byte low).bind ?_
  rintro (_ | _) t ht
  · exact ht
  · exact ht

/-- A transaction: its start condition, its bytes, and a stop condition in any case. -/
theorem transact_sound (address register value : UInt8) :
    Sound false (bus.transact address register value : Action L F Unit) := by
  have hframe : Sound true (bus.sendFrame address register value : Action L F Unit) :=
    (bus.sendPart_sound _ _ _).bind fun _ => (bus.sendPart_sound _ _ _).bind fun _ =>
      bus.sendPart_sound _ _ _
  have hnote : Sound false (Journal.note (.writing register value) : Action L F Unit) :=
    fun low => ⟨low, rfl⟩
  have hstop := (bus.closed_makes (F := F)).stop.reporting (.stopFailed register)
  exact hnote.bind fun _ => bus.carries_sound.start.bind fun _ =>
    (hframe.cleaning hstop).unlogged.bind fun _ => bus.carries_sound.stop

/-- A block that fits into a page. -/
theorem writeBlock_sound (address register : UInt8) {data : List UInt8}
    (hfits : data.length ≤ Page.size) :
    Sound false (bus.writeBlock address register data : Action L F Unit) :=
  bus.writeBlock_of_transact (sound_pure ()) (fun first second => first.bind fun _ => second)
    (fun register value _ =>
      ((bus.transact_sound address register value).reporting fun _ => rfl).unlogged) register hfits

end Steps

end Bus

namespace Device
open Routine

variable (device : Device L)

theorem answer_sound {c : RegisterCall} (hfits : c.Fits) :
    Bus.Sound false (ExceptT.mk (device.answer c) : Bus.Action L F Unit) := by
  cases c with
  | write register value => exact device.bus.transact_sound _ register value
  | writeBlock start data => exact device.bus.writeBlock_sound _ start hfits

theorem stagewise_sound : device.Stagewise (F := F) (Bus.Sound true) where
  pure := Bus.sound_pure
  bind := Bus.Sound.bind
  step _ _ hfits := (device.answer_sound hfits).reporting fun _ => rfl
  configured := fun low => ⟨low, rfl⟩
  running := fun low => ⟨low, rfl⟩
  tape _ h := h.unlogged.reporting fun _ => rfl

/-- The same of an operation on the chip, which ends with what is known of the engines. -/
theorem ensures_sound {logged : Bool} {act : Action L F α} {known : Option EngineStatus}
    (h : Bus.Sound logged (knowing known act)) (low : Bool) :
    (act.run.run known).Ensures Signs.next
      (fun ending t => Signs.Judge logged (fun _ => Signs.Clear) ending.1 t) (.clean low) := by
  refine ((ensures_map _ _ _ _).1 (h low)).mono ?_
  rintro ⟨failure | a, known⟩ t ht
  · exact ht
  · exact ht

end Device

end LedSequencer
