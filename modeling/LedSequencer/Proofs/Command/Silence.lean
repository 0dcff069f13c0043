import LedSequencer.Proofs.Bus.Masking
import LedSequencer.Proofs.Bus.Silence
import LedSequencer.Proofs.Command.Parking

/-! Silent commands. Main statement: a command leaves no warning and no error in the log exactly if
it succeeds without a pause, and exactly if all that is done on the lines goes well. The levels of
ignored samples have no part in what it leaves there. -/
namespace LedSequencer

variable {L F ε σ α : Type}

namespace Signs

/-- What the signs say of a command: it succeeds without any, or else there is a mark, and it did
not succeed without a pause. -/
def Sums (result : Except ε α) (t : Signs) : Prop :=
  (∃ a, result = .ok a) ∧ t.Clear ∨
    t.Marked true ∧ ((∃ a, result = .ok a) → t.paused = true)

theorem Sums.loud_eq_false {result : Except ε Unit} {t : Signs} (h : t.Sums result) :
    t.loud = false ↔ result = .ok () ∧ t.paused = false := by
  obtain ⟨⟨⟨⟩, rfl⟩, low, rfl⟩ | ⟨⟨_, hloud⟩, hpaused⟩ := h
  · exact ⟨fun _ => ⟨rfl, rfl⟩, fun _ => rfl⟩
  · constructor
    · intro hquiet
      exact absurd ((hloud rfl).symm.trans hquiet) nofun
    · rintro ⟨hok, hunpaused⟩
      exact absurd ((hpaused ⟨(), hok⟩).symm.trans hunpaused) nofun

theorem Sums.loud_eq_troubled {result : Except ε α} {t : Signs} (h : t.Sums result) :
    t.loud = t.troubled := by
  obtain ⟨_, low, rfl⟩ | ⟨⟨htroubled, hloud⟩, _⟩ := h
  · rfl
  · rw [htroubled, hloud rfl]

/-- A failure leaves a mark. -/
theorem Marked.sums {t : Signs} (h : t.Marked true) (e : ε) :
    t.Sums (.error e : Except ε α) := by
  refine .inr ⟨h, ?_⟩
  rintro ⟨a, hok⟩
  cases hok

def Spoilt (p : Prop) (t : Signs) : Prop := t.Marked true ∧ (p → t.paused = true)

theorem Marked.spoilt {t : Signs} (h : t.Marked true) {p : Prop} (hp : ¬p) : t.Spoilt p :=
  ⟨h, fun h => absurd h hp⟩

theorem Spoilt.next {p : Prop} {t : Signs} (h : t.Spoilt p) (e : Event (.lines L F) (Notice F)) :
    (t.next e).Spoilt p := by
  refine ⟨h.1.next e, fun hp => ?_⟩
  cases e with
  | called c reply => rw [Signs.next, h.2 hp, Bool.true_or]
  | noted n => exact h.2 hp

end Signs

namespace Bus
open Routine

variable (bus : Bus L)

theorem takeLine_sound (line : L) : Sound false (takeLine line : Action L F Unit) := by
  intro low
  rw [Signals, ensures_takeLine]
  exact ⟨fun fault => Signs.marked_called _ rfl, low, rfl⟩

theorem freeLine_sound (line : L) : Sound false (freeLine line : Action L F Unit) := by
  intro low
  rw [Signals, ensures_freeLine]
  exact ⟨fun fault => Signs.marked_called _ rfl, low, rfl⟩

theorem acquire_sound : Sound true (bus.acquire : Action L F Unit) := by
  have hfree := makes_freeLine (F := F) (P := fun _ => True) bus.clock trivial
  refine ((takeLine_sound bus.clock).reporting fun _ => rfl).bind fun _ => ?_
  refine Sound.bind ?_ fun _ low => ⟨low, rfl⟩
  exact ((takeLine_sound bus.data).reporting fun _ => rfl).cleaning (hfree.reporting _)

theorem release_sound : Sound true (bus.release : Action L F Unit) := by
  have hfree (onClock : Bool) (line : L) :
      Sound true (reporting (fun _ => .freeFailed onClock) (freeLine line) : Action L F Unit) :=
    (freeLine_sound line).reporting fun _ => rfl
  have hmakes := (makes_freeLine (F := F) (P := fun _ => True) bus.data trivial).reporting
    fun _ => (.freeFailed false : Notice F)
  intro low
  rw [Signals, release, ExceptT.run_mk, ensures_bind]
  refine (hfree true bus.clock low).mono ?_
  rintro (failure | ⟨⟨⟩⟩) t ht
  · -- The data line is given up as well, and the first failure stays.
    rw [ensures_bind]
    exact hmakes.keeps (R := Signs.Marked true) (fun _ e h => h.next e) ht
  · obtain ⟨low, rfl⟩ := ht
    rw [ensures_bind]
    refine (hfree false bus.data low).mono ?_
    rintro (failure | ⟨⟨⟩⟩) t ht
    · exact ht
    · exact ht

theorem takeLine_overlooks (line : L) : (takeLine line : Action L F Unit).run.Overlooks :=
  fun _ _ => ⟨rfl, trivial⟩

theorem freeLine_overlooks (line : L) : (freeLine line : Action L F Unit).run.Overlooks :=
  fun _ _ => ⟨rfl, trivial⟩

theorem acquire_overlooks : (bus.acquire : Action L F Unit).run.Overlooks := by
  have hrollback (failure : Failure F) : (do
      tryCatch (reporting (fun _ => .rollbackFailed) (freeLine bus.clock)) fun _ => pure ()
      throw failure : Action L F Unit).run.Overlooks :=
    (((freeLine_overlooks bus.clock).reporting _).tryCatch fun _ => overlooks_done _).andThen
      fun _ => overlooks_done _
  refine ((takeLine_overlooks bus.clock).reporting _).andThen fun _ => ?_
  refine (((takeLine_overlooks bus.data).reporting _).tryCatch hrollback).andThen fun _ => ?_
  exact (overlooks_note _).bind fun _ => overlooks_done _

theorem release_overlooks : (bus.release : Action L F Unit).run.Overlooks := by
  rw [release, ExceptT.run_mk]
  exact ((freeLine_overlooks bus.clock).reporting _).bind fun _ =>
    ((freeLine_overlooks bus.data).reporting _).bind fun _ => overlooks_done _

end Bus

namespace Command
open Routine

theorem bringUpFrom_sums (device : Device L) (setup : Setup) (attempt more : Nat)
    (state : Option EngineStatus) (low : Bool) :
    ((bringUpFrom device setup attempt more : Device.Action L F Unit).run.run state).Ensures
      Signs.next (fun ending t => t.Sums ending.1) (.clean low) := by
  have hup {notice : Failure F → Notice F} (hnotice : ∀ failure, (notice failure).isLoud = true) :
      Bus.Sound true (Device.knowing state
        (reporting notice (device.perform (Chip.bringUp setup)))) := by
    rw [Device.knowing_reporting]
    exact (device.stagewise_sound.bringUp setup state).unlogged.reporting hnotice
  cases more with
  | zero =>
    refine (Device.ensures_sound (hup fun _ => rfl) low).mono ?_
    rintro ⟨failure | ⟨⟨⟩⟩, state⟩ t ht
    · exact Signs.Marked.sums ht failure
    · exact .inl ⟨⟨(), rfl⟩, ht⟩
  | succ more =>
    rw [bringUpFrom, ExceptT.run_tryCatch, StateT.run_bind, ensures_bind]
    refine (Device.ensures_sound (hup fun _ => rfl) low).mono ?_
    rintro ⟨failure | ⟨⟨⟩⟩, state⟩ t ht
    · -- There is a pause now, and no further attempt takes the mark away.
      intro reply
      have hpaused : (t.next (.called (.wait retryDelay) reply :
          Event (.lines L F) (Notice F))).Spoilt True :=
        ⟨Signs.Marked.next ht _, fun _ => Bool.or_true _⟩
      refine ((makes_bringUpFrom device setup more (attempt + 1) state).keeps
        (R := Signs.Spoilt True) (fun _ e h => h.next e) hpaused).mono ?_
      exact fun ending t ht => .inr ⟨ht.1, fun _ => ht.2 trivial⟩
    · exact .inl ⟨⟨(), rfl⟩, ht⟩

theorem bringUpAndPlay_sums (device : Device L) (setup : Setup) (tape : Tape)
    (state : Option EngineStatus) (low : Bool) :
    ((bringUpAndPlay device setup tape : ExceptT (Phase × Failure F) (StateT (Option EngineStatus)
      (Routine (.lines L F) (Notice F))) Unit).run.run state).Ensures
      Signs.next (fun ending t => t.Sums ending.1) (.clean low) := by
  have hplay (state : Option EngineStatus) :
      ((device.perform (Chip.play tape.index) : Device.Action L F Unit).run.run state).Makes
        device.bus.Transfers :=
    device.makes_perform (Chip.goes_play tape.all_index) state
  rw [bringUpAndPlay, ExceptT.run_bind, StateT.run_bind, ensures_bind]
  refine (ensures_bind _ _ _ _).2
    ((bringUpFrom_sums device setup 1 (attempts - 1) state low).mono ?_)
  rintro ⟨failure | ⟨⟨⟩⟩, state⟩ t ht
  · obtain ⟨⟨_, hok⟩, _⟩ | ⟨hmarked, _⟩ := ht
    · cases hok
    · exact hmarked.sums _
  · refine (ensures_bind _ _ _ _).2 ?_
    obtain ⟨_, low, rfl⟩ | ⟨hmarked, hpaused⟩ := ht
    · refine (Device.ensures_sound (device.stagewise_sound.play tape state) low).mono ?_
      rintro ⟨failure | ⟨⟨⟩⟩, state⟩ t ht
      · exact Signs.Marked.sums ht (Phase.play, failure)
      · exact .inl ⟨⟨(), rfl⟩, ht⟩
    · have hspoilt : t.Spoilt True := ⟨hmarked, fun _ => hpaused ⟨(), rfl⟩⟩
      refine ((hplay state).keeps (R := Signs.Spoilt True) (fun _ e h => h.next e) hspoilt).mono ?_
      exact fun ending t ht => .inr ⟨ht.1, fun _ => ht.2 trivial⟩

/-- The conclusion is drawn from the failures so far, and adds a report at most. -/
theorem concluding_sums {result : Except (Phase × Failure F) Unit}
    {teardown : Except (Failure F) Unit} {t : Signs}
    (ht : result = .ok () ∧ teardown = .ok () ∧ t.Clear ∨
      t.Spoilt (result = .ok () ∧ teardown = .ok ())) :
    (concluding (L := L) result teardown).run.Ensures Signs.next (fun ending t => t.Sums ending)
      t := by
  obtain ⟨rfl, rfl, hclear⟩ | ⟨hmarked, hpaused⟩ := ht
  · exact .inl ⟨⟨(), rfl⟩, hclear⟩
  · obtain ⟨phase, failure⟩ | ⟨⟨⟩⟩ := result
    · cases teardown with
      | ok => exact hmarked.sums _
      | error second => exact (hmarked.next _).sums _
    · cases teardown with
      | ok => exact .inr ⟨hmarked, fun _ => hpaused ⟨rfl, rfl⟩⟩
      | error second => exact hmarked.sums _

theorem serve_sums (bus : Bus L) (setup : Setup) (tape : Tape) (low : Bool) :
    (serve bus setup tape : Routine (.lines L F) (Notice F) _).Ensures Signs.next
      (fun ending t => t.Sums ending) (.clean low) := by
  have hmakes := bus.makes_release (F := F) (P := fun _ => True) fun _ _ => trivial
  rw [serve, ensures_bind]
  refine (bringUpAndPlay_sums _ setup tape none low).mono ?_
  rintro ⟨result, _⟩ t ht
  rw [ensures_bind]
  obtain ⟨⟨⟨⟩, rfl⟩, low, rfl⟩ | ⟨hmarked, hpaused⟩ := ht
  · refine (bus.release_sound low).mono ?_
    rintro (failure | ⟨⟨⟩⟩) t ht
    · refine concluding_sums (.inr (Signs.Marked.spoilt ht ?_))
      rintro ⟨_, hok⟩
      cases hok
    · exact concluding_sums (.inl ⟨rfl, rfl, ht⟩)
  · have hspoilt : t.Spoilt (result = .ok ()) := ⟨hmarked, fun hok => hpaused ⟨(), hok⟩⟩
    refine (hmakes.keeps (R := Signs.Spoilt (result = .ok ())) (fun _ e h => h.next e)
      hspoilt).mono ?_
    exact fun teardown t ht => concluding_sums (.inr ⟨ht.1, fun hok => ht.2 hok.1⟩)

theorem play_sums (bus : Bus L) (setup : Setup) (tape : Tape) (low : Bool) :
    (play bus setup tape : ExceptT (CommandFailure F) (Routine (.lines L F) (Notice F))
      Unit).run.Ensures Signs.next (fun ending t => t.Sums ending) (.clean low) := by
  rw [play_run, ensures_bind]
  refine (bus.acquire_sound low).mono ?_
  rintro (failure | ⟨⟨⟩⟩) t ht
  · exact Signs.Marked.sums ht _
  · obtain ⟨low, rfl⟩ := ht
    exact serve_sums bus setup tape low

theorem bringUpFrom_overlooks (device : Device L) (setup : Setup) (more attempt : Nat)
    (state : Option EngineStatus) :
    ((bringUpFrom device setup attempt more : Device.Action L F Unit).run.run state).Overlooks := by
  have hup (notice : Failure F → Notice F) (state : Option EngineStatus) :
      ((reporting notice (device.perform (Chip.bringUp setup)) : Device.Action L F Unit).run.run
        state).Overlooks := by
    rw [← Device.perform_reporting]
    exact device.perform_overlooks _ state
  induction more generalizing attempt state with
  | zero => exact hup _ state
  | succ more ih =>
    rw [bringUpFrom, ExceptT.run_tryCatch, StateT.run_bind]
    refine Overlooks.bind (hup _ state) ?_
    rintro ⟨failure | ⟨⟨⟩⟩, state⟩
    · exact fun low reply => ⟨rfl, ih (attempt + 1) state low⟩
    · exact overlooks_done _

theorem serve_overlooks (bus : Bus L) (setup : Setup) (tape : Tape) :
    (serve bus setup tape : Routine (.lines L F) (Notice F) _).Overlooks := by
  have hup := bringUpFrom_overlooks (F := F) ⟨bus, Device.chipAddress⟩ setup (attempts - 1) 1 none
  have hplay (state : Option EngineStatus) :=
    Device.perform_overlooks (F := F) ⟨bus, Device.chipAddress⟩ (Chip.play tape.index) state
  have hwork : ((bringUpAndPlay ⟨bus, Device.chipAddress⟩ setup tape : ExceptT (Phase × Failure F)
      (StateT (Option EngineStatus) (Routine (.lines L F) (Notice F))) Unit).run.run
        none).Overlooks := by
    rw [bringUpAndPlay, ExceptT.run_bind, StateT.run_bind]
    refine Overlooks.bind (hup.bind fun _ => overlooks_done _) ?_
    rintro ⟨failure | ⟨⟨⟩⟩, state⟩
    · exact overlooks_done _
    · exact (hplay state).bind fun _ => overlooks_done _
  rw [serve]
  refine hwork.bind ?_
  rintro ⟨result, _⟩
  refine bus.release_overlooks.bind fun teardown => ?_
  obtain ⟨phase, failure⟩ | ⟨⟨⟩⟩ := result <;> cases teardown <;> exact fun _ => trivial

theorem play_overlooks (bus : Bus L) (setup : Setup) (tape : Tape) :
    (play bus setup tape : ExceptT (CommandFailure F) (Routine (.lines L F) (Notice F))
      Unit).run.Overlooks := by
  rw [play_run]
  refine bus.acquire_overlooks.bind ?_
  rintro (failure | ⟨⟨⟩⟩)
  · exact overlooks_done _
  · exact serve_overlooks bus setup tape

/-- A command with any faults and levels returns. It leaves no warning and no error in the log
exactly if it succeeds without a pause between two attempts. So all that goes wrong is reported in
some way: the log is silent exactly if no call fails and every sample shows a low level, but for the
samples that are taken where the data line is let go. Where those all read 0, whatever they were,
the command makes the same calls, ends the same way and leaves the same notices. -/
theorem play_silence (bus : Bus L) (setup : Setup) (tape : Tape)
    (answer : (c : LineCall L) → σ → c.Reply F × σ) (s : σ) :
    let played := (play bus setup tape).run.run (.answering answer) s
    let masked := (play bus setup tape).run.run (.answering (blanking answer)) (s, false)
    let counted := blanked false (callsOf played.events)
    ∃ result, played.outcome = .returned result ∧
      (Silent played.events ↔ result = .ok () ∧ (Usage.ofEvents played.events).waits = []) ∧
      (Silent played.events ↔ ∀ call ∈ counted, wentWell call = true) ∧
      masked.outcome = .returned result ∧ masked.world.1 = played.world ∧
        callsOf masked.events = counted ∧ notices masked.events = notices played.events := by
  intro played masked counted
  have hsums := play_sums (F := F) bus setup tape false
  obtain ⟨result, hresult⟩ := hsums.returns answer s
  obtain ⟨houtcome, hworld, hcalls, hnotices⟩ :=
    (play_overlooks (F := F) bus setup tape false).run answer s
  have hsigns : (played.events.foldl Signs.next (.clean false)).Sums result :=
    hsums.returned _ hresult
  refine ⟨result, hresult, ?_, ?_, houtcome.trans hresult, hworld, hcalls, hnotices⟩
  · rw [Signs.silent_iff _ false, Signs.waits_eq_nil_iff _ false]
    exact hsigns.loud_eq_false
  · rw [Signs.silent_iff _ false, Signs.wentWell_iff, hsigns.loud_eq_troubled]

end Command

end LedSequencer
