import LedSequencer.Line.Waveform
import LedSequencer.Proofs.Command.Phases
import LedSequencer.Proofs.Line.Holding
import LedSequencer.Proofs.Line.Patience
import LedSequencer.Proofs.Routine.Returns

/-! Halted callers. Main statement: a halted command never returns, and once its tape is played, or
is not, all that it does is to wait; the boot command is the playing of its tape and no more. -/
namespace LedSequencer

variable {L F σ α β : Type}

/-- Events that drive no line leave the levels as they are. -/
theorem Levels.afterAll_undriven [DecidableEq L] {N : Type} {clock : L}
    {events : List (Event (.lines L F) N)} (h : ∀ e ∈ events, e.driven? clock = none)
    (levels : Levels) : levels.afterAll clock events = levels := by
  induction events with
  | nil => rfl
  | cons e events ih =>
    obtain ⟨he, hevents⟩ := List.forall_mem_cons.1 h
    have hnext : levels.next clock e = levels := by rw [next, he]
    rw [afterAll, List.foldl_cons, hnext]
    exact ih hevents

/-- Waits of one length are known by their number. -/
theorem Usage.waits_eq {N : Type} {events : List (Event (.lines L F) N)} {n : Nat}
    (h : ∀ c ∈ callsOf events, ∀ ms, c.1 = .wait ms → ms.toNat = n) :
    (ofEvents events).waits = List.replicate (ofEvents events).waits.length n := by
  refine List.eq_replicate_of_mem fun m hm => ?_
  induction events with
  | nil => exact absurd hm nofun
  | cons e events ih =>
    cases e with
    | noted notice => exact ih h hm
    | called c reply =>
      obtain ⟨hc, hevents⟩ := List.forall_mem_cons.1 h
      cases c with
      | wait ms =>
        rcases List.mem_cons.1 hm with rfl | hm
        · exact hc ms rfl
        · exact ih hevents hm
      | request line | release line | drive line high | sample line | settle us =>
        exact ih hevents hm

def Bus.Serves (bus : Bus L) (c : LineCall L) : Prop :=
  c.isClaim ∨ bus.Works c

theorem Bus.Serves.wait {bus : Bus L} {ms : UInt32} (h : bus.Serves (.wait ms)) :
    ms.toNat = 100 := by
  rcases h with h | h | h
  · exact absurd h nofun
  · exact h.elim
  · rw [LineCall.wait.inj h]
    rfl

namespace Bus
open Routine

variable (bus : Bus L) {P : LineCall L → Prop}

theorem makes_takeLine (line : L) (h : P (.request line)) :
    (takeLine line : Action L F Unit).run.Makes P :=
  ⟨h, fun _ => trivial⟩

theorem makes_freeLine (line : L) (h : P (.release line)) :
    (freeLine line : Action L F Unit).run.Makes P :=
  ⟨h, fun _ => trivial⟩

theorem makes_acquire (hP : ∀ c, c.isClaim → P c) :
    (bus.acquire : Action L F Unit).run.Makes P := by
  have hclock := makes_takeLine (F := F) bus.clock (hP _ rfl)
  have hdata := makes_takeLine (F := F) bus.data (hP _ rfl)
  have hfree := makes_freeLine (F := F) bus.clock (hP _ rfl)
  refine (hclock.reporting _).andThen fun _ => ?_
  refine Makes.andThen ((hdata.reporting _).tryCatch fun _ => ?_) fun _ => ?_
  · refine Makes.andThen ((hfree.reporting _).tryCatch fun _ => ?_) fun _ => ?_ <;> trivial
  · trivial

theorem makes_release (hP : ∀ c, c.isClaim → P c) :
    (bus.release : Action L F Unit).run.Makes P := by
  have hclock := makes_freeLine (F := F) bus.clock (hP _ rfl)
  have hdata := makes_freeLine (F := F) bus.data (hP _ rfl)
  rw [release, ExceptT.run_mk]
  exact Makes.bind (hclock.reporting _) fun _ => Makes.bind (hdata.reporting _) fun _ => trivial

end Bus

namespace Command
open Routine

theorem makes_serve (bus : Bus L) (setup : Setup) (tape : Tape) :
    (serve bus setup tape : Routine (.lines L F) (Notice F) (Except (CommandFailure F)
      Unit)).Makes bus.Serves := by
  have hwork := makes_bringUpAndPlay (F := F) ⟨bus, Device.chipAddress⟩ setup tape none
  have hrelease := bus.makes_release (F := F) (P := bus.Serves) fun c hc => .inl hc
  exact (hwork.mono fun c hc => .inr hc).bind fun (result, _) => hrelease.bind fun teardown => by
    obtain ⟨phase, failure⟩ | ⟨⟨⟩⟩ := result <;> cases teardown <;> trivial

theorem makes_play (bus : Bus L) (setup : Setup) (tape : Tape) :
    (play bus setup tape : ExceptT (CommandFailure F) (Routine (.lines L F) (Notice F))
      Unit).run.Makes bus.Serves := by
  have hacquire := bus.makes_acquire (F := F) (P := bus.Serves) fun c hc => .inl hc
  rw [play_run]
  exact hacquire.bind fun acquired => by
    cases acquired with
    | error failure => trivial
    | ok => exact makes_serve bus setup tape

/-- A halted caller waits as often as it can, and is followed through all polls or cut off in one.
-/
theorem park_run {w : World (.lines L F) σ} {left : σ → Nat} (patience : Patience w left)
    (polls : Nat) (s : σ) :
    let parked := (park polls : Routine (.lines L F) (Notice F) (Ending F)).run w s
    parked.events = List.replicate (min polls (left s)) (.called (.wait 100) ()) ∧
      parked.outcome = if left s < polls then .cutOff else .returned .parked := by
  induction polls generalizing s with
  | zero => exact ⟨by rw [Nat.zero_min]; rfl, rfl⟩
  | succ polls ih =>
    cases hw : w (.wait pollPeriod) s with
    | none =>
      have hspent : left s = 0 := (patience.cutOff hw).2
      rw [park, Routine.run, runFrom, hw, hspent]
      exact ⟨rfl, rfl⟩
    | some answer =>
      obtain ⟨⟨⟩, s'⟩ := answer
      obtain ⟨hevents, houtcome⟩ := ih s'
      have hleft : left s = left s' + 1 := (patience.returned hw).trans (Nat.add_comm 1 _)
      simp only [park, run_call w hw, Run.events_after, hevents, hleft, Nat.add_min_add_right,
        Nat.add_lt_add_iff_right]
      exact ⟨rfl, houtcome⟩

theorem makes_park (polls : Nat) :
    (park polls : Routine (.lines L F) (Notice F) (Ending F)).Makes
      fun c : LineCall L => c = .wait 100 := by
  induction polls with
  | zero => trivial
  | succ polls ih => exact ⟨rfl, fun _ => ih⟩

/-- Whatever was held stays held while the caller is parked. -/
theorem held_park [DecidableEq L] {w : World (.lines L F) σ} {held : σ → List L}
    (exclusive : Exclusive w held) (polls : Nat) (s : σ) :
    held ((park polls : Routine (.lines L F) (Notice F) (Ending F)).run w s).world = held s := by
  have hunclaimed := heldAfterAll?_of_not_isClaim (fun c hc => by
    have hwait : c.1 = .wait 100 := (makes_park (F := F) polls).calls w s c hc
    rw [hwait, LineCall.isClaim]) (held s)
  exact Option.some.inj ((exclusive.run _ s).symm.trans hunclaimed)

theorem booted_run (w : World (.lines L F) σ) (bus : Bus L) (setup : Setup) (polls : Nat) (s : σ) :
    let played := (play bus setup .boot).run.run w s
    let booted := (run polls .boot bus setup).run w s
    booted.outcome = played.outcome.map .returned ∧ booted.world = played.world ∧
      callsOf booted.events = callsOf played.events := by
  intro played booted
  let notice (e : CommandFailure F) : Notice F := .commandFailed .boot e.phase e.error
  obtain ⟨houtcome, hworld, hcalls⟩ := run_reporting w notice (play bus setup .boot) s
  have hbooted : booted =
      (Ending.returned <$> (reporting notice (play bus setup .boot)).run).run w s := rfl
  rw [hbooted, run_map]
  exact ⟨congrArg (Outcome.map _) houtcome, hworld, hcalls⟩

def haltedEvents (result : Except (CommandFailure F) Unit) (served : Nat) :
    List (Event (.lines L F) (Notice F)) :=
  let poll : Event (.lines L F) (Notice F) := .called (.wait 100) ()
  let notice (e : CommandFailure F) : Notice F := .commandFailed .haltedError e.phase e.error
  reported notice result ++ List.replicate served poll

theorem undriven_haltedEvents [DecidableEq L] (clock : L) (result : Except (CommandFailure F) Unit)
    (served : Nat) :
    ∀ e ∈ haltedEvents (L := L) result served, e.driven? clock = none := by
  intro e he
  rcases List.mem_append.1 he with hreport | hwait
  · cases result with
    | ok => exact absurd hreport nofun
    | error e =>
      obtain rfl := List.mem_singleton.1 hreport
      rfl
  · obtain rfl := List.eq_of_mem_replicate hwait
    rfl

/-- A halted caller once the playing of the tape returned. -/
theorem halted_returned (bus : Bus L) (setup : Setup) {w : World (.lines L F) σ} {left : σ → Nat}
    (patience : Patience w left) (polls : Nat) {s : σ} {result : Except (CommandFailure F) Unit}
    (h : ((play bus setup .error).run.run w s).outcome = .returned result) :
    let playing := (play bus setup .error).run.run w s
    let halted := (run polls .haltedError bus setup).run w s
    let parked := (park polls : Routine (.lines L F) (Notice F) (Ending F)).run w playing.world
    halted.events = playing.events ++ haltedEvents result (min polls (left playing.world)) ∧
      halted.outcome = parked.outcome ∧ halted.world = parked.world := by
  intro playing halted parked
  have hreported := (returns_of_outcome h).reporting fun e =>
    (.commandFailed .haltedError e.phase e.error : Notice F)
  obtain ⟨houtcome, hworld, hevents⟩ := hreported.bind_run fun _ => park polls
  rw [(park_run patience polls playing.world).1, List.append_assoc] at hevents
  exact ⟨hevents, houtcome, hworld⟩

/-- If the playing of the tape is cut off, so is the caller. -/
theorem halted_cutOff (bus : Bus L) (setup : Setup) {w : World (.lines L F) σ} (polls : Nat) {s : σ}
    (h : ((play bus setup .error).run.run w s).outcome = .cutOff) :
    let played := (play bus setup .error).run.run w s
    let halted := (run polls .haltedError bus setup).run w s
    halted.outcome = .cutOff ∧ halted.world = played.world ∧ halted.events = played.events := by
  intro played halted
  obtain ⟨houtcome, hworld, hevents⟩ := reporting_cutOff h fun e =>
    (.commandFailed .haltedError e.phase e.error : Notice F)
  obtain ⟨houtcome', hworld', hevents'⟩ := cutOff_bind houtcome fun _ =>
    (park polls : Routine (.lines L F) (Notice F) (Ending F))
  exact ⟨houtcome', hworld'.trans hworld, hevents'.trans hevents⟩

theorem makes_run (polls : Nat) (bus : Bus L) (setup : Setup) :
    (run polls .haltedError bus setup : Routine (.lines L F) (Notice F) (Ending F)).Makes
      bus.Serves := by
  rw [run]
  refine Makes.bind ((makes_play bus setup .error).reporting _) fun _ => ?_
  exact (makes_park polls).mono fun c hc => .inr (.inr hc)

/-- A halted command never returns a result. Followed for more polls than waits return it is cut
off, every wait that returned was one of 100 milliseconds, and once the playing of its tape
returned, with whatever result, nothing is left but the report and waits: the levels and the held
lines stay as they are. The boot command makes the calls of the playing of its tape and returns its
result. -/
theorem run_parks [DecidableEq L] (bus : Bus L) (setup : Setup) {w : World (.lines L F) σ}
    {left : σ → Nat} (patience : Patience w left) (polls : Nat) (s : σ) :
    let playing := (play bus setup .error).run.run w s
    let halted := (run polls .haltedError bus setup).run w s
    let booting := (play bus setup .boot).run.run w s
    let booted := (run polls .boot bus setup).run w s
    (∀ result, halted.outcome ≠ .returned (.returned result)) ∧
      (left s < polls →
        halted.outcome = .cutOff ∧
        (Usage.ofEvents halted.events).waits = List.replicate (left s) 100 ∧
        ((Usage.ofEvents playing.events).waits.length < left s →
          ∃ result, playing.outcome = .returned result) ∧
        (∀ result, playing.outcome = .returned result →
          halted.events = playing.events ++ haltedEvents result (left playing.world)) ∧
        ((∀ result, playing.outcome ≠ .returned result) → halted.events = playing.events) ∧
        (∀ levels : Levels,
          levels.afterAll bus.clock halted.events = levels.afterAll bus.clock playing.events) ∧
        ∀ held, Exclusive w held → held halted.world = held playing.world) ∧
      booted.outcome = booting.outcome.map .returned ∧ booted.world = booting.world ∧
        callsOf booted.events = callsOf booting.events := by
  intro playing halted booting booted
  have hspends : Spends left s halted := patience.spends (makes_run polls bus setup) s
  have hplaying : Spends left s playing := patience.spends (makes_play bus setup .error) s
  have hwaits : (Usage.ofEvents halted.events).waits =
      List.replicate (Usage.ofEvents halted.events).waits.length 100 :=
    Usage.waits_eq fun c hc ms hms => by
      have hserves := (makes_run polls bus setup).calls w s c hc
      rw [hms] at hserves
      exact hserves.wait
  have hall (hcut : halted.outcome = .cutOff) :
      (Usage.ofEvents halted.events).waits = List.replicate (left s) 100 := by
    rcases hspends.outcome with ⟨_, hreturned⟩ | ⟨_, hspent⟩
    · exact absurd (hcut.symm.trans hreturned) nofun
    · rw [hwaits, hspends.waits, hspent, Nat.add_zero]
  have hleft := hplaying.waits
  rcases hplaying.outcome with ⟨result, hresult⟩ | ⟨hcutOff, hspent⟩
  · -- The waits that the playing left are fewer than the polls, so the last poll is cut off.
    obtain ⟨hevents, houtcome, hworld⟩ := halted_returned bus setup patience polls hresult
    obtain ⟨_, hparked⟩ := park_run (F := F) patience polls playing.world
    have hended := houtcome.trans hparked
    refine ⟨fun _ hreturned => ?_, fun deep => ?_, booted_run w bus setup polls s⟩
    · rw [hended] at hreturned
      split at hreturned <;> exact absurd hreturned nofun
    · have hdeep : left playing.world < polls := by omega
      rw [if_pos hdeep] at hended
      rw [Nat.min_eq_right (Nat.le_of_lt hdeep)] at hevents
      refine ⟨hended, hall hended, fun _ => ⟨result, hresult⟩, fun other hother => ?_,
        fun hnone => absurd hresult (hnone result), fun levels => ?_, fun held exclusive => ?_⟩
      · obtain rfl := Outcome.returned.inj (hresult.symm.trans hother)
        exact hevents
      · rw [hevents, Levels.afterAll_append,
          Levels.afterAll_undriven (undriven_haltedEvents bus.clock result _)]
      · rw [hworld]
        exact held_park exclusive polls playing.world
  · -- The playing was cut off, so it made all the waits that there were.
    obtain ⟨houtcome, hworld, hevents⟩ := halted_cutOff bus setup polls hcutOff
    refine ⟨fun _ hreturned => absurd (houtcome.symm.trans hreturned) nofun, fun _ => ?_,
      booted_run w bus setup polls s⟩
    refine ⟨houtcome, hall houtcome, fun hmore => ?_,
      fun _ hreturned => absurd (hcutOff.symm.trans hreturned) nofun, fun _ => hevents,
      fun levels => by rw [hevents], fun held _ => by rw [hworld]⟩
    rw [hleft, hspent] at hmore
    exact absurd hmore (Nat.lt_irrefl _)

/-- Someone else has the data line, so the command fails at once. All three waits that return are
made after that. -/
theorem run_parks_busy :
    let bus : Bus UInt8 := ⟨Bus.defaultClock, Bus.defaultData, Bus.defaultHalfPeriod⟩
    let w : World (.lines UInt8 Fault) (LineBench UInt8) := LineBench.world
    let s := (LineBench.fresh .quiet 3).hold bus.data
    let playing := (play bus .standard .error).run.run w s
    let halted := (run 4 .haltedError bus .standard).run w s
    Patience w LineBench.waitsLeft ∧ s.waitsLeft < 4 ∧
      playing.outcome = .returned (.error ⟨.acquire, .io .busy, none⟩) ∧
      halted.outcome = .cutOff ∧ (Usage.ofEvents halted.events).waits = [100, 100, 100] ∧
      halted.events =
        playing.events ++ haltedEvents (.error ⟨.acquire, .io .busy, none⟩) 3 := by
  intro bus w s playing halted
  have patience : Patience w LineBench.waitsLeft := LineBench.patience
  have hfailed : playing.outcome = .returned (.error ⟨.acquire, .io .busy, none⟩) := rfl
  obtain ⟨_, hdeep, _⟩ := run_parks bus .standard patience 4 s
  obtain ⟨hcutOff, hwaits, _, hevents, _⟩ := hdeep (by decide)
  exact ⟨patience, by decide, hfailed, hcutOff, hwaits, hevents _ hfailed⟩

end Command

end LedSequencer
