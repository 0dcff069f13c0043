import LedSequencer.Proofs.Command.Holding
import LedSequencer.Proofs.Command.Play
import LedSequencer.Proofs.Command.Retries

/-! Commands after whatever came before. Main statement: on lines without faults a command succeeds
at once and its frames are the same from all levels that an earlier command can leave behind, however
that one ended. -/
namespace LedSequencer

section Frames

theorem foldl_send_idle (payloads : List (List UInt8)) (edges : List Edge) :
    payloads.foldl Wire.send ⟨.idle, edges⟩ = ⟨.idle, edges ++ payloads.flatMap frameEdges⟩ := by
  induction payloads generalizing edges with
  | nil => rw [List.flatMap_nil, List.append_nil]; rfl
  | cons bytes payloads ih =>
    have hsend : Wire.send ⟨.idle, edges⟩ bytes = ⟨.idle, edges ++ frameEdges bytes⟩ := rfl
    rw [List.foldl_cons, hsend, ih, List.flatMap_cons, List.append_assoc]

/-- The levels before some frames show in nothing but the edges ahead of the first one. -/
theorem foldl_send {payloads : List (List UInt8)} (h : payloads ≠ []) (levels : Levels) :
    payloads.foldl Wire.send ⟨levels, []⟩ =
      ⟨.idle, levels.leadIn ++ payloads.flatMap frameEdges⟩ := by
  cases payloads with
  | nil => contradiction
  | cons bytes payloads =>
    have hsend : Wire.send ⟨levels, []⟩ bytes = ⟨.idle, levels.leadIn ++ frameEdges bytes⟩ := rfl
    rw [List.foldl_cons, hsend, foldl_send_idle, List.flatMap_cons, List.append_assoc]

theorem not_mem_leadIn (levels : Levels) : Edge.start ∉ levels.leadIn := by
  obtain ⟨clock, data⟩ := levels
  cases clock <;> cases data <;> simp [Levels.leadIn]

/-- What comes ahead of every start condition is in no frame. -/
theorem framesOf_leadIn (levels : Levels) (edges : List Edge) :
    framesOf (levels.leadIn ++ edges) = framesOf edges := by
  have hframes := drop_framesOf_append levels.leadIn edges
  rwa [List.count_eq_zero_of_not_mem (not_mem_leadIn levels), List.drop_zero] at hframes

theorem framesOf_frameEdges (payloads : List (List UInt8)) :
    framesOf (payloads.flatMap frameEdges) =
      payloads.map fun bytes => ⟨Bus.frameBits bytes ++ [false], true⟩ := by
  -- The receiver has the latest frame first, so the frames are added in front of earlier ones.
  have hreceive (frames : List Frame) : (payloads.flatMap frameEdges).foldl receive frames =
      (payloads.map fun bytes => ⟨Bus.frameBits bytes ++ [false], true⟩).reverse ++ frames := by
    induction payloads generalizing frames with
    | nil => rfl
    | cons bytes payloads ih =>
      have hframe : (frameEdges bytes).foldl receive frames =
          ⟨Bus.frameBits bytes ++ [false], true⟩ :: frames :=
        foldl_receive_frame [] _ _ frames
      rw [List.flatMap_cons, List.foldl_append, hframe, ih, List.map_cons, List.reverse_cons,
        List.append_assoc]
      rfl
  rw [framesOf, hreceive, List.append_nil, List.reverse_reverse]

end Frames

section Ownership
open Routine

variable {L F σ : Type} {w : World (.lines L F) σ} {s s' : σ} {line : L}

theorem Bus.takeLine_returns (h : w (.request line) s = some (.ok (), s')) :
    (takeLine line : Action L F Unit).run.Returns w s (.ok ()) s'
      [.called (.request line) (.ok ())] :=
  (returns_call h).bind (returns_done _)

theorem Bus.freeLine_returns (h : w (.release line) s = some (.ok (), s')) :
    (freeLine line : Action L F Unit).run.Returns w s (.ok ()) s'
      [.called (.release line) (.ok ())] :=
  (returns_call h).bind (returns_done _)

end Ownership

variable {L F σ : Type} [DecidableEq L]

/-- Lines without faults that show nothing but the level 0. Of the lines that are held none can be
taken, and the others cannot be given up. -/
structure Faultless (w : World (.lines L F) σ) (held : σ → List L) : Prop extends w.Obliging where
  exclusive : Exclusive w held
  request (line : L) (s : σ) (h : line ∉ held s) : ∃ s', w (.request line) s = some (.ok (), s')
  release (line : L) (s : σ) (h : line ∈ held s) : ∃ s', w (.release line) s = some (.ok (), s')

theorem exclusiveLines_faultless :
    Faultless (.answering (exclusiveLines []) : World (.lines L Unit) (List L × Nat)) Prod.fst where
  drive _ _ s := ⟨(s.1, s.2 + 1), rfl⟩
  sample _ s := ⟨(s.1, s.2 + 1), rfl⟩
  settle _ s := ⟨s, rfl⟩
  exclusive := exclusiveLines_exclusive []
  request line s h := by
    refine ⟨(s.1 ++ [line], s.2 + 1), congrArg some ?_⟩
    exact if_neg (not_or_intro List.not_mem_nil h)
  release line s h := by
    refine ⟨(s.1.filter (· ≠ line), s.2 + 1), congrArg some ?_⟩
    exact if_pos ⟨List.not_mem_nil, h⟩

def Still (clock : L) (events : List (Event (.lines L F) (Notice F))) : Prop :=
  Unretried events ∧ ∀ wire : Wire, events.foldl (Wire.next clock) wire = wire

namespace Bus
open Routine

variable {w : World (.lines L F) σ} {held : σ → List L} {bus : Bus L} {s : σ}

theorem still_of_returns {clock : L} {act : Action L F Unit} (hconfined : Confined act)
    (hwave : ∀ wire : Wire, act.run.Ensures (Wire.next clock) (fun _ after => after = wire) wire)
    {result : Except (Failure F) Unit} {s' : σ} {events : List (Event (.lines L F) (Notice F))}
    (h : act.run.Returns w s result s' events) : Still clock events := by
  obtain ⟨hquiet, _⟩ := (hconfined [] nofun).recorded w h.outcome
  have hsame (wire : Wire) := (hwave wire).returned w h.outcome
  rw [h.events] at hquiet hsame
  exact ⟨hquiet, hsame⟩

/-- A free bus can be taken. -/
theorem acquire_faultless (hw : Faultless w held) (distinct : bus.clock ≠ bus.data)
    (hclock : bus.clock ∉ held s) (hdata : bus.data ∉ held s) :
    ∃ s' events, held s' = held s ++ [bus.clock, bus.data] ∧
      (bus.acquire : Action L F Unit).run.Returns w s (.ok ()) s' events ∧
      Still bus.clock events := by
  obtain ⟨s₁, hfirst⟩ := hw.request bus.clock s hclock
  obtain ⟨_, hheld₁⟩ := heldAfter?_request.1 (hw.exclusive _ _ _ _ hfirst)
  have hdata₁ : bus.data ∉ held s₁ := by
    rw [hheld₁, List.mem_append, List.mem_singleton]
    exact not_or_intro hdata distinct.symm
  obtain ⟨s₂, hsecond⟩ := hw.request bus.data s₁ hdata₁
  obtain ⟨_, hheld₂⟩ := heldAfter?_request.1 (hw.exclusive _ _ _ _ hsecond)
  have htakeClock := (takeLine_returns hfirst).reporting fun _ => Notice.requestFailed true
  have htakeData := (takeLine_returns hsecond).reporting fun _ => Notice.requestFailed false
  have hacquire : (bus.acquire : Action L F Unit).run.Returns w s (.ok ()) s₂ _ :=
    htakeClock.andThen ((htakeData.tryCatch _).andThen (returns_journal _))
  refine ⟨s₂, _, ?_, hacquire, still_of_returns bus.acquire_confined
    (fun wire => bus.acquire_wave) hacquire⟩
  rw [hheld₂, hheld₁, List.append_assoc]
  rfl

/-- A bus that is held can be given up. -/
theorem release_faultless (hw : Faultless w held) (distinct : bus.clock ≠ bus.data)
    {others : List L} (hclock : bus.clock ∉ others) (hdata : bus.data ∉ others)
    (hheld : held s = others ++ [bus.clock, bus.data]) :
    ∃ s' events, held s' = others ∧
      (bus.release : Action L F Unit).run.Returns w s (.ok ()) s' events ∧
      Still bus.clock events := by
  obtain ⟨s₁, hfirst⟩ := hw.release bus.clock s (by simp [hheld])
  have hheld₁ := hw.exclusive _ _ _ _ hfirst
  rw [hheld, heldAfter?_release hclock [bus.data] (by simpa using distinct)] at hheld₁
  replace hheld₁ : others ++ [bus.data] = held s₁ := Option.some.inj hheld₁
  obtain ⟨s₂, hsecond⟩ := hw.release bus.data s₁ (by simp [← hheld₁])
  have hheld₂ := hw.exclusive _ _ _ _ hsecond
  rw [← hheld₁, heldAfter?_release hdata [] (by simp), List.append_nil] at hheld₂
  have hfreeClock := (freeLine_returns hfirst).reporting fun _ => Notice.freeFailed true
  have hfreeData := (freeLine_returns hsecond).reporting fun _ => Notice.freeFailed false
  have hrelease : (bus.release : Action L F Unit).run.Returns w s (.ok ()) s₂ _ :=
    hfreeClock.bind (hfreeData.bind (returns_done _))
  exact ⟨s₂, _, (Option.some.inj hheld₂).symm, hrelease, still_of_returns bus.release_confined
    (fun wire => bus.release_wave) hrelease⟩

end Bus

namespace Command
open Routine

variable {answer : (c : LineCall L) → σ → c.Reply F × σ} {held : σ → List L}

/-- The work of a command on lines that oblige: the first attempt is enough, and all that goes out
are the writes of the setup and of the tape. -/
theorem bringUpAndPlay_obliging (hw : (World.answering answer : World (.lines L F) σ).Obliging)
    (device : Device L) (distinct : device.bus.clock ≠ device.bus.data) (setup : Setup)
    (tape : Tape) (s : σ) :
    ∃ after s' events,
      ((bringUpAndPlay device setup tape : ExceptT (Phase × Failure F) (StateT (Option EngineStatus)
        (Routine (.lines L F) (Notice F))) Unit).run.run none).Returns (.answering answer) s
          (.ok (), after) s' events ∧
      Unretried events ∧
      ∀ wire : Wire, events.foldl (Wire.next device.bus.clock) wire =
        ((setup.writes ++ tape.writes).map (payload device.address)).foldl Wire.send wire := by
  have hattempt (a : Attempt σ) : ∃ known,
      (attempt device setup (.answering answer) a).outcome = .returned (.ok (), known) := by
    obtain ⟨known, hup⟩ := device.bringUp_succeeds (F := F) hw setup a.known
    exact ⟨known, hup a.world⟩
  obtain ⟨tried, last, brought, known, result, after, s', events, htries, _, _, hlast, hwork,
    hcase⟩ := bringUpAndPlay_returns device setup answer tape ⟨none, s⟩
  -- No attempt fails, so there was only one.
  cases htries with
  | again failed =>
    obtain ⟨known, hsucceeds⟩ := hattempt ⟨none, s⟩
    exact absurd (hsucceeds.symm.trans failed) nofun
  | last =>
    obtain ⟨known', hsucceeds⟩ := hattempt ⟨none, s⟩
    obtain ⟨rfl, rfl⟩ := Prod.mk.inj (Outcome.returned.inj (hlast.symm.trans hsucceeds))
    obtain ⟨uploaded, huploaded, rfl, rfl⟩ := hcase
    obtain ⟨after', hplay⟩ := device.play_succeeds (F := F) hw tape known
    obtain ⟨rfl, rfl⟩ := Prod.mk.inj (Outcome.returned.inj (huploaded.symm.trans (hplay _)))
    obtain ⟨_, _, _, hquietUp⟩ := attempt_returned device setup answer ⟨none, s⟩
    obtain ⟨_, _, _, hquietPlay⟩ :=
      uploading_returned device setup answer tape ⟨none, s⟩ known
    rw [triedEvents, List.nil_append] at hwork
    refine ⟨after, s', _, hwork, unretried_append.2 ⟨hquietUp, hquietPlay⟩, fun wire => ?_⟩
    have hup := (device.perform_ships distinct (Chip.goes_bringUp setup) none wire).returned _ hlast
    have hupload := (device.perform_ships distinct (Chip.goes_play tape.all_index) known
      ((attempt device setup (.answering answer) ⟨none, s⟩).events.foldl
        (Wire.next device.bus.clock) wire)).returned _ huploaded
    have hsent := (hup.append hupload).sends rfl
    rw [Operation.accesses_bringUpMoves, Operation.accesses_uploadMoves, Device.payloads,
      Device.payloads, writes_accesses, writes_uploadAccesses, ← List.map_append] at hsent
    refine Eq.trans ?_ hsent
    exact List.foldl_append

/-- The work of a command takes and gives up no line. -/
theorem held_bringUpAndPlay (exclusive : Exclusive (.answering answer) held) (device : Device L)
    (setup : Setup) (tape : Tape) {s s' : σ} {result : Except (Phase × Failure F) Unit}
    {after : Option EngineStatus} {events : List (Event (.lines L F) (Notice F))}
    (h : ((bringUpAndPlay device setup tape).run.run none).Returns (.answering answer) s
      (result, after) s' events) : held s' = held s := by
  have hworks := (makes_bringUpAndPlay (F := F) device setup tape none).adds []
  obtain ⟨more, hmore, hall⟩ := hworks.recorded _ h.outcome
  have hcalls : callsOf ((((bringUpAndPlay device setup tape).run.run none).run (.answering answer)
      s).events) = callsOf more := congrArg callsOf hmore
  have hquiet : ∀ call ∈ callsOf more, call.1.isClaim = false := fun call hcall =>
    (hall call hcall).not_isClaim
  have hheld := exclusive.run ((bringUpAndPlay device setup tape).run.run none) s
  rw [hcalls, h.world] at hheld
  exact (Option.some.inj ((heldAfterAll?_of_not_isClaim hquiet _).symm.trans hheld)).symm

/-- On lines without faults a command whose lines are free succeeds at once and leaves them free. -/
theorem play_faultless (faultless : Faultless (.answering answer) held) {bus : Bus L}
    (distinct : bus.clock ≠ bus.data) (setup : Setup) (tape : Tape) {s : σ}
    (hclock : bus.clock ∉ held s) (hdata : bus.data ∉ held s) :
    ∃ s' events, (play bus setup tape : ExceptT (CommandFailure F)
        (Routine (.lines L F) (Notice F)) Unit).run.Returns (.answering answer) s (.ok ()) s' events ∧
      held s' = held s ∧ Unretried events ∧
      ∀ wire : Wire, events.foldl (Wire.next bus.clock) wire =
        ((setup.writes ++ tape.writes).map (payload Device.chipAddress)).foldl Wire.send wire := by
  obtain ⟨s₁, taking, hheld₁, hacquire, htaking⟩ :=
    Bus.acquire_faultless faultless distinct hclock hdata
  obtain ⟨after, s₂, work, hwork, hquiet, hwire⟩ := bringUpAndPlay_obliging
    faultless.toObliging ⟨bus, Device.chipAddress⟩ distinct setup tape s₁
  have hheld₂ : held s₂ = held s ++ [bus.clock, bus.data] :=
    (held_bringUpAndPlay faultless.exclusive _ setup tape hwork).trans hheld₁
  obtain ⟨s₃, giving, hheld₃, hrelease, hgiving⟩ :=
    Bus.release_faultless faultless distinct hclock hdata hheld₂
  refine ⟨s₃, taking ++ (work ++ (giving ++ [])), ?_, hheld₃, ?_, ?_⟩
  · rw [play_run]
    exact hacquire.bind (hwork.bind (hrelease.bind (returns_done _)))
  · rw [List.append_nil, unretried_append, unretried_append]
    exact ⟨htaking.1, hquiet, hgiving.1⟩
  · intro wire
    rw [List.append_nil, List.foldl_append, List.foldl_append, htaking.2, hgiving.2]
    exact hwire wire

/-- The waveform of a command on lines without faults. -/
theorem play_faultless_wave (faultless : Faultless (.answering answer) held) {bus : Bus L}
    (distinct : bus.clock ≠ bus.data) (setup : Setup) (tape : Tape) {s : σ}
    (hclock : bus.clock ∉ held s) (hdata : bus.data ∉ held s) (levels : Levels) :
    let played := (play bus setup tape : ExceptT (CommandFailure F)
      (Routine (.lines L F) (Notice F)) Unit).run.run (.answering answer) s
    played.outcome = .returned (.ok ()) ∧ (Usage.ofEvents played.events).waits = [] ∧
      held played.world = held s ∧ levels.afterAll bus.clock played.events = .idle ∧
      waveform bus.clock levels played.events = levels.leadIn ++
        ((setup.writes ++ tape.writes).map (payload Device.chipAddress)).flatMap frameEdges := by
  intro played
  obtain ⟨s', events, hplayed, hheld, hquiet, hwire⟩ :=
    play_faultless faultless distinct setup tape hclock hdata
  have hsome : (setup.writes ++ tape.writes).map (payload Device.chipAddress) ≠ [] :=
    List.cons_ne_nil _ _
  have hwave := hwire ⟨levels, []⟩
  rw [foldl_send hsome, Wire.foldl_next, List.nil_append] at hwave
  obtain ⟨hlevels, hedges⟩ := Wire.mk.inj hwave
  have hevents : played.events = events := hplayed.events
  have hworld : played.world = s' := hplayed.world
  rw [hevents, hworld]
  exact ⟨hplayed.outcome, hquiet.quiet.1, hheld, hlevels, hedges⟩

/-- A command on lines without faults, after some other command on the same lines that was run in
any world and from any levels, and behind which neither line is held. It succeeds without a wait, the
lines are free again and both high, and a receiver that listened all the time takes in 83 closed
frames from it, the writes of its setup and its tape. They are the same as from idle lines, where the
waveform is the same but for edges ahead of the first start condition. -/
theorem play_recovers (bus : Bus L) (distinct : bus.clock ≠ bus.data) (setup : Setup) (tape : Tape)
    (faultless : Faultless (.answering answer) held) (period : UInt32) (setup' : Setup)
    (tape' : Tape) (w' : World (.lines L F) σ) (s : σ) (levels : Levels) :
    let before := (play { bus with halfPeriod := period } setup' tape').run.run w' s
    bus.clock ∉ held before.world → bus.data ∉ held before.world →
    let earlier := waveform bus.clock levels before.events
    let left := levels.afterAll bus.clock before.events
    let played := (play bus setup tape).run.run (.answering answer) before.world
    let wave := waveform bus.clock left played.events
    let frames := framesOpened earlier wave (earlier ++ wave)
    played.outcome = .returned (.ok ()) ∧ (Usage.ofEvents played.events).waits = [] ∧
      held played.world = held before.world ∧ left.afterAll bus.clock played.events = .idle ∧
      frames.length = 83 ∧ (∀ frame ∈ frames, frame.closed = true) ∧
      frames.map Frame.bytes = (setup.writes ++ tape.writes).map (fun (r, v) => [0x64, r, v]) ∧
      ∀ fresh, bus.clock ∉ held fresh → bus.data ∉ held fresh →
        let idle := waveform bus.clock .idle
          ((play bus setup tape).run.run (.answering answer) fresh).events
        framesOf idle = frames ∧ ∃ lead, .start ∉ lead ∧ wave = lead ++ idle := by
  intro before hclock hdata earlier left played wave frames
  obtain ⟨hreturned, hwaits, hheld, hlevels, hwave⟩ :=
    play_faultless_wave faultless distinct setup tape hclock hdata left
  replace hwave : wave = _ := hwave
  -- The frames that the command opens do not depend on what the receiver took in before.
  have hframes : frames = ((setup.writes ++ tape.writes).map (payload Device.chipAddress)).map
      fun bytes => ⟨Bus.frameBits bytes ++ [false], true⟩ := by
    calc frames = (framesOf wave).take (wave.count .start) := by
          rw [← drop_framesOf_append earlier wave]
          rfl
      _ = framesOf wave := by rw [← length_framesOf, List.take_length]
      _ = _ := by rw [hwave, framesOf_leadIn, framesOf_frameEdges]
  have hbytes : frames.map Frame.bytes =
      (setup.writes ++ tape.writes).map (payload Device.chipAddress) := by
    rw [hframes, List.map_map]
    have hone (bytes : List UInt8) :
        Frame.bytes ⟨Bus.frameBits bytes ++ [false], true⟩ = bytes :=
      Bus.bytesOf_frameBits_append bytes false
    exact (List.map_congr_left fun bytes _ => hone bytes).trans (List.map_id _)
  refine ⟨hreturned, hwaits, hheld, hlevels, ?_, ?_, hbytes, ?_⟩
  · rw [hframes, List.length_map, List.length_map, List.length_append, Tape.length_writes]
    rfl
  · intro frame hframe
    rw [hframes] at hframe
    obtain ⟨bytes, _, rfl⟩ := List.mem_map.1 hframe
    rfl
  · intro fresh hfreeClock hfreeData idle
    obtain ⟨_, _, _, _, hidle⟩ :=
      play_faultless_wave faultless distinct setup tape hfreeClock hfreeData .idle
    replace hidle : idle = _ := hidle
    have hnone : Levels.idle.leadIn = [] := rfl
    refine ⟨?_, left.leadIn, not_mem_leadIn left, ?_⟩
    · rw [hidle, framesOf_leadIn, framesOf_frameEdges, hframes]
    · rw [hwave, hidle, hnone, List.nil_append]

/-- All outputs of the earlier command fault from within its first byte on, which leaves an open frame
behind and the clock low. -/
theorem play_recovers_broken :
    let bus : Bus UInt8 := ⟨Bus.defaultClock, Bus.defaultData, Bus.defaultHalfPeriod⟩
    let before := (play { bus with halfPeriod := 50 } .standard .error).run.run
      (.answering (exclusiveLines (List.range' 21 16))) ([], 0)
    let earlier := waveform bus.clock .idle before.events
    let left := Levels.idle.afterAll bus.clock before.events
    let played := (play bus .standard .boot).run.run (.answering (exclusiveLines [])) before.world
    let wave := waveform bus.clock left played.events
    let frames := framesOpened earlier wave (earlier ++ wave)
    bus.clock ≠ bus.data ∧
    Faultless (.answering (exclusiveLines []) : World (.lines UInt8 Unit) (List UInt8 × Nat))
      Prod.fst ∧
    before.world.1 = [] ∧ left.clock = false ∧ (framesOf earlier).map Frame.closed = [false] ∧
    played.outcome = .returned (.ok ()) ∧
    frames.map Frame.bytes =
      (Setup.standard.writes ++ Tape.boot.writes).map fun (r, v) => [0x64, r, v] := by
  obtain ⟨hreturned, _, _, _, _, _, hframes, _⟩ := play_recovers
    ⟨Bus.defaultClock, Bus.defaultData, Bus.defaultHalfPeriod⟩ (by decide) .standard .boot
    exclusiveLines_faultless 50 .standard .error
    (.answering (exclusiveLines (List.range' 21 16))) ([], 0) .idle
    (by decide +kernel) (by decide +kernel)
  exact ⟨by decide, exclusiveLines_faultless, by decide +kernel, by decide +kernel,
    by decide +kernel, hreturned, hframes⟩

end Command

end LedSequencer
