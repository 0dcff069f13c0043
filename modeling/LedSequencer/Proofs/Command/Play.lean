import LedSequencer.Proofs.Chip.Arrival
import LedSequencer.Proofs.Command.Success

/-! What has arrived at the chip when a tape plays. Main statement: when the command succeeds, the
last frames on the bus are the writes that set up the chip and upload the tape, whatever went wrong
in earlier attempts. -/
namespace LedSequencer

/-- The register writes that set up the chip: reset, enable, general settings, the start of engine
1, and the currents of the red, the green and the blue LEDs. -/
def Setup.writes (setup : Setup) : List (UInt8 × UInt8) :=
  [(0x3F, 0xFF), (0x00, 0x40), (0x2F, setup.misc), (0x4B, setup.engine1Start),
    (0x22, setup.red), (0x25, setup.red), (0x28, setup.red),
    (0x23, setup.green), (0x26, setup.green), (0x29, setup.green),
    (0x24, setup.blue), (0x27, setup.blue), (0x2A, setup.blue)]

def Page.writes (bytes : List UInt8) : List (UInt8 × UInt8) :=
  bytes.mapIdx fun offset byte => (0x50 + UInt8.ofNat offset, byte)

/-- The register writes that upload a tape: load mode, the mux page and the mux table, the program
page and the program, halt, run and free run. -/
def Tape.writes (tape : Tape) : List (UInt8 × UInt8) :=
  [(0x02, 0x54), (0x4F, 0x01)] ++ Page.writes tape.ledMux ++ [(0x4F, 0x00)] ++
    Page.writes Tape.playerCode ++ [(0x02, 0x00), (0x02, 0x80), (0x01, 0x80)]

theorem writes_accesses (setup : Setup) :
    setup.accesses.flatMap RegisterCall.writes = setup.writes := rfl

theorem writes_uploadAccesses (tape : Tape) :
    (uploadAccesses tape.ledMux Tape.playerCode).flatMap RegisterCall.writes = tape.writes := by
  have hload : Register.enginesLoad = 0x54 := rfl
  simp [uploadAccesses, RegisterCall.writes, Tape.writes, Page.writes, hload, Page.selector,
    Register.programMemory, Register.pageSelect, Register.engineControl1, Register.engineControl2,
    Register.enginesHalt, Register.engine1Run, Register.engine1FreeRun]

theorem Tape.length_writes (tape : Tape) : tape.writes.length = 70 := by
  simp [Tape.writes, Page.writes, Tape.length_ledMux, Tape.length_playerCode, Page.size]

namespace Command
open Routine

theorem ensures_adapt {L F ε τ : Type} {see : τ → Event (.lines L F) (Notice F) → τ}
    (act : Device.Action L F Unit) (f : Failure F → ε) (state : Option EngineStatus)
    (Q : Except ε Unit × Option EngineStatus → τ → Prop) (t : τ) :
    ((act.adapt f).run.run state).Ensures see Q t ↔
      (act.run.run state).Ensures see (fun ending t => Q (ending.1.mapError f, ending.2) t) t :=
  ensures_map _ _ _ _

variable {L F : Type} [DecidableEq L]

theorem bringUpFrom_arrives (device : Device L) (distinct : device.bus.clock ≠ device.bus.data)
    (setup : Setup) (more attempt : Nat) (state : Option EngineStatus) {tried : List Delivery}
    {wire : Wire} (hwire : wire.Delivered tried)
    (htried : ∀ d ∈ tried, d.bytes ∈ device.payloads setup.accesses) :
    ((bringUpFrom device setup attempt more : Device.Action L F Unit).run.run state).Ensures
      (Wire.next device.bus.clock) (fun ending wire => ∃ tried : List Delivery,
        (∀ d ∈ tried, d.bytes ∈ device.payloads setup.accesses) ∧
          Arrives tried (device.payloads setup.accesses) ending.1 wire) wire := by
  have hsends := device.sends_bringUp (F := F) distinct setup
  -- By induction on the attempts left: what a failed attempt sent counts as tried.
  induction more generalizing attempt state tried wire with
  | zero =>
    exact ((hsends.reporting (.initFailed attempt)) state tried wire hwire).mono
      fun ending wire harrives => ⟨tried, htried, harrives⟩
  | succ more ih =>
    rw [bringUpFrom, ExceptT.run_tryCatch, StateT.run_bind, ensures_bind]
    refine (hsends.reporting (.attemptFailed attempt attempts) state tried wire hwire).mono ?_
    intro (result, state) wire harrives
    cases result with
    | ok => exact ⟨tried, htried, harrives⟩
    | error failure =>
      obtain ⟨rest, hrest, hparts, _⟩ := harrives
      have hwait : wire.next device.bus.clock
          (.called (.wait retryDelay) () : Event (.lines L F) (Notice F)) = wire :=
        Wire.next_eq_self wire rfl
      rintro ⟨⟩
      rw [hwait]
      refine ih (attempt + 1) state hrest ?_
      intro d hd
      exact (List.mem_append.1 hd).elim (hparts d) (htried d)

/-- What was tried before the chip came up, and nothing but complete writes from there on. -/
def CameUp (address : UInt8) (setup : Setup) (writes : List (UInt8 × UInt8)) (wire : Wire) : Prop :=
  ∃ tried : List Delivery, (∀ d ∈ tried, d.bytes ∈ setup.writes.map (payload address)) ∧
    wire.Delivered (delivered ((setup.writes ++ writes).map (payload address)) ++ tried)

theorem bringUpAndPlay_arrives (device : Device L) (distinct : device.bus.clock ≠ device.bus.data)
    (setup : Setup) (tape : Tape) (state : Option EngineStatus) (levels : Levels) :
    ((bringUpAndPlay device setup tape : ExceptT (Phase × Failure F) (StateT (Option EngineStatus)
      (Routine (.lines L F) (Notice F))) Unit).run.run state).Ensures (Wire.next device.bus.clock)
        (fun ending wire => ending.1 = .ok () → CameUp device.address setup tape.writes wire)
        ⟨levels, []⟩ := by
  rw [bringUpAndPlay, ExceptT.run_bind, StateT.run_bind, ensures_bind]
  have hnothing : Wire.Delivered ⟨levels, []⟩ [] := .nil levels
  have hup := bringUpFrom_arrives (F := F) device distinct setup (attempts - 1) 1 state
    hnothing nofun
  refine (ensures_adapt _ _ _ _ _).2 (hup.mono fun (result, state) wire => ?_)
  rintro ⟨tried, htried, harrives⟩
  cases result with
  | error failure => exact nofun
  | ok =>
    refine (ensures_adapt _ _ _ _ _).2 ((device.sends_play (F := F) distinct tape state _ wire
      harrives.delivered).mono fun (result, state) wire hplayed => ?_)
    cases result with
    | error failure => exact nofun
    | ok =>
      intro _
      rw [Device.payloads, writes_accesses] at htried
      refine ⟨tried, htried, ?_⟩
      have hwire := hplayed.behind.delivered
      rw [Device.payloads, Device.payloads, writes_accesses, writes_uploadAccesses,
        ← List.map_append] at hwire
      exact hwire

theorem play_arrives (bus : Bus L) (distinct : bus.clock ≠ bus.data) (setup : Setup) (tape : Tape)
    (levels : Levels) :
    (play bus setup tape : ExceptT (CommandFailure F) (Routine (.lines L F) (Notice F))
      Unit).run.Ensures (Wire.next bus.clock)
        (fun result wire => result = .ok () → CameUp Device.chipAddress setup tape.writes wire)
        ⟨levels, []⟩ := by
  -- Taking the bus and giving it up moves nothing, so what arrived is what the chip was sent.
  rw [play, ensures_run_bind, ensures_run_adapt]
  refine (bus.acquire_wave).mono ?_
  intro acquired wire hwire
  obtain rfl := hwire
  cases acquired with
  | error failure => exact nofun
  | ok =>
    dsimp only [Except.mapError]
    rw [ensures_run_bind, ensures_run_lift]
    refine (bringUpAndPlay_arrives ⟨bus, Device.chipAddress⟩ distinct setup tape none levels).mono
      fun (result, state) wire hplayed => ?_
    dsimp only
    rw [ensures_run_bind, ensures_run_lift]
    refine (bus.release_wave).mono ?_
    intro teardown after hafter
    obtain rfl := hafter
    rcases result with ⟨phase, failure⟩ | ⟨⟨⟩⟩
    · cases teardown with
      | ok => exact nofun
      | error second => exact (ensures_reporting _ _ _ _).2 nofun
    · cases teardown with
      | ok => exact fun _ => hplayed rfl
      | error second => exact nofun

/-- If the command succeeds the last 83 frames on the bus are complete: they are the register writes
that set up the chip and upload the tape. All frames before them hold no more than parts of writes
that set up the chip. -/
theorem play_frames (bus : Bus L) (distinct : bus.clock ≠ bus.data) (setup : Setup) (tape : Tape)
    {σ : Type} (w : World (.lines L F) σ) (s : σ) (levels : Levels)
    (success : ((play bus setup tape).run.run w s).outcome = .returned (.ok ())) :
    ∃ earlier last : List Frame,
      framesOf (waveform bus.clock levels ((play bus setup tape).run.run w s).events) =
        earlier ++ last ∧
      last.length = 83 ∧ (∀ frame ∈ last, frame.closed = true) ∧
      last.map Frame.bytes = (setup.writes ++ tape.writes).map (fun (r, v) => [0x64, r, v]) ∧
      ∀ frame ∈ earlier, ∃ r v, (r, v) ∈ setup.writes ∧ frame.bytes <+: [0x64, r, v] := by
  have harrived := (play_arrives bus distinct setup tape levels).returned w success rfl
  rw [Wire.foldl_next, List.nil_append] at harrived
  obtain ⟨tried, htried, hwire⟩ := harrived
  have hframes : List.Forall₂ Frame.Delivers
      (framesOf (waveform bus.clock levels ((play bus setup tape).run.run w s).events)) _ :=
    List.rel_reverse hwire.delivers
  rw [List.reverse_append, delivered, List.reverse_reverse] at hframes
  -- The frames of what was tried come first, then the successful attempt and the upload.
  have hlast := List.forall₂_drop_append _ _ _ hframes
  have hearlier := List.forall₂_take_append _ _ _ hframes
  obtain ⟨hclosed, hbytes⟩ := complete_of_delivers (List.forall₂_map_right_iff.1 hlast)
  refine ⟨_, _, (List.take_append_drop tried.reverse.length _).symm, ?_, hclosed, hbytes, ?_⟩
  · have hlength := congrArg List.length hbytes
    rw [List.length_map, List.length_map, List.length_append, Tape.length_writes] at hlength
    exact hlength
  · intro frame hframe
    obtain ⟨d, hd, hbytes⟩ := mem_of_delivers hearlier hframe
    obtain ⟨⟨r, v⟩, hw, hpayload⟩ := List.mem_map.1 (htried d (List.mem_reverse.1 hd))
    rw [← hpayload] at hbytes
    exact ⟨r, v, hw, hbytes⟩

/-- Both lines are low at first. -/
theorem play_frames_steady :
    let bus : Bus UInt8 := ⟨Bus.defaultClock, Bus.defaultData, Bus.defaultHalfPeriod⟩
    let command : ExceptT (CommandFailure Unit) (Routine (.lines UInt8 Unit) (Notice Unit)) Unit :=
      play bus .standard .boot
    bus.clock ≠ bus.data ∧
      (command.run.run (.answering (steadyLines fun _ => 0)) 0).outcome = .returned (.ok ()) ∧
      ∃ earlier last : List Frame,
        framesOf (waveform bus.clock ⟨false, false⟩
          (command.run.run (.answering (steadyLines fun _ => 0)) 0).events) = earlier ++ last ∧
        last.length = 83 ∧ (∀ frame ∈ last, frame.closed = true) ∧
        last.map Frame.bytes =
          (Setup.standard.writes ++ Tape.boot.writes).map (fun (r, v) => [0x64, r, v]) ∧
        ∀ frame ∈ earlier, ∃ r v, (r, v) ∈ Setup.standard.writes ∧
          frame.bytes <+: [0x64, r, v] := by
  intro bus command
  have distinct : bus.clock ≠ bus.data := by decide
  have success := play_steady (L := UInt8) (F := Unit) bus .standard .boot 0
  exact ⟨distinct, success, play_frames bus distinct .standard .boot _ 0 ⟨false, false⟩ success⟩

end Command

end LedSequencer
