import LedSequencer.Proofs.Chip.Cut
import LedSequencer.Proofs.Chip.Memory
import Mathlib.Data.List.Induction

/-! What the chip is set up with, from the settings that were made to the registers that hold them.
Main statement: after the chip came up, its registers hold what was asked for last, property by
property, and the properties that share a byte can be told apart. -/
namespace LedSequencer

inductive Setup.Property where
  | red
  | green
  | blue
  | internalOscillator
  | pumpMode
  | powerSave
  | autoIncrement
  | engine1Start
  deriving DecidableEq

abbrev Setup.Property.Value : Setup.Property → Type
  | .red | .green | .blue | .engine1Start => UInt8
  | .internalOscillator | .powerSave | .autoIncrement => Bool
  | .pumpMode => PumpMode

namespace Setting

def value? : Setting → (p : Setup.Property) → Option p.Value
  | .red current, .red => some current
  | .green current, .green => some current
  | .blue current, .blue => some current
  | .internalOscillator on, .internalOscillator => some on
  | .pumpMode mode, .pumpMode => some mode
  | .powerSave on, .powerSave => some on
  | .autoIncrement on, .autoIncrement => some on
  | .engine1Start address, .engine1Start => some address
  | _, _ => none

def last? (settings : List Setting) (p : Setup.Property) : Option p.Value :=
  (settings.filterMap fun setting => setting.value? p).getLast?

theorem last?_snoc (settings : List Setting) (setting : Setting) (p : Setup.Property) :
    last? (settings ++ [setting]) p = (setting.value? p).or (last? settings p) := by
  rw [last?, List.filterMap_append]
  cases h : setting.value? p with
  | none => simp [h, last?]
  | some value => simp [h]

end Setting

namespace Setup

def get (setup : Setup) : (p : Property) → p.Value
  | .red => setup.red
  | .green => setup.green
  | .blue => setup.blue
  | .internalOscillator => setup.internalOscillator
  | .pumpMode => setup.pumpMode
  | .powerSave => setup.powerSave
  | .autoIncrement => setup.autoIncrement
  | .engine1Start => setup.engine1Start

/-- A setup is known by its properties. -/
theorem eq_of_get {a b : Setup} (h : ∀ p, a.get p = b.get p) : a = b := by
  have hred : a.red = b.red := h .red
  have hgreen : a.green = b.green := h .green
  have hblue : a.blue = b.blue := h .blue
  have hoscillator : a.internalOscillator = b.internalOscillator := h .internalOscillator
  have hpump : a.pumpMode = b.pumpMode := h .pumpMode
  have hsave : a.powerSave = b.powerSave := h .powerSave
  have hincrement : a.autoIncrement = b.autoIncrement := h .autoIncrement
  have hstart : a.engine1Start = b.engine1Start := h .engine1Start
  cases a
  cases b
  simp_all

/-- A setting changes the property that it is about and no other. -/
theorem get_set (setup : Setup) (setting : Setting) (p : Property) :
    (setup.set setting).get p = (setting.value? p).getD (setup.get p) := by
  cases setting <;> cases p <;> rfl

/-- Every property is what was asked for last. -/
theorem get_ofSettings (settings : List Setting) (p : Property) :
    (ofSettings settings).get p = (Setting.last? settings p).getD (standard.get p) := by
  -- The last setting is the one that decides, so the induction is from the end.
  induction settings using List.reverseRecOn with
  | nil => rfl
  | append_singleton settings setting ih =>
    have hset : ofSettings (settings ++ [setting]) = (ofSettings settings).set setting :=
      List.foldl_append
    rw [hset, get_set, ih, Setting.last?_snoc]
    cases setting.value? p <;> rfl

/-- Settings that agree on what they ask for last make the same setup. -/
theorem ofSettings_congr {a b : List Setting} (h : ∀ p, Setting.last? a p = Setting.last? b p) :
    ofSettings a = ofSettings b :=
  eq_of_get fun p => by rw [get_ofSettings, get_ofSettings, h p]

/-- What can be read back from the byte of the general settings: the oscillator from bit 0, the pump
mode from bits 3 and 4, the power save mode from bit 5 and the automatic increment from bit 6. All
other bits are 0. -/
structure Shows (byte : UInt8) (oscillator : Bool) (mode : PumpMode) (save increment : Bool) :
    Prop where
  oscillator : byte &&& 0x01 ≠ 0 ↔ oscillator = true
  mode : ∀ other : PumpMode, (byte >>> 3) &&& 0x03 = other.selector ↔ other = mode
  save : byte &&& 0x20 ≠ 0 ↔ save = true
  increment : byte &&& 0x40 ≠ 0 ↔ increment = true
  reserved : byte &&& 0x86 = 0

theorem misc_shows (setup : Setup) :
    Shows setup.misc setup.internalOscillator setup.pumpMode setup.powerSave
      setup.autoIncrement := by
  unfold misc
  generalize setup.internalOscillator = oscillator, setup.pumpMode = mode,
    setup.powerSave = save, setup.autoIncrement = increment
  constructor
  · cases oscillator <;> cases mode <;> cases save <;> cases increment <;> decide
  · intro other
    cases other <;> cases oscillator <;> cases mode <;> cases save <;> cases increment <;> decide
  · cases oscillator <;> cases mode <;> cases save <;> cases increment <;> decide
  · cases oscillator <;> cases mode <;> cases save <;> cases increment <;> decide
  · cases oscillator <;> cases mode <;> cases save <;> cases increment <;> decide

end Setup

namespace Chip
open Routine

variable {F σ : Type}

/-- The registers that bringing up the chip writes, in order. -/
theorem registers_accesses (setup : Setup) :
    (setup.accesses.flatMap RegisterCall.writes).map Prod.fst =
      [0x3F, 0x00, 0x2F, 0x4B, 0x22, 0x25, 0x28, 0x23, 0x26, 0x29, 0x24, 0x27, 0x2A] := rfl

/-- Where no access fails, bringing up the chip makes all of its accesses. -/
theorem bringUp_made (setup : Setup)
    {answer : (c : RegisterCall) → σ → Except (Failure F) Unit × σ}
    (obliging : ∀ c s, (answer c s).1 = .ok ()) (known : Option EngineStatus) (s : σ) :
    let up := ((bringUp setup : Action F Unit).run.run known).run (.answering answer) s
    up.outcome = .returned (.ok (), some .configured) ∧
      callsOf up.events = setup.accesses.map AnsweredAccess.made := by
  intro up
  have hanswers : ∀ call ∈ callsOf up.events, call.2 = .ok () := by
    intro call hcall
    rw [callsOf_run] at hcall
    obtain ⟨x, hx, rfl⟩ := List.mem_map.1 hcall
    obtain ⟨_, hanswer⟩ := exchanges_answered _ hx
    exact (congrArg Prod.fst (Option.some.inj hanswer)).symm.trans (obliging x.call x.world)
  obtain ⟨i, last, hlast, ⟨rfl, hcalls, hreturned⟩ | ⟨c, failure, _, hcalls, _⟩⟩ :=
    Turn.cut answer ⟨.bringUp setup, known, s⟩ rfl
  · obtain rfl : last = some .configured := (Option.some.inj hlast).symm
    exact ⟨hreturned, hcalls⟩
  · have hmissed : AnsweredAccess.missed c failure ∈ callsOf up.events := by
      refine hcalls.symm ▸ ?_
      exact List.mem_append_right _ List.mem_cons_self
    exact absurd (hanswers _ hmissed) nofun

def setupWrites (setup : Setup) : List (UInt8 × UInt8) :=
  (setup.accesses.flatMap RegisterCall.writes).tail

theorem setupWrites_eq (setup : Setup) :
    setupWrites setup = [(Register.config, Register.chipEnable), (Register.misc, setup.misc),
        (Register.engine1Start, setup.engine1Start)] ++
      Setup.order.map fun led => (Register.ledCurrent led, setup.current led) := rfl

theorem mem_order {led : UInt8} : led ∈ Setup.order ↔ led < 9 := by
  constructor
  · have hall : ∀ led ∈ Setup.order, led < 9 := by decide +kernel
    exact hall led
  · intro h
    have hall : ∀ n < 9, UInt8.ofNat n ∈ Setup.order := by decide
    have hled := hall led.toNat (UInt8.lt_iff_toNat_lt.1 h)
    rwa [UInt8.ofNat_toNat] at hled

/-- What was written behind the reset is what the registers hold in the end. -/
theorem registers_setupWrites (setup : Setup) (memory : ChipMemory) {w : UInt8 × UInt8}
    (hw : w ∈ setupWrites setup) :
    (memory.afterCalls (setup.accesses.map (AnsweredAccess.made (F := F)))).registers w.1 =
      some w.2 := by
  have hregisters : (setupWrites setup).map Prod.fst =
      [0x00, 0x2F, 0x4B, 0x22, 0x25, 0x28, 0x23, 0x26, 0x29, 0x24, 0x27, 0x2A] := by
    rw [setupWrites, List.map_tail, registers_accesses]
    rfl
  have hplain : ∀ register ∈ (setupWrites setup).map Prod.fst,
      register ≠ Register.reset ∧ ChipMemory.isPaged register = false := by
    rw [hregisters]
    decide +kernel
  have hdistinct : ((setupWrites setup).map Prod.fst).Nodup := by
    rw [hregisters]
    decide
  obtain ⟨before, later, hsplit⟩ := List.append_of_mem hw
  have hlater : ∀ other ∈ later,
      ChipMemory.isPaged other.1 = true ∨ other.1 ≠ Register.reset ∧ w.1 ≠ other.1 := by
    intro other hother
    have hmem : other ∈ setupWrites setup :=
      hsplit ▸ List.mem_append_right before (List.mem_cons_of_mem w hother)
    refine Or.inr ⟨(hplain _ (List.mem_map_of_mem hmem)).1, fun heq => ?_⟩
    -- Otherwise the register would be written twice.
    rw [hsplit, List.map_append, List.map_cons] at hdistinct
    obtain ⟨_, hbehind, _⟩ := List.nodup_append.1 hdistinct
    exact (List.nodup_cons.1 hbehind).1 (heq ▸ List.mem_map_of_mem hother)
  have hwrites : setup.accesses.flatMap RegisterCall.writes =
      ((Register.reset, Register.resetAll) :: before) ++ w :: later :=
    congrArg (List.cons (Register.reset, Register.resetAll)) hsplit
  obtain ⟨hreset, hpaged⟩ := hplain w.1 (List.mem_map_of_mem hw)
  rw [ChipMemory.afterCalls_made, hwrites]
  exact memory.registers_writeAll_last _ hreset hpaged hlater

/-- Whatever settings were made, in any order and again and again, and whatever the chip held: if no
access fails, the chip comes up with 13 writes to different registers. The current of each LED is
then what was asked for last for its colour, the byte of the general settings shows what was asked
for last for each of them, and engine 1 starts where it was asked for last; where nothing was asked
for it is the standard. No LED is named that there is not, so bringing up the chip never breaks a
precondition, also if accesses fail. Settings that ask for the same in the end make the same
setup. -/
theorem bringUp_configures (settings : List Setting)
    {answer : (c : RegisterCall) → σ → Except (Failure F) Unit × σ}
    (obliging : ∀ c s, (answer c s).1 = .ok ()) (known : Option EngineStatus) (s : σ)
    (memory : ChipMemory) :
    let setup := Setup.ofSettings settings
    let asked (p : Setup.Property) : p.Value :=
      (Setting.last? settings p).getD (Setup.standard.get p)
    let up := (bringUp setup : Action F Unit).run.run known
    let made := up.run (.answering answer) s
    let registers := (memory.afterAll made.events).registers
    made.outcome = .returned (.ok (), some .configured) ∧
      (∃ writes : List (UInt8 × UInt8),
        callsOf made.events = writes.map (fun w => AnsweredAccess.made (.write w.1 w.2)) ∧
          writes.length = 13 ∧ (writes.map Prod.fst).Nodup) ∧
      (∀ led < 9, registers (0x22 + led) = some (match led % 3 with
        | 0 => asked .red
        | 1 => asked .green
        | _ => asked .blue)) ∧
      (∃ byte, registers 0x2F = some byte ∧ Setup.Shows byte (asked .internalOscillator)
        (asked .pumpMode) (asked .powerSave) (asked .autoIncrement)) ∧
      registers 0x4B = some (asked .engine1Start) ∧
      (∀ entry ∈ setup.currents, entry.1 < 9) ∧
      (∀ w : World (.registers F) σ, (up.run w s).outcome ≠ .aborted) ∧
      ∀ others, (∀ p, Setting.last? others p = Setting.last? settings p) →
        Setup.ofSettings others = setup := by
  intro setup asked up made registers
  have hasked (p : Setup.Property) : setup.get p = asked p := Setup.get_ofSettings settings p
  obtain ⟨hreturned, hcalls⟩ := bringUp_made setup obliging known s
  replace hcalls : callsOf made.events = setup.accesses.map AnsweredAccess.made := hcalls
  have hregisters : registers =
      (memory.afterCalls (setup.accesses.map (AnsweredAccess.made (F := F)))).registers := by
    show (memory.afterAll made.events).registers = _
    rw [ChipMemory.afterAll_eq_afterCalls, hcalls]
  have hholds (w : UInt8 × UInt8) (hw : w ∈ setupWrites setup) : registers w.1 = some w.2 := by
    rw [hregisters]
    exact registers_setupWrites setup memory hw
  refine ⟨hreturned, ⟨setup.accesses.flatMap RegisterCall.writes, hcalls, rfl, ?_⟩, ?_,
    ⟨setup.misc, ?_, ?_⟩, ?_, ?_, ?_, fun others h => Setup.ofSettings_congr h⟩
  · rw [registers_accesses]
    decide
  · intro led hled
    have hcurrent : setup.current led = match led % 3 with
        | 0 => asked .red
        | 1 => asked .green
        | _ => asked .blue := by
      rw [← hasked, ← hasked, ← hasked]
      rfl
    rw [← hcurrent]
    refine hholds (_, _) ?_
    -- The currents are written colour by colour, each LED into the register with its number.
    rw [setupWrites_eq]
    exact List.mem_append_right _ (List.mem_map_of_mem (mem_order.2 hled))
  · exact hholds (Register.misc, setup.misc) (List.mem_cons_of_mem _ List.mem_cons_self)
  · have hshows := setup.misc_shows
    rw [← hasked, ← hasked, ← hasked, ← hasked]
    exact hshows
  · rw [← hasked]
    exact hholds (Register.engine1Start, setup.engine1Start)
      (List.mem_cons_of_mem _ (List.mem_cons_of_mem _ List.mem_cons_self))
  · intro entry hentry
    obtain ⟨led, hled, rfl⟩ := List.mem_map.1 hentry
    exact mem_order.1 hled
  · exact fun w => (goes_bringUp (F := F) setup known []).not_aborted w

/-- The red current is asked for twice, the green one and the automatic increment not at all. -/
theorem bringUp_configures_again :
    let answer := brokenRegisters []
    let blank : ChipMemory := ⟨fun _ => none, fun _ => []⟩
    let settings : List Setting := [.red 5, .pumpMode .bypass, .red 7, .powerSave true,
      .internalOscillator false, .engine1Start 3]
    let setup := Setup.ofSettings settings
    let made := ((bringUp setup : Action Unit Unit).run.run none).run (.answering answer) 0
    let registers := (blank.afterAll made.events).registers
    (∀ c s, (answer c s).1 = .ok ()) ∧
      made.outcome = .returned (.ok (), some .configured) ∧
      registers (0x22 + 3) = some 7 ∧ registers (0x22 + 7) = some Setup.defaultGreen ∧
      (∃ byte, registers 0x2F = some byte ∧ Setup.Shows byte false .bypass true true) ∧
      registers 0x4B = some 3 ∧
      Setup.ofSettings [.engine1Start 3, .powerSave true, .internalOscillator false,
        .pumpMode .bypass, .red 7] = setup := by
  intro answer blank settings
  have obliging : ∀ c s, (answer c s).1 = .ok () := fun _ _ => rfl
  obtain ⟨hreturned, _, hcurrents, hmisc, hstart, _, _, hsame⟩ :=
    bringUp_configures settings obliging none 0 blank
  refine ⟨obliging, hreturned, hcurrents 3 (by decide), hcurrents 7 (by decide), hmisc, hstart,
    hsame _ ?_⟩
  intro p
  cases p <;> rfl

end Chip

end LedSequencer
