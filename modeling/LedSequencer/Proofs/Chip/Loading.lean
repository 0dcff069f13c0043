import LedSequencer.Proofs.Chip.Memory
import LedSequencer.Proofs.Chip.Session

/-! When program memory is written and when an engine is let run. Main statement: at all times of a
session a page is filled only in load mode, while that page is shown, and an upload lets the engine
run only behind both of its buffers. -/
namespace LedSequencer

namespace RegisterCall

def Loads (c : RegisterCall) : Prop :=
  (∃ start data, c = .writeBlock start data) ∨ ∃ w ∈ c.writes, Register.programMemory ≤ w.1

theorem not_loads_write {register : UInt8} (h : register < Register.programMemory)
    (value : UInt8) : ¬ (write register value).Loads := by
  rintro (⟨start, data, hblock⟩ | ⟨w, hw, hle⟩)
  · exact absurd hblock nofun
  · obtain rfl := List.mem_singleton.1 hw
    exact absurd h (UInt8.not_lt.2 hle)

theorem mem_writes_write {register value : UInt8} {w : UInt8 × UInt8} :
    w ∈ (write register value).writes ↔ w = (register, value) :=
  List.mem_singleton

end RegisterCall

def blocksOf {F : Type} (calls : List (AnsweredAccess F)) : List (AnsweredAccess F) :=
  calls.filter fun call =>
    match call.1 with
    | .writeBlock _ _ => true
    | .write _ _ => false

def runWrite : UInt8 × UInt8 := (Register.engineControl2, Register.engine1Run)

theorem ne_runWrite {register : UInt8} (h : register ≠ Register.engineControl2) (value : UInt8) :
    (register, value) ≠ runWrite :=
  fun heq => h (congrArg Prod.fst heq)

namespace Operation

/-- All that brings the chip up are writes outside program memory, and they leave the engines
alone. -/
theorem mem_accesses {setup : Setup} {c : RegisterCall} (h : c ∈ setup.accesses) :
    ∃ register value, c = .write register value ∧ register < Register.programMemory ∧
      register ≠ Register.engineControl2 := by
  obtain h | h := List.mem_append.1 h
  · simp only [List.mem_cons, List.not_mem_nil, or_false] at h
    obtain rfl | rfl | rfl | rfl := h <;> exact ⟨_, _, rfl, by decide, by decide⟩
  · have hall : ∀ led ∈ Setup.order, Register.ledCurrent led < Register.programMemory ∧
        Register.ledCurrent led ≠ Register.engineControl2 := by
      decide +kernel
    obtain ⟨⟨led, current⟩, hcurrents, rfl⟩ := List.mem_map.1 h
    obtain ⟨led', hled, heq⟩ := List.mem_map.1 hcurrents
    obtain ⟨rfl, rfl⟩ := Prod.mk.inj heq
    exact ⟨_, _, rfl, hall led' hled⟩

theorem ledCurrent_lt {led : UInt8} (h : led < ledCount) :
    Register.ledCurrent led < Register.programMemory ∧
      Register.ledCurrent led ≠ Register.engineControl2 := by
  have hall : ∀ n < 9, Register.ledCurrent (UInt8.ofNat n) < Register.programMemory ∧
      Register.ledCurrent (UInt8.ofNat n) ≠ Register.engineControl2 := by
    decide
  have hled := hall led.toNat (UInt8.lt_iff_toNat_lt.1 h)
  rwa [UInt8.ofNat_toNat] at hled

/-- An operation that uploads nothing only writes registers outside program memory, and lets no
engine run unless that is what it is for. -/
theorem plain_of_buffers?_eq_none {op : Operation} {moves : List Move} (h : op.moves? = some moves)
    (hbuffers : op.buffers? = none) {c : RegisterCall} (hc : c ∈ Move.accesses moves) :
    ∃ register value, c = .write register value ∧ register < Register.programMemory ∧
      (op ≠ .runEngine → (register, value) ≠ runWrite) := by
  cases op with
  | bringUp setup =>
    obtain rfl := Option.some.inj h
    rw [accesses_bringUpMoves] at hc
    obtain ⟨register, value, rfl, hlt, hne⟩ := mem_accesses hc
    exact ⟨register, value, rfl, hlt, fun _ => ne_runWrite hne value⟩
  | setCurrent led current =>
    obtain ⟨hled, h⟩ := Option.ite_none_right_eq_some.1 h
    obtain rfl := Option.some.inj h
    obtain rfl := List.mem_singleton.1 hc
    obtain ⟨hlt, hne⟩ := ledCurrent_lt hled
    exact ⟨_, _, rfl, hlt, fun _ => ne_runWrite hne _⟩
  | runEngine =>
    obtain rfl := Option.some.inj h
    simp only [runMoves, Move.accesses, List.mem_cons, List.not_mem_nil, or_false] at hc
    obtain rfl | rfl := hc <;> exact ⟨_, _, rfl, by decide, fun hne => absurd rfl hne⟩
  | reset | loadEngines | haltEngines =>
    obtain rfl := Option.some.inj h
    obtain rfl := List.mem_singleton.1 hc
    exact ⟨_, _, rfl, by decide, fun _ => by decide⟩
  | enable _ | selectPage _ =>
    obtain rfl := Option.some.inj h
    obtain rfl := List.mem_singleton.1 hc
    exact ⟨_, _, rfl, by decide, fun _ => ne_runWrite (by decide) _⟩
  | uploadAndRun ledMux program => exact absurd hbuffers nofun
  | play index =>
    obtain ⟨tape, htape, _⟩ := Option.map_eq_some_iff.1 h
    rw [buffers?, htape] at hbuffers
    exact absurd hbuffers nofun

/-- An operation that uploads is not refused if its buffers fit, and makes the moves of an upload. -/
theorem upload_of_buffers? {op : Operation} {moves : List Move} {ledMux program : List UInt8}
    (h : op.moves? = some moves) (hbuffers : op.buffers? = some (ledMux, program)) :
    moves = uploadMoves ledMux program ∧ ledMux.length ≤ Page.size ∧
      program.length ≤ Page.size := by
  cases op with
  | uploadAndRun ledMux' program' =>
    obtain ⟨rfl, rfl⟩ := Prod.mk.inj (Option.some.inj hbuffers)
    obtain ⟨hfits, h⟩ := Option.ite_none_right_eq_some.1 h
    exact ⟨(Option.some.inj h).symm, hfits⟩
  | play index =>
    obtain ⟨tape, htape, hpair⟩ := Option.map_eq_some_iff.1 hbuffers
    obtain ⟨rfl, rfl⟩ := Prod.mk.inj hpair
    rw [moves?, htape] at h
    exact ⟨(Option.some.inj h).symm, Chip.fits_tape tape⟩
  | _ => cases hbuffers

end Operation

namespace Chip
open Register

variable {F : Type}

/-- Where an upload stands before an access of program memory, and before the engine may run. -/
structure Orderly (ledMux program : List UInt8) (earlier : List (AnsweredAccess F))
    (now : ChipMemory) (c : RegisterCall) : Prop where
  /-- Pages are filled in load mode: the mux table first, then the program, each while its page is
  shown. -/
  loads : c.Loads → now.registers 0x02 = some 0x54 ∧
    ((c = .writeBlock 0x50 ledMux ∧ blocksOf earlier = [] ∧ now.registers 0x4F = some 1) ∨
      (c = .writeBlock 0x50 program ∧ blocksOf earlier = [.made (.writeBlock 0x50 ledMux)] ∧
        now.registers 0x4F = some 0))
  /-- The engine is let run when both pages are filled and the engines are halted. -/
  runs : (0x02, 0x80) ∈ c.writes → now.registers 0x02 = some 0x00 ∧
    blocksOf earlier = [.made (.writeBlock 0x50 ledMux), .made (.writeBlock 0x50 program)]

theorem orderly_write {ledMux program : List UInt8} {earlier : List (AnsweredAccess F)}
    {now : ChipMemory} {register value : UInt8} (hlt : register < programMemory)
    (hne : (register, value) ≠ runWrite) :
    Orderly ledMux program earlier now (.write register value) where
  loads h := absurd h (RegisterCall.not_loads_write hlt value)
  runs h := absurd (RegisterCall.mem_writes_write.1 h).symm hne

theorem not_mem_writes_fill {data : List UInt8} (hfits : data.length ≤ Page.size) :
    runWrite ∉ (RegisterCall.writeBlock programMemory data).writes := by
  intro h
  exact absurd (ChipMemory.isPaged_of_mem_writes hfits h) (by decide)

/-- Every access of an upload finds the chip as it has to be, whatever was there before. -/
theorem upload_orderly (memory : ChipMemory) {ledMux program : List UInt8}
    (hmux : ledMux.length ≤ Page.size) (hprogram : program.length ≤ Page.size) {i : Nat}
    {c : RegisterCall} (hc : (uploadAccesses ledMux program)[i]? = some c)
    {earlier : List (AnsweredAccess F)}
    (hearlier : earlier = ((uploadAccesses ledMux program).take i).map .made) :
    Orderly ledMux program earlier (memory.afterCalls earlier) c := by
  subst hearlier
  -- Load mode is entered before the first page is selected, and holds until the engines are halted.
  let loading := memory.write engineControl2 enginesLoad
  have hload : loading.registers engineControl2 = some enginesLoad :=
    memory.registers_write_self (by decide) (by decide) _
  have hmode : (loading.write pageSelect 1).registers engineControl2 = some enginesLoad :=
    (loading.registers_write_of_ne (by decide) (by decide) 1).trans hload
  match i with
  | 0 | 1 | 3 | 5 | 7 =>
    obtain rfl := Option.some.inj hc
    exact orderly_write (by decide) (by decide)
  | 2 =>
    obtain rfl := Option.some.inj hc
    have hshown : (loading.write pageSelect 1).registers pageSelect = some 1 :=
      loading.registers_write_self (by decide) (by decide) 1
    exact ⟨fun _ => ⟨hmode, Or.inl ⟨rfl, rfl, hshown⟩⟩, fun h => absurd h (not_mem_writes_fill hmux)⟩
  | 4 =>
    obtain rfl := Option.some.inj hc
    let filled := (loading.write pageSelect 1).next
      (.called (.writeBlock programMemory ledMux) (.ok ()) : Event (.registers F) (Notice F))
    have hfilled : filled.registers = (loading.write pageSelect 1).registers :=
      ChipMemory.registers_next_fill _ hmux
    have hstill : (filled.write pageSelect 0).registers engineControl2 = some enginesLoad := by
      rw [filled.registers_write_of_ne (by decide) (by decide), hfilled]
      exact hmode
    have hshown : (filled.write pageSelect 0).registers pageSelect = some 0 :=
      filled.registers_write_self (by decide) (by decide) 0
    exact ⟨fun _ => ⟨hstill, Or.inr ⟨rfl, rfl, hshown⟩⟩,
      fun h => absurd h (not_mem_writes_fill hprogram)⟩
  | 6 =>
    obtain rfl := Option.some.inj hc
    let filled : ChipMemory := memory.afterCalls
      (((uploadAccesses ledMux program).take 5).map (AnsweredAccess.made (F := F)))
    have hhalted : (filled.write engineControl2 enginesHalt).registers engineControl2 =
        some enginesHalt :=
      filled.registers_write_self (by decide) (by decide) _
    exact ⟨fun h => absurd h (RegisterCall.not_loads_write (by decide) _),
      fun _ => ⟨hhalted, rfl⟩⟩
  | i + 8 => exact absurd hc nofun

variable {σ : Type} (answer : (c : RegisterCall) → σ → Except (Failure F) Unit × σ)

/-- At all times of a session, whichever accesses fail: an access of program memory fills a page of
an upload in load mode, the mux table while its page is shown and then the program while the other
one is. And unless an operation is for just that, it lets the engine run only behind both buffers of
an upload of its own, from a halt. -/
theorem session_loads (ops : List Operation) (known : Option EngineStatus) (s : σ)
    (memory : ChipMemory) :
    let w := World.answering answer
    ∀ before t after, session w ops known s = before ++ t :: after →
      ∀ earlier (c : RegisterCall) reply later, t.events w = earlier ++ .called c reply :: later →
        (c.Loads ∨ ((0x02, 0x80) ∈ c.writes ∧ t.operation ≠ .runEngine)) →
          ∃ ledMux program, t.operation.buffers? = some (ledMux, program) ∧
            Orderly ledMux program (callsOf earlier)
              (memory.afterAll (eventsOf w before ++ earlier)) c := by
  intro w before t after _ earlier c reply later hevents hdoes
  have hcalls : callsOf (t.events w) = callsOf earlier ++ ⟨c, reply⟩ :: callsOf later := by
    rw [hevents, callsOf_append]
    rfl
  cases hmoves : t.operation.moves? with
  | none =>
    -- A refused operation accesses nothing.
    obtain ⟨hnone, _⟩ := t.refused w hmoves
    exact absurd (hcalls.symm.trans hnone) (List.append_ne_nil_of_right_ne_nil _ nofun)
  | some moves =>
    obtain ⟨_, _, hmade⟩ := t.made answer hmoves
    obtain ⟨i, hc, hearlier⟩ := hmade.before hcalls
    cases hbuffers : t.operation.buffers? with
    | none =>
      obtain ⟨register, value, rfl, hlt, hrun⟩ :=
        Operation.plain_of_buffers?_eq_none hmoves hbuffers (List.mem_of_getElem? hc)
      obtain hloads | ⟨hruns, hne⟩ := hdoes
      · exact absurd hloads (RegisterCall.not_loads_write hlt value)
      · exact absurd (RegisterCall.mem_writes_write.1 hruns).symm (hrun hne)
    | some buffers =>
      obtain ⟨ledMux, program⟩ := buffers
      obtain ⟨rfl, hmux, hprogram⟩ := Operation.upload_of_buffers? hmoves hbuffers
      refine ⟨ledMux, program, rfl, ?_⟩
      -- What was there before this operation has no say in it.
      rw [Operation.accesses_uploadMoves] at hc hearlier
      rw [ChipMemory.afterAll_append, ChipMemory.afterAll_eq_afterCalls _ earlier]
      exact upload_orderly _ hmux hprogram hc hearlier

/-- The second upload follows one that broke off between its pages. -/
theorem session_loads_broken :
    let w := World.answering (brokenRegisters [3])
    let first : Turn Nat := ⟨.uploadAndRun [0x9C] [0x40], none, 0⟩
    let second : Turn Nat := ⟨.uploadAndRun [0x9C] [0x40], some (.loadProgram .ledMux), 4⟩
    let earlier := (second.events w).take 4
    session w [first.operation, second.operation] none 0 = [first, second] ∧
      second.events w = earlier ++
        .called (.writeBlock 0x50 [0x40]) (.ok ()) :: (second.events w).drop 5 ∧
      ∃ ledMux program, second.operation.buffers? = some (ledMux, program) ∧
        Orderly ledMux program (callsOf earlier)
          (ChipMemory.afterAll ⟨fun _ => none, fun _ => []⟩ (eventsOf w [first] ++ earlier))
          (.writeBlock 0x50 [0x40]) := by
  intro w first second earlier
  have hsession : session w [first.operation, second.operation] none 0 = [first, second] := by
    decide +kernel
  have hevents : second.events w = earlier ++
      .called (.writeBlock 0x50 [0x40]) (.ok ()) :: (second.events w).drop 5 := rfl
  refine ⟨hsession, hevents, ?_⟩
  exact session_loads (brokenRegisters [3]) _ none 0 _ [first] second [] hsession earlier _ _ _
    hevents (Or.inl (Or.inl ⟨_, _, rfl⟩))

end Chip

end LedSequencer
