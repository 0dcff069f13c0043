import LedSequencer.Proofs.Chip.Memory
import LedSequencer.Proofs.Chip.Session

/-! What is known of the engines against what the registers of the chip hold. Main statement: after
every operation of a session the two agree, but for the register that sets the mode of the engines,
which is ahead when the access right behind it failed; after a success they agree in full. -/
namespace LedSequencer

def EngineStatus.registers : EngineStatus → List (UInt8 × UInt8)
  | reset | configured => []
  | loadProgram page =>
    [(Register.engineControl2, Register.enginesLoad), (Register.pageSelect, page.selector)]
  | halted => [(Register.engineControl2, Register.enginesHalt)]
  | running =>
    [(Register.engineControl2, Register.engine1Run),
      (Register.engineControl1, Register.engine1FreeRun)]

/-- The operations that leave the engines in a status that is known if they succeed. -/
def Operation.settles : Operation → Bool
  | reset | bringUp _ | haltEngines | runEngine | uploadAndRun _ _ | play _ => true
  | enable _ | setCurrent _ _ | selectPage _ | loadEngines => false

/-- The last access that succeeded wrote the mode of the engines, and the one right behind it failed:
load mode was entered and no page selected, or engine 1 was let run and not set to run freely. -/
def Overtaken {F : Type} (calls : List (AnsweredAccess F)) (mode : UInt8) : Prop :=
  ∃ earlier c failure later,
    calls = earlier ++ .made (.write Register.engineControl2 mode) :: .missed c failure :: later ∧
      ((mode = Register.enginesLoad ∧ c = .write Register.pageSelect Page.ledMux.selector) ∨
        (mode = Register.engine1Run ∧
          c = .write Register.engineControl1 Register.engine1FreeRun)) ∧
      ∀ call ∈ later, call.2 ≠ .ok ()

theorem Overtaken.missed {F : Type} {calls : List (AnsweredAccess F)} {mode : UInt8}
    (h : Overtaken calls mode) (c : RegisterCall) (failure : Failure F) :
    Overtaken (calls ++ [.missed c failure]) mode := by
  obtain ⟨earlier, d, first, later, rfl, hcause, hlater⟩ := h
  have hlast : ∀ call ∈ later ++ [AnsweredAccess.missed c failure], call.2 ≠ .ok () := by
    intro call hcall
    obtain hcall | hcall := List.mem_append.1 hcall
    · exact hlater call hcall
    · obtain rfl := List.mem_singleton.1 hcall
      exact nofun
  refine ⟨earlier, d, first, later ++ [.missed c failure], ?_, hcause, hlast⟩
  rw [List.append_assoc]
  rfl

namespace ChipMemory
open Register

variable {F : Type}

def Shows (memory : ChipMemory) (known : Option EngineStatus) : Prop :=
  ∀ status, known = some status →
    ∀ entry ∈ status.registers, memory.registers entry.1 = some entry.2

/-- The registers hold all that the engines are known for, but the mode of the engines may be
ahead. -/
def Tracks (memory : ChipMemory) (known : Option EngineStatus) (calls : List (AnsweredAccess F)) :
    Prop :=
  ∀ status, known = some status → ∀ entry ∈ status.registers,
    memory.registers entry.1 = some entry.2 ∨
      (entry.1 = engineControl2 ∧
        ∃ mode, memory.registers engineControl2 = some mode ∧ Overtaken calls mode)

variable {memory : ChipMemory} {known : Option EngineStatus} {calls : List (AnsweredAccess F)}

theorem shows_some {status : EngineStatus} :
    memory.Shows (some status) ↔
      ∀ entry ∈ status.registers, memory.registers entry.1 = some entry.2 :=
  ⟨fun h => h status rfl, fun h _ hstatus => Option.some.inj hstatus ▸ h⟩

theorem Shows.tracks (h : memory.Shows known) (calls : List (AnsweredAccess F)) :
    memory.Tracks known calls :=
  fun status hstatus entry hentry => Or.inl (h status hstatus entry hentry)

/-- An access that fails changes no register, and lets the mode of the engines stay ahead. -/
theorem Tracks.missed (h : memory.Tracks known calls) (c : RegisterCall) (failure : Failure F) :
    memory.Tracks known (calls ++ [.missed c failure]) := by
  intro status hstatus entry hentry
  refine (h status hstatus entry hentry).imp_right ?_
  rintro ⟨hcontrol, mode, hmode, hovertaken⟩
  exact ⟨hcontrol, mode, hmode, hovertaken.missed c failure⟩

/-- If the access behind a change of the mode fails, only the mode gets ahead. -/
theorem Tracks.overtaken (h : memory.Tracks known calls) {mode : UInt8} {c : RegisterCall}
    (hcause : (mode = enginesLoad ∧ c = .write pageSelect Page.ledMux.selector) ∨
      (mode = engine1Run ∧ c = .write engineControl1 engine1FreeRun))
    (failure : Failure F) :
    (memory.write engineControl2 mode).Tracks known
      (calls ++ [.made (.write engineControl2 mode)] ++ [.missed c failure]) := by
  have hmode : (memory.write engineControl2 mode).registers engineControl2 = some mode :=
    memory.registers_write_self (by decide) (by decide) mode
  have hovertaken : Overtaken
      (calls ++ [.made (.write engineControl2 mode)] ++ [.missed c failure]) mode :=
    ⟨calls, c, failure, [], by simp, hcause, nofun⟩
  intro status hstatus entry hentry
  by_cases hcontrol : entry.1 = engineControl2
  · exact Or.inr ⟨hcontrol, mode, hmode, hovertaken⟩
  · have hsame := memory.registers_write_of_ne (by decide) hcontrol mode
    -- Every other register is as before, and before it was not ahead.
    have hbefore := (h status hstatus entry hentry).resolve_right fun hahead => hcontrol hahead.1
    exact Or.inl (hsame.trans hbefore)

end ChipMemory

namespace Move

variable {F : Type}

/-- If some moves are made, the registers keep track of the engines wherever an access fails, and
what is asked for holds at the end. -/
def Follows (post : ChipMemory → Option EngineStatus → List (AnsweredAccess F) → Prop) :
    List Move → ChipMemory → Option EngineStatus → List (AnsweredAccess F) → Prop
  | [], memory, known, calls => post memory known calls
  | access c :: moves, memory, known, calls =>
    (∀ failure, memory.Tracks known (calls ++ [.missed c failure])) ∧
      Follows post moves (memory.afterCalls [AnsweredAccess.made (F := F) c]) known
        (calls ++ [.made c])
  | reach status :: moves, memory, _, calls => Follows post moves memory (some status) calls

variable {post : ChipMemory → Option EngineStatus → List (AnsweredAccess F) → Prop}
  {memory : ChipMemory} {known : Option EngineStatus} {calls : List (AnsweredAccess F)}

theorem follows_append (a b : List Move) :
    Follows post (a ++ b) memory known calls ↔ Follows (Follows post b) a memory known calls := by
  induction a generalizing memory known calls with
  | nil => rfl
  | cons move a ih =>
    cases move with
    | access c => exact and_congr_right fun _ => ih
    | reach status => exact ih

theorem Made.follows {moves : List Move} {made : List (AnsweredAccess F)}
    {result : Except (Failure F) Unit} {last : Option EngineStatus}
    (h : Made moves known made result last) (hfollows : Follows post moves memory known calls) :
    (result = .ok () → post (memory.afterCalls made) last (calls ++ made)) ∧
      ∀ failure, result = .error failure →
        (memory.afterCalls made).Tracks last (calls ++ made) := by
  induction h generalizing memory calls with
  | nil known =>
    rw [List.append_nil]
    exact ⟨fun _ => hfollows, nofun⟩
  | reached status _ ih => exact ih hfollows
  | failed c moves known failure => exact ⟨nofun, fun _ _ => hfollows.1 failure⟩
  | passed c _ ih =>
    have hrest := ih hfollows.2
    rw [List.append_assoc] at hrest
    exact hrest

end Move

namespace Operation
open Register Move

variable {F : Type}
  {post : ChipMemory → Option EngineStatus → List (AnsweredAccess F) → Prop}
  {memory : ChipMemory} {known : Option EngineStatus} {calls : List (AnsweredAccess F)}

theorem follows_halt (h : memory.Tracks known calls)
    (hpost : ∀ memory calls, memory.Shows (some .halted) → post memory (some .halted) calls) :
    Follows post haltMoves memory known calls := by
  have hhalted : (memory.write engineControl2 enginesHalt).registers engineControl2 =
      some enginesHalt :=
    memory.registers_write_self (by decide) (by decide) _
  have hshows : (memory.write engineControl2 enginesHalt).Shows (some .halted) := by
    rw [ChipMemory.shows_some]
    simpa [EngineStatus.registers] using hhalted
  exact ⟨fun failure => h.missed _ failure, hpost _ _ hshows⟩

theorem follows_run (h : memory.Tracks known calls)
    (hpost : ∀ memory calls, memory.Shows (some .running) → post memory (some .running) calls) :
    Follows post runMoves memory known calls := by
  let letRun := memory.write engineControl2 engine1Run
  have hmode : (letRun.write engineControl1 engine1FreeRun).registers engineControl2 =
      some engine1Run :=
    (letRun.registers_write_of_ne (by decide) (by decide) _).trans
      (memory.registers_write_self (by decide) (by decide) _)
  have hfree : (letRun.write engineControl1 engine1FreeRun).registers engineControl1 =
      some engine1FreeRun :=
    letRun.registers_write_self (by decide) (by decide) _
  have hshows : (letRun.write engineControl1 engine1FreeRun).Shows (some .running) := by
    rw [ChipMemory.shows_some]
    simpa [EngineStatus.registers] using ⟨hmode, hfree⟩
  -- Between its two writes the mode is ahead.
  exact ⟨fun failure => h.missed _ failure,
    fun failure => h.overtaken (Or.inr ⟨rfl, rfl⟩) failure, hpost _ _ hshows⟩

/-- In load mode the selection of a page is what may fail; from then on the registers show the
page. -/
theorem follows_fill {page : Page} {data : List UInt8} (hfits : data.length ≤ Page.size)
    (hload : memory.registers engineControl2 = some enginesLoad)
    (hselect : ∀ failure,
      memory.Tracks known (calls ++ [.missed (.write pageSelect page.selector) failure]))
    (hpost : ∀ memory calls, memory.Shows (some (.loadProgram page)) →
      post memory (some (.loadProgram page)) calls) :
    Follows post (fillMoves page data) memory known calls := by
  let selected := memory.write pageSelect page.selector
  let filled := selected.next
    (.called (.writeBlock programMemory data) (.ok ()) : Event (.registers F) (Notice F))
  have hmode : selected.registers engineControl2 = some enginesLoad :=
    (memory.registers_write_of_ne (by decide) (by decide) _).trans hload
  have hpage : selected.registers pageSelect = some page.selector :=
    memory.registers_write_self (by decide) (by decide) _
  have hselected : selected.Shows (some (.loadProgram page)) := by
    rw [ChipMemory.shows_some]
    simpa [EngineStatus.registers] using ⟨hmode, hpage⟩
  have hfilled : filled.Shows (some (.loadProgram page)) := by
    have hsame : filled.registers = selected.registers :=
      ChipMemory.registers_next_fill selected hfits
    rw [ChipMemory.shows_some, hsame]
    exact ChipMemory.shows_some.1 hselected
  exact ⟨hselect, fun failure => hselected.tracks _, hpost _ _ hfilled⟩

theorem follows_upload {ledMux program : List UInt8} (hmux : ledMux.length ≤ Page.size)
    (hprogram : program.length ≤ Page.size) (h : memory.Tracks known calls) :
    Follows (fun memory known _ => memory.Shows known) (uploadMoves ledMux program) memory known
      calls := by
  have hload : (memory.write engineControl2 enginesLoad).registers engineControl2 =
      some enginesLoad :=
    memory.registers_write_self (by decide) (by decide) _
  refine ⟨fun failure => h.missed _ failure, ?_⟩
  rw [follows_append]
  -- Load mode is entered, and the status only says so once the first page is selected.
  refine follows_fill hmux hload (fun failure => h.overtaken (Or.inl ⟨rfl, rfl⟩) failure) ?_
  intro memory calls hshows
  rw [follows_append]
  -- From here on the status is that of load mode, so no failure finds the mode ahead.
  have hstill := ChipMemory.shows_some.1 hshows (engineControl2, enginesLoad) List.mem_cons_self
  refine follows_fill hprogram hstill (fun failure => hshows.tracks _) ?_
  intro memory calls hshows
  rw [follows_append]
  apply follows_halt (hshows.tracks calls)
  intro memory calls hshows
  exact follows_run (hshows.tracks calls) fun _ _ hshows => hshows

/-- Where the engines are known for no register, any accesses will do. -/
theorem follows_accesses {status : EngineStatus} (hstatus : status.registers = [])
    (accesses : List RegisterCall) {moves : List Move}
    (hrest : ∀ memory calls, Follows post moves memory (some status) calls) :
    Follows post (accesses.map .access ++ moves) memory (some status) calls := by
  have hshows (memory : ChipMemory) : memory.Shows (some status) := by
    rw [ChipMemory.shows_some, hstatus]
    exact nofun
  induction accesses generalizing memory calls with
  | nil => exact hrest memory calls
  | cons c accesses ih => exact ⟨fun failure => (hshows memory).tracks _, ih⟩

/-- An operation that settles the engines keeps track of them. -/
theorem follows_moves {op : Operation} {moves : List Move} (hmoves : op.moves? = some moves)
    (hsettles : op.settles) (h : memory.Tracks known calls) :
    Follows (fun memory known _ => memory.Shows known) moves memory known calls := by
  cases op with
  | reset =>
    obtain rfl := Option.some.inj hmoves
    exact ⟨fun failure => h.missed _ failure, ChipMemory.shows_some.2 nofun⟩
  | bringUp setup =>
    obtain rfl := Option.some.inj hmoves
    refine ⟨fun failure => h.missed _ failure, ?_⟩
    exact follows_accesses rfl _ fun memory calls => ChipMemory.shows_some.2 nofun
  | haltEngines =>
    obtain rfl := Option.some.inj hmoves
    exact follows_halt h fun _ _ hshows => hshows
  | runEngine =>
    obtain rfl := Option.some.inj hmoves
    exact follows_run h fun _ _ hshows => hshows
  | uploadAndRun ledMux program =>
    obtain ⟨⟨hmux, hprogram⟩, hmoves⟩ := Option.ite_none_right_eq_some.1 hmoves
    obtain rfl := Option.some.inj hmoves
    exact follows_upload hmux hprogram h
  | play index =>
    obtain ⟨tape, htape, rfl⟩ := Option.map_eq_some_iff.1 hmoves
    exact follows_upload (Chip.fits_tape tape).1 (Chip.fits_tape tape).2 h
  | _ => exact absurd hsettles nofun

end Operation

variable {F σ : Type} (answer : (c : RegisterCall) → σ → Except (Failure F) Unit × σ)

/-- What one operation preserves, and what it reaches. -/
theorem Turn.tracks (t : Turn σ) (hsettles : t.operation.settles) {memory : ChipMemory}
    {calls : List (AnsweredAccess F)} (h : memory.Tracks t.known calls) :
    let w := World.answering answer
    let made := callsOf (t.events w)
    (memory.afterCalls made).Tracks (t.leaves w) (calls ++ made) ∧
      (t.Succeeded w → (memory.afterCalls made).Shows (t.leaves w)) := by
  intro w made
  cases hmoves : t.operation.moves? with
  | none =>
    obtain ⟨hnone, hleaves, hfails⟩ := t.refused w hmoves
    have hmade : made = [] := hnone
    rw [hmade, hleaves, List.append_nil]
    exact ⟨h, fun hsucceeds => absurd hsucceeds hfails⟩
  | some moves =>
    obtain ⟨result, hreturned, hmade⟩ := t.made answer hmoves
    obtain ⟨hok, herror⟩ := hmade.follows (Operation.follows_moves hmoves hsettles h)
    cases result with
    | ok => exact ⟨(hok rfl).tracks _, fun _ => hok rfl⟩
    | error failure =>
      refine ⟨herror failure rfl, ?_⟩
      rintro ⟨known, hknown⟩
      exact absurd (hreturned.symm.trans hknown) nofun

namespace Chip

/-- At all times of a session of a fresh driver with the operations that settle the engines,
whichever accesses fail, the registers hold what the engines are known for, unless the mode of the
engines got ahead because the access right behind it failed. After an operation that succeeded they
hold all of it. -/
theorem session_tracked (ops : List Operation) (hops : ∀ op ∈ ops, op.settles) (s : σ)
    (memory : ChipMemory) :
    let w := World.answering answer
    ∀ before t after, session w ops none s = before ++ t :: after →
      let events := eventsOf w (before ++ [t])
      let now := memory.afterAll events
      now.Tracks (t.leaves w) (callsOf events) ∧ (t.Succeeded w → now.Shows (t.leaves w)) := by
  intro w before t after hsplit events now
  let Inv (known : Option EngineStatus) (past : List (Event (.registers F) (Notice F))) : Prop :=
    (memory.afterAll past).Tracks known (callsOf past)
  have step (t : Turn σ) (ht : t.operation ∈ ops) (past : List (Event (.registers F) (Notice F)))
      (h : Inv t.known past) : Inv (t.leaves w) (past ++ t.events w) := by
    show (memory.afterAll (past ++ t.events w)).Tracks (t.leaves w) (callsOf (past ++ t.events w))
    rw [ChipMemory.afterAll_append, callsOf_append, ChipMemory.afterAll_eq_afterCalls _ (t.events w)]
    exact (t.tracks answer (hops _ ht) h).1
  -- Nothing is known of the engines of a fresh driver.
  have hfresh : Inv none [] := nofun
  obtain ⟨hbefore, ht⟩ := session_invariant w step hfresh hsplit
  have hevents : events = eventsOf w before ++ t.events w := by
    simp only [events, eventsOf_append]
    exact congrArg _ (List.append_nil _)
  have hnow : now = (memory.afterAll (eventsOf w before)).afterCalls (callsOf (t.events w)) := by
    simp only [now, hevents]
    rw [ChipMemory.afterAll_append, ChipMemory.afterAll_eq_afterCalls _ (t.events w)]
  rw [hnow, hevents, callsOf_append]
  exact t.tracks answer (hops _ ht) hbefore

/-- A second upload breaks off before its first page is selected. -/
theorem session_tracked_broken :
    let w := World.answering (brokenRegisters [9])
    let ops : List Operation := [.uploadAndRun [0x9C] [0x40], .play 0]
    let first : Turn Nat := ⟨.uploadAndRun [0x9C] [0x40], none, 0⟩
    let second : Turn Nat := ⟨.play 0, some .running, 8⟩
    let events := eventsOf w [first, second]
    let now := ChipMemory.afterAll ⟨fun _ => none, fun _ => []⟩ events
    (∀ op ∈ ops, op.settles) ∧ session w ops none 0 = [first, second] ∧
      now.Tracks (second.leaves w) (callsOf events) ∧
      (second.Succeeded w → now.Shows (second.leaves w)) ∧
      second.leaves w = some .running ∧ now.registers 0x02 = some 0x54 := by
  intro w ops first second events now
  have hops : ∀ op ∈ ops, op.settles := by decide
  have hsession : session w ops none 0 = [first, second] := by decide +kernel
  obtain ⟨htracks, hshows⟩ := session_tracked (brokenRegisters [9]) ops hops 0
    ⟨fun _ => none, fun _ => []⟩ [first] second [] hsession
  exact ⟨hops, hsession, htracks, hshows, rfl, rfl⟩

/-- The mode of the engines can be ahead of each status that stands for one: engine 1 known to run
when an upload entered load mode, and halted or in load mode when it was let run. -/
theorem session_ahead :
    let fresh : ChipMemory := ⟨fun _ => none, fun _ => []⟩
    let upload : Operation := .uploadAndRun [] []
    let ahead (broken : List Nat) (ops : List Operation) (status : EngineStatus) (mode : UInt8) :=
      let w := World.answering (brokenRegisters broken)
      let turns := session w ops none 0
      let now := fresh.afterAll (eventsOf w turns)
      (∀ op ∈ ops, op.settles) ∧ turns.getLast?.map (fun t => t.leaves w) = some (some status) ∧
        now.registers Register.engineControl2 = some mode ∧ ¬ now.Shows (some status)
    ahead [9] [upload, upload] .running Register.enginesLoad ∧
      ahead [7] [upload] .halted Register.engine1Run ∧
      ahead [5, 7] [upload, .runEngine] (.loadProgram .program) Register.engine1Run := by
  intro fresh upload ahead
  refine ⟨⟨by decide, by decide +kernel, by decide +kernel, fun hshows => ?_⟩,
    ⟨by decide, by decide +kernel, by decide +kernel, fun hshows => ?_⟩,
    ⟨by decide, by decide +kernel, by decide +kernel, fun hshows => ?_⟩⟩
  -- In each of them the register that the status stands for first holds another mode.
  all_goals
    have hmode := ChipMemory.shows_some.1 hshows _ List.mem_cons_self
    exact absurd hmode (by decide +kernel)

end Chip

end LedSequencer
