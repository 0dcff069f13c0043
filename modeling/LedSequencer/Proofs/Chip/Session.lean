import LedSequencer.Proofs.Chip.Moves

/-! Sessions with the chip: operations one after the other, each of them however the last one ended.
Main statements: an operation makes its moves or is refused without an access, and what every
operation preserves holds at all times of a session. -/
namespace LedSequencer

inductive Operation where
  | reset
  | bringUp (setup : Setup)
  | enable (on : Bool)
  | setCurrent (led current : UInt8)
  | selectPage (page : Page)
  | loadEngines
  | haltEngines
  | runEngine
  | uploadAndRun (ledMux program : List UInt8)
  | play (index : Nat)
  deriving DecidableEq

namespace Operation

variable {F : Type}

def action : Operation → Chip.Action F Unit
  | reset => Chip.reset
  | bringUp setup => Chip.bringUp setup
  | enable on => Chip.enable on
  | setCurrent led current => Chip.setCurrent led current
  | selectPage page => Chip.selectPage page
  | loadEngines => Chip.loadEngines
  | haltEngines => Chip.haltEngines
  | runEngine => Chip.runEngine
  | uploadAndRun ledMux program => Chip.uploadAndRun ledMux program
  | play index => Chip.play index

def buffers? : Operation → Option (List UInt8 × List UInt8)
  | uploadAndRun ledMux program => some (ledMux, program)
  | play index => Tape.all[index]?.map fun tape => (tape.ledMux, Tape.playerCode)
  | _ => none

def bringUpMoves (setup : Setup) : List Move :=
  .access (.write Register.reset Register.resetAll) :: .reach .reset ::
    (setup.accesses.tail.map .access ++ [.reach .configured])

def haltMoves : List Move :=
  [.access (.write Register.engineControl2 Register.enginesHalt), .reach .halted]

def runMoves : List Move :=
  [.access (.write Register.engineControl2 Register.engine1Run),
    .access (.write Register.engineControl1 Register.engine1FreeRun), .reach .running]

def fillMoves (page : Page) (data : List UInt8) : List Move :=
  [.access (.write Register.pageSelect page.selector), .reach (.loadProgram page),
    .access (.writeBlock Register.programMemory data)]

def uploadMoves (ledMux program : List UInt8) : List Move :=
  .access (.write Register.engineControl2 Register.enginesLoad) ::
    (fillMoves .ledMux ledMux ++ (fillMoves .program program ++ (haltMoves ++ runMoves)))

/-- The moves of an operation, unless it is refused: an LED that there is not, a buffer that does
not fit, or a tape that there is not. -/
def moves? : Operation → Option (List Move)
  | reset => some [.access (.write Register.reset Register.resetAll), .reach .reset]
  | bringUp setup => some (bringUpMoves setup)
  | enable on => some [.access (.write Register.config (if on then Register.chipEnable else 0))]
  | setCurrent led current =>
    if led < ledCount then some [.access (.write (Register.ledCurrent led) current)] else none
  | selectPage page => some [.access (.write Register.pageSelect page.selector)]
  | loadEngines => some [.access (.write Register.engineControl2 Register.enginesLoad)]
  | haltEngines => some haltMoves
  | runEngine => some runMoves
  | uploadAndRun ledMux program =>
    if ledMux.length ≤ Page.size ∧ program.length ≤ Page.size then some (uploadMoves ledMux program)
    else none
  | play index => Tape.all[index]?.map fun tape => uploadMoves tape.ledMux Tape.playerCode

theorem accesses_bringUpMoves (setup : Setup) :
    Move.accesses (bringUpMoves setup) = setup.accesses := rfl

theorem accesses_uploadMoves (ledMux program : List UInt8) :
    Move.accesses (uploadMoves ledMux program) = uploadAccesses ledMux program := rfl

theorem uploadMoves_fit {ledMux program : List UInt8} (hmux : ledMux.length ≤ Page.size)
    (hprogram : program.length ≤ Page.size) :
    ∀ c ∈ Move.accesses (uploadMoves ledMux program), c.Fits := by
  rw [accesses_uploadMoves, ← Chip.access_uploadStages]
  exact List.forall_mem_map.2 (Chip.uploadStages_fit hmux hprogram)

end Operation

namespace Chip
open Operation

variable {F : Type}

theorem goes_write (register value : UInt8) :
    Goes (write register value : Action F Unit) [.access (.write register value)] :=
  goes_access _

theorem goes_haltEngines : Goes (haltEngines : Action F Unit) haltMoves :=
  (goes_write _ _).bind (goes_reached .halted)

theorem goes_runEngine : Goes (runEngine : Action F Unit) runMoves := by
  have hrun := (goes_write (F := F) Register.engineControl2 Register.engine1Run).reporting
    (.stepFailed .run)
  have hfree := (goes_write (F := F) Register.engineControl1 Register.engine1FreeRun).reporting
    (.stepFailed .freeRun)
  exact hrun.bind (hfree.bind (goes_reached .running))

theorem goes_fillPage (page : Page) (selecting writing : ChipStep) (data : List UInt8) :
    Goes (fillPage page selecting writing data : Action F Unit) (fillMoves page data) := by
  have hselect := (goes_write (F := F) Register.pageSelect page.selector).reporting
    (.stepFailed selecting)
  have hblock := (goes_access (F := F) (.writeBlock Register.programMemory data)).reporting
    (.stepFailed writing)
  exact hselect.bind ((goes_reached (.loadProgram page)).bind hblock)

theorem goes_upload (ledMux program : List UInt8) :
    Goes (upload ledMux program : Action F Unit) (uploadMoves ledMux program) := by
  have hload := (goes_write (F := F) Register.engineControl2 Register.enginesLoad).reporting
    (.stepFailed .loadMode)
  have hhalt := (goes_haltEngines (F := F)).reporting (.stepFailed .halt)
  have hend := goes_runEngine.bind (goes_note (.engineRunning : Notice F))
  exact hload.bind ((goes_fillPage .ledMux .muxPage .muxTable ledMux).bind
    ((goes_fillPage .program .programPage .program program).bind (hhalt.bind hend)))

theorem goes_passAll (stages : List Stage) :
    Goes (passAll stages : Action F Unit)
      (stages.flatMap fun stage => .access stage.access :: stage.reaches.toList.map .reach) := by
  induction stages with
  | nil => exact goes_pure
  | cons stage stages ih =>
    have haccess := (goes_access (F := F) stage.access).reporting (.stepFailed stage.step)
    rw [passAll_cons]
    refine Goes.bind ?_ ih
    refine haccess.bind ?_
    cases stage.reaches with
    | none => exact goes_pure
    | some status => exact goes_reached status

theorem goes_bringUp (setup : Setup) :
    Goes (bringUp setup : Action F Unit) (bringUpMoves setup) := by
  have hend := (goes_reached (F := F) .configured).bind (goes_note (.chipConfigured : Notice F))
  rw [bringUp_eq]
  exact (goes_passAll (bringUpStages setup)).bind hend

theorem oversize?_eq_none {ledMux program : List UInt8} :
    oversize? ledMux program = none ↔ ledMux.length ≤ Page.size ∧ program.length ≤ Page.size := by
  simp [oversize?]

theorem uploadAndRun_eq {ledMux program : List UInt8}
    (hfits : ledMux.length ≤ Page.size ∧ program.length ≤ Page.size) :
    (uploadAndRun ledMux program : Action F Unit) = upload ledMux program := by
  rw [uploadAndRun, oversize?_eq_none.2 hfits]

theorem goes_uploadAndRun {ledMux program : List UInt8}
    (hfits : ledMux.length ≤ Page.size ∧ program.length ≤ Page.size) :
    Goes (uploadAndRun ledMux program : Action F Unit) (uploadMoves ledMux program) := by
  rw [uploadAndRun_eq hfits]
  exact goes_upload ledMux program

theorem fits_tape (tape : Tape) :
    tape.ledMux.length ≤ Page.size ∧ Tape.playerCode.length ≤ Page.size :=
  ⟨Nat.le_of_eq tape.length_ledMux, Nat.le_of_eq Tape.length_playerCode⟩

theorem goes_play {index : Nat} {tape : Tape} (h : Tape.all[index]? = some tape) :
    Goes (play index : Action F Unit) (uploadMoves tape.ledMux Tape.playerCode) := by
  rw [play, h]
  exact (goes_uploadAndRun (fits_tape tape)).reporting _

/-- An operation that is not refused makes its moves. -/
theorem goes_operation {op : Operation} {moves : List Move} (h : op.moves? = some moves) :
    Goes (op.action : Action F Unit) moves := by
  cases op with
  | reset =>
    obtain rfl := Option.some.inj h
    exact (goes_write _ _).bind (goes_reached .reset)
  | bringUp setup =>
    obtain rfl := Option.some.inj h
    exact goes_bringUp setup
  | enable on =>
    obtain rfl := Option.some.inj h
    exact goes_write _ _
  | setCurrent led current =>
    obtain ⟨hled, h⟩ := Option.ite_none_right_eq_some.1 h
    obtain rfl := Option.some.inj h
    rw [Operation.action, setCurrent, if_pos hled]
    exact goes_write _ _
  | selectPage page =>
    obtain rfl := Option.some.inj h
    exact goes_write _ _
  | loadEngines =>
    obtain rfl := Option.some.inj h
    exact goes_write _ _
  | haltEngines =>
    obtain rfl := Option.some.inj h
    exact goes_haltEngines
  | runEngine =>
    obtain rfl := Option.some.inj h
    exact goes_runEngine
  | uploadAndRun ledMux program =>
    obtain ⟨hfits, h⟩ := Option.ite_none_right_eq_some.1 h
    obtain rfl := Option.some.inj h
    exact goes_uploadAndRun hfits
  | play index =>
    obtain ⟨tape, htape, rfl⟩ := Option.map_eq_some_iff.1 h
    exact goes_play htape

/-- An operation that is refused breaks a precondition, or reports a failure and ends. -/
theorem refused_operation {op : Operation} (h : op.moves? = none) (known : Option EngineStatus) :
    (op.action : Action F Unit).run.run known = .abort ∨
      ∃ n failure, (op.action : Action F Unit).run.run known =
        .note n (.done (.error failure, known)) := by
  cases op with
  | setCurrent led current =>
    have hled : ¬ led < ledCount := by simpa [moves?] using h
    rw [Operation.action, setCurrent, if_neg hled]
    exact Or.inl rfl
  | uploadAndRun ledMux program =>
    have hfits : ¬ (ledMux.length ≤ Page.size ∧ program.length ≤ Page.size) := by
      intro hfits
      simp [moves?, hfits] at h
    obtain ⟨length, hlength⟩ := Option.ne_none_iff_exists'.1 (mt oversize?_eq_none.1 hfits)
    rw [Operation.action, uploadAndRun, hlength]
    exact Or.inr ⟨.uploadTooLarge, .programTooLarge length, rfl⟩
  | play index =>
    have htape : Tape.all[index]? = none := Option.map_eq_none_iff.1 h
    rw [Operation.action, play, htape]
    exact Or.inr ⟨.noSuchTape index, .indexOutOfRange index, rfl⟩
  | _ => cases h

end Chip

/-- Registers that take everything but some accesses, which are counted from 0 on. The state is how
many there were. -/
def brokenRegisters (broken : List Nat) (_ : RegisterCall) (n : Nat) :
    Except (Failure Unit) Unit × Nat :=
  (if n ∈ broken then .error (.io ()) else .ok (), n + 1)

/-- An operation of a session, with what is known of the engines and the state of the device when it
begins. -/
structure Turn (σ : Type) where
  operation : Operation
  known : Option EngineStatus
  world : σ
  deriving DecidableEq

namespace Turn

variable {F σ : Type} (t : Turn σ) (w : World (.registers F) σ)

def run : Run (.registers F) (Notice F) σ (Except (Failure F) Unit × Option EngineStatus) :=
  (t.operation.action.run.run t.known).run w t.world

def events : List (Event (.registers F) (Notice F)) := (t.run w).events

def leaves : Option EngineStatus :=
  match (t.run w).outcome with
  | .returned (_, known) => known
  -- A broken precondition teaches nothing.
  | _ => t.known

def Succeeded : Prop := ∃ known, (t.run w).outcome = .returned (.ok (), known)

end Turn

namespace Chip

variable {F σ : Type} (w : World (.registers F) σ)

/-- The operations of a session, from what is known of the engines and the state of the device on. A
caller goes on after a failure, and also after a broken precondition. -/
def session : List Operation → Option EngineStatus → σ → List (Turn σ)
  | [], _, _ => []
  | op :: ops, known, s =>
    let t : Turn σ := ⟨op, known, s⟩
    t :: match (t.run w).outcome with
      | .cutOff => []
      | _ => session ops (t.leaves w) (t.run w).world

def eventsOf (turns : List (Turn σ)) : List (Event (.registers F) (Notice F)) :=
  turns.flatMap fun t => t.events w

theorem eventsOf_append (a b : List (Turn σ)) :
    eventsOf w (a ++ b) = eventsOf w a ++ eventsOf w b :=
  List.flatMap_append

/-- What every operation preserves holds at all times of a session. -/
theorem session_invariant {Inv : Option EngineStatus → List (Event (.registers F) (Notice F)) → Prop}
    {ops : List Operation}
    (step : ∀ t : Turn σ, t.operation ∈ ops → ∀ past, Inv t.known past →
      Inv (t.leaves w) (past ++ t.events w))
    {known : Option EngineStatus} {s : σ} {past : List (Event (.registers F) (Notice F))}
    (h : Inv known past) {before after : List (Turn σ)} {t : Turn σ}
    (hsplit : session w ops known s = before ++ t :: after) :
    Inv t.known (past ++ eventsOf w before) ∧ t.operation ∈ ops := by
  induction ops generalizing known s past before with
  | nil => exact absurd hsplit.symm (List.append_ne_nil_of_right_ne_nil _ nofun)
  | cons op ops ih =>
    rw [session] at hsplit
    cases before with
    | nil =>
      obtain ⟨rfl, _⟩ := List.cons.inj hsplit
      exact ⟨by simpa [eventsOf] using h, List.mem_cons_self⟩
    | cons first before =>
      obtain ⟨rfl, hrest⟩ := List.cons.inj hsplit
      have hfirst := step ⟨op, known, s⟩ List.mem_cons_self past h
      have hlater := fun (t : Turn σ) ht => step t (List.mem_cons_of_mem op ht)
      -- The rest of the session starts from what this operation leaves.
      have hlast (hcut : session w ops (Turn.leaves ⟨op, known, s⟩ w)
          (Turn.run ⟨op, known, s⟩ w).world = before ++ t :: after) :=
        ih hlater hfirst hcut
      split at hrest
      · exact absurd hrest.symm (List.append_ne_nil_of_right_ne_nil _ nofun)
      · obtain ⟨hinv, hmem⟩ := hlast hrest
        refine ⟨?_, List.mem_cons_of_mem op hmem⟩
        rwa [List.append_assoc] at hinv

end Chip

namespace Turn
open Chip

variable {F σ : Type} (answer : (c : RegisterCall) → σ → Except (Failure F) Unit × σ)

/-- Where every access is answered an operation that is not refused returns, after it made its
moves. -/
theorem made (t : Turn σ) {moves : List Move} (h : t.operation.moves? = some moves) :
    ∃ result, (t.run (.answering answer)).outcome =
        .returned (result, t.leaves (.answering answer)) ∧
      Move.Made moves t.known (callsOf (t.events (.answering answer))) result
        (t.leaves (.answering answer)) := by
  have hgoes := goes_operation (F := F) h t.known []
  obtain ⟨⟨result, last⟩, hreturned⟩ := hgoes.returns answer t.world
  obtain ⟨calls, hcalls, hmade⟩ := hgoes.recorded _ hreturned
  have hleaves : t.leaves (.answering answer) = last := by
    rw [leaves, run, hreturned]
  rw [hleaves]
  refine ⟨result, hreturned, ?_⟩
  rw [events, run, hcalls]
  exact hmade

/-- An operation that is refused makes no access, and what is known of the engines stays. -/
theorem refused (w : World (.registers F) σ) (t : Turn σ) (h : t.operation.moves? = none) :
    callsOf (t.events w) = [] ∧ t.leaves w = t.known ∧ ¬ t.Succeeded w := by
  obtain hrun | ⟨n, failure, hrun⟩ := refused_operation (F := F) h t.known
  · have houtcome : (t.run w).outcome = .aborted := by rw [run, hrun]; rfl
    refine ⟨by rw [events, run, hrun]; rfl, by rw [leaves, houtcome], ?_⟩
    rintro ⟨known, hknown⟩
    exact absurd (houtcome.symm.trans hknown) nofun
  · have houtcome : (t.run w).outcome = .returned (.error failure, t.known) := by rw [run, hrun]; rfl
    refine ⟨by rw [events, run, hrun]; rfl, by rw [leaves, houtcome], ?_⟩
    rintro ⟨known, hknown⟩
    exact absurd (houtcome.symm.trans hknown) nofun

end Turn

end LedSequencer
