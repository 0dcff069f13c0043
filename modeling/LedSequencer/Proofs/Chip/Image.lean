import LedSequencer.Proofs.Chip.Memory
import LedSequencer.Proofs.Chip.Refinement
import LedSequencer.Proofs.Chip.Singly
import Mathlib.Data.List.Induction
import Mathlib.Logic.Function.Basic

/-! What an upload leaves in the chip, wherever it ends. Main statement: the pages hold what was
written so far before what they held, page by page, and nothing else changes but the registers that
control the engines. -/
namespace LedSequencer

namespace ChipMemory

variable (memory : ChipMemory)

theorem isPaged_iff {register : UInt8} :
    isPaged register = true ↔ 0x50 ≤ register ∧ register ≤ 0x6F := by
  rw [isPaged, Bool.and_eq_true, decide_eq_true_iff, decide_eq_true_iff]
  refine and_congr_right fun hle => ?_
  rw [UInt8.toNat_sub_of_le _ _ hle, UInt8.le_iff_toNat_le]
  show register.toNat - 0x50 < 32 ↔ register.toNat ≤ 0x6F
  omega

/-- Only program memory has pages. -/
theorem pages_write_of_not_isPaged {register : UInt8} (h : isPaged register = false)
    (value : UInt8) : (memory.write register value).pages = memory.pages := by
  unfold write
  split
  · rfl
  · rw [if_neg (Bool.eq_false_iff.1 h)]

theorem pages_writeAll {writes : List (UInt8 × UInt8)} (h : ∀ w ∈ writes, isPaged w.1 = false) :
    (memory.writeAll writes).pages = memory.pages := by
  induction writes generalizing memory with
  | nil => rfl
  | cons w writes ih =>
    obtain ⟨hfirst, hrest⟩ := List.forall_mem_cons.1 h
    exact (ih _ hrest).trans (memory.pages_write_of_not_isPaged hfirst w.2)

theorem shown?_congr {other : ChipMemory}
    (h : memory.registers Register.pageSelect = other.registers Register.pageSelect) :
    memory.shown? = other.shown? := by
  rw [shown?, shown?, h]

/-- Whatever page was selected is shown. -/
theorem shown?_select (page : Page) :
    (memory.write Register.pageSelect page.selector).shown? = some page := by
  have hselect : (memory.write Register.pageSelect page.selector).registers Register.pageSelect =
      some page.selector :=
    memory.registers_write_self (by decide) (by decide) page.selector
  rw [shown?, hselect]
  cases page <;> rfl

theorem pages_write_isPaged {page : Page} (hshown : memory.shown? = some page) {register : UInt8}
    (h : isPaged register = true) (value : UInt8) :
    (memory.write register value).pages = Function.update memory.pages page
      ((memory.pages page).set (register - Register.programMemory).toNat value) := by
  have hreset : ¬ (register = Register.reset ∧ value = Register.resetAll) := by
    rintro ⟨rfl, _⟩
    exact absurd h (by decide)
  rw [write, if_neg hreset, if_pos h, writePaged, hshown]
  funext other
  dsimp only
  rw [Function.update_apply]
  split
  · rename_i hother
    rw [hother]
  · rfl

theorem writes_snoc (start : UInt8) (data : List UInt8) (value : UInt8) :
    (RegisterCall.writeBlock start (data ++ [value])).writes =
      (RegisterCall.writeBlock start data).writes ++ [(start + UInt8.ofNat data.length, value)] :=
  List.mapIdx_concat

theorem writes_take (start : UInt8) (data : List UInt8) (count : Nat) :
    (RegisterCall.writeBlock start (data.take count)).writes =
      (RegisterCall.writeBlock start data).writes.take count := by
  induction data generalizing start count with
  | nil => simp [RegisterCall.writes]
  | cons value values ih =>
    cases count with
    | zero => rfl
    | succ count => rw [List.take_succ_cons, writes_cons, writes_cons, ih, List.take_succ_cons]

/-- A page that is filled holds what is written into it, before the rest of what it held. -/
theorem pages_fill {page : Page} {data : List UInt8}
    (hshown : data = [] ∨ memory.shown? = some page) (hfits : data.length ≤ Page.size)
    (hpage : (memory.pages page).length = Page.size) :
    (memory.writeAll (RegisterCall.writeBlock Register.programMemory data).writes).pages =
      Function.update memory.pages page (data ++ (memory.pages page).drop data.length) := by
  induction data using List.reverseRecOn with
  | nil => exact (Function.update_eq_self page memory.pages).symm
  | append_singleton data value ih =>
    rw [List.length_append, List.length_singleton] at hfits
    have hshown : memory.shown? = some page := hshown.resolve_left (by simp)
    have hwritten := ih (Or.inr hshown) (by omega)
    let filled := memory.writeAll (RegisterCall.writeBlock Register.programMemory data).writes
    have hstill : filled.shown? = some page := by
      rw [← hshown]
      refine filled.shown?_congr (memory.registers_writeAll fun w hw => Or.inl ?_)
      exact isPaged_of_mem_writes (by omega) hw
    have hpaged : isPaged (Register.programMemory + UInt8.ofNat data.length) = true :=
      isPaged_programMemory hfits
    have hplace : (Register.programMemory + UInt8.ofNat data.length -
        Register.programMemory).toNat = data.length :=
      toNat_ofNat_sub _ (Nat.lt_of_lt_of_le hfits (by decide))
    -- The byte behind those that were written is the next one to go.
    have hrest : (memory.pages page).drop data.length =
        (memory.pages page)[data.length] :: (memory.pages page).drop (data.length + 1) :=
      List.drop_eq_getElem_cons _
    have hset : (data ++ (memory.pages page).drop data.length).set data.length value =
        data ++ [value] ++ (memory.pages page).drop (data.length + 1) := by
      rw [List.set_append_right _ _ (Nat.le_refl _), Nat.sub_self, hrest, List.set_cons_zero,
        List.append_assoc]
      rfl
    rw [writes_snoc, writeAll_append]
    refine (filled.pages_write_isPaged hstill hpaged value).trans ?_
    rw [hplace, hwritten, Function.update_idem, Function.update_self, hset, List.length_append]
    rfl

end ChipMemory

namespace Chip
open Routine

abbrev fillWrites (data : List UInt8) : List (UInt8 × UInt8) :=
  (RegisterCall.writeBlock Register.programMemory data).writes

/-- The writes before the first page is filled, between the two and behind the second. -/
def loadingWrites : List (UInt8 × UInt8) :=
  [(Register.engineControl2, Register.enginesLoad), (Register.pageSelect, Page.ledMux.selector)]

def switchingWrites : List (UInt8 × UInt8) :=
  [(Register.pageSelect, Page.program.selector)]

def startingWrites : List (UInt8 × UInt8) :=
  [(Register.engineControl2, Register.enginesHalt), (Register.engineControl2, Register.engine1Run),
    (Register.engineControl1, Register.engine1FreeRun)]

def uploadWrites (ledMux program : List UInt8) : List (UInt8 × UInt8) :=
  loadingWrites ++
    (fillWrites ledMux ++ (switchingWrites ++ (fillWrites program ++ startingWrites)))

theorem length_fillWrites (data : List UInt8) : (fillWrites data).length = data.length :=
  List.length_mapIdx

def controlRegisters : List UInt8 := [0x01, 0x02, 0x4F]

/-- They are not program memory, and writing into them is no reset. -/
theorem plain_of_control {register : UInt8} (h : register ∈ controlRegisters) :
    ChipMemory.isPaged register = false ∧ register ≠ Register.reset := by
  have hall : ∀ register ∈ controlRegisters,
      ChipMemory.isPaged register = false ∧ register ≠ Register.reset := by
    decide +kernel
  exact hall register h

theorem loadingWrites_control : ∀ w ∈ loadingWrites, w.1 ∈ controlRegisters := by
  rintro _ (_ | ⟨_, _ | ⟨_, ⟨⟩⟩⟩) <;> decide

theorem switchingWrites_control : ∀ w ∈ switchingWrites, w.1 ∈ controlRegisters := by
  rintro _ (_ | ⟨_, ⟨⟩⟩)
  decide

theorem startingWrites_control : ∀ w ∈ startingWrites, w.1 ∈ controlRegisters := by
  rintro _ (_ | ⟨_, _ | ⟨_, _ | ⟨_, ⟨⟩⟩⟩⟩) <;> decide

section Prefixes

variable (memory : ChipMemory) {ledMux program : List UInt8} (count : Nat)

/-- Controlling the engines changes no page. -/
theorem pages_control {writes : List (UInt8 × UInt8)} (h : ∀ w ∈ writes, w.1 ∈ controlRegisters) :
    (memory.writeAll (writes.take count)).pages = memory.pages :=
  memory.pages_writeAll fun w hw => (plain_of_control (h w (List.mem_of_mem_take hw))).1

/-- The page that the first writes select is shown, unless there are so few of them that none is
left to fill it. -/
theorem shown?_loading :
    ledMux.take (count - 2) = [] ∨
      (memory.writeAll (loadingWrites.take count)).shown? = some .ledMux := by
  by_cases hcount : 2 ≤ count
  · rw [List.take_of_length_le (show loadingWrites.length ≤ count from hcount)]
    exact Or.inr ((memory.write _ _).shown?_select .ledMux)
  · rw [Nat.sub_eq_zero_of_le (by omega)]
    exact Or.inl List.take_zero

/-- The same for the second page. -/
theorem shown?_switching :
    program.take (count - 1) = [] ∨
      (memory.writeAll (switchingWrites.take count)).shown? = some .program := by
  by_cases hcount : 1 ≤ count
  · rw [List.take_of_length_le (show switchingWrites.length ≤ count from hcount)]
    exact Or.inr (memory.shown?_select .program)
  · rw [Nat.sub_eq_zero_of_le (by omega)]
    exact Or.inl List.take_zero

theorem take_uploadWrites :
    (uploadWrites ledMux program).take count =
      loadingWrites.take count ++ (fillWrites (ledMux.take (count - 2)) ++
        (switchingWrites.take (count - 2 - ledMux.length) ++
          (fillWrites (program.take (count - 2 - ledMux.length - 1)) ++
            startingWrites.take (count - 2 - ledMux.length - 1 - program.length)))) := by
  rw [uploadWrites, List.take_append, List.take_append, List.take_append, List.take_append,
    length_fillWrites, length_fillWrites, ← ChipMemory.writes_take, ← ChipMemory.writes_take]
  rfl

/-- Of an upload that ends early each page holds as much as was written into it, before what it
held. Nothing is written into the second page unless the first one is full. -/
theorem pages_upload (hmux : ledMux.length ≤ Page.size) (hprogram : program.length ≤ Page.size)
    (hpages : ∀ page, (memory.pages page).length = Page.size) :
    let mux := ledMux.take (count - 2)
    let code := program.take (count - 2 - ledMux.length - 1)
    (memory.writeAll ((uploadWrites ledMux program).take count)).pages =
      Function.update
        (Function.update memory.pages .ledMux (mux ++ (memory.pages .ledMux).drop mux.length))
        .program (code ++ (memory.pages .program).drop code.length) := by
  intro mux code
  -- Only the two blocks change a page; what is written around them controls the engines.
  let selected := memory.writeAll (loadingWrites.take count)
  let filled := selected.writeAll (fillWrites mux)
  let switched := filled.writeAll (switchingWrites.take (count - 2 - ledMux.length))
  let loaded := switched.writeAll (fillWrites code)
  have hselected : selected.pages = memory.pages :=
    pages_control memory count loadingWrites_control
  have hfilled : filled.pages = Function.update memory.pages .ledMux
      (mux ++ (memory.pages .ledMux).drop mux.length) := by
    have hfill := selected.pages_fill (shown?_loading memory count)
      (Nat.le_trans (List.length_take_le' _ _) hmux) (hselected ▸ hpages .ledMux)
    rwa [hselected] at hfill
  have hswitched : switched.pages = filled.pages :=
    pages_control filled _ switchingWrites_control
  -- The second page is as at the start, however much of the first one was written.
  have hother : switched.pages .program = memory.pages .program := by
    rw [hswitched, hfilled, Function.update_of_ne (by decide)]
  have hloaded : loaded.pages = Function.update filled.pages .program
      (code ++ (memory.pages .program).drop code.length) := by
    have hfill := switched.pages_fill (shown?_switching filled (count - 2 - ledMux.length))
      (Nat.le_trans (List.length_take_le' _ _) hprogram) (hother ▸ hpages .program)
    rwa [hother, hswitched] at hfill
  rw [take_uploadWrites, ChipMemory.writeAll_append, ChipMemory.writeAll_append,
    ChipMemory.writeAll_append, ChipMemory.writeAll_append, ← hfilled]
  exact (pages_control loaded _ startingWrites_control).trans hloaded

end Prefixes

section Registers

variable {ledMux program : List UInt8}

/-- An upload writes into program memory and into the registers that control the engines. -/
theorem mem_uploadWrites (hmux : ledMux.length ≤ Page.size) (hprogram : program.length ≤ Page.size)
    {w : UInt8 × UInt8} (hw : w ∈ uploadWrites ledMux program) :
    ChipMemory.isPaged w.1 = true ∨ w.1 ∈ controlRegisters := by
  simp only [uploadWrites, List.mem_append] at hw
  rcases hw with hw | hw | hw | hw | hw
  · exact Or.inr (loadingWrites_control w hw)
  · exact Or.inl (ChipMemory.isPaged_of_mem_writes hmux hw)
  · exact Or.inr (switchingWrites_control w hw)
  · exact Or.inl (ChipMemory.isPaged_of_mem_writes hprogram hw)
  · exact Or.inr (startingWrites_control w hw)

/-- The registers that control the engines when an upload is over. -/
theorem registers_uploadWrites (memory : ChipMemory) (hprogram : program.length ≤ Page.size) :
    let after := memory.writeAll (uploadWrites ledMux program)
    after.registers 0x02 = some 0x80 ∧ after.registers 0x01 = some 0x80 ∧
      after.registers 0x4F = some 0 := by
  intro after
  let earlier := loadingWrites ++ (fillWrites ledMux ++ (switchingWrites ++ fillWrites program))
  -- For each register the list is split at the last write that goes there.
  refine ⟨?_, ?_, ?_⟩
  · have hsplit : uploadWrites ledMux program =
        (earlier ++ [(Register.engineControl2, Register.enginesHalt)]) ++
          (Register.engineControl2, Register.engine1Run) ::
            [(Register.engineControl1, Register.engine1FreeRun)] := by
      simp [uploadWrites, earlier, startingWrites]
    show (memory.writeAll _).registers _ = _
    rw [hsplit]
    refine memory.registers_writeAll_last _ (by decide) (by decide) ?_
    exact List.forall_mem_singleton.2 (Or.inr (by decide))
  · have hsplit : uploadWrites ledMux program =
        (earlier ++ [(Register.engineControl2, Register.enginesHalt),
          (Register.engineControl2, Register.engine1Run)]) ++
            [(Register.engineControl1, Register.engine1FreeRun)] := by
      simp [uploadWrites, earlier, startingWrites]
    show (memory.writeAll _).registers _ = _
    rw [hsplit]
    exact memory.registers_writeAll_last _ (by decide) (by decide) nofun
  · have hsplit : uploadWrites ledMux program =
        (loadingWrites ++ fillWrites ledMux) ++
          (Register.pageSelect, Page.program.selector) ::
            (fillWrites program ++ startingWrites) := by
      simp [uploadWrites, switchingWrites]
    have hstarting : ∀ w ∈ startingWrites, Register.pageSelect ≠ w.1 := by
      rintro _ (_ | ⟨_, _ | ⟨_, _ | ⟨_, ⟨⟩⟩⟩⟩) <;> decide
    show (memory.writeAll _).registers _ = _
    rw [hsplit]
    refine memory.registers_writeAll_last _ (by decide) (by decide) fun w hw => ?_
    obtain hw | hw := List.mem_append.1 hw
    · exact Or.inl (ChipMemory.isPaged_of_mem_writes hprogram hw)
    · exact Or.inr ⟨(plain_of_control (startingWrites_control w hw)).2, hstarting w hw⟩

end Registers

section Image

variable {F σ : Type} {ledMux program : List UInt8}

/-- What the first writes of an upload leave in the pages: the first bytes of the two buffers. The
second page is as it was unless the whole first buffer was written. -/
theorem image_take (memory : ChipMemory) (hmux : ledMux.length ≤ Page.size)
    (hprogram : program.length ≤ Page.size)
    (hpages : ∀ page, (memory.pages page).length = Page.size) (count : Nat) :
    let written := (uploadWrites ledMux program).take count
    let now := memory.writeAll written
    ∃ mux code, mux <+: ledMux ∧ code <+: program ∧
      now.pages .ledMux = mux ++ (memory.pages .ledMux).drop mux.length ∧
      now.pages .program = code ++ (memory.pages .program).drop code.length ∧
      (code = [] ∨ mux = ledMux ∧ fillWrites ledMux ⊆ written) ∧
      ((uploadWrites ledMux program).length ≤ count → mux = ledMux ∧ code = program) := by
  intro written now
  have hnow := pages_upload memory count hmux hprogram hpages
  refine ⟨ledMux.take (count - 2), program.take (count - 2 - ledMux.length - 1),
    List.take_prefix _ _, List.take_prefix _ _, ?_, ?_, ?_, ?_⟩
  · rw [hnow, Function.update_of_ne (by decide), Function.update_self]
  · rw [hnow, Function.update_self]
  · by_cases hfull : ledMux.length ≤ count - 2
    · rw [List.take_of_length_le hfull]
      refine Or.inr ⟨rfl, fun w hw => ?_⟩
      show w ∈ (uploadWrites ledMux program).take count
      rw [take_uploadWrites, List.take_of_length_le hfull]
      exact List.mem_append_right _ (List.mem_append_left _ hw)
    · rw [Nat.sub_eq_zero_of_le (show count - 2 - ledMux.length ≤ 1 by omega)]
      exact Or.inl List.take_zero
  · intro hall
    have hlength : (uploadWrites ledMux program).length =
        2 + (ledMux.length + (1 + (program.length + 3))) := by
      rw [uploadWrites, List.length_append, List.length_append, List.length_append,
        List.length_append, length_fillWrites, length_fillWrites]
      rfl
    exact ⟨List.take_of_length_le (by omega), List.take_of_length_le (by omega)⟩

/-- An upload that writes one register at a time makes the first so many of its writes, all of them
if it succeeds. -/
theorem uploadAndRun_written (hmux : ledMux.length ≤ Page.size)
    (hprogram : program.length ≤ Page.size)
    (answer : (c : RegisterCall) → σ → Except (Failure F) Unit × σ) (known : Option EngineStatus)
    (s : σ) :
    let run := ((singly (uploadAndRun ledMux program : Action F Unit)).run.run known).run
      (.answering answer) s
    let calls := callsOf run.events
    ∃ result last count, run.outcome = .returned (result, last) ∧
      (∀ memory : ChipMemory, memory.afterAll run.events =
        memory.writeAll ((uploadWrites ledMux program).take count)) ∧
      (∀ call ∈ calls, ∃ w ∈ uploadWrites ledMux program, call.1 = .write w.1 w.2) ∧
      (∀ w ∈ (uploadWrites ledMux program).take count,
        AnsweredAccess.made (.write w.1 w.2) ∈ calls) ∧
      (result = .ok () → (uploadWrites ledMux program).length ≤ count) := by
  intro run calls
  have hgoes : Goes (singly (uploadAndRun ledMux program : Action F Unit))
      ((Operation.uploadMoves ledMux program).flatMap Move.singly) :=
    (goes_uploadAndRun ⟨hmux, hprogram⟩).singly
  obtain ⟨⟨result, last⟩, hreturned⟩ := (hgoes known []).returns answer s
  obtain ⟨made, hcalls, hmade⟩ := (hgoes known []).recorded (.answering answer) hreturned
  obtain rfl : calls = made := hcalls
  have hmem : ∀ call ∈ calls, ∃ w ∈ uploadWrites ledMux program, call.1 = .write w.1 w.2 := by
    intro call hcall
    have hc := hmade.mem hcall
    rw [Move.accesses_singly] at hc
    obtain ⟨w, hw, hc⟩ := List.mem_map.1 hc
    exact ⟨w, hw, hc.symm⟩
  have hafter (memory : ChipMemory) : memory.afterAll run.events = memory.afterCalls calls :=
    memory.afterAll_eq_afterCalls run.events
  -- All writes succeeded, or one more was made that failed and left the memory as it was.
  obtain ⟨count, ⟨hcount, hwritten, _⟩ | ⟨w, _, failure, hwritten, rfl⟩⟩ := hmade.written
  · refine ⟨result, last, count, hreturned, fun memory => ?_, hmem, fun w hw => ?_,
      fun _ => hcount⟩
    · rw [hafter, hwritten]
      exact memory.afterCalls_writes _
    · rw [hwritten]
      exact List.mem_map_of_mem hw
  · refine ⟨.error failure, last, count, hreturned, fun memory => ?_, hmem, fun w hw => ?_, nofun⟩
    · rw [hafter, hwritten, ChipMemory.afterCalls_missed]
      exact memory.afterCalls_writes _
    · rw [hwritten]
      exact List.mem_append_left _ (List.mem_map_of_mem hw)

/-- An upload over a bus writes one register at a time: it ends like the upload that does, on
registers which answer each write as its transaction ends, and it leaves the lines as that does. Its
calls are those of the transactions. -/
theorem uploadAndRun_over {L : Type} (device : Device L) (hmux : ledMux.length ≤ Page.size)
    (hprogram : program.length ≤ Page.size) (answer : (c : LineCall L) → σ → c.Reply F × σ)
    (known : Option EngineStatus) (s : σ) :
    let w : World (.lines L F) σ := .answering answer
    let upload := ((device.perform (uploadAndRun ledMux program)).run.run known).run w s
    let writes := (singly (uploadAndRun ledMux program : Action F Unit)).run.run known
    ∃ registers : (c : RegisterCall) → σ → Except (Failure F) Unit × σ,
      let chip : World (.registers F) σ := .answering registers
      w.through device.answer = chip ∧ upload.outcome = (writes.run chip s).outcome ∧
        upload.world = (writes.run chip s).world ∧
        callsOf upload.events = (writes.exchanges chip s).flatMap fun x =>
          callsOf ((device.answer x.call).run w x.world).events := by
  intro w upload writes
  have hmute : (writes.handle device.answer).mute =
      ((device.perform (uploadAndRun ledMux program)).run.run known).mute :=
    device.mute_perform_singly (goes_uploadAndRun ⟨hmux, hprogram⟩)
      (Operation.uploadMoves_fit hmux hprogram) known
  -- But for the log, the operation over the bus is its single writes made by the bus.
  obtain ⟨houtcome, hworld, hcalls⟩ := run_of_mute_eq hmute w s
  obtain ⟨houtcome', hworld', hcalls'⟩ := run_handle (device.answer_returns answer) writes s
  obtain ⟨registers, hregisters⟩ := World.through_answering (device.answer_returns answer)
  rw [hregisters] at houtcome' hworld' hcalls'
  exact ⟨registers, hregisters, houtcome.symm.trans houtcome', hworld.symm.trans hworld',
    hcalls.symm.trans hcalls'⟩

/-- An upload that writes one register at a time, as it does over a bus, whatever the chip held and
whichever of the writes fails: it returns, and it writes into program memory and into the registers
0x01, 0x02 and 0x4F only, of which all others stay as they were. If it succeeds the two pages hold
the two buffers, before the rest of what they held, and engine 1 runs. Otherwise they hold a part of
the buffers, before the rest of what they held, and the program page is as it was unless the whole
mux table was written. -/
theorem uploadAndRun_image (hmux : ledMux.length ≤ 32) (hprogram : program.length ≤ 32)
    (answer : (c : RegisterCall) → σ → Except (Failure F) Unit × σ) (known : Option EngineStatus)
    (s : σ) (memory : ChipMemory) (hpages : ∀ page, (memory.pages page).length = 32) :
    let run := ((singly (uploadAndRun ledMux program : Action F Unit)).run.run known).run
      (.answering answer) s
    let calls := callsOf run.events
    let now := memory.afterAll run.events
    let Holds (mux code : List UInt8) : Prop :=
      now.pages .ledMux = mux ++ (memory.pages .ledMux).drop mux.length ∧
        now.pages .program = code ++ (memory.pages .program).drop code.length
    (∀ register, register ∉ [0x01, 0x02, 0x4F] →
        now.registers register = memory.registers register) ∧
      (∀ call ∈ calls, ∃ register value, call.1 = .write register value ∧
        (register ∈ [0x01, 0x02, 0x4F] ∨ 0x50 ≤ register ∧ register ≤ 0x6F)) ∧
      ∃ result last, run.outcome = .returned (result, last) ∧
        match result with
        | .ok _ => Holds ledMux program ∧ now.registers 0x02 = some 0x80 ∧
            now.registers 0x01 = some 0x80 ∧ now.registers 0x4F = some 0
        | .error _ => ∃ mux code, mux <+: ledMux ∧ code <+: program ∧ Holds mux code ∧
            (code = [] ∨ mux = ledMux ∧ ∀ w ∈ (RegisterCall.writeBlock 0x50 ledMux).writes,
              AnsweredAccess.made (.write w.1 w.2) ∈ calls) := by
  intro run calls now Holds
  obtain ⟨result, last, count, hreturned, hafter, hmem, hmade, hcount⟩ :=
    uploadAndRun_written hmux hprogram answer known s
  have hnow : now = memory.writeAll ((uploadWrites ledMux program).take count) := hafter memory
  refine ⟨fun register hregister => ?_, fun call hcall => ?_, result, last, hreturned, ?_⟩
  · rw [hnow]
    refine memory.registers_writeAll fun w hw => ?_
    refine (mem_uploadWrites hmux hprogram (List.mem_of_mem_take hw)).imp_right fun hw => ?_
    exact ⟨(plain_of_control hw).2, fun heq => hregister (heq ▸ hw)⟩
  · obtain ⟨w, hw, hc⟩ := hmem call hcall
    exact ⟨w.1, w.2, hc,
      (mem_uploadWrites hmux hprogram hw).symm.imp_right ChipMemory.isPaged_iff.1⟩
  · obtain ⟨mux, code, hmuxPart, hcodePart, hmuxPage, hcodePage, hfirst, hall⟩ :=
      image_take memory hmux hprogram hpages count
    rw [← hnow] at hmuxPage hcodePage
    cases result with
    | ok =>
      obtain ⟨rfl, rfl⟩ := hall (hcount rfl)
      have hregisters := @registers_uploadWrites mux code memory hprogram
      rw [← List.take_of_length_le (hcount rfl), ← hnow] at hregisters
      exact ⟨⟨hmuxPage, hcodePage⟩, hregisters⟩
    | error failure =>
      refine ⟨mux, code, hmuxPart, hcodePart, ⟨hmuxPage, hcodePage⟩, ?_⟩
      exact hfirst.imp_right fun ⟨hmux, hfull⟩ => ⟨hmux, fun w hw => hmade w (hfull hw)⟩

/-- The second byte of the program cannot be written. -/
theorem uploadAndRun_image_broken :
    let ledMux : List UInt8 := [0x9C, 0x10]
    let program : List UInt8 := [1, 2, 3]
    let memory : ChipMemory := ⟨fun _ => some 0x11, fun _ => List.replicate 32 7⟩
    let run := ((singly (uploadAndRun ledMux program : Action Unit Unit)).run.run none).run
      (.answering (brokenRegisters [6])) 0
    let now := memory.afterAll run.events
    ledMux.length ≤ 32 ∧ program.length ≤ 32 ∧ (∀ page, (memory.pages page).length = 32) ∧
      run.outcome = .returned (.error (.io ()), some (.loadProgram .program)) ∧
      (∀ register, register ∉ [0x01, 0x02, 0x4F] → now.registers register = some 0x11) ∧
      now.pages .ledMux = ledMux ++ List.replicate 30 7 ∧
      now.pages .program = [1] ++ List.replicate 31 7 := by
  intro ledMux program memory run now
  have hmux : ledMux.length ≤ 32 := by decide
  have hprogram : program.length ≤ 32 := by decide
  have hpages : ∀ page, (memory.pages page).length = 32 := fun _ => List.length_replicate
  obtain ⟨hregisters, _⟩ :=
    uploadAndRun_image hmux hprogram (brokenRegisters [6]) none 0 memory hpages
  exact ⟨hmux, hprogram, hpages, rfl, hregisters, by decide +kernel, by decide +kernel⟩

end Image

end Chip

end LedSequencer
