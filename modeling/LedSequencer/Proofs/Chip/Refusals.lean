import LedSequencer.Proofs.Bus.Confined
import LedSequencer.Proofs.Chip.Refinement
import LedSequencer.Proofs.Chip.Session

/-! What the operations on the chip refuse. Main statement: an upload is refused for its length and
a tape for its index, exactly where they do not fit and before anything is done on the bus; nothing
is refused later on. -/
namespace LedSequencer
open Routine

/-- The failure that ends an operation is that of one of its accesses. -/
theorem Move.Made.blames {F : Type} {moves : List Move} {known last : Option EngineStatus}
    {calls : List (AnsweredAccess F)} {failure : Failure F}
    (h : Made moves known calls (.error failure) last) :
    ∃ c, AnsweredAccess.missed c failure ∈ calls := by
  obtain ⟨i, _, ⟨_, _, hok⟩ | ⟨c, failure', _, rfl, herror⟩⟩ := h.cut
  · exact absurd hok nofun
  · obtain rfl := Except.error.inj herror
    exact ⟨c, List.mem_append_right _ List.mem_cons_self⟩

/-- The accesses of an operation that is not refused fit into a page. -/
theorem Operation.moves?_fit {op : Operation} {moves : List Move} (h : op.moves? = some moves) :
    ∀ c ∈ Move.accesses moves, c.Fits := by
  cases op with
  | bringUp setup =>
    obtain rfl := Option.some.inj h
    rw [accesses_bringUpMoves, ← Chip.access_bringUpStages]
    exact List.forall_mem_map.2 (Chip.bringUpStages_fit setup)
  | uploadAndRun ledMux program =>
    obtain ⟨hfits, h⟩ := Option.ite_none_right_eq_some.1 h
    obtain rfl := Option.some.inj h
    exact uploadMoves_fit hfits.1 hfits.2
  | play index =>
    obtain ⟨tape, _, rfl⟩ := Option.map_eq_some_iff.1 h
    obtain ⟨hmux, hprogram⟩ := Chip.fits_tape tape
    exact uploadMoves_fit hmux hprogram
  | setCurrent led current =>
    obtain ⟨_, h⟩ := Option.ite_none_right_eq_some.1 h
    obtain rfl := Option.some.inj h
    exact List.forall_mem_singleton.2 trivial
  | runEngine =>
    obtain rfl := Option.some.inj h
    exact List.forall_mem_cons.2 ⟨trivial, List.forall_mem_singleton.2 trivial⟩
  | reset | enable on | selectPage page | loadEngines | haltEngines =>
    obtain rfl := Option.some.inj h
    exact List.forall_mem_singleton.2 trivial

theorem Chip.oversize?_eq_some {ledMux program : List UInt8} {length : Nat} :
    oversize? ledMux program = some length ↔
      if Page.size < ledMux.length then length = ledMux.length
      else Page.size < program.length ∧ length = program.length := by
  unfold oversize?
  by_cases hmux : Page.size < ledMux.length
  · simp [hmux, eq_comm]
  · by_cases hprogram : Page.size < program.length
    · simp [hmux, hprogram, eq_comm]
    · simp [hmux, hprogram]

section Runs

variable {L F σ : Type} (device : Device L) (answer : (c : LineCall L) → σ → c.Reply F × σ)

/-- The accesses of an operation over a bus are those that it makes to registers which answer as the
bus does. -/
theorem Device.accesses_turn (w : World (.lines L F) σ) (t : Turn σ) :
    (device.accesses w [t]).map Exchange.answered =
      callsOf (t.events (w.through device.answer)) := by
  rw [accesses, List.flatMap_singleton]
  exact (callsOf_run _ _ t.world).symm

namespace Turn

variable (t : Turn σ)

/-- An operation that is not refused to begin with returns, and neither it nor any of its accesses
fails for a refusal. -/
theorem unrefused {moves : List Move} (h : t.operation.moves? = some moves) :
    let w : World (.lines L F) σ := .answering answer
    (∃ result last, (t.runOver device w).outcome = .returned (result, last) ∧ Unrefused result) ∧
      ∀ x ∈ device.accesses w [t], Unrefused x.reply := by
  intro w
  obtain ⟨registers, hregisters⟩ := World.through_answering (device.answer_returns answer)
  obtain ⟨result, hreturned, hmade⟩ := t.made registers h
  rw [← hregisters] at hreturned hmade
  have haccesses := device.accesses_turn w t
  have hunrefused : ∀ x ∈ device.accesses w [t], Unrefused x.reply := by
    intro x hx
    have hcall : x.answered ∈ callsOf (t.events (w.through device.answer)) :=
      haccesses ▸ List.mem_map_of_mem hx
    have hfits : x.call.Fits := Operation.moves?_fit h _ (hmade.mem hcall)
    obtain ⟨_, hreply⟩ := (device.answer_confined hfits [] nofun).recorded w
      (device.returned_of_mem_accesses hx)
    exact hreply
  refine ⟨⟨result, _, (t.runOver_eq device answer).1.trans hreturned, ?_⟩, hunrefused⟩
  -- The failure of an operation is that of one of its accesses.
  rintro failure rfl
  obtain ⟨c, hmissed⟩ := hmade.blames
  rw [← haccesses] at hmissed
  obtain ⟨x, hx, hxc⟩ := List.mem_map.1 hmissed
  have hreply : x.reply = .error failure := by
    obtain ⟨call, world, reply⟩ := x
    cases hxc
    rfl
  exact hunrefused x hx failure hreply

/-- An operation that is refused to begin with does nothing on the bus, and what is known of the
engines stays. -/
theorem refused_runOver (h : t.operation.moves? = none) :
    let w : World (.lines L F) σ := .answering answer
    callsOf (t.runOver device w).events = [] ∧ t.leavesOver device w = t.known ∧
      device.accesses w [t] = [] := by
  intro w
  obtain ⟨hcalls, hleaves, _⟩ := t.refused (w.through device.answer) h
  obtain ⟨houtcome, _, hevents⟩ := t.runOver_eq device answer
  rw [← device.accesses_turn w t] at hcalls
  have hnone : device.accesses w [t] = [] := List.map_eq_nil_iff.1 hcalls
  refine ⟨?_, ?_, hnone⟩
  · rw [Device.accesses, List.flatMap_singleton] at hnone
    rw [hevents, hnone, List.flatMap_nil]
  · rw [leavesOver, houtcome]
    exact hleaves

end Turn

theorem Unrefused.ne_programTooLarge {result : Except (Failure F) Unit} (h : Unrefused result)
    (length : Nat) : result ≠ .error (.programTooLarge length) :=
  fun heq => absurd (h _ heq) nofun

theorem Unrefused.ne_indexOutOfRange {result : Except (Failure F) Unit} (h : Unrefused result)
    (index : Nat) : result ≠ .error (.indexOutOfRange index) :=
  fun heq => absurd (h _ heq) nofun

namespace Device

variable (known : Option EngineStatus) (s : σ)

/-- An upload fails for the length of its buffers exactly if one of them is too long. -/
theorem uploadAndRun_refuses (ledMux program : List UInt8) :
    ∃ result last, (Turn.runOver ⟨.uploadAndRun ledMux program, known, s⟩ device
        (.answering answer)).outcome = .returned (result, last) ∧
      (∀ length, result = .error (.programTooLarge length) ↔
        Chip.oversize? ledMux program = some length) ∧
      ∀ index, result ≠ .error (.indexOutOfRange index) := by
  cases hsize : Chip.oversize? ledMux program with
  | none =>
    have hmoves : (Operation.uploadAndRun ledMux program).moves? =
        some (Operation.uploadMoves ledMux program) := if_pos (Chip.oversize?_eq_none.1 hsize)
    obtain ⟨⟨result, last, hresult, hok⟩, _⟩ :=
      Turn.unrefused device answer ⟨_, known, s⟩ hmoves
    refine ⟨result, last, hresult, fun length => ?_, hok.ne_indexOutOfRange⟩
    exact iff_of_false (hok.ne_programTooLarge length) (Option.some_ne_none length).symm
  | some size =>
    have hrefused : (Turn.runOver ⟨.uploadAndRun ledMux program, known, s⟩ device
        (.answering answer)).outcome = .returned (.error (.programTooLarge size), known) := by
      simp only [Turn.runOver, Operation.action, Chip.uploadAndRun, hsize]
      rfl
    refine ⟨_, _, hrefused, fun length => ?_, fun index => ?_⟩
    · simp
    · simp

/-- A tape is refused exactly if there is none with its index, and never for its length. -/
theorem play_refuses (index : Nat) :
    ∃ result last, (Turn.runOver ⟨.play index, known, s⟩ device
        (.answering answer)).outcome = .returned (result, last) ∧
      (∀ i, result = .error (.indexOutOfRange i) ↔ Tape.all[index]? = none ∧ i = index) ∧
      ∀ length, result ≠ .error (.programTooLarge length) := by
  cases htape : Tape.all[index]? with
  | none =>
    have hrefused : (Turn.runOver ⟨.play index, known, s⟩ device
        (.answering answer)).outcome = .returned (.error (.indexOutOfRange index), known) := by
      simp only [Turn.runOver, Operation.action, Chip.play, htape]
      rfl
    refine ⟨_, _, hrefused, fun i => ?_, fun length => ?_⟩
    · simp [eq_comm]
    · simp
  | some tape =>
    have hmoves : (Operation.play index).moves? =
        some (Operation.uploadMoves tape.ledMux Tape.playerCode) := by
      rw [Operation.moves?, htape]
      rfl
    obtain ⟨⟨result, last, hresult, hok⟩, _⟩ :=
      Turn.unrefused device answer ⟨_, known, s⟩ hmoves
    refine ⟨result, last, hresult, fun i => ?_, hok.ne_programTooLarge⟩
    exact iff_of_false (hok.ne_indexOutOfRange i) fun h => Option.some_ne_none tape h.1

/-- On every bus, whatever its lines answer and whatever is known of the engines: an upload is
refused as too large if and only if one of its buffers does not fit into a page, with the length of
the first that does not, and a tape if and only if there is none with its index; nothing else is
refused. An operation that ends with a refusal did nothing on the bus, neither an output nor a
sample nor a delay, and the engines are known as before. No access of any operation is refused, so
the check on the length of a block never breaks off an upload. -/
theorem operations_refuse :
    let w : World (.lines L F) σ := .answering answer
    let turn (op : Operation) : Turn σ := ⟨op, known, s⟩
    let run (op : Operation) := (turn op).runOver device w
    (∀ ledMux program, ∃ result last,
      (run (.uploadAndRun ledMux program)).outcome = .returned (result, last) ∧
        (∀ length, result = .error (.programTooLarge length) ↔
          if 32 < ledMux.length then length = ledMux.length
          else 32 < program.length ∧ length = program.length) ∧
        ∀ index, result ≠ .error (.indexOutOfRange index)) ∧
    (∀ index, ∃ result last, (run (.play index)).outcome = .returned (result, last) ∧
      (∀ i, result = .error (.indexOutOfRange i) ↔ 2 ≤ index ∧ i = index) ∧
        ∀ length, result ≠ .error (.programTooLarge length)) ∧
    (∀ setup, ∃ result last, (run (.bringUp setup)).outcome = .returned (result, last) ∧
      (∀ length, result ≠ .error (.programTooLarge length)) ∧
        ∀ index, result ≠ .error (.indexOutOfRange index)) ∧
    (∀ op failure last, (run op).outcome = .returned (.error failure, last) →
      ((∃ length, failure = .programTooLarge length) ∨
        ∃ index, failure = .indexOutOfRange index) →
      callsOf (run op).events = [] ∧ last = known) ∧
    ∀ op, ∀ x ∈ device.accesses w [turn op], ∀ length,
      x.reply ≠ .error (.programTooLarge length) := by
  intro w turn run
  have hmade (op : Operation) {moves : List Move} (h : op.moves? = some moves) :=
    (turn op).unrefused device answer h
  have hrefused (op : Operation) (h : op.moves? = none) :=
    (turn op).refused_runOver device answer h
  refine ⟨?_, ?_, ?_, ?_, ?_⟩
  · intro ledMux program
    obtain ⟨result, last, hresult, hlong, hrange⟩ :=
      uploadAndRun_refuses device answer known s ledMux program
    exact ⟨result, last, hresult, fun length => (hlong length).trans Chip.oversize?_eq_some, hrange⟩
  · intro index
    obtain ⟨result, last, hresult, hrange, hlong⟩ := play_refuses device answer known s index
    have hindex : Tape.all[index]? = none ↔ 2 ≤ index := List.getElem?_eq_none_iff
    exact ⟨result, last, hresult, fun i => (hrange i).trans (and_congr_left' hindex), hlong⟩
  · intro setup
    obtain ⟨⟨result, last, hresult, hok⟩, _⟩ := hmade (.bringUp setup) rfl
    exact ⟨result, last, hresult, hok.ne_programTooLarge, hok.ne_indexOutOfRange⟩
  · intro op failure last hfailed hrefusal
    cases hmoves : op.moves? with
    | none =>
      obtain ⟨hcalls, hleaves, _⟩ := hrefused op hmoves
      rw [Turn.leavesOver, hfailed] at hleaves
      exact ⟨hcalls, hleaves⟩
    | some moves =>
      -- An operation with moves ends as an access does, and accesses are never refused.
      obtain ⟨⟨result, _, hresult, hok⟩, _⟩ := hmade op hmoves
      obtain ⟨rfl, _⟩ := Prod.mk.inj (Outcome.returned.inj (hfailed.symm.trans hresult))
      obtain ⟨length, rfl⟩ | ⟨index, rfl⟩ := hrefusal
      · exact absurd rfl (hok.ne_programTooLarge length)
      · exact absurd rfl (hok.ne_indexOutOfRange index)
  · intro op x hx
    cases hmoves : op.moves? with
    | none =>
      obtain ⟨_, _, hnone⟩ := hrefused op hmoves
      rw [hnone] at hx
      exact absurd hx List.not_mem_nil
    | some moves =>
      obtain ⟨_, haccesses⟩ := hmade op hmoves
      exact (haccesses x hx).ne_programTooLarge

end Device

end Runs

end LedSequencer
