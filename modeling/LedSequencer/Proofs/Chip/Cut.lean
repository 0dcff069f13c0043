import LedSequencer.Proofs.Chip.Session

/-! Bringing up the chip, uploading to it and playing a tape, with accesses that fail. Main
statement: each of them is a fixed list of accesses, cut at the first that fails. -/
namespace LedSequencer

/-- The run of an operation made some accesses strictly in order, up to the first that failed, none
behind it, and ended with the failure of that one. `statuses` are what is known of the engines
afterwards: if the first access failed, if the second one did and so on, and in the end if none
did. -/
def Run.CutAtFailure {F σ : Type}
    (r : Run (.registers F) (Notice F) σ (Except (Failure F) Unit × Option EngineStatus))
    (accesses : List RegisterCall) (statuses : List (Option EngineStatus)) : Prop :=
  ∃ (i : Nat) (last : Option EngineStatus), statuses[i]? = some last ∧
    ((i = accesses.length ∧ callsOf r.events = accesses.map AnsweredAccess.made ∧
        r.outcome = .returned (.ok (), last)) ∨
      ∃ c failure, accesses[i]? = some c ∧
        callsOf r.events = (accesses.take i).map AnsweredAccess.made ++ [.missed c failure] ∧
        r.outcome = .returned (.error failure, last))

variable {F σ : Type} (answer : (c : RegisterCall) → σ → Except (Failure F) Unit × σ)

theorem Turn.cut (t : Turn σ) {moves : List Move} (h : t.operation.moves? = some moves) :
    (t.run (.answering answer)).CutAtFailure (Move.accesses moves)
      (Move.statuses moves t.known) := by
  obtain ⟨result, hreturned, hmade⟩ := t.made answer h
  obtain ⟨i, hlast, ⟨hi, hcalls, rfl⟩ | ⟨c, failure, hc, hcalls, rfl⟩⟩ := hmade.cut
  · exact ⟨i, _, hlast, Or.inl ⟨hi, hcalls, hreturned⟩⟩
  · exact ⟨i, _, hlast, Or.inr ⟨c, failure, hc, hcalls, hreturned⟩⟩

namespace Chip

/-- Whichever accesses fail, the three long operations are strict sequences: 13 accesses that bring
the chip up, 8 that upload two buffers and start engine 1, and the same 8 for a tape. What is known
of the engines moves on with the accesses that succeed, and a tape that there is not costs none. -/
theorem operations_cut (known : Option EngineStatus) (s : σ) (setup : Setup)
    {ledMux program : List UInt8} (hmux : ledMux.length ≤ 32) (hprogram : program.length ≤ 32)
    (index : Nat) :
    let w := World.answering answer
    let uploading (ledMux program : List UInt8) : List RegisterCall :=
      [.write 0x02 0x54, .write 0x4F 1, .writeBlock 0x50 ledMux, .write 0x4F 0,
        .writeBlock 0x50 program, .write 0x02 0x00, .write 0x02 0x80, .write 0x01 0x80]
    let uploaded : List (Option EngineStatus) :=
      [known, known, some (.loadProgram .ledMux), some (.loadProgram .ledMux),
        some (.loadProgram .program), some (.loadProgram .program), some .halted, some .halted,
        some .running]
    let tape : Tape := if index = 0 then .boot else .error
    let bringingUp := ((bringUp setup : Action F Unit).run.run known).run w s
    let running := ((uploadAndRun ledMux program : Action F Unit).run.run known).run w s
    let playing := ((play index : Action F Unit).run.run known).run w s
    bringingUp.CutAtFailure
        ([.write 0x3F 0xFF, .write 0x00 0x40, .write 0x2F setup.misc,
            .write 0x4B setup.engine1Start] ++
          [0, 3, 6, 1, 4, 7, 2, 5, 8].map fun led => .write (0x22 + led) (setup.current led))
        (known :: List.replicate 12 (some .reset) ++ [some .configured]) ∧
      running.CutAtFailure (uploading ledMux program) uploaded ∧
      if index < 2 then playing.CutAtFailure (uploading tape.ledMux Tape.playerCode) uploaded
      else callsOf playing.events = [] ∧
        playing.outcome = .returned (.error (.indexOutOfRange index), known) := by
  intro w uploading uploaded tape bringingUp running playing
  have hup := Turn.cut answer ⟨.bringUp setup, known, s⟩ rfl
  have hfits : (Operation.uploadAndRun ledMux program).moves? =
      some (Operation.uploadMoves ledMux program) := if_pos ⟨hmux, hprogram⟩
  have hrun := Turn.cut answer ⟨.uploadAndRun ledMux program, known, s⟩ hfits
  refine ⟨hup, hrun, ?_⟩
  by_cases hindex : index < 2
  · rw [if_pos hindex]
    have hmoves : (Operation.play index).moves? =
        some (Operation.uploadMoves tape.ledMux Tape.playerCode) := by
      rw [Operation.moves?, Tape.all_of_lt hindex]
      rfl
    exact Turn.cut answer ⟨.play index, known, s⟩ hmoves
  · rw [if_neg hindex]
    have hplay : (play index : Action F Unit).run.run known =
        .note (.noSuchTape index) (.done (.error (.indexOutOfRange index), known)) := by
      rw [play, Tape.all_of_le (Nat.not_lt.1 hindex)]
      rfl
    have hplaying : playing = (Routine.note (.noSuchTape index)
        (.done (.error (.indexOutOfRange index), known))).run w s :=
      congrArg (fun p => Routine.run w p s) hplay
    rw [hplaying]
    exact ⟨rfl, rfl⟩

/-- Selecting the second page of an upload fails while engine 1 is still known to run. -/
theorem operations_cut_broken :
    let running := ((uploadAndRun [0x9C, 0x10] [] : Action Unit Unit).run.run (some .running)).run
      (.answering (brokenRegisters [3])) 0
    ([0x9C, 0x10] : List UInt8).length ≤ 32 ∧ ([] : List UInt8).length ≤ 32 ∧
      running.CutAtFailure
        [.write 0x02 0x54, .write 0x4F 1, .writeBlock 0x50 [0x9C, 0x10], .write 0x4F 0,
          .writeBlock 0x50 [], .write 0x02 0x00, .write 0x02 0x80, .write 0x01 0x80]
        [some .running, some .running, some (.loadProgram .ledMux), some (.loadProgram .ledMux),
          some (.loadProgram .program), some (.loadProgram .program), some .halted, some .halted,
          some .running] ∧
      running.outcome = .returned (.error (.io ()), some (.loadProgram .ledMux)) := by
  intro running
  have hmux : ([0x9C, 0x10] : List UInt8).length ≤ 32 := by decide
  have hprogram : ([] : List UInt8).length ≤ 32 := by decide
  obtain ⟨_, hcut, _⟩ := operations_cut (brokenRegisters [3]) (some .running) 0 .standard hmux
    hprogram 0
  exact ⟨hmux, hprogram, hcut, rfl⟩

end Chip

end LedSequencer
