import LedSequencer.Proofs.Bus.Ensures
import LedSequencer.Proofs.Bus.Parts
import LedSequencer.Proofs.Line.Wire
import Mathlib.Data.Nat.Bitwise

/-! The edges that the parts of a transaction put on a bus, whatever faults and levels they meet. -/
namespace LedSequencer

namespace Levels

/-- The edges ahead of a start condition: a stop condition if the data line is low under a high
clock, a clock pulse if the clock is low. -/
def leadIn (levels : Levels) : List Edge :=
  (if levels.clock && !levels.data then [.stop] else []) ++
    if levels.clock then [] else [.clockRise true]

end Levels

namespace Bus
open Routine

variable {L F α β : Type} [DecidableEq L] (bus : Bus L)

section Steps

variable {wire : Wire}

theorem setClock_wire (high : Bool) (Q : Except (Failure F) Unit → Wire → Prop) :
    (bus.setClock high : Action L F Unit).run.Ensures (Wire.next bus.clock) Q wire ↔
      (∀ fault, Q (.error (.io fault)) wire) ∧ Q (.ok ()) (wire.drive true high) := by
  have hfault (fault : F) : wire.next bus.clock
      (.called (.drive bus.clock high) (.error fault) : Event (.lines L F) (Notice F)) = wire :=
    Wire.next_eq_self wire rfl
  simp only [ensures_setClock, hfault, Wire.next_drive, decide_true]

theorem setData_wire (distinct : bus.clock ≠ bus.data) (high : Bool)
    (Q : Except (Failure F) Unit → Wire → Prop) :
    (bus.setData high : Action L F Unit).run.Ensures (Wire.next bus.clock) Q wire ↔
      (∀ fault, Q (.error (.io fault)) wire) ∧ Q (.ok ()) (wire.drive false high) := by
  have hfault (fault : F) : wire.next bus.clock
      (.called (.drive bus.data high) (.error fault) : Event (.lines L F) (Notice F)) = wire :=
    Wire.next_eq_self wire rfl
  simp only [ensures_setData, hfault, Wire.next_drive, decide_eq_false distinct.symm]

theorem sampleData_wire (Q : Except (Failure F) UInt8 → Wire → Prop) :
    (bus.sampleData : Action L F UInt8).run.Ensures (Wire.next bus.clock) Q wire ↔
      (∀ fault, Q (.error (.io fault)) wire) ∧ ∀ level, Q (.ok level) wire := by
  have hsample (reply : Except F UInt8) : wire.next bus.clock
      (.called (.sample bus.data) reply : Event (.lines L F) (Notice F)) = wire :=
    Wire.next_eq_self wire rfl
  simp only [ensures_sampleData, hsample]

theorem settle_wire (Q : Except (Failure F) Unit → Wire → Prop) :
    (bus.settle : Action L F Unit).run.Ensures (Wire.next bus.clock) Q wire ↔ Q (.ok ()) wire := by
  rw [ensures_settle, Wire.next_eq_self wire rfl]

theorem checkLevel_wire (level : UInt8) (Q : Except (Failure F) UInt8 → Wire → Prop) :
    (checkLevel level : Action L F UInt8).run.Ensures (Wire.next bus.clock) Q wire ↔
      if level ≤ 1 then Q (.ok level) wire else Q (.error (.invalidLevel level)) wire := by
  rw [ensures_checkLevel, Wire.next_noted]

theorem reporting_wire (notice : Failure F → Notice F) (act : Action L F α)
    (Q : Except (Failure F) α → Wire → Prop) :
    (reporting notice act).run.Ensures (Wire.next bus.clock) Q wire ↔
      act.run.Ensures (Wire.next bus.clock) Q wire := by
  rw [ensures_reporting]
  apply ensures_congr
  intro result wire
  cases result with
  | ok a => exact Iff.rfl
  | error e => simp only [Wire.next_noted]

end Steps

theorem start_wave (distinct : bus.clock ≠ bus.data) (levels : Levels) (edges : List Edge) :
    (bus.start : Action L F Unit).run.Ensures (Wire.next bus.clock) (fun result wire =>
      match result with
      | .ok _ => wire = ⟨⟨true, false⟩, edges ++ levels.leadIn ++ [.start]⟩
      | .error _ => wire = ⟨levels, edges⟩ ∨
          wire = ⟨⟨levels.clock, true⟩, edges ++ (levels.edge? false true).toList⟩ ∨
          wire = ⟨Levels.idle, edges ++ levels.leadIn⟩) ⟨levels, edges⟩ := by
  simp only [start, ensures_run_bind, settle_wire, setData_wire bus distinct, setClock_wire]
  obtain ⟨clock, data⟩ := levels
  -- Only here do the levels that came before decide about edges, so each of the four is followed.
  cases clock <;> cases data <;>
    simp [Wire.drive, Levels.drive, Levels.edge?, Levels.leadIn, Levels.idle]

theorem sendBit_wave (distinct : bus.clock ≠ bus.data) (bit : Bool) (levels : Levels)
    (edges : List Edge) :
    (bus.sendBit bit : Action L F Unit).run.Ensures (Wire.next bus.clock) (fun result wire =>
      match result with
      | .ok _ => wire = ⟨⟨true, bit⟩, edges ++ [.clockRise bit]⟩
      | .error _ => wire.edges = edges) ⟨levels, edges⟩ := by
  simp only [sendBit, ensures_run_bind, settle_wire, setData_wire bus distinct, setClock_wire]
  simp [Wire.drive, Levels.drive, Levels.edge?]

theorem stop_wave (distinct : bus.clock ≠ bus.data) (levels : Levels) (edges : List Edge) :
    (bus.stop : Action L F Unit).run.Ensures (Wire.next bus.clock) (fun result wire =>
      match result with
      | .ok _ => wire = ⟨.idle, edges ++ [.clockRise false, .stop]⟩
      | .error _ => wire.edges = edges ∨ wire = ⟨⟨true, false⟩, edges ++ [.clockRise false]⟩)
      ⟨levels, edges⟩ := by
  simp only [stop, ensures_run_bind, settle_wire, setData_wire bus distinct, setClock_wire]
  simp [Wire.drive, Levels.drive, Levels.edge?, Levels.idle]

/-- After some of the bits in `bits` were clocked out; all of them, if nothing failed. -/
def Clocked (edges : List Edge) (bits : List Bool) (result : Except (Failure F) α) (wire : Wire) :
    Prop :=
  ∃ sent, sent <+: bits ∧ wire.edges = edges ++ sent.map .clockRise ∧
    ∀ a, result = .ok a → sent = bits

theorem clocked_bind {act : Action L F α} {f : α → Action L F β} {edges : List Edge}
    {bits more : List Bool} {wire : Wire}
    (h : act.run.Ensures (Wire.next bus.clock) (Clocked edges bits) wire)
    (hf : ∀ a levels, (f a).run.Ensures (Wire.next bus.clock)
      (Clocked (edges ++ bits.map .clockRise) more) ⟨levels, edges ++ bits.map .clockRise⟩) :
    (act >>= f).run.Ensures (Wire.next bus.clock) (Clocked edges (bits ++ more)) wire := by
  rw [ensures_run_bind]
  refine h.mono ?_
  intro result wire
  rintro ⟨sent, hsent, hedges, hok⟩
  -- A failure of the first action ends the bits where they are.
  match result with
  | .error e =>
    exact ⟨sent, hsent.trans (List.prefix_append _ _), hedges, fun a h => nomatch h⟩
  | .ok a =>
    obtain rfl := hok a rfl
    obtain ⟨levels, _⟩ := wire
    obtain rfl := hedges
    refine (hf a levels).mono ?_
    intro result wire
    rintro ⟨sent', hsent', hedges', hok'⟩
    refine ⟨sent ++ sent', (List.prefix_append_right_inj _).2 hsent', ?_, fun b h => ?_⟩
    · rw [hedges', List.map_append, List.append_assoc]
    · rw [hok' b h]

theorem sendBits_wave (distinct : bus.clock ≠ bus.data) (bits : List Bool) (edges : List Edge)
    (levels : Levels) :
    (bits.forM bus.sendBit : Action L F Unit).run.Ensures (Wire.next bus.clock)
      (Clocked edges bits) ⟨levels, edges⟩ := by
  induction bits generalizing edges levels with
  | nil => exact ⟨[], List.prefix_rfl, by simp, fun _ _ => rfl⟩
  | cons bit bits ih =>
    have hbit : (bus.sendBit bit : Action L F Unit).run.Ensures (Wire.next bus.clock)
        (Clocked edges [bit]) ⟨levels, edges⟩ := by
      refine (sendBit_wave bus distinct bit levels edges).mono ?_
      intro result wire h
      match result with
      | .ok _ => exact ⟨[bit], List.prefix_rfl, by rw [h]; rfl, fun _ _ => rfl⟩
      | .error _ => exact ⟨[], List.nil_prefix, by simpa using h, fun _ h => nomatch h⟩
    rw [List.forM_eq_forM, List.forM_cons]
    exact clocked_bind bus hbit fun _ levels => ih _ levels

/-- The acknowledge pulse comes with the data line let go. -/
theorem acknowledge_wave (distinct : bus.clock ≠ bus.data) (edges : List Edge) (levels : Levels) :
    (do bus.settle; bus.letGo; return .ofLevel (← bus.receiveBit) :
      Action L F Acknowledge).run.Ensures (Wire.next bus.clock)
        (Clocked edges [true]) ⟨levels, edges⟩ := by
  have hnone (failure : Failure F) (l : Levels) :
      Clocked (α := Acknowledge) edges [true] (.error failure) ⟨l, edges⟩ :=
    ⟨[], List.nil_prefix, by simp, fun _ h => nomatch h⟩
  have hpulse (r : Except (Failure F) Acknowledge) (l : Levels) :
      Clocked edges [true] r ⟨l, edges ++ [.clockRise true]⟩ :=
    ⟨[true], List.prefix_rfl, rfl, fun _ _ => rfl⟩
  -- Samples make no edges: every failure falls before the pulse or after it.
  simp only [letGo, receiveBit, bind_assoc, ensures_run_bind, settle_wire,
    setData_wire bus distinct, setClock_wire, sampleData_wire, checkLevel_wire]
  simp [Wire.drive, Levels.drive, Levels.edge?, hnone, hpulse]

/-- The mask of a place shows whether its bit is set. -/
theorem and_place_ne_zero (byte : UInt8) {place : UInt8} (h : place < 8) :
    (byte &&& (1 <<< place) != 0) = byte.toNat.testBit place.toNat := by
  have hplace : place.toNat < 8 := UInt8.lt_iff_toNat_lt.1 h
  have hmask : ((1 : UInt8) <<< place).toNat = 2 ^ place.toNat := by
    rw [UInt8.toNat_shiftLeft, Nat.mod_eq_of_lt hplace, UInt8.toNat_one, Nat.one_shiftLeft]
    exact Nat.mod_eq_of_lt (Nat.pow_lt_pow_right (by decide) hplace)
  have hmasked : (byte &&& (1 <<< place)).toNat =
      (byte.toNat.testBit place.toNat).toNat * 2 ^ place.toNat := by
    rw [UInt8.toNat_and, hmask]
    exact Nat.and_two_pow _ _
  cases hbit : byte.toNat.testBit place.toNat with
  | false =>
    rw [hbit] at hmasked
    have hzero : byte &&& (1 <<< place) = 0 := UInt8.toNat_inj.1 (hmasked.trans (Nat.zero_mul _))
    rw [hzero]
    rfl
  | true =>
    apply bne_iff_ne.2
    intro hzero
    rw [hzero, hbit, Bool.toNat_true, Nat.one_mul] at hmasked
    exact absurd hmasked.symm (Nat.pos_iff_ne_zero.1 (Nat.two_pow_pos _))

/-- The bits of a byte are those at the places 7 to 0 of its number. -/
theorem bitsOf_eq_testBit (byte : UInt8) :
    bitsOf byte = [7, 6, 5, 4, 3, 2, 1, 0].map byte.toNat.testBit := by
  have hplaces : ∀ place ∈ ([7, 6, 5, 4, 3, 2, 1, 0] : List UInt8), place < 8 := by simp
  exact List.map_congr_left fun place hplace => and_place_ne_zero byte (hplaces place hplace)

/-- What a receiver takes in from some bytes: their bits, and the data line let go in the
acknowledge pulse of each. -/
def frameBits (bytes : List UInt8) : List Bool := bytes.flatMap fun byte => bitsOf byte ++ [true]

theorem sendByte_wave (distinct : bus.clock ≠ bus.data) (byte : UInt8) (edges : List Edge)
    (levels : Levels) :
    (bus.sendByte byte : Action L F Acknowledge).run.Ensures (Wire.next bus.clock)
      (Clocked edges (frameBits [byte])) ⟨levels, edges⟩ := by
  have hbits : frameBits [byte] = bitsOf byte ++ [true] := rfl
  rw [hbits]
  exact clocked_bind bus (sendBits_wave bus distinct (bitsOf byte) edges levels)
    fun _ levels => acknowledge_wave bus distinct _ levels

theorem sendPart_wave (distinct : bus.clock ≠ bus.data) (part : BytePart) (byte : UInt8)
    (missing : Failure F) (edges : List Edge) (levels : Levels) :
    (bus.sendPart part byte missing).run.Ensures (Wire.next bus.clock)
      (Clocked edges (frameBits [byte])) ⟨levels, edges⟩ := by
  rw [sendPart, reporting_wire, ← List.append_nil (frameBits [byte])]
  refine clocked_bind bus (sendByte_wave bus distinct byte edges levels) ?_
  intro answer levels
  cases answer with
  | ack => exact ⟨[], List.prefix_rfl, by simp, fun _ _ => rfl⟩
  | nack => exact ⟨[], List.prefix_rfl, by simp, fun _ _ => rfl⟩

theorem sendFrame_wave (distinct : bus.clock ≠ bus.data) (address register value : UInt8)
    (edges : List Edge) (levels : Levels) :
    (bus.sendFrame address register value : Action L F Unit).run.Ensures (Wire.next bus.clock)
      (Clocked edges (frameBits [address, register, value])) ⟨levels, edges⟩ := by
  have hbits : frameBits [address, register, value] =
      frameBits [address] ++ (frameBits [register] ++ frameBits [value]) := by
    simp [frameBits]
  rw [hbits]
  refine clocked_bind bus (sendPart_wave bus distinct _ _ _ _ _) ?_
  intro _ levels
  refine clocked_bind bus (sendPart_wave bus distinct _ _ _ _ _) ?_
  intro _ levels
  exact sendPart_wave bus distinct _ _ _ _ _

/-- The edges that a transaction can put on a bus, from some levels on, and the levels that it
leaves. It is `complete` if it succeeded. In between it may fail before its start condition, in its
bytes or in the stop condition that closes it. -/
inductive TransactionWave (levels : Levels) (bytes : List UInt8) :
    (complete : Bool) → List Edge → Levels → Prop where
  | still : TransactionWave levels bytes false [] levels
  | raised :
    TransactionWave levels bytes false (levels.edge? false true).toList ⟨levels.clock, true⟩
  | ready : TransactionWave levels bytes false levels.leadIn .idle
  | broken (bits : List Bool) (after : Levels) (h : bits <+: frameBits bytes) :
    TransactionWave levels bytes false (levels.leadIn ++ .start :: bits.map .clockRise) after
  | pulsed (bits : List Bool) (h : bits <+: frameBits bytes) :
    TransactionWave levels bytes false
      (levels.leadIn ++ .start :: (bits.map .clockRise ++ [.clockRise false])) ⟨true, false⟩
  | stopped (bits : List Bool) (h : bits <+: frameBits bytes) :
    TransactionWave levels bytes false
      (levels.leadIn ++ .start :: (bits.map .clockRise ++ [.clockRise false, .stop])) .idle
  | complete :
    TransactionWave levels bytes true
      (levels.leadIn ++ .start :: ((frameBits bytes).map .clockRise ++ [.clockRise false, .stop]))
      .idle

theorem closing_wave (distinct : bus.clock ≠ bus.data) (register : UInt8)
    (sent : Except (Failure F) Unit) (levels : Levels) (edges : List Edge) :
    (bus.closing register sent).run.Ensures (Wire.next bus.clock) (fun result wire =>
      match result with
      | .ok _ => sent = .ok () ∧ wire = ⟨.idle, edges ++ [.clockRise false, .stop]⟩
      | .error _ => wire.edges = edges ∨ wire = ⟨⟨true, false⟩, edges ++ [.clockRise false]⟩ ∨
          wire = ⟨.idle, edges ++ [.clockRise false, .stop]⟩) ⟨levels, edges⟩ := by
  have hstop := stop_wave (F := F) bus distinct levels edges
  cases sent with
  | ok =>
    refine hstop.mono ?_
    intro result wire h
    cases result with
    | ok => exact ⟨rfl, h⟩
    | error => exact h.imp_right Or.inl
  | error failure =>
    rw [closing_run_error, ensures_map, reporting_wire]
    refine hstop.mono ?_
    intro result wire h
    cases result with
    | ok => exact Or.inr (Or.inr h)
    | error => exact h.imp_right Or.inl

theorem transact_wave (distinct : bus.clock ≠ bus.data) (address register value : UInt8)
    (levels : Levels) (edges : List Edge) :
    (bus.transact address register value : Action L F Unit).run.Ensures (Wire.next bus.clock)
      (fun result wire => ∃ wave, wire.edges = edges ++ wave ∧
        TransactionWave levels [address, register, value] result.toBool wave wire.levels)
      ⟨levels, edges⟩ := by
  rw [transact_run, ensures_note, Wire.next_noted, ensures_bind]
  refine (start_wave bus distinct levels edges).mono ?_
  intro result wire h
  cases result with
  | error failure =>
    -- Without a start condition nothing else is tried.
    obtain rfl | rfl | rfl := h
    · exact ⟨_, (List.append_nil _).symm, .still⟩
    · exact ⟨_, rfl, .raised⟩
    · exact ⟨_, rfl, .ready⟩
  | ok =>
    obtain rfl := h
    -- The stop condition follows whatever became of the bytes.
    rw [ensures_bind]
    refine (sendFrame_wave bus distinct address register value _ _).mono ?_
    intro sent wire h
    obtain ⟨bits, hbits, hedges, hok⟩ := h
    obtain ⟨after, edges'⟩ := wire
    refine (closing_wave bus distinct register sent after edges').mono ?_
    intro result wire h
    obtain rfl := hedges
    cases result with
    | ok =>
      obtain ⟨rfl, rfl⟩ := h
      obtain rfl := hok () rfl
      exact ⟨_, by simp, .complete⟩
    | error failure =>
      obtain h | rfl | rfl := h
      · exact ⟨_, by simp [h], .broken bits _ hbits⟩
      · exact ⟨_, by simp, .pulsed bits hbits⟩
      · exact ⟨_, by simp, .stopped bits hbits⟩

section Ownership

variable {wire : Wire}

theorem takeLine_wire (line : L) (Q : Except (Failure F) Unit → Wire → Prop) :
    (takeLine line : Action L F Unit).run.Ensures (Wire.next bus.clock) Q wire ↔
      (∀ fault, Q (.error (.io fault)) wire) ∧ Q (.ok ()) wire := by
  have hrequest (reply : Except F Unit) : wire.next bus.clock
      (.called (.request line) reply : Event (.lines L F) (Notice F)) = wire :=
    Wire.next_eq_self wire rfl
  simp only [ensures_takeLine, hrequest]

theorem freeLine_wire (line : L) (Q : Except (Failure F) Unit → Wire → Prop) :
    (freeLine line : Action L F Unit).run.Ensures (Wire.next bus.clock) Q wire ↔
      (∀ fault, Q (.error (.io fault)) wire) ∧ Q (.ok ()) wire := by
  have hrelease (reply : Except F Unit) : wire.next bus.clock
      (.called (.release line) reply : Event (.lines L F) (Notice F)) = wire :=
    Wire.next_eq_self wire rfl
  simp only [ensures_freeLine, hrelease]

/-- Taking the bus moves nothing on it. -/
theorem acquire_wave :
    (bus.acquire : Action L F Unit).run.Ensures (Wire.next bus.clock) (fun _ after => after = wire)
      wire := by
  simp only [acquire, ensures_run_bind, ensures_run_tryCatch, reporting_wire, takeLine_wire,
    freeLine_wire, ensures_run_note, Wire.next_noted]
  exact ⟨fun _ => trivial, ⟨fun _ => ⟨fun _ => rfl, rfl⟩, trivial⟩⟩

/-- Giving up the bus moves nothing on it. -/
theorem release_wave :
    (bus.release : Action L F Unit).run.Ensures (Wire.next bus.clock) (fun _ after => after = wire)
      wire := by
  simp only [release, ExceptT.run_mk, ensures_bind, reporting_wire, freeLine_wire]
  exact ⟨fun _ => ⟨fun _ => rfl, rfl⟩, ⟨fun _ => rfl, rfl⟩⟩

end Ownership

end Bus

end LedSequencer
