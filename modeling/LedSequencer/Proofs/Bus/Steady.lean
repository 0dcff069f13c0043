import LedSequencer.Proofs.Bus.Wave
import LedSequencer.Proofs.Line.Steady

/-! A transaction on lines that never fault: its waveform, its inputs and its result are known in
full. -/
namespace LedSequencer

namespace Bus
open Routine

variable {L F : Type} [DecidableEq L] (bus : Bus L) (level : Nat → UInt8)

section Steps

variable {n : Nat} {wire : Wire}

theorem settle_leads : (bus.settle : Action L F Unit).run.Leads (.answering (steadyLines level))
    bus.clock n wire (.ok ()) n wire :=
  ⟨rfl, rfl, Wire.next_eq_self wire rfl⟩

theorem setClock_leads (high : Bool) :
    (bus.setClock high : Action L F Unit).run.Leads (.answering (steadyLines level))
      bus.clock n wire (.ok ()) n (wire.drive true high) := by
  refine ⟨rfl, rfl, (Wire.next_drive bus.clock bus.clock wire high).trans ?_⟩
  rw [decide_eq_true rfl]

theorem setData_leads (distinct : bus.clock ≠ bus.data) (high : Bool) :
    (bus.setData high : Action L F Unit).run.Leads (.answering (steadyLines level))
      bus.clock n wire (.ok ()) n (wire.drive false high) := by
  refine ⟨rfl, rfl, (Wire.next_drive bus.clock bus.data wire high).trans ?_⟩
  rw [decide_eq_false distinct.symm]

theorem sampleData_leads :
    (bus.sampleData : Action L F UInt8).run.Leads (.answering (steadyLines level))
      bus.clock n wire (.ok (level n)) (n + 1) wire :=
  ⟨rfl, rfl, Wire.next_eq_self wire rfl⟩

end Steps

/-- The start condition comes behind the edges that make both lines high. -/
theorem start_leads (distinct : bus.clock ≠ bus.data) (n : Nat) (levels : Levels)
    (edges : List Edge) :
    (bus.start : Action L F Unit).run.Leads (.answering (steadyLines level)) bus.clock
      n ⟨levels, edges⟩ (.ok ()) n ⟨⟨true, false⟩, edges ++ (levels.leadIn ++ [.start])⟩ := by
  have hwire : (((⟨levels, edges⟩ : Wire).drive false true).drive true true).drive false false =
      ⟨⟨true, false⟩, edges ++ (levels.leadIn ++ [.start])⟩ := by
    obtain ⟨clock, data⟩ := levels
    cases clock <;> cases data <;>
      simp [Wire.drive, Levels.drive, Levels.edge?, Levels.leadIn]
  rw [← hwire]
  refine (settle_leads bus level).bind_ok ?_
  refine (setData_leads bus level distinct true).bind_ok ((settle_leads bus level).bind_ok ?_)
  refine (setClock_leads bus level true).bind_ok ((settle_leads bus level).bind_ok ?_)
  exact (setData_leads bus level distinct false).bind_ok (settle_leads bus level)

theorem stop_leads (distinct : bus.clock ≠ bus.data) (n : Nat) (levels : Levels)
    (edges : List Edge) :
    (bus.stop : Action L F Unit).run.Leads (.answering (steadyLines level)) bus.clock
      n ⟨levels, edges⟩ (.ok ()) n ⟨.idle, edges ++ [.clockRise false, .stop]⟩ := by
  have hwire :
      ((((⟨levels, edges⟩ : Wire).drive true false).drive false false).drive true true).drive
        false true = ⟨.idle, edges ++ [.clockRise false, .stop]⟩ := by
    simp [Wire.drive, Levels.drive, Levels.edge?, Levels.idle]
  rw [← hwire]
  refine (setClock_leads bus level false).bind_ok ((settle_leads bus level).bind_ok ?_)
  refine (setData_leads bus level distinct false).bind_ok ((settle_leads bus level).bind_ok ?_)
  refine (setClock_leads bus level true).bind_ok ((settle_leads bus level).bind_ok ?_)
  exact (setData_leads bus level distinct true).bind_ok (settle_leads bus level)

theorem sendBit_leads (distinct : bus.clock ≠ bus.data) (bit : Bool) (n : Nat) (levels : Levels)
    (edges : List Edge) :
    (bus.sendBit bit : Action L F Unit).run.Leads (.answering (steadyLines level)) bus.clock
      n ⟨levels, edges⟩ (.ok ()) n ⟨⟨true, bit⟩, edges ++ [.clockRise bit]⟩ := by
  have hwire : (((⟨levels, edges⟩ : Wire).drive true false).drive false bit).drive true true =
      ⟨⟨true, bit⟩, edges ++ [.clockRise bit]⟩ := by
    simp [Wire.drive, Levels.drive, Levels.edge?]
  rw [← hwire]
  refine (setClock_leads bus level false).bind_ok ((settle_leads bus level).bind_ok ?_)
  refine (setData_leads bus level distinct bit).bind_ok ((settle_leads bus level).bind_ok ?_)
  refine (setClock_leads bus level true).bind_ok ((settle_leads bus level).bind_ok ?_)
  exact settle_leads bus level

/-- The levels in between are of no interest: what follows begins with a low clock. -/
theorem sendBits_leads (distinct : bus.clock ≠ bus.data) (bits : List Bool) (n : Nat)
    (levels : Levels) (edges : List Edge) :
    ∃ after, (bits.forM bus.sendBit : Action L F Unit).run.Leads (.answering (steadyLines level))
      bus.clock n ⟨levels, edges⟩ (.ok ()) n ⟨after, edges ++ bits.map .clockRise⟩ := by
  induction bits generalizing levels edges with
  | nil => exact ⟨levels, by rw [List.map_nil, List.append_nil]; exact leads_done _⟩
  | cons bit bits ih =>
    obtain ⟨after, hbits⟩ := ih ⟨true, bit⟩ (edges ++ [.clockRise bit])
    rw [List.append_assoc] at hbits
    rw [List.forM_eq_forM, List.forM_cons]
    exact ⟨after, (sendBit_leads bus level distinct bit n levels edges).bind_ok hbits⟩

def answered (sample : UInt8) : Except (Failure F) Acknowledge :=
  if sample ≤ 1 then .ok (.ofLevel sample) else .error (.invalidLevel sample)

/-- Of the two samples only the one in the acknowledge pulse counts. -/
theorem acknowledge_leads (distinct : bus.clock ≠ bus.data) (n : Nat) (levels : Levels)
    (edges : List Edge) :
    ∃ after, (do bus.settle; bus.letGo; return .ofLevel (← bus.receiveBit) :
      Action L F Acknowledge).run.Leads (.answering (steadyLines level)) bus.clock
        n ⟨levels, edges⟩ (answered (level (n + 1))) (n + 2)
          ⟨after, edges ++ [.clockRise true]⟩ := by
  have hletGo : (bus.letGo : Action L F Unit).run.Leads (.answering (steadyLines level)) bus.clock
      n ⟨levels, edges⟩ (.ok ()) (n + 1) ⟨⟨false, true⟩, edges⟩ := by
    have hwire : ((⟨levels, edges⟩ : Wire).drive true false).drive false true =
        ⟨⟨false, true⟩, edges⟩ := by
      simp [Wire.drive, Levels.drive, Levels.edge?]
    rw [← hwire]
    refine (setClock_leads bus level false).bind_ok ((settle_leads bus level).bind_ok ?_)
    refine (setData_leads bus level distinct true).bind_ok ((settle_leads bus level).bind_ok ?_)
    exact (sampleData_leads bus level).bind_ok (leads_done _)
  have hpulse : (⟨⟨false, true⟩, edges⟩ : Wire).drive true true =
      ⟨⟨true, true⟩, edges ++ [.clockRise true]⟩ := rfl
  -- A bit ends with a low clock, an invalid level leaves the clock high.
  by_cases hlevel : level (n + 1) ≤ 1
  · have hanswer : answered (F := F) (level (n + 1)) = .ok (.ofLevel (level (n + 1))) :=
      if_pos hlevel
    have hcheck : (checkLevel (level (n + 1)) : Action L F UInt8) = pure (level (n + 1)) :=
      if_pos hlevel
    refine ⟨⟨false, true⟩, (settle_leads bus level).bind_ok (hletGo.bind_ok ?_)⟩
    have hlow : (⟨⟨true, true⟩, edges ++ [.clockRise true]⟩ : Wire).drive true false =
        ⟨⟨false, true⟩, edges ++ [.clockRise true]⟩ := by
      simp [Wire.drive, Levels.drive, Levels.edge?]
    rw [hanswer, ← hlow, ← hpulse, receiveBit]
    simp only [bind_assoc]
    refine (setClock_leads bus level true).bind_ok ((settle_leads bus level).bind_ok ?_)
    refine (sampleData_leads bus level).bind_ok ?_
    rw [hcheck, pure_bind]
    refine (settle_leads bus level).bind_ok ((setClock_leads bus level false).bind_ok ?_)
    exact (settle_leads bus level).bind_ok ((settle_leads bus level).bind_ok (leads_done _))
  · have hanswer : answered (F := F) (level (n + 1)) = .error (.invalidLevel (level (n + 1))) :=
      if_neg hlevel
    have hcheck : (checkLevel (level (n + 1)) : Action L F UInt8) =
        reporting (fun _ => .badLevel (level (n + 1))) (throw (.invalidLevel (level (n + 1)))) :=
      if_neg hlevel
    refine ⟨⟨true, true⟩, (settle_leads bus level).bind_ok (hletGo.bind_ok ?_)⟩
    rw [hanswer, ← hpulse, receiveBit]
    simp only [bind_assoc]
    refine (setClock_leads bus level true).bind_ok ((settle_leads bus level).bind_ok ?_)
    refine (sampleData_leads bus level).bind_ok ?_
    rw [hcheck]
    exact (Leads.reporting (leads_done _) _).bind_error

theorem sendByte_leads (distinct : bus.clock ≠ bus.data) (byte : UInt8) (n : Nat) (levels : Levels)
    (edges : List Edge) :
    ∃ after, (bus.sendByte byte : Action L F Acknowledge).run.Leads (.answering (steadyLines level))
      bus.clock n ⟨levels, edges⟩ (answered (level (n + 1))) (n + 2)
        ⟨after, edges ++ (frameBits [byte]).map .clockRise⟩ := by
  obtain ⟨between, hbits⟩ := sendBits_leads (F := F) bus level distinct (bitsOf byte) n levels edges
  obtain ⟨after, hack⟩ := acknowledge_leads (F := F) bus level distinct n between
    (edges ++ (bitsOf byte).map .clockRise)
  have hedges : edges ++ (frameBits [byte]).map Edge.clockRise =
      edges ++ (bitsOf byte).map .clockRise ++ [.clockRise true] := by
    rw [List.append_assoc]
    rfl
  rw [hedges]
  exact ⟨after, hbits.bind_ok hack⟩

def byteResult (sample : UInt8) (missing : Failure F) : Except (Failure F) Unit :=
  if sample = 0 then .ok ()
  else if sample = 1 then .error missing
  else .error (.invalidLevel sample)

theorem sendPart_leads (distinct : bus.clock ≠ bus.data) (part : BytePart) (byte : UInt8)
    (missing : Failure F) (n : Nat) (levels : Levels) (edges : List Edge) :
    ∃ after, (bus.sendPart part byte missing).run.Leads (.answering (steadyLines level)) bus.clock
      n ⟨levels, edges⟩ (byteResult (level (n + 1)) missing) (n + 2)
        ⟨after, edges ++ (frameBits [byte]).map .clockRise⟩ := by
  obtain ⟨after, hbyte⟩ := sendByte_leads (F := F) bus level distinct byte n levels edges
  refine ⟨after, Leads.reporting ?_ _⟩
  generalize level (n + 1) = sample at hbyte
  by_cases hzero : sample = 0
  · subst hzero
    exact hbyte.bind_ok (leads_done _)
  · by_cases hone : sample = 1
    · subst hone
      exact hbyte.bind_ok (leads_done _)
    · have hlevel : ¬ sample ≤ 1 := by
        intro h
        have hnat : sample.toNat ≤ 1 := UInt8.le_iff_toNat_le.1 h
        have hzero : sample.toNat ≠ 0 := fun h => hzero (UInt8.toNat_inj.1 h)
        have hone : sample.toNat ≠ 1 := fun h => hone (UInt8.toNat_inj.1 h)
        omega
      rw [answered, if_neg hlevel] at hbyte
      rw [byteResult, if_neg hzero, if_neg hone]
      exact hbyte.bind_error

theorem byteResult_error {sample : UInt8} (missing : Failure F) (h : sample ≠ 0) :
    ∃ failure, byteResult sample missing = .error failure := by
  unfold byteResult
  rw [if_neg h]
  split
  · exact ⟨_, rfl⟩
  · exact ⟨_, rfl⟩

/-- How many bytes of a transaction are sent: up to the first one whose acknowledge pulse does not
show 0, which the second, fourth and sixth sample say. -/
def bytesSent (level : Nat → UInt8) : Nat := if level 1 ≠ 0 then 1 else if level 3 ≠ 0 then 2 else 3

def samplesResult (address register value : UInt8) (level : Nat → UInt8) :
    Except (Failure F) Unit := do
  byteResult (level 1) (.addressNack address)
  byteResult (level 3) (.registerNack register)
  byteResult (level 5) (.valueNack register value)

theorem sendFrame_leads (distinct : bus.clock ≠ bus.data) (address register value : UInt8)
    (levels : Levels) (edges : List Edge) :
    ∃ after, (bus.sendFrame address register value : Action L F Unit).run.Leads
      (.answering (steadyLines level)) bus.clock 0 ⟨levels, edges⟩
        (samplesResult address register value level) (2 * bytesSent level)
        ⟨after, edges ++
          (frameBits ([address, register, value].take (bytesSent level))).map .clockRise⟩ := by
  obtain ⟨first, hfirst⟩ := sendPart_leads (F := F) bus level distinct .address address
    (.addressNack address) 0 levels edges
  obtain ⟨second, hsecond⟩ := sendPart_leads (F := F) bus level distinct .register register
    (.registerNack register) 2 first (edges ++ (frameBits [address]).map .clockRise)
  obtain ⟨third, hthird⟩ := sendPart_leads (F := F) bus level distinct .value value
    (.valueNack register value) 4 second
    (edges ++ (frameBits [address]).map .clockRise ++ (frameBits [register]).map .clockRise)
  simp only [Nat.reduceAdd] at hfirst hsecond hthird
  -- Each byte either ends the frame with its failure or hands over to the next one.
  by_cases haddress : level 1 = 0
  · have hok : byteResult (level 1) (.addressNack address : Failure F) = .ok () := if_pos haddress
    rw [hok] at hfirst
    have hrest : samplesResult (F := F) address register value level = (do
        byteResult (level 3) (.registerNack register)
        byteResult (level 5) (.valueNack register value)) := by
      rw [samplesResult, hok]
      rfl
    by_cases hregister : level 3 = 0
    · have hok : byteResult (level 3) (.registerNack register : Failure F) = .ok () :=
        if_pos hregister
      have hsent : bytesSent level = 3 := by simp [bytesSent, haddress, hregister]
      have hresult : samplesResult (F := F) address register value level =
          byteResult (level 5) (.valueNack register value) := by
        rw [hrest, hok]
        rfl
      rw [hok] at hsecond
      refine ⟨third, ?_⟩
      rw [hresult, hsent]
      refine hfirst.bind_ok (hsecond.bind_ok ?_)
      simpa [frameBits] using hthird
    · obtain ⟨failure, hfail⟩ := byteResult_error (.registerNack register : Failure F) hregister
      have hsent : bytesSent level = 2 := by simp [bytesSent, haddress, hregister]
      rw [hfail] at hsecond
      refine ⟨second, ?_⟩
      rw [hrest, hfail, hsent]
      refine hfirst.bind_ok (Leads.bind_error ?_)
      simpa [frameBits] using hsecond
  · obtain ⟨failure, hfail⟩ := byteResult_error (.addressNack address : Failure F) haddress
    have hsent : bytesSent level = 1 := by simp [bytesSent, haddress]
    rw [hfail] at hfirst
    refine ⟨first, ?_⟩
    rw [samplesResult, hfail, hsent]
    exact hfirst.bind_error

/-- The stop condition leaves the result as it is. -/
theorem closing_leads (distinct : bus.clock ≠ bus.data) (register : UInt8)
    (sent : Except (Failure F) Unit) (n : Nat) (levels : Levels) (edges : List Edge) :
    (bus.closing register sent).run.Leads (.answering (steadyLines level)) bus.clock
      n ⟨levels, edges⟩ sent n ⟨.idle, edges ++ [.clockRise false, .stop]⟩ := by
  have hstop := stop_leads (F := F) bus level distinct n levels edges
  cases sent with
  | ok => exact hstop
  | error failure =>
    rw [closing_run_error, ← bind_pure_comp]
    exact (hstop.reporting _).bind (leads_done _)

theorem transact_leads (distinct : bus.clock ≠ bus.data) (address register value : UInt8)
    (levels : Levels) :
    (bus.transact address register value : Action L F Unit).run.Leads
      (.answering (steadyLines level)) bus.clock 0 ⟨levels, []⟩
        (samplesResult address register value level) (2 * bytesSent level)
        ⟨.idle, levels.leadIn ++ .start ::
          ((frameBits ([address, register, value].take (bytesSent level))).map .clockRise ++
            [.clockRise false, .stop])⟩ := by
  obtain ⟨after, hframe⟩ := sendFrame_leads (F := F) bus level distinct address register value
    ⟨true, false⟩ ([] ++ (levels.leadIn ++ [.start]))
  have hstart := start_leads (F := F) bus level distinct 0 levels []
  have hclosing := closing_leads (F := F) bus level distinct register
    (samplesResult address register value level) (2 * bytesSent level) after
    ([] ++ (levels.leadIn ++ [.start]) ++
      (frameBits ([address, register, value].take (bytesSent level))).map .clockRise)
  have hedges (pulses tail : List Edge) : levels.leadIn ++ .start :: (pulses ++ tail) =
      [] ++ (levels.leadIn ++ [.start]) ++ pulses ++ tail := by
    simp
  rw [transact_run, hedges]
  exact (hstart.bind (hframe.bind hclosing)).note _

/-- On lines that never fault a transaction takes two samples for every byte that it sends, and
sends bytes up to the first that is not acknowledged with a level of 0, each of them as its eight
bits from the highest place on and a pulse with the data line let go. Its edges, the levels that it
leaves and its result depend on nothing else than the second, the fourth and the sixth sample. -/
theorem transact_steady (distinct : bus.clock ≠ bus.data) (address register value : UInt8)
    (levels : Levels) :
    let run (samples : Nat → UInt8) :=
      (bus.transact address register value : Action L F Unit).run.run
        (.answering (steadyLines samples)) 0
    let bits (byte : UInt8) : List Bool := [7, 6, 5, 4, 3, 2, 1, 0].map byte.toNat.testBit
    (Usage.ofEvents (run level).events).inputs = 2 * bytesSent level ∧
      waveform bus.clock levels (run level).events =
        (if levels.clock && !levels.data then [.stop] else []) ++
          (if levels.clock then [] else [.clockRise true]) ++ [.start] ++
            (([address, register, value].take (bytesSent level)).flatMap fun byte =>
              (bits byte).map .clockRise ++ [.clockRise true]) ++ [.clockRise false, .stop] ∧
      levels.afterAll bus.clock (run level).events = .idle ∧
      (run level).outcome = .returned (samplesResult address register value level) ∧
      ∀ other : Nat → UInt8, other 1 = level 1 → other 3 = level 3 → other 5 = level 5 →
        waveform bus.clock levels (run other).events =
            waveform bus.clock levels (run level).events ∧
          (run other).outcome = (run level).outcome := by
  intro run bits
  have hwire (samples : Nat → UInt8) :
      levels.afterAll bus.clock (run samples).events = .idle ∧
        waveform bus.clock levels (run samples).events = levels.leadIn ++ .start ::
          ((frameBits ([address, register, value].take (bytesSent samples))).map .clockRise ++
            [.clockRise false, .stop]) := by
    have hrun := (transact_leads (F := F) bus samples distinct address register value levels).wire
    rw [Wire.foldl_next, List.nil_append] at hrun
    exact Wire.mk.inj hrun
  have hresult (samples : Nat → UInt8) :
      (run samples).outcome = .returned (samplesResult address register value samples) :=
    (transact_leads bus samples distinct address register value levels).outcome
  refine ⟨?_, ?_, (hwire level).1, hresult level, ?_⟩
  · have hworld : (run level).world = 2 * bytesSent level :=
      (transact_leads bus level distinct address register value levels).world
    have hcount : (run level).world = 0 + (Usage.ofEvents (run level).events).inputs :=
      inputs_steadyLines level _ 0
    omega
  · have hbits : bitsOf = bits := funext bitsOf_eq_testBit
    rw [(hwire level).2, ← hbits]
    simp [Levels.leadIn, frameBits, List.map_flatMap]
  · -- Neither the bytes sent nor the result mention another sample.
    intro other hfirst hsecond hthird
    have hsent : bytesSent other = bytesSent level := by
      rw [bytesSent, bytesSent, hfirst, hsecond]
    have hsame : samplesResult (F := F) address register value other =
        samplesResult address register value level := by
      rw [samplesResult, samplesResult, hfirst, hsecond, hthird]
    constructor
    · rw [(hwire other).2, (hwire level).2, hsent]
    · rw [hresult other, hresult level, hsame]

/-- The data line is low at first, and the second byte is not acknowledged. -/
theorem transact_steady_nack :
    let bus : Bus UInt8 := ⟨defaultClock, defaultData, defaultHalfPeriod⟩
    let run := (bus.transact 0x64 0x3F 0xFF : Action UInt8 Unit Unit).run.run
      (.answering (steadyLines fun n => if n = 3 then 1 else 0)) 0
    bus.clock ≠ bus.data ∧ (Usage.ofEvents run.events).inputs = 4 ∧
      waveform bus.clock ⟨true, false⟩ run.events = .stop :: .start ::
        ([false, true, true, false, false, true, false, false, true,
          false, false, true, true, true, true, true, true, true, false].map .clockRise ++
            [.stop]) ∧
      run.outcome = .returned (.error (.registerNack 0x3F)) := by
  intro bus run
  have distinct : bus.clock ≠ bus.data := by decide
  obtain ⟨hinputs, hwave, _, hresult, _⟩ := transact_steady (F := Unit) bus
    (fun n => if n = 3 then 1 else 0) distinct 0x64 0x3F 0xFF ⟨true, false⟩
  exact ⟨distinct, hinputs, hwave, hresult⟩

end Bus

end LedSequencer
