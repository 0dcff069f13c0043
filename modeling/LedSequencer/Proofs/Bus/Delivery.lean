import LedSequencer.Proofs.Bus.Ledger
import LedSequencer.Proofs.Bus.Session
import LedSequencer.Proofs.Line.Steady

/-! What arrives of the transactions of a session, whatever goes wrong on the lines. -/
namespace LedSequencer

namespace Bus

variable {L F σ : Type} [DecidableEq L] (bus : Bus L)

variable (answer : (c : LineCall L) → σ → LineCall.Reply F c × σ)

/-- The edges of a transaction are among those that transactions can make. -/
theorem transaction_wave (distinct : bus.clock ≠ bus.data) (t : Transaction σ) (levels : Levels) :
    ∃ result, (t.run bus (.answering answer)).outcome = .returned result ∧
      TransactionWave levels t.bytes result.toBool
        (waveform bus.clock levels (t.events bus (.answering answer)))
        (levels.afterAll bus.clock (t.events bus (.answering answer))) := by
  have hensures := transact_wave (F := F) bus distinct t.address t.register t.value levels []
  obtain ⟨result, hresult, wave, hedges, hwave⟩ := hensures.wave answer t.world
  obtain rfl : waveform bus.clock levels _ = wave := hedges
  exact ⟨result, hresult, hwave⟩

theorem transactions_ledger (distinct : bus.clock ≠ bus.data) (ts : List (Transaction σ))
    {levels : Levels} {frames : List Frame} {deliveries : List Delivery}
    (h : Ledger levels frames deliveries) :
    ∃ more, Ledger (levels.afterAll bus.clock (bus.eventsOf (.answering answer) ts))
      ((waveform bus.clock levels (bus.eventsOf (.answering answer) ts)).foldl receive frames)
      (more ++ deliveries) := by
  induction ts generalizing levels frames deliveries with
  | nil => exact ⟨[], h⟩
  | cons t ts ih =>
    obtain ⟨result, _, hwave⟩ := transaction_wave bus answer distinct t levels
    rw [eventsOf_cons, waveform_append, List.foldl_append, Levels.afterAll_append]
    -- Either the transaction made no start condition and left the ledger, or it added its bytes.
    obtain ⟨_, hl⟩ | hl := hwave.ledger h
    · exact ih hl
    · obtain ⟨more, hmore⟩ := ih hl
      exact ⟨more ++ [⟨t.bytes, result.toBool⟩], by rwa [List.append_assoc]⟩

/-- A transaction opens no frame, or one that holds a part of its bytes, however many transactions
follow. -/
theorem transaction_opens (distinct : bus.clock ≠ bus.data) (t : Transaction σ)
    (after : List (Transaction σ)) (levels : Levels) :
    let w := World.answering answer
    let during := waveform bus.clock levels (t.events bus w)
    let later := waveform bus.clock (levels.afterAll bus.clock (t.events bus w))
      (bus.eventsOf w after)
    ((t.run bus w).outcome ≠ .returned (.ok ()) ∧ framesOf during = []) ∨
      ∃ frame, framesOf during = [frame] ∧
        ((t.run bus w).outcome = .returned (.ok ()) →
          frame.closed = true ∧ frame.bytes = t.bytes) ∧
        ∃ grown others, framesOf (during ++ later) = grown :: others ∧
          grown.bytes <+: t.bytes := by
  intro w during later
  obtain ⟨result, hresult, hwave⟩ := transaction_wave bus answer distinct t levels
  -- Only the frames that begin here count, so the ledger starts from nothing.
  obtain ⟨hfail, hl⟩ | hl := hwave.ledger (.nil levels)
  · refine Or.inl ⟨?_, ?_⟩
    · intro hok
      obtain rfl : result = .ok () := Outcome.returned.inj (hresult.symm.trans hok)
      exact absurd hfail Bool.noConfusion
    · rw [framesOf, List.forall₂_nil_right_iff.1 hl.delivers, List.reverse_nil]
  · refine Or.inr ?_
    obtain ⟨frame, rest, hframe, hnil, hduring⟩ := List.forall₂_cons_right_iff.1 hl.delivers
    obtain rfl := List.forall₂_nil_right_iff.1 hnil
    obtain ⟨more, hmore⟩ := transactions_ledger bus answer distinct after hl
    -- The ledger has the latest frame first: the frame opened here is the last of its entries.
    have hlater := List.rel_reverse hmore.delivers
    rw [List.reverse_append, ← List.foldl_append] at hlater
    obtain ⟨grown, others, hgrown, _, hframes⟩ := List.forall₂_cons_right_iff.1 hlater
    have hone : framesOf (waveform bus.clock levels (t.events bus w)) = [frame] := by
      rw [framesOf, hduring, List.reverse_singleton]
    refine ⟨frame, hone, fun hok => ?_, grown, others, hframes, hgrown.1⟩
    obtain rfl : result = .ok () := Outcome.returned.inj (hresult.symm.trans hok)
    exact hframe.2 rfl

/-- Whatever happens on the lines, a transaction of a session opens at most one frame, and at no
time does that frame hold anything but a part of the transaction's bytes. If the transaction
succeeds, all of them are there and the frame is closed when it ends. -/
theorem transaction_frames (distinct : bus.clock ≠ bus.data) (calls : List BusCall) (s : σ)
    (levels : Levels) :
    let w := World.answering answer
    let events := ((bus.performAll calls).run w s).events
    callsOf events = callsOf (bus.eventsOf w (bus.session w calls s)) ∧
      ∀ before t after, bus.session w calls s = before ++ t :: after →
        let earlier := waveform bus.clock levels (bus.eventsOf w before)
        let during := waveform bus.clock (levels.afterAll bus.clock (bus.eventsOf w before))
          (t.events bus w)
        during.count .start ≤ 1 ∧
          (∀ seen, seen <+: waveform bus.clock levels events →
            ∀ frame ∈ framesOpened earlier during seen, frame.bytes <+: t.bytes) ∧
          ((t.run bus w).outcome = .returned (.ok ()) →
            ∃ frame, framesOpened earlier during (earlier ++ during) = [frame] ∧
              frame.closed = true ∧ frame.bytes = t.bytes) := by
  intro w events
  have hcalls : callsOf events = _ := calls_performAll bus w calls s
  refine ⟨hcalls, ?_⟩
  intro before t after hsession earlier during
  -- What follows can still reach the frame, by clock pulses and by a stop condition.
  let later := waveform bus.clock
    ((levels.afterAll bus.clock (bus.eventsOf w before)).afterAll bus.clock (t.events bus w))
    (bus.eventsOf w after)
  have hwhole : waveform bus.clock levels events = earlier ++ (during ++ later) := by
    rw [waveform_congr hcalls, hsession, eventsOf_append, waveform_append, eventsOf_cons,
      waveform_append]
  obtain ⟨hfail, hnone⟩ | ⟨frame, hone, hok, grown, others, hgrown, hbytes⟩ :=
    transaction_opens bus answer distinct t after
      (levels.afterAll bus.clock (bus.eventsOf w before))
  · have hcount : during.count .start = 0 := by rw [← length_framesOf, hnone, List.length_nil]
    refine ⟨by omega, ?_, fun h => absurd h hfail⟩
    intro seen _ frame hframe
    rw [framesOpened, hcount, List.take_zero] at hframe
    exact absurd hframe List.not_mem_nil
  · have hcount : during.count .start = 1 := by rw [← length_framesOf, hone, List.length_singleton]
    refine ⟨by omega, ?_, fun h => ⟨frame, ?_, hok h⟩⟩
    · intro seen hseen now hnow
      rw [framesOpened, hcount, List.take_one, List.head?_drop, Option.mem_toList] at hnow
      -- Frames only grow: what is seen by now is a part of what there will be in the end.
      obtain ⟨final, hfinal, hgrows⟩ := framesOf_prefix hseen hnow
      rw [hwhole, ← List.head?_drop, drop_framesOf_append, hgrown] at hfinal
      obtain rfl : grown = final := Option.some.inj hfinal
      exact hgrows.bytes.trans hbytes
    · rw [framesOpened, drop_framesOf_append, hcount, hone]
      rfl

/-- An output within the second byte faults. -/
theorem transaction_frames_broken :
    let bus : Bus UInt8 := ⟨defaultClock, defaultData, defaultHalfPeriod⟩
    let w := World.answering (brokenLines 40)
    let t : Transaction Nat := ⟨0x64, 0x3F, 0xFF, 0⟩
    let events := ((bus.performAll [.write 0x64 0x3F 0xFF]).run w 0).events
    bus.clock ≠ bus.data ∧ bus.session w [.write 0x64 0x3F 0xFF] 0 = [t] ∧
      ∀ seen, seen <+: waveform bus.clock .idle events →
        ∀ frame ∈ framesOpened [] (waveform bus.clock .idle (t.events bus w)) seen,
          frame.bytes <+: [0x64, 0x3F, 0xFF] := by
  intro bus w t events
  have distinct : bus.clock ≠ bus.data := by decide
  have hsession : bus.session w [.write 0x64 0x3F 0xFF] 0 = [t] := by
    decide +kernel
  obtain ⟨_, hframes⟩ := transaction_frames bus (brokenLines 40) distinct
    [.write 0x64 0x3F 0xFF] 0 .idle
  exact ⟨distinct, hsession, (hframes [] t [] hsession).2.1⟩

end Bus

end LedSequencer
