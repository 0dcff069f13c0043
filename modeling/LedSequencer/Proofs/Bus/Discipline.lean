import LedSequencer.Proofs.Bus.Conditions
import LedSequencer.Proofs.Bus.Delivery
import LedSequencer.Proofs.Line.Balance

/-! Start and stop conditions on a bus, whatever goes wrong on the lines. -/
namespace LedSequencer

namespace Levels

/-- The stop conditions that are owed: one, if the data line is low under a high clock. -/
def owed (levels : Levels) : Nat := if levels.clock && !levels.data then 1 else 0

theorem owed_le (levels : Levels) : levels.owed ≤ 1 := by
  unfold owed
  split <;> decide

theorem count_start_raised (levels : Levels) :
    (levels.edge? false true).toList.count .start = 0 := by
  obtain ⟨clock, data⟩ := levels
  cases clock <;> cases data <;> rfl

theorem count_start_leadIn (levels : Levels) : levels.leadIn.count .start = 0 := by
  obtain ⟨clock, data⟩ := levels
  cases clock <;> cases data <;> rfl

theorem balance_raised (levels : Levels) {waiting : Nat} (h : levels.owed ≤ waiting) :
    balance waiting (levels.edge? false true).toList = some (waiting - levels.owed) := by
  obtain ⟨clock, data⟩ := levels
  cases clock <;> cases data
  · rfl
  · rfl
  · obtain ⟨more, rfl⟩ := Nat.exists_eq_add_of_le' h
    rfl
  · rfl

/-- The edges ahead of a start condition pay what is owed. -/
theorem balance_leadIn (levels : Levels) {waiting : Nat} (h : levels.owed ≤ waiting)
    (edges : List Edge) :
    balance waiting (levels.leadIn ++ edges) = balance (waiting - levels.owed) edges := by
  obtain ⟨clock, data⟩ := levels
  cases clock <;> cases data
  · rfl
  · rfl
  · obtain ⟨more, rfl⟩ := Nat.exists_eq_add_of_le' h
    rfl
  · rfl

end Levels

namespace Bus

/-- A transaction covers its stop conditions, but for what it takes over, and leaves no more than it
can cover. -/
theorem TransactionWave.covered {levels after : Levels} {bytes : List UInt8} {complete : Bool}
    {wave : List Edge} (h : TransactionWave levels bytes complete wave after) {waiting : Nat}
    (howed : levels.owed ≤ waiting) :
    ∃ left, balance waiting wave = some left ∧ after.owed ≤ left := by
  have hafter := after.owed_le
  -- Behind what comes ahead of it, the start condition covers one stop condition.
  have hpart (bits : List Bool) (tail : List Edge) :
      balance waiting (levels.leadIn ++ .start :: (bits.map .clockRise ++ tail)) =
        balance (waiting - levels.owed + 1) tail := by
    rw [levels.balance_leadIn howed, balance, balance_clockRise]
  cases h with
  | still => exact ⟨waiting, rfl, howed⟩
  | raised =>
    exact ⟨waiting - levels.owed, levels.balance_raised howed, by simp [Levels.owed]⟩
  | ready =>
    refine ⟨waiting - levels.owed, ?_, Nat.zero_le _⟩
    rw [← List.append_nil levels.leadIn, levels.balance_leadIn howed, balance]
  | broken bits after hbits =>
    refine ⟨waiting - levels.owed + 1, ?_, by omega⟩
    rw [← List.append_nil (bits.map Edge.clockRise), hpart, balance]
  | pulsed bits hbits =>
    exact ⟨waiting - levels.owed + 1, by rw [hpart]; rfl, by omega⟩
  | stopped bits hbits =>
    exact ⟨waiting - levels.owed, by rw [hpart]; rfl, Nat.zero_le _⟩
  | complete =>
    exact ⟨waiting - levels.owed, by rw [hpart]; rfl, Nat.zero_le _⟩

variable {L F σ : Type} [DecidableEq L] (bus : Bus L)
variable (answer : (c : LineCall L) → σ → LineCall.Reply F c × σ)

/-- A transaction that was started goes on to its stop condition, whatever became of its bytes. -/
theorem started (distinct : bus.clock ≠ bus.data) (t : Transaction σ) (levels : Levels)
    (h : (t.starting bus (.answering answer)).outcome = .returned (.ok ())) :
    let w := World.answering answer
    ∃ sending stopping, t.sending? bus w = some sending ∧ t.stopping? bus w = some stopping ∧
      ∃ bits closed tail, bits <+: frameBits t.bytes ∧ stopping.outcome = .returned closed ∧
        waveform bus.clock (levels.afterAll bus.clock (t.starting bus w).events) sending.events =
          bits.map .clockRise ∧
        waveform bus.clock levels (t.events bus w) =
          levels.leadIn ++ .start :: (bits.map .clockRise ++ tail) ∧
        match closed with
        | .ok _ => tail = [.clockRise false, .stop] ∧
            levels.afterAll bus.clock (t.events bus w) = .idle
        | .error _ => tail = [] ∨ tail = [.clockRise false] := by
  intro w
  obtain ⟨result, hresult, hstart⟩ :=
    (start_wave (F := F) bus distinct levels []).wave answer t.world
  obtain rfl : result = .ok () := Outcome.returned.inj (hresult.symm.trans h)
  have hlow : levels.afterAll bus.clock (t.starting bus w).events = ⟨true, false⟩ :=
    (Wire.mk.inj hstart).1
  have hlead : waveform bus.clock levels (t.starting bus w).events = levels.leadIn ++ [.start] :=
    (Wire.mk.inj hstart).2
  -- The bytes: they can break off anywhere, but make nothing but clock pulses.
  let sending := (bus.sendFrame t.address t.register t.value).run.run w (t.starting bus w).world
  have hsending : t.sending? bus w = some sending := by rw [Transaction.sending?, h]
  obtain ⟨sent, hsent, bits, hbits, hpulses, _⟩ :=
    (sendFrame_wave (F := F) bus distinct t.address t.register t.value [] ⟨true, false⟩).wave
      answer (t.starting bus w).world
  -- The stop condition: it is tried however the bytes ended.
  let stopping := bus.stop.run.run w sending.world
  have hstopping : t.stopping? bus w = some stopping := by
    rw [Transaction.stopping?, hsending, Option.bind_some, hsent]
  let lines := Levels.afterAll bus.clock ⟨true, false⟩ sending.events
  obtain ⟨closed, hclosed, hstop⟩ :=
    (stop_wave (F := F) bus distinct lines []).wave answer sending.world
  obtain ⟨hwave, hafter⟩ := wave_parts bus w t levels hsending hstopping
  have hbytes : waveform bus.clock ⟨true, false⟩ sending.events = bits.map .clockRise := hpulses
  rw [hlow] at hwave hafter
  refine ⟨sending, stopping, hsending, hstopping, bits, closed,
    waveform bus.clock lines stopping.events, hbits, hclosed, ?_, ?_, ?_⟩
  · rw [hlow, hbytes]
  · rw [hwave, hlead, hbytes, List.append_assoc]
    rfl
  · cases closed with
    | ok =>
      obtain ⟨hidle, htail⟩ := Wire.mk.inj hstop
      exact ⟨htail, hafter.trans hidle⟩
    | error =>
      exact hstop.imp_right fun h => (Wire.mk.inj h).2

theorem outcome_started (distinct : bus.clock ≠ bus.data) (t : Transaction σ) (levels : Levels) :
    let w := World.answering answer
    (t.starting bus w).outcome = .returned (.ok ()) ∨
      ∃ failure, (t.starting bus w).outcome = .returned (.error failure) ∧
        (waveform bus.clock levels (t.events bus w)).count .start = 0 ∧
        (levels.afterAll bus.clock (t.events bus w) = ⟨true, false⟩ → levels = ⟨true, false⟩) := by
  intro w
  obtain ⟨result, hresult, hstart⟩ :=
    (start_wave (F := F) bus distinct levels []).wave answer t.world
  cases result with
  | ok => exact Or.inl hresult
  | error failure =>
    obtain ⟨_, _, hcalls⟩ := not_started bus w t hresult
    refine Or.inr ⟨failure, hresult, ?_⟩
    rw [waveform_congr hcalls, afterAll_congr hcalls]
    obtain h | h | h := hstart
    · obtain ⟨hlevels, hwave⟩ := Wire.mk.inj h
      exact ⟨congrArg (List.count .start) hwave, fun hlow => hlevels.symm.trans hlow⟩
    · obtain ⟨hlevels, hwave⟩ := Wire.mk.inj h
      refine ⟨(congrArg (List.count .start) hwave).trans levels.count_start_raised, fun hlow => ?_⟩
      exact absurd (hlevels.symm.trans hlow) (by simp)
    · obtain ⟨hlevels, hwave⟩ := Wire.mk.inj h
      refine ⟨(congrArg (List.count .start) hwave).trans levels.count_start_leadIn, fun hlow => ?_⟩
      exact absurd (hlevels.symm.trans hlow) (by decide)

theorem count_start_started (distinct : bus.clock ≠ bus.data) (t : Transaction σ) (levels : Levels)
    (h : (t.starting bus (.answering answer)).outcome = .returned (.ok ())) :
    (waveform bus.clock levels (t.events bus (.answering answer))).count .start = 1 := by
  obtain ⟨_, _, _, _, bits, closed, tail, _, _, _, hwave, htail⟩ :=
    started bus answer distinct t levels h
  have hbits : (bits.map Edge.clockRise).count .start = 0 := List.count_eq_zero.2 (by simp)
  have htail : tail.count .start = 0 := by
    cases closed with
    | ok => rw [htail.1]; rfl
    | error => obtain rfl | rfl := htail <;> rfl
  rw [hwave, List.count_append, List.count_cons_self, List.count_append, hbits, htail,
    levels.count_start_leadIn]

/-- A data line that is left low under a high clock was left so by a stop condition that failed. -/
theorem stopFailed_of_low (distinct : bus.clock ≠ bus.data) (t : Transaction σ) (levels : Levels)
    (h : levels.afterAll bus.clock (t.events bus (.answering answer)) = ⟨true, false⟩) :
    levels = ⟨true, false⟩ ∨ t.StopFailed bus (.answering answer) := by
  -- Where the stop condition succeeds both lines are high, so it was not reached or it failed.
  obtain hok | ⟨_, _, _, hlow⟩ := outcome_started bus answer distinct t levels
  · obtain ⟨_, stopping, _, hstopping, _, closed, _, _, hclosed, _, _, htail⟩ :=
      started bus answer distinct t levels hok
    cases closed with
    | ok => exact absurd (h.symm.trans htail.2) (by decide)
    | error failure => exact Or.inr ⟨stopping, failure, hstopping, hclosed⟩
  · exact Or.inl (hlow h)

theorem exists_stopFailed (distinct : bus.clock ≠ bus.data) (ts : List (Transaction σ))
    (levels : Levels)
    (h : levels.afterAll bus.clock (bus.eventsOf (.answering answer) ts) = ⟨true, false⟩) :
    levels = ⟨true, false⟩ ∨ ∃ u ∈ ts, u.StopFailed bus (.answering answer) := by
  induction ts generalizing levels with
  | nil => exact Or.inl h
  | cons t ts ih =>
    rw [eventsOf_cons, Levels.afterAll_append] at h
    obtain hlow | ⟨u, hu, hfailed⟩ := ih _ h
    · refine (stopFailed_of_low bus answer distinct t levels hlow).imp_right ?_
      intro hfailed
      exact ⟨t, List.mem_cons_self, hfailed⟩
    · exact Or.inr ⟨u, List.mem_cons_of_mem t hu, hfailed⟩

/-- At no time do some transactions make more stop conditions than start conditions. -/
theorem transactions_covered (distinct : bus.clock ≠ bus.data) (ts : List (Transaction σ))
    (levels : Levels) {waiting : Nat} (howed : levels.owed ≤ waiting) :
    ∃ left, balance waiting (waveform bus.clock levels (bus.eventsOf (.answering answer) ts)) =
        some left ∧
      (levels.afterAll bus.clock (bus.eventsOf (.answering answer) ts)).owed ≤ left := by
  induction ts generalizing levels waiting with
  | nil => exact ⟨waiting, rfl, howed⟩
  | cons t ts ih =>
    obtain ⟨_, _, hwave⟩ := transaction_wave bus answer distinct t levels
    -- What one transaction leaves uncovered the next one can cover.
    obtain ⟨between, hbetween, hnext⟩ := hwave.covered howed
    obtain ⟨left, hleft, hlast⟩ := ih _ hnext
    rw [eventsOf_cons, Levels.afterAll_append, waveform_append, balance_append, hbetween]
    exact ⟨left, hleft, hlast⟩

/-- The start and stop conditions of a transaction that comes after those in `before`. -/
structure Disciplined (w : World (.lines L F) σ) (levels : Levels) (before : List (Transaction σ))
    (t : Transaction σ) : Prop where
  /-- Its calls are those of its parts. -/
  parts : callsOf (t.events bus w) = callsOf ((t.starting bus w).events ++
    (eventsOf? (t.sending? bus w) ++ eventsOf? (t.stopping? bus w)))
  /-- The third output of the first part may be a start condition. The first one may be a stop
  condition, but only after a stop condition that failed. -/
  starting (k : Nat) (edge : Edge) :
    (outputEdges bus.clock levels (t.starting bus w).events)[k]? = some (some edge) →
      (∃ bit, edge = .clockRise bit) ∨ (k = 2 ∧ edge = .start) ∨
        (k = 0 ∧ edge = .stop ∧ ∃ u ∈ before, u.StopFailed bus w)
  /-- The bytes make nothing but clock pulses. -/
  sending (part : Run (.lines L F) (Notice F) σ (Except (Failure F) Unit)) :
    t.sending? bus w = some part → ∀ (k : Nat) (edge : Edge),
      (outputEdges bus.clock (levels.afterAll bus.clock (t.starting bus w).events)
        part.events)[k]? = some (some edge) → ∃ bit, edge = .clockRise bit
  /-- The fourth output of the last part may be a stop condition. -/
  stopping (part : Run (.lines L F) (Notice F) σ (Except (Failure F) Unit)) :
    t.stopping? bus w = some part → ∀ (k : Nat) (edge : Edge),
      (outputEdges bus.clock (levels.afterAll bus.clock ((t.starting bus w).events ++
        eventsOf? (t.sending? bus w))) part.events)[k]? = some (some edge) →
          (∃ bit, edge = .clockRise bit) ∨ (k = 3 ∧ edge = .stop)
  count_start_le : (waveform bus.clock levels (t.events bus w)).count .start ≤ 1
  count_start_eq : (waveform bus.clock levels (t.events bus w)).count .start = 1 ↔
    (t.starting bus w).outcome = .returned (.ok ())
  /-- After a start condition the last part is reached, however the bytes ended. -/
  reached : (t.starting bus w).outcome = .returned (.ok ()) →
    ∃ part, t.stopping? bus w = some part
  /-- If it meets no fault the transaction ends with its stop condition. -/
  stopped (part : Run (.lines L F) (Notice F) σ (Except (Failure F) Unit)) :
    t.stopping? bus w = some part → (∀ e ∈ part.events, e.fault? = none) →
      levels.afterAll bus.clock (t.events bus w) = .idle ∧
        ∃ bits, bits <+: frameBits t.bytes ∧ waveform bus.clock levels (t.events bus w) =
          levels.leadIn ++ .start :: (bits.map .clockRise ++ [.clockRise false, .stop])

theorem transaction_disciplined (distinct : bus.clock ≠ bus.data) {before : List (Transaction σ)}
    (t : Transaction σ) {levels : Levels}
    (hlow : levels = ⟨true, false⟩ → ∃ u ∈ before, u.StopFailed bus (.answering answer)) :
    bus.Disciplined (.answering answer) levels before t := by
  have hstart := outcome_started bus answer distinct t levels
  constructor
  case parts => exact calls_parts bus _ t
  case starting =>
    intro k edge hedge
    obtain ⟨result, hresult⟩ := (start_outputs (F := F) bus distinct).returns answer t.world
    have houtputs := (start_outputs (F := F) bus distinct).recorded _ hresult levels
    refine (startEdges_cases (houtputs k edge hedge)).imp_right (Or.imp_right ?_)
    rintro ⟨hk, hstop, hlevels⟩
    exact ⟨hk, hstop, hlow hlevels⟩
  case sending =>
    intro part hpart k edge hedge
    obtain hok | ⟨failure, hfail, _⟩ := hstart
    -- The bytes only come behind a start condition, and what they add is known then.
    · obtain ⟨sending, _, hsending, _, bits, _, _, _, _, hbits, _⟩ :=
        started bus answer distinct t levels hok
      obtain rfl : sending = part := Option.some.inj (hsending.symm.trans hpart)
      have hmem := mem_waveform_of_outputEdges bus.clock hedge
      rw [hbits, List.mem_map] at hmem
      obtain ⟨bit, _, hbit⟩ := hmem
      exact ⟨bit, hbit.symm⟩
    · exact absurd ((not_started bus _ t hfail).1.symm.trans hpart) nofun
  case stopping =>
    intro part hpart k edge hedge
    obtain ⟨s, rfl⟩ := stopping_eq bus _ t hpart
    obtain ⟨result, hresult⟩ := (stop_outputs (F := F) bus distinct).returns answer s
    exact stopEdges_cases ((stop_outputs bus distinct).recorded _ hresult _ k edge hedge)
  case count_start_le =>
    obtain hok | ⟨_, _, hcount, _⟩ := hstart
    · exact Nat.le_of_eq (count_start_started bus answer distinct t levels hok)
    · omega
  case count_start_eq =>
    obtain hok | ⟨_, hfail, hcount, _⟩ := hstart
    · exact ⟨fun _ => hok, fun _ => count_start_started bus answer distinct t levels hok⟩
    · refine ⟨fun hone => absurd (hone.symm.trans hcount) (by decide), fun hok => ?_⟩
      exact absurd (Outcome.returned.inj (hfail.symm.trans hok)) nofun
  case reached =>
    intro hok
    obtain ⟨_, stopping, _, hstopping, _⟩ := started bus answer distinct t levels hok
    exact ⟨stopping, hstopping⟩
  case stopped =>
    intro part hpart hfaultless
    obtain hok | ⟨failure, hfail, _⟩ := hstart
    · obtain ⟨_, stopping, _, hstopping, bits, closed, tail, hbits, hclosed, _, hwave, htail⟩ :=
        started bus answer distinct t levels hok
      obtain rfl : stopping = part := Option.some.inj (hstopping.symm.trans hpart)
      obtain ⟨s, rfl⟩ := stopping_eq bus _ t hpart
      -- Without a fault the last part is a whole stop condition, so nothing is cut off.
      obtain rfl := (stop_faultless bus).recorded _ hclosed hfaultless
      obtain ⟨rfl, hidle⟩ := htail
      exact ⟨hidle, bits, hbits, hwave⟩
    · exact absurd ((not_started bus _ t hfail).2.1.symm.trans hpart) nofun

/-- On a bus that is idle at first every transaction of a session keeps the discipline of start and
stop conditions, whatever happens on the lines, and at no time were there more stop conditions than
start conditions. -/
theorem session_disciplined (distinct : bus.clock ≠ bus.data) (calls : List BusCall) (s : σ) :
    let w := World.answering answer
    let events := ((bus.performAll calls).run w s).events
    callsOf events = callsOf (bus.eventsOf w (bus.session w calls s)) ∧
      (∀ seen, seen <+: events → (waveform bus.clock .idle seen).count .stop ≤
        (waveform bus.clock .idle seen).count .start) ∧
      ∀ before t after, bus.session w calls s = before ++ t :: after →
        bus.Disciplined w (Levels.idle.afterAll bus.clock (bus.eventsOf w before)) before t := by
  intro w events
  have hcalls : callsOf events = _ := calls_performAll bus w calls s
  refine ⟨hcalls, fun seen hseen => ?_, fun before t after _ => ?_⟩
  · obtain ⟨left, hleft, _⟩ := transactions_covered bus answer distinct
      (bus.session w calls s) .idle (Nat.zero_le 0)
    rw [← waveform_congr hcalls] at hleft
    obtain ⟨rest, hrest⟩ := hseen
    refine count_stop_le_of_prefix hleft ?_
    rw [← hrest, waveform_append]
    exact List.prefix_append _ _
  · refine transaction_disciplined bus answer distinct t ?_
    intro hlow
    exact (exists_stopFailed bus answer distinct before .idle hlow).resolve_left (by decide)

/-- The last output of the stop condition of the first transaction faults. -/
theorem session_disciplined_broken :
    let bus : Bus UInt8 := ⟨defaultClock, defaultData, defaultHalfPeriod⟩
    let w := World.answering (brokenLines 90)
    let t : Transaction Nat := ⟨0x64, 0x3F, 0xFF, 0⟩
    let later : Transaction Nat := ⟨0x64, 0x3F, 0xFF, 91⟩
    bus.clock ≠ bus.data ∧
      bus.session w [.write 0x64 0x3F 0xFF, .write 0x64 0x3F 0xFF] 0 = [t, later] ∧
      bus.Disciplined w (Levels.idle.afterAll bus.clock (bus.eventsOf w [t])) [t] later := by
  intro bus w t later
  have distinct : bus.clock ≠ bus.data := by decide
  have hsession : bus.session w [.write 0x64 0x3F 0xFF, .write 0x64 0x3F 0xFF] 0 = [t, later] := by
    decide +kernel
  obtain ⟨_, _, hall⟩ := session_disciplined bus (brokenLines 90) distinct
    [.write 0x64 0x3F 0xFF, .write 0x64 0x3F 0xFF] 0
  exact ⟨distinct, hsession, hall [t] later [] hsession⟩

end Bus

end LedSequencer
