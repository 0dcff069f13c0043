import LedSequencer.Proofs.Bus.Steady
import LedSequencer.Proofs.Bus.Verdict
import LedSequencer.Proofs.Line.Effort

/-! What writes of registers cost in outputs, inputs and pauses. Main statement: on lines that never
fault the cost of a block depends on its length and on which byte is the first that is not
acknowledged, and on nothing else. -/
namespace LedSequencer

variable {L F N σ : Type}

/-- The levels in the acknowledge pulses: of the two samples of each byte the second. -/
def acknowledges : List UInt8 → List UInt8
  | _ :: ack :: levels => ack :: acknowledges levels
  | _ => []

namespace Bus
open Routine

/-- Wherever it starts, an action succeeds, costs `effort` and takes no sample. -/
def Costs (w : World (.lines L F) σ) (act : Action L F Unit) (effort : Effort) : Prop :=
  ∀ s, ∃ s', act.run.Spends w s (.ok ()) s' effort []

variable {w : World (.lines L F) σ}

theorem Costs.andThen {first second : Action L F Unit} {effort more : Effort}
    (h : Costs w first effort) (hsecond : Costs w second more) :
    Costs w (first >>= fun _ => second) (effort + more) := by
  intro s
  obtain ⟨between, hfirst⟩ := h s
  obtain ⟨s', hsecond⟩ := hsecond between
  exact ⟨s', Spends.bind hfirst hsecond⟩

section Steps

variable (bus : Bus L) (hw : w.Reliable)
include hw

theorem settle_costs : Costs w bus.settle ⟨0, 0, 1⟩ := by
  intro s
  obtain ⟨s', hs⟩ := hw.settle bus.halfPeriod s
  exact ⟨s', _, (returns_call hs).bind (returns_done _), rfl, rfl⟩

theorem setClock_costs (high : Bool) : Costs w (bus.setClock high) ⟨1, 0, 0⟩ := by
  intro s
  obtain ⟨s', hs⟩ := hw.drive bus.clock high s
  exact ⟨s', _, (returns_call hs).bind (returns_done _), rfl, rfl⟩

theorem setData_costs (high : Bool) : Costs w (bus.setData high) ⟨1, 0, 0⟩ := by
  intro s
  obtain ⟨s', hs⟩ := hw.drive bus.data high s
  exact ⟨s', _, (returns_call hs).bind (returns_done _), rfl, rfl⟩

theorem sampleData_spends (s : σ) :
    ∃ level s', bus.sampleData.run.Spends w s (.ok level) s' ⟨0, 1, 0⟩ [level] := by
  obtain ⟨level, s', hs⟩ := hw.sample bus.data s
  exact ⟨level, s', _, (returns_call hs).bind (returns_done _), rfl, rfl⟩

theorem start_costs : Costs w bus.start ⟨3, 0, 4⟩ := by
  have hsettle := bus.settle_costs hw
  have hdata := bus.setData_costs hw
  exact hsettle.andThen ((hdata true).andThen (hsettle.andThen
    ((bus.setClock_costs hw true).andThen (hsettle.andThen ((hdata false).andThen hsettle)))))

theorem stop_costs : Costs w bus.stop ⟨4, 0, 4⟩ := by
  have hsettle := bus.settle_costs hw
  have hclock := bus.setClock_costs hw
  have hdata := bus.setData_costs hw
  exact (hclock false).andThen (hsettle.andThen ((hdata false).andThen (hsettle.andThen
    ((hclock true).andThen (hsettle.andThen ((hdata true).andThen hsettle))))))

theorem sendBits_costs (bits : List Bool) :
    Costs w (bits.forM bus.sendBit) ⟨3 * bits.length, 0, 4 * bits.length⟩ := by
  have hsettle := bus.settle_costs hw
  have hclock := bus.setClock_costs hw
  have hbit (bit : Bool) : Costs w (bus.sendBit bit) ⟨3, 0, 4⟩ :=
    (hclock false).andThen (hsettle.andThen ((bus.setData_costs hw bit).andThen
      (hsettle.andThen ((hclock true).andThen (hsettle.andThen hsettle)))))
  induction bits with
  | nil => exact fun s => ⟨s, spends_done _⟩
  | cons bit bits ih =>
    have hsum : (⟨3 * (bit :: bits).length, 0, 4 * (bit :: bits).length⟩ : Effort) =
        ⟨3, 0, 4⟩ + ⟨3 * bits.length, 0, 4 * bits.length⟩ :=
      Effort.ext (Nat.add_comm _ _) rfl (Nat.add_comm _ _)
    rw [hsum]
    exact (hbit bit).andThen ih

theorem letGo_spends (s : σ) :
    ∃ level s', bus.letGo.run.Spends w s (.ok ()) s' ⟨2, 1, 2⟩ [level] := by
  have hsettle := bus.settle_costs hw
  obtain ⟨s₁, hclock⟩ := bus.setClock_costs hw false s
  obtain ⟨s₂, hlow⟩ := hsettle s₁
  obtain ⟨s₃, hdata⟩ := bus.setData_costs hw true s₂
  obtain ⟨s₄, hfree⟩ := hsettle s₃
  obtain ⟨level, s₅, hsample⟩ := bus.sampleData_spends hw s₄
  exact ⟨level, s₅, Spends.of_eq (hclock.andThen (hlow.andThen (hdata.andThen (hfree.andThen
    (hsample.andThen (spends_done _)))))) rfl rfl⟩

/-- A level that is no bit breaks off the clock pulse. -/
theorem receiveBit_spends (s : σ) :
    ∃ level, (level ≤ 1 ∧ ∃ s', bus.receiveBit.run.Spends w s (.ok level) s' ⟨2, 1, 4⟩ [level]) ∨
      (¬ level ≤ 1 ∧ ∃ s', bus.receiveBit.run.Spends w s (.error (.invalidLevel level)) s'
        ⟨1, 1, 1⟩ [level]) := by
  have hsettle := bus.settle_costs hw
  obtain ⟨s₁, hrise⟩ := bus.setClock_costs hw true s
  obtain ⟨s₂, hhigh⟩ := hsettle s₁
  obtain ⟨level, s₃, hsample⟩ := bus.sampleData_spends hw s₂
  refine ⟨level, ?_⟩
  by_cases hbit : level ≤ 1
  · have hcheck : (checkLevel level : Action L F UInt8).run.Spends w s₃ (.ok level) s₃ 0 [] := by
      rw [checkLevel, if_pos hbit]
      exact spends_done _
    obtain ⟨s₄, hpulse⟩ := hsettle s₃
    obtain ⟨s₅, hfall⟩ := bus.setClock_costs hw false s₄
    obtain ⟨s₆, hlow⟩ := hsettle s₅
    obtain ⟨s₇, hlast⟩ := hsettle s₆
    exact Or.inl ⟨hbit, s₇, Spends.of_eq (hrise.andThen (hhigh.andThen (hsample.andThen
      (hcheck.andThen (hpulse.andThen (hfall.andThen (hlow.andThen (hlast.andThen
        (spends_done _))))))))) rfl rfl⟩
  · have hcheck : (checkLevel level : Action L F UInt8).run.Spends w s₃
        (.error (.invalidLevel level)) s₃ 0 [] := by
      rw [checkLevel, if_neg hbit]
      exact Spends.reporting (spends_done _) _
    exact Or.inr ⟨hbit, s₃, Spends.of_eq (hrise.andThen (hhigh.andThen (hsample.andThen
      hcheck.andThen_error))) rfl rfl⟩

end Steps

def conditionsEffort (transactions : Nat) : Effort := ⟨7 * transactions, 0, 8 * transactions⟩

def byteEffort (ack : UInt8) : Effort := if ack ≤ 1 then ⟨28, 2, 39⟩ else ⟨27, 2, 36⟩

theorem sum_byteEffort {acks : List UInt8} (hbits : ∀ ack ∈ acks, ack ≤ 1) :
    (acks.map byteEffort).sum = ⟨28 * acks.length, 2 * acks.length, 39 * acks.length⟩ := by
  induction acks with
  | nil => rfl
  | cons ack acks ih =>
    obtain ⟨hbit, hbits⟩ := List.forall_mem_cons.1 hbits
    rw [List.map_cons, List.sum_cons, ih hbits, byteEffort, if_pos hbit]
    exact Effort.ext (Nat.add_comm _ _) (Nat.add_comm _ _) (Nat.add_comm _ _)

theorem byteResult_of_bit {ack : UInt8} (missing : Failure F) (hzero : ack ≠ 0) (hbit : ack ≤ 1) :
    byteResult ack missing = .error missing := by
  have hone : ack = 1 := by
    have hle := UInt8.le_iff_toNat_le.1 hbit
    have hne : ack.toNat ≠ 0 := fun h => hzero (UInt8.toNat_inj.1 h)
    have hlevel : ack.toNat = 1 := by
      rw [UInt8.toNat_one] at hle
      omega
    exact UInt8.toNat_inj.1 hlevel
  rw [hone]
  rfl

theorem byteResult_of_not_bit {ack : UInt8} (missing : Failure F) (hbit : ¬ ack ≤ 1) :
    byteResult ack missing = .error (.invalidLevel ack) := by
  have hzero : ack ≠ 0 := by
    rintro rfl
    exact hbit (by decide)
  have hone : ack ≠ 1 := by
    rintro rfl
    exact hbit (by decide)
  rw [byteResult, if_neg hzero, if_neg hone]

section Bytes

variable (bus : Bus L) (hw : w.Reliable)
include hw

theorem sendPart_spends (part : BytePart) (byte : UInt8) (missing : Failure F) (s : σ) :
    ∃ level ack s', (bus.sendPart part byte missing).run.Spends w s (byteResult ack missing) s'
      (byteEffort ack) [level, ack] := by
  have hbits : Costs w ((bitsOf byte).forM bus.sendBit) ⟨24, 0, 32⟩ :=
    bus.sendBits_costs hw (bitsOf byte)
  obtain ⟨s₁, hbits⟩ := hbits s
  obtain ⟨s₂, hsettle⟩ := bus.settle_costs hw s₁
  obtain ⟨level, s₃, hletGo⟩ := bus.letGo_spends hw s₂
  -- A bit is judged when its pulse is over; another level has broken the pulse off by itself.
  obtain ⟨ack, ⟨hbit, s', hack⟩ | ⟨hbit, s', hack⟩⟩ := bus.receiveBit_spends hw s₃
  · have hbyte : (bus.sendByte byte : Action L F Acknowledge).run.Spends w s
        (.ok (.ofLevel ack)) s' ⟨28, 2, 39⟩ [level, ack] :=
      Spends.of_eq (hbits.andThen (hsettle.andThen (hletGo.andThen (hack.andThen
        (spends_done _))))) rfl rfl
    refine ⟨level, ack, s', Spends.reporting ?_ _⟩
    rw [byteEffort, if_pos hbit]
    refine Spends.bind_free hbyte ?_
    by_cases hzero : ack = 0
    · subst hzero
      exact spends_done _
    · have hnack : Acknowledge.ofLevel ack = .nack := if_neg hzero
      rw [byteResult_of_bit missing hzero hbit, hnack]
      exact spends_done _
  · have hbyte : (bus.sendByte byte : Action L F Acknowledge).run.Spends w s
        (.error (.invalidLevel ack)) s' ⟨27, 2, 36⟩ [level, ack] :=
      Spends.of_eq (hbits.andThen (hsettle.andThen (hletGo.andThen hack.andThen_error))) rfl rfl
    refine ⟨level, ack, s', Spends.reporting ?_ _⟩
    rw [byteEffort, if_neg hbit, byteResult_of_not_bit missing hbit]
    exact hbyte.andThen_error

end Bytes

/-- Some bytes in a row, `nacks` are their failures without an acknowledge: the levels of their
samples, the result and the cost. A byte that fails is the last one. -/
inductive Answers : List (Failure F) → List UInt8 → Except (Failure F) Unit → Effort → Prop where
  | done : Answers [] [] (.ok ()) 0
  | failed {nack failure : Failure F} {nacks : List (Failure F)} {ack : UInt8} (level : UInt8)
      (h : byteResult ack nack = .error failure) :
      Answers (nack :: nacks) [level, ack] (.error failure) (byteEffort ack)
  | next {nack : Failure F} {nacks : List (Failure F)} {levels : List UInt8}
      {result : Except (Failure F) Unit} {effort : Effort} (level : UInt8)
      (h : Answers nacks levels result effort) :
      Answers (nack :: nacks) (level :: 0 :: levels) result (byteEffort 0 + effort)

namespace Answers

variable {nacks more : List (Failure F)} {levels rest : List UInt8} {failure : Failure F}
variable {result : Except (Failure F) Unit} {effort cost : Effort}

theorem append_ok (h : Answers nacks levels (.ok ()) effort)
    (hmore : Answers more rest result cost) :
    Answers (nacks ++ more) (levels ++ rest) result (effort + cost) := by
  generalize hok : (.ok () : Except (Failure F) Unit) = first at h
  induction h with
  | done =>
    rw [zero_add]
    exact hmore
  | failed => exact absurd hok nofun
  | next level _ ih =>
    rw [add_assoc]
    exact .next level (ih hok)

theorem append_error (h : Answers nacks levels (.error failure) effort) (more : List (Failure F)) :
    Answers (nacks ++ more) levels (.error failure) effort := by
  generalize herror : (.error failure : Except (Failure F) Unit) = first at h ⊢
  induction h with
  | done => exact absurd herror nofun
  | failed level h => exact .failed level h
  | next level _ ih => exact .next level (ih herror)

/-- Two samples are taken for each byte, of all bytes if none fails. -/
theorem length_levels (h : Answers nacks levels result effort) :
    levels.length = 2 * (acknowledges levels).length ∧ levels.length ≤ 2 * nacks.length ∧
      match result with
      | .ok _ => levels.length = 2 * nacks.length
      | .error _ => 2 ≤ levels.length := by
  induction h with
  | done => exact ⟨rfl, Nat.le_refl 0, rfl⟩
  | failed => exact ⟨rfl, Nat.le_mul_of_pos_right 2 (Nat.succ_pos _), Nat.le_refl 2⟩
  | @next _ nacks levels result _ _ _ ih =>
    obtain ⟨hacks, hle, hresult⟩ := ih
    simp only [acknowledges, List.length_cons]
    refine ⟨by omega, by omega, ?_⟩
    cases result with
    | ok =>
      have hall : levels.length = 2 * nacks.length := hresult
      show levels.length + 1 + 1 = 2 * (nacks.length + 1)
      omega
    | error => exact Nat.le_add_left 2 levels.length

/-- What the bytes cost is in the levels of their acknowledge pulses. -/
theorem effort_eq (h : Answers nacks levels result effort) :
    effort = ((acknowledges levels).map byteEffort).sum := by
  induction h with
  | done => rfl
  | failed => exact (add_zero _).symm
  | next level _ ih => exact congrArg (byteEffort 0 + ·) ih

/-- The same if all these levels are bits, together with the conditions of the transactions. -/
theorem conditions_add (h : Answers nacks levels result effort)
    (hbits : ∀ ack ∈ acknowledges levels, ack ≤ 1) (transactions : Nat) :
    let bytes := (acknowledges levels).length
    conditionsEffort transactions + effort =
      ⟨7 * transactions + 28 * bytes, 2 * bytes, 8 * transactions + 39 * bytes⟩ := by
  rw [h.effort_eq, sum_byteEffort hbits]
  exact Effort.ext rfl (Nat.zero_add _) rfl

theorem of_all_zero (h : Answers nacks levels result effort)
    (hzero : ∀ ack ∈ acknowledges levels, ack = 0) :
    result = .ok () ∧ (acknowledges levels).length = nacks.length := by
  induction h with
  | done => exact ⟨rfl, rfl⟩
  | failed level h =>
    rw [hzero _ List.mem_cons_self] at h
    exact absurd h nofun
  | next level _ ih =>
    obtain ⟨hresult, hlength⟩ := ih (List.forall_mem_cons.1 hzero).2
    exact ⟨hresult, congrArg (· + 1) hlength⟩

/-- A byte that is not acknowledged is the first one and the last, and the result is its failure. -/
theorem of_one (h : Answers nacks levels result effort) {i : Nat}
    (hone : (acknowledges levels)[i]? = some 1) :
    acknowledges levels = List.replicate i 0 ++ [1] ∧
      ∃ nack, nacks[i]? = some nack ∧ result = .error nack := by
  induction h generalizing i with
  | done => exact absurd hone nofun
  | failed level h =>
    obtain ⟨hi, hone⟩ := List.getElem?_eq_some_iff.1 hone
    obtain rfl : i = 0 := by
      simp only [acknowledges, List.length_singleton] at hi
      omega
    obtain rfl : _ = 1 := hone
    exact ⟨rfl, _, rfl, h.symm⟩
  | next level _ ih =>
    cases i with
    | zero => exact absurd (Option.some.inj hone) (by decide)
    | succ i =>
      obtain ⟨hacks, hnack⟩ := ih hone
      exact ⟨congrArg (0 :: ·) hacks, hnack⟩

/-- Bytes that get the same answers as long as both get one get the same answers. -/
theorem acknowledges_eq (h : Answers nacks levels result effort) {other : Except (Failure F) Unit}
    (hother : Answers more rest other cost) (hlength : nacks.length = more.length)
    (hagree : ∀ (k : Nat) a b, (acknowledges levels)[k]? = some a →
      (acknowledges rest)[k]? = some b → a = b) : acknowledges levels = acknowledges rest := by
  -- Both go on with a 0. Where they part, one pulse would be 0 and the other one not.
  induction h generalizing more rest other cost with
  | done =>
    cases hother with
    | done => rfl
    | failed => exact absurd hlength nofun
    | next => exact absurd hlength nofun
  | failed level h =>
    cases hother with
    | done => exact absurd hlength nofun
    | failed => exact congrArg (fun ack => [ack]) (hagree 0 _ _ rfl rfl)
    | next =>
      rw [hagree 0 _ _ rfl rfl] at h
      exact absurd h nofun
  | next level _ ih =>
    cases hother with
    | done => exact absurd hlength nofun
    | failed _ h =>
      rw [← hagree 0 _ _ rfl rfl] at h
      exact absurd h nofun
    | next _ hother =>
      exact congrArg (0 :: ·) (ih hother (Nat.succ.inj hlength) fun k => hagree (k + 1))

end Answers

def Sends (w : World (.lines L F) σ) (act : Action L F Unit) (nacks : List (Failure F)) : Prop :=
  ∀ s, ∃ result s' effort levels,
    act.run.Spends w s result s' effort levels ∧ Answers nacks levels result effort

theorem Sends.andThen {first second : Action L F Unit} {nacks more : List (Failure F)}
    (h : Sends w first nacks) (hsecond : Sends w second more) :
    Sends w (first >>= fun _ => second) (nacks ++ more) := by
  intro s
  obtain ⟨result, between, effort, levels, hfirst, hanswers⟩ := h s
  cases result with
  | error failure => exact ⟨_, _, _, _, hfirst.andThen_error, hanswers.append_error more⟩
  | ok =>
    obtain ⟨result, s', cost, rest, hsecond, hrest⟩ := hsecond between
    exact ⟨_, _, _, _, hfirst.andThen hsecond, hanswers.append_ok hrest⟩

section Transactions

variable (bus : Bus L) (hw : w.Reliable)
include hw

theorem sendFrame_sends (address register value : UInt8) :
    Sends w (bus.sendFrame address register value) (frameNacks address (register, value)) := by
  have hpart (part : BytePart) (byte : UInt8) (missing : Failure F) :
      Sends w (bus.sendPart part byte missing) [missing] := by
    intro s
    obtain ⟨level, ack, s', hspends⟩ := bus.sendPart_spends hw part byte missing s
    refine ⟨_, s', _, _, hspends, ?_⟩
    by_cases hzero : ack = 0
    · subst hzero
      exact .next level .done
    · obtain ⟨failure, hfail⟩ := byteResult_error missing hzero
      rw [hfail]
      exact .failed level hfail
  exact (hpart _ _ _).andThen ((hpart _ _ _).andThen (hpart _ _ _))

/-- A transaction costs as much as its bytes and its two conditions, also if a byte fails. -/
theorem transact_spends (address register value : UInt8) (s : σ) :
    ∃ result s' effort levels,
      (bus.transact address register value).run.Spends w s result s' (⟨7, 0, 8⟩ + effort) levels ∧
        Answers (frameNacks address (register, value)) levels result effort := by
  obtain ⟨s₁, hstart⟩ := bus.start_costs hw s
  obtain ⟨result, s₂, effort, levels, hframe, hanswers⟩ :=
    bus.sendFrame_sends hw address register value s₁
  obtain ⟨s₃, hstop⟩ := bus.stop_costs hw s₂
  -- The stop condition follows in any case, and no failure of it can overtake the one before.
  have hclosing : (bus.closing register result).run.Spends w s₂ result s₃ ⟨4, 0, 4⟩ [] := by
    cases result with
    | ok => exact hstop
    | error failure =>
      rw [closing_run_error, ← bind_pure_comp]
      exact (hstop.reporting _).bind_free (spends_done _)
  refine ⟨result, s₃, effort, levels, ?_, hanswers⟩
  rw [transact_run]
  have hsum : ⟨3, 0, 4⟩ + (effort + ⟨4, 0, 4⟩) = ⟨7, 0, 8⟩ + effort := calc
    ⟨3, 0, 4⟩ + (effort + ⟨4, 0, 4⟩) = ⟨3, 0, 4⟩ + (⟨4, 0, 4⟩ + effort) := by
      rw [add_comm effort]
    _ = ⟨7, 0, 8⟩ + effort := (add_assoc _ _ _).symm
  have hlevels : [] ++ (levels ++ []) = levels := List.append_nil levels
  exact Spends.note (Spends.of_eq (hstart.bind (hframe.bind hclosing)) hsum hlevels) _

/-- One transaction is begun for every three bytes. -/
theorem writeFrom_spends (address register : UInt8) (offset : Nat) (data : List UInt8) (s : σ) :
    ∃ result s' effort levels,
      (bus.writeFrom address register offset data).run.Spends w s result s'
        (conditionsEffort ((levels.length / 2 + 2) / 3) + effort) levels ∧
        Answers ((RegisterCall.writeBlock register data).writes.flatMap (frameNacks address))
          levels result effort := by
  induction data generalizing register offset s with
  | nil => exact ⟨_, _, _, _, spends_done _, .done⟩
  | cons value values ih =>
    obtain ⟨result, between, effort, levels, hfirst, hanswers⟩ :=
      bus.transact_spends hw address register value s
    replace hfirst := hfirst.reporting fun _ => .bulkFailed offset
    have hlength := hanswers.length_levels
    rw [writes_cons, List.flatMap_cons]
    -- A transaction that fails is begun and the last; one that succeeds stands for three bytes.
    cases result with
    | error failure =>
      have hbegun : (levels.length / 2 + 2) / 3 = 1 := by
        simp only [frameNacks, List.length_cons, List.length_nil] at hlength
        omega
      refine ⟨_, between, effort, levels, ?_, hanswers.append_error _⟩
      rw [hbegun]
      exact hfirst.andThen_error
    | ok =>
      obtain ⟨result, s', cost, rest, hrest, hmore⟩ := ih (register + 1) (offset + 1) between
      refine ⟨result, s', _, _, Spends.of_eq (hfirst.andThen hrest) ?_ rfl,
        hanswers.append_ok hmore⟩
      have hbegun : ((levels ++ rest).length / 2 + 2) / 3 = 1 + (rest.length / 2 + 2) / 3 := by
        simp only [frameNacks, List.length_cons, List.length_nil] at hlength
        rw [List.length_append]
        omega
      have hsum (n : Nat) : conditionsEffort (1 + n) = ⟨7, 0, 8⟩ + conditionsEffort n :=
        Effort.ext (Nat.mul_add 7 1 n) rfl (Nat.mul_add 8 1 n)
      rw [hbegun, hsum, add_add_add_comm]

theorem writeBlock_spends (address start : UInt8) {data : List UInt8}
    (hfits : data.length ≤ Page.size) (s : σ) :
    let block := (bus.writeBlock address start data).run.run w s
    let acks := acknowledges (levelsOf block.events)
    ∃ result effort, block.outcome = .returned result ∧
      Answers (BusCall.writeBlock address start data).nacks (levelsOf block.events) result effort ∧
      Effort.ofEvents block.events = conditionsEffort ((acks.length + 2) / 3) + effort := by
  intro block acks
  have hblock : block = (bus.writeFrom address start 0 data).run.run w s := by
    simp only [block, writeBlock, if_neg (Nat.not_lt.2 hfits)]
  obtain ⟨result, _, effort, levels, ⟨_, hreturns, heffort, rfl⟩, hanswers⟩ :=
    bus.writeFrom_spends hw address start 0 data s
  obtain rfl := hreturns.events
  have hacks : (levelsOf block.events).length / 2 = acks.length := by
    rw [hblock, hanswers.length_levels.1, Nat.mul_div_cancel_left _ Nat.two_pos, ← hblock]
  rw [← hblock] at hanswers heffort
  rw [← hacks]
  exact ⟨result, effort, hblock ▸ hreturns.outcome, hanswers, heffort⟩

end Transactions

theorem length_nacks (address start : UInt8) (data : List UInt8) :
    ((BusCall.writeBlock address start data).nacks : List (Failure F)).length =
      3 * data.length := by
  induction data generalizing start with
  | nil => rfl
  | cons value values ih =>
    have hrest := ih (start + 1)
    rw [BusCall.nacks] at hrest ⊢
    rw [writes_cons, List.flatMap_cons, List.length_append, hrest]
    exact Nat.add_comm 3 _

theorem cons_usage (bus : Bus L) {c : LineCall L} (hc : bus.Transfers c) (reply : c.Reply F)
    (effort : Effort) :
    Usage.cons (.called c reply : Event (.lines L F) N) (effort.usage bus.halfPeriod) =
      (Effort.ofCall c + effort).usage bus.halfPeriod := by
  rw [Effort.add_eq]
  cases c with
  | request | release | wait => exact hc.elim
  | drive | sample =>
    simp only [Usage.cons, Effort.usage, Effort.ofCall, Nat.add_comm, Nat.add_zero]
  | settle us =>
    obtain rfl : us = bus.halfPeriod := hc
    simp only [Usage.cons, Effort.usage, Effort.ofCall, Nat.zero_add, Nat.add_mul, Nat.one_mul]

/-- The delays of transfers are their pauses, half a clock period each. -/
theorem usage_of_transfers (bus : Bus L) {events : List (Event (.lines L F) N)}
    (h : ∀ c ∈ callsOf events, bus.Transfers c.1) :
    Usage.ofEvents events = (Effort.ofEvents events).usage bus.halfPeriod := by
  induction events with
  | nil => exact congrArg (fun settled => Usage.mk 0 0 settled []) (Nat.zero_mul _).symm
  | cons e events ih =>
    cases e with
    | noted n => exact ih h
    | called c reply =>
      obtain ⟨hc, hcalls⟩ := List.forall_mem_cons.1 h
      exact (congrArg (Usage.cons _) (ih hcalls)).trans (bus.cons_usage hc reply _)

/-- A block on lines that never fault, whose acknowledge pulses show the levels `acks`. If all these
are 0, a block of `n` values succeeds after `91 * n` outputs, `6 * n` inputs and `125 * n` pauses.
If byte `b` of transaction `j` is not acknowledged, it is the first such byte and the block fails
with it; the cost in all is that of the transactions ahead, of the bytes up to that one, and of the
two conditions around them. All delays are pauses of half a clock period. Another address, other
registers and values, other lines and other samples ahead of the pulses cost the same, if the values
are as many and the pulses agree for as long as both blocks go on. -/
theorem writeBlock_effort (bus : Bus L) (address start : UInt8) {data : List UInt8}
    (hfits : data.length ≤ 32) (hw : w.Reliable) (s : σ) :
    let block := (bus.writeBlock address start data).run.run w s
    let n := data.length
    let h := bus.halfPeriod.toNat
    let acks := acknowledges (levelsOf block.events)
    let nacks : List (Failure F) := (BusCall.writeBlock address start data).nacks
    ((∀ ack ∈ acks, ack ≤ 1) →
      ((∀ ack ∈ acks, ack = 0) → block.outcome = .returned (.ok ()) ∧
        Effort.ofEvents block.events = ⟨91 * n, 6 * n, 125 * n⟩ ∧
        Usage.ofEvents block.events = ⟨91 * n, 6 * n, 125 * n * h, []⟩) ∧
      ∀ j b, 1 ≤ b → b ≤ 3 → acks[3 * j + (b - 1)]? = some 1 →
        acks = List.replicate (3 * j + (b - 1)) 0 ++ [1] ∧
        (∃ nack, nacks[3 * j + (b - 1)]? = some nack ∧
          block.outcome = .returned (.error nack)) ∧
        Effort.ofEvents block.events =
          ⟨91 * j + 7 + 28 * b, 6 * j + 2 * b, 125 * j + 8 + 39 * b⟩ ∧
        Usage.ofEvents block.events =
          ⟨91 * j + 7 + 28 * b, 6 * j + 2 * b, (125 * j + 8 + 39 * b) * h, []⟩) ∧
    ∀ {τ : Type} {v : World (.lines L F) τ}, v.Reliable → ∀ (t : τ) (address' start' : UInt8)
      (data' : List UInt8), data'.length = n →
      let other := (bus.writeBlock address' start' data').run.run v t
      (∀ (k : Nat) a b, acks[k]? = some a →
        (acknowledges (levelsOf other.events))[k]? = some b → a = b) →
      Effort.ofEvents other.events = Effort.ofEvents block.events ∧
        Usage.ofEvents other.events = Usage.ofEvents block.events := by
  intro block n h acks nacks
  have husage {τ : Type} (v : World (.lines L F) τ) (t : τ) (address start : UInt8)
      (data : List UInt8) :
      let events := ((bus.writeBlock address start data).run.run v t).events
      Usage.ofEvents events = (Effort.ofEvents events).usage bus.halfPeriod :=
    bus.usage_of_transfers ((bus.closed_makes.writeBlock address start data).calls v t)
  obtain ⟨result, effort, houtcome, hanswers, heffort⟩ :=
    bus.writeBlock_spends hw address start hfits s
  -- The bytes that were sent and the transactions that were begun for them give the counts.
  refine ⟨fun hbits => ⟨fun hzero => ?_, fun j b hfirst hlast hnack => ?_⟩, ?_⟩
  · obtain ⟨rfl, hlength⟩ := hanswers.of_all_zero hzero
    have hcost : Effort.ofEvents block.events = ⟨91 * n, 6 * n, 125 * n⟩ := by
      rw [heffort, hanswers.conditions_add hbits, hlength, length_nacks, Effort.mk.injEq]
      omega
    refine ⟨houtcome, hcost, ?_⟩
    rw [husage, hcost]
    rfl
  · obtain ⟨hacks, nack, hn, rfl⟩ := hanswers.of_one hnack
    have hlength := congrArg List.length hacks
    rw [List.length_append, List.length_replicate, List.length_singleton] at hlength
    have hcost : Effort.ofEvents block.events =
        ⟨91 * j + 7 + 28 * b, 6 * j + 2 * b, 125 * j + 8 + 39 * b⟩ := by
      rw [heffort, hanswers.conditions_add hbits, hlength, Effort.mk.injEq]
      omega
    refine ⟨hacks, ⟨nack, hn, houtcome⟩, hcost, ?_⟩
    rw [husage, hcost]
    rfl
  · -- Both costs are read off the same pulses.
    intro τ v hv t address' start' data' hlength other hagree
    have hfits' : data'.length ≤ 32 := hlength ▸ hfits
    obtain ⟨result', effort', -, hanswers', heffort'⟩ :=
      bus.writeBlock_spends hv address' start' hfits' t
    have hbytes : nacks.length =
        ((BusCall.writeBlock address' start' data').nacks : List (Failure F)).length := by
      rw [length_nacks, length_nacks, hlength]
    have hacks := hanswers.acknowledges_eq hanswers' hbytes hagree
    have hsame : Effort.ofEvents other.events = Effort.ofEvents block.events := by
      rw [heffort, heffort', hanswers.effort_eq, hanswers'.effort_eq, ← hacks]
    refine ⟨hsame, ?_⟩
    rw [husage, husage, hsame]

/-- The second byte of the second transaction is not acknowledged. Ahead of the pulses the samples
show no bits. -/
theorem writeBlock_effort_nack :
    let bus : Bus UInt8 := ⟨defaultClock, defaultData, defaultHalfPeriod⟩
    let level (n : Nat) : UInt8 := if n = 9 then 1 else if n % 2 = 0 then 7 else 0
    let w : World (.lines UInt8 Unit) Nat := .answering (steadyLines level)
    let data : List UInt8 := [0x0F, 0xF0]
    let block := (bus.writeBlock 0x64 0x50 data).run.run w 0
    let acks := acknowledges (levelsOf block.events)
    data.length ≤ 32 ∧ w.Reliable ∧ (∀ ack ∈ acks, ack ≤ 1) ∧ acks[3 * 1 + (2 - 1)]? = some 1 ∧
      block.outcome = .returned (.error (.registerNack 0x51)) ∧
      Effort.ofEvents block.events = ⟨154, 10, 211⟩ ∧
      Usage.ofEvents block.events = ⟨154, 10, 1055, []⟩ := by
  intro bus level w data block acks
  have hfits : data.length ≤ 32 := by decide
  have hw : w.Reliable := reliable_steadyLines level
  have hbits : ∀ ack ∈ acks, ack ≤ 1 := by decide +kernel
  have hnack : acks[3 * 1 + (2 - 1)]? = some 1 := by decide +kernel
  obtain ⟨hends, _⟩ := writeBlock_effort bus 0x64 0x50 hfits hw 0
  obtain ⟨_, ⟨nack, hn, houtcome⟩, hcost, husage⟩ :=
    (hends hbits).2 1 2 (by decide) (by decide) hnack
  obtain rfl : _ = nack := Option.some.inj hn
  exact ⟨hfits, hw, hbits, hnack, houtcome, hcost, husage⟩

end Bus

end LedSequencer
