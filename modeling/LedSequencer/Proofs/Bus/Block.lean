import LedSequencer.Proofs.Bus.Arrival
import LedSequencer.Proofs.Bus.Session
import LedSequencer.Proofs.Bus.Transfers
import LedSequencer.Proofs.Routine.Fails
import LedSequencer.Proofs.Routine.Muting
import Mathlib.Data.List.Chain

/-! A block of bytes against the single writes that it is made of. Main statement: a block is its
transactions in a row, up to and including the first that fails, and the failure tells which one
that was; two blocks in a row are the same as one. -/
namespace LedSequencer

variable {L F σ : Type}

/-- If a failure names a register or a value, it is that of a write. -/
def Failure.Names (register value : UInt8) : Failure F → Prop
  | .registerNack r => r = register
  | .valueNack r v => r = register ∧ v = value
  | _ => True

theorem toNat_add_ofNat (start : UInt8) (offset : Nat) :
    (start + UInt8.ofNat offset).toNat = (start.toNat + offset) % 256 := by
  rw [UInt8.toNat_add, UInt8.toNat_ofNat', Nat.add_mod_mod]

theorem toNat_ofNat_sub (start : UInt8) {offset : Nat} (h : offset < 256) :
    (start + UInt8.ofNat offset - start).toNat = offset := by
  rw [UInt8.add_comm, UInt8.add_sub_cancel, UInt8.toNat_ofNat', Nat.mod_eq_of_lt h]

namespace Bus
open Routine

variable (bus : Bus L) (address : UInt8)

section Failing

variable (register value : UInt8)

theorem carries_names : bus.Carries (F := F) (Fails (Failure.Names register value)) where
  nothing := fails_pure ()
  andThen first second := first.bind fun _ => second
  settle := by
    rw [Fails, ensures_settle]
    rintro _ ⟨⟩
  setClock high := by
    rw [Fails, ensures_setClock]
    constructor
    · rintro fault _ ⟨⟩
      trivial
    · rintro _ ⟨⟩
  setData high := by
    rw [Fails, ensures_setData]
    constructor
    · rintro fault _ ⟨⟩
      trivial
    · rintro _ ⟨⟩

theorem sampleData_names :
    Fails (Failure.Names register value) (bus.sampleData : Action L F UInt8) := by
  rw [Fails, ensures_sampleData]
  constructor
  · rintro fault _ ⟨⟩
    trivial
  · rintro level _ ⟨⟩

theorem checkLevel_names (level : UInt8) :
    Fails (Failure.Names register value) (checkLevel level : Action L F UInt8) := by
  unfold checkLevel
  split
  · exact fails_pure level
  · exact (fails_throw trivial).reporting _

theorem sendByte_names (byte : UInt8) :
    Fails (Failure.Names register value) (bus.sendByte byte : Action L F Acknowledge) := by
  have hsteps := bus.carries_names (F := F) register value
  have hletGo : Fails (Failure.Names register value) (bus.letGo : Action L F Unit) := by
    refine (hsteps.setClock false).bind fun _ => hsteps.settle.bind fun _ => ?_
    refine (hsteps.setData true).bind fun _ => hsteps.settle.bind fun _ => ?_
    exact (bus.sampleData_names register value).bind fun _ => fails_pure ()
  have hreceive : Fails (Failure.Names register value) (bus.receiveBit : Action L F UInt8) := by
    refine (hsteps.setClock true).bind fun _ => hsteps.settle.bind fun _ => ?_
    refine (bus.sampleData_names register value).bind fun level => ?_
    refine (checkLevel_names register value level).bind fun level => hsteps.settle.bind fun _ => ?_
    refine (hsteps.setClock false).bind fun _ => hsteps.settle.bind fun _ => ?_
    exact hsteps.settle.bind fun _ => fails_pure level
  refine (hsteps.sendBits (bitsOf byte)).bind fun _ => hsteps.settle.bind fun _ => ?_
  exact hletGo.bind fun _ => hreceive.bind fun level => fails_pure _

theorem transact_names :
    Fails (Failure.Names register value)
      (bus.transact address register value : Action L F Unit) := by
  have hsteps := bus.carries_names (F := F) register value
  have hpart (part : BytePart) (byte : UInt8) (missing : Failure F)
      (hmissing : missing.Names register value) :
      Fails (Failure.Names register value) (bus.sendPart part byte missing) := by
    refine Fails.reporting ((bus.sendByte_names register value byte).bind ?_) _
    rintro (_ | _)
    · exact fails_pure ()
    · exact fails_throw hmissing
  have hframe : Fails (Failure.Names register value)
      (bus.sendFrame address register value : Action L F Unit) := by
    refine (hpart .address address (.addressNack address) trivial).bind fun _ => ?_
    refine (hpart .register register (.registerNack register) rfl).bind fun _ => ?_
    exact hpart .value value (.valueNack register value) ⟨rfl, rfl⟩
  -- The failure of the bytes goes on past the stop condition behind it.
  have hnote : Fails (Failure.Names register value)
      (Journal.note (Notice.writing register value) : Action L F Unit) := fun _ => nofun
  refine hnote.bind fun _ => ?_
  refine hsteps.start.bind fun _ => (hframe.tryCatch fun failure hfailure => ?_).bind fun _ =>
    hsteps.stop
  refine Fails.bind ((hsteps.stop.reporting _).tryCatch fun _ _ => fails_pure ()) fun _ => ?_
  exact fails_throw hfailure

end Failing

section Transactions

variable (w : World (.lines L F) σ)

/-- Every transaction of a block writes one of its bytes, in order. -/
theorem transactionsFrom_getElem? {data : List UInt8} {register : UInt8} {s : σ} {k : Nat}
    {t : Transaction σ} (h : (bus.transactionsFrom w address register data s)[k]? = some t) :
    t.address = address ∧ t.register = register + UInt8.ofNat k ∧ data[k]? = some t.value := by
  induction data generalizing register s k with
  | nil =>
    rw [transactionsFrom, List.getElem?_nil] at h
    cases h
  | cons value values ih =>
    rw [transactionsFrom] at h
    cases k with
    | zero =>
      obtain rfl := Option.some.inj h
      exact ⟨rfl, (UInt8.add_zero register).symm, rfl⟩
    | succ k =>
      rw [List.getElem?_cons_succ] at h
      split at h
      · obtain ⟨haddress, hregister, hvalue⟩ := ih h
        refine ⟨haddress, ?_, hvalue⟩
        rw [hregister, UInt8.ofNat_add, UInt8.add_comm (UInt8.ofNat k), UInt8.add_assoc]
        rfl
      · rw [List.getElem?_nil] at h
        cases h

/-- They begin where the block does, and each of them where the one before succeeded. -/
theorem transactionsFrom_isChain (register : UInt8) (data : List UInt8) (s : σ) :
    let ts := bus.transactionsFrom w address register data s
    (∀ t ∈ ts.head?, t.world = s) ∧ ts.IsChain fun t u =>
      (t.run bus w).outcome = .returned (.ok ()) ∧ u.world = (t.run bus w).world := by
  induction data generalizing register s with
  | nil => exact ⟨fun t ht => absurd ht (Option.not_mem_none t), .nil⟩
  | cons value values ih =>
    rw [transactionsFrom]
    refine ⟨?_, List.isChain_cons.2 ?_⟩
    · rintro _ ⟨⟩
      rfl
    · split
      · rename_i hok
        obtain ⟨hworld, hchain⟩ := ih (register + 1)
          ((bus.transact address register value).run.run w s).world
        exact ⟨fun u hu => ⟨hok, hworld u hu⟩, hchain⟩
      · exact ⟨fun u hu => absurd hu (Option.not_mem_none u), .nil⟩

/-- Some transactions end with a result: all of `count` transactions succeed, or all but the last
one do, which fails. -/
def Concludes (ts : List (Transaction σ)) (count : Nat) : Except (Failure F) Unit → Prop
  | .ok _ => ts.length = count ∧ ∀ t ∈ ts, (t.run bus w).outcome = .returned (.ok ())
  | .error failure => ∃ earlier t, ts = earlier ++ [t] ∧
      (∀ t ∈ earlier, (t.run bus w).outcome = .returned (.ok ())) ∧
      (t.run bus w).outcome = .returned (.error failure)

theorem writeFrom_concludes
    (hreturns : ∀ t : Transaction σ, ∃ result, (t.run bus w).outcome = .returned result)
    (register : UInt8) (offset : Nat) (data : List UInt8) (s : σ) :
    ∃ result, ((bus.writeFrom address register offset data).run.run w s).outcome =
        .returned result ∧
      bus.Concludes w (bus.transactionsFrom w address register data s) data.length result := by
  induction data generalizing register offset s with
  | nil => exact ⟨.ok (), rfl, rfl, List.forall_mem_nil _⟩
  | cons value values ih =>
    obtain ⟨first, hfirst⟩ := hreturns ⟨address, register, value, s⟩
    -- A report changes neither the result nor the state that the next transaction starts from.
    obtain ⟨houtcome, hworld, _⟩ := Routine.run_reporting w (fun _ => Notice.bulkFailed offset)
      (bus.transact address register value) s
    replace hfirst : ((bus.transact address register value).run.run w s).outcome =
      .returned first := hfirst
    rw [writeFrom, ExceptT.run_bind, run_bind, Run.andThen, houtcome, hfirst, transactionsFrom,
      hfirst]
    cases first with
    | error failure => exact ⟨.error failure, rfl, [], _, rfl, List.forall_mem_nil _, hfirst⟩
    | ok =>
      obtain ⟨result, hresult, hrest⟩ := ih (register + 1) (offset + 1)
        ((bus.transact address register value).run.run w s).world
      refine ⟨result, ?_, ?_⟩
      · rw [hworld]
        exact hresult
      · cases result with
        | ok =>
          obtain ⟨hlength, hall⟩ := hrest
          exact ⟨congrArg Nat.succ hlength, List.forall_mem_cons.2 ⟨hfirst, hall⟩⟩
        | error failure =>
          obtain ⟨earlier, t, hts, hall, hlast⟩ := hrest
          exact ⟨_ :: earlier, t, congrArg (List.cons _) hts,
            List.forall_mem_cons.2 ⟨hfirst, hall⟩, hlast⟩

end Transactions

section Parts

/-- The bytes before those of a block only count for its reports. -/
theorem mute_writeFrom (register : UInt8) (offset other : Nat) (data : List UInt8) :
    (bus.writeFrom address register offset data : Action L F Unit).run.mute =
      (bus.writeFrom address register other data).run.mute := by
  induction data generalizing register offset other with
  | nil => rfl
  | cons value values ih =>
    refine mute_andThen ?_ fun _ => ih (register + 1) (offset + 1) (other + 1)
    rw [mute_reporting, mute_reporting]

theorem writeFrom_append (register : UInt8) (offset : Nat) (a b : List UInt8) :
    (bus.writeFrom address register offset (a ++ b) : Action L F Unit) = (do
      bus.writeFrom address register offset a
      bus.writeFrom address (register + UInt8.ofNat a.length) (offset + a.length) b) := by
  induction a generalizing register offset with
  | nil =>
    rw [List.nil_append, writeFrom, pure_bind, List.length_nil]
    exact congrArg (fun r => bus.writeFrom address r offset b) (UInt8.add_zero register).symm
  | cons value values ih =>
    have hregister : register + 1 + UInt8.ofNat values.length =
        register + UInt8.ofNat (values.length + 1) := by
      rw [UInt8.ofNat_add, UInt8.add_comm (UInt8.ofNat values.length), UInt8.add_assoc]
      rfl
    rw [List.cons_append, writeFrom, ih, writeFrom, bind_assoc, List.length_cons, hregister,
      Nat.add_right_comm offset 1, ← Nat.add_assoc offset]

/-- Two blocks in a row are one block, but for the offsets in the reports of the second. -/
theorem mute_writeBlock_append (start : UInt8) {a b : List UInt8}
    (hfits : (a ++ b).length ≤ Page.size) :
    (bus.writeBlock address start (a ++ b) : Action L F Unit).run.mute = (do
      bus.writeBlock address start a
      bus.writeBlock address (start + UInt8.ofNat a.length) b : Action L F Unit).run.mute := by
  have hsum : a.length + b.length ≤ Page.size := List.length_append ▸ hfits
  have ha : ¬ a.length > Page.size := by omega
  have hb : ¬ b.length > Page.size := by omega
  rw [writeBlock, if_neg (Nat.not_lt.2 hfits), writeFrom_append, writeBlock, if_neg ha, writeBlock,
    if_neg hb]
  exact mute_andThen rfl fun _ => bus.mute_writeFrom address _ _ _ b

end Parts

/-- The registers that transactions of a block write are all different. -/
theorem nodup_transactionsFrom (w : World (.lines L F) σ) (start : UInt8) {data : List UInt8}
    (hfits : data.length ≤ Page.size) (s : σ) :
    ((bus.transactionsFrom w address start data s).map Transaction.register).Nodup := by
  generalize hts : bus.transactionsFrom w address start data s = ts
  have hplace {k : Nat} (hk : k < ts.length) :
      k < 256 ∧ ts[k].register = start + UInt8.ofNat k := by
    have ht : (bus.transactionsFrom w address start data s)[k]? = some ts[k] := by
      rw [hts, List.getElem?_eq_getElem hk]
    obtain ⟨_, hregister, hvalue⟩ := bus.transactionsFrom_getElem? address w ht
    have hlt := (List.getElem?_eq_some_iff.1 hvalue).1
    exact ⟨Nat.lt_of_lt_of_le hlt (Nat.le_trans hfits (by decide)), hregister⟩
  rw [List.Nodup, List.pairwise_map, List.pairwise_iff_getElem]
  intro i j hi hj hij heq
  obtain ⟨hi, hfirst⟩ := hplace hi
  obtain ⟨hj, hsecond⟩ := hplace hj
  -- The registers tell the places of the two transactions.
  have hoffset : i = j := by
    rw [← toNat_ofNat_sub start hi, ← toNat_ofNat_sub start hj, ← hfirst,
      ← hsecond, heq]
  omega

/-- A block with any faults and levels. One that does not fit into a page is refused without a call.
Otherwise its calls and its result are those of transactions in a row, one for each byte, into
registers that are all different: each begins where the one before succeeded, and the first that
fails is the last. Where a failure names a register, the register tells how many bytes went before.
And a block in two parts is the first part and then, if that succeeds, the second. -/
theorem writeBlock_in_turn (start : UInt8) (data : List UInt8)
    (answer : (c : LineCall L) → σ → c.Reply F × σ) (s : σ) :
    let w : World (.lines L F) σ := .answering answer
    let block := (bus.writeBlock address start data).run.run w s
    (32 < data.length →
      block.outcome = .returned (.error (.programTooLarge data.length)) ∧ block.events = []) ∧
    (data.length ≤ 32 → ∃ (ts : List (Transaction σ)) (result : Except (Failure F) Unit),
      (∀ t ∈ ts.head?, t.world = s) ∧
      (ts.IsChain fun t u =>
        (t.run bus w).outcome = .returned (.ok ()) ∧ u.world = (t.run bus w).world) ∧
      (∀ (k : Nat) t, ts[k]? = some t → t.address = address ∧
        t.register.toNat = (start.toNat + k) % 256 ∧ data[k]? = some t.value) ∧
      (ts.map Transaction.register).Nodup ∧
      callsOf block.events = callsOf (bus.eventsOf w ts) ∧ block.outcome = .returned result ∧
      match result with
      | .ok _ => ts.length = data.length ∧ ∀ t ∈ ts, (t.run bus w).outcome = .returned (.ok ())
      | .error failure => ∃ earlier t, ts = earlier ++ [t] ∧
          (∀ t ∈ earlier, (t.run bus w).outcome = .returned (.ok ())) ∧
          (t.run bus w).outcome = .returned (.error failure) ∧
          (∀ register, failure = .registerNack register →
            (register - start).toNat = earlier.length) ∧
          ∀ register value, failure = .valueNack register value →
            (register - start).toNat = earlier.length ∧ data[earlier.length]? = some value) ∧
    ∀ a b, data = a ++ b → data.length ≤ 32 →
      let parts := (do
        bus.writeBlock address start a
        bus.writeBlock address (start + UInt8.ofNat a.length) b : Action L F Unit).run.run w s
      callsOf block.events = callsOf parts.events ∧ block.outcome = parts.outcome ∧
        block.world = parts.world := by
  intro w block
  refine ⟨fun hlong => ?_, fun hfits => ?_, ?_⟩
  · have hrefused : block = (Routine.done (.error (.programTooLarge data.length))).run w s := by
      have hpage : data.length > Page.size := hlong
      simp only [block, writeBlock, if_pos hpage]
      rfl
    rw [hrefused]
    exact ⟨rfl, rfl⟩
  · have hblock : block = (bus.writeFrom address start 0 data).run.run w s := by
      have hpage : ¬ data.length > Page.size := Nat.not_lt.2 hfits
      simp only [block, writeBlock, if_neg hpage]
    have hreturns (t : Transaction σ) : ∃ result, (t.run bus w).outcome = .returned result :=
      ((bus.closed_makes.transact t.address t.register t.value).adds []).returns answer t.world
    obtain ⟨result, hresult, hconcludes⟩ :=
      bus.writeFrom_concludes address w hreturns start 0 data s
    obtain ⟨hhead, hchain⟩ := bus.transactionsFrom_isChain address w start data s
    refine ⟨bus.transactionsFrom w address start data s, result, hhead, hchain, ?_,
      bus.nodup_transactionsFrom address w start hfits s, ?_, hblock ▸ hresult, ?_⟩
    · intro k t ht
      obtain ⟨haddress, hregister, hvalue⟩ := bus.transactionsFrom_getElem? address w ht
      exact ⟨haddress, hregister ▸ toNat_add_ofNat start k, hvalue⟩
    · rw [hblock]
      exact bus.calls_writeFrom w address start 0 data s
    · cases result with
      | ok => exact hconcludes
      | error failure =>
        obtain ⟨earlier, t, hts, hall, hlast⟩ := hconcludes
        have hplace : (bus.transactionsFrom w address start data s)[earlier.length]? = some t := by
          rw [hts, List.getElem?_concat_length]
        obtain ⟨_, hregister, hvalue⟩ := bus.transactionsFrom_getElem? address w hplace
        -- A block is shorter than the round of the registers, so the register tells the place.
        have hcount : earlier.length < 256 := by
          have hlt := (List.getElem?_eq_some_iff.1 hvalue).1
          omega
        have hoffset : (t.register - start).toNat = earlier.length := by
          rw [hregister, toNat_ofNat_sub start hcount]
        have hnames := (bus.transact_names t.address t.register t.value).returned w hlast
        refine ⟨earlier, t, hts, hall, hlast, ?_, ?_⟩
        · rintro register rfl
          rw [show register = t.register from hnames]
          exact hoffset
        · rintro register value rfl
          obtain ⟨rfl, rfl⟩ := hnames
          exact ⟨hoffset, hvalue⟩
  · rintro a b rfl hfits
    obtain ⟨houtcome, hworld, hcalls⟩ :=
      run_of_mute_eq (bus.mute_writeBlock_append address start hfits) w s
    exact ⟨hcalls, houtcome, hworld⟩

end Bus

end LedSequencer
