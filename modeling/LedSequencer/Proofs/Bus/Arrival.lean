import LedSequencer.Chip.Sequence
import LedSequencer.Proofs.Bus.Ledger

/-! What arrives of the writes of registers behind what arrived before. Main statement: of a block
the receiver gets all writes, if it succeeds, and else some of them and a part of the next one. -/
namespace LedSequencer

def payload (address : UInt8) (w : UInt8 × UInt8) : List UInt8 := [address, w.1, w.2]

/-- The deliveries of some payloads that all arrived, the latest first. -/
def delivered (payloads : List (List UInt8)) : List Delivery :=
  (payloads.map fun bytes => ⟨bytes, true⟩).reverse

theorem delivered_append (a b : List (List UInt8)) :
    delivered (a ++ b) = delivered b ++ delivered a := by
  rw [delivered, List.map_append, List.reverse_append]
  rfl

def Wire.Delivered (wire : Wire) (deliveries : List Delivery) : Prop :=
  Ledger wire.levels (wire.edges.foldl receive []) deliveries

/-- Some payloads were on their way, with some result, behind some earlier deliveries. -/
def Arrives {ε α : Type} (earlier : List Delivery) (payloads : List (List UInt8))
    (result : Except ε α) (wire : Wire) : Prop :=
  ∃ more, wire.Delivered (more ++ earlier) ∧ (∀ d ∈ more, d.bytes ∈ payloads) ∧
    ∀ a, result = .ok a → more = delivered payloads

namespace Arrives

variable {ε α : Type}
variable {earlier : List Delivery} {payloads more : List (List UInt8)} {wire : Wire}

theorem delivered {a : α} (h : Arrives earlier payloads (.ok a : Except ε α) wire) :
    wire.Delivered (delivered payloads ++ earlier) := by
  obtain ⟨_, hwire, _, hok⟩ := h
  obtain rfl := hok a rfl
  exact hwire

theorem behind {result : Except ε α}
    (h : Arrives (LedSequencer.delivered payloads ++ earlier) more result wire) :
    Arrives earlier (payloads ++ more) result wire := by
  obtain ⟨some, hwire, hsome, hok⟩ := h
  refine ⟨some ++ LedSequencer.delivered payloads, by rwa [List.append_assoc], ?_, ?_⟩
  · intro d hd
    obtain hd | hd := List.mem_append.1 hd
    · exact List.mem_append_right payloads (hsome d hd)
    · obtain ⟨bytes, hbytes, rfl⟩ := List.mem_map.1 (List.mem_reverse.1 hd)
      exact List.mem_append_left more hbytes
  · intro a ha
    rw [hok a ha, delivered_append]

end Arrives

/-- What becomes of payloads that go out one after the other until one of them fails: all of them
arrive, or some of them do and of the next one nothing or a part. The latest delivery is last. -/
inductive Ships : List (List UInt8) → (complete : Bool) → List Delivery → Prop where
  | all (payloads : List (List UInt8)) :
    Ships payloads true (payloads.map fun bytes => ⟨bytes, true⟩)
  | cut (sent : List (List UInt8)) (next : List UInt8) (left : List (List UInt8))
      (rest : List Delivery) (h : rest = [] ∨ rest = [⟨next, false⟩]) :
    Ships (sent ++ next :: left) false ((sent.map fun bytes => ⟨bytes, true⟩) ++ rest)

namespace Ships

variable {payloads : List (List UInt8)} {complete : Bool} {deliveries : List Delivery}

theorem eq_of_complete (h : Ships payloads true deliveries) :
    deliveries = payloads.map fun bytes => ⟨bytes, true⟩ := by
  cases h with
  | all => rfl

theorem append {more : List (List UInt8)} {others : List Delivery}
    (h : Ships payloads true deliveries) (hmore : Ships more complete others) :
    Ships (payloads ++ more) complete (deliveries ++ others) := by
  obtain rfl := h.eq_of_complete
  cases hmore with
  | all =>
    rw [← List.map_append]
    exact .all (payloads ++ more)
  | cut sent next left rest h =>
    rw [← List.append_assoc, ← List.append_assoc, ← List.map_append]
    exact .cut (payloads ++ sent) next left rest h

theorem failed (h : Ships payloads false deliveries) (more : List (List UInt8)) :
    Ships (payloads ++ more) false deliveries := by
  cases h with
  | cut sent next left rest h =>
    rw [List.append_assoc, List.cons_append]
    exact .cut sent next (left ++ more) rest h

theorem mem (h : Ships payloads complete deliveries) : ∀ d ∈ deliveries, d.bytes ∈ payloads := by
  have hsent {sent : List (List UInt8)} {d : Delivery}
      (hd : d ∈ sent.map fun bytes => (⟨bytes, true⟩ : Delivery)) : d.bytes ∈ sent := by
    obtain ⟨bytes, hbytes, rfl⟩ := List.mem_map.1 hd
    exact hbytes
  cases h with
  | all => exact fun d hd => hsent hd
  | cut sent next left rest h =>
    intro d hd
    obtain hd | hd := List.mem_append.1 hd
    · exact List.mem_append_left _ (hsent hd)
    · obtain rfl | rfl := h
      · exact absurd hd List.not_mem_nil
      · obtain rfl := List.mem_singleton.1 hd
        exact List.mem_append_right sent List.mem_cons_self

end Ships

def frameEdges (bytes : List UInt8) : List Edge :=
  .start :: ((Bus.frameBits bytes).map .clockRise ++ [.clockRise false, .stop])

def Wire.send (wire : Wire) (bytes : List UInt8) : Wire :=
  ⟨.idle, wire.edges ++ (wire.levels.leadIn ++ frameEdges bytes)⟩

structure Shipped (before : Wire) (payloads : List (List UInt8)) (complete : Bool) (after : Wire) :
    Prop where
  delivers (earlier : List Delivery) (h : before.Delivered earlier) :
    ∃ deliveries, Ships payloads complete deliveries ∧
      after.Delivered (deliveries.reverse ++ earlier)
  sends (h : complete = true) : after = payloads.foldl Wire.send before

namespace Shipped

variable {before middle after : Wire} {payloads more : List (List UInt8)} {complete : Bool}

theorem nothing (wire : Wire) : Shipped wire [] true wire :=
  ⟨fun _ h => ⟨[], .all [], h⟩, fun _ => rfl⟩

theorem failed (h : Shipped before payloads false after) (more : List (List UInt8)) :
    Shipped before (payloads ++ more) false after := by
  refine ⟨fun earlier hbefore => ?_, nofun⟩
  obtain ⟨deliveries, hships, hafter⟩ := h.delivers earlier hbefore
  exact ⟨deliveries, hships.failed more, hafter⟩

theorem append (h : Shipped before payloads true middle) (hmore : Shipped middle more complete after) :
    Shipped before (payloads ++ more) complete after := by
  refine ⟨fun earlier hbefore => ?_, fun hcomplete => ?_⟩
  · obtain ⟨deliveries, hships, hmiddle⟩ := h.delivers earlier hbefore
    obtain ⟨others, hothers, hafter⟩ := hmore.delivers _ hmiddle
    refine ⟨deliveries ++ others, hships.append hothers, ?_⟩
    rwa [List.reverse_append, List.append_assoc]
  · rw [List.foldl_append, ← h.sends rfl]
    exact hmore.sends hcomplete

theorem arrives {ε α : Type} {earlier : List Delivery} {result : Except ε α}
    (h : Shipped before payloads result.toBool after) (hbefore : before.Delivered earlier) :
    Arrives earlier payloads result after := by
  obtain ⟨deliveries, hships, hafter⟩ := h.delivers earlier hbefore
  refine ⟨deliveries.reverse, hafter, fun d hd => hships.mem d (List.mem_reverse.1 hd), ?_⟩
  rintro a rfl
  rw [hships.eq_of_complete]
  rfl

end Shipped

theorem writes_cons (register value : UInt8) (values : List UInt8) :
    (RegisterCall.writeBlock register (value :: values)).writes =
      (register, value) :: (RegisterCall.writeBlock (register + 1) values).writes := by
  have hnext (offset : Nat) :
      register + UInt8.ofNat (offset + 1) = register + 1 + UInt8.ofNat offset := by
    rw [UInt8.ofNat_add, UInt8.add_comm (UInt8.ofNat offset), UInt8.add_assoc]
    rfl
  simp only [RegisterCall.writes, List.mapIdx_cons, hnext]
  exact congrArg (fun first => (first, value) :: _) (UInt8.add_zero register)

namespace Bus
open Routine

variable {L F : Type} [DecidableEq L] (bus : Bus L)

theorem TransactionWave.shipped (wire : Wire) {bytes : List UInt8} {complete : Bool}
    {wave : List Edge} {after : Levels} (h : TransactionWave wire.levels bytes complete wave after) :
    Shipped wire [bytes] complete ⟨after, wire.edges ++ wave⟩ := by
  refine ⟨fun earlier hwire => ?_, fun hcomplete => ?_⟩
  · have hframes {deliveries : List Delivery}
        (hl : Ledger after (wave.foldl receive (wire.edges.foldl receive [])) deliveries) :
        Wire.Delivered ⟨after, wire.edges ++ wave⟩ deliveries := by
      rw [Wire.Delivered, List.foldl_append]
      exact hl
    -- Without a start condition nothing was added, and the write did not succeed.
    obtain ⟨rfl, hl⟩ | hl := h.ledger hwire
    · exact ⟨[], .cut [] _ [] [] (Or.inl rfl), hframes hl⟩
    · refine ⟨[⟨bytes, complete⟩], ?_, hframes hl⟩
      cases complete with
      | true => exact .all [bytes]
      | false => exact .cut [] _ [] _ (Or.inr rfl)
  · cases h with
    | complete => rfl
    | _ => exact absurd hcomplete Bool.noConfusion

theorem transact_ships (distinct : bus.clock ≠ bus.data) (address : UInt8) (w : UInt8 × UInt8)
    (wire : Wire) :
    (bus.transact address w.1 w.2 : Action L F Unit).run.Ensures (Wire.next bus.clock)
      (fun result after => Shipped wire [payload address w] result.toBool after) wire := by
  obtain ⟨levels, edges⟩ := wire
  refine (transact_wave bus distinct address w.1 w.2 levels edges).mono ?_
  intro result after
  rintro ⟨wave, hedges, hwave⟩
  obtain ⟨levels', edges'⟩ := after
  obtain rfl : edges' = edges ++ wave := hedges
  exact TransactionWave.shipped ⟨levels, edges⟩ hwave

theorem writeFrom_ships (distinct : bus.clock ≠ bus.data) (address register : UInt8)
    (offset : Nat) (data : List UInt8) (wire : Wire) :
    (bus.writeFrom address register offset data : Action L F Unit).run.Ensures (Wire.next bus.clock)
      (fun result after => Shipped wire
        ((RegisterCall.writeBlock register data).writes.map (payload address)) result.toBool after)
      wire := by
  -- By induction on the data: each write starts behind those that arrived before it.
  induction data generalizing register offset wire with
  | nil => exact .nothing wire
  | cons value values ih =>
    rw [writeFrom, ensures_run_bind, reporting_wire, writes_cons, List.map_cons,
      ← List.singleton_append]
    refine (transact_ships bus distinct address (register, value) wire).mono ?_
    intro result middle hfirst
    cases result with
    | error failure => exact hfirst.failed _
    | ok => exact (ih _ _ middle).mono fun result after hrest => hfirst.append hrest

theorem writeBlock_ships (distinct : bus.clock ≠ bus.data) (address register : UInt8)
    (data : List UInt8) (wire : Wire) :
    (bus.writeBlock address register data : Action L F Unit).run.Ensures (Wire.next bus.clock)
      (fun result after => Shipped wire
        ((RegisterCall.writeBlock register data).writes.map (payload address)) result.toBool after)
      wire := by
  unfold writeBlock
  split
  · -- Data that does not fit has a first byte, which was not sent.
    cases data with
    | nil => contradiction
    | cons value values =>
      rw [writes_cons]
      refine ⟨fun _ h => ⟨[], .cut [] _ _ [] (Or.inl rfl), h⟩, fun hcomplete => ?_⟩
      exact absurd hcomplete Bool.false_ne_true
  · exact writeFrom_ships bus distinct address register 0 data wire

end Bus

end LedSequencer
