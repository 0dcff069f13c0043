import LedSequencer.Proofs.Bus.Wave
import LedSequencer.Proofs.Line.Reception

/-! What the receiver at the other end of a bus gets out of transactions. Main statement: whatever
happens to a transaction, the receiver takes in a part of its bytes and nothing else. -/
namespace LedSequencer

namespace Bus
open LedSequencer.Frame

theorem byteOfBits_bitsOf (byte : UInt8) : byteOfBits (bitsOf byte) = byte := by
  have hall : ∀ n < 256, byteOfBits (bitsOf (UInt8.ofNat n)) = UInt8.ofNat n := by decide +kernel
  have hbyte := hall byte.toNat byte.toNat_lt
  rwa [UInt8.ofNat_toNat] at hbyte

theorem length_bitsOf (byte : UInt8) : (bitsOf byte).length = 8 := rfl

theorem frameBits_cons (byte : UInt8) (bytes : List UInt8) :
    frameBits (byte :: bytes) = bitsOf byte ++ true :: frameBits bytes := by
  simp [frameBits]

/-- Eight bits and an acknowledge pulse are a byte. -/
theorem bytesOf_bitsOf_append (byte : UInt8) (ack : Bool) (bits : List Bool) :
    bytesOf (bitsOf byte ++ ack :: bits) = byte :: bytesOf bits := by
  have hbyte : bytesOf (bitsOf byte ++ ack :: bits) =
      byteOfBits (bitsOf byte) :: bytesOf bits := rfl
  rw [hbyte, byteOfBits_bitsOf]

theorem bytesOf_frameBits_append (bytes : List UInt8) (bit : Bool) :
    bytesOf (frameBits bytes ++ [bit]) = bytes := by
  induction bytes with
  | nil => rfl
  | cons byte bytes ih =>
    rw [frameBits_cons, List.append_assoc, List.cons_append, bytesOf_bitsOf_append, ih]

theorem prefix_bitsOf_append {bits more : List Bool} {byte : UInt8} {ack : Bool}
    (h : bits <+: bitsOf byte ++ ack :: more) :
    bits.length < 8 ∨ bits = bitsOf byte ∨
      ∃ rest, bits = bitsOf byte ++ ack :: rest ∧ rest <+: more := by
  obtain ⟨left, hleft⟩ := h
  obtain ⟨x, hx, _⟩ | ⟨x, rfl, hx⟩ := List.append_eq_append_iff.1 hleft
  · have hlen := congrArg List.length hx
    rw [length_bitsOf, List.length_append] at hlen
    cases x with
    | nil => exact Or.inr (Or.inl (by rw [hx, List.append_nil]))
    | cons bit x =>
      rw [List.length_cons] at hlen
      exact Or.inl (by omega)
  · cases x with
    | nil => exact Or.inr (Or.inl (List.append_nil _))
    | cons bit x =>
      obtain ⟨rfl, rfl⟩ := List.cons.inj hx
      exact Or.inr (Or.inr ⟨x, rfl, List.prefix_append x left⟩)

theorem bytesOf_prefix_of_length_lt {bits : List Bool} {bytes : List UInt8} (h : bits.length < 9) :
    bytesOf bits <+: bytes := by
  rw [bytesOf_of_length_lt h]
  exact List.nil_prefix

/-- However far a frame got, one more clock pulse completes no wrong byte: it is the acknowledge
pulse of a byte whose bits are all there, or the first one of another byte. -/
theorem bytesOf_prefix_frameBits {bits extra : List Bool} {bytes : List UInt8}
    (h : bits <+: frameBits bytes) (hextra : extra.length ≤ 1) :
    bytesOf (bits ++ extra) <+: bytes := by
  induction bytes generalizing bits with
  | nil =>
    obtain rfl := List.prefix_nil.1 h
    have hshort : ([] ++ extra).length < 9 := by
      rw [List.nil_append]
      omega
    exact bytesOf_prefix_of_length_lt hshort
  | cons byte bytes ih =>
    rw [frameBits_cons] at h
    -- Within the first byte there is nothing complete; right behind its bits the pulse is the
    -- acknowledge pulse; beyond it the remaining bytes are in the same position.
    obtain hlt | rfl | ⟨rest, rfl, hrest⟩ := prefix_bitsOf_append h
    · have hshort : (bits ++ extra).length < 9 := by
        rw [List.length_append]
        omega
      exact bytesOf_prefix_of_length_lt hshort
    · match extra with
      | [] => exact List.nil_prefix
      | [ack] =>
        rw [bytesOf_bitsOf_append]
        exact (List.prefix_cons_inj _).2 List.nil_prefix
    · rw [List.append_assoc, List.cons_append, bytesOf_bitsOf_append]
      exact (List.prefix_cons_inj _).2 (ih hrest)

end Bus

structure Delivery where
  bytes : List UInt8
  complete : Bool

/-- A frame holds a part of what was to be delivered; all of it and closed, if it was. -/
def Frame.Delivers (frame : Frame) (d : Delivery) : Prop :=
  frame.bytes <+: d.bytes ∧ (d.complete = true → frame.closed = true ∧ frame.bytes = d.bytes)

/-- The frames of a receiver, the latest first, and the deliveries they belong to. While the clock
is low a pulse may come that belongs to nothing; it must do no harm. -/
structure Ledger (levels : Levels) (frames : List Frame) (deliveries : List Delivery) : Prop where
  delivers : List.Forall₂ Frame.Delivers frames deliveries
  spare : levels.clock = false → ∀ bit,
    List.Forall₂ Frame.Delivers (receive frames (.clockRise bit)) deliveries

namespace Ledger

variable {levels : Levels} {frames : List Frame} {deliveries : List Delivery}

theorem nil (levels : Levels) : Ledger levels [] [] := ⟨.nil, fun _ _ => .nil⟩

theorem ofClockHigh {data : Bool} (h : List.Forall₂ Frame.Delivers frames deliveries) :
    Ledger ⟨true, data⟩ frames deliveries := ⟨h, nofun⟩

end Ledger

/-- Frames of payloads that arrived are closed and hold them. -/
theorem complete_of_delivers {frames : List Frame} {payloads : List (List UInt8)}
    (h : List.Forall₂ (fun frame bytes => Frame.Delivers frame ⟨bytes, true⟩) frames payloads) :
    (∀ frame ∈ frames, frame.closed = true) ∧ frames.map Frame.bytes = payloads := by
  induction h with
  | nil => exact ⟨nofun, rfl⟩
  | cons hframe _ ih =>
    obtain ⟨hclosed, hbytes⟩ := hframe.2 rfl
    refine ⟨fun frame hmem => ?_, ?_⟩
    · obtain rfl | hmem := List.mem_cons.1 hmem
      · exact hclosed
      · exact ih.1 frame hmem
    · rw [List.map_cons, hbytes, ih.2]

theorem mem_of_delivers {frames : List Frame} {deliveries : List Delivery}
    (h : List.Forall₂ Frame.Delivers frames deliveries) {frame : Frame} (hframe : frame ∈ frames) :
    ∃ d ∈ deliveries, frame.bytes <+: d.bytes := by
  induction h with
  | nil => exact absurd hframe List.not_mem_nil
  | cons hd _ ih =>
    obtain rfl | hmem := List.mem_cons.1 hframe
    · exact ⟨_, List.mem_cons_self, hd.1⟩
    · obtain ⟨d, hd, hbytes⟩ := ih hmem
      exact ⟨d, List.mem_cons_of_mem _ hd, hbytes⟩

theorem delivers_stop {frames : List Frame} {deliveries : List Delivery}
    (h : List.Forall₂ Frame.Delivers frames deliveries) :
    List.Forall₂ Frame.Delivers (receive frames .stop) deliveries := by
  cases h with
  | nil => exact .nil
  | @cons frame d frames ds hd hds =>
    obtain ⟨bits, closed⟩ := frame
    cases closed with
    | true => exact .cons hd hds
    | false => exact .cons ⟨hd.1, fun hc => ⟨rfl, (hd.2 hc).2⟩⟩ hds

/-- The edges ahead of a start condition leave the ledger as it is. -/
theorem Ledger.leadIn {levels : Levels} {frames : List Frame} {deliveries : List Delivery}
    (h : Ledger levels frames deliveries) :
    List.Forall₂ Frame.Delivers (levels.leadIn.foldl receive frames) deliveries := by
  obtain ⟨clock, data⟩ := levels
  cases clock with
  | false => exact h.spare rfl true
  | true =>
    cases data with
    | false => exact delivers_stop h.delivers
    | true => exact h.delivers

theorem foldl_receive_clockRise (bits sent : List Bool) (older : List Frame) :
    (bits.map Edge.clockRise).foldl receive (⟨sent, false⟩ :: older) =
      ⟨sent ++ bits, false⟩ :: older := by
  induction bits generalizing sent with
  | nil => rw [List.append_nil]; rfl
  | cons bit bits ih =>
    rw [List.map_cons, List.foldl_cons]
    exact (ih _).trans (by rw [List.append_assoc]; rfl)

theorem foldl_receive_frame (lead tail : List Edge) (bits : List Bool) (frames : List Frame) :
    (lead ++ Edge.start :: (bits.map Edge.clockRise ++ tail)).foldl receive frames =
      tail.foldl receive (⟨bits, false⟩ :: lead.foldl receive frames) := by
  rw [List.foldl_append, List.foldl_cons, List.foldl_append]
  exact congrArg (tail.foldl receive) (foldl_receive_clockRise bits [] _)

namespace Bus
open LedSequencer.Frame

/-- What a transaction adds to the ledger: nothing if it had no start condition, else its bytes. -/
theorem TransactionWave.ledger {levels after : Levels} {bytes : List UInt8} {complete : Bool}
    {wave : List Edge} {frames : List Frame} {deliveries : List Delivery}
    (h : TransactionWave levels bytes complete wave after) (hl : Ledger levels frames deliveries) :
    (complete = false ∧ Ledger after (wave.foldl receive frames) deliveries) ∨
      Ledger after (wave.foldl receive frames) (⟨bytes, complete⟩ :: deliveries) := by
  have hold := hl.leadIn
  have hpart {bits : List Bool} (extra : List Bool) (closed : Bool) (h : bits <+: frameBits bytes)
      (hextra : extra.length ≤ 1) : Frame.Delivers ⟨bits ++ extra, closed⟩ ⟨bytes, false⟩ :=
    ⟨bytesOf_prefix_frameBits h hextra, nofun⟩
  cases h with
  | still => exact Or.inl ⟨rfl, hl⟩
  | raised =>
    refine Or.inl ⟨rfl, ?_⟩
    obtain ⟨clock, data⟩ := levels
    cases clock with
    | false => exact ⟨hl.delivers, fun _ => hl.spare rfl⟩
    | true => cases data <;> exact .ofClockHigh hold
  | ready => exact Or.inl ⟨rfl, .ofClockHigh hold⟩
  | broken bits after hbits =>
    -- The frame stays open, and the clock may be low: one pulse is to spare.
    rw [← List.append_nil (bits.map Edge.clockRise), foldl_receive_frame]
    refine Or.inr ⟨.cons ?_ hold, fun _ bit => .cons (hpart _ false hbits (Nat.le_refl 1)) hold⟩
    simpa only [List.append_nil] using hpart [] false hbits (Nat.zero_le 1)
  | pulsed bits hbits =>
    -- The pulse of the stop condition was that one, now the clock is high.
    rw [foldl_receive_frame]
    exact Or.inr (.ofClockHigh (.cons (hpart _ false hbits (Nat.le_refl 1)) hold))
  | stopped bits hbits =>
    rw [foldl_receive_frame]
    exact Or.inr (.ofClockHigh (.cons (hpart _ true hbits (Nat.le_refl 1)) hold))
  | complete =>
    rw [foldl_receive_frame]
    have hbytes : bytesOf (frameBits bytes ++ [false]) = bytes :=
      bytesOf_frameBits_append bytes false
    have hfull : Delivers ⟨frameBits bytes ++ [false], true⟩ ⟨bytes, true⟩ :=
      ⟨by simp only [Frame.bytes, hbytes, List.prefix_rfl], fun _ => ⟨rfl, hbytes⟩⟩
    exact Or.inr (.ofClockHigh (.cons hfull hold))

end Bus

end LedSequencer
