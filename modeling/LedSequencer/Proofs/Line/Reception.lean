import LedSequencer.Line.Receiver
import Mathlib.Data.List.Forall2

/-! A receiver over time. Main statements: frames keep their places and only ever grow, and the
frames that edges open do not depend on the edges before them. -/
namespace LedSequencer

namespace Frame

theorem bytesOf_of_length_lt {bits : List Bool} (h : bits.length < 9) : bytesOf bits = [] := by
  unfold bytesOf
  split
  · simp only [List.length_cons] at h
    omega
  · rfl

/-- More bits leave the bytes that are complete as they are. -/
theorem bytesOf_prefix {bits more : List Bool} (h : bits <+: more) :
    bytesOf bits <+: bytesOf more := by
  obtain ⟨rest, rfl⟩ := h
  fun_induction bytesOf bits with
  | case1 a b c d e f g h ack bits ih => exact (List.prefix_cons_inj _).2 ih
  | case2 => exact List.nil_prefix

/-- What may become of a frame: it can take in more bits until it is closed. -/
def Grows (frame later : Frame) : Prop :=
  frame.bits <+: later.bits ∧ (frame.closed = true → later = frame)

theorem Grows.refl (frame : Frame) : frame.Grows frame := ⟨List.prefix_rfl, fun _ => rfl⟩

theorem Grows.trans {a b c : Frame} (h : a.Grows b) (h' : b.Grows c) : a.Grows c := by
  refine ⟨h.1.trans h'.1, fun hc => ?_⟩
  obtain rfl := h.2 hc
  exact h'.2 hc

theorem Grows.bytes {frame later : Frame} (h : frame.Grows later) : frame.bytes <+: later.bytes :=
  bytesOf_prefix h.1

end Frame

open LedSequencer.Frame (Grows)

theorem grow_refl (frames : List Frame) : List.Forall₂ Grows frames frames :=
  List.forall₂_same.2 fun frame _ => .refl frame

theorem grow_trans {a b c : List Frame} (h : List.Forall₂ Grows a b)
    (h' : List.Forall₂ Grows b c) : List.Forall₂ Grows a c := by
  induction h generalizing c with
  | nil => exact h'
  | cons hgrow _ ih =>
    obtain ⟨d, ds, hd, hds, rfl⟩ := List.forall₂_cons_left_iff.1 h'
    exact .cons (hgrow.trans hd) (ih hds)

/-- An edge is taken in by the last one of some frames; those before it can tell only if there is no
such frame. -/
theorem receive_append (recent frames : List Frame) (edge : Edge) :
    ∃ grown, List.Forall₂ Grows frames grown ∧
      receive (recent ++ frames) edge = receive recent edge ++ grown := by
  -- A recent frame shields those before it; without one the edge goes to the frames themselves.
  match recent, edge with
  | ⟨bits, closed⟩ :: recent, edge =>
    refine ⟨frames, grow_refl frames, ?_⟩
    cases edge <;> cases closed <;> rfl
  | [], .start => exact ⟨frames, grow_refl frames, rfl⟩
  | [], .stop =>
    match frames with
    | [] => exact ⟨[], .nil, rfl⟩
    | ⟨bits, true⟩ :: older => exact ⟨_, grow_refl _, rfl⟩
    | ⟨bits, false⟩ :: older =>
      exact ⟨⟨bits, true⟩ :: older, .cons ⟨List.prefix_rfl, nofun⟩ (grow_refl older), rfl⟩
  | [], .clockRise bit =>
    match frames with
    | [] => exact ⟨[], .nil, rfl⟩
    | ⟨bits, true⟩ :: older => exact ⟨_, grow_refl _, rfl⟩
    | ⟨bits, false⟩ :: older =>
      exact ⟨⟨bits ++ [bit], false⟩ :: older,
        .cons ⟨List.prefix_append bits [bit], nofun⟩ (grow_refl older), rfl⟩

theorem foldl_receive_append (edges : List Edge) (recent frames : List Frame) :
    ∃ grown, List.Forall₂ Grows frames grown ∧
      edges.foldl receive (recent ++ frames) = edges.foldl receive recent ++ grown := by
  induction edges generalizing recent frames with
  | nil => exact ⟨frames, grow_refl frames, rfl⟩
  | cons edge edges ih =>
    obtain ⟨grown, hgrown, hedge⟩ := receive_append recent frames edge
    obtain ⟨later, hlater, hedges⟩ := ih (receive recent edge) grown
    refine ⟨later, grow_trans hgrown hlater, ?_⟩
    rw [List.foldl_cons, hedge, hedges, List.foldl_cons]

theorem length_receive (frames : List Frame) (edge : Edge) :
    (receive frames edge).length = (if edge = .start then 1 else 0) + frames.length := by
  match edge, frames with
  | .start, _ => exact Nat.add_comm _ _
  | .stop, [] | .clockRise _, [] => rfl
  | .stop, ⟨_, true⟩ :: _ | .clockRise _, ⟨_, true⟩ :: _ => exact (Nat.zero_add _).symm
  | .stop, ⟨_, false⟩ :: _ | .clockRise _, ⟨_, false⟩ :: _ => exact (Nat.zero_add _).symm

theorem length_foldl_receive (edges : List Edge) (frames : List Frame) :
    (edges.foldl receive frames).length = edges.count .start + frames.length := by
  induction edges generalizing frames with
  | nil => exact (Nat.zero_add _).symm
  | cons edge edges ih =>
    rw [List.foldl_cons, ih, length_receive, List.count_cons]
    simp only [beq_iff_eq]
    omega

/-- There is a frame for every start condition. -/
theorem length_framesOf (edges : List Edge) : (framesOf edges).length = edges.count .start := by
  rw [framesOf, List.length_reverse, length_foldl_receive, List.length_nil, Nat.add_zero]

/-- The edges before some others have no part in the frames that these open. -/
theorem framesOf_append (earlier edges : List Edge) :
    ∃ grown, List.Forall₂ Frame.Grows (framesOf earlier) grown ∧
      framesOf (earlier ++ edges) = grown ++ framesOf edges := by
  obtain ⟨grown, hgrown, hedges⟩ := foldl_receive_append edges [] (earlier.foldl receive [])
  refine ⟨grown.reverse, List.rel_reverse hgrown, ?_⟩
  rw [framesOf, List.foldl_append, ← List.nil_append (earlier.foldl receive []), hedges,
    List.reverse_append, framesOf]

theorem drop_framesOf_append (earlier edges : List Edge) :
    (framesOf (earlier ++ edges)).drop (earlier.count .start) = framesOf edges := by
  obtain ⟨grown, hgrown, hframes⟩ := framesOf_append earlier edges
  rw [hframes, ← length_framesOf, hgrown.length_eq, List.drop_left]

theorem forall₂_getElem? {α β : Type} {R : α → β → Prop} {as : List α} {bs : List β}
    (h : List.Forall₂ R as bs) {i : Nat} {a : α} (ha : as[i]? = some a) :
    ∃ b, bs[i]? = some b ∧ R a b := by
  induction h generalizing i with
  | nil => simp at ha
  | cons hab _ ih =>
    cases i with
    | zero =>
      obtain rfl := Option.some.inj ha
      exact ⟨_, rfl, hab⟩
    | succ i => exact ih ha

/-- Later edges do not take a frame back. -/
theorem framesOf_prefix {seen whole : List Edge} (h : seen <+: whole) {i : Nat} {frame : Frame}
    (hf : (framesOf seen)[i]? = some frame) :
    ∃ later, (framesOf whole)[i]? = some later ∧ frame.Grows later := by
  obtain ⟨rest, rfl⟩ := h
  obtain ⟨grown, hgrown, hframes⟩ := framesOf_append seen rest
  obtain ⟨later, hlater, hgrows⟩ := forall₂_getElem? hgrown hf
  refine ⟨later, ?_, hgrows⟩
  rw [hframes, List.getElem?_append_left (List.getElem?_eq_some_iff.1 hlater).1, hlater]

/-- The frames that the edges `during` open, coming after the edges `earlier`, as they stand in the
waveform `seen`. -/
def framesOpened (earlier during seen : List Edge) : List Frame :=
  ((framesOf seen).drop (earlier.count .start)).take (during.count .start)

end LedSequencer
