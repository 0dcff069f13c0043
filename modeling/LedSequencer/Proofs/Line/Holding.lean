import LedSequencer.Line.Basic
import LedSequencer.Proofs.Routine.Calls
import LedSequencer.Proofs.Routine.Ensures

/-! Lines with at most one holder. Main statement: the calls of a run tell which lines are held in
the end. -/
namespace LedSequencer

namespace LineCall

variable {L : Type}

def isClaim : LineCall L → Bool
  | request _ | release _ => true
  | drive _ _ | sample _ | settle _ | wait _ => false

def isUse : LineCall L → Bool
  | drive _ _ | sample _ => true
  | request _ | release _ | settle _ | wait _ => false

end LineCall

abbrev AnsweredCall (L F : Type) := (c : LineCall L) × c.Reply F

def releaseFails {L F : Type} : AnsweredCall L F → Bool
  | ⟨.release _, .error _⟩ => true
  | _ => false

variable {L F N σ α : Type} [DecidableEq L]

/-- The held lines after a call, if exclusive lines can answer so: only a free line is taken and only
a held one is given up. A call that fails changes nothing. -/
def heldAfter? (held : List L) : AnsweredCall L F → Option (List L)
  | ⟨.request line, .ok ()⟩ => if line ∈ held then none else some (held ++ [line])
  | ⟨.release line, .ok ()⟩ => if line ∈ held then some (held.filter (· ≠ line)) else none
  | _ => some held

/-- Only a free line is taken. -/
theorem heldAfter?_request {held now : List L} {line : L} :
    heldAfter? (F := F) held ⟨.request line, .ok ()⟩ = some now ↔
      line ∉ held ∧ now = held ++ [line] := by
  rw [heldAfter?]
  by_cases hheld : line ∈ held
  · simp [hheld]
  · simp [hheld, eq_comm]

/-- Where a line is given up the others stay held, in the same order. -/
theorem heldAfter?_release {held : List L} {line : L} (hfree : line ∉ held) (more : List L)
    (hmore : line ∉ more) :
    heldAfter? (F := F) (held ++ line :: more) ⟨.release line, .ok ()⟩ = some (held ++ more) := by
  have hkept (lines : List L) (h : line ∉ lines) : lines.filter (· ≠ line) = lines := by
    rw [List.filter_eq_self]
    intro other hother
    exact decide_eq_true fun heq => h (heq ▸ hother)
  have hheld : line ∈ held ++ line :: more :=
    List.mem_append_right held List.mem_cons_self
  have hgone : (line :: more).filter (· ≠ line) = more := by
    rw [List.filter_cons_of_neg (by simp), hkept more hmore]
  rw [heldAfter?, if_pos hheld, List.filter_append, hkept held hfree, hgone]

def heldAfterAll? (held : List L) (calls : List (AnsweredCall L F)) : Option (List L) :=
  calls.foldlM heldAfter? held

theorem heldAfterAll?_cons (held : List L) (call : AnsweredCall L F)
    (calls : List (AnsweredCall L F)) :
    heldAfterAll? held (call :: calls) =
      (heldAfter? held call).bind fun held => heldAfterAll? held calls := rfl

theorem heldAfterAll?_append (held : List L) (a b : List (AnsweredCall L F)) :
    heldAfterAll? held (a ++ b) =
      (heldAfterAll? held a).bind fun held => heldAfterAll? held b :=
  List.foldlM_append

theorem heldAfterAll?_of_not_isClaim {calls : List (AnsweredCall L F)}
    (h : ∀ call ∈ calls, call.1.isClaim = false) (held : List L) :
    heldAfterAll? held calls = some held := by
  induction calls with
  | nil => rfl
  | cons call calls ih =>
    obtain ⟨hcall, hcalls⟩ := List.forall_mem_cons.1 h
    have hsame : heldAfter? held call = some held := by
      obtain ⟨c, reply⟩ := call
      cases c with
      | request line | release line => exact absurd hcall nofun
      | drive line high | sample line | settle us | wait ms => rfl
    rw [heldAfterAll?_cons, hsame]
    exact ih hcalls

/-- The world has exclusive lines, and in every state the given ones are held. -/
def Exclusive (w : World (.lines L F) σ) (held : σ → List L) : Prop :=
  ∀ c s reply s', w c s = some (reply, s') → heldAfter? (held s) ⟨c, reply⟩ = some (held s')

/-- The lines held after a run are those that its calls leave. -/
theorem Exclusive.run {w : World (.lines L F) σ} {held : σ → List L} (h : Exclusive w held)
    (p : Routine (.lines L F) N α) (s : σ) :
    heldAfterAll? (held s) (callsOf (p.run w s).events) = some (held (p.run w s).world) :=
  Routine.run_view w (P := fun _ => True) (fun c s reply s' _ => h c s reply s') p s
    fun _ _ => trivial

/-- Exclusive lines where some calls on lines fail, which are counted from 0 on. Whatever is sampled
is low. The state is which lines are held and how many calls there were. -/
def exclusiveLines (broken : List Nat) (c : LineCall L) (s : List L × Nat) :
    c.Reply Unit × (List L × Nat) :=
  let (held, n) := s
  match c with
  | .request line =>
    if n ∈ broken ∨ line ∈ held then (.error (), held, n + 1) else (.ok (), held ++ [line], n + 1)
  | .release line =>
    if n ∉ broken ∧ line ∈ held then (.ok (), held.filter (· ≠ line), n + 1)
    else (.error (), held, n + 1)
  | .drive _ _ => (if n ∈ broken then .error () else .ok (), held, n + 1)
  | .sample _ => (if n ∈ broken then .error () else .ok 0, held, n + 1)
  | .settle _ | .wait _ => ((), held, n)

theorem exclusiveLines_exclusive (broken : List Nat) :
    Exclusive (.answering (exclusiveLines broken) : World (.lines L Unit) (List L × Nat))
      Prod.fst := by
  rintro c ⟨held, n⟩ reply s' h
  have hanswer : exclusiveLines broken c (held, n) = (reply, s') := Option.some.inj h
  cases c with
  | request line =>
    by_cases hfails : n ∈ broken ∨ line ∈ held
    · rw [exclusiveLines, if_pos hfails] at hanswer
      obtain ⟨rfl, rfl⟩ := Prod.mk.inj hanswer
      rfl
    · rw [exclusiveLines, if_neg hfails] at hanswer
      obtain ⟨rfl, rfl⟩ := Prod.mk.inj hanswer
      exact if_neg fun hheld => hfails (Or.inr hheld)
  | release line =>
    by_cases hworks : n ∉ broken ∧ line ∈ held
    · rw [exclusiveLines, if_pos hworks] at hanswer
      obtain ⟨rfl, rfl⟩ := Prod.mk.inj hanswer
      exact if_pos hworks.2
    · rw [exclusiveLines, if_neg hworks] at hanswer
      obtain ⟨rfl, rfl⟩ := Prod.mk.inj hanswer
      rfl
  | drive line high | sample line | settle us | wait ms =>
    obtain ⟨_, rfl⟩ := Prod.mk.inj hanswer
    rfl

end LedSequencer
