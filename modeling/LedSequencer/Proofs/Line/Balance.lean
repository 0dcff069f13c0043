import LedSequencer.Line.Waveform

/-! Start conditions against stop conditions. Main statement: where the stop conditions of a
waveform are covered, they are covered at every time. -/
namespace LedSequencer

/-- How many start conditions wait for their stop condition after some edges, if `waiting` did so
before; none if a stop condition comes without one. -/
def balance : Nat → List Edge → Option Nat
  | waiting, [] => some waiting
  | waiting, .start :: edges => balance (waiting + 1) edges
  | 0, .stop :: _ => none
  | waiting + 1, .stop :: edges => balance waiting edges
  | waiting, .clockRise _ :: edges => balance waiting edges

theorem balance_append (waiting : Nat) (a b : List Edge) :
    balance waiting (a ++ b) = (balance waiting a).bind fun left => balance left b := by
  fun_induction balance waiting a with
  | case1 => rfl
  | case2 waiting edges ih => exact ih
  | case3 => rfl
  | case4 waiting edges ih => exact ih
  | case5 waiting bit edges ih => rw [List.cons_append, balance, ih]

/-- Every stop condition uses up a start condition. -/
theorem count_balance {waiting left : Nat} {edges : List Edge}
    (h : balance waiting edges = some left) :
    edges.count .stop + left = edges.count .start + waiting := by
  fun_induction balance waiting edges with
  | case1 waiting =>
    obtain rfl := Option.some.inj h
    rfl
  | case2 waiting edges ih =>
    have hcount := ih h
    rw [List.count_cons_self, List.count_cons_of_ne (by decide)]
    omega
  | case3 => exact absurd h nofun
  | case4 waiting edges ih =>
    have hcount := ih h
    rw [List.count_cons_self, List.count_cons_of_ne (by decide)]
    omega
  | case5 waiting bit edges ih =>
    simpa only [List.count_cons, beq_iff_eq, reduceCtorEq, if_false, Nat.add_zero] using ih h

/-- What is covered in the end was covered at every time before. -/
theorem count_stop_le_of_prefix {edges seen : List Edge} {left : Nat}
    (h : balance 0 edges = some left) (hseen : seen <+: edges) :
    seen.count .stop ≤ seen.count .start := by
  obtain ⟨rest, rfl⟩ := hseen
  rw [balance_append] at h
  obtain ⟨now, hnow, _⟩ := Option.bind_eq_some_iff.1 h
  have hcount := count_balance hnow
  omega

theorem balance_clockRise (waiting : Nat) (bits : List Bool) (edges : List Edge) :
    balance waiting (bits.map .clockRise ++ edges) = balance waiting edges := by
  induction bits with
  | nil => rfl
  | cons bit bits ih => rw [List.map_cons, List.cons_append, balance, ih]

end LedSequencer
