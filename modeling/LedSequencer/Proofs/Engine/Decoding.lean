import LedSequencer.Engine.Instruction
import Mathlib.Algebra.Group.Nat.Defs

/-! Reading engine code back. Main statement: the code of a program whose arguments are in range
tells the program, except that a pause of no steps with the prescaler has the code of brightness 0.
-/
namespace LedSequencer

/-- A number whose last `i` bits are clear, together with some that fit into these. -/
theorem or_eq_add_of_lt {a b : Nat} (i : Nat) (h : b < 2 ^ i) :
    a * 2 ^ i ||| b = a * 2 ^ i + b := by
  rw [← Nat.shiftLeft_eq, ← Nat.shiftLeft_add_eq_or_of_lt h]

theorem bigEndian_eq {word : UInt16} {high low : UInt8}
    (h : word.toNat = 256 * high.toNat + low.toNat) : bigEndian word = [high, low] := by
  have hlow := low.toNat_lt
  have hfirst : (word >>> 8).toUInt8 = high := by
    have hword := word.toNat_lt
    apply UInt8.toNat_inj.1
    rw [UInt16.toNat_toUInt8, UInt16.toNat_shiftRight, Nat.shiftRight_eq_div_pow,
      show (8 : UInt16).toNat % 16 = 8 from rfl]
    omega
  have hsecond : word.toUInt8 = low := by
    apply UInt8.toNat_inj.1
    rw [UInt16.toNat_toUInt8]
    omega
  rw [bigEndian, hfirst, hsecond]

namespace Instruction

def InRange : Instruction → Prop
  | mapStart address | loadEnd address => address < 128
  | mapNext | setPwm _ => True
  | wait _ steps => steps ≤ 31
  | branch loops step => loops ≤ 63 ∧ step < 128

instance : DecidablePred InRange
  | mapStart _ | loadEnd _ => inferInstanceAs (Decidable (_ < _))
  | mapNext | setPwm _ => inferInstanceAs (Decidable True)
  | wait _ _ => inferInstanceAs (Decidable (_ ≤ _))
  | branch _ _ => inferInstanceAs (Decidable (_ ∧ _))

/-- What an instruction is read as by its code: a pause of no steps with the prescaler for
brightness 0, and every other one for itself. -/
def readAs (i : Instruction) : Instruction := if i = wait true 0 then setPwm 0 else i

/-- The instruction that two bytes stand for. The first of them tells the kind; where that is the
one of brightness it is no pause, and what is of no other kind is a branch. -/
def decode (high low : UInt8) : Instruction :=
  if high = 0x9C then if low < 128 then mapStart low else loadEnd (low - 128)
  else if high = 0x9D then mapNext
  else if high = 0x40 then setPwm low
  else if high < 128 then wait (64 ≤ high) (high % 64 / 2)
  else branch (high % 32 * 2 + low / 128) (low % 128)

def disassemble : List UInt8 → List Instruction
  | high :: low :: code => decode high low :: disassemble code
  | _ => []

section Fields

theorem and_mask {n : UInt8} (h : n < 128) : n &&& 0x7F = n := by
  have hn : n.toNat < 2 ^ 7 := h
  apply UInt8.toNat_inj.1
  rw [UInt8.toNat_and, show (0x7F : UInt8).toNat = 2 ^ 7 - 1 from rfl,
    Nat.and_two_pow_sub_one_eq_mod, Nat.mod_eq_of_lt hn]

/-- An argument that fits into its bits is kept. -/
theorem toNat_argument {n : UInt8} {mask : UInt16} (bits : Nat) (hmask : mask.toNat = 2 ^ bits - 1)
    (hn : n.toNat < 2 ^ bits) : (n.toUInt16 &&& mask).toNat = n.toNat := by
  rw [UInt16.toNat_and, UInt8.toNat_toUInt16, hmask, Nat.and_two_pow_sub_one_eq_mod,
    Nat.mod_eq_of_lt hn]

theorem toNat_field {word shift : UInt16} (bits : Nat) (hword : word.toNat < 2 ^ bits)
    (hfits : bits + shift.toNat ≤ 16) (hshift : shift.toNat < 16) :
    (word <<< shift).toNat = word.toNat * 2 ^ shift.toNat := by
  have hbound : word.toNat * 2 ^ shift.toNat < 2 ^ 16 := by
    calc word.toNat * 2 ^ shift.toNat < 2 ^ bits * 2 ^ shift.toNat :=
          Nat.mul_lt_mul_of_pos_right hword (Nat.two_pow_pos _)
      _ = 2 ^ (bits + shift.toNat) := (Nat.pow_add 2 bits shift.toNat).symm
      _ ≤ 2 ^ 16 := Nat.pow_le_pow_right Nat.two_pos hfits
  rw [UInt16.toNat_shiftLeft, Nat.mod_eq_of_lt hshift, Nat.shiftLeft_eq, Nat.mod_eq_of_lt hbound]

end Fields

theorem encode_loadEnd {address : UInt8} (h : address < 128) :
    encode (loadEnd address) = [0x9C, 128 + address] := by
  have haddress : address.toNat < 2 ^ 7 := h
  have hmark : 0x80 ||| (address &&& 0x7F) = 128 + address := by
    apply UInt8.toNat_inj.1
    rw [and_mask h, UInt8.toNat_or, UInt8.toNat_add, show (128 : UInt8).toNat = 1 * 2 ^ 7 from rfl,
      or_eq_add_of_lt 7 haddress]
    omega
  rw [encode, hmark]

theorem encode_wait (prescale : Bool) {steps : UInt8} (h : steps ≤ 31) :
    encode (wait prescale steps) = [(if prescale then 64 else 0) + 2 * steps, 0] := by
  have hsteps : steps.toNat < 2 ^ 5 := Nat.lt_succ_of_le h
  have hkept : (steps.toUInt16 &&& 0x1F).toNat = steps.toNat := toNat_argument 5 rfl hsteps
  have hfield : ((steps.toUInt16 &&& 0x1F) <<< 9).toNat = steps.toNat * 2 ^ 9 := by
    rw [toNat_field 5 (by rwa [hkept]) (by decide) (by decide), hkept]
    rfl
  apply bigEndian_eq
  rw [UInt16.toNat_or, hfield]
  cases prescale with
  | false =>
    have hclear : (if false = true then (0x4000 : UInt16) else 0).toNat = 0 := rfl
    rw [hclear, Nat.zero_or]
    simp
    omega
  | true =>
    have hset : (if true = true then (0x4000 : UInt16) else 0).toNat = 1 * 2 ^ 14 := rfl
    rw [hset, or_eq_add_of_lt 14 (by omega)]
    simp
    omega

theorem encode_branch {loops step : UInt8} (hloops : loops ≤ 63) (hstep : step < 128) :
    encode (branch loops step) = [160 + loops / 2, loops % 2 * 128 + step] := by
  have hl : loops.toNat < 2 ^ 6 := Nat.lt_succ_of_le hloops
  have hs : step.toNat < 2 ^ 7 := hstep
  have hkept : (loops.toUInt16 &&& 0x3F).toNat = loops.toNat := toNat_argument 6 rfl hl
  have hfield : ((loops.toUInt16 &&& 0x3F) <<< 7).toNat = loops.toNat * 2 ^ 7 := by
    rw [toNat_field 6 (by rwa [hkept]) (by decide) (by decide), hkept]
    rfl
  -- The three fields lie side by side.
  apply bigEndian_eq
  rw [UInt16.toNat_or, UInt16.toNat_or, hfield, toNat_argument 7 rfl hs,
    show (0xA000 : UInt16).toNat = 5 * 2 ^ 13 from rfl, or_eq_add_of_lt 13 (by omega),
    show 5 * 2 ^ 13 + loops.toNat * 2 ^ 7 = (320 + loops.toNat) * 2 ^ 7 by omega,
    or_eq_add_of_lt 7 hs]
  simp
  omega

theorem decode_wait {prescale : Bool} {steps : UInt8} (h : steps ≤ 31)
    (hpause : wait prescale steps ≠ wait true 0) :
    decode ((if prescale then 64 else 0) + 2 * steps) 0 = wait prescale steps := by
  have hsteps : steps.toNat ≤ 31 := h
  generalize hcode : (if prescale then 64 else 0) + 2 * steps = high
  have hhigh : high.toNat = 64 * prescale.toNat + 2 * steps.toNat := by
    rw [← hcode]
    cases prescale <;> simp <;> omega
  have hlow : high < 128 := by
    have hbit := prescale.toNat_le
    rw [UInt8.lt_iff_toNat_lt, show (128 : UInt8).toNat = 128 from rfl]
    omega
  -- No code of another kind begins below 128 but that of a brightness.
  have hstart : high ≠ 0x9C := by
    rintro rfl
    exact absurd hlow (by decide)
  have hnext : high ≠ 0x9D := by
    rintro rfl
    exact absurd hlow (by decide)
  -- The one pause with this code is the one that is left out.
  have hpwm : high ≠ 0x40 := by
    rintro rfl
    have hbits : 64 = 64 * prescale.toNat + 2 * steps.toNat := hhigh
    cases prescale with
    | false =>
      rw [Bool.toNat_false] at hbits
      omega
    | true =>
      rw [Bool.toNat_true] at hbits
      have hnone : steps = 0 := UInt8.toNat_inj.1 (show steps.toNat = 0 by omega)
      exact hpause (congrArg (wait true) hnone)
  have hprescale : decide (64 ≤ high) = prescale := by
    have hiff : 64 ≤ high ↔ prescale = true := by
      rw [UInt8.le_iff_toNat_le, hhigh, show (64 : UInt8).toNat = 64 from rfl]
      cases prescale with
      | false =>
        rw [Bool.toNat_false]
        simp only [Bool.false_eq_true, iff_false]
        omega
      | true =>
        rw [Bool.toNat_true]
        simp only [iff_true]
        omega
    simp only [hiff, Bool.decide_eq_true]
  have hfield : high % 64 / 2 = steps := by
    apply UInt8.toNat_inj.1
    simp [hhigh]
    omega
  rw [decode, if_neg hstart, if_neg hnext, if_neg hpwm, if_pos hlow, hprescale, hfield]

theorem decode_branch {loops step : UInt8} (hloops : loops ≤ 63) (hstep : step < 128) :
    decode (160 + loops / 2) (loops % 2 * 128 + step) = branch loops step := by
  have hl : loops.toNat ≤ 63 := hloops
  have hs : step.toNat < 128 := hstep
  generalize hcode : 160 + loops / 2 = high
  have hhigh : high.toNat = 160 + loops.toNat / 2 := by
    rw [← hcode]
    simp
    omega
  have hother {n : UInt8} (hn : n.toNat < 160) : high ≠ n := by
    rintro rfl
    omega
  have hlow : ¬ high < 128 := by
    rw [UInt8.lt_iff_toNat_lt, show (128 : UInt8).toNat = 128 from rfl]
    omega
  have hfirst : high % 32 * 2 + (loops % 2 * 128 + step) / 128 = loops := by
    apply UInt8.toNat_inj.1
    simp [hhigh]
    omega
  have hsecond : (loops % 2 * 128 + step) % 128 = step := by
    apply UInt8.toNat_inj.1
    simp
    omega
  rw [decode, if_neg (hother (by decide)), if_neg (hother (by decide)), if_neg (hother (by decide)),
    if_neg hlow, hfirst, hsecond]

/-- An instruction whose arguments are in range is read back from its code, but for the one pause.
-/
theorem decode_encode {i : Instruction} (h : i.InRange) :
    ∃ high low, i.encode = [high, low] ∧ decode high low = i.readAs := by
  cases i with
  | mapStart address =>
    have haddress : address < 128 := h
    refine ⟨_, _, rfl, ?_⟩
    rw [and_mask haddress, decode, if_pos rfl, if_pos haddress, readAs, if_neg nofun]
  | loadEnd address =>
    have haddress : address.toNat < 128 := h
    have hmarked : ¬ 128 + address < 128 := by
      rw [UInt8.lt_iff_toNat_lt, UInt8.toNat_add, show (128 : UInt8).toNat = 128 from rfl]
      omega
    refine ⟨_, _, encode_loadEnd h, ?_⟩
    rw [decode, if_pos rfl, if_neg hmarked, UInt8.add_comm, UInt8.add_sub_cancel, readAs,
      if_neg nofun]
  | mapNext =>
    refine ⟨_, _, rfl, ?_⟩
    rw [readAs, if_neg nofun]
    rfl
  | setPwm pwm =>
    refine ⟨_, _, rfl, ?_⟩
    rw [readAs, if_neg nofun]
    rfl
  | wait prescale steps =>
    refine ⟨_, _, encode_wait prescale h, ?_⟩
    by_cases hpause : wait prescale steps = wait true 0
    · obtain ⟨rfl, rfl⟩ := wait.inj hpause
      rfl
    · rw [readAs, if_neg hpause, decode_wait h hpause]
  | branch loops step =>
    obtain ⟨hloops, hstep⟩ := h
    refine ⟨_, _, encode_branch hloops hstep, ?_⟩
    rw [decode_branch hloops hstep, readAs, if_neg nofun]

theorem encode_readAs (i : Instruction) : i.readAs.encode = i.encode := by
  rw [readAs]
  split
  · rename_i hpause
    rw [hpause]
    rfl
  · rfl

theorem assemble_readAs (program : List Instruction) :
    assemble (program.map readAs) = assemble program := by
  rw [assemble, List.flatMap_map]
  simp only [encode_readAs]
  rfl

theorem disassemble_assemble {program : List Instruction} (h : ∀ i ∈ program, i.InRange) :
    disassemble (assemble program) = program.map readAs := by
  induction program with
  | nil => rfl
  | cons i program ih =>
    obtain ⟨hfirst, hrest⟩ := List.forall_mem_cons.1 h
    obtain ⟨high, low, hcode, hdecode⟩ := decode_encode hfirst
    have hbehind : disassemble (assemble program) = program.map readAs := ih hrest
    rw [assemble, List.flatMap_cons, hcode, List.map_cons, ← hdecode, ← hbehind]
    rfl

theorem map_readAs_of_not_mem {program : List Instruction} (h : wait true 0 ∉ program) :
    program.map readAs = program := by
  rw [List.map_congr_left (g := id), List.map_id]
  intro i hi
  refine if_neg ?_
  rintro rfl
  exact h hi

/-- Programs whose arguments are in range have the same code only if they are the same once every
pause of no steps with the prescaler is read as brightness 0. So code tells programs apart that do
without such pauses. -/
theorem assemble_eq_iff {p q : List Instruction} (hp : ∀ i ∈ p, i.InRange)
    (hq : ∀ i ∈ q, i.InRange) :
    (assemble p = assemble q ↔ p.map readAs = q.map readAs) ∧
      (wait true 0 ∉ p → wait true 0 ∉ q → assemble p = assemble q → p = q) := by
  have hsame : assemble p = assemble q ↔ p.map readAs = q.map readAs := by
    constructor
    · intro h
      rw [← disassemble_assemble hp, h, disassemble_assemble hq]
    · intro h
      rw [← assemble_readAs p, h, assemble_readAs q]
  refine ⟨hsame, fun hnoneP hnoneQ h => ?_⟩
  have hread := hsame.1 h
  rwa [map_readAs_of_not_mem hnoneP, map_readAs_of_not_mem hnoneQ] at hread

/-- The arguments at their bounds. -/
theorem assemble_eq_iff_bounds :
    let p : List Instruction := [mapStart 127, loadEnd 127, wait true 31, branch 63 127]
    let q : List Instruction := [mapStart 127, loadEnd 127, wait true 31, branch 62 127]
    (∀ i ∈ p, i.InRange) ∧ (∀ i ∈ q, i.InRange) ∧ p.map readAs ≠ q.map readAs ∧
      assemble p ≠ assemble q := by
  intro p q
  have hp : ∀ i ∈ p, i.InRange := by decide
  have hq : ∀ i ∈ q, i.InRange := by decide
  have hdiffer : p.map readAs ≠ q.map readAs := by decide
  exact ⟨hp, hq, hdiffer, fun h => hdiffer ((assemble_eq_iff hp hq).1.1 h)⟩

/-- A pause and a change of brightness with the same code. -/
theorem assemble_ambiguous :
    ∃ p q : List Instruction, (∀ i ∈ p, i.InRange) ∧ (∀ i ∈ q, i.InRange) ∧
      assemble p = assemble q ∧ p ≠ q :=
  ⟨[wait true 0], [setPwm 0], by decide, by decide, by decide, by decide⟩

end Instruction

end LedSequencer
