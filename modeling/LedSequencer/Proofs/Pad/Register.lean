import LedSequencer.Pad.Register
import Mathlib.Data.Nat.Bitwise

/-! The fields of a pad's control register. Main statements: settings decide their own fields, a
drive strength by its lowest three bits; the reserved bits stay, and the password is at the top.
This is all that there is to say of a register with new settings, so the last settings win. -/
namespace LedSequencer

theorem or_and_distrib (a b mask : UInt32) : (a ||| b) &&& mask = a &&& mask ||| b &&& mask := by
  apply UInt32.toBitVec_inj.1
  apply BitVec.eq_of_getLsbD_eq
  intro i _
  simp [Bool.and_or_distrib_right]

namespace PadRegister

/-- The bits 5 to 23, in which settings have no say. -/
def reserved (control : PadRegister) : UInt32 := control.word &&& 0x00FFFFE0

def top (control : PadRegister) : UInt32 := control.word >>> 24

variable (control : PadRegister) (settings : PadSettings)

/-- What a mask shows of a register with new settings, part by part. -/
theorem apply_and (mask : UInt32) : (control.apply settings).word &&& mask =
    control.word &&& (~~~settingsMask &&& mask) |||
      settings.drive.toUInt32 &&& (driveMask &&& mask) |||
      (if settings.hysteresis then hysteresisBit else 0) &&& mask |||
      (if settings.slew then slewBit else 0) &&& mask ||| (password <<< 24) &&& mask := by
  simp only [apply, or_and_distrib, UInt32.and_assoc]

theorem reserved_apply : (control.apply settings).reserved = control.reserved := by
  have hkept : ~~~settingsMask &&& 0x00FFFFE0 = 0x00FFFFE0 := by decide
  have hdrive : driveMask &&& 0x00FFFFE0 = 0 := by decide
  have hhysteresis : (if settings.hysteresis then hysteresisBit else 0) &&& 0x00FFFFE0 = 0 := by
    cases settings.hysteresis <;> decide
  have hslew : (if settings.slew then slewBit else 0) &&& 0x00FFFFE0 = 0 := by
    cases settings.slew <;> decide
  have hpassword : (password <<< 24) &&& 0x00FFFFE0 = 0 := by decide
  rw [reserved, apply_and, hkept, hdrive, hhysteresis, hslew, hpassword, reserved]
  simp only [UInt32.and_zero, UInt32.or_zero]

theorem top_apply : (control.apply settings).top = 0x5A := by
  have hkept : (~~~settingsMask) >>> 24 = 0 := by decide
  have hdrive : driveMask >>> 24 = 0 := by decide
  have hhysteresis : (if settings.hysteresis then hysteresisBit else 0) >>> 24 = 0 := by
    cases settings.hysteresis <;> decide
  have hslew : (if settings.slew then slewBit else 0) >>> 24 = 0 := by
    cases settings.slew <;> decide
  have hpassword : (password <<< 24) >>> 24 = 0x5A := by decide
  simp only [top, apply, UInt32.shiftRight_or, UInt32.shiftRight_and, hkept, hdrive, hhysteresis,
    hslew, hpassword, UInt32.and_zero, UInt32.zero_or]

theorem drive_apply : (control.apply settings).drive = settings.drive % 8 := by
  have hkept : ~~~settingsMask &&& driveMask = 0 := by decide
  have hhysteresis : (if settings.hysteresis then hysteresisBit else 0) &&& driveMask = 0 := by
    cases settings.hysteresis <;> decide
  have hslew : (if settings.slew then slewBit else 0) &&& driveMask = 0 := by
    cases settings.slew <;> decide
  have hpassword : (password <<< 24) &&& driveMask = 0 := by decide
  have hword : (control.apply settings).word &&& driveMask =
      settings.drive.toUInt32 &&& driveMask := by
    rw [apply_and, hkept, hhysteresis, hslew, hpassword]
    simp only [UInt32.and_zero, UInt32.or_zero, UInt32.zero_or, UInt32.and_self]
  -- The mask of the lowest three bits is a remainder.
  apply UInt8.toNat_inj.1
  rw [drive, hword, UInt32.toUInt8_and, UInt8.toUInt8_toUInt32, UInt8.toNat_and,
    show driveMask.toUInt8.toNat = 2 ^ 3 - 1 from rfl, Nat.and_two_pow_sub_one_eq_mod]
  rfl

theorem hysteresis_apply : (control.apply settings).hysteresis = settings.hysteresis := by
  have hkept : ~~~settingsMask &&& hysteresisBit = 0 := by decide
  have hdrive : driveMask &&& hysteresisBit = 0 := by decide
  have hslew : (if settings.slew then slewBit else 0) &&& hysteresisBit = 0 := by
    cases settings.slew <;> decide
  have hpassword : (password <<< 24) &&& hysteresisBit = 0 := by decide
  rw [hysteresis, apply_and, hkept, hdrive, hslew, hpassword]
  simp only [UInt32.and_zero, UInt32.or_zero, UInt32.zero_or]
  cases settings.hysteresis <;> decide

theorem slew_apply : (control.apply settings).slew = settings.slew := by
  have hkept : ~~~settingsMask &&& slewBit = 0 := by decide
  have hdrive : driveMask &&& slewBit = 0 := by decide
  have hhysteresis : (if settings.hysteresis then hysteresisBit else 0) &&& slewBit = 0 := by
    cases settings.hysteresis <;> decide
  have hpassword : (password <<< 24) &&& slewBit = 0 := by decide
  rw [slew, apply_and, hkept, hdrive, hhysteresis, hpassword]
  simp only [UInt32.and_zero, UInt32.or_zero, UInt32.zero_or]
  cases settings.slew <;> decide

section Fields

theorem and_or_distrib (a b mask : UInt32) : mask &&& (a ||| b) = mask &&& a ||| mask &&& b := by
  rw [UInt32.and_comm, or_and_distrib, UInt32.and_comm a, UInt32.and_comm b]

/-- What a mask of a single bit shows, by whether it shows anything. -/
theorem and_bit (word : UInt32) {bit : UInt32} (place : Nat) (hbit : bit.toNat = 2 ^ place) :
    word &&& bit = if word &&& bit != 0 then bit else 0 := by
  have hand : (word &&& bit).toNat = (word.toNat.testBit place).toNat * bit.toNat := by
    rw [UInt32.toNat_and, hbit, Nat.and_two_pow]
  cases hset : word.toNat.testBit place with
  | false =>
    have hzero : word &&& bit = 0 := UInt32.toNat_inj.1 (by rw [hand, hset]; exact Nat.zero_mul _)
    rw [hzero]
    rfl
  | true =>
    have hone : word &&& bit = bit := UInt32.toNat_inj.1 (by rw [hand, hset]; exact Nat.one_mul _)
    have hpos : 0 < bit.toNat := hbit ▸ Nat.two_pow_pos place
    have hne : (bit != 0) = true := bne_iff_ne.2 fun h => by simp [h] at hpos
    rw [hone, hne]
    rfl

theorem drive_bits : control.word &&& driveMask = control.drive.toUInt32 := by
  have hsmall : (control.word &&& driveMask).toNat < 256 := by
    rw [UInt32.toNat_and]
    exact Nat.lt_of_le_of_lt Nat.and_le_right (by decide)
  rw [drive, UInt32.toUInt32_toUInt8]
  apply UInt32.toNat_inj.1
  rw [UInt32.toNat_mod]
  exact (Nat.mod_eq_of_lt hsmall).symm

theorem top_bits : control.word &&& (0xFF000000 : UInt32) = control.top <<< (24 : UInt32) := by
  apply UInt32.toBitVec_inj.1
  exact (BitVec.shiftLeft_ushiftRight (x := control.word.toBitVec) (n := 24)).symm

/-- A register is made of its fields. -/
theorem word_eq : control.word = control.drive.toUInt32 |||
    (if control.hysteresis then hysteresisBit else 0) ||| (if control.slew then slewBit else 0) |||
      control.reserved ||| control.top <<< (24 : UInt32) := by
  have hmasks : (-1 : UInt32) =
      driveMask ||| hysteresisBit ||| slewBit ||| 0x00FFFFE0 ||| 0xFF000000 := by decide
  have hhysteresis : control.word &&& hysteresisBit =
      if control.hysteresis then hysteresisBit else 0 := and_bit _ 3 rfl
  have hslew : control.word &&& slewBit = if control.slew then slewBit else 0 :=
    and_bit _ 4 rfl
  calc control.word = control.word &&& -1 := UInt32.and_neg_one.symm
    _ = control.word &&& driveMask ||| control.word &&& hysteresisBit |||
        control.word &&& slewBit ||| control.reserved |||
          control.word &&& (0xFF000000 : UInt32) := by
      rw [hmasks]
      simp only [and_or_distrib, reserved]
    _ = _ := by rw [drive_bits, hhysteresis, hslew, top_bits]

/-- Registers with the same fields are the same. -/
theorem eq_of_fields {a b : PadRegister} (hdrive : a.drive = b.drive)
    (hhysteresis : a.hysteresis = b.hysteresis) (hslew : a.slew = b.slew) (htop : a.top = b.top)
    (hreserved : a.reserved = b.reserved) : a = b := by
  have hword : a.word = b.word := by
    rw [word_eq a, word_eq b, hdrive, hhysteresis, hslew, htop, hreserved]
  cases a
  cases b
  exact congrArg mk hword

end Fields

/-- Of the register before, only the reserved bits show in the one with new settings. -/
theorem apply_congr {a b : PadRegister} (h : a.reserved = b.reserved) (settings : PadSettings) :
    a.apply settings = b.apply settings := by
  refine eq_of_fields ?_ ?_ ?_ ?_ ?_
  · rw [drive_apply, drive_apply]
  · rw [hysteresis_apply, hysteresis_apply]
  · rw [slew_apply, slew_apply]
  · rw [top_apply, top_apply]
  · rw [reserved_apply, reserved_apply, h]

/-- A register with new settings has their fields, the password and the reserved bits of before, and
is the only one that has. So of two settings in a row the second ones win, the same settings change
nothing more, and registers with the same reserved bits become the same. -/
theorem apply_decides (first second : PadSettings) :
    let applied := control.apply first
    (applied.drive = first.drive % 8 ∧ applied.hysteresis = first.hysteresis ∧
        applied.slew = first.slew ∧ applied.top = 0x5A ∧ applied.reserved = control.reserved) ∧
      (∀ other : PadRegister, other.drive = first.drive % 8 →
        other.hysteresis = first.hysteresis → other.slew = first.slew → other.top = 0x5A →
          other.reserved = control.reserved → other = applied) ∧
      applied.apply second = control.apply second ∧ applied.apply first = applied ∧
      ∀ other : PadRegister, other.reserved = control.reserved → other.apply first = applied := by
  intro applied
  have hdrive : applied.drive = first.drive % 8 := drive_apply control first
  have hhysteresis : applied.hysteresis = first.hysteresis := hysteresis_apply control first
  have hslew : applied.slew = first.slew := slew_apply control first
  have htop : applied.top = 0x5A := top_apply control first
  have hreserved : applied.reserved = control.reserved := reserved_apply control first
  refine ⟨⟨hdrive, hhysteresis, hslew, htop, hreserved⟩, ?_, apply_congr hreserved second,
    apply_congr hreserved first, fun other hother => apply_congr hother first⟩
  intro other hdrive' hhysteresis' hslew' htop' hreserved'
  exact eq_of_fields (hdrive'.trans hdrive.symm) (hhysteresis'.trans hhysteresis.symm)
    (hslew'.trans hslew.symm) (htop'.trans htop.symm) (hreserved'.trans hreserved.symm)

end PadRegister

end LedSequencer
