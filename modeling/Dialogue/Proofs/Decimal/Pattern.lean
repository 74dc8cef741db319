import Dialogue.Decimal.Layout
import Mathlib

/-!
Doubles and their bit patterns. A magnitude up to infinity and a sign make up a double with just
that pattern, and every double is made up of the magnitude and the sign of its pattern.
-/
namespace Dialogue.Decimal
open Float.Model (Format)
open Float.Model.UnpackedFloat (unpack pack unpackExponent unpackMantissa isNaNBits)

def magnitude (x : Float) : Nat :=
  x.toBits.toNat % signBit

def negative (x : Float) : Bool :=
  signBit ≤ x.toBits.toNat

theorem toNat_exponent (u : UInt64) :
    (@unpackExponent Format.binary64 u.toBitVec).toNat = u.toNat % signBit / exponentBit := by
  rw [Float.Model.UnpackedFloat.unpackExponent_def, BitVec.extractLsb'_toNat,
    Nat.shiftRight_eq_div_pow]
  change u.toNat / 2 ^ 52 % 2 ^ 11 = _
  simp only [signBit, exponentBit]
  omega

theorem toNat_mantissa (u : UInt64) :
    (@unpackMantissa Format.binary64 u.toBitVec).toNat = u.toNat % exponentBit := by
  rw [Float.Model.UnpackedFloat.unpackMantissa_def, BitVec.extractLsb'_toNat,
    Nat.shiftRight_eq_div_pow]
  change u.toNat / 2 ^ 0 % 2 ^ 52 = _
  simp only [exponentBit]
  omega

theorem exponent_full_iff (u : UInt64) :
    @unpackExponent Format.binary64 u.toBitVec = -1#11 ↔ infinityBits ≤ u.toNat % signBit := by
  rw [← BitVec.toNat_inj, toNat_exponent]
  change _ = 2047 ↔ _
  have := u.toNat_lt
  simp only [signBit, exponentBit, infinityBits]
  omega

theorem mantissa_zero_iff (u : UInt64) :
    @unpackMantissa Format.binary64 u.toBitVec = 0#52 ↔ u.toNat % exponentBit = 0 := by
  rw [← BitVec.toNat_inj, toNat_mantissa]
  rfl

theorem toBits_ofBits {u : UInt64} (number : u.toNat % signBit ≤ infinityBits) :
    (Float.ofBits u).toBits = u := by
  have number' : @isNaNBits Format.binary64 u.toBitVec = false := by
    simp only [isNaNBits, decide_eq_false_iff_not, not_and, not_not]
    intro full
    rw [exponent_full_iff] at full
    rw [mantissa_zero_iff]
    simp only [signBit, exponentBit, infinityBits] at *
    omega
  change UInt64.ofBitVec (pack .binary64 (unpack .binary64 u.toBitVec)) = u
  rw [Float.Model.UnpackedFloat.pack_unpack, number']
  rfl

theorem toNat_floatOfBits (sign : Bool) {b : Nat} (number : b ≤ infinityBits) :
    (floatOfBits sign b).toBits.toNat = b + if sign then signBit else 0 := by
  have small : b + (if sign then signBit else 0) < 2 ^ 64 := by
    simp only [signBit, exponentBit, infinityBits] at *
    cases sign <;> simp <;> omega
  have whole : (UInt64.ofNat (b + if sign then signBit else 0)).toNat =
      b + if sign then signBit else 0 := by
    rw [UInt64.toNat_ofNat']
    exact Nat.mod_eq_of_lt small
  rw [floatOfBits, toBits_ofBits, whole]
  rw [whole]
  simp only [signBit, exponentBit, infinityBits] at *
  cases sign <;> simp <;> omega

theorem magnitude_floatOfBits (sign : Bool) {b : Nat} (number : b ≤ infinityBits) :
    magnitude (floatOfBits sign b) = b := by
  rw [magnitude, toNat_floatOfBits sign number]
  simp only [signBit, exponentBit, infinityBits] at *
  cases sign <;> simp <;> omega

theorem floatOfBits_magnitude (x : Float) : floatOfBits (negative x) (magnitude x) = x := by
  have whole : magnitude x + (if negative x then signBit else 0) = x.toBits.toNat := by
    have range := x.toBits.toNat_lt
    by_cases below : x.toBits.toNat < signBit
    · simp [magnitude, negative, below, Nat.mod_eq_of_lt]
    · have sign : negative x = true := by simpa [negative] using below
      rw [sign, if_pos rfl, magnitude]
      simp only [signBit] at *
      omega
  rw [floatOfBits, whole, UInt64.ofNat_toNat, Float.ofBits_toBits]

theorem isInf_iff (x : Float) : x.isInf = true ↔ magnitude x = infinityBits := by
  change (unpack .binary64 x.toBits.toBitVec).isInf = true ↔ _
  have full := exponent_full_iff x.toBits
  have whole := mantissa_zero_iff x.toBits
  have range := x.toBits.toNat_lt
  rw [magnitude]
  simp only [signBit, exponentBit, infinityBits] at *
  unfold unpack
  dsimp only
  split
  · rename_i top
    have := full.mp top
    split
    · rename_i zero
      have := whole.mp zero
      simp only [Float.Model.UnpackedFloat.isInf, true_iff]
      omega
    · rename_i some
      have := mt whole.mpr some
      simp only [Float.Model.UnpackedFloat.isInf, reduceCtorEq, false_iff]
      omega
  · rename_i low
    have := mt full.mpr low
    have finite : x.toBits.toNat % 9223372036854775808 ≠ 2047 * 4503599627370496 := by omega
    split
    · split <;> simp [Float.Model.UnpackedFloat.isInf, finite]
    · simp [Float.Model.UnpackedFloat.isInf, finite]

theorem isFinite_eq (x : Float) : isFinite x = x.isFinite := by
  change _ = (unpack .binary64 x.toBits.toBitVec).isFinite
  have full := exponent_full_iff x.toBits
  rw [isFinite]
  unfold unpack
  dsimp only
  split
  · rename_i top
    have infinite : decide (x.toBits.toNat % signBit < infinityBits) = false := by
      simpa using full.mp top
    rw [infinite]
    split <;> rfl
  · rename_i low
    have finite : decide (x.toBits.toNat % signBit < infinityBits) = true := by
      simpa using mt full.mpr low
    rw [finite]
    split
    · split <;> rfl
    · rfl

end Dialogue.Decimal
