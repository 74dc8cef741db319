import Dialogue.Decimal.Natural
import Dialogue.Proofs.Decimal.Nearest
import Dialogue.Proofs.Decimal.Pattern

/-!
Whole numbers among the doubles. A finite double stands for a rational number, which its
significand and its exponent make up, and it is read as a natural number just when that is what it
stands for. Up to `2 ^ 53` every natural number is a double, so that it is read back from the
double nearest to it.
-/
namespace Dialogue.Decimal
open Float.Model (Format)
open Float.Model.UnpackedFloat (Sign unpack unpackExponent unpackMantissa unpackSign)

variable {x : Float} {n : Nat} {b : Nat}

def value? (x : Float) : Option ℚ :=
  match unpack .binary64 x.toBits.toBitVec with
  | .zero _ => some 0
  | .finite sign m e _ => some (sign.apply m * 2 ^ e)
  | .infinity _ | .notANumber => none

def absolute (b : Nat) : ℚ :=
  significand b * 2 ^ unitExponent b

theorem absolute_zero : absolute 0 = 0 := by
  simp [absolute, significand, exponentBit]

theorem sign_of_negative (x : Float) :
    Sign.ofBitVec (@unpackSign Format.binary64 x.toBits.toBitVec) =
      if negative x then .negative else .positive := by
  have zero : @unpackSign Format.binary64 x.toBits.toBitVec = 0#1 ↔ x.toBits.toNat < signBit := by
    rw [← BitVec.toNat_inj, Float.Model.UnpackedFloat.unpackSign_def, BitVec.extractLsb'_toNat,
      Nat.shiftRight_eq_div_pow]
    change x.toBits.toNat / 2 ^ 63 % 2 ^ 1 = 0 ↔ _
    have := x.toBits.toNat_lt
    simp only [signBit]
    omega
  by_cases below : x.toBits.toNat < signBit
  · simp [Sign.ofBitVec, zero, negative, below]
  · simp [Sign.ofBitVec, zero, negative, below, Nat.le_of_not_lt below]

theorem signed_value (x : Float) (m : Nat) (e : Int) :
    (((Sign.ofBitVec (@unpackSign Format.binary64 x.toBits.toBitVec)).apply m : Int) : ℚ) * 2 ^ e =
      if negative x then -((m : ℚ) * 2 ^ e) else (m : ℚ) * 2 ^ e := by
  rw [sign_of_negative]
  cases negative x <;> simp [Sign.apply]

theorem toNat_exponent_magnitude (x : Float) :
    (@unpackExponent Format.binary64 x.toBits.toBitVec).toNat = magnitude x / exponentBit :=
  toNat_exponent x.toBits

theorem toNat_mantissa_magnitude (x : Float) :
    (@unpackMantissa Format.binary64 x.toBits.toBitVec).toNat = magnitude x % exponentBit := by
  rw [toNat_mantissa, magnitude]
  simp only [signBit, exponentBit]
  omega

/-- Without an exponent the unit is the least there is. -/
theorem value?_of_subnormal (low : magnitude x < exponentBit) :
    value? x = some (if negative x then -absolute (magnitude x) else absolute (magnitude x)) := by
  have exponent : @unpackExponent Format.binary64 x.toBits.toBitVec = 0#11 :=
    BitVec.eq_of_toNat_eq ((toNat_exponent_magnitude x).trans (Nat.div_eq_of_lt low))
  have mantissa := (toNat_mantissa_magnitude x).trans (Nat.mod_eq_of_lt low)
  have full : ¬ @unpackExponent Format.binary64 x.toBits.toBitVec = -1#11 := by
    rw [exponent]
    decide
  unfold value? unpack
  dsimp only
  rw [if_neg full, if_pos exponent]
  by_cases none : @unpackMantissa Format.binary64 x.toBits.toBitVec = 0#52
  · have zero : magnitude x = 0 := by
      rw [none] at mantissa
      exact mantissa.symm
    rw [dif_pos none]
    simp [zero, absolute_zero]
  · rw [dif_neg none]
    have unit : ((@unpackExponent Format.binary64 x.toBits.toBitVec).toNat : Int) -
        (Format.binary64.exponentBias + Format.binary64.mantissaBitsWithoutImplicit) + 1 =
          -1074 := by
      rw [exponent]
      rfl
    simp only [signed_value, mantissa, unit, absolute, significand, unitExponent, if_pos low]

/-- With an exponent there is one more digit in front of the significand. -/
theorem value?_of_normal (high : ¬ magnitude x < exponentBit)
    (finite : magnitude x < infinityBits) :
    value? x = some (if negative x then -absolute (magnitude x) else absolute (magnitude x)) := by
  have exponent := toNat_exponent_magnitude x
  have full := mt (exponent_full_iff x.toBits).mp (Nat.not_le_of_lt finite)
  have normal : ¬ @unpackExponent Format.binary64 x.toBits.toBitVec = 0#11 := by
    intro low
    rw [low] at exponent
    exact high ((Nat.div_eq_zero_iff_lt (by decide)).mp exponent.symm)
  have whole : (1#1 ++ @unpackMantissa Format.binary64 x.toBits.toBitVec).toNat =
      magnitude x % exponentBit + exponentBit := by
    have room : magnitude x % exponentBit < 2 ^ 52 := Nat.mod_lt _ (by decide)
    rw [BitVec.toNat_append, toNat_mantissa_magnitude]
    exact (Nat.shiftLeft_add_eq_or_of_lt room 1).symm.trans (Nat.add_comm ..)
  have unit : ((@unpackExponent Format.binary64 x.toBits.toBitVec).toNat : Int) -
      (Format.binary64.exponentBias + Format.binary64.mantissaBitsWithoutImplicit) =
        (magnitude x / exponentBit : Nat) - 1075 := by
    rw [exponent]
    rfl
  unfold value? unpack
  dsimp only
  rw [if_neg full, if_neg normal]
  simp only [signed_value, whole, unit, absolute, significand, unitExponent, if_neg high]

theorem value?_of_finite (finite : magnitude x < infinityBits) :
    value? x = some (if negative x then -absolute (magnitude x) else absolute (magnitude x)) := by
  by_cases low : magnitude x < exponentBit
  · exact value?_of_subnormal low
  · exact value?_of_normal low finite

theorem value?_of_infinite (infinite : infinityBits ≤ magnitude x) : value? x = none := by
  have full := (exponent_full_iff x.toBits).mpr infinite
  unfold value? unpack
  dsimp only
  rw [if_pos full]
  split_ifs <;> rfl

theorem absolute_pos (pos : 0 < b) (finite : b < infinityBits) : 0 < absolute b := by
  have some := (double_parts pos finite).1
  have : (0 : ℚ) < significand b := by exact_mod_cast some
  exact mul_pos this (zpow_pos two_pos _)

theorem absolute_eq_iff : absolute b = n ↔
    if 0 ≤ unitExponent b then significand b * 2 ^ (unitExponent b).toNat = n
    else significand b = n * 2 ^ (-unitExponent b).toNat := by
  unfold absolute
  generalize unitExponent b = q
  by_cases whole : 0 ≤ q
  · obtain ⟨k, rfl⟩ := Int.eq_ofNat_of_zero_le whole
    rw [if_pos whole]
    norm_cast
  · obtain ⟨k, rfl⟩ : ∃ k : Nat, q = -k := ⟨(-q).toNat, by omega⟩
    rw [if_neg whole, zpow_neg, mul_inv_eq_iff_eq_mul₀ (by positivity), Int.neg_neg]
    norm_cast

theorem natural?_eq (x : Float) : natural? x =
    if infinityBits ≤ magnitude x then none
    else if magnitude x = 0 then some 0
    else if negative x then none
    else if 0 ≤ unitExponent (magnitude x) then
      some (significand (magnitude x) * 2 ^ (unitExponent (magnitude x)).toNat)
    else if significand (magnitude x) % 2 ^ (-unitExponent (magnitude x)).toNat = 0 then
      some (significand (magnitude x) / 2 ^ (-unitExponent (magnitude x)).toNat)
    else none := by
  simp only [natural?, negative, magnitude, decide_eq_true_eq]
  rfl

/-- A double is read as a natural number just when it stands for that number. -/
theorem natural?_eq_some_iff : natural? x = some n ↔ value? x = some (n : ℚ) := by
  rw [natural?_eq]
  rcases Nat.lt_or_ge (magnitude x) infinityBits with finite | infinite
  · rw [if_neg (Nat.not_le_of_lt finite), value?_of_finite finite, Option.some.injEq]
    rcases Nat.eq_zero_or_pos (magnitude x) with zero | pos
    · rw [if_pos zero, zero, absolute_zero, neg_zero, ite_self, Option.some.injEq, eq_comm,
        ← Nat.cast_inj (R := ℚ), Nat.cast_zero, eq_comm]
    · rw [if_neg pos.ne']
      cases negative x with
      | true =>
        refine ⟨nofun, fun same => ?_⟩
        have above := absolute_pos pos finite
        have least : (0 : ℚ) ≤ n := Nat.cast_nonneg n
        rw [if_pos rfl] at same
        linarith
      | false =>
        rw [if_neg Bool.false_ne_true, if_neg Bool.false_ne_true, absolute_eq_iff]
        split_ifs with whole multiple
        · rw [Option.some.injEq]
        · rw [Option.some.injEq,
            Nat.div_eq_iff_eq_mul_left (Nat.two_pow_pos _) (Nat.dvd_of_mod_eq_zero multiple)]
        · refine ⟨nofun, fun same => ?_⟩
          rw [same, Nat.mul_mod_left] at multiple
          exact absurd rfl multiple
  · rw [if_pos infinite, value?_of_infinite infinite]
    exact ⟨nofun, nofun⟩

theorem isSome_natural?_iff :
    (natural? x).isSome = true ↔ ∃ r, value? x = some r ∧ 0 ≤ r ∧ Int.fract r = 0 := by
  rw [Option.isSome_iff_exists]
  constructor
  · rintro ⟨n, natural⟩
    exact ⟨n, natural?_eq_some_iff.mp natural, Nat.cast_nonneg n, Int.fract_natCast n⟩
  · rintro ⟨r, value, least, whole⟩
    obtain ⟨k, rfl⟩ := Int.fract_eq_zero_iff.mp whole
    obtain ⟨n, rfl⟩ := Int.eq_ofNat_of_zero_le (Int.cast_nonneg_iff.mp least)
    exact ⟨n, natural?_eq_some_iff.mpr (by simpa using value)⟩

theorem parts_of_double {m : Nat} {q : Int} (fits : m < 2 ^ 53) (full : 2 ^ 52 ≤ m)
    (least : -1074 ≤ q) (most : q ≤ 971) (pattern : b = (q + 1074).toNat * exponentBit + m) :
    b < infinityBits ∧ significand b = m ∧ unitExponent b = q := by
  have normal : ¬ b < exponentBit := by
    simp only [exponentBit] at *
    omega
  simp only [significand, unitExponent, if_neg normal]
  simp only [infinityBits, exponentBit] at *
  omega

theorem exists_parts (pos : 0 < n) (small : n ≤ 2 ^ 53) :
    ∃ (m : Nat) (q : Int), m < 2 ^ 53 ∧ 2 ^ 52 ≤ m ∧
    -52 ≤ q ∧ q ≤ 1 ∧ m * 2 ^ q.toNat = n * 2 ^ (-q).toNat := by
  rcases Nat.lt_or_eq_of_le small with less | rfl
  · have low := Nat.log2_self_le pos.ne'
    have high := Nat.lt_log2_self (n := n)
    have digits : n.log2 ≤ 52 := Nat.le_of_lt_succ ((Nat.log2_lt pos.ne').mpr less)
    refine ⟨n * 2 ^ (52 - n.log2), -((52 - n.log2 : Nat) : Int), ?_, ?_,
      by omega, by omega, by simp⟩
    · calc n * 2 ^ (52 - n.log2) < 2 ^ (n.log2 + 1) * 2 ^ (52 - n.log2) :=
            Nat.mul_lt_mul_of_pos_right high (Nat.two_pow_pos _)
        _ = 2 ^ 53 := by rw [← Nat.pow_add]; congr 1; omega
    · calc 2 ^ 52 = 2 ^ n.log2 * 2 ^ (52 - n.log2) := by rw [← Nat.pow_add]; congr 1; omega
        _ ≤ n * 2 ^ (52 - n.log2) := Nat.mul_le_mul_right _ low
  · exact ⟨2 ^ 52, 1, by decide, by decide, by decide, by decide, by decide⟩

/-- A natural number up to `2 ^ 53` is a double. -/
theorem natural?_floatOfNat (small : n ≤ 2 ^ 53) : natural? (floatOfNat n) = some n := by
  rcases Nat.eq_zero_or_pos n with rfl | pos
  · decide +kernel
  obtain ⟨m, q, fits, full, least, most, same⟩ := exists_parts pos small
  obtain ⟨finite, top, unit⟩ := parts_of_double (q := q) fits full (by omega) (by omega) rfl
  have bits : nearestBits n 1 = (q + 1074).toNat * exponentBit + m := by
    have scaled : n * 2 ^ (-q).toNat = m * 2 ^ q.toNat * 1 := by rw [same, Nat.mul_one]
    rw [nearestBits_congr one_pos (Nat.two_pow_pos _) scaled,
      nearestBits_double (by omega) fits (by omega) (.inr full), min_eq_left finite.le]
  have whole := toNat_floatOfBits false finite.le
  have magnitude := magnitude_floatOfBits false finite.le
  have above : negative (floatOfBits false ((q + 1074).toNat * exponentBit + m)) = false := by
    rw [negative, whole, decide_eq_false_iff_not]
    simp only [signBit, infinityBits, exponentBit] at *
    simp
    omega
  rw [floatOfNat, bits, natural?_eq_some_iff, value?_of_finite (by rwa [magnitude]), above,
    magnitude, if_neg Bool.false_ne_true, Option.some.injEq, absolute_eq_iff, top, unit]
  split_ifs with whole
  · have none : (-q).toNat = 0 := by omega
    rwa [none, Nat.pow_zero, Nat.mul_one] at same
  · have none : q.toNat = 0 := by omega
    rwa [none, Nat.pow_zero, Nat.mul_one] at same

end Dialogue.Decimal
