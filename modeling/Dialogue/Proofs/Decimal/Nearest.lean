import Dialogue.Decimal.Shortest
import Mathlib.Algebra.Order.Floor.Semiring
import Mathlib.Data.Int.Log
import Mathlib.Data.Rat.Floor
import Mathlib.Tactic.Positivity

/-!
Rounding to the nearest double. The result depends on the value of a fraction alone and not on how
it is written, and a value that is a double already is rounded to itself; so the exact decimal of
a double, and with it the shortest one, reads back to that double.
-/
namespace Dialogue.Decimal

variable {num den num' den' n k : Nat} {e : Int}

/-! Powers of two and fractions. -/

theorem zpow_mul_pow_toNat (e : Int) : (2 : ℚ) ^ e * 2 ^ (-e).toNat = 2 ^ e.toNat := by
  obtain ⟨n, rfl | rfl⟩ := e.eq_nat_or_neg
  · simp
  · simp

theorem pow_le_iff (pos : 0 < den) :
    den * Nat.pow 2 e.toNat ≤ num * Nat.pow 2 (-e).toNat ↔ (2 : ℚ) ^ e ≤ (num : ℚ) / den := by
  have below : (0 : ℚ) < den := by exact_mod_cast pos
  have unit : (0 : ℚ) < 2 ^ (-e).toNat := by positivity
  rw [le_div_iff₀ below, ← mul_le_mul_iff_left₀ unit, mul_right_comm, zpow_mul_pow_toNat,
    mul_comm _ (den : ℚ)]
  exact_mod_cast Iff.rfl

theorem pow_le_iff_le_log {r : ℚ} (pos : 0 < r) : (2 : ℚ) ^ e ≤ r ↔ e ≤ Int.log 2 r := by
  exact_mod_cast Int.zpow_le_iff_le_log one_lt_two pos

theorem lt_pow_iff_log_lt {r : ℚ} (pos : 0 < r) : r < (2 : ℚ) ^ e ↔ Int.log 2 r < e := by
  exact_mod_cast Int.lt_zpow_iff_log_lt one_lt_two pos

theorem floorLog2_eq (top : 0 < num) (bottom : 0 < den) :
    floorLog2 num den = Int.log 2 ((num : ℚ) / den) := by
  have ratio : (0 : ℚ) < (num : ℚ) / den := by positivity
  have lower : (2 : ℚ) ^ ((num.log2 : Int) - (den.log2 + 1 : Nat)) ≤ (num : ℚ) / den := by
    have above : (den : ℚ) ≤ 2 ^ (den.log2 + 1) := by
      exact_mod_cast (Nat.lt_log2_self (n := den)).le
    have below : (2 : ℚ) ^ num.log2 ≤ num := by exact_mod_cast Nat.log2_self_le top.ne'
    rw [zpow_sub₀ two_ne_zero, zpow_natCast, zpow_natCast]
    gcongr
  have upper : (num : ℚ) / den < 2 ^ (((num.log2 + 1 : Nat) : Int) - den.log2) := by
    have below : (2 : ℚ) ^ den.log2 ≤ den := by exact_mod_cast Nat.log2_self_le bottom.ne'
    have above : (num : ℚ) < 2 ^ (num.log2 + 1) := by exact_mod_cast Nat.lt_log2_self (n := num)
    rw [zpow_sub₀ two_ne_zero, zpow_natCast, zpow_natCast]
    gcongr
  have least := (pow_le_iff_le_log ratio).mp lower
  have most := (lt_pow_iff_log_lt ratio).mp upper
  -- The logarithm is the difference of the two logarithms or one less, and the test tells which.
  have test := (@pow_le_iff num den (num.log2 - den.log2) bottom).trans (pow_le_iff_le_log ratio)
  unfold floorLog2
  dsimp only
  split
  · rename_i reached
    have := test.mp reached
    omega
  · rename_i missed
    have := mt test.mpr missed
    omega

/-! Rounding a fraction. -/

theorem roundHalfEven_scaled (pos : 0 < k) :
    roundHalfEven (num * k) (den * k) = roundHalfEven num den := by
  unfold roundHalfEven
  dsimp only
  rw [Nat.mul_div_mul_right _ _ pos, Nat.mul_mod_mul_right, ← Nat.mul_assoc]
  simp only [Nat.mul_lt_mul_right pos]

theorem roundHalfEven_congr (bottom : 0 < den) (bottom' : 0 < den')
    (same : num * den' = num' * den) :
    roundHalfEven num den = roundHalfEven num' den' := by
  calc roundHalfEven num den = roundHalfEven (num * den') (den * den') :=
    (roundHalfEven_scaled bottom').symm
    _ = roundHalfEven (num' * den) (den' * den) := by rw [same, Nat.mul_comm den]
    _ = roundHalfEven num' den' := roundHalfEven_scaled bottom

theorem roundHalfEven_whole (pos : 0 < k) : roundHalfEven (n * k) k = n := by
  simp [roundHalfEven, Nat.mul_div_cancel _ pos, pos]

theorem nearestBits_congr (bottom : 0 < den) (bottom' : 0 < den') (same : num * den' = num' * den) :
    nearestBits num den = nearestBits num' den' := by
  rcases Nat.eq_zero_or_pos num with rfl | top
  · have none : num' = 0 := by
      have := same.symm
      simp only [Nat.zero_mul, Nat.mul_eq_zero] at this
      omega
    simp [nearestBits, none]
  · have top' : 0 < num' := Nat.pos_of_mul_pos_right (same ▸ Nat.mul_pos top bottom')
    have ratio : (num : ℚ) / den = num' / den' := by
      rw [div_eq_div_iff (by positivity) (by positivity)]
      exact_mod_cast same
    have log : floorLog2 num den = floorLog2 num' den' := by
      rw [floorLog2_eq top bottom, floorLog2_eq top' bottom', ratio]
    unfold nearestBits
    rw [if_neg top.ne', if_neg top'.ne', log]
    dsimp only
    congr 2
    apply roundHalfEven_congr
    · exact Nat.mul_pos bottom (Nat.pow_pos two_pos)
    · exact Nat.mul_pos bottom' (Nat.pow_pos two_pos)
    · rw [Nat.mul_mul_mul_comm, same, Nat.mul_mul_mul_comm]

/-! Decimals. -/

theorem lt_digitCount_iff (pos : 0 < n) : k < digitCount n ↔ 10 ^ k ≤ n := by
  cases k with
  | zero =>
    have := Nat.length_toDigits_pos (b := 10) (n := n)
    simp only [digitCount, Nat.pow_zero]
    omega
  | succ k =>
    have := Nat.length_toDigits_le_iff (b := 10) (n := n) (k := k + 1) (by decide) (by omega)
    simp only [digitCount]
    omega

theorem digitCount_shift (pos : 0 < n) (k : Nat) : digitCount (n * 10 ^ k) = digitCount n + k := by
  have shifted : 0 < n * 10 ^ k := by positivity
  apply eq_of_forall_lt_iff
  intro j
  rw [lt_digitCount_iff shifted]
  rcases Nat.lt_or_ge j k with less | more
  · have power : 10 ^ j ≤ 10 ^ k := Nat.pow_le_pow_right (by decide) less.le
    have : 10 ^ k ≤ n * 10 ^ k := Nat.le_mul_of_pos_left _ pos
    omega
  · obtain ⟨i, rfl⟩ := Nat.exists_eq_add_of_le' more
    rw [Nat.pow_add, Nat.mul_le_mul_right_iff (by positivity), ← lt_digitCount_iff pos]
    omega

theorem bits_shift (n k : Nat) (e : Int) : bits ⟨n * 10 ^ k, e⟩ = bits ⟨n, e + k⟩ := by
  rcases Nat.eq_zero_or_pos n with rfl | pos
  · simp [bits]
  · have shifted : n * 10 ^ k ≠ 0 := by positivity
    have point : ((digitCount n + k : Nat) : Int) + e = digitCount n + (e + k) := by omega
    have same : nearestBits (n * 10 ^ k * Nat.pow 10 e.toNat) (Nat.pow 10 (-e).toNat) =
        nearestBits (n * Nat.pow 10 (e + k).toNat) (Nat.pow 10 (-(e + k)).toNat) := by
      apply nearestBits_congr
      · exact Nat.pow_pos (by decide)
      · exact Nat.pow_pos (by decide)
      · have powers : k + e.toNat + (-(e + k)).toNat = (e + k).toNat + (-e).toNat := by omega
        simp only [Nat.pow_eq, Nat.mul_assoc, ← Nat.pow_add]
        rw [powers]
    simp only [bits, if_neg shifted, if_neg pos.ne', digitCount_shift pos, point, same]

theorem bits_le (d : Decimal) : d.bits ≤ infinityBits := by
  unfold bits
  dsimp only
  split
  · exact Nat.zero_le _
  split
  · exact Nat.le_refl _
  split
  · exact Nat.zero_le _
  unfold nearestBits
  split
  · exact Nat.zero_le _
  · exact Nat.min_le_right _ _

/-! Doubles are rounded to themselves. -/

theorem nearestBits_scaled (pos : 0 < k) (bottom : 0 < den) :
    nearestBits (num * k) (den * k) = nearestBits num den := by
  apply nearestBits_congr (Nat.mul_pos bottom pos) bottom
  rw [Nat.mul_assoc, Nat.mul_comm k]

/-- A significand and an exponent that a double can have. -/
theorem nearestBits_double {m : Nat} {q : Int} (pos : 0 < m) (fits : m < 2 ^ 53) (least : -1074 ≤ q)
    (full : q = -1074 ∨ 2 ^ 52 ≤ m) :
    nearestBits (m * 2 ^ q.toNat) (2 ^ (-q).toNat) =
      min ((q + 1074).toNat * exponentBit + m) infinityBits := by
  have bottom : 0 < 2 ^ (-q).toNat := Nat.two_pow_pos _
  have top : 0 < m * 2 ^ q.toNat := Nat.mul_pos pos (Nat.two_pow_pos _)
  have ratio : ((m * 2 ^ q.toNat : Nat) : ℚ) / (2 ^ (-q).toNat : Nat) = m * 2 ^ q := by
    rw [div_eq_iff (by positivity)]
    push_cast
    rw [mul_assoc, zpow_mul_pow_toNat]
  have unit : (0 : ℚ) < 2 ^ q := zpow_pos two_pos q
  have value : (0 : ℚ) < m * 2 ^ q := mul_pos (by exact_mod_cast pos) unit
  have above : Int.log 2 ((m : ℚ) * 2 ^ q) < 53 + q := by
    apply (lt_pow_iff_log_lt value).mp
    rw [zpow_add₀ two_ne_zero]
    gcongr
    exact_mod_cast fits
  have scale : max (floorLog2 (m * 2 ^ q.toNat) (2 ^ (-q).toNat) - 52) (-1074) = q := by
    rw [floorLog2_eq top bottom, ratio]
    rcases full with same | full
    · omega
    · have below : 52 + q ≤ Int.log 2 ((m : ℚ) * 2 ^ q) := by
        apply (pow_le_iff_le_log value).mp
        rw [zpow_add₀ two_ne_zero]
        gcongr
        exact_mod_cast full
      omega
  have whole : roundHalfEven (m * 2 ^ q.toNat * Nat.pow 2 (-q).toNat)
      (2 ^ (-q).toNat * Nat.pow 2 q.toNat) = m := by
    simp only [Nat.pow_eq]
    rw [Nat.mul_assoc, Nat.mul_comm (2 ^ (-q).toNat)]
    exact roundHalfEven_whole (by positivity)
  unfold nearestBits
  dsimp only
  rw [if_neg top.ne', scale, whole]

theorem double_parts {b : Nat} (pos : 0 < b) (finite : b < infinityBits) :
    0 < significand b ∧ significand b < 2 ^ 53 ∧ -1074 ≤ unitExponent b ∧ unitExponent b ≤ 971 ∧
      (unitExponent b = -1074 ∨ 2 ^ 52 ≤ significand b) ∧
      (unitExponent b + 1074).toNat * exponentBit + significand b = b := by
  by_cases subnormal : b < exponentBit
  · simp only [significand, unitExponent, if_pos subnormal]
    have small : b < 2 ^ 52 := subnormal
    refine ⟨pos, by omega, by omega, by omega, .inl trivial, ?_⟩
    simp
  · simp only [significand, unitExponent, if_neg subnormal]
    simp only [infinityBits, exponentBit] at *
    omega

theorem bits_within {d : Decimal} (pos : 0 < d.digits)
    (below : (digitCount d.digits : Int) + d.exponent ≤ 400)
    (above : -400 ≤ (digitCount d.digits : Int) + d.exponent) :
    bits d = nearestBits (d.digits * 10 ^ d.exponent.toNat) (10 ^ (-d.exponent).toNat) := by
  simp only [bits, Nat.pow_eq]
  rw [if_neg pos.ne', if_neg (by omega), if_neg (by omega)]

theorem two_pow_le {a b i j : Nat} (least : j ≤ a * i) (base : 2 ^ a ≤ b) : 2 ^ j ≤ b ^ i := by
  calc 2 ^ j ≤ 2 ^ (a * i) := Nat.pow_le_pow_right two_pos least
    _ = (2 ^ a) ^ i := Nat.pow_mul ..
    _ ≤ b ^ i := Nat.pow_le_pow_left base i

theorem digitCount_whole {m k : Nat} (pos : 0 < m) (fits : m < 2 ^ 53) (most : k ≤ 971) :
    digitCount (m * 2 ^ k) ≤ 400 := by
  by_contra more
  have above := (lt_digitCount_iff (by positivity)).mp (Nat.lt_of_not_le more)
  have below : m * 2 ^ k < 10 ^ 400 := by
    calc m * 2 ^ k < 2 ^ 53 * 2 ^ k := Nat.mul_lt_mul_of_pos_right fits (Nat.two_pow_pos k)
      _ = 2 ^ (53 + k) := (Nat.pow_add ..).symm
      _ ≤ 10 ^ 400 := two_pow_le (a := 3) (by omega) (by decide)
  omega

/-- The expansion of any other double is near enough to one to be rounded at all. -/
theorem digitCount_fraction {m k : Nat} (pos : 0 < m) (fits : m < 2 ^ 53) (least : k ≤ 1074) :
    digitCount (m * 5 ^ k) ≤ 400 + k ∧ k ≤ 400 + digitCount (m * 5 ^ k) := by
  have some : 0 < m * 5 ^ k := by positivity
  constructor
  · by_contra more
    have above := (lt_digitCount_iff some).mp (Nat.lt_of_not_le more)
    have below : m * 5 ^ k < 10 ^ 400 * 10 ^ k := by
      calc m * 5 ^ k < 2 ^ 53 * 5 ^ k := Nat.mul_lt_mul_of_pos_right fits (by positivity)
        _ ≤ 10 ^ 400 * 10 ^ k :=
          Nat.mul_le_mul (two_pow_le (a := 3) (by decide) (by decide))
            (Nat.pow_le_pow_left (by decide) k)
    rw [Nat.pow_add] at above
    omega
  · rcases Nat.le_total k 400 with less | more
    · omega
    · obtain ⟨j, rfl⟩ := Nat.exists_eq_add_of_le' more
      have power : 10 ^ j ≤ m * 5 ^ (j + 400) := by
        calc 10 ^ j = 2 ^ j * 5 ^ j := by rw [← Nat.mul_pow]
          _ ≤ 5 ^ 400 * 5 ^ j := Nat.mul_le_mul_right _ (two_pow_le (a := 2) (by omega) (by decide))
          _ = 5 ^ (j + 400) := by rw [Nat.pow_add, Nat.mul_comm]
          _ ≤ m * 5 ^ (j + 400) := Nat.le_mul_of_pos_left _ pos
      have := (lt_digitCount_iff some).mpr power
      omega

theorem exact_bits {b : Nat} (pos : 0 < b) (finite : b < infinityBits) : (exact b).bits = b := by
  obtain ⟨some, fits, least, most, full, parts⟩ := double_parts pos finite
  have double := nearestBits_double some fits least full
  rw [parts, min_eq_left finite.le] at double
  rw [exact]
  generalize significand b = m at *
  generalize unitExponent b = q at *
  by_cases whole : 0 ≤ q
  · obtain ⟨k, rfl⟩ := Int.eq_ofNat_of_zero_le whole
    have near := digitCount_whole some fits (k := k) (by omega)
    rw [if_pos whole]
    change bits ⟨m * 2 ^ k, 0⟩ = b
    rw [bits_within (by positivity) (by simpa using near) (by simp)]
    simpa using double
  · obtain ⟨k, rfl⟩ : ∃ k : Nat, q = -k := ⟨(-q).toNat, by omega⟩
    have near := digitCount_fraction some fits (k := k) (by omega)
    have scaled : nearestBits (m * 5 ^ k) (10 ^ k) = nearestBits m (2 ^ k) := by
      have ten : 10 ^ k = 2 ^ k * 5 ^ k := by rw [← Nat.mul_pow]
      rw [ten]
      exact nearestBits_scaled (by positivity) (by positivity)
    rw [if_neg whole, Int.neg_neg]
    change bits ⟨m * 5 ^ k, -k⟩ = b
    rw [bits_within (by positivity) (by simp; omega) (by simp; omega)]
    simpa [scaled] using double

/-- The shortest decimal of a double reads back to it. -/
theorem shortest_bits {b : Nat} (tie : Tie) (pos : 0 < b) (finite : b < infinityBits) :
    (shortest tie b).bits = b := by
  exact shortestFrom_bits (exact_bits pos finite) _

end Dialogue.Decimal
