import Mathlib.Algebra.Order.Field.Power
import Mathlib.Algebra.Order.Floor.Semifield
import Mathlib.Data.Int.Log
import Mathlib.Data.Rat.Floor
import Mathlib.Tactic.FieldSimp
import Mathlib.Tactic.Linarith
import Rulebook.Decimal.Shortest
import Rulebook.Proofs.Numerals

/-!
# The double nearest to a number

Rounding a ratio is computed with natural numbers throughout: logarithms that are
off by one step, scaled ratios, remainders. This module says what the computation
means. Every positive rational has a unit, the one in which it has 53 significant
bits; the magnitude nearest to it is that many units, halves to the even one.
That is what the computation gives for every ratio, and for every decimal too,
whose very large and very small powers of ten are not computed at all.

So the decimal of a number matters only through its value. And a double is the
nearest one to its own value: the exact decimal is read back, and the search for
a shorter decimal asks of each candidate whether it is read back as well.
-/

namespace Rulebook.Double

/-! ## The nearest magnitude -/

/-- **A number rounded to a whole one**, halves to the even neighbour. -/
def roundHalfEven (r : ℚ) : ℕ :=
  let lower := ⌊r⌋₊
  if r - lower < 1 / 2 then lower
  else if 1 / 2 < r - lower then lower + 1
  else if lower % 2 = 0 then lower else lower + 1

/-- The unit in which a number has 53 significant bits, or the least unit for
numbers too small for that. -/
def unit (r : ℚ) : ℤ := max leastUnit (Int.log 2 r - 52)

/-- **The magnitude bits nearest to a number.** -/
def nearest (r : ℚ) : ℕ :=
  if r ≤ 0 then 0
  else min infiniteBits ((unit r - leastUnit).toNat * binadeSize + roundHalfEven (r / 2 ^ unit r))

theorem roundHalfEven_natCast (n : ℕ) : roundHalfEven n = n := by
  unfold roundHalfEven
  simp

theorem floor_le_roundHalfEven (r : ℚ) : ⌊r⌋₊ ≤ roundHalfEven r := by
  unfold roundHalfEven
  dsimp only
  split_ifs <;> omega

theorem roundHalfEven_of_lt_half {r : ℚ} (h : r < 1 / 2) : roundHalfEven r = 0 := by
  have hfloor : ⌊r⌋₊ = 0 := Nat.floor_eq_zero.2 (h.trans (by norm_num))
  unfold roundHalfEven
  simp only [hfloor, Nat.cast_zero, sub_zero]
  exact if_pos h

theorem cast_binadeSize : ((binadeSize : ℕ) : ℚ) = 2 ^ (52 : ℤ) := by norm_num [binadeSize]

theorem two_zpow_pos (q : ℤ) : (0 : ℚ) < 2 ^ q := zpow_pos (by norm_num) q

theorem log_eq_of_le_of_lt {r : ℚ} {k : ℤ} (hle : (2 : ℚ) ^ k ≤ r) (hlt : r < 2 ^ (k + 1)) :
    Int.log 2 r = k := by
  have hr : 0 < r := (two_zpow_pos k).trans_le hle
  have h₁ : k ≤ Int.log 2 r :=
    (Int.zpow_le_iff_le_log (by decide) hr).1 (by exact_mod_cast hle)
  have h₂ : Int.log 2 r < k + 1 :=
    (Int.lt_zpow_iff_log_lt (by decide) hr).1 (by exact_mod_cast hlt)
  omega

/-! ## What is computed for a ratio -/

/-- **Rounding a quotient** is rounding its value. -/
theorem roundQuotient_eq {num den : ℕ} (hden : 0 < den) :
    roundQuotient num den = roundHalfEven (num / den) := by
  have hden' : (0 : ℚ) < den := Nat.cast_pos.2 hden
  have hfloor : ⌊(num / den : ℚ)⌋₊ = num / den := Nat.floor_div_eq_div num den
  have hrest : (num / den : ℚ) - (num / den : ℕ) = ((num % den : ℕ) : ℚ) / den := by
    have hsplit : (num : ℚ) = den * (num / den : ℕ) + (num % den : ℕ) := by
      exact_mod_cast (Nat.div_add_mod num den).symm
    rw [eq_div_iff hden'.ne', sub_mul, div_mul_cancel₀ _ hden'.ne']
    linarith
  have hbelow : ((num % den : ℕ) : ℚ) / den < 1 / 2 ↔ 2 * (num % den) < den := by
    rw [div_lt_div_iff₀ hden' two_pos, one_mul, mul_comm]
    exact_mod_cast Iff.rfl
  have habove : 1 / 2 < ((num % den : ℕ) : ℚ) / den ↔ den < 2 * (num % den) := by
    rw [div_lt_div_iff₀ two_pos hden', one_mul, mul_comm _ (2 : ℚ)]
    exact_mod_cast Iff.rfl
  unfold roundQuotient roundHalfEven
  simp only [hfloor, hrest, hbelow, habove]

/-- Scaling a ratio divides its value. -/
theorem scaleRatio_spec {num den n d : ℕ} {q : ℤ} (hden : 0 < den)
    (h : scaleRatio num den q = (n, d)) : 0 < d ∧ (n / d : ℚ) = num / den / 2 ^ q := by
  unfold scaleRatio at h
  split at h
  · rename_i hq
    obtain ⟨rfl, rfl⟩ := Prod.mk.inj h
    obtain ⟨k, rfl⟩ : ∃ k : ℕ, q = -k := ⟨(-q).toNat, by omega⟩
    refine ⟨hden, ?_⟩
    rw [neg_neg, Int.toNat_natCast, Nat.pow_eq, zpow_neg, zpow_natCast]
    push_cast
    field_simp
  · rename_i hq
    obtain ⟨rfl, rfl⟩ := Prod.mk.inj h
    obtain ⟨k, rfl⟩ := Int.eq_ofNat_of_zero_le (Int.not_lt.1 hq)
    refine ⟨Nat.mul_pos hden (Nat.pow_pos two_pos), ?_⟩
    rw [Int.toNat_natCast, Nat.pow_eq, zpow_natCast, div_div]
    push_cast
    rfl

/-- The binary logarithms of numerator and denominator give that of their ratio
up to one step. -/
theorem ratio_bounds {num den : ℕ} (hnum : 0 < num) (hden : 0 < den) :
    (2 : ℚ) ^ ((num.log2 : ℤ) - den.log2 - 1) ≤ num / den ∧
      (num / den : ℚ) < 2 ^ ((num.log2 : ℤ) - den.log2 + 1) := by
  have hpow (n : ℕ) (hn : 0 < n) : (2 : ℚ) ^ (n.log2 : ℤ) ≤ n ∧ (n : ℚ) < 2 ^ (n.log2 + 1 : ℤ) := by
    have hle : 2 ^ n.log2 ≤ n := Nat.log2_self_le hn.ne'
    have hlt : n < 2 ^ (n.log2 + 1) := Nat.lt_log2_self
    exact ⟨by exact_mod_cast hle, by exact_mod_cast hlt⟩
  obtain ⟨hnle, hnlt⟩ := hpow num hnum
  obtain ⟨hdle, hdlt⟩ := hpow den hden
  have hden' : (0 : ℚ) < den := Nat.cast_pos.2 hden
  constructor
  · rw [le_div_iff₀ hden']
    calc (2 : ℚ) ^ ((num.log2 : ℤ) - den.log2 - 1) * den
        ≤ 2 ^ ((num.log2 : ℤ) - den.log2 - 1) * 2 ^ (den.log2 + 1 : ℤ) :=
          mul_le_mul_of_nonneg_left hdlt.le (two_zpow_pos _).le
      _ = 2 ^ (num.log2 : ℤ) := by
          rw [← zpow_add₀ two_ne_zero]
          congr 1
          ring
      _ ≤ num := hnle
  · rw [div_lt_iff₀ hden']
    calc (num : ℚ) < 2 ^ (num.log2 + 1 : ℤ) := hnlt
      _ = 2 ^ ((num.log2 : ℤ) - den.log2 + 1) * 2 ^ (den.log2 : ℤ) := by
          rw [← zpow_add₀ two_ne_zero]
          congr 1
          ring
      _ ≤ 2 ^ ((num.log2 : ℤ) - den.log2 + 1) * den :=
          mul_le_mul_of_nonneg_left hdle (two_zpow_pos _).le

/-- **The unit of a ratio** is that of its value. -/
theorem unitOf_eq {num den : ℕ} (hnum : 0 < num) (hden : 0 < den) :
    unitOf num den = unit (num / den) := by
  obtain ⟨hle, hlt⟩ := ratio_bounds hnum hden
  obtain ⟨q, hq⟩ : ∃ q : ℤ, (num.log2 : ℤ) - den.log2 - 53 = q := ⟨_, rfl⟩
  obtain ⟨n, d, hnd⟩ : ∃ n d, scaleRatio num den q = (n, d) := ⟨_, _, rfl⟩
  obtain ⟨hd, hscaled⟩ := scaleRatio_spec hden hnd
  have hd' : (0 : ℚ) < d := Nat.cast_pos.2 hd
  rw [show (num.log2 : ℤ) - den.log2 - 1 = q + 52 by omega] at hle
  rw [show (num.log2 : ℤ) - den.log2 + 1 = q + 54 by omega] at hlt
  -- the comparison tells in which of the two binades the ratio is
  have hhalf : n < 2 * binadeSize * d ↔ (num / den : ℚ) < 2 ^ (q + 53) := by
    have hsize : ((2 * binadeSize : ℕ) : ℚ) = 2 ^ (53 : ℤ) := by
      rw [Nat.cast_mul, cast_binadeSize]
      norm_num
    rw [← Nat.cast_lt (α := ℚ), Nat.cast_mul, hsize, ← div_lt_iff₀ hd', hscaled,
      div_lt_iff₀ (two_zpow_pos q), ← zpow_add₀ two_ne_zero, Int.add_comm]
  unfold unitOf unit
  simp only [hq, hnd, hhalf]
  split
  · rename_i h
    rw [log_eq_of_le_of_lt hle (by rwa [add_assoc])]
    congr 1
    ring
  · rename_i h
    rw [log_eq_of_le_of_lt (not_lt.1 h) (by rwa [add_assoc])]
    congr 1
    ring

/-- **The bits computed for a ratio** are those nearest to its value. -/
theorem nearestBits_eq {num den : ℕ} (hden : 0 < den) :
    nearestBits num den = nearest (num / den) := by
  unfold nearestBits nearest
  split
  · rename_i hnum
    subst hnum
    rw [Nat.cast_zero, zero_div, if_pos le_rfl]
  · rename_i hnum
    have hpos : (0 : ℚ) < num / den :=
      div_pos (Nat.cast_pos.2 (Nat.pos_of_ne_zero hnum)) (Nat.cast_pos.2 hden)
    obtain ⟨n, d, hnd⟩ : ∃ n d, scaleRatio num den (unit (num / den)) = (n, d) := ⟨_, _, rfl⟩
    obtain ⟨hd, hscaled⟩ := scaleRatio_spec hden hnd
    rw [if_neg (not_le.2 hpos)]
    simp only [unitOf_eq (Nat.pos_of_ne_zero hnum) hden, hnd]
    rw [roundQuotient_eq hd, hscaled]

/-! ## What is computed for a decimal -/

theorem nearest_zero : nearest 0 = 0 := if_pos le_rfl

/-- **Numbers far beyond the largest double** round to infinity. -/
theorem nearest_of_le {r : ℚ} (h : (2 : ℚ) ^ (1024 : ℤ) ≤ r) : nearest r = infiniteBits := by
  have hr : 0 < r := (two_zpow_pos _).trans_le h
  have hlog : 1024 ≤ Int.log 2 r := (Int.zpow_le_iff_le_log (by decide) hr).1 (by exact_mod_cast h)
  have hunit : unit r = Int.log 2 r - 52 :=
    max_eq_right (show (-1074 : ℤ) ≤ Int.log 2 r - 52 by omega)
  -- in its unit the number is at least one binade
  have hround : binadeSize ≤ roundHalfEven (r / 2 ^ unit r) := by
    refine le_trans (Nat.le_floor ?_) (floor_le_roundHalfEven _)
    have hle : (2 : ℚ) ^ Int.log 2 r ≤ r := by
      exact_mod_cast Int.zpow_log_le_self (b := 2) (by decide) hr
    rw [le_div_iff₀ (two_zpow_pos _), hunit]
    refine le_trans (le_of_eq ?_) hle
    rw [cast_binadeSize, ← zpow_add₀ two_ne_zero]
    congr 1
    ring
  have hbinades : 2046 ≤ (unit r - leastUnit).toNat := by
    rw [hunit, show leastUnit = -1074 from rfl]
    omega
  unfold nearest
  rw [if_neg (not_le.2 hr)]
  refine Nat.min_eq_left ?_
  calc infiniteBits = 2046 * binadeSize + binadeSize := by rw [infiniteBits]; ring
    _ ≤ (unit r - leastUnit).toNat * binadeSize + roundHalfEven (r / 2 ^ unit r) :=
      Nat.add_le_add (Nat.mul_le_mul_right _ hbinades) hround

/-- **Numbers far below the least double** round to zero. -/
theorem nearest_of_lt {r : ℚ} (h : r < (2 : ℚ) ^ (-1075 : ℤ)) : nearest r = 0 := by
  unfold nearest
  split
  · rfl
  · rename_i hr
    have hr : 0 < r := not_le.1 hr
    have hlog : Int.log 2 r < -1075 :=
      (Int.lt_zpow_iff_log_lt (by decide) hr).1 (by exact_mod_cast h)
    have hunit : unit r = leastUnit :=
      max_eq_left (show Int.log 2 r - 52 ≤ (-1074 : ℤ) by omega)
    have hround : roundHalfEven (r / 2 ^ leastUnit) = 0 := by
      refine roundHalfEven_of_lt_half ?_
      rw [div_lt_iff₀ (two_zpow_pos _)]
      refine h.trans_eq ?_
      rw [show (-1075 : ℤ) = -1 + leastUnit from rfl, zpow_add₀ two_ne_zero]
      norm_num
    rw [hunit, hround]
    simp

theorem two_pow_le_ten_pow : (2 : ℕ) ^ 1075 ≤ 10 ^ 330 := by decide +kernel

/-- Where the digits of a number end says how large the number is. -/
theorem decimal_bounds {digits : ℕ} (hdigits : digits ≠ 0) (exponent : ℤ) :
    (10 : ℚ) ^ (exponent + (Numeral.digitsOfNat digits).length - 1) ≤ digits * 10 ^ exponent ∧
      (digits * 10 ^ exponent : ℚ) < 10 ^ (exponent + (Numeral.digitsOfNat digits).length) := by
  have hpos : 0 < (10 : ℚ) ^ exponent := zpow_pos (by norm_num) _
  have hlen : 1 ≤ (Numeral.digitsOfNat digits).length :=
    List.length_pos_iff.2 (Numeral.digitsOfNat_ne_nil digits)
  have hle : (10 : ℚ) ^ ((Numeral.digitsOfNat digits).length - 1 : ℤ) ≤ digits := by
    rw [show ((Numeral.digitsOfNat digits).length - 1 : ℤ) =
      (((Numeral.digitsOfNat digits).length - 1 : ℕ) : ℤ) by omega, zpow_natCast]
    exact_mod_cast Numeral.pow_length_le hdigits
  have hlt : (digits : ℚ) < 10 ^ ((Numeral.digitsOfNat digits).length : ℤ) := by
    rw [zpow_natCast]
    exact_mod_cast Numeral.lt_pow_length digits
  rw [add_sub_assoc, add_comm exponent, add_comm exponent, zpow_add₀ (by norm_num),
    zpow_add₀ (by norm_num)]
  exact ⟨mul_le_mul_of_nonneg_right hle hpos.le, mul_lt_mul_of_pos_right hlt hpos⟩

/-- **The bits computed for a decimal** are those nearest to its value. -/
theorem decimalBits_eq (digits : ℕ) (exponent : ℤ) :
    decimalBits digits exponent = nearest (digits * 10 ^ exponent) := by
  by_cases hdigits : digits = 0
  · subst hdigits
    rw [Nat.cast_zero, zero_mul, nearest_zero]
    rfl
  obtain ⟨hle, hlt⟩ := decimal_bounds hdigits exponent
  unfold decimalBits
  simp only [hdigits, decide_false, Bool.false_or, decide_eq_true_eq]
  split_ifs with hlow hhigh hneg
  · refine (nearest_of_lt (hlt.trans_le ?_)).symm
    calc (10 : ℚ) ^ (exponent + (Numeral.digitsOfNat digits).length) ≤ 10 ^ (-330 : ℤ) :=
          zpow_le_zpow_right₀ (by norm_num) (by omega)
      _ ≤ 2 ^ (-1075 : ℤ) := by
          rw [zpow_neg, zpow_neg]
          exact inv_anti₀ (two_zpow_pos _) (by exact_mod_cast two_pow_le_ten_pow)
  · refine (nearest_of_le (le_trans ?_ hle)).symm
    calc (2 : ℚ) ^ (1024 : ℤ) ≤ 2 ^ (1075 : ℤ) := zpow_le_zpow_right₀ (by norm_num) (by norm_num)
      _ ≤ 10 ^ (330 : ℤ) := by exact_mod_cast two_pow_le_ten_pow
      _ ≤ 10 ^ (exponent + (Numeral.digitsOfNat digits).length - 1) :=
          zpow_le_zpow_right₀ (by norm_num) (by omega)
  · obtain ⟨k, rfl⟩ : ∃ k : ℕ, exponent = -k := ⟨(-exponent).toNat, by omega⟩
    rw [Nat.pow_eq, nearestBits_eq (Nat.pow_pos (by decide)), neg_neg, Int.toNat_natCast, zpow_neg,
      zpow_natCast, div_eq_mul_inv]
    push_cast
    rfl
  · obtain ⟨k, rfl⟩ := Int.eq_ofNat_of_zero_le (Int.not_lt.1 hneg)
    rw [nearestBits_eq one_pos, Int.toNat_natCast, zpow_natCast, Nat.pow_eq]
    push_cast
    rw [div_one]

/-! ## The value of a double -/

/-- **The number that magnitude bits stand for.** -/
def value (bits : ℕ) : ℚ := (significand bits).1 * 2 ^ (significand bits).2

/-- A number of units that is less than two binades, and one at least unless the
unit is the least one, is rounded to itself. -/
theorem nearest_mul_zpow {m : ℕ} {q : ℤ} (hm : 0 < m) (hlt : m < 2 * binadeSize)
    (hq : leastUnit ≤ q) (hmin : q = leastUnit ∨ binadeSize ≤ m) :
    nearest (m * 2 ^ q) = min infiniteBits ((q - leastUnit).toNat * binadeSize + m) := by
  have hpow := two_zpow_pos q
  have hr : 0 < (m * 2 ^ q : ℚ) := mul_pos (Nat.cast_pos.2 hm) hpow
  have hbelow : (m * 2 ^ q : ℚ) < 2 ^ (q + 52 + 1) := by
    have hm : (m : ℚ) < 2 * 2 ^ (52 : ℤ) := by
      rw [← cast_binadeSize]
      exact_mod_cast hlt
    rw [zpow_add_one₀ two_ne_zero, zpow_add₀ two_ne_zero]
    calc (m * 2 ^ q : ℚ) < 2 * 2 ^ (52 : ℤ) * 2 ^ q := mul_lt_mul_of_pos_right hm hpow
      _ = 2 ^ q * 2 ^ (52 : ℤ) * 2 := by ring
  have hunit : unit (m * 2 ^ q : ℚ) = q := by
    unfold unit
    obtain rfl | hmin := hmin
    · have hlog : Int.log 2 (m * 2 ^ leastUnit : ℚ) < leastUnit + 52 + 1 :=
        (Int.lt_zpow_iff_log_lt (by decide) hr).1 (by exact_mod_cast hbelow)
      exact max_eq_left (by omega)
    · have habove : (2 : ℚ) ^ (q + 52) ≤ m * 2 ^ q := by
        rw [zpow_add₀ two_ne_zero, mul_comm, ← cast_binadeSize]
        exact mul_le_mul_of_nonneg_right (Nat.cast_le.2 hmin) hpow.le
      rw [log_eq_of_le_of_lt habove hbelow, add_sub_cancel_right]
      exact max_eq_right hq
  unfold nearest
  rw [if_neg (not_le.2 hr), hunit, mul_div_cancel_right₀ _ hpow.ne', roundHalfEven_natCast]

/-- **A finite double is the one nearest to its value.** -/
theorem nearest_value {bits : ℕ} (hbits : bits < infiniteBits) : nearest (value bits) = bits := by
  have hsize : 0 < binadeSize := Nat.pow_pos two_pos
  unfold value significand
  dsimp only
  split
  · rename_i hbinade
    have hlt : bits < binadeSize := (Nat.div_eq_zero_iff_lt hsize).1 hbinade
    obtain rfl | hpos := Nat.eq_zero_or_pos bits
    · rw [Nat.cast_zero, zero_mul, nearest_zero]
    · rw [nearest_mul_zpow hpos (by omega) le_rfl (.inl rfl), sub_self, Int.toNat_zero,
        Nat.zero_mul, Nat.zero_add]
      exact Nat.min_eq_right hbits.le
  · rename_i hbinade
    obtain ⟨k, hk⟩ := Nat.exists_eq_succ_of_ne_zero hbinade
    have hlt := Nat.mod_lt bits hsize
    rw [nearest_mul_zpow (by omega) (by omega) (by omega) (.inr (Nat.le_add_left ..)), hk,
      Nat.succ_sub_one, add_sub_cancel_left, Int.toNat_natCast]
    have hsplit : k * binadeSize + (bits % binadeSize + binadeSize) = bits := by
      have hdiv := Nat.div_add_mod bits binadeSize
      rw [hk, Nat.mul_succ, Nat.mul_comm] at hdiv
      omega
    rw [hsplit]
    exact Nat.min_eq_right hbits.le

/-! ## Decimals that read back -/

/-- **The exact decimal** has the value of the double. -/
theorem exactDecimal_value (bits : ℕ) :
    ((exactDecimal bits).1 * 10 ^ (exactDecimal bits).2 : ℚ) = value bits := by
  unfold exactDecimal value
  obtain ⟨m, q⟩ := significand bits
  dsimp only
  split
  · rename_i hq
    obtain ⟨k, rfl⟩ : ∃ k : ℕ, q = -k := ⟨(-q).toNat, by omega⟩
    rw [neg_neg, Int.toNat_natCast, Nat.pow_eq, zpow_neg, zpow_neg, zpow_natCast, zpow_natCast]
    push_cast
    rw [show (10 : ℚ) = 5 * 2 by norm_num, mul_pow]
    field_simp
  · rename_i hq
    obtain ⟨k, rfl⟩ := Int.eq_ofNat_of_zero_le (Int.not_lt.1 hq)
    rw [Int.toNat_natCast, Nat.pow_eq, zpow_natCast, zpow_zero, mul_one]
    push_cast
    rfl

/-- A neighbour that is written reads back. -/
theorem decimalBits_of_gridHit {tie : Tie} {bits digits dropped : ℕ} {exponent : ℤ} {n : ℕ} {e : ℤ}
    (h : gridHit tie bits digits exponent dropped = some (n, e)) : decimalBits n e = bits := by
  unfold gridHit at h
  dsimp only at h
  split at h
  · rename_i hhits
    obtain ⟨hlower, hupper⟩ := Bool.and_eq_true_iff.1 hhits
    obtain ⟨rfl, rfl⟩ := Prod.mk.inj (Option.some.inj h)
    split
    · exact beq_iff_eq.1 hupper
    · exact beq_iff_eq.1 hlower
  · split at h
    · rename_i hlower
      obtain ⟨rfl, rfl⟩ := Prod.mk.inj (Option.some.inj h)
      exact beq_iff_eq.1 hlower
    · split at h
      · rename_i hupper
        obtain ⟨rfl, rfl⟩ := Prod.mk.inj (Option.some.inj h)
        exact beq_iff_eq.1 hupper
      · cases h

theorem decimalBits_searchShortest {tie : Tie} {bits digits : ℕ} {exponent : ℤ}
    (h : decimalBits digits exponent = bits) (dropped : ℕ) :
    decimalBits (searchShortest tie bits digits exponent dropped).1
      (searchShortest tie bits digits exponent dropped).2 = bits := by
  induction dropped with
  | zero => exact h
  | succ dropped ih =>
    unfold searchShortest
    cases hhit : gridHit tie bits digits exponent (dropped + 1) with
    | none => exact ih
    | some hit => exact decimalBits_of_gridHit hhit

/-- **The shortest decimal of a finite double is read as that double.** -/
theorem decimalBits_shortest (tie : Tie) {bits : ℕ} (hbits : bits < infiniteBits) :
    decimalBits (shortest tie bits).1 (shortest tie bits).2 = bits := by
  have hexact : decimalBits (exactDecimal bits).1 (exactDecimal bits).2 = bits := by
    rw [decimalBits_eq, exactDecimal_value, nearest_value hbits]
  exact decimalBits_searchShortest hexact _

end Rulebook.Double
