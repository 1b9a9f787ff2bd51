import Rulebook.Proofs.DoubleOrder
import Rulebook.Proofs.Doubles

/-!
# Whole numbers as doubles

A result is rounded only if it has to be: a sum or a difference that is the value
of a double is computed as this double, whatever the exponents of the operands.
Whole numbers below `2 ^ 53` are values of doubles. So levels, counts and
thresholds, which are below `2 ^ 32`, are added, subtracted and compared in
doubles just as natural numbers are, and a level that looks up a position finds
its own.
-/

namespace Rulebook.Double

open Float.Model Float.Model.UnpackedFloat

variable {b c d m : ℕ} {e : ℤ}

/-! ## Rounding what needs no rounding -/

/-- Digits that are zero add to the length of a number. -/
theorem log2_mul_two_pow (hm : 0 < m) (d : ℕ) : (m * 2 ^ d).log2 = m.log2 + d := by
  induction d with
  | zero => rw [pow_zero, Nat.mul_one, Nat.add_zero]
  | succ d ih =>
    have hpos : m * 2 ^ d ≠ 0 := (Nat.mul_pos hm (Nat.two_pow_pos d)).ne'
    rw [pow_succ, ← Nat.mul_assoc, Nat.mul_comm _ 2, Nat.log2_two_mul hpos, ih, Nat.add_assoc]

/-- The exponent that rounding aims at is the unit of a significand, however the
number is written. -/
theorem targetExponent_significand (h : significand b = (m, e)) (hm : 0 < m) {n : ℕ} {k : ℤ}
    (hlog : (n.log2 : ℤ) + k = m.log2 + e) :
    Format.binary64.targetExponent (totalExponent n k) = e := by
  obtain ⟨hlt, hle, hnormal⟩ := significand_bounds h
  have hlog' : m.log2 < 53 := (Nat.log2_lt hm.ne').2 hlt
  have hnormal : e = leastUnit ∨ 52 ≤ m.log2 :=
    hnormal.imp_right fun hm' => (Nat.le_log2 hm.ne').2 hm'
  have hleast : leastUnit = -1074 := rfl
  show max (((n.log2 : ℤ) + 1 + k) - 53) (-1074) = e
  omega

/-- **Shifting out zeros** loses nothing. -/
theorem shiftRight_mul_two_pow (m d : ℕ) :
    (⟨m * 2 ^ d, false, false⟩ : ExtendedMantissa) >>> d = ⟨m, false, false⟩ := by
  induction d generalizing m with
  | zero => rw [pow_zero, Nat.mul_one]; rfl
  | succ d ih =>
    show ExtendedMantissa.shiftRightOne
      ((⟨m * 2 ^ (d + 1), false, false⟩ : ExtendedMantissa) >>> d) = _
    rw [pow_succ', ← Nat.mul_assoc, ih]
    simp [ExtendedMantissa.shiftRightOne]

/-- **Rounding a significand**, followed by any number of zeros, gives it back. -/
theorem roundWithAccuracy_significand (h : significand b = (m, e)) (hm : 0 < m) (s : Sign)
    (d : ℕ) : roundWithAccuracy Format.binary64 s (m * 2 ^ d) (e - d) .exact =
      .finite s m e hm := by
  have hfirst : shiftToTargetExponent Format.binary64 (m * 2 ^ d) (e - d) .exact =
      (⟨m, false, false⟩, e) := by
    have htarget : Format.binary64.targetExponent (totalExponent (m * 2 ^ d) (e - d)) = e :=
      targetExponent_significand h hm (by rw [log2_mul_two_pow hm]; push_cast; ring)
    unfold shiftToTargetExponent shiftToExponent
    simp only [htarget, sub_sub_cancel, Int.toNat_natCast]
    exact congrArg₂ Prod.mk (shiftRight_mul_two_pow m d) (sub_add_cancel e d)
  have hsecond : shiftToTargetExponent Format.binary64 m e .exact = (⟨m, false, false⟩, e) := by
    have htarget : Format.binary64.targetExponent (totalExponent m e) = e :=
      targetExponent_significand h hm rfl
    unfold shiftToTargetExponent shiftToExponent
    simp only [htarget, sub_self, Int.toNat_zero]
    exact congrArg₂ Prod.mk rfl (add_zero e)
  have hrounded : ExtendedMantissa.roundedMantissa ⟨m, false, false⟩ = m := rfl
  unfold roundWithAccuracy
  simp only [hfirst, hrounded, hsecond]
  exact dif_neg hm.ne'

/-- The same number with a smaller exponent has more digits. -/
theorem eq_mul_two_pow {n m d : ℕ} {k : ℤ} (h : (n * 2 ^ k : ℚ) = m * 2 ^ (k + d)) :
    n = m * 2 ^ d := by
  rw [zpow_add₀ two_ne_zero, zpow_natCast, mul_comm ((2 : ℚ) ^ k), ← mul_assoc] at h
  have hcast : (n : ℚ) = m * 2 ^ d := mul_right_cancel₀ (two_zpow_pos k).ne' h
  exact_mod_cast hcast

/-- **Rounding the value of a double** gives this double. -/
theorem round_significand (h : significand b = (m, e)) (hm : 0 < m) (s : Sign) {n : ℕ} {k : ℤ}
    (hvalue : (n * 2 ^ k : ℚ) = value b) :
    UnpackedFloat.round Format.binary64 s n k = .finite s m e hm := by
  rw [value, h] at hvalue
  -- written with the larger of the two exponents, the number loses digits to a power of two
  obtain ⟨d, rfl | rfl⟩ : ∃ d : ℕ, e = k + d ∨ k = e + d := by
    obtain hle | hle := le_total k e
    · exact ⟨(e - k).toNat, .inl (by omega)⟩
    · exact ⟨(k - e).toNat, .inr (by omega)⟩
  · obtain rfl : n = m * 2 ^ d := eq_mul_two_pow hvalue
    have htarget : Format.binary64.targetExponent (totalExponent (m * 2 ^ d) k) = k + d :=
      targetExponent_significand h hm (by rw [log2_mul_two_pow hm]; push_cast; ring)
    have hzero : (k - (k + d)).toNat = 0 := by omega
    unfold UnpackedFloat.round decreaseExponent
    simp only [htarget, hzero, Nat.shiftLeft_zero, Nat.cast_zero, sub_zero]
    have hround := roundWithAccuracy_significand h hm s d
    rwa [add_sub_cancel_right] at hround
  · have hm' : m = n * 2 ^ d := eq_mul_two_pow hvalue.symm
    have hn : 0 < n := Nat.pos_of_mul_pos_right (hm' ▸ hm)
    have htarget : Format.binary64.targetExponent (totalExponent n (e + d)) = e :=
      targetExponent_significand h hm (by rw [hm', log2_mul_two_pow hn]; push_cast; ring)
    unfold UnpackedFloat.round decreaseExponent
    simp only [htarget, add_sub_cancel_left, Int.toNat_natCast, Nat.shiftLeft_eq,
      add_sub_cancel_right, ← hm']
    have hround := roundWithAccuracy_significand h hm s 0
    rwa [pow_zero, Nat.mul_one, Nat.cast_zero, sub_zero] at hround

/-! ## Sums and differences of magnitudes -/

/-- A double is determined by the number that it packs. -/
theorem ofModel_pack_eq {x : Float} {u : UnpackedFloat} (h : u = x.toModel.unpack) :
    Float.ofModel (.pack u) = x :=
  h ▸ Float.ofBits_toBits x

/-- **A magnitude is zero, or it packs its significand.** -/
theorem magnitude_cases (hb : b < infiniteBits) :
    (b = 0 ∧ (ofMagnitude false b).toModel.unpack = .zero .positive) ∨
    ∃ m e hm, significand b = (m, e) ∧ value b = m * 2 ^ e ∧
      (ofMagnitude false b).toModel.unpack = .finite .positive m e hm := by
  obtain ⟨hmagnitude, hnegative⟩ := magnitude_ofMagnitude false hb.le
  have hsign : sign (ofMagnitude false b) = .positive := by rw [sign, hnegative]; rfl
  have hcases := unpack_eq (ofMagnitude false b)
  rw [hmagnitude, hsign] at hcases
  obtain hzero | ⟨-, -, m, e, hm, hsig, heq⟩ | ⟨hinf, -⟩ | ⟨hinf, -⟩ := hcases
  · exact .inl hzero
  · exact .inr ⟨m, e, hm, hsig, by rw [value, hsig], heq⟩
  · omega
  · omega

/-- Normalizing the value of a magnitude gives this magnitude. -/
theorem normalize_value (hb : b < infiniteBits) {n : ℤ} {k : ℤ}
    (hvalue : (n * 2 ^ k : ℚ) = value b) :
    UnpackedFloat.normalize Format.binary64 n k .positive =
      (ofMagnitude false b).toModel.unpack := by
  have hpow := two_zpow_pos k
  obtain ⟨n, rfl⟩ : ∃ j : ℕ, n = j := by
    refine Int.eq_ofNat_of_zero_le ((Int.cast_nonneg_iff (R := ℚ)).1 ?_)
    exact nonneg_of_mul_nonneg_left (hvalue ▸ value_nonneg b) hpow
  obtain ⟨rfl, hub⟩ | ⟨m, e, hm, hsig, -, hub⟩ := magnitude_cases hb
  · rw [value_zero, mul_eq_zero, or_iff_left hpow.ne'] at hvalue
    rw [Int.cast_eq_zero.1 hvalue, hub]
    rfl
  · have hpos := (pos_of_significand hsig).1 hm
    have hn : (0 : ℤ) < n := by
      rw [← Int.cast_pos (R := ℚ)]
      exact pos_of_mul_pos_left (hvalue ▸ value_zero ▸ value_strictMono hpos) hpow.le
    unfold UnpackedFloat.normalize
    rw [Int.compare_eq_gt.2 hn, hub]
    exact round_significand hsig hm .positive hvalue

/-- Writing a number with a smaller exponent does not change it. -/
theorem shiftLeft_mul_zpow (m : ℕ) {e k : ℤ} (h : k ≤ e) :
    ((m <<< (e - k).toNat : ℕ) * 2 ^ k : ℚ) = m * 2 ^ e := by
  obtain ⟨d, rfl⟩ := Int.le.dest h
  rw [add_sub_cancel_left, Int.toNat_natCast, Nat.shiftLeft_eq, zpow_add₀ two_ne_zero, zpow_natCast]
  push_cast
  ring

variable {c d : ℕ}

/-- **A sum of magnitudes that is a magnitude** is computed without rounding. -/
theorem add_ofMagnitude (hb : b < infiniteBits) (hc : c < infiniteBits) (hd : d < infiniteBits)
    (h : value b + value c = value d) :
    ofMagnitude false b + ofMagnitude false c = ofMagnitude false d := by
  suffices hadd : UnpackedFloat.add Format.binary64 (ofMagnitude false b).toModel.unpack
      (ofMagnitude false c).toModel.unpack = (ofMagnitude false d).toModel.unpack from
    ofModel_pack_eq hadd
  obtain ⟨rfl, hub⟩ | ⟨m, e, hm, -, hvalue, hub⟩ := magnitude_cases hb
  · rw [value_zero, zero_add] at h
    obtain rfl := value_strictMono.injective h
    rw [hub]
    obtain ⟨-, huc⟩ | ⟨m, e, hm, -, -, huc⟩ := magnitude_cases hc <;> rw [huc] <;> rfl
  obtain ⟨rfl, huc⟩ | ⟨m', e', hm', -, hvalue', huc⟩ := magnitude_cases hc
  · rw [value_zero, add_zero] at h
    obtain rfl := value_strictMono.injective h
    rw [hub, huc]
    rfl
  · rw [hub, huc]
    refine normalize_value hd ?_
    show (((m <<< (e - min e e').toNat : ℕ) + (m' <<< (e' - min e e').toNat : ℕ) : ℤ) : ℚ) * _ = _
    rw [← h, hvalue, hvalue', Int.cast_add, add_mul, Int.cast_natCast, Int.cast_natCast,
      shiftLeft_mul_zpow m (min_le_left e e'), shiftLeft_mul_zpow m' (min_le_right e e')]

/-- **A difference of magnitudes that is a magnitude** is computed without rounding. -/
theorem sub_ofMagnitude (hb : b < infiniteBits) (hc : c < infiniteBits) (hd : d < infiniteBits)
    (h : value b = value c + value d) :
    ofMagnitude false b - ofMagnitude false c = ofMagnitude false d := by
  suffices hsub : UnpackedFloat.sub Format.binary64 (ofMagnitude false b).toModel.unpack
      (ofMagnitude false c).toModel.unpack = (ofMagnitude false d).toModel.unpack from
    ofModel_pack_eq hsub
  obtain ⟨rfl, huc⟩ | ⟨m', e', hm', -, hvalue', huc⟩ := magnitude_cases hc
  · rw [value_zero, zero_add] at h
    obtain rfl := value_strictMono.injective h
    rw [huc]
    obtain ⟨-, hub⟩ | ⟨m, e, hm, -, -, hub⟩ := magnitude_cases hb <;> rw [hub] <;> rfl
  obtain ⟨rfl, -⟩ | ⟨m, e, hm, -, hvalue, hub⟩ := magnitude_cases hb
  · have hpos : 0 < value c := by
      rw [hvalue']
      exact mul_pos (Nat.cast_pos.2 hm') (two_zpow_pos e')
    rw [value_zero] at h
    exact absurd h (add_pos_of_pos_of_nonneg hpos (value_nonneg d)).ne
  · rw [hub, huc]
    refine normalize_value hd ?_
    show (((m <<< (e - min e e').toNat : ℕ) - (m' <<< (e' - min e e').toNat : ℕ) : ℤ) : ℚ) * _ = _
    rw [Int.cast_sub, sub_mul, Int.cast_natCast, Int.cast_natCast,
      shiftLeft_mul_zpow m (min_le_left e e'), shiftLeft_mul_zpow m' (min_le_right e e')]
    rw [hvalue, hvalue'] at h
    exact sub_eq_of_eq_add' h

/-! ## Whole numbers -/

variable {n k : ℕ}

/-- The bits of a significand with all its digits. -/
theorem significand_bits (hle : binadeSize ≤ m) (hlt : m < 2 * binadeSize) (k : ℕ) :
    significand (k * binadeSize + m) = (m, leastUnit + k) := by
  have hdiv : (k * binadeSize + m) / binadeSize = k + 1 := by
    rw [show binadeSize = 2 ^ 52 from rfl] at hle hlt ⊢
    omega
  have hmod : (k * binadeSize + m) % binadeSize + binadeSize = m := by
    rw [show binadeSize = 2 ^ 52 from rfl] at hle hlt ⊢
    omega
  unfold significand
  simp only [hdiv, hmod]
  rw [if_neg (Nat.succ_ne_zero k), Nat.succ_sub_one]

/-- **A whole number with at most 53 binary digits is the value of a double.** -/
theorem exists_value_eq (hn : n < 2 ^ 53) : ∃ b, b < infiniteBits ∧ value b = n := by
  obtain rfl | hpos := Nat.eq_zero_or_pos n
  · exact ⟨0, by decide, value_zero⟩
  have hlog : n.log2 ≤ 52 := Nat.le_of_lt_succ ((Nat.log2_lt hpos.ne').2 hn)
  obtain ⟨j, hj⟩ : ∃ j, n.log2 + j = 52 := ⟨52 - n.log2, by omega⟩
  have hle : binadeSize ≤ n * 2 ^ j := by
    calc binadeSize = 2 ^ n.log2 * 2 ^ j := by rw [← pow_add, hj]; rfl
      _ ≤ n * 2 ^ j := Nat.mul_le_mul_right _ (Nat.log2_self_le hpos.ne')
  have hlt : n * 2 ^ j < 2 * binadeSize := by
    calc n * 2 ^ j < 2 ^ (n.log2 + 1) * 2 ^ j :=
          Nat.mul_lt_mul_of_pos_right Nat.lt_log2_self (Nat.two_pow_pos j)
      _ = 2 ^ (52 + 1) := by rw [← pow_add, ← hj]; congr 1; omega
      _ = 2 * binadeSize := rfl
  refine ⟨(1074 - j) * binadeSize + n * 2 ^ j, ?_, ?_⟩
  · rw [show infiniteBits = 2047 * binadeSize from rfl]
    have := Nat.mul_le_mul_right binadeSize (Nat.sub_le 1074 j)
    omega
  · rw [value, significand_bits hle hlt, show leastUnit + ((1074 - j : ℕ) : ℤ) = -j by
      rw [show leastUnit = -1074 from rfl]; omega, zpow_neg, zpow_natCast]
    push_cast
    rw [mul_inv_cancel_right₀ (pow_ne_zero _ two_ne_zero)]

/-- **Counts are exact** below `2 ^ 53`. -/
theorem exists_ofWhole_eq (hn : n < 2 ^ 53) :
    ∃ b, b < infiniteBits ∧ value b = n ∧ ofWhole n = ofMagnitude false b := by
  obtain ⟨b, hb, hvalue⟩ := exists_value_eq hn
  have hround : UnpackedFloat.normalize Format.binary64 (n.toUInt64.toNat : ℤ) 0 .positive =
      (ofMagnitude false b).toModel.unpack := by
    refine normalize_value hb ?_
    rw [show n.toUInt64.toNat = n from Nat.mod_eq_of_lt (hn.trans (by decide)), zpow_zero, mul_one,
      hvalue]
    rfl
  exact ⟨b, hb, hvalue, ofModel_pack_eq hround⟩

/-- **Whole numbers add up exactly.** -/
theorem ofWhole_add (h : n + k < 2 ^ 53) : ofWhole n + ofWhole k = ofWhole (n + k) := by
  obtain ⟨b, hb, hn, heqn⟩ := exists_ofWhole_eq (Nat.lt_of_le_of_lt (Nat.le_add_right n k) h)
  obtain ⟨c, hc, hk, heqk⟩ := exists_ofWhole_eq (Nat.lt_of_le_of_lt (Nat.le_add_left k n) h)
  obtain ⟨d, hd, hsum, heq⟩ := exists_ofWhole_eq h
  rw [heqn, heqk, heq, add_ofMagnitude hb hc hd (by rw [hn, hk, hsum, Nat.cast_add])]

/-- **A difference of whole numbers** that is not negative is exact. -/
theorem ofWhole_sub (hle : k ≤ n) (h : n < 2 ^ 53) : ofWhole n - ofWhole k = ofWhole (n - k) := by
  obtain ⟨b, hb, hn, heqn⟩ := exists_ofWhole_eq h
  obtain ⟨c, hc, hk, heqk⟩ := exists_ofWhole_eq (Nat.lt_of_le_of_lt hle h)
  obtain ⟨d, hd, hdiff, heq⟩ := exists_ofWhole_eq (Nat.lt_of_le_of_lt (Nat.sub_le n k) h)
  rw [heqn, heqk, heq, sub_ofMagnitude hb hc hd (by rw [hn, hk, hdiff, Nat.cast_sub hle]; ring)]

/-- A whole number ranks at the magnitude whose value it is. -/
theorem exists_rank_ofWhole (hn : n < 2 ^ 53) : ∃ b : ℕ, value b = n ∧ rank (ofWhole n) = b := by
  obtain ⟨b, hb, hvalue, heq⟩ := exists_ofWhole_eq hn
  exact ⟨b, hvalue, heq ▸ rank_ofMagnitude hb.le⟩

theorem rank_ofWhole_le (hn : n < 2 ^ 53) (hk : k < 2 ^ 53) :
    rank (ofWhole n) ≤ rank (ofWhole k) ↔ n ≤ k := by
  obtain ⟨b, hb, hrank⟩ := exists_rank_ofWhole hn
  obtain ⟨c, hc, hrank'⟩ := exists_rank_ofWhole hk
  rw [hrank, hrank', Nat.cast_le, ← value_strictMono.le_iff_le, hb, hc, Nat.cast_le]

theorem atMost_ofWhole (hn : n < 2 ^ 53) (hk : k < 2 ^ 53) :
    Quantity.atMost (ofWhole n) (ofWhole k) = true ↔ n ≤ k := by
  rw [atMost_iff (isNaN_ofWhole n) (isNaN_ofWhole k), rank_ofWhole_le hn hk]

theorem less_ofWhole (hn : n < 2 ^ 53) (hk : k < 2 ^ 53) :
    Quantity.less (ofWhole n) (ofWhole k) = true ↔ n < k := by
  rw [less_iff (isNaN_ofWhole n) (isNaN_ofWhole k), ← not_le, rank_ofWhole_le hk hn, not_le]

theorem isFinite_ofWhole (hn : n < 2 ^ 53) : (ofWhole n).isFinite = true := by
  obtain ⟨b, hb, -, heq⟩ := exists_ofWhole_eq hn
  rw [heq]
  exact isFinite_iff.2 ((magnitude_ofMagnitude false hb.le).1.trans_lt hb)

/-- **The smaller of two whole numbers.** -/
theorem least_ofWhole (hn : n < 2 ^ 53) (hk : k < 2 ^ 53) :
    Quantity.least [ofWhole n, ofWhole k] = ofWhole (min n k) := by
  have hfirst : smaller infinity (ofWhole n) = ofWhole n := by
    have hless : Quantity.less infinity (ofWhole n) = false := by
      obtain ⟨b, hb, -, heq⟩ := exists_ofWhole_eq hn
      have hnan : infinity.isNaN = false := by decide
      rw [← Bool.not_eq_true, less_iff hnan (isNaN_ofWhole n), infinity, heq,
        rank_ofMagnitude le_rfl, rank_ofMagnitude hb.le]
      omega
    unfold smaller
    rw [show decide (infinity < ofWhole n) = false from hless, isNaN_ofWhole]
    rfl
  have hsecond : smaller (ofWhole n) (ofWhole k) = ofWhole (min n k) := by
    have hless : decide (ofWhole n < ofWhole k) = decide (n < k) :=
      Bool.eq_iff_iff.2 ((less_ofWhole hn hk).trans decide_eq_true_iff.symm)
    unfold smaller
    rw [hless, isNaN_ofWhole, Bool.or_false]
    by_cases hlt : n < k
    · rw [decide_eq_true hlt, if_pos rfl, min_eq_left hlt.le]
    · rw [decide_eq_false hlt, if_neg Bool.false_ne_true, min_eq_right (not_lt.1 hlt)]
  show smaller (smaller infinity (ofWhole n)) (ofWhole k) = _
  rw [hfirst, hsecond]

/-! ## Whole doubles -/

variable {x : Float}

/-- The whole magnitude of a double with a whole value is this value. -/
theorem wholeMagnitude_eq (h : value (magnitude x) = n) : wholeMagnitude x = n := by
  obtain ⟨m, e, hsig⟩ : ∃ m e, significand (magnitude x) = (m, e) := ⟨_, _, rfl⟩
  rw [value, hsig] at h
  unfold wholeMagnitude
  simp only [hsig, Nat.pow_eq]
  split
  · rename_i he
    obtain ⟨d, rfl⟩ := Int.eq_ofNat_of_zero_le he
    rw [zpow_natCast] at h
    exact_mod_cast h
  · rename_i he
    obtain ⟨d, rfl⟩ : ∃ d : ℕ, e = -d := ⟨(-e).toNat, by omega⟩
    rw [zpow_neg, zpow_natCast, ← div_eq_mul_inv, div_eq_iff (pow_ne_zero d two_ne_zero)] at h
    have hm : m = n * 2 ^ d := by exact_mod_cast h
    rw [neg_neg, Int.toNat_natCast, hm, Nat.mul_div_cancel _ (Nat.two_pow_pos d)]

/-- **Which doubles are whole**: those whose value is. -/
theorem isWhole_iff (hx : x.isFinite = true) :
    isWhole x = true ↔ ∃ n : ℕ, value (magnitude x) = n := by
  obtain ⟨m, e, h⟩ : ∃ m e, significand (magnitude x) = (m, e) := ⟨_, _, rfl⟩
  have hfinite := isFinite_iff.1 hx
  unfold isWhole value
  simp only [h, hfinite, decide_true, Bool.true_and, Nat.pow_eq]
  by_cases he : 0 ≤ e
  · obtain ⟨d, rfl⟩ := Int.eq_ofNat_of_zero_le he
    rw [zpow_natCast]
    simp only [he, decide_true, Bool.true_or]
    exact iff_of_true trivial ⟨m * 2 ^ d, by push_cast; rfl⟩
  · obtain ⟨d, rfl⟩ : ∃ d : ℕ, e = -d := ⟨(-e).toNat, by omega⟩
    have hpow : (2 : ℚ) ^ d ≠ 0 := pow_ne_zero d two_ne_zero
    simp only [he, decide_false, Bool.false_or, neg_neg, Int.toNat_natCast, decide_eq_true_eq]
    rw [zpow_neg, zpow_natCast, ← div_eq_mul_inv]
    constructor
    · intro hmod
      refine ⟨m / 2 ^ d, (div_eq_iff hpow).2 ?_⟩
      exact_mod_cast (Nat.div_mul_cancel (Nat.dvd_of_mod_eq_zero hmod)).symm
    · rintro ⟨n, hn⟩
      rw [div_eq_iff hpow] at hn
      have hm : m = n * 2 ^ d := by exact_mod_cast hn
      rw [hm, Nat.mul_mod_left]

/-- **A whole number stands for its position** in a list. -/
theorem index?_ofWhole (hn : n < 2 ^ 53) : Quantity.index? (ofWhole n) = some n := by
  obtain ⟨b, hb, hvalue, heq⟩ := exists_ofWhole_eq hn
  have hmagnitude : value (magnitude (ofWhole n)) = n := by
    rw [heq, (magnitude_ofMagnitude false hb.le).1, hvalue]
  have hpositive : Quantity.atMost (ofWhole 0) (ofWhole n) = true :=
    (atMost_ofWhole (by decide) hn).2 (Nat.zero_le n)
  show (if isWhole (ofWhole n) && Quantity.atMost (ofWhole 0) (ofWhole n) then
    some (wholeMagnitude (ofWhole n)) else none) = some n
  rw [(isWhole_iff (isFinite_ofWhole hn)).2 ⟨n, hmagnitude⟩, hpositive,
    wholeMagnitude_eq hmagnitude]
  rfl

/-! ## Products -/

/-- The product with one is computed exactly. -/
theorem mul_ofWhole_one (hx : x.isFinite = true) : x * ofWhole 1 = x := by
  have hone : (ofWhole 1).toModel.unpack = .finite .positive (2 ^ 52) (-52) (by decide) := rfl
  suffices hmul : UnpackedFloat.mul Format.binary64 x.toModel.unpack (ofWhole 1).toModel.unpack =
      x.toModel.unpack from ofModel_pack_eq hmul
  have hfinite := isFinite_iff.1 hx
  rw [hone]
  obtain ⟨-, heq⟩ | ⟨-, -, m, e, hm, h, heq⟩ | ⟨hinf, -⟩ | ⟨hinf, -⟩ := unpack_eq x
  · rw [heq]
    cases sign x <;> rfl
  · rw [heq]
    have hround := roundWithAccuracy_significand h hm (sign x) 52
    refine Eq.trans ?_ hround
    cases sign x <;> rfl
  · omega
  · omega

/-- Only one equals one. -/
theorem eq_ofWhole_one (h : (x == ofWhole 1) = true) : x = ofWhole 1 := by
  obtain ⟨-, -, h | ⟨-, h⟩ | ⟨-, h⟩⟩ := Float.beq_iff_ne_nan_and_eq.1 h
  · exact h
  · exact absurd (congrArg Float.toBits h) (by decide)
  · exact absurd (congrArg Float.toBits h) (by decide)

/-- The product of a finite number and zero is zero, of one sign or the other. -/
theorem mul_beq_zero (hx : x.isFinite = true) {y : Float} (hy : (y == ofWhole 0) = true) :
    (x * y == ofWhole 0) = true := by
  have hzero : ∃ s, y.toModel.unpack = .zero s := by
    obtain ⟨-, -, rfl | ⟨rfl, -⟩ | ⟨rfl, -⟩⟩ := Float.beq_iff_ne_nan_and_eq.1 hy
    · exact ⟨.positive, rfl⟩
    · exact ⟨.positive, rfl⟩
    · exact ⟨.negative, rfl⟩
  obtain ⟨s, hs⟩ := hzero
  have hmul : ∃ t, UnpackedFloat.mul Format.binary64 x.toModel.unpack y.toModel.unpack =
      .zero t := by
    have hfinite := isFinite_iff.1 hx
    rw [hs]
    obtain ⟨-, heq⟩ | ⟨-, -, m, e, hm, h, heq⟩ | ⟨hinf, -⟩ | ⟨hinf, -⟩ := unpack_eq x
    · exact ⟨_, by rw [heq]; rfl⟩
    · exact ⟨_, by rw [heq]; rfl⟩
    · omega
    · omega
  obtain ⟨t, ht⟩ := hmul
  show (Float.ofModel (.pack (UnpackedFloat.mul _ _ _)) == ofWhole 0) = true
  rw [ht]
  cases t <;> rfl

end Rulebook.Double
