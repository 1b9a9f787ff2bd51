import Rulebook.Proofs.Magnitudes
import Rulebook.Proofs.NearestDouble

/-!
# The order of doubles

Comparing doubles looks at their signs, then at the units of their significands,
then at the significands. All of this is the order of whole numbers: the
magnitude bits count the doubles from zero upwards, so a double *ranks* at its
magnitude, with its sign. Infinities take part in this, and the result that is no
number is compared with nothing.

Hence the comparisons of numbers are transitive and total, which the comparisons
of doubles as such are not. And of two magnitudes the one with more bits has the
larger value.
-/

namespace Rulebook.Double

open Float.Model Float.Model.UnpackedFloat

/-! ## Magnitudes in order -/

section Significands

variable {b b' m m' : ℕ} {e e' : ℤ}

/-- A significand has 53 digits, or the least unit. -/
theorem significand_bounds (h : significand b = (m, e)) :
    m < 2 * binadeSize ∧ leastUnit ≤ e ∧ (e = leastUnit ∨ binadeSize ≤ m) := by
  unfold significand at h
  rw [show binadeSize = 2 ^ 52 from rfl, show leastUnit = -1074 from rfl] at h ⊢
  dsimp only at h
  split at h <;> obtain ⟨rfl, rfl⟩ := Prod.mk.inj h <;> omega

theorem pos_of_significand (h : significand b = (m, e)) : 0 < m ↔ 0 < b := by
  unfold significand at h
  rw [show binadeSize = 2 ^ 52 from rfl] at h
  dsimp only at h
  split at h <;> obtain ⟨rfl, -⟩ := Prod.mk.inj h <;> omega

/-- More bits are a larger unit, or more of the same units. -/
theorem significand_lt (h : significand b = (m, e)) (h' : significand b' = (m', e'))
    (hlt : b < b') : e < e' ∨ e = e' ∧ m < m' := by
  unfold significand at h h'
  rw [show binadeSize = 2 ^ 52 from rfl, show leastUnit = -1074 from rfl] at h h'
  dsimp only at h h'
  split at h <;> split at h' <;> obtain ⟨rfl, rfl⟩ := Prod.mk.inj h <;>
    obtain ⟨rfl, rfl⟩ := Prod.mk.inj h' <;> omega

/-- **Units first, then significands**: this is the order of the bits. -/
theorem compare_significand (h : significand b = (m, e)) (h' : significand b' = (m', e')) :
    (compare e e').then (compare m m') = compare b b' := by
  obtain hlt | rfl | hgt := lt_trichotomy b b'
  · rw [compare_lt_iff_lt.2 hlt]
    obtain he | ⟨rfl, hm⟩ := significand_lt h h' hlt
    · rw [compare_lt_iff_lt.2 he]
      rfl
    · rw [compare_eq_iff_eq.2 rfl, compare_lt_iff_lt.2 hm]
      rfl
  · obtain ⟨rfl, rfl⟩ := Prod.mk.inj (h.symm.trans h')
    rw [compare_eq_iff_eq.2 rfl, compare_eq_iff_eq.2 rfl, compare_eq_iff_eq.2 rfl]
    rfl
  · rw [compare_gt_iff_gt.2 hgt]
    obtain he | ⟨rfl, hm⟩ := significand_lt h' h hgt
    · rw [compare_gt_iff_gt.2 he]
      rfl
    · rw [compare_eq_iff_eq.2 rfl, compare_gt_iff_gt.2 hm]
      rfl

theorem value_zero : value 0 = 0 := zero_mul _

/-- **The larger magnitude has the larger value.** -/
theorem value_strictMono : StrictMono value := by
  intro b b' hlt
  obtain ⟨m, e, h⟩ : ∃ m e, significand b = (m, e) := ⟨_, _, rfl⟩
  obtain ⟨m', e', h'⟩ : ∃ m e, significand b' = (m, e) := ⟨_, _, rfl⟩
  rw [value, value, h, h']
  obtain he | ⟨rfl, hm⟩ := significand_lt h h' hlt
  · obtain ⟨hm, hle, -⟩ := significand_bounds h
    obtain ⟨-, -, hm'⟩ := significand_bounds h'
    have hm' : binadeSize ≤ m' := hm'.resolve_left (by omega)
    calc (m * 2 ^ e : ℚ) < (2 * binadeSize : ℕ) * 2 ^ e :=
          mul_lt_mul_of_pos_right (Nat.cast_lt.2 hm) (two_zpow_pos e)
      _ = binadeSize * 2 ^ (e + 1) := by
          rw [zpow_add_one₀ two_ne_zero]
          push_cast
          ring
      _ ≤ m' * 2 ^ e' := mul_le_mul (Nat.cast_le.2 hm')
          (zpow_le_zpow_right₀ one_le_two he) (two_zpow_pos _).le (Nat.cast_nonneg _)
  · exact mul_lt_mul_of_pos_right (Nat.cast_lt.2 hm) (two_zpow_pos e)

theorem value_nonneg (b : ℕ) : 0 ≤ value b := mul_nonneg (Nat.cast_nonneg _) (two_zpow_pos _).le

end Significands

/-! ## Ranks -/

variable {x y z : Float}

/-- **Where a double ranks**: the number of doubles between it and zero, with its
sign. -/
def rank (x : Float) : ℤ := (sign x).apply (magnitude x)

theorem rank_ofMagnitude {b : ℕ} (h : b ≤ infiniteBits) : rank (ofMagnitude false b) = b := by
  obtain ⟨hmagnitude, hsign⟩ := magnitude_ofMagnitude false h
  rw [rank, sign, hmagnitude, hsign]
  rfl

/-- Two doubles that are finite but not zero compare as they rank. -/
theorem compare_finite {s t : Sign} {a c m n : ℕ} {e f : ℤ} (hm : 0 < m) (hn : 0 < n)
    (ha : significand a = (m, e)) (hc : significand c = (n, f)) :
    UnpackedFloat.compare (.finite s m e hm) (.finite t n f hn) =
      some (compare (s.apply a) (t.apply c)) := by
  have ha₀ := (pos_of_significand ha).1 hm
  have hc₀ := (pos_of_significand hc).1 hn
  have hlex := compare_significand ha hc
  cases s <;> cases t
  · show some ((compare e f).then (compare m n)).swap = some (compare (-(a : ℤ)) (-(c : ℤ)))
    rw [hlex]
    obtain h | rfl | h := lt_trichotomy a c
    · rw [compare_lt_iff_lt.2 h, compare_gt_iff_gt.2 (by omega)]
      rfl
    · rw [compare_eq_iff_eq.2 rfl, compare_eq_iff_eq.2 rfl]
      rfl
    · rw [compare_gt_iff_gt.2 h, compare_lt_iff_lt.2 (by omega)]
      rfl
  · exact congrArg some (compare_lt_iff_lt.2 (show -(a : ℤ) < c by omega)).symm
  · exact congrArg some (compare_gt_iff_gt.2 (show -(c : ℤ) < a by omega)).symm
  · show some ((compare e f).then (compare m n)) = some (compare (a : ℤ) c)
    rw [hlex]
    obtain h | rfl | h := lt_trichotomy a c
    · rw [compare_lt_iff_lt.2 h, compare_lt_iff_lt.2 (Nat.cast_lt.2 h)]
    · rw [compare_eq_iff_eq.2 rfl, compare_eq_iff_eq.2 rfl]
    · rw [compare_gt_iff_gt.2 h, compare_gt_iff_gt.2 (Nat.cast_lt.2 h)]

/-- **Numbers compare as they rank.** -/
theorem compare_unpack (hx : x.isNaN = false) (hy : y.isNaN = false) :
    x.toModel.unpack.compare y.toModel.unpack = some (compare (rank x) (rank y)) := by
  have hnan {z : Float} (hz : z.isNaN = false) : ¬ infiniteBits < magnitude z := by
    rw [← isNaN_iff_lt_magnitude, hz]
    exact Bool.false_ne_true
  have hinf : (0 : ℤ) < infiniteBits := by decide
  unfold rank
  obtain ⟨hx', hux⟩ | ⟨hx₀, hx', m, e, hm, hsig, hux⟩ | ⟨hx', hux⟩ | ⟨hx', -⟩ := unpack_eq x
  rotate_right 1
  · exact absurd hx' (hnan hx)
  all_goals
    obtain ⟨hy', huy⟩ | ⟨hy₀, hy', n, f, hn, hsig', huy⟩ | ⟨hy', huy⟩ | ⟨hy', -⟩ := unpack_eq y
    rotate_right 1
    · exact absurd hy' (hnan hy)
    all_goals
      rw [hux, huy]
      generalize sign x = s, sign y = t
      generalize magnitude x = a, magnitude y = c at *
      first
        | exact compare_finite hm hn hsig hsig'
        | -- of two zeros or infinities the signs decide
          cases s <;> cases t <;> refine congrArg some (Eq.symm ?_) <;> first
            | exact compare_lt_iff_lt.2 (by simp only [Sign.apply]; omega)
            | exact compare_gt_iff_gt.2 (by simp only [Sign.apply]; omega)
            | exact compare_eq_iff_eq.2 (by simp only [Sign.apply]; omega)

theorem atMost_eq (x y : Float) :
    Quantity.atMost x y = (x.toModel.unpack.compare y.toModel.unpack).any (·.isLE) := by
  show decide (decide (x.toModel.unpack.le y.toModel.unpack = true) = true) = _
  rw [Bool.decide_eq_true, Bool.decide_eq_true]
  rfl

theorem less_eq (x y : Float) :
    Quantity.less x y = (x.toModel.unpack.compare y.toModel.unpack == some .lt) := by
  show decide (decide (x.toModel.unpack.lt y.toModel.unpack = true) = true) = _
  rw [Bool.decide_eq_true, Bool.decide_eq_true]
  rfl

theorem atMost_iff (hx : x.isNaN = false) (hy : y.isNaN = false) :
    Quantity.atMost x y = true ↔ rank x ≤ rank y := by
  rw [atMost_eq, compare_unpack hx hy]
  exact Std.isLE_compare

theorem less_iff (hx : x.isNaN = false) (hy : y.isNaN = false) :
    Quantity.less x y = true ↔ rank x < rank y := by
  rw [less_eq, compare_unpack hx hy, beq_iff_eq, Option.some_inj]
  exact compare_lt_iff_lt

theorem equals_iff (hx : x.isNaN = false) (hy : y.isNaN = false) :
    Quantity.equals x y = true ↔ rank x = rank y := by
  show (x.toModel.unpack.compare y.toModel.unpack == some .eq) = true ↔ _
  rw [compare_unpack hx hy, beq_iff_eq, Option.some_inj]
  exact compare_eq_iff_eq

/-- What is no number compares with nothing. -/
theorem compare_notANumber (u : UnpackedFloat) : u.compare .notANumber = none := by
  cases u with
  | infinity s | finite s => cases s <;> rfl
  | notANumber | zero => rfl

theorem isNaN_of_atMost (h : Quantity.atMost x y = true) : x.isNaN = false ∧ y.isNaN = false := by
  rw [atMost_eq] at h
  constructor
  · refine Bool.eq_false_iff.2 fun hx => ?_
    rw [show x.toModel.unpack = .notANumber from isNaN_iff.1 hx] at h
    cases h
  · refine Bool.eq_false_iff.2 fun hy => ?_
    rw [show y.toModel.unpack = .notANumber from isNaN_iff.1 hy, compare_notANumber] at h
    cases h

/-- **At most is transitive.** -/
theorem atMost_trans (hxy : Quantity.atMost x y = true) (hyz : Quantity.atMost y z = true) :
    Quantity.atMost x z = true := by
  obtain ⟨hx, hy⟩ := isNaN_of_atMost hxy
  obtain ⟨-, hz⟩ := isNaN_of_atMost hyz
  rw [atMost_iff hx hy] at hxy
  rw [atMost_iff hy hz] at hyz
  exact (atMost_iff hx hz).2 (hxy.trans hyz)

/-- **Of two numbers one is at most the other.** -/
theorem atMost_of_not_atMost (hx : x.isNaN = false) (hy : y.isNaN = false)
    (h : Quantity.atMost y x = false) : Quantity.atMost x y = true := by
  rw [atMost_iff hx hy]
  have hlt := mt (atMost_iff hy hx).2 (Bool.eq_false_iff.1 h)
  exact (not_le.1 hlt).le

end Rulebook.Double
