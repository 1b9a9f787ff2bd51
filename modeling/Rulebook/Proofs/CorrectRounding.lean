import Rulebook.Proofs.WholeDoubles

/-!
# Correct rounding

Most numbers lie between two doubles. Rounding is correct if it takes the one that is
nearer, and of two that are equally near the one whose last bit is zero. This says which
double a number is rounded to, and nothing of how it is found.

For this the magnitudes have no upper end: they go on beyond the largest finite one as if
there were more exponents. A number is too large for a double if the magnitude it is
rounded to is one of these. The bits that are computed for a number are those of the
magnitude that it is correctly rounded to, or those of infinity if that is not finite.
-/

namespace Rulebook.Double

variable {r : ℚ} {b c k : ℕ}

/-- **Whether a number is rounded to a magnitude**: no other one is nearer, and if another
one is as near, this one is even. -/
structure RoundsTo (r : ℚ) (b : ℕ) : Prop where
  nearest : ∀ c, |value b - r| ≤ |value c - r|
  even : ∀ c, c ≠ b → |value c - r| = |value b - r| → b % 2 = 0

/-! ## Neighbours -/

theorem distance_below (hc : c ≤ k) (hk : value k ≤ r) : |value c - r| = r - value c := by
  have hvalue : value c ≤ value k := value_strictMono.monotone hc
  rw [abs_of_nonpos (by linarith), neg_sub]

theorem distance_above (hc : k ≤ c) (hk : r ≤ value k) : |value c - r| = value c - r := by
  have hvalue : value k ≤ value c := value_strictMono.monotone hc
  exact abs_of_nonneg (by linarith)

/-- **The lower one of two neighbours** is taken if it is nearer, or as near and even. -/
theorem roundsTo_lower (hlower : value k ≤ r) (hupper : r < value (k + 1))
    (h : r - value k < value (k + 1) - r ∨ r - value k = value (k + 1) - r ∧ k % 2 = 0) :
    RoundsTo r k := by
  have hself : |value k - r| = r - value k := distance_below le_rfl hlower
  have hle : r - value k ≤ value (k + 1) - r := h.elim le_of_lt (fun h => h.1.le)
  refine ⟨fun c => ?_, fun c hne heq => ?_⟩
  · obtain hc | hc := Nat.lt_or_ge k c
    · rw [hself, distance_above hc hupper.le]
      exact hle.trans (sub_le_sub_right (value_strictMono.monotone hc) r)
    · rw [hself, distance_below hc hlower]
      exact sub_le_sub_left (value_strictMono.monotone hc) r
  · rw [hself] at heq
    obtain hc | hc := Nat.lt_or_ge k c
    · rw [distance_above hc hupper.le] at heq
      have hvalue : value (k + 1) ≤ value c := value_strictMono.monotone hc
      exact (h.resolve_left (by linarith)).2
    · have hvalue : value c < value k := value_strictMono (hc.lt_of_ne hne)
      rw [distance_below hc hlower] at heq
      linarith

/-- **The upper one of two neighbours** is taken if it is nearer, or as near and even. -/
theorem roundsTo_upper (hlower : value k ≤ r) (hupper : r < value (k + 1))
    (h : value (k + 1) - r < r - value k ∨
      value (k + 1) - r = r - value k ∧ (k + 1) % 2 = 0) : RoundsTo r (k + 1) := by
  have hself : |value (k + 1) - r| = value (k + 1) - r := distance_above le_rfl hupper.le
  have hle : value (k + 1) - r ≤ r - value k := h.elim le_of_lt (fun h => h.1.le)
  refine ⟨fun c => ?_, fun c hne heq => ?_⟩
  · obtain hc | hc := Nat.lt_or_ge k c
    · rw [hself, distance_above hc hupper.le]
      exact sub_le_sub_right (value_strictMono.monotone hc) r
    · rw [hself, distance_below hc hlower]
      exact hle.trans (sub_le_sub_left (value_strictMono.monotone hc) r)
  · rw [hself] at heq
    obtain hc | hc := Nat.lt_or_ge k c
    · have hvalue : value (k + 1) < value c := value_strictMono (Nat.lt_of_le_of_ne hc hne.symm)
      rw [distance_above hc hupper.le] at heq
      linarith
    · have hvalue : value c ≤ value k := value_strictMono.monotone hc
      rw [distance_below hc hlower] at heq
      exact (h.resolve_left (by linarith)).2

/-- Two magnitudes that a number is rounded to are both even, and one between them would
be nearer. -/
theorem RoundsTo.le (h : RoundsTo r b) (h' : RoundsTo r c) : c ≤ b := by
  by_contra hlt
  rw [not_le] at hlt
  have heq : |value b - r| = |value c - r| := le_antisymm (h.nearest c) (h'.nearest b)
  have hb := h.even c hlt.ne' heq.symm
  have hc := h'.even b hlt.ne heq
  have hbetween : value b < value (b + 1) := value_strictMono (Nat.lt_succ_self b)
  have hbetween' : value (b + 1) < value c := value_strictMono (by omega)
  have hmiddle : value b - r = -(value c - r) := by
    refine (abs_eq_abs.1 heq).resolve_left fun hsame => ?_
    linarith
  have hnearer : |value (b + 1) - r| < |value c - r| := by
    rw [abs_of_nonneg (by linarith : 0 ≤ value c - r), abs_lt]
    exact ⟨by linarith, by linarith⟩
  exact absurd (h'.nearest (b + 1)) (not_le.2 hnearer)

/-- **A number is rounded to one magnitude only.** -/
theorem RoundsTo.unique (h : RoundsTo r b) (h' : RoundsTo r c) : b = c :=
  le_antisymm (h'.le h) (h.le h')

/-! ## The nearest magnitude -/

/-- **Units are counted on from one binade to the next**: so many of a unit, up to the
first magnitude of the next binade, are the value of these bits. -/
theorem value_units {m : ℕ} {q : ℤ} (hq : leastUnit ≤ q) (hm : m ≤ 2 * binadeSize)
    (hmin : q = leastUnit ∨ binadeSize ≤ m) :
    value ((q - leastUnit).toNat * binadeSize + m) = m * 2 ^ q := by
  obtain ⟨k, rfl⟩ : ∃ k : ℕ, q = leastUnit + k := ⟨(q - leastUnit).toNat, by omega⟩
  rw [add_sub_cancel_left, Int.toNat_natCast, value]
  obtain hlt | rfl := hm.lt_or_eq
  · obtain hsmall | hlarge := Nat.lt_or_ge m binadeSize
    · obtain rfl : k = 0 := by omega
      have hsignificand : significand (0 * binadeSize + m) = (m, leastUnit) := by
        unfold significand
        rw [Nat.zero_mul, Nat.zero_add, Nat.div_eq_of_lt hsmall]
        rfl
      rw [hsignificand, Nat.cast_zero, add_zero]
    · rw [significand_bits hlarge hlt]
  · -- half as many units of twice the size
    have hbits : k * binadeSize + 2 * binadeSize = (k + 1) * binadeSize + binadeSize := by ring
    rw [hbits, significand_bits le_rfl (by decide), Nat.cast_succ, ← add_assoc,
      zpow_add_one₀ two_ne_zero]
    push_cast
    ring

/-- In its unit a number has at most 53 bits before the point, and that many unless the
unit is the least one. -/
theorem units_bounds (hr : 0 < r) : r / 2 ^ unit r < (2 * binadeSize : ℕ) ∧
    (unit r = leastUnit ∨ (binadeSize : ℚ) ≤ r / 2 ^ unit r) := by
  have hpow := two_zpow_pos (unit r)
  have hlog : Int.log 2 r - 52 ≤ unit r := le_max_right ..
  constructor
  · have hlt : r < 2 ^ (Int.log 2 r + 1) := by
      exact_mod_cast Int.lt_zpow_succ_log_self (b := 2) (by decide) r
    rw [div_lt_iff₀ hpow, Nat.cast_mul, cast_binadeSize]
    calc r < 2 ^ (Int.log 2 r + 1) := hlt
      _ ≤ 2 ^ (53 + unit r) := zpow_le_zpow_right₀ one_le_two (by omega)
      _ = (2 : ℕ) * 2 ^ (52 : ℤ) * 2 ^ unit r := by
          rw [zpow_add₀ two_ne_zero]
          norm_num
  · refine (max_cases leastUnit (Int.log 2 r - 52)).imp (fun h => h.1) fun h => ?_
    have hle : (2 : ℚ) ^ Int.log 2 r ≤ r := by
      exact_mod_cast Int.zpow_log_le_self (b := 2) (by decide) hr
    rw [le_div_iff₀ hpow, cast_binadeSize, ← zpow_add₀ two_ne_zero]
    refine le_trans (zpow_le_zpow_right₀ one_le_two ?_) hle
    have hunit : unit r = Int.log 2 r - 52 := h.1
    omega

/-- **A positive number is rounded to the bits that are computed for it**, before those
that are not finite are cut off. -/
theorem roundsTo_units (hr : 0 < r) : RoundsTo r
    ((unit r - leastUnit).toNat * binadeSize + roundHalfEven (r / 2 ^ unit r)) := by
  have hpow := two_zpow_pos (unit r)
  have hq : leastUnit ≤ unit r := le_max_left ..
  obtain ⟨hlt, hmin⟩ := units_bounds hr
  obtain ⟨q, hunit⟩ : ∃ q, unit r = q := ⟨_, rfl⟩
  obtain ⟨s, hs⟩ : ∃ s, r / 2 ^ q = s := ⟨_, rfl⟩
  rw [hunit] at hpow hq hlt hmin
  rw [hs] at hlt hmin
  rw [hunit, hs]
  have hs₀ : 0 ≤ s := hs ▸ (div_pos hr hpow).le
  have hrs : r = s * 2 ^ q := ((div_eq_iff hpow.ne').1 hs)
  obtain ⟨n, hn⟩ : ∃ n, ⌊s⌋₊ = n := ⟨_, rfl⟩
  have hfloor : (n : ℚ) ≤ s := hn ▸ Nat.floor_le hs₀
  have hfloor' : s < n + 1 := hn ▸ Nat.lt_floor_add_one s
  have hbound : n < 2 * binadeSize := by exact_mod_cast hfloor.trans_lt hlt
  have hmin : q = leastUnit ∨ binadeSize ≤ n :=
    hmin.imp_right fun h => hn ▸ Nat.le_floor h
  -- the number lies between these two neighbours
  obtain ⟨k, hk⟩ : ∃ k, (q - leastUnit).toNat * binadeSize + n = k := ⟨_, rfl⟩
  have hlower : value k = n * 2 ^ q := hk ▸ value_units hq hbound.le hmin
  have hupper : value (k + 1) = (n + 1) * 2 ^ q := by
    have hvalue := value_units (m := n + 1) hq hbound (hmin.imp_right Nat.le_succ_of_le)
    rw [← hk, Nat.add_assoc, hvalue]
    push_cast
    rfl
  have hle : value k ≤ r := by
    rw [hlower, hrs]
    exact mul_le_mul_of_nonneg_right hfloor hpow.le
  have hlt : r < value (k + 1) := by
    rw [hupper, hrs]
    exact mul_lt_mul_of_pos_right hfloor' hpow
  have hbelow : r - value k = (s - n) * 2 ^ q := by
    rw [hlower, hrs]
    ring
  have habove : value (k + 1) - r = (1 - (s - n)) * 2 ^ q := by
    rw [hupper, hrs]
    ring
  have hparity : k % 2 = n % 2 := by
    rw [← hk, show binadeSize = 2 * 2 ^ 51 from rfl]
    omega
  unfold roundHalfEven
  dsimp only
  rw [hn]
  split_ifs with hhalf hhalf' heven
  · rw [hk]
    refine roundsTo_lower hle hlt (.inl ?_)
    rw [hbelow, habove]
    exact mul_lt_mul_of_pos_right (by linarith) hpow
  · rw [← Nat.add_assoc, hk]
    refine roundsTo_upper hle hlt (.inl ?_)
    rw [hbelow, habove]
    exact mul_lt_mul_of_pos_right (by linarith) hpow
  all_goals
    have hmiddle : s - n = 1 / 2 := le_antisymm (not_lt.1 hhalf') (not_lt.1 hhalf)
    have hequal : r - value k = value (k + 1) - r := by
      rw [hbelow, habove, hmiddle]
      norm_num
  · rw [hk]
    exact roundsTo_lower hle hlt (.inr ⟨hequal, hparity.trans heven⟩)
  · rw [← Nat.add_assoc, hk]
    exact roundsTo_upper hle hlt (.inr ⟨hequal.symm, by omega⟩)

theorem roundsTo_zero : RoundsTo 0 0 := by
  refine ⟨fun c => ?_, fun _ _ _ => rfl⟩
  rw [value_zero, sub_zero, abs_zero]
  exact abs_nonneg _

/-- **The nearest magnitude is the correctly rounded one**, as far as it is finite. -/
theorem roundsTo_iff (hr : 0 ≤ r) (hb : b < infiniteBits) : RoundsTo r b ↔ nearest r = b := by
  obtain ⟨bits, hbits, hnearest⟩ : ∃ bits, RoundsTo r bits ∧ nearest r = min infiniteBits bits := by
    obtain rfl | hpos := hr.eq_or_lt
    · exact ⟨0, roundsTo_zero, nearest_zero⟩
    · exact ⟨_, roundsTo_units hpos, if_neg (not_le.2 hpos)⟩
  rw [hnearest]
  constructor
  · intro h
    rw [hbits.unique h]
    exact Nat.min_eq_right hb.le
  · intro h
    obtain rfl : bits = b := by omega
    exact hbits

end Rulebook.Double
