import Rulebook.Progression.Attack
import Rulebook.Progression.Proficiency
import Rulebook.Progression.Save
import Rulebook.Proofs.ExactNumbers
import Rulebook.Proofs.ProperFields

/-!
# Linear progressions have the same values as formulas

Attack bonuses, saving throws and weapon proficiencies grow by a fixed amount each
period of levels. The function of a progression computes the amount as it stands.
The formula of it is simplified: terms that are always zero are left out, and so
are multiplication by one, rounding of what is whole anyway, and division by a
period of one level.

Read exactly, nothing of this changes the value, at no level, that before the first
included. There the count of completed periods is negative. Doubles would round the
two forms differently; what the simplification looks at is the same for the
doubles of a progression as for the rationals that they are.
-/

namespace Rulebook

/-- **The formula computes a function of the level**: with a level as its source,
its value is the number that the function gives for the level. -/
def Formula.Computes (f : Formula ℚ) (value : ℕ → ℚ) : Prop :=
  ∀ (scope : Scope ℚ) (n : ℕ), scope.source = .number (Quantity.ofNat n) →
    f.eval scope = .ok (.number (value n))

/-! ## Sums -/

namespace Formula

variable {scope : Scope ℚ} {f : Formula ℚ} {fs gs : List (Formula ℚ)} {x y : ℚ}

/-- **Terms that add up to a number** in a scope. -/
def AddUpTo (scope : Scope ℚ) (fs : List (Formula ℚ)) (x : ℚ) : Prop :=
  ∃ xs, List.Forall₂ (fun f x => f.eval scope = .ok (.number x)) fs xs ∧ xs.sum = x

theorem addUpTo_nil : AddUpTo scope [] 0 := ⟨[], .nil, rfl⟩

theorem addUpTo_singleton (hf : f.eval scope = .ok (.number x)) : AddUpTo scope [f] x :=
  ⟨[x], .cons hf .nil, add_zero x⟩

/-- **A term that is zero** may be left out. -/
theorem addUpTo_unless {b : Bool} (hzero : b = true → x = 0)
    (hf : f.eval scope = .ok (.number x)) :
    AddUpTo scope (if b = true then [] else [f]) x := by
  split
  · next hb => exact hzero hb ▸ addUpTo_nil
  · exact addUpTo_singleton hf

theorem AddUpTo.append (hfs : AddUpTo scope fs x) (hgs : AddUpTo scope gs y) :
    AddUpTo scope (fs ++ gs) (x + y) := by
  obtain ⟨xs, hxs, rfl⟩ := hfs
  obtain ⟨ys, hys, rfl⟩ := hgs
  exact ⟨xs ++ ys, List.rel_append hxs hys, List.sum_append⟩

theorem eval_foldl_add {xs : List ℚ}
    (h : List.Forall₂ (fun f x => f.eval scope = .ok (.number x)) fs xs)
    (hf : f.eval scope = .ok (.number x)) :
    (fs.foldl (· + ·) f).eval scope = .ok (.number (x + xs.sum)) := by
  induction h generalizing f x with
  | nil => rwa [List.sum_nil, add_zero]
  | cons hg hfs ih =>
    rw [List.sum_cons, ← add_assoc]
    exact ih (eval_add hf hg)

/-- **The sum of some terms** has their sum as its value. -/
theorem AddUpTo.eval_sum (h : AddUpTo scope fs x) :
    (sum fs).eval scope = .ok (.number x) := by
  obtain ⟨xs, hxs, rfl⟩ := h
  cases hxs with
  | nil => rfl
  | cons hf hfs =>
    rw [List.sum_cons]
    exact eval_foldl_add hfs hf

/-- Multiplication by one may be left out. -/
theorem eval_scaled_exact (hf : f.eval scope = .ok (.number x)) (factor : ℚ) :
    (f.scaled factor).eval scope = .ok (.number (x * factor)) := by
  rw [eval_scaled hf]
  split
  · next hone =>
    rw [Exact.equals_iff.1 hone, Exact.one_eq, mul_one]
  · rfl

end Formula

variable {scope : Scope ℚ} {n : ℕ}

/-! ## Periods -/

namespace Period

/-- The completed periods are a whole number, negative before the first level. -/
theorem elapsedAt_eq (p : Period) (n : ℕ) :
    (p.elapsedAt n : ℚ) = ⌊((n : ℚ) - 1) / p.levels⌋ := by
  show ((⌊((n : ℚ) - (Quantity.one : ℚ)) / p.levels⌋ : ℤ) : ℚ) = _
  rw [Exact.one_eq]

/-- Division by one and its rounding may be left out. -/
theorem eval_elapsed (p : Period) (hsource : scope.source = .number (Quantity.ofNat n)) :
    (p.elapsed : Formula ℚ).eval scope = .ok (.number (p.elapsedAt n)) := by
  have hdifference : (Formula.source - Formula.number Quantity.one : Formula ℚ).eval scope =
      .ok (.number ((n : ℚ) - Quantity.one)) :=
    Formula.eval_sub (Formula.eval_source hsource) rfl
  have hlevels : Quantity.equals (Quantity.ofNat p.levels : ℚ) Quantity.zero = false := by
    refine Bool.eq_false_iff.2 fun h => ?_
    have hcast : (p.levels : ℚ) = (0 : ℕ) := Exact.equals_iff.1 h
    exact p.levels_pos.ne' (Nat.cast_inj.1 hcast)
  unfold elapsed
  dsimp only
  split
  · next hone =>
    have hwhole : (⌊(n : ℚ) - 1⌋ : ℚ) = n - 1 := by
      rw [Int.floor_sub_one, Int.floor_natCast, Int.cast_sub, Int.cast_natCast, Int.cast_one]
    rw [hdifference, elapsedAt_eq, hone, Exact.one_eq, Nat.cast_one, div_one, hwhole]
  · exact Formula.eval_floor (Formula.eval_div hdifference rfl hlevels)

/-- A period that is read is below the bound of whole numbers. -/
theorem lt_of_read {text : String} {p : Period} (h : read text = .ok p) :
    p.levels < Text.wholeBound := by
  obtain ⟨n, hn, h⟩ := Outcome.bind_eq_ok.1 h
  split at h
  · cases h
    exact lt_of_readWhole hn
  · cases h

end Period

/-! ## Attack bonuses -/

namespace AttackProgression

/-- **The attack bonus at a level**: the increments of the completed periods, and
the step from its level on. -/
theorem valueAt_eq (p : AttackProgression ℚ) (n : ℕ) :
    p.valueAt n = p.base + ⌊((n : ℚ) - 1) / p.period.levels⌋ * p.increment +
      p.step.elim 0 fun step => if step.fromLevel ≤ n then step.bonus else 0 := by
  have hstep : p.stepAt n =
      p.step.elim 0 fun step => if step.fromLevel ≤ n then step.bonus else 0 := by
    unfold stepAt
    cases p.step with
    | none => exact Exact.zero_eq
    | some step => rw [Exact.zero_eq]; rfl
  rw [valueAt, hstep, Period.elapsedAt_eq]

theorem computes_formula (p : AttackProgression ℚ) : p.formula.Computes p.valueAt := by
  intro scope n hsource
  have helapsed := p.period.eval_elapsed hsource
  -- the three terms are the base, the increments and the step
  refine Formula.AddUpTo.eval_sum (.append (.append ?_ ?_) ?_)
  · exact Formula.addUpTo_unless (fun h => (Exact.equals_iff.1 h).trans Exact.zero_eq) rfl
  · refine Formula.addUpTo_unless (fun h => ?_) (Formula.eval_scaled_exact helapsed p.increment)
    rw [Exact.equals_iff.1 h, Exact.zero_eq, mul_zero]
  · unfold stepAt
    split
    · next step hstep =>
      refine Formula.addUpTo_singleton ?_
      have hreached : Quantity.atMost (Quantity.ofNat step.fromLevel) (Quantity.ofNat n : ℚ) =
          decide (step.fromLevel ≤ n) :=
        Bool.eq_iff_iff.2 (Exact.atMost_iff.trans (Nat.cast_le.trans decide_eq_true_iff.symm))
      rw [Formula.eval_choose (Formula.eval_ge (Formula.eval_source hsource) rfl)
        (Exact.isTruthy_ofBool _), hreached]
      simp only [decide_eq_true_eq]
      split <;> rfl
    · exact Exact.zero_eq ▸ Formula.addUpTo_nil

/-- The attack progression that the numbers of one exactly are. -/
def exact (p : AttackProgression Float) : AttackProgression ℚ where
  base := Double.exact p.base
  increment := Double.exact p.increment
  period := p.period
  step := p.step.map fun step => ⟨Double.exact step.bonus, step.fromLevel⟩

theorem lt_of_readStep {text : String} {step : Option (AttackStep Float)}
    (h : AttackStep.read text = .ok step) : ∀ s ∈ step, s.fromLevel < Text.wholeBound := by
  unfold AttackStep.read at h
  dsimp only at h
  split at h
  · cases h
    nofun
  · split at h
    · cases h
    · obtain ⟨fromLevel, hlevel, h⟩ := Outcome.bind_eq_ok.1 h
      split at h
      · cases h
      · obtain ⟨bonus, -, h⟩ := Outcome.bind_eq_ok.1 h
        cases h
        intro s hs
        cases hs
        exact lt_of_readWhole hlevel

theorem lt_of_read {values : List String} {p : AttackProgression Float}
    (h : read values = .ok p) :
    p.period.levels < Text.wholeBound ∧ ∀ step ∈ p.step, step.fromLevel < Text.wholeBound := by
  unfold read at h
  split at h
  · simp only [Outcome.bind_eq_ok] at h
    obtain ⟨base, -, increment, -, period, hperiod, step, hstep, h⟩ := h
    cases h
    exact ⟨Period.lt_of_read hperiod, lt_of_readStep hstep⟩
  · cases h

/-- **Doubles are simplified like the rationals that they are.** -/
theorem exact_formula {values : List String} {p : AttackProgression Float}
    (h : read values = .ok p) : p.formula.exact = p.exact.formula := by
  have hfinite := finite_read h
  obtain ⟨hperiod, hlevel⟩ := lt_of_read h
  unfold formula
  rw [Formula.exact_sum]
  refine congrArg Formula.sum ?_
  unfold terms exact Quantity.zero
  dsimp only
  rw [List.map_append, List.map_append, Double.equals_exact_ofWhole hfinite.base (by decide),
    Double.equals_exact_ofWhole hfinite.increment (by decide)]
  congr 1
  · congr 1
    · split <;> rfl
    · split
      · rfl
      · exact congrArg (fun f => [f]) ((Formula.exact_scaled _ hfinite.increment).trans
          (congrArg (Formula.scaled · _) (Formula.exact_elapsed hperiod)))
  · cases hstep : p.step with
    | none => rfl
    | some step =>
      have hwhole : (Formula.whole step.fromLevel : Formula Float).exact =
          .whole step.fromLevel := Formula.exact_whole ((hlevel step hstep).trans (by decide))
      exact congrArg₂ (fun level zero =>
        [Formula.choose (.binary .ge .source level) (.number (Double.exact step.bonus)) zero])
        hwhole Formula.exact_zero

end AttackProgression

/-! ## Saving throws -/

namespace SaveProgression

/-- **The saving throw at a level**: of the decrements of the completed periods the
whole part is taken off. -/
theorem valueAt_eq (p : SaveProgression ℚ) (n : ℕ) :
    p.valueAt n = p.base - ⌊(⌊((n : ℚ) - 1) / p.period.levels⌋ : ℚ) * p.decrement⌋ := by
  rw [valueAt, Period.elapsedAt_eq]
  rfl

theorem computes_formula (p : SaveProgression ℚ) : p.formula.Computes p.valueAt := by
  intro scope n hsource
  have hreduction := Formula.eval_scaled_exact (p.period.eval_elapsed hsource) p.decrement
  unfold formula valueAt
  split
  · next hzero =>
    have hfloor : Quantity.floor (p.period.elapsedAt n * p.decrement) = 0 := by
      rw [Exact.equals_iff.1 hzero, Exact.zero_eq, mul_zero]
      exact congrArg Int.cast (Int.floor_zero (R := ℚ))
    rw [hfloor]
    exact Formula.eval_of_eq rfl (sub_zero p.base).symm
  · dsimp only
    split
    · next hwhole =>
      -- a whole number of whole decrements needs no rounding
      have hfloor : Quantity.floor (p.period.elapsedAt n * p.decrement) =
          p.period.elapsedAt n * p.decrement := by
        rw [Period.elapsedAt_eq, ← (Rat.den_eq_one_iff p.decrement).1 (of_decide_eq_true hwhole),
          ← Int.cast_mul]
        exact congrArg Int.cast (Int.floor_intCast (R := ℚ) _)
      rw [hfloor]
      exact Formula.eval_sub rfl hreduction
    · exact Formula.eval_sub rfl (Formula.eval_floor hreduction)

/-- The saving throw that the numbers of one exactly are. -/
def exact (p : SaveProgression Float) : SaveProgression ℚ where
  base := Double.exact p.base
  decrement := Double.exact p.decrement
  period := p.period

/-- **Doubles are simplified like the rationals that they are.** -/
theorem exact_formula {values : List String} {p : SaveProgression Float}
    (h : read values = .ok p) : p.formula.exact = p.exact.formula := by
  have hfinite := finite_read h
  have hperiod : p.period.levels < Text.wholeBound := by
    unfold read at h
    split at h
    · simp only [Outcome.bind_eq_ok] at h
      obtain ⟨base, -, decrement, -, period, hperiod, h⟩ := h
      cases h
      exact Period.lt_of_read hperiod
    · cases h
  have hreduction : (p.period.elapsed.scaled p.decrement : Formula Float).exact =
      p.period.elapsed.scaled (Double.exact p.decrement) := by
    rw [Formula.exact_scaled _ hfinite.decrement, Formula.exact_elapsed hperiod]
  unfold formula exact Quantity.zero
  dsimp only
  rw [Double.equals_exact_ofWhole hfinite.decrement (by decide),
    Double.isWhole_exact hfinite.decrement]
  split
  · rfl
  · split
    · exact congrArg (Formula.binary .sub _) hreduction
    · exact congrArg (fun f => Formula.binary .sub _ f.floor) hreduction

end SaveProgression

/-! ## Weapon proficiencies -/

namespace ProficiencyProgression

/-- **The proficiencies at a level**: one more for each completed period. -/
theorem valueAt_eq (p : ProficiencyProgression ℚ) (n : ℕ) :
    p.valueAt n = p.initial + ⌊((n : ℚ) - 1) / p.period.levels⌋ := by
  rw [valueAt, Period.elapsedAt_eq]

theorem computes_formula (p : ProficiencyProgression ℚ) : p.formula.Computes p.valueAt :=
  fun _ _ hsource => Formula.eval_add rfl (p.period.eval_elapsed hsource)

/-- The proficiencies that the numbers of some exactly are. -/
def exact (p : ProficiencyProgression Float) : ProficiencyProgression ℚ where
  initial := Double.exact p.initial
  period := p.period
  penalty := Double.exact p.penalty

/-- **Doubles are simplified like the rationals that they are.** -/
theorem exact_formula {values : List String} {p : ProficiencyProgression Float}
    (h : read values = .ok p) : p.formula.exact = p.exact.formula := by
  have hperiod : p.period.levels < Text.wholeBound := by
    unfold read at h
    split at h
    · simp only [Outcome.bind_eq_ok] at h
      obtain ⟨initial, -, period, hperiod, penalty, -, h⟩ := h
      cases h
      exact Period.lt_of_read hperiod
    · cases h
  exact congrArg (Formula.binary .add _) (Formula.exact_elapsed hperiod)

end ProficiencyProgression

/-! ## All kinds -/

/-- **Linear progressions and their formulas agree**, read exactly and at every
level. This holds for all rationals, and for the doubles of whatever is read: they
give the formula of the rationals that they are. -/
theorem linearProgressions_compute :
    (∀ p : AttackProgression ℚ, p.formula.Computes p.valueAt ∧ ∀ n, p.valueAt n =
      p.base + ⌊((n : ℚ) - 1) / p.period.levels⌋ * p.increment +
        p.step.elim 0 fun step => if step.fromLevel ≤ n then step.bonus else 0) ∧
    (∀ p : SaveProgression ℚ, p.formula.Computes p.valueAt ∧ ∀ n, p.valueAt n =
      p.base - ⌊(⌊((n : ℚ) - 1) / p.period.levels⌋ : ℚ) * p.decrement⌋) ∧
    (∀ p : ProficiencyProgression ℚ, p.formula.Computes p.valueAt ∧ ∀ n, p.valueAt n =
      p.initial + ⌊((n : ℚ) - 1) / p.period.levels⌋) ∧
    (∀ values (p : AttackProgression Float), AttackProgression.read values = .ok p →
      p.formula.exact.Computes p.exact.valueAt) ∧
    (∀ values (p : SaveProgression Float), SaveProgression.read values = .ok p →
      p.formula.exact.Computes p.exact.valueAt) ∧
    ∀ values (p : ProficiencyProgression Float), ProficiencyProgression.read values = .ok p →
      p.formula.exact.Computes p.exact.valueAt := by
  refine ⟨fun p => ⟨p.computes_formula, p.valueAt_eq⟩, fun p => ⟨p.computes_formula, p.valueAt_eq⟩,
    fun p => ⟨p.computes_formula, p.valueAt_eq⟩, fun values p h => ?_, fun values p h => ?_,
    fun values p h => ?_⟩
  · exact AttackProgression.exact_formula h ▸ p.exact.computes_formula
  · exact SaveProgression.exact_formula h ▸ p.exact.computes_formula
  · exact ProficiencyProgression.exact_formula h ▸ p.exact.computes_formula

/-- A saving throw of 17 that falls by 1.5 every two levels: before the first level
two points are added, and doubles are simplified in the same way. -/
theorem linearProgressions_compute_save :
    let p : SaveProgression ℚ := ⟨17, 3 / 2, ⟨2, by decide⟩⟩
    p.formula.eval (.ofSource (.number (Quantity.ofNat 0))) = .ok (.number 19) ∧
    ∃ q : SaveProgression Float, SaveProgression.read ["17", "1.5", "2"] = .ok q ∧
      q.formula.exact.Computes q.exact.valueAt := by
  intro p
  obtain ⟨-, hsave, -, -, hread, -⟩ := linearProgressions_compute
  have hvalue : p.valueAt 0 = 19 := by decide +kernel
  obtain ⟨q, hq⟩ := Outcome.exists_of_isOk
    (show (SaveProgression.read ["17", "1.5", "2"] : Compiled (SaveProgression Float)).isOk = true
      by decide +kernel)
  exact ⟨hvalue ▸ (hsave p).1 _ 0 rfl, q, hq, hread _ q hq⟩

end Rulebook
