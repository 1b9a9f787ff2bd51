import Rulebook.Progression.Experience
import Rulebook.Progression.HitDie
import Rulebook.Progression.SpellSlots
import Rulebook.Proofs.ProperFields
import Rulebook.Proofs.StepFunctions
import Rulebook.Proofs.WholeDoubles

/-!
# Table progressions have the same values as formulas

Hit dice, spell slots and experience are given as tables. Each has two forms: a
function that looks a level up in the table, and a formula that the rules are
made of. The function counts in whole numbers, takes the steps as long as they
are reached, and counts thresholds; the formula computes with doubles, lets each
step that is reached take over, and looks positions up.

The two agree at every level, since levels are exact as doubles and the readers
refuse tables that do not ascend. Nothing is rounded on the way, so the values
are the same and not only close to each other. The one product, of the levels
beyond the cap of a hit die and what each of them adds, is the same product in
both.
-/

namespace Rulebook

open Double

variable {scope : Scope Float} {n : ℕ}

theorem lt_two_pow_of_lt_wholeBound {k : ℕ} (hk : k < Text.wholeBound) : k < 2 ^ 53 :=
  hk.trans (by decide)

/-- **A multiple of a whole number** is the product, also where the factor is one and
left out. -/
theorem eval_scaled_ofWhole {f : Formula Float} {k : ℕ} (hk : k < 2 ^ 53)
    (hf : f.eval scope = .ok (.number (Quantity.ofNat k))) (factor : Float) :
    (f.scaled factor).eval scope = .ok (.number (Quantity.ofNat k * factor)) := by
  refine Formula.eval_of_eq (Formula.eval_scaled hf factor) ?_
  split
  · next hone =>
    rw [eq_ofWhole_one hone]
    exact (mul_ofWhole_one (isFinite_ofWhole hk)).symm
  · rfl

/-! ## Hit dice -/

namespace HitDieProgression

variable {p : HitDieProgression Float}

theorem lt_of_readDie {text : String} {count sides : ℕ} (h : readDie text = .ok (count, sides)) :
    count < Text.wholeBound := by
  unfold readDie at h
  dsimp only at h
  split at h
  · cases h
  · split at h
    · obtain ⟨one, hone, h⟩ := Outcome.bind_eq_ok.1 h
      obtain ⟨sides', -, h⟩ := Outcome.bind_eq_ok.1 h
      split at h <;> cases h
      cases hone
      decide
    · obtain ⟨count', hcount, h⟩ := Outcome.bind_eq_ok.1 h
      obtain ⟨sides', -, h⟩ := Outcome.bind_eq_ok.1 h
      split at h <;> cases h
      exact lt_of_readWhole hcount

/-- **The numbers of a hit die that is read** are below the bound of whole
numbers. -/
theorem lt_of_read {values : List String} (h : read values = .ok p) :
    p.count < Text.wholeBound ∧ p.cap < Text.wholeBound := by
  unfold read at h
  split at h
  · obtain ⟨⟨count, sides⟩, hdie, h⟩ := Outcome.bind_eq_ok.1 h
    obtain ⟨cap, hcap, h⟩ := Outcome.bind_eq_ok.1 h
    split at h
    · cases h
    · obtain ⟨perLevel, -, h⟩ := Outcome.bind_eq_ok.1 h
      cases h
      exact ⟨lt_of_readDie hdie, lt_of_readWhole hcap⟩
  · cases h

/-- **The dice.** The sum of the function stays at the bound of whole numbers,
that of the formula passes it; the cap is below both. -/
theorem eval_formula {values : List String} (h : read values = .ok p) (hn : n < Text.wholeBound)
    (hsource : scope.source = .number (Quantity.ofNat n)) :
    p.formula.eval scope = .ok (.number (p.valueAt n)) := by
  obtain ⟨hcount, hcap⟩ := lt_of_read h
  have hbound : Text.wholeBound = 2 ^ 32 := rfl
  have hdice : (if 1 < p.count then Formula.source + .whole (p.count - 1)
      else Formula.source).eval scope =
      .ok (.number (Quantity.ofNat (n + (p.count - 1)))) := by
    split
    · exact Formula.eval_of_eq (Formula.eval_add (Formula.eval_source hsource) rfl)
        (ofWhole_add (by omega))
    · rw [Nat.sub_eq_zero_of_le (by omega), Nat.add_zero]
      exact Formula.eval_source hsource
  refine Formula.eval_of_eq
    (Formula.eval_call [Quantity.ofNat p.cap] rfl (by decide) hdice rfl) ?_
  refine (least_ofWhole (by omega) (by omega)).trans ?_
  show _ = ofWhole (min (min (n + (p.count - 1)) (Text.wholeBound - 1)) p.cap)
  congr 1
  omega

/-- **What the levels beyond the cap add**, up to the sign of a zero. -/
theorem eval_bonusFormula {values : List String} (h : read values = .ok p)
    (hn : n < Text.wholeBound) (hsource : scope.source = .number (Quantity.ofNat n)) :
    ∃ y, p.bonusFormula.eval scope = .ok (.number y) ∧
      Quantity.equals y (if p.cap < n then Quantity.ofNat (n - p.cap) * p.perLevel
        else Quantity.zero) = true := by
  obtain ⟨-, hcap⟩ := lt_of_read h
  have hn := lt_two_pow_of_lt_wholeBound hn
  have hcap := lt_two_pow_of_lt_wholeBound hcap
  have hfinite := finite_read h
  have hzero : Quantity.equals (Quantity.zero : Float) Quantity.zero = true := by decide
  unfold bonusFormula
  split
  · next hperLevel =>
    refine ⟨Quantity.zero, rfl, ?_⟩
    split
    · exact (BEq.comm (a := ofWhole 0)).trans (mul_beq_zero (isFinite_ofWhole (by omega)) hperLevel)
    · exact hzero
  · have hless : Quantity.less (Quantity.ofNat p.cap) (Quantity.ofNat n : Float) =
        decide (p.cap < n) :=
      Bool.eq_iff_iff.2 ((less_ofWhole hcap hn).trans decide_eq_true_iff.symm)
    have hdifference (hlt : p.cap < n) : (.source - .whole p.cap : Formula Float).eval scope =
        .ok (.number (Quantity.ofNat (n - p.cap))) :=
      Formula.eval_of_eq (Formula.eval_sub (Formula.eval_source hsource) rfl)
        (ofWhole_sub hlt.le hn)
    rw [Formula.eval_choose (Formula.eval_gt (Formula.eval_source hsource) rfl)
      (isTruthy_ofBool _), hless]
    simp only [decide_eq_true_eq]
    split
    · next hlt =>
      have hproduct := isNaN_mul (isFinite_ofWhole (n := n - p.cap) (by omega)) hfinite
      exact ⟨_, eval_scaled_ofWhole (by omega) (hdifference hlt) p.perLevel,
        (beq_self_iff _).2 hproduct⟩
    · exact ⟨Quantity.zero, rfl, hzero⟩

end HitDieProgression

/-! ## Spell slots -/

namespace SpellSlotTable

/-- **The levels of a table that is read** ascend, and are below the bound of
whole numbers. -/
theorem ascending_readSteps {label : String} {previous : Option ℕ} {entries : List (List Char)}
    {steps : List (ℕ × ℕ)} (h : readSteps label previous entries = .ok steps) :
    steps.Pairwise (fun s t => s.1 < t.1) ∧
      ∀ s ∈ steps, s.1 < Text.wholeBound ∧ ∀ l ∈ previous, l < s.1 := by
  induction entries generalizing previous steps with
  | nil =>
    cases h
    exact ⟨.nil, fun s hs => absurd hs List.not_mem_nil⟩
  | cons entry entries ih =>
    unfold readSteps at h
    split at h
    · cases h
    · obtain ⟨level, hlevel, h⟩ := Outcome.bind_eq_ok.1 h
      split at h
      · cases h
      · next hprevious =>
        obtain ⟨count, -, h⟩ := Outcome.bind_eq_ok.1 h
        obtain ⟨rest, hrest, h⟩ := Outcome.bind_eq_ok.1 h
        cases h
        obtain ⟨hascends, hlater⟩ := ih hrest
        have hfirst : ∀ l ∈ previous, l < level := by
          rintro l rfl
          simpa using hprevious
        refine ⟨List.pairwise_cons.2 ⟨fun s hs => (hlater s hs).2 level rfl, hascends⟩, ?_⟩
        refine List.forall_mem_cons.2 ⟨⟨lt_of_readWhole hlevel, hfirst⟩, fun s hs => ?_⟩
        exact ⟨(hlater s hs).1, fun l hl => (hfirst l hl).trans ((hlater s hs).2 level rfl)⟩

theorem ascending_read {text : String} {t : SpellSlotTable} (h : read text = .ok t) :
    t.steps.Pairwise (fun s t => s.1 < t.1) ∧ ∀ s ∈ t.steps, s.1 < Text.wholeBound := by
  unfold read at h
  split at h
  · cases h
  · obtain ⟨caster, -, h⟩ := Outcome.bind_eq_ok.1 h
    obtain ⟨steps, hsteps, h⟩ := Outcome.bind_eq_ok.1 h
    cases h
    obtain ⟨hascends, hlt⟩ := ascending_readSteps hsteps
    exact ⟨hascends, fun s hs => (hlt s hs).1⟩

/-- **The slots.** The steps reached are the first ones, and the last of them
counts. -/
theorem eval_formula {text : String} {t : SpellSlotTable} (h : read text = .ok t)
    (hn : n < Text.wholeBound) (hsource : scope.source = .number (Quantity.ofNat n)) :
    (t.formula : Formula Float).eval scope = .ok (.number (t.valueAt n)) := by
  obtain ⟨hascends, hlt⟩ := ascending_read h
  unfold formula
  split
  · next hempty =>
    unfold valueAt slotsAt
    rw [List.isEmpty_iff.1 hempty]
    rfl
  · have hreached : reached (Quantity.ofNat n) (t.steps.map fun s =>
          ((Quantity.ofNat s.1 : Float), Quantity.ofNat s.2)) =
        (t.steps.takeWhile (·.1 ≤ n)).map fun s => (Quantity.ofNat s.1, Quantity.ofNat s.2) := by
      have hfirst : t.steps.Pairwise fun s t =>
          decide (t.1 ≤ n) = true → decide (s.1 ≤ n) = true := by
        refine hascends.imp fun {s t} hst ht => ?_
        exact decide_eq_true (hst.le.trans (of_decide_eq_true ht))
      rw [reached, List.filter_map, ← filter_eq_takeWhile hfirst]
      refine congrArg _ (List.filter_congr fun s hs => Bool.eq_iff_iff.2 ?_)
      exact (atMost_ofWhole (lt_two_pow_of_lt_wholeBound (hlt s hs))
        (lt_two_pow_of_lt_wholeBound hn)).trans decide_eq_true_iff.symm
    show (Formula.steps .source Quantity.zero (t.steps.map fun s =>
      ((Quantity.ofNat s.1 : Float), Quantity.ofNat s.2))).eval scope = _
    rw [Formula.eval_steps (Formula.eval_source hsource) rfl]
    unfold lastReached valueAt slotsAt
    rw [hreached, List.getLast?_map]
    cases (t.steps.takeWhile (·.1 ≤ n)).getLast? <;> rfl

end SpellSlotTable

/-! ## Experience -/

namespace ExperienceTable

section AnyNumbers

variable {N : Type} [Quantity N] {t : ExperienceTable N} {x : N}

/-- Each threshold stays above the ones before it. -/
theorem isChain_of_not_hasDescent {xs : List N} (h : hasDescent xs = false) :
    xs.IsChain fun a b => Quantity.atMost b a = false := by
  match xs with
  | [] => exact .nil
  | [a] => exact .singleton a
  | a :: b :: rest =>
    obtain ⟨hab, h⟩ := Bool.or_eq_false_iff.1 h
    exact .cons_cons hab (isChain_of_not_hasDescent h)

/-- **An amount of experience that reaches a threshold** reaches those before it. -/
def ReachesInOrder (t : ExperienceTable N) (x : N) : Prop :=
  t.thresholds.Pairwise fun a b => Quantity.atMost b x = true → Quantity.atMost a x = true

theorem map_fst_levels (t : ExperienceTable N) : t.levels.map (·.1) = t.thresholds := by
  unfold levels
  rw [List.map_map]
  exact List.zipIdx_map_fst 0 t.thresholds

theorem getElem?_levels (t : ExperienceTable N) (i : ℕ) :
    t.levels[i]? = t.thresholds[i]?.map fun a => (a, Quantity.ofNat (i + 1)) := by
  unfold levels
  rw [List.getElem?_map, List.getElem?_zipIdx, Option.map_map, Nat.zero_add]
  rfl

/-- **The last level whose threshold is reached** is the number of thresholds
reached. -/
theorem lastReached_levels (h : t.ReachesInOrder x) :
    lastReached x Quantity.zero t.levels = Quantity.ofNat (t.levelAt x) := by
  have hlevels : t.levels.Pairwise fun p q =>
      Quantity.atMost q.1 x = true → Quantity.atMost p.1 x = true := by
    rw [ReachesInOrder, ← map_fst_levels] at h
    exact List.pairwise_map.1 h
  have hcount : t.levels.countP (fun p => Quantity.atMost p.1 x) = t.levelAt x := by
    rw [levelAt, ← map_fst_levels, List.countP_map]
    rfl
  have hle : t.levelAt x ≤ t.thresholds.length := List.countP_le_length
  -- the pairs reached come first, so the last of them is at the position before their count
  unfold lastReached reached
  rw [filter_eq_take hlevels, hcount, List.getLast?_take]
  cases hlevel : t.levelAt x with
  | zero => rfl
  | succ k =>
    rw [if_neg (Nat.succ_ne_zero k), Nat.add_sub_cancel, getElem?_levels,
      List.getElem?_eq_getElem (by omega)]
    rfl

/-- **The level**, for any kind of numbers. -/
theorem eval_formula_levelAt {scope : Scope N} (h : t.ReachesInOrder x)
    (hsource : scope.source = .number x) :
    t.formula.eval scope = .ok (.number (Quantity.ofNat (t.levelAt x))) := by
  unfold formula
  split
  · next hempty =>
    unfold levelAt
    rw [List.isEmpty_iff.1 hempty]
    rfl
  · rw [Formula.eval_steps (Formula.eval_source hsource) rfl, lastReached_levels h]

/-- **The experience for the next level**, for any kind of numbers. -/
theorem eval_nextFormula_nextAt {scope : Scope N} (hx : Quantity.index? x = some n)
    (hsource : scope.source = .number x) :
    t.nextFormula.eval scope = .ok (.number (t.nextAt n)) := by
  unfold nextFormula
  split
  · next hempty =>
    unfold nextAt sentinel
    rw [List.isEmpty_iff.1 hempty]
    rfl
  · rw [Formula.eval_table (Formula.eval_source hsource) rfl, tableValue, hx]
    rfl

end AnyNumbers

variable {t : ExperienceTable Float}

/-- The thresholds of a table of doubles ascend. -/
theorem Ascending.pairwise (h : t.Ascending) :
    t.thresholds.Pairwise fun a b => Quantity.atMost a b = true := by
  have htrans : IsTrans Float fun a b => Quantity.atMost a b = true := ⟨fun _ _ _ => atMost_trans⟩
  refine List.IsChain.pairwise ?_
  refine (isChain_of_not_hasDescent h.ascends).imp_of_mem_imp fun a b ha hb hab => ?_
  exact atMost_of_not_atMost (h.numbers a ha) (h.numbers b hb) hab

theorem Ascending.reachesInOrder (h : t.Ascending) (x : Float) : t.ReachesInOrder x :=
  h.pairwise.imp fun hab hb => atMost_trans hab hb

/-- **The level and the experience for the next one.** -/
theorem eval_formulas {multiplier : Float} (hm : multiplier.isFinite = true)
    {values : List String} (h : read multiplier values = .ok t) (hn : n < Text.wholeBound)
    (hsource : scope.source = .number (Quantity.ofNat n)) :
    t.formula.eval scope = .ok (.number (t.valueAt n)) ∧
      t.nextFormula.eval scope = .ok (.number (t.nextAt n)) :=
  ⟨eval_formula_levelAt ((ascending_read hm h).reachesInOrder (Quantity.ofNat n)) hsource,
    eval_nextFormula_nextAt (index?_ofWhole (lt_two_pow_of_lt_wholeBound hn)) hsource⟩

end ExperienceTable

/-! ## All tables -/

/-- **Tables and their formulas agree.** Whatever hit dice, spell slots and
experience are read, and at every level or amount of experience, the formulas
give the numbers that the functions give. -/
theorem eval_tableProgressions (hn : n < Text.wholeBound)
    (hsource : scope.source = .number (Quantity.ofNat n)) :
    (∀ values (p : HitDieProgression Float), HitDieProgression.read values = .ok p →
      p.formula.eval scope = .ok (.number (p.valueAt n)) ∧
      ∃ y, p.bonusFormula.eval scope = .ok (.number y) ∧
        Quantity.equals y (if p.cap < n then Quantity.ofNat (n - p.cap) * p.perLevel
          else Quantity.zero) = true) ∧
    (∀ text t, SpellSlotTable.read text = .ok t →
      (t.formula : Formula Float).eval scope = .ok (.number (t.valueAt n))) ∧
    ∀ multiplier values (t : ExperienceTable Float), multiplier.isFinite = true →
      ExperienceTable.read multiplier values = .ok t →
      t.formula.eval scope = .ok (.number (t.valueAt n)) ∧
      t.nextFormula.eval scope = .ok (.number (t.nextAt n)) := by
  refine ⟨fun values p h => ⟨?_, ?_⟩, fun text t h => ?_, fun multiplier values t hm h => ?_⟩
  · exact HitDieProgression.eval_formula h hn hsource
  · exact HitDieProgression.eval_bonusFormula h hn hsource
  · exact SpellSlotTable.eval_formula h hn hsource
  · exact ExperienceTable.eval_formulas hm h hn hsource

/-- A fighter and a cleric at twenty. -/
theorem eval_tableProgressions_twenty :
    let scope : Scope Float := .ofSource (.number (Quantity.ofNat 20))
    20 < Text.wholeBound ∧
    (∃ p : HitDieProgression Float, HitDieProgression.read ["d10", "9", "3"] = .ok p ∧
      p.formula.eval scope = .ok (.number (p.valueAt 20))) ∧
    (∃ t, SpellSlotTable.read "C1:1=1;2=2;4=3" = .ok t ∧
      (t.formula : Formula Float).eval scope = .ok (.number (t.valueAt 20))) ∧
    ∃ t : ExperienceTable Float,
      ExperienceTable.read (Quantity.ofNat 1000) ["0", "2", "4"] = .ok t ∧
      t.formula.eval scope = .ok (.number (t.valueAt 20)) ∧
      t.nextFormula.eval scope = .ok (.number (t.nextAt 20)) := by
  intro scope
  have hbound : 20 < Text.wholeBound := by decide
  obtain ⟨hhit, hslots, hexperience⟩ := @eval_tableProgressions scope 20 hbound rfl
  obtain ⟨p, hp⟩ := Outcome.exists_of_isOk
    (show (HitDieProgression.read ["d10", "9", "3"] :
      Compiled (HitDieProgression Float)).isOk = true by decide +kernel)
  obtain ⟨t, ht⟩ := Outcome.exists_of_isOk
    (show (SpellSlotTable.read "C1:1=1;2=2;4=3").isOk = true by decide +kernel)
  obtain ⟨e, he⟩ := Outcome.exists_of_isOk
    (show (ExperienceTable.read (Quantity.ofNat 1000 : Float) ["0", "2", "4"]).isOk = true
      by decide +kernel)
  exact ⟨hbound, ⟨p, hp, (hhit _ p hp).1⟩, ⟨t, ht, hslots _ t ht⟩, e, he,
    hexperience _ _ e (by decide) he⟩

end Rulebook
