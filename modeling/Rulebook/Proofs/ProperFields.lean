import Rulebook.Proofs.ReadFormulas
import Rulebook.Proofs.ReadTables

/-!
# The fields of a record and their formulas

The fields of a specification hold numbers, which are finite since a text that
is not finite is refused, and conditions, which are proper. From them the
formulas of the progressions are built, and these are proper too.

Experience is the exception among the numbers. The multiplier may carry a
threshold out of range, so all that is left there is that a threshold is a
number at all. For the threshold beyond the last one this takes that the table
ascends: otherwise the interval between infinities would come up.
-/

namespace Rulebook

/-! ## Building proper formulas -/

namespace Formula.Proper

variable {f g : Formula Float}

theorem finite {x : Float} (h : x.isFinite = true) : (Formula.number x).Proper :=
  .number (Double.isNaN_of_isFinite h)

theorem one : (Formula.number Quantity.one).Proper := finite Double.isFinite_one

theorem whole (n : Nat) : (Formula.whole n).Proper := .number (Double.isNaN_ofWhole n)

theorem zero : (Formula.number Quantity.zero).Proper := whole 0

theorem add (hf : f.Proper) (hg : g.Proper) : (f + g).Proper := .binary .add hf hg

theorem sub (hf : f.Proper) (hg : g.Proper) : (f - g).Proper := .binary .sub hf hg

theorem mul (hf : f.Proper) (hg : g.Proper) : (f * g).Proper := .binary .mul hf hg

theorem div (hf : f.Proper) (hg : g.Proper) : (f / g).Proper := .binary .div hf hg

theorem floor (hf : f.Proper) : f.floor.Proper :=
  .call rfl (List.forall_mem_singleton.2 hf)

theorem matching {pattern : String} (hf : f.Proper) (hg : g.Proper) :
    (Formula.matching f pattern g).Proper :=
  .call rfl (List.forall_mem_cons.2 ⟨hf, List.forall_mem_cons.2
    ⟨.text pattern, List.forall_mem_singleton.2 hg⟩⟩)

theorem foldl_add {fs : List (Formula Float)} (hf : f.Proper) (hfs : ∀ g ∈ fs, g.Proper) :
    (fs.foldl (· + ·) f).Proper := by
  induction fs generalizing f with
  | nil => exact hf
  | cons g fs ih =>
    obtain ⟨hg, hfs⟩ := List.forall_mem_cons.1 hfs
    exact ih (hf.add hg) hfs

/-- A sum of proper terms. -/
theorem sum {fs : List (Formula Float)} (hfs : ∀ g ∈ fs, g.Proper) : (Formula.sum fs).Proper := by
  cases fs with
  | nil => exact zero
  | cons f fs =>
    obtain ⟨hf, hfs⟩ := List.forall_mem_cons.1 hfs
    exact hf.foldl_add hfs

/-- **A step function** has an even number of arguments: two of its own and two
for each step. -/
theorem steps {below : Float} {pairs : List (Float × Float)} (hf : f.Proper)
    (hbelow : below.isNaN = false)
    (hpairs : ∀ p ∈ pairs, p.1.isNaN = false ∧ p.2.isNaN = false) :
    (Formula.steps f below pairs).Proper := by
  refine .call ?_ ?_
  · have hlength : (pairs.flatMap fun (t, v) =>
        [Formula.number t, Formula.number v]).length = 2 * pairs.length := by
      induction pairs with
      | nil => rfl
      | cons p pairs ih =>
        rw [List.flatMap_cons, List.length_append, ih (List.forall_mem_cons.1 hpairs).2]
        simp only [List.length_cons, List.length_nil]
        omega
    simp only [List.length_cons, Function.accepts, hlength, Bool.and_eq_true, decide_eq_true_eq]
    omega
  · refine List.forall_mem_cons.2 ⟨hf, List.forall_mem_cons.2 ⟨.number hbelow, ?_⟩⟩
    intro a ha
    obtain ⟨p, hp, ha⟩ := List.mem_flatMap.1 ha
    obtain rfl | ha := List.mem_cons.1 ha
    · exact .number (hpairs p hp).1
    · obtain rfl := List.mem_singleton.1 ha
      exact .number (hpairs p hp).2

theorem table {fallback : Float} {values : List Float} (hf : f.Proper)
    (hfallback : fallback.isNaN = false) (hvalues : ∀ x ∈ values, x.isNaN = false) :
    (Formula.table f fallback values).Proper := by
  refine .call ?_ ?_
  · simp only [List.length_cons, Function.accepts, decide_eq_true_eq]
    omega
  · refine List.forall_mem_cons.2 ⟨hf, List.forall_mem_cons.2 ⟨.number hfallback, ?_⟩⟩
    intro a ha
    obtain ⟨x, hx, rfl⟩ := List.mem_map.1 ha
    exact .number (hvalues x hx)

theorem scaled {factor : Float} (hf : f.Proper) (h : factor.isFinite = true) :
    (f.scaled factor).Proper := by
  unfold Formula.scaled
  split
  · exact hf
  · exact hf.mul (finite h)

/-- The completed periods. -/
theorem elapsed (p : Period) : (p.elapsed : Formula Float).Proper := by
  unfold Period.elapsed
  dsimp only
  split
  · exact source.sub one
  · exact ((source.sub one).div (whole _)).floor

end Formula.Proper

/-! ## Numbers -/

theorem isFinite_of_readNumber {text : String} {x : Float} (h : readNumber text = .ok x) :
    x.isFinite = true := by
  unfold readNumber at h
  split at h
  · split at h
    · cases h
      assumption
    · cases h
  · cases h

/-- Removing the noise from a number leaves a number. -/
theorem ExperienceTable.isNaN_withoutNoise {x : Float} (hx : x.isNaN = false) :
    (withoutNoise x).isNaN = false := by
  unfold withoutNoise
  dsimp only
  split
  · exact Double.isNaN_of_isFinite ‹_›
  · exact hx

/-! ## Progressions -/

namespace AttackProgression

/-- All numbers of an attack progression are finite. -/
structure Finite (p : AttackProgression Float) : Prop where
  base : p.base.isFinite = true
  increment : p.increment.isFinite = true
  bonus : ∀ step ∈ p.step, step.bonus.isFinite = true

theorem finite_step {text : String} {step : Option (AttackStep Float)}
    (h : AttackStep.read text = .ok step) : ∀ s ∈ step, s.bonus.isFinite = true := by
  unfold AttackStep.read at h
  dsimp only at h
  split at h
  · cases h
    nofun
  · split at h
    · cases h
    · obtain ⟨fromLevel, -, h⟩ := Outcome.bind_eq_ok.1 h
      split at h
      · cases h
      · obtain ⟨bonus, hbonus, h⟩ := Outcome.bind_eq_ok.1 h
        cases h
        intro s hs
        cases hs
        exact isFinite_of_readNumber hbonus

theorem finite_read {values : List String} {p : AttackProgression Float}
    (h : read values = .ok p) : p.Finite := by
  unfold read at h
  split at h
  · simp only [Outcome.bind_eq_ok] at h
    obtain ⟨base, hbase, increment, hincrement, period, -, step, hstep, h⟩ := h
    cases h
    exact ⟨isFinite_of_readNumber hbase, isFinite_of_readNumber hincrement, finite_step hstep⟩
  · cases h

theorem proper_formula {p : AttackProgression Float} (h : p.Finite) : p.formula.Proper := by
  refine .sum (fun f hf => ?_)
  unfold terms at hf
  obtain hf | hf := List.mem_append.1 hf
  · obtain hf | hf := List.mem_append.1 hf
    · split at hf
      · cases hf
      · obtain rfl := List.mem_singleton.1 hf
        exact .finite h.base
    · split at hf
      · cases hf
      · obtain rfl := List.mem_singleton.1 hf
        exact (Formula.Proper.elapsed _).scaled h.increment
  · split at hf
    · next step hstep =>
      obtain rfl := List.mem_singleton.1 hf
      exact .choose (.binary .ge .source (.whole _)) (.finite (h.bonus step hstep)) .zero
    · cases hf

end AttackProgression

namespace HitDieProgression

theorem finite_read {values : List String} {p : HitDieProgression Float}
    (h : read values = .ok p) : p.perLevel.isFinite = true := by
  unfold read at h
  split at h
  · obtain ⟨die, -, h⟩ := Outcome.bind_eq_ok.1 h
    obtain ⟨cap, -, h⟩ := Outcome.bind_eq_ok.1 h
    split at h
    · cases h
    · obtain ⟨perLevel, hperLevel, h⟩ := Outcome.bind_eq_ok.1 h
      cases h
      exact isFinite_of_readNumber hperLevel
  · cases h

theorem proper_formula (p : HitDieProgression Float) : p.formula.Proper := by
  refine .call rfl (List.forall_mem_cons.2 ⟨?_, List.forall_mem_singleton.2 (.whole _)⟩)
  split
  · exact Formula.Proper.source.add (.whole _)
  · exact .source

theorem proper_bonusFormula {p : HitDieProgression Float} (h : p.perLevel.isFinite = true) :
    p.bonusFormula.Proper := by
  unfold bonusFormula
  split
  · exact .zero
  · exact .choose (.binary .gt .source (.whole _))
      ((Formula.Proper.source.sub (.whole _)).scaled h) .zero

end HitDieProgression

namespace SaveProgression

/-- All numbers of a saving throw are finite. -/
structure Finite (p : SaveProgression Float) : Prop where
  base : p.base.isFinite = true
  decrement : p.decrement.isFinite = true

theorem finite_read {values : List String} {p : SaveProgression Float}
    (h : read values = .ok p) : p.Finite := by
  unfold read at h
  split at h
  · simp only [Outcome.bind_eq_ok] at h
    obtain ⟨base, hbase, decrement, hdecrement, period, -, h⟩ := h
    cases h
    exact ⟨isFinite_of_readNumber hbase, isFinite_of_readNumber hdecrement⟩
  · cases h

theorem proper_formula {p : SaveProgression Float} (h : p.Finite) : p.formula.Proper := by
  unfold formula
  split
  · exact .finite h.base
  · have hreduction := (Formula.Proper.elapsed p.period).scaled h.decrement
    dsimp only
    split
    · exact (Formula.Proper.finite h.base).sub hreduction
    · exact (Formula.Proper.finite h.base).sub hreduction.floor

end SaveProgression

namespace ProficiencyProgression

/-- All numbers of weapon proficiencies are finite. -/
structure Finite (p : ProficiencyProgression Float) : Prop where
  initial : p.initial.isFinite = true
  penalty : p.penalty.isFinite = true

theorem finite_read {values : List String} {p : ProficiencyProgression Float}
    (h : read values = .ok p) : p.Finite := by
  unfold read at h
  split at h
  · simp only [Outcome.bind_eq_ok] at h
    obtain ⟨initial, hinitial, period, -, penalty, hpenalty, h⟩ := h
    cases h
    exact ⟨isFinite_of_readNumber hinitial, isFinite_of_readNumber hpenalty⟩
  · cases h

theorem proper_formula {p : ProficiencyProgression Float} (h : p.Finite) : p.formula.Proper :=
  (Formula.Proper.finite h.initial).add (.elapsed p.period)

end ProficiencyProgression

theorem SpellSlotTable.proper_formula (t : SpellSlotTable) :
    (t.formula : Formula Float).Proper := by
  unfold formula
  split
  · exact .zero
  · refine .steps .source (Double.isNaN_ofWhole 0) (fun p hp => ?_)
    obtain ⟨step, -, rfl⟩ := List.mem_map.1 hp
    exact ⟨Double.isNaN_ofWhole _, Double.isNaN_ofWhole _⟩

namespace ExperienceTable

/-- **A table of ascending numbers**, some of which may be infinite. -/
structure Ascending (t : ExperienceTable Float) : Prop where
  numbers : ∀ x ∈ t.thresholds, x.isNaN = false
  ascends : hasDescent t.thresholds = false

theorem ascending_read {multiplier : Float} (hm : multiplier.isFinite = true)
    {values : List String} {t : ExperienceTable Float} (h : read multiplier values = .ok t) :
    t.Ascending := by
  obtain ⟨thresholds, hthresholds, h⟩ := Outcome.bind_eq_ok.1 h
  split at h
  · cases h
  · next hascends =>
    cases h
    refine ⟨Outcome.forall_of_mapM hthresholds (fun text _ x hx => ?_),
      Bool.eq_false_iff.2 hascends⟩
    obtain ⟨y, hy, hx⟩ := Outcome.bind_eq_ok.1 hx
    cases hx
    exact isNaN_withoutNoise (Double.isNaN_mul (isFinite_of_readNumber hy) hm)

/-- The last two thresholds of a table that does not descend. -/
theorem not_le_of_not_hasDescent {xs : List Float} {x y : Float}
    (h : hasDescent (xs ++ [x, y]) = false) : ¬ y ≤ x := by
  induction xs with
  | nil =>
    have h : (Quantity.atMost y x || false) = false := h
    rw [Bool.or_false] at h
    exact of_decide_eq_false h
  | cons a xs ih =>
    cases xs with
    | nil => exact ih (Bool.or_eq_false_iff.1 h).2
    | cons b xs => exact ih (Bool.or_eq_false_iff.1 h).2

theorem isNaN_sentinel {t : ExperienceTable Float} (h : t.Ascending) :
    t.sentinel.isNaN = false := by
  unfold sentinel
  split
  · exact Double.isNaN_ofWhole 0
  · next only hreverse =>
    have honly : only ∈ t.thresholds := by
      rw [← List.mem_reverse, hreverse]
      exact List.mem_cons_self ..
    exact Double.isNaN_add_one (h.numbers only honly)
  · next last before rest hreverse =>
    have hthresholds : t.thresholds = rest.reverse ++ [before, last] := by
      rw [← List.reverse_reverse t.thresholds, hreverse]
      simp
    have hascends := h.ascends
    rw [hthresholds] at hascends
    refine Double.isNaN_beyond (h.numbers last ?_) (h.numbers before ?_)
      (not_le_of_not_hasDescent hascends) <;> simp [hthresholds]

theorem proper_formula {t : ExperienceTable Float} (h : t.Ascending) : t.formula.Proper := by
  unfold formula
  split
  · exact .zero
  · refine .steps .source (Double.isNaN_ofWhole 0) (fun p hp => ?_)
    obtain ⟨⟨x, i⟩, hx, rfl⟩ := List.mem_map.1 hp
    exact ⟨h.numbers x (List.fst_mem_of_mem_zipIdx hx), Double.isNaN_ofWhole _⟩

theorem proper_nextFormula {t : ExperienceTable Float} (h : t.Ascending) :
    t.nextFormula.Proper := by
  unfold nextFormula
  split
  · exact .zero
  · exact .table .source (isNaN_sentinel h) h.numbers

end ExperienceTable

/-! ## Fields -/

/-- The conditions of all of some features are proper. -/
def LeveledFeature.AllProper (features : List LeveledFeature) : Prop :=
  ∀ feature ∈ features, ∀ f ∈ feature.condition, f.Proper

/-- **What is known of the content of a field** that was read. -/
def Shape.Sound : (s : Shape) → s.Content → Prop
  | .text, _ | .list, _ | .spellSlots, _ => True
  | .number, x => (x : Float).isFinite = true
  | .leveled, features => LeveledFeature.AllProper features
  | .attack, p => AttackProgression.Finite p
  | .hitDie, p => (p : HitDieProgression Float).perLevel.isFinite = true
  | .save, p => SaveProgression.Finite p
  | .experience, t => ExperienceTable.Ascending t
  | .proficiency, p => ProficiencyProgression.Finite p

theorem Shape.sound_read {multiplier : Float} (hm : multiplier.isFinite = true)
    {values : List String} {s : Shape} {content : s.Content}
    (h : s.read multiplier values = .ok content) : s.Sound content := by
  cases s with
  | text | list | spellSlots => trivial
  | number =>
    obtain ⟨text, -, h⟩ := Outcome.bind_eq_ok.1 h
    exact isFinite_of_readNumber h
  | leveled =>
    exact Outcome.forall_of_mapM h (fun entry _ feature hf => LeveledFeature.proper_condition hf)
  | attack => exact AttackProgression.finite_read h
  | hitDie => exact HitDieProgression.finite_read h
  | save => exact SaveProgression.finite_read h
  | experience => exact ExperienceTable.ascending_read hm h
  | proficiency => exact ProficiencyProgression.finite_read h

namespace FieldTable

/-- **All fields of a table are sound.** -/
def Sound (t : FieldTable) : Prop := ∀ field ∈ t.fields, field.2.shape.Sound field.2.content

/-- **A specification that is read** has sound fields only. -/
theorem sound_read {kind : Kind} {multiplier : Float} (hm : multiplier.isFinite = true)
    {spec : String} {t : FieldTable} (h : read kind multiplier spec = .ok t) : t.Sound := by
  obtain ⟨raws, -, hfields⟩ := exists_readFrom h
  intro field hfield
  obtain ⟨raw, -, hread⟩ := hfields field hfield
  exact Shape.sound_read hm hread.content

variable {t : FieldTable} {name : String} {s : Shape}

/-- Looking a field up gives one that is there. -/
theorem sound_optional (ht : t.Sound) {content : Option s.Content}
    (h : t.optional s name = .ok content) : ∀ c ∈ content, s.Sound c := by
  rintro c rfl
  exact ht _ (mem_of_optional h)

theorem sound_require (ht : t.Sound) {content : s.Content} (h : t.require s name = .ok content) :
    s.Sound content :=
  ht _ (mem_of_require h)

theorem sound_leveled (ht : t.Sound) {features : List LeveledFeature}
    (h : t.leveled name = .ok features) :
    LeveledFeature.AllProper features := by
  obtain ⟨content, hcontent, rfl⟩ := Outcome.map_eq_ok.1 h
  cases content with
  | none => exact fun _ h => nomatch h
  | some features => exact sound_optional ht hcontent features rfl

end FieldTable

end Rulebook
