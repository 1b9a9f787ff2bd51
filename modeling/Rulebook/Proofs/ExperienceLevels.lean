import Rulebook.Proofs.ExactNumbers
import Rulebook.Proofs.TableProgressions

/-!
# Levels and the experience they need

An experience table is asked two questions: which level an amount of experience
gives, and how much experience the level after a given one needs. The first counts
the thresholds that are reached, the second looks up the threshold at the position
of the level. So the levels are counted from one and the thresholds from zero.

Read exactly, the two questions fit together. The level tells the thresholds
reached from those that are not, and the threshold looked up with it is the first
that is not. Where there is none the answer is beyond the last threshold. All of
this rests on the thresholds ascending, which the reader sees to after scaling and
rounding them.
-/

namespace Rulebook.ExperienceTable

/-! ## What the questions are about -/

/-- **An amount of experience gives a level**: it reaches that many thresholds from
the first one on, and none of the others. -/
structure IsLevel (t : ExperienceTable ℚ) (x : ℚ) (level : ℕ) : Prop where
  le_length : level ≤ t.thresholds.length
  reached : ∀ y ∈ t.thresholds.take level, y ≤ x
  missed : ∀ y ∈ t.thresholds.drop level, x < y

/-- **The two questions fit together.** -/
structure Consistent (t : ExperienceTable ℚ) : Prop where
  /-- The level is the one that the amount of experience gives. -/
  isLevel_iff : ∀ x level, t.IsLevel x level ↔ level = t.levelAt x
  /-- For whole amounts this is the value of the progression. -/
  valueAt_eq : ∀ n : ℕ, t.valueAt n = t.levelAt n
  /-- More experience gives no lower level. -/
  monotone_levelAt : Monotone t.levelAt
  /-- The next level needs the least experience that is not there yet. -/
  isLeast_nextAt : ∀ x, t.levelAt x < t.thresholds.length →
    IsLeast {y | y ∈ t.thresholds ∧ x < y} (t.nextAt (t.levelAt x))
  /-- After the last level the answer is beyond the last threshold. -/
  lt_nextAt : ∀ level, t.thresholds.length ≤ level →
    ∀ last ∈ t.thresholds.getLast?, last < t.nextAt level

/-! ## Ascending thresholds -/

variable {t : ExperienceTable ℚ} {x : ℚ}

theorem pairwise_lt (h : hasDescent t.thresholds = false) : t.thresholds.Pairwise (· < ·) := by
  refine List.IsChain.pairwise ((isChain_of_not_hasDescent h).imp fun a b hab => ?_)
  exact not_le.1 (mt Exact.atMost_iff.2 (Bool.eq_false_iff.1 hab))

/-- **The thresholds reached** are those at the positions below the level. -/
theorem getElem_le_iff (h : hasDescent t.thresholds = false) {i : ℕ}
    (hi : i < t.thresholds.length) : t.thresholds[i] ≤ x ↔ i < t.levelAt x := by
  have hfirst : t.thresholds.Pairwise fun a b =>
      Quantity.atMost b x = true → Quantity.atMost a x = true :=
    (pairwise_lt h).imp fun hab hb => Exact.atMost_iff.2 (hab.le.trans (Exact.atMost_iff.1 hb))
  exact Exact.atMost_iff.symm.trans (getElem_iff_lt_countP hfirst hi)

theorem isLevel_levelAt (h : hasDescent t.thresholds = false) (x : ℚ) :
    t.IsLevel x (t.levelAt x) where
  le_length := List.countP_le_length
  reached y hy := by
    obtain ⟨i, hi, rfl⟩ := List.mem_take_iff_getElem.1 hy
    exact (getElem_le_iff h (by omega)).2 (by omega)
  missed y hy := by
    obtain ⟨i, hi, rfl⟩ := List.mem_drop_iff_getElem.1 hy
    exact not_le.1 (mt (getElem_le_iff h (by omega)).1 (by omega))

/-- **No other number is the level.** This does not need the order of the
thresholds. -/
theorem IsLevel.eq_levelAt {level : ℕ} (h : t.IsLevel x level) : level = t.levelAt x := by
  have hreached : (t.thresholds.take level).countP (Quantity.atMost · x) = level := by
    rw [List.countP_eq_length.2 fun y hy => Exact.atMost_iff.2 (h.reached y hy),
      List.length_take, min_eq_left h.le_length]
  have hmissed : (t.thresholds.drop level).countP (Quantity.atMost · x) = 0 :=
    List.countP_eq_zero.2 fun y hy hle => (h.missed y hy).not_ge (Exact.atMost_iff.1 hle)
  calc level = (t.thresholds.take level).countP (Quantity.atMost · x) +
        (t.thresholds.drop level).countP (Quantity.atMost · x) := by rw [hreached, hmissed]; rfl
    _ = t.levelAt x := by rw [← List.countP_append, List.take_append_drop]; rfl

theorem monotone_levelAt (t : ExperienceTable ℚ) : Monotone t.levelAt := fun _ _ hxy =>
  List.countP_mono_left fun _ _ ha => Exact.atMost_iff.2 ((Exact.atMost_iff.1 ha).trans hxy)

/-! ## The next level -/

/-- **The threshold at the position of the level** is the least one not reached. -/
theorem isLeast_nextAt (h : hasDescent t.thresholds = false)
    (hlevel : t.levelAt x < t.thresholds.length) :
    IsLeast {y | y ∈ t.thresholds ∧ x < y} (t.nextAt (t.levelAt x)) := by
  have hnext : t.nextAt (t.levelAt x) = t.thresholds[t.levelAt x] := by
    rw [nextAt, List.getElem?_eq_getElem hlevel]
    rfl
  have hmissed : x < t.thresholds[t.levelAt x] :=
    not_le.1 (mt (getElem_le_iff h hlevel).1 (lt_irrefl _))
  rw [hnext]
  refine ⟨⟨List.getElem_mem hlevel, hmissed⟩, ?_⟩
  rintro y ⟨hy, hxy⟩
  obtain ⟨i, hi, rfl⟩ := List.mem_iff_getElem.1 hy
  have hle : t.levelAt x ≤ i := not_lt.1 (mt (getElem_le_iff h hi).2 (not_le.2 hxy))
  obtain heq | hlt := hle.eq_or_lt
  · exact le_of_eq (by congr 1)
  · exact (List.pairwise_iff_getElem.1 (pairwise_lt h) _ _ hlevel hi hlt).le

/-- **One interval beyond the last threshold**, or one if there is no interval. -/
theorem lt_sentinel (h : hasDescent t.thresholds = false) {last : ℚ}
    (hlast : last ∈ t.thresholds.getLast?) : last < t.sentinel := by
  rw [List.getLast?_eq_head?_reverse] at hlast
  have hreverse : t.thresholds.reverse.Pairwise (· > ·) := List.pairwise_reverse.2 (pairwise_lt h)
  unfold sentinel
  split
  · next hempty =>
    rw [hempty] at hlast
    cases hlast
  · next only honly =>
    rw [honly] at hlast
    obtain rfl := Option.some.inj hlast
    rw [Exact.one_eq]
    exact lt_add_one only
  · next last' before rest hrest =>
    rw [hrest] at hlast hreverse
    obtain rfl := Option.some.inj hlast
    have hbefore : before < last' :=
      (List.pairwise_cons.1 hreverse).1 before (List.mem_cons_self ..)
    exact lt_add_of_pos_right last' (sub_pos.2 hbefore)

/-! ## Tables that are read -/

theorem consistent_of_not_hasDescent (h : hasDescent t.thresholds = false) : t.Consistent where
  isLevel_iff x level :=
    ⟨IsLevel.eq_levelAt, fun hlevel => hlevel ▸ isLevel_levelAt h x⟩
  valueAt_eq n := rfl
  monotone_levelAt := monotone_levelAt t
  isLeast_nextAt x hlevel := isLeast_nextAt h hlevel
  lt_nextAt level hlevel last hlast := by
    rw [nextAt, List.getElem?_eq_none hlevel]
    exact lt_sentinel h hlast

/-- A table that is read ascends, whatever kind of numbers it is read as. -/
theorem not_hasDescent_of_read {N : Type} [Quantity N] {multiplier : N} {values : List String}
    {t : ExperienceTable N} (h : read multiplier values = .ok t) :
    hasDescent t.thresholds = false := by
  obtain ⟨thresholds, -, h⟩ := Outcome.bind_eq_ok.1 h
  split at h
  · cases h
  · next hascends =>
    cases h
    exact Bool.eq_false_iff.2 hascends

/-- The table that the thresholds of one exactly are. -/
def exact (t : ExperienceTable Float) : ExperienceTable ℚ := ⟨t.thresholds.map Double.exact⟩

theorem hasDescent_exact {xs : List Float} (h : ∀ x ∈ xs, x.isFinite = true) :
    hasDescent (xs.map Double.exact) = hasDescent xs := by
  match xs with
  | [] => rfl
  | [_] => rfl
  | x :: y :: rest =>
    obtain ⟨hx, hrest⟩ := List.forall_mem_cons.1 h
    exact congrArg₂ (· || ·)
      (Double.atMost_exact (List.forall_mem_cons.1 hrest).1 hx) (hasDescent_exact hrest)

theorem levelAt_exact {t : ExperienceTable Float} (h : ∀ x ∈ t.thresholds, x.isFinite = true)
    {x : Float} (hx : x.isFinite = true) : t.exact.levelAt (Double.exact x) = t.levelAt x := by
  unfold levelAt exact
  rw [List.countP_map]
  exact List.countP_congr fun y hy => by
    rw [Function.comp_apply, Double.atMost_exact (h y hy) hx]

/-- **Levels and the experience they need are consistent** in every table that is
read over the rationals. In a table of finite doubles they are as well, if these
are taken for the rationals that they are; and then the levels are those of the
program. -/
theorem consistent_of_read :
    (∀ (multiplier : ℚ) values t, read multiplier values = .ok t → t.Consistent) ∧
    ∀ (multiplier : Float) values t, read multiplier values = .ok t →
      (∀ y ∈ t.thresholds, y.isFinite = true) →
      t.exact.Consistent ∧
        ∀ x, x.isFinite = true → t.exact.levelAt (Double.exact x) = t.levelAt x := by
  refine ⟨fun multiplier values t h => ?_,
    fun multiplier values t h hfinite => ⟨?_, fun x hx => ?_⟩⟩
  · exact consistent_of_not_hasDescent (not_hasDescent_of_read h)
  · refine consistent_of_not_hasDescent ?_
    exact (hasDescent_exact hfinite).trans (not_hasDescent_of_read h)
  · exact levelAt_exact hfinite hx

/-- A table of three levels, scaled by a thousand. -/
theorem consistent_of_read_three : ∃ t : ExperienceTable ℚ,
    read 1000 ["0", "2", "4.5"] = .ok t ∧ t.thresholds = [0, 2000, 4500] ∧ t.Consistent := by
  have hthresholds : ((read (1000 : ℚ) ["0", "2", "4.5"]).map (·.thresholds)).toOption =
      some [0, 2000, 4500] := by decide +kernel
  cases hread : read (1000 : ℚ) ["0", "2", "4.5"] with
  | error e =>
    rw [hread] at hthresholds
    cases hthresholds
  | ok t =>
    rw [hread] at hthresholds
    exact ⟨t, rfl, Option.some.inj hthresholds, consistent_of_read.1 1000 _ t hread⟩

end Rulebook.ExperienceTable
