import Rulebook.Proofs.DoubleOrder
import Rulebook.Proofs.Doubles
import Rulebook.Proofs.FormulaValues

/-!
# What a step function gives

A step function is documented to give the value of the highest threshold that is
not above its input. The evaluator does not look for the highest one: it goes
through the pairs once, and every threshold that the input reaches takes over. So
the value is that of the reached threshold which stands *last*.

Progressions write their thresholds in ascending order, and then the last one
reached is the highest. In an expression the pairs stand as their author wrote
them: thresholds in another order give some input the value of a lower threshold,
and only ascending thresholds give no input such a value.
-/

namespace Rulebook

/-! ## Conditions met up to some point -/

section UpToSomePoint

variable {α : Type} {p : α → Bool} {xs : List α}

/-- If a condition is met before whatever meets it, those that meet it come
first. -/
theorem filter_eq_takeWhile (h : xs.Pairwise fun x y => p y = true → p x = true) :
    xs.filter p = xs.takeWhile p := by
  induction xs with
  | nil => rfl
  | cons x xs ih =>
    obtain ⟨hx, h⟩ := List.pairwise_cons.1 h
    by_cases hp : p x = true
    · rw [List.filter_cons_of_pos hp, List.takeWhile_cons_of_pos hp, ih h]
    · have hnone : xs.filter p = [] :=
        List.filter_eq_nil_iff.2 fun y hy hpy => hp (hx y hy hpy)
      rw [List.filter_cons_of_neg hp, List.takeWhile_cons_of_neg hp, hnone]

/-- They are as many as their count, from the first on. -/
theorem filter_eq_take (h : xs.Pairwise fun x y => p y = true → p x = true) :
    xs.filter p = xs.take (xs.countP p) := by
  rw [List.countP_eq_length_filter, filter_eq_takeWhile h]
  exact List.prefix_iff_eq_take.1 (List.takeWhile_prefix p)

/-- Their places are those below the count. -/
theorem getElem_iff_lt_countP (h : xs.Pairwise fun x y => p y = true → p x = true) {i : Nat}
    (hi : i < xs.length) : p xs[i] = true ↔ i < xs.countP p := by
  induction xs generalizing i with
  | nil => cases hi
  | cons x xs ih =>
    obtain ⟨hx, h⟩ := List.pairwise_cons.1 h
    by_cases hp : p x = true
    · rw [List.countP_cons_of_pos hp]
      cases i with
      | zero => exact iff_of_true hp (Nat.succ_pos _)
      | succ i => exact (ih h (Nat.lt_of_succ_lt_succ hi)).trans Nat.succ_lt_succ_iff.symm
    · have hnone : ∀ y ∈ xs, ¬ p y = true := fun y hy hpy => hp (hx y hy hpy)
      rw [List.countP_cons_of_neg hp, List.countP_eq_zero.2 hnone]
      refine iff_of_false (fun hpi => ?_) (Nat.not_lt_zero i)
      cases i with
      | zero => exact hp hpi
      | succ i => exact hnone _ (List.getElem_mem _) hpi

end UpToSomePoint

/-! ## The last pair reached -/

section LastReached

variable {N : Type} [Quantity N] {scope : Scope N} {input : Formula N} {v : Value N} {x : N}

/-- **The pairs whose thresholds an input reaches**, in their order. -/
def reached (x : N) (pairs : List (N × N)) : List (N × N) :=
  pairs.filter fun p => Quantity.atMost p.1 x

theorem reached_cons_of_pos {p : N × N} {pairs : List (N × N)}
    (hp : Quantity.atMost p.1 x = true) : reached x (p :: pairs) = p :: reached x pairs :=
  List.filter_cons.trans (if_pos hp)

theorem reached_cons_of_neg {p : N × N} {pairs : List (N × N)}
    (hp : ¬ Quantity.atMost p.1 x = true) : reached x (p :: pairs) = reached x pairs :=
  List.filter_cons.trans (if_neg hp)

/-- **The value of the last pair reached**, and what is below all of them
otherwise. -/
def lastReached (x below : N) (pairs : List (N × N)) : N :=
  ((reached x pairs).getLast?.map (·.2)).getD below

/-- **Taking over again and again** leaves the last value. -/
theorem stepValue_eq (x below : N) (pairs : List (N × N)) :
    stepValue x below (pairs.flatMap fun p => [p.1, p.2]) = lastReached x below pairs := by
  induction pairs generalizing below with
  | nil => rfl
  | cons p pairs ih =>
    show stepValue x (if Quantity.atMost p.1 x then p.2 else below)
      (pairs.flatMap fun p => [p.1, p.2]) = _
    rw [ih]
    unfold lastReached
    by_cases hp : Quantity.atMost p.1 x = true
    · rw [if_pos hp, reached_cons_of_pos hp, List.getLast?_cons]
      cases (reached x pairs).getLast? <;> rfl
    · rw [if_neg hp, reached_cons_of_neg hp]

/-- **A step function gives the value of the last threshold that its input
reaches**, whatever the order of the thresholds. -/
theorem Formula.eval_steps (hinput : input.eval scope = .ok v) (hv : v.asNumber = some x)
    (below : N) (pairs : List (N × N)) :
    (steps input below pairs).eval scope = .ok (.number (lastReached x below pairs)) := by
  have hargs : (number below :: pairs.flatMap fun p => [number p.1, number p.2]) =
      (below :: pairs.flatMap fun p => [p.1, p.2]).map number := by
    rw [List.map_cons, List.map_flatMap]
    rfl
  have haccepts : Function.steps.accepts
      ((below :: pairs.flatMap fun p => [p.1, p.2]).length + 1) = true := by
    have hlength : (pairs.flatMap fun p => [p.1, p.2]).length = 2 * pairs.length := by
      simp [List.length_flatMap, Nat.mul_comm]
    rw [List.length_cons, hlength]
    simp only [Function.accepts, Bool.and_eq_true, decide_eq_true_eq]
    omega
  rw [steps, hargs, eval_call _ haccepts (by decide) hinput hv]
  exact congrArg (fun y => Except.ok (Value.number y)) (stepValue_eq x below pairs)

/-- **A look-up gives what the table holds at the position.** -/
theorem Formula.eval_table (hinput : input.eval scope = .ok v) (hv : v.asNumber = some x)
    (fallback : N) (values : List N) :
    (table input fallback values).eval scope = .ok (.number (tableValue x fallback values)) := by
  have haccepts : Function.table.accepts ((fallback :: values).length + 1) = true := by
    simp only [Function.accepts, List.length_cons, decide_eq_true_eq]
    omega
  exact eval_call (fallback :: values) haccepts (by decide) hinput hv

end LastReached

/-! ## The highest threshold reached -/

section Highest

variable {N : Type} [Quantity N]

/-- **A pair with the highest threshold that an input reaches.** -/
def Highest (x : N) (pairs : List (N × N)) (p : N × N) : Prop :=
  p ∈ reached x pairs ∧ ∀ q ∈ reached x pairs, Quantity.atMost q.1 p.1 = true

/-- **What a step function is documented to give**: the value of the highest
threshold not above the input, or what is below all of them. -/
def StepsTo (x below : N) (pairs : List (N × N)) (y : N) : Prop :=
  (∃ p, Highest x pairs p ∧ p.2 = y) ∨ reached x pairs = [] ∧ y = below

/-- No pair that an input reaches stands behind a higher one that it reaches. -/
def LastIsHighest (x : N) (pairs : List (N × N)) : Prop :=
  ∀ p, (reached x pairs).getLast? = some p → Highest x pairs p

theorem LastIsHighest.stepsTo {x : N} {pairs : List (N × N)} (h : LastIsHighest x pairs)
    (below : N) : StepsTo x below pairs (lastReached x below pairs) := by
  unfold lastReached
  cases hlast : (reached x pairs).getLast? with
  | none => exact .inr ⟨List.getLast?_eq_none_iff.1 hlast, rfl⟩
  | some p => exact .inl ⟨p, h p hlast, rfl⟩

end Highest

section OnDoubles

open Double

variable {x y below : Float} {pairs : List (Float × Float)}

/-- Different thresholds rank differently. -/
theorem nodup_ranks (hfinite : ∀ p ∈ pairs, p.1.isFinite = true)
    (hdistinct : pairs.Pairwise fun p q => Quantity.equals p.1 q.1 = false) :
    (pairs.map fun p => rank p.1).Nodup := by
  refine List.pairwise_map.2 (hdistinct.imp_of_mem fun {p q} hp hq hne heq => ?_)
  have hequals := (equals_iff (isNaN_of_isFinite (hfinite p hp))
    (isNaN_of_isFinite (hfinite q hq))).2 heq
  exact Bool.eq_false_iff.1 hne hequals

/-- **There is one highest threshold** if all are different. -/
theorem Highest.unique (hdistinct : (pairs.map fun p => rank p.1).Nodup)
    {p q : Float × Float} (hp : Highest x pairs p) (hq : Highest x pairs q) : p = q := by
  have hpq := hq.2 p hp.1
  have hqp := hp.2 q hq.1
  obtain ⟨hp', hq'⟩ := isNaN_of_atMost hpq
  exact List.inj_on_of_nodup_map hdistinct (List.mem_filter.1 hp.1).1 (List.mem_filter.1 hq.1).1
    (le_antisymm ((atMost_iff hp' hq').1 hpq) ((atMost_iff hq' hp').1 hqp))

/-- **The documented value is determined.** -/
theorem StepsTo.unique (hdistinct : (pairs.map fun p => rank p.1).Nodup) {z : Float}
    (hy : StepsTo x below pairs y) (hz : StepsTo x below pairs z) : y = z := by
  have hnone {p : Float × Float} (hp : Highest x pairs p) (h : reached x pairs = []) : False :=
    List.not_mem_nil (h ▸ hp.1)
  obtain ⟨p, hp, rfl⟩ | ⟨hy, rfl⟩ := hy <;> obtain ⟨q, hq, rfl⟩ | ⟨hz, rfl⟩ := hz
  · rw [hp.unique hdistinct hq]
  · exact (hnone hp hz).elim
  · exact (hnone hq hy).elim
  · rfl

theorem atMost_of_less (h : Quantity.less x y = true) : Quantity.atMost x y = true := by
  rw [less_eq, beq_iff_eq] at h
  rw [atMost_eq, h]
  rfl

/-- **Ascending thresholds**: the last one that is reached is the highest. -/
theorem lastIsHighest_of_ascending
    (h : pairs.Pairwise fun p q => Quantity.less p.1 q.1 = true) (x : Float) :
    LastIsHighest x pairs := by
  intro p hp
  obtain ⟨front, hreached⟩ := List.getLast?_eq_some_iff.1 hp
  have hmem : p ∈ reached x pairs := hreached ▸ List.mem_concat_self
  have hsorted : (front ++ [p]).Pairwise fun p q => Quantity.less p.1 q.1 = true :=
    hreached ▸ h.filter _
  refine ⟨hmem, fun q hq => ?_⟩
  obtain hq | hq := List.mem_append.1 (hreached ▸ hq)
  · exact atMost_of_less ((List.pairwise_append.1 hsorted).2.2 q hq p (List.mem_singleton_self p))
  · obtain rfl := List.mem_singleton.1 hq
    have hnumber := (isNaN_of_atMost (List.mem_filter.1 hmem).2).1
    exact (atMost_iff hnumber hnumber).2 le_rfl

/-- At its own threshold a pair is the highest. -/
theorem highest_self (hfinite : ∀ p ∈ pairs, p.1.isFinite = true) {p : Float × Float}
    (hp : p ∈ pairs) : Highest p.1 pairs p := by
  have hnumber := isNaN_of_isFinite (hfinite p hp)
  have hself : Quantity.atMost p.1 p.1 = true := (atMost_iff hnumber hnumber).2 le_rfl
  exact ⟨List.mem_filter.2 ⟨hp, hself⟩, fun q hq => (List.mem_filter.1 hq).2⟩

/-- Then the highest one is that which stands last. -/
theorem LastIsHighest.getLast?_eq (hdistinct : (pairs.map fun p => rank p.1).Nodup)
    (h : LastIsHighest x pairs) {p : Float × Float} (hp : Highest x pairs p) :
    (reached x pairs).getLast? = some p := by
  obtain ⟨last, hlast⟩ : ∃ last, (reached x pairs).getLast? = some last :=
    Option.ne_none_iff_exists'.1 (mt List.getLast?_eq_none_iff.1 (List.ne_nil_of_mem hp.1))
  rw [hlast, (h last hlast).unique hdistinct hp]

/-- **Only ascending thresholds** let every input end on the highest one it
reaches. -/
theorem ascending_of_forall_lastIsHighest (hfinite : ∀ p ∈ pairs, p.1.isFinite = true)
    (hdistinct : (pairs.map fun p => rank p.1).Nodup)
    (h : ∀ x : Float, x.isFinite = true → LastIsHighest x pairs) :
    pairs.Pairwise fun p q => Quantity.less p.1 q.1 = true := by
  refine List.pairwise_iff_forall_sublist.2 fun {p q} hsub => ?_
  have hp : p ∈ pairs := hsub.subset (List.mem_cons_self ..)
  have hq : q ∈ pairs := hsub.subset (List.mem_cons_of_mem _ (List.mem_cons_self ..))
  have hpnumber := isNaN_of_isFinite (hfinite p hp)
  have hqnumber := isNaN_of_isFinite (hfinite q hq)
  rw [less_iff hpnumber hqnumber]
  by_contra hle
  -- the threshold of `p` reaches both, and `p` is the highest and stands last
  have hhighest := highest_self hfinite hp
  obtain ⟨front, hreached⟩ := List.getLast?_eq_some_iff.1
    ((h p.1 (hfinite p hp)).getLast?_eq hdistinct hhighest)
  have hboth : List.Sublist [p, q] (reached p.1 pairs) := by
    have hpp := (List.mem_filter.1 hhighest.1).2
    have hqp : Quantity.atMost q.1 p.1 = true := (atMost_iff hqnumber hpnumber).2 (not_lt.1 hle)
    have hfilter := hsub.filter fun r => Quantity.atMost r.1 p.1
    rwa [List.filter_eq_self.2 (by simp [hpp, hqp])] at hfilter
  -- but `q` stands behind `p`, which is there only once
  have hnodup : (front ++ [p]).Nodup := hreached ▸ (hdistinct.of_map _).filter _
  have hfront : p ∈ front := by
    have htail := (hreached ▸ hboth).reverse.tail
    rw [List.reverse_append] at htail
    exact List.mem_reverse.1 (htail.subset (List.mem_singleton_self p))
  exact List.disjoint_of_nodup_append hnodup hfront (List.mem_singleton_self p)

/-- If all values are different, the value tells which pair it is from. -/
theorem lastIsHighest_of_stepsTo (hvalues : (pairs.map (·.2)).Nodup)
    (h : StepsTo x below pairs (lastReached x below pairs)) : LastIsHighest x pairs := by
  intro last hlast
  have hmem : last ∈ reached x pairs := List.mem_of_getLast? hlast
  unfold lastReached at h
  rw [hlast] at h
  obtain ⟨p, hp, heq⟩ | ⟨hnone, -⟩ := h
  · have hlastp : p = last := List.inj_on_of_nodup_map hvalues (List.mem_filter.1 hp.1).1
      (List.mem_filter.1 hmem).1 heq
    exact hlastp ▸ hp
  · rw [hnone] at hmem
    cases hmem

/-- **When a step function gives what it is documented to give.** Its value is
that of the last pair reached. This is the documented one if no reached pair
stands behind a higher one. So it is for every input if the thresholds ascend, and
if all values are different, only then. -/
theorem Formula.eval_steps_highest (below : Float) (hfinite : ∀ p ∈ pairs, p.1.isFinite = true)
    (hdistinct : pairs.Pairwise fun p q => Quantity.equals p.1 q.1 = false) :
    (∀ (scope : Scope Float) (input : Formula Float) v x, input.eval scope = .ok v →
      v.asNumber = some x →
      (steps input below pairs).eval scope = .ok (.number (lastReached x below pairs))) ∧
    (∀ x, LastIsHighest x pairs →
      ∀ y, StepsTo x below pairs y ↔ y = lastReached x below pairs) ∧
    (pairs.Pairwise (fun p q => Quantity.less p.1 q.1 = true) → ∀ x, LastIsHighest x pairs) ∧
    ((pairs.map (·.2)).Nodup →
      (∀ x, x.isFinite = true → StepsTo x below pairs (lastReached x below pairs)) →
      pairs.Pairwise fun p q => Quantity.less p.1 q.1 = true) := by
  have hranks := nodup_ranks hfinite hdistinct
  refine ⟨fun scope input v x hinput hv => eval_steps hinput hv below pairs, fun x hlast y => ?_,
    lastIsHighest_of_ascending, fun hvalues hsteps => ?_⟩
  · exact ⟨fun hy => hy.unique hranks (hlast.stepsTo below), fun hy => hy ▸ hlast.stepsTo below⟩
  · exact ascending_of_forall_lastIsHighest hfinite hranks fun x hx =>
      lastIsHighest_of_stepsTo hvalues (hsteps x hx)

/-- Two thresholds in ascending order, at an input between them. -/
theorem Formula.eval_steps_highest_ascending :
    let pairs : List (Float × Float) :=
      [(Quantity.ofNat 2, Quantity.ofNat 20), (Quantity.ofNat 4, Quantity.ofNat 40)]
    (∀ p ∈ pairs, p.1.isFinite = true) ∧
      pairs.Pairwise (fun p q => Quantity.equals p.1 q.1 = false) ∧
      LastIsHighest (Quantity.ofNat 3) pairs ∧
      (steps source Quantity.zero pairs).eval (.ofSource (.number (Quantity.ofNat 3))) =
        .ok (.number (Quantity.ofNat 20)) ∧
      ∀ y, StepsTo (Quantity.ofNat 3) Quantity.zero pairs y ↔ y = Quantity.ofNat 20 := by
  intro pairs
  have hfinite : ∀ p ∈ pairs, p.1.isFinite = true := by decide
  have hdistinct : pairs.Pairwise fun p q => Quantity.equals p.1 q.1 = false := by decide
  have hlast : LastIsHighest (Quantity.ofNat 3) pairs :=
    lastIsHighest_of_ascending (by decide) (Quantity.ofNat 3)
  obtain ⟨heval, hsteps, -⟩ := eval_steps_highest Quantity.zero hfinite hdistinct
  have hthree := heval (.ofSource (.number (Quantity.ofNat 3))) source _ _ rfl rfl
  exact ⟨hfinite, hdistinct, hlast, hthree, hsteps _ hlast⟩

/-- **Two thresholds in descending order**: an input that reaches both of them gets
the value of the lower one. -/
theorem Formula.eval_steps_descending :
    let pairs : List (Float × Float) :=
      [(Quantity.ofNat 3, Quantity.ofNat 30), (Quantity.ofNat 2, Quantity.ofNat 20)]
    (∀ p ∈ pairs, p.1.isFinite = true ∧ p.2.isFinite = true) ∧
      pairs.Pairwise (fun p q => Quantity.equals p.1 q.1 = false) ∧
      (steps source Quantity.zero pairs).eval (.ofSource (.number (Quantity.ofNat 3))) =
        .ok (.number (Quantity.ofNat 20)) ∧
      (∀ y, StepsTo (Quantity.ofNat 3) Quantity.zero pairs y ↔ y = Quantity.ofNat 30) ∧
      Quantity.equals (Quantity.ofNat 20) (Quantity.ofNat 30 : Float) = false := by
  intro pairs
  have hfinite : ∀ p ∈ pairs, p.1.isFinite = true ∧ p.2.isFinite = true := by decide
  have hdistinct : pairs.Pairwise fun p q => Quantity.equals p.1 q.1 = false := by decide
  have hranks := nodup_ranks (fun p hp => (hfinite p hp).1) hdistinct
  have hreached : reached (Quantity.ofNat 3) pairs = pairs := List.filter_eq_self.2 (by decide)
  have hhighest : Highest (Quantity.ofNat 3) pairs (Quantity.ofNat 3, Quantity.ofNat 30) := by
    unfold Highest
    rw [hreached]
    exact ⟨List.mem_cons_self .., by decide⟩
  have hdocumented : StepsTo (Quantity.ofNat 3) Quantity.zero pairs (Quantity.ofNat 30) :=
    .inl ⟨_, hhighest, rfl⟩
  have hinput : source.eval (.ofSource (.number (Quantity.ofNat 3 : Float))) =
    .ok (.number (Quantity.ofNat 3)) := rfl
  have heval := eval_steps hinput rfl Quantity.zero pairs
  rw [lastReached, hreached] at heval
  have hother : Quantity.equals (Quantity.ofNat 20) (Quantity.ofNat 30 : Float) = false := by decide
  have hsteps (y : Float) :
      StepsTo (Quantity.ofNat 3) Quantity.zero pairs y ↔ y = Quantity.ofNat 30 := by
    refine ⟨fun hy => hy.unique hranks hdocumented, ?_⟩
    rintro rfl
    exact hdocumented
  exact ⟨hfinite, hdistinct, heval, hsteps, hother⟩

end OnDoubles

end Rulebook
