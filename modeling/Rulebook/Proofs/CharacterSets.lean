import Rulebook.Proofs.WeaponPatterns

/-!
# Sets of characters and letter case

A set is kept as ranges in ascending order, and that is what its complement relies on:
the gaps between the ranges are the other characters only if the ranges come in order.

A set ignores case if it has both cases of a letter or neither. Folding a set is meant to
make it so, and does for most sets. It goes by ranges, though, and a range brings in the
capitals of its small letters or, having none, the small letters of its capitals, but not
both. A range that runs from the capitals into the small letters and ends among them
leaves out the small letters of its last capitals.
-/

namespace Rulebook.CharSet

variable {s : CharSet} {ranges : List (Nat × Nat)} {low first last : Nat} {c d : Char}

/-! ## Ascending ranges -/

/-- Ranges that are the right way round. -/
abbrev Ordered (ranges : List (Nat × Nat)) : Prop := ∀ r ∈ ranges, r.1 ≤ r.2

/-- **Ascending ranges** are the right way round, and each ends before the next begins. -/
structure Ascending (ranges : List (Nat × Nat)) : Prop where
  ordered : Ordered ranges
  apart : ranges.Pairwise fun r s => r.2 < s.1

theorem lt_of_mem_insertRange (hfirst : low < first) (h : ∀ r ∈ ranges, low < r.1) :
    ∀ r ∈ insertRange first last ranges, low < r.1 := by
  fun_induction insertRange first last ranges with
  | case1 first last => exact List.forall_mem_singleton.2 hfirst
  | case2 first last low' high rest hbefore => exact List.forall_mem_cons.2 ⟨hfirst, h⟩
  | case3 first last low' high rest _ hafter ih =>
    obtain ⟨hlow, hrest⟩ := List.forall_mem_cons.1 h
    exact List.forall_mem_cons.2 ⟨hlow, ih hfirst hrest⟩
  | case4 first last low' high rest hbefore hafter ih =>
    obtain ⟨hlow, hrest⟩ := List.forall_mem_cons.1 h
    exact ih (lt_min hfirst hlow) hrest

theorem Ascending.insertRange (h : first ≤ last) (hranges : Ascending ranges) :
    Ascending (insertRange first last ranges) := by
  refine ⟨le_of_mem_insertRange h hranges.ordered, ?_⟩
  obtain ⟨hordered, hapart⟩ := hranges
  fun_induction CharSet.insertRange first last ranges with
  | case1 first last => exact List.pairwise_singleton ..
  | case2 first last low high rest hbefore =>
    refine List.pairwise_cons.2 ⟨List.forall_mem_cons.2 ⟨Nat.lt_of_succ_lt hbefore, ?_⟩, hapart⟩
    intro r hr
    have hlow : low ≤ high := hordered (low, high) (List.mem_cons_self ..)
    have hnext : high < r.1 := (List.pairwise_cons.1 hapart).1 r hr
    omega
  | case3 first last low high rest _ hafter ih =>
    obtain ⟨hnext, hrest⟩ := List.pairwise_cons.1 hapart
    refine List.pairwise_cons.2 ⟨lt_of_mem_insertRange (Nat.lt_of_succ_lt hafter) hnext, ?_⟩
    exact ih h (List.forall_mem_cons.1 hordered).2 hrest
  | case4 first last low high rest hbefore hafter ih =>
    have hlow : low ≤ high := hordered (low, high) (List.mem_cons_self ..)
    exact ih (by omega) (List.forall_mem_cons.1 hordered).2 (List.pairwise_cons.1 hapart).2

/-- **The ranges of a set ascend**, in whatever order they were given. -/
theorem ascending_ofRanges (h : Ordered ranges) : Ascending (ofRanges ranges).ranges := by
  induction ranges with
  | nil => exact ⟨nofun, .nil⟩
  | cons r ranges ih =>
    obtain ⟨hr, hranges⟩ := List.forall_mem_cons.1 h
    exact (ih hranges).insertRange hr

theorem ascending_ofChars (cs : List Char) : Ascending (ofChars cs).ranges :=
  ascending_ofRanges (List.forall_mem_map.2 fun _ _ => Nat.le_refl _)

/-! ## Complements -/

theorem inRanges_gapsFrom (h : Ascending ranges) (hlow : ∀ r ∈ ranges, low ≤ r.1) :
    Text.inRanges (gapsFrom low ranges) c = true ↔
      low ≤ c.toNat ∧ Text.inRanges ranges c = false := by
  induction ranges generalizing low with
  | nil =>
    have hlast : c.toNat ≤ lastCode := by
      have := c.valid
      show c.val.toNat ≤ 0x10ffff
      rcases this with h | h <;> omega
    simp only [gapsFrom]
    split <;> simp [Text.inRanges] <;> omega
  | cons r ranges ih =>
    obtain ⟨hr, hordered⟩ := List.forall_mem_cons.1 h.ordered
    obtain ⟨hnext, hapart⟩ := List.pairwise_cons.1 h.apart
    have hfirst : low ≤ r.1 := hlow r (List.mem_cons_self ..)
    have hrest := ih ⟨hordered, hapart⟩ hnext
    -- what the other ranges begin with lies behind the first range
    have hbehind : Text.inRanges ranges c = true → r.2 < c.toNat := by
      intro hc
      obtain ⟨r', hr', hle, -⟩ := (Text.inRanges_iff ..).1 hc
      exact (hnext r' hr').trans_le hle
    have hcons (r : Nat × Nat) (rs : List (Nat × Nat)) : Text.inRanges (r :: rs) c =
        ((r.1 ≤ c.toNat && c.toNat ≤ r.2) || Text.inRanges rs c) := rfl
    rw [gapsFrom]
    cases hc : Text.inRanges ranges c with
    | true =>
      have hlt := hbehind hc
      split <;> simp [hcons, hrest, hc]
      omega
    | false =>
      split <;> simp [hcons, hrest, hc] <;> omega

/-- **The complement of a set** has the characters that the set has not. -/
theorem contains_complement (h : Ascending s.ranges) :
    s.complement.contains c = !s.contains c := by
  rw [Bool.eq_iff_iff, Bool.not_eq_true']
  exact (inRanges_gapsFrom h fun _ _ => Nat.zero_le _).trans (and_iff_right (Nat.zero_le _))

/-- The gaps are the right way round, whatever the ranges are. -/
theorem ordered_complement (s : CharSet) : Ordered s.complement.ranges := by
  have hgaps : ∀ (ranges : List (Nat × Nat)) (low : Nat), Ordered (gapsFrom low ranges) := by
    intro ranges
    induction ranges with
    | nil =>
      intro low
      rw [gapsFrom]
      split
      · next hlow => exact List.forall_mem_singleton.2 hlow
      · nofun
    | cons r ranges ih =>
      intro low
      rw [gapsFrom]
      split
      · next hlow => exact List.forall_mem_cons.2 ⟨Nat.le_sub_one_of_lt hlow, ih _⟩
      · exact ih _
  exact hgaps s.ranges 0

/-! ## Sets that ignore case -/

/-- **A set ignores case** if it has both cases of a letter or neither. -/
def IgnoresCase (s : CharSet) : Prop :=
  ∀ ⦃c d : Char⦄, c.toLower = d.toLower → s.contains c = s.contains d

/-- A set ignores case if it has the other case of each of its letters. -/
theorem IgnoresCase.of_swapCase
    (h : ∀ c, c.isAlpha = true → s.contains c = true → s.contains (swapCase c) = true) :
    s.IgnoresCase := by
  have himp : ∀ {c d : Char}, c.toLower = d.toLower → s.contains d = true →
      s.contains c = true := by
    intro c d hcd hd
    rw [toLower_eq_toLower_iff] at hcd
    split at hcd
    · next halpha =>
      rcases hcd with rfl | rfl
      · exact hd
      · exact h d halpha hd
    · exact hcd ▸ hd
  intro c d hcd
  exact Bool.eq_iff_iff.2 ⟨himp hcd.symm, himp hcd⟩

theorem IgnoresCase.complement (h : s.IgnoresCase) (hs : Ascending s.ranges) :
    s.complement.IgnoresCase := by
  intro c d hcd
  rw [contains_complement hs, contains_complement hs, h hcd]

theorem ignoresCase_digits : digits.IgnoresCase := by
  refine .of_swapCase fun c halpha hc => ?_
  simp [contains, digits, Text.inRanges, isAlpha_iff] at halpha hc
  omega

theorem ignoresCase_blanks : blanks.IgnoresCase := by
  refine .of_swapCase fun c halpha hc => ?_
  simp [contains, blanks, Text.inRanges, isAlpha_iff] at halpha hc
  omega

theorem ignoresCase_wordChars : wordChars.IgnoresCase := by
  refine .of_swapCase fun c halpha _ => ?_
  simp only [contains, wordChars, Text.inRanges, isAlpha_iff, toNat_swapCase, List.any_cons,
    List.any_nil, Bool.or_eq_true, Bool.and_eq_true, decide_eq_true_eq] at halpha ⊢
  split_ifs <;> omega

theorem swapCase_swapCase (c : Char) : swapCase (swapCase c) = c := by
  apply Char.toNat_inj.1
  simp only [toNat_swapCase]
  split_ifs <;> omega

/-- A letter with its other case. -/
theorem ignoresCase_pair (c : Char) : (ofChars [c, swapCase c]).IgnoresCase := by
  refine .of_swapCase fun d _ hd => ?_
  simp only [contains_ofChars, List.mem_cons, List.not_mem_nil, or_false] at hd ⊢
  rcases hd with rfl | rfl
  · exact .inr rfl
  · exact .inl (swapCase_swapCase c)

/-- What is no letter has no other case. -/
theorem ignoresCase_ofChars {cs : List Char} (h : ∀ c ∈ cs, c.isAlpha = false) :
    (ofChars cs).IgnoresCase := by
  refine .of_swapCase fun c halpha hc => ?_
  rw [h c (contains_ofChars.1 hc)] at halpha
  cases halpha

/-! ## Folding -/

/-- **A set that folding completes**: none of its ranges runs from the capitals into the
small letters and ends among them. -/
def FoldsFully (s : CharSet) : Prop :=
  ∀ r ∈ s.ranges, r.1 ≤ capital.2 → small.1 ≤ r.2 → small.2 ≤ r.2

instance : Decidable s.FoldsFully :=
  inferInstanceAs (Decidable (∀ r ∈ s.ranges, r.1 ≤ capital.2 → small.1 ≤ r.2 → small.2 ≤ r.2))

/-- What a range brings in: the capitals of its small letters, or the small letters of its
capitals if it has no small letters. -/
theorem otherCase_iff {r t : Nat × Nat} : otherCase r = some t ↔
    (max r.1 97 ≤ min r.2 122 ∧ t = (max r.1 97 - 32, min r.2 122 - 32)) ∨
      (min r.2 122 < max r.1 97 ∧ max r.1 65 ≤ min r.2 90 ∧
        t = (max r.1 65 + 32, min r.2 90 + 32)) := by
  have hmeet (s : Nat × Nat) : meet r s = true ↔ max r.1 s.1 ≤ min r.2 s.2 := decide_eq_true_iff
  have hsmall : meet r small = true ↔ max r.1 97 ≤ min r.2 122 := hmeet small
  have hcapital : meet r capital = true ↔ max r.1 65 ≤ min r.2 90 := hmeet capital
  rw [otherCase]
  by_cases h : max r.1 97 ≤ min r.2 122
  · rw [if_pos (hsmall.2 h), Option.some.injEq, eq_comm, or_iff_left fun h' => not_lt.2 h h'.1]
    exact (and_iff_right h).symm
  · rw [if_neg (mt hsmall.1 h), or_iff_right fun h' => h h'.1, and_iff_right (not_le.1 h)]
    by_cases h' : max r.1 65 ≤ min r.2 90
    · rw [if_pos (hcapital.2 h'), Option.some.injEq, eq_comm]
      exact (and_iff_right h').symm
    · rw [if_neg (mt hcapital.1 h')]
      exact iff_of_false nofun fun h'' => h' h''.1

theorem le_of_otherCase {r t : Nat × Nat} (h : otherCase r = some t) : t.1 ≤ t.2 := by
  rcases otherCase_iff.1 h with ⟨hsmall, rfl⟩ | ⟨-, hcapital, rfl⟩
  · exact Nat.sub_le_sub_right hsmall 32
  · exact Nat.add_le_add_right hcapital 32

theorem ordered_append_otherCase (h : Ordered s.ranges) :
    Ordered (s.ranges ++ s.ranges.filterMap otherCase) := by
  refine List.forall_mem_append.2 ⟨h, fun t ht => ?_⟩
  obtain ⟨r, -, hrt⟩ := List.mem_filterMap.1 ht
  exact le_of_otherCase hrt

/-- **A folded set** has what is in one of its ranges or brought in by one. -/
theorem contains_foldCase (h : Ordered s.ranges) : s.foldCase.contains c = true ↔
    ∃ r ∈ s.ranges, (r.1 ≤ c.toNat ∧ c.toNat ≤ r.2) ∨
      ∃ t, otherCase r = some t ∧ t.1 ≤ c.toNat ∧ c.toNat ≤ t.2 := by
  rw [foldCase, contains_ofRanges (ordered_append_otherCase h), Text.inRanges_iff]
  simp only [List.mem_append, List.mem_filterMap, or_and_right, exists_or, and_or_left]
  refine or_congr_right ⟨?_, ?_⟩
  · rintro ⟨t, ⟨r, hr, hrt⟩, hc⟩
    exact ⟨r, hr, t, hrt, hc⟩
  · rintro ⟨r, hr, t, hrt, hc⟩
    exact ⟨t, ⟨r, hr, hrt⟩, hc⟩

/-- **Folding a set makes it ignore case** if the set is one that folding completes. -/
theorem FoldsFully.ignoresCase (h : s.FoldsFully) (hordered : Ordered s.ranges) :
    s.foldCase.IgnoresCase := by
  refine .of_swapCase fun c halpha hc => ?_
  rw [contains_foldCase hordered] at hc ⊢
  rw [isAlpha_iff] at halpha
  obtain ⟨r, hr, hc⟩ := hc
  refine ⟨r, hr, ?_⟩
  have hfull : r.1 ≤ 90 → 97 ≤ r.2 → 122 ≤ r.2 := h r hr
  rw [toNat_swapCase]
  rcases hc with hc | ⟨t, ht, hc⟩
  · -- the character is in the range itself
    by_cases hsmall : max r.1 97 ≤ min r.2 122
    · by_cases hcapital : c.toNat ≤ 90
      · refine .inl ?_
        split_ifs <;> omega
      · refine .inr ⟨_, otherCase_iff.2 (.inl ⟨hsmall, rfl⟩), ?_⟩
        split_ifs <;> omega
    · refine .inr ⟨_, otherCase_iff.2 (.inr ⟨not_le.1 hsmall, ?_, rfl⟩), ?_⟩
      · omega
      · split_ifs <;> omega
  · -- it was brought in, so its other case is in the range
    refine .inl ?_
    rcases otherCase_iff.1 ht with ⟨-, rfl⟩ | ⟨-, -, rfl⟩ <;> split_ifs <;> omega

/-- The range from `Z` to `a` brings in `A`, but not `z`. -/
example : (ofRanges [(0x5a, 0x61)]).foldCase.contains 'A' = true ∧
    (ofRanges [(0x5a, 0x61)]).foldCase.contains 'z' = false := by decide

end Rulebook.CharSet
