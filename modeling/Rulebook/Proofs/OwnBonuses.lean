import Rulebook.Proofs.BonusLines

/-!
# Whether a weapon finds its own bonus

The pattern of a weapon is made from its name in lower case, and the case of
letters is ignored when it is matched. So one expects a line with the name as it is
written in the record to be found, whatever the name is made of.

But lower case is that of all letters, and the case that matching ignores is that
of the basic Latin ones. A letter outside these has to be there in the form that
the pattern has. A name that has none in another form is always found, in any list
and with any bonus; a name that has one is not.
-/

namespace Rulebook

namespace Text

variable {before cs : List Char} {c : Char}

/-! ## Lower case forms -/

/-- Every character has a lower case form. -/
theorem lowerChar_ne_nil : lowerChar c ≠ [] := by
  have hforms : ∀ form ∈ lowerSequences, form.2 ≠ [] := by decide
  unfold lowerChar caseForm
  split
  · exact List.cons_ne_nil _ _
  · split
    · next form hform =>
      obtain ⟨front, rest, htable, -⟩ := List.lookup_eq_some_iff.1 hform
      refine mt List.map_eq_nil_iff.1 (hforms (c.toNat, form) ?_)
      rw [htable]
      exact List.mem_append_right _ (List.mem_cons_self ..)
    · exact List.cons_ne_nil _ _

/-- The form that a character takes in a text, where a final sigma has one of its
own. -/
def formAfter (before : List Char) (c : Char) (cs : List Char) : List Char :=
  if c = 'Σ' && startsCased before && !startsCased cs then ['ς'] else lowerChar c

theorem lowerAfter_cons :
    lowerAfter before (c :: cs) = formAfter before c cs ++ lowerAfter (c :: before) cs := rfl

theorem formAfter_ne_nil : formAfter before c cs ≠ [] := by
  unfold formAfter
  split
  · exact List.cons_ne_nil _ _
  · exact lowerChar_ne_nil

theorem length_le_length_lowerAfter : cs.length ≤ (lowerAfter before cs).length := by
  induction cs generalizing before with
  | nil => exact Nat.zero_le _
  | cons c cs ih =>
    have hform : 0 < (formAfter before c cs).length := List.length_pos_iff.2 formAfter_ne_nil
    have hrest := @ih (c :: before)
    rw [lowerAfter_cons, List.length_append, List.length_cons]
    omega

/-- A character that is not basic has no other case among the basic ones. -/
theorem eq_of_toLower_eq {d : Char} (hc : ¬ c.toNat < 128) (h : d.toLower = c.toLower) : d = c := by
  rw [toLower_eq_toLower_iff, if_neg] at h
  · exact h
  · rw [isAlpha_iff]
    omega

/-- **A character is the same in lower case**, the case of basic Latin letters left
aside, exactly if it is basic or its own form. -/
theorem map_toLower_formAfter_iff :
    (formAfter before c cs).map Char.toLower = [c.toLower] ↔ c.toNat < 128 ∨ lowerChar c = [c] := by
  obtain hbasic | hbasic := Decidable.em (c.toNat < 128)
  · refine iff_of_true ?_ (.inl hbasic)
    have hsigma : c ≠ 'Σ' := by
      rintro rfl
      exact absurd hbasic (by decide)
    have hform : formAfter before c cs = [c.toLower] := by
      rw [formAfter, decide_eq_false hsigma, Bool.false_and, Bool.false_and,
        if_neg Bool.false_ne_true, lowerChar, if_pos hbasic]
    rw [hform, List.map_singleton]
    refine congrArg (· :: []) (Char.toNat_inj.1 ?_)
    rw [toNat_toLower, toNat_toLower]
    split_ifs <;> omega
  · rw [or_iff_right hbasic]
    constructor
    · intro h
      obtain ⟨d, rest, hform, hd, hrest⟩ := List.map_eq_cons_iff.1 h
      rw [List.map_eq_nil_iff.1 hrest, eq_of_toLower_eq hbasic hd] at hform
      unfold formAfter at hform
      split at hform
      · -- the final sigma is not a capital one
        next hfinal =>
        simp only [Bool.and_eq_true, decide_eq_true_eq] at hfinal
        rw [hfinal.1.1] at hform
        exact absurd hform (by decide)
      · exact hform
    · intro h
      have hsigma : c ≠ 'Σ' := by
        rintro rfl
        exact absurd h (by decide +kernel)
      rw [formAfter, decide_eq_false hsigma, Bool.false_and, Bool.false_and,
        if_neg Bool.false_ne_true, h, List.map_singleton]

/-- **A text is the same in lower case**, the case of basic Latin letters left aside,
exactly if all its other characters are their own forms. -/
theorem map_toLower_lowerAfter_iff : (lowerAfter before cs).map Char.toLower = cs.map Char.toLower ↔
    ∀ c ∈ cs, c.toNat < 128 ∨ lowerChar c = [c] := by
  induction cs generalizing before with
  | nil => exact iff_of_true rfl nofun
  | cons c cs ih =>
    rw [List.forall_mem_cons, lowerAfter_cons, List.map_append, List.map_cons,
      ← @ih (c :: before), ← @map_toLower_formAfter_iff before cs]
    constructor
    · intro h
      -- no form is shorter than one character, so this one is not longer
      have hlength := congrArg List.length h
      have hrest := @length_le_length_lowerAfter (c :: before) cs
      have hform : 0 < (formAfter before c cs).length := List.length_pos_iff.2 formAfter_ne_nil
      simp only [List.length_append, List.length_cons, List.length_map] at hlength
      refine List.append_inj h ?_
      rw [List.length_map, List.length_singleton]
      omega
    · rintro ⟨hform, hrest⟩
      rw [hform, hrest]
      rfl

end Text

/-! ## Lines with the own name -/

variable {name own bonus seg before after : List Char}

/-- One of two bonuses is not at the beginning of a name. -/
theorem exists_isBonus_not_prefix (name : List Char) :
    ∃ sign, (sign = '+' ∨ sign = '-') ∧ ¬ [sign, '1'] <+: name := by
  obtain hplus | hplus := Decidable.em (['+', '1'] <+: name)
  · refine ⟨'-', .inr rfl, fun hminus => ?_⟩
    obtain ⟨rest, rfl⟩ := hplus
    obtain ⟨rest', h⟩ := hminus
    exact absurd (List.cons.inj h).1 (by decide)
  · exact ⟨'+', .inl rfl, hplus⟩

theorem isBonus_of_sign {sign : Char} (h : sign = '+' ∨ sign = '-') : IsBonus [sign, '1'] :=
  ⟨sign, ['1'], rfl, h, List.cons_ne_nil _ _, List.forall_mem_singleton.2 rfl⟩

namespace Mention

/-- A line with a bonus in front of a name is a mention of it. -/
theorem of_line (hitem : own.map Char.toLower = name.map Char.toLower) (hbonus : IsBonus bonus)
    (hbefore : EndsLine before) (hafter : StartsLine after) :
    Nonempty (Mention name (before ++ (bonus ++ ([' '] ++ own)) ++ after)) :=
  ⟨⟨before, [], [], bonus ++ ([' '] ++ own), [], [], after, by simp only [List.nil_append,
    List.append_nil], .inl ⟨rfl, hbefore⟩, nofun,
    .inFront hbonus isBlankRun_blank (List.cons_ne_nil _ _) hitem, nofun, .inl ⟨rfl, hafter⟩⟩⟩

/-- A name with a bonus behind it is one in parentheses, wherever these stand. -/
theorem of_parentheses (hitem : own.map Char.toLower = name.map Char.toLower)
    (hbonus : IsBonus bonus) :
    Nonempty (Mention name (before ++ ('(' :: (own ++ ([' '] ++ bonus)) ++ [')']) ++ after)) :=
  ⟨⟨before, ['('], [], own ++ ([' '] ++ bonus), [], [')'], after, by simp only [List.nil_append,
    List.cons_append], .inr rfl, nofun,
    .behind hitem isBlankRun_blank (List.cons_ne_nil _ _) hbonus, nofun, .inr rfl⟩⟩

end Mention

/-- A credit is longer than the name: a bonus has two characters and a gap has one. -/
theorem Credit.length_le (h : Credit name seg) : name.length + 3 ≤ seg.length := by
  have hroom : ∀ {bonus gap item : List Char}, IsBonus bonus → gap ≠ [] →
      item.map Char.toLower = name.map Char.toLower →
      name.length + 3 ≤ bonus.length + gap.length + item.length := by
    rintro _ gap item ⟨sign, digits, rfl, -, hdigits, -⟩ hgap hitem
    have hsame := congrArg List.length hitem
    have := List.length_pos_iff.2 hdigits
    have := List.length_pos_iff.2 hgap
    rw [List.length_map, List.length_map] at hsame
    rw [List.length_cons]
    omega
  obtain ⟨hbonus, -, hgap, hitem⟩ | ⟨hitem, -, hgap, hbonus⟩ := h
  · have := hroom hbonus hgap hitem
    simp only [List.length_append]
    omega
  · have := hroom hbonus hgap hitem
    simp only [List.length_append]
    omega

/-- **A line with a bonus and a name that is not longer** than the one that is looked
for has no room for anything else. If the name that is looked for does not begin with
the bonus, it is the one in the line. -/
theorem Mention.eq_of_line (m : Mention name (bonus ++ ([' '] ++ own))) (hbonus : IsBonus bonus)
    (hshort : bonus.length = 2) (hlength : own.length ≤ name.length) (hname : ¬ bonus <+: name) :
    own.map Char.toLower = name.map Char.toLower := by
  obtain ⟨before, opening, margin, credit, margin', closing, after, htext, -, -, hcredit, -, -⟩ := m
  have hroom := hcredit.length_le
  have hlengths := congrArg List.length htext
  simp only [List.length_append, List.length_singleton] at hlengths
  obtain rfl : before = [] := List.length_eq_zero_iff.1 (by omega)
  obtain rfl : opening = [] := List.length_eq_zero_iff.1 (by omega)
  obtain rfl : margin = [] := List.length_eq_zero_iff.1 (by omega)
  obtain rfl : margin' = [] := List.length_eq_zero_iff.1 (by omega)
  obtain rfl : closing = [] := List.length_eq_zero_iff.1 (by omega)
  obtain rfl : after = [] := List.length_eq_zero_iff.1 (by omega)
  simp only [List.nil_append, List.append_nil] at htext hlengths
  obtain ⟨-, -, -, hitem⟩ | ⟨hitem, hgap, hne, -⟩ := hcredit
  · have hsame := congrArg List.length hitem
    rw [List.length_map, List.length_map] at hsame
    rw [← List.append_assoc, ← List.append_assoc] at htext
    rw [(List.append_inj' htext (by omega)).2, hitem]
  · have hstarts := prefix_of_gap htext hgap hne hbonus.not_blank
    exact absurd (prefix_of_item hitem hstarts hbonus.isAlpha_eq_false) hname

/-! ## The pattern of a weapon -/

namespace BonusPattern

variable {weaponName : String} {pat : BonusPattern}

/-- **A weapon's own bonus is found** in every list of goodies that has it, in front
of the name on a line or behind it in parentheses, exactly if every character of the
name that is not basic Latin is its own lower case form. -/
theorem isMatch_own_line_iff (hpat : weapon weaponName = .ok pat) :
    (∀ credited before after : String, IsBonus credited.toList → EndsLine before.toList →
      StartsLine after.toList →
      pat.isMatch (before ++ (credited ++ " " ++ Text.trim weaponName) ++ after) = true ∧
      pat.isMatch (before ++ ("(" ++ Text.trim weaponName ++ " " ++ credited ++ ")") ++ after) =
        true) ↔
    ∀ c ∈ (Text.trim weaponName).toList, c.toNat < 128 ∨ Text.lowerChar c = [c] := by
  have hitemName : itemName weaponName = Text.lowerAfter [] (Text.trim weaponName).toList := by
    rw [itemName, Text.lower, String.toList_ofList]
  simp only [isMatch_weapon hpat]
  rw [← @Text.map_toLower_lowerAfter_iff [], ← hitemName]
  constructor
  · intro hfound
    obtain ⟨sign, hsign, hname⟩ := exists_isBonus_not_prefix (itemName weaponName)
    have hbonus := isBonus_of_sign hsign
    obtain ⟨⟨m⟩, -⟩ := hfound (String.ofList [sign, '1']) "" ""
      (by rwa [String.toList_ofList]) nofun nofun
    have hline : ("" ++ (String.ofList [sign, '1'] ++ " " ++ Text.trim weaponName) ++ "").toList =
        [sign, '1'] ++ ([' '] ++ (Text.trim weaponName).toList) := by
      simp
    rw [hline] at m
    exact (m.eq_of_line hbonus rfl (hitemName ▸ Text.length_le_length_lowerAfter) hname).symm
  · intro hsame credited before after hbonus hbefore hafter
    constructor
    · have hline : (before ++ (credited ++ " " ++ Text.trim weaponName) ++ after).toList =
          before.toList ++ (credited.toList ++ ([' '] ++ (Text.trim weaponName).toList)) ++
            after.toList := by
        simp
      rw [hline]
      exact Mention.of_line hsame.symm hbonus hbefore hafter
    · have hline :
          (before ++ ("(" ++ Text.trim weaponName ++ " " ++ credited ++ ")") ++ after).toList =
          before.toList ++ ('(' :: ((Text.trim weaponName).toList ++ ([' '] ++ credited.toList)) ++
            [')']) ++ after.toList := by
        simp
      rw [hline]
      exact Mention.of_parentheses hsame.symm hbonus

/-- A name with parentheses and with a letter that is not basic Latin, in a list of
three lines. -/
theorem isMatch_own_sling_line : ∃ pat, weapon "Sling (fée)" = .ok pat ∧
    pat.isMatch "rope\n-12 Sling (fée)\nlantern" = true ∧
    pat.isMatch "rope\n(Sling (fée) -12)\nlantern" = true := by
  have hpat : weapon "Sling (fée)" =
    .ok ⟨weaponText "sling (fée)".toList, weaponRegex "sling (fée)".toList⟩ := rfl
  have hbonus : IsBonus "-12".toList :=
    ⟨'-', ['1', '2'], rfl, .inr rfl, List.cons_ne_nil _ _, List.all_eq_true.1 rfl⟩
  have hname : (Text.trim "Sling (fée)").toList.all
      (fun c => c.toNat < 128 || Text.lowerChar c = [c]) = true := by decide +kernel
  simp only [List.all_eq_true, Bool.or_eq_true, decide_eq_true_eq] at hname
  obtain ⟨hfront, hbehind⟩ := (isMatch_own_line_iff hpat).2 hname "-12" "rope\n" "\nlantern"
    hbonus (by decide) (by decide)
  exact ⟨_, hpat, hfront, hbehind⟩

/-- **A weapon whose own bonus is not found**: its name has a letter in upper case
that is not basic Latin. In lower case the line is found. -/
theorem isMatch_own_epee_line : ∃ pat, weapon "ÉPÉE" = .ok pat ∧ Text.trim "ÉPÉE" = "ÉPÉE" ∧
    pat.isMatch "+1 ÉPÉE" = false ∧ pat.isMatch "(ÉPÉE +1)" = false ∧
    pat.isMatch "+1 épée" = true :=
  ⟨⟨weaponText "épée".toList, weaponRegex "épée".toList⟩, rfl, by decide +kernel,
    by decide +kernel, by decide +kernel, by decide +kernel⟩

end BonusPattern

end Rulebook
