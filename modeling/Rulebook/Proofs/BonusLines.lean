import Rulebook.Proofs.Outcomes
import Rulebook.Proofs.WeaponPatterns

/-!
# Which weapon a line is about

The pattern of a weapon is checked against the name of every other weapon, bare
and with the bonus `+1`. What players write down has any bonus. Whether a few
texts can stand for all of them depends on how the pattern may match a line that
is about another weapon.

A match inside the other name is a match of the bare name. A match that takes
the bonus of the line for a bonus of the weapon does so whatever the bonus is, so
it is found with `+1`. What is left is a match that takes the bonus for a part of
the weapon's name. A weapon whose name begins or ends with a bonus may be taken
for another one, and then only with this very bonus.
-/

namespace Rulebook

variable {name text xs ys p q gap margin item seg bonus other front before after : List Char}
variable {c : Char}

/-! ## The characters of a bonus -/

namespace IsBonus

theorem ne_nil (h : IsBonus bonus) : bonus ≠ [] := by
  obtain ⟨sign, digits, rfl, -⟩ := h
  exact List.cons_ne_nil sign digits

/-- Signs and digits are after the parentheses and before the letters. -/
theorem code_bounds (h : IsBonus bonus) (hc : c ∈ bonus) : 43 ≤ c.toNat ∧ c.toNat ≤ 57 := by
  obtain ⟨sign, digits, rfl, hsign, -, hdigits⟩ := h
  obtain rfl | hc := List.mem_cons.1 hc
  · obtain rfl | rfl := hsign <;> decide
  · obtain ⟨hlow, hhigh⟩ : 48 ≤ c.toNat ∧ c.toNat ≤ 57 := by
      simpa [Char.isDigit, UInt32.le_iff_toNat_le] using hdigits c hc
    omega

theorem isAlpha_eq_false (h : IsBonus bonus) : ∀ c ∈ bonus, c.isAlpha = false := by
  intro c hc
  have hcode := h.code_bounds hc
  rw [← Bool.not_eq_true, isAlpha_iff]
  omega

theorem not_blank (h : IsBonus bonus) : ∀ c ∈ bonus, CharSet.blanks.contains c = false := by
  intro c hc
  have hcode := h.code_bounds hc
  rw [← Bool.not_eq_true, CharSet.contains, CharSet.blanks, Text.inRanges_iff]
  rintro ⟨r, hr, hlow, hhigh⟩
  simp only [List.mem_cons, List.not_mem_nil, or_false] at hr
  obtain rfl | rfl := hr <;> dsimp only at hhigh <;> omega

theorem not_mem (h : IsBonus bonus) (hc : c.toNat < 43) : c ∉ bonus := fun hmem =>
  Nat.not_le_of_lt hc (h.code_bounds hmem).1

end IsBonus

/-! ## Texts that blanks cut -/

/-- Where a text is cut in two ways, the second cut is behind the first one or
within what is in front of it. -/
theorem covers_or_splits (h : xs ++ ys = p ++ q) : (∃ t, p = xs ++ t ∧ ys = t ++ q) ∨
    ∃ t, t ≠ [] ∧ xs = p ++ t ∧ q = t ++ ys := by
  obtain hcovers | ⟨t, hxs, hq⟩ := List.append_eq_append_iff.1 h
  · exact .inl hcovers
  · obtain rfl | hne := eq_or_ne t []
    · exact .inl ⟨[], by rw [hxs, List.append_nil, List.append_nil], hq.symm⟩
    · exact .inr ⟨t, hne, hxs, hq⟩

/-- A text without blanks that begins where another does, which goes on with
blanks, is a prefix of it. -/
theorem prefix_of_gap (h : p ++ xs = q ++ (gap ++ ys)) (hgap : IsBlankRun gap) (hne : gap ≠ [])
    (hp : ∀ c ∈ p, CharSet.blanks.contains c = false) : p <+: q := by
  obtain ⟨more, rfl, -⟩ | ⟨more, hmore, rfl, hrest⟩ := covers_or_splits h
  · exact List.prefix_append ..
  · -- the text would go on with the first of the blanks
    obtain ⟨c, more, rfl⟩ := List.exists_cons_of_ne_nil hmore
    obtain ⟨d, gap, rfl⟩ := List.exists_cons_of_ne_nil hne
    obtain rfl : d = c := (List.cons.inj hrest).1
    have hblank := (List.forall_mem_cons.1 hgap).1
    rw [hp d (List.mem_append_right _ (List.mem_cons_self ..))] at hblank
    cases hblank

theorem IsBlankRun.reverse (h : IsBlankRun gap) : IsBlankRun gap.reverse :=
  fun c hc => h c (List.mem_reverse.1 hc)

/-- So it is with texts that end together. -/
theorem suffix_of_gap (h : xs ++ p = ys ++ gap ++ q) (hgap : IsBlankRun gap) (hne : gap ≠ [])
    (hp : ∀ c ∈ p, CharSet.blanks.contains c = false) : p <:+ q := by
  have hreverse := congrArg List.reverse h
  simp only [List.reverse_append] at hreverse
  exact List.reverse_prefix.1 (prefix_of_gap hreverse hgap.reverse
    (mt List.reverse_eq_nil_iff.1 hne) (fun c hc => hp c (List.mem_reverse.1 hc)))

/-- There is no margin in front of a text that begins with no blank. -/
theorem margin_eq_nil (h : gap ++ xs = p ++ ys) (hgap : IsBlankRun gap) (hne : p ≠ [])
    (hp : ∀ c ∈ p, CharSet.blanks.contains c = false) : gap = [] := by
  by_contra hgap'
  have hbegins := prefix_of_gap (h.symm.trans (List.nil_append _).symm) hgap hgap' hp
  exact hne (List.prefix_nil.1 hbegins)

/-- Nor is there one behind a text that ends with none. -/
theorem margin_eq_nil' (h : xs ++ gap = ys ++ p) (hgap : IsBlankRun gap) (hne : p ≠ [])
    (hp : ∀ c ∈ p, CharSet.blanks.contains c = false) : gap = [] := by
  by_contra hgap'
  have hends := suffix_of_gap (h.symm.trans (List.append_nil _).symm) hgap hgap' hp
  exact hne (List.suffix_nil.1 hends)

/-- What ends a text is in each part at its end. -/
theorem last_mem (h : xs ++ [c] = ys ++ p) (hne : p ≠ []) : c ∈ p := by
  rw [← List.dropLast_concat_getLast hne] at h ⊢
  rw [← List.append_assoc] at h
  exact List.mem_append_right _ (List.append_inj_right' h rfl ▸ List.mem_singleton_self c)

/-- Nothing comes after a character that is found at the end only. -/
theorem eq_nil_of_last (h : p ++ q = xs ++ [c]) (hc : c ∈ p) (hxs : c ∉ xs) : q = [] := by
  by_contra hne
  rw [← List.dropLast_concat_getLast hne] at h
  rw [← List.append_assoc] at h
  exact hxs (List.append_inj_left' h rfl ▸ List.mem_append_left _ hc)

/-- A text of no letters has no other case. -/
theorem eq_of_map_toLower (h : xs.map Char.toLower = p.map Char.toLower)
    (hp : ∀ c ∈ p, c.isAlpha = false) : xs = p := by
  induction p generalizing xs with
  | nil => exact List.map_eq_nil_iff.1 h
  | cons c p ih =>
    obtain ⟨d, xs, rfl, hd, h⟩ := List.map_eq_cons_iff.1 h
    obtain ⟨hc, hp⟩ := List.forall_mem_cons.1 hp
    rw [toLower_eq_toLower_iff, hc, if_neg Bool.false_ne_true] at hd
    rw [hd, ih h hp]

theorem prefix_of_item (hitem : item.map Char.toLower = name.map Char.toLower) (h : p <+: item)
    (hp : ∀ c ∈ p, c.isAlpha = false) : p <+: name := by
  obtain ⟨t, rfl⟩ := h
  rw [List.map_append] at hitem
  obtain ⟨q, u, rfl, hq, -⟩ := List.map_eq_append_iff.1 hitem.symm
  exact eq_of_map_toLower hq hp ▸ List.prefix_append ..

theorem suffix_of_item (hitem : item.map Char.toLower = name.map Char.toLower) (h : p <:+ item)
    (hp : ∀ c ∈ p, c.isAlpha = false) : p <:+ name := by
  obtain ⟨t, rfl⟩ := h
  rw [List.map_append] at hitem
  obtain ⟨u, q, rfl, -, hq⟩ := List.map_eq_append_iff.1 hitem.symm
  exact eq_of_map_toLower hq hp ▸ List.suffix_append ..

/-! ## Lines -/

theorem EndsLine.of_append (h : EndsLine (xs ++ ys)) : EndsLine ys := by
  intro c hc
  refine h c ?_
  rw [List.getLast?_append, Option.mem_def.1 hc]
  rfl

theorem EndsLine.eq_nil (h : EndsLine xs) (hxs : '\n' ∉ xs) : xs = [] := by
  by_contra hne
  have hlast := h _ (List.getLast?_eq_some_getLast hne)
  exact hxs (hlast ▸ List.getLast_mem hne)

theorem StartsLine.eq_nil (h : StartsLine xs) (hxs : '\n' ∉ xs) : xs = [] := by
  cases xs with
  | nil => rfl
  | cons c xs => exact (hxs (h c rfl ▸ List.mem_cons_self ..)).elim

/-! ## Credits at the ends of a text -/

/-- **At the beginning.** A credit in a text that begins with a bonus takes just
this bonus, unless its name begins with it, and would take any other instead. -/
theorem Credit.of_prefix (h : Credit name seg) (heq : margin ++ (seg ++ xs) = p ++ (gap ++ ys))
    (hmargin : IsBlankRun margin) (hgap : IsBlankRun gap) (hne : gap ≠ []) (hp : IsBonus p)
    (hname : ¬ p <+: name) :
    margin = [] ∧
      ∃ rest, seg = p ++ rest ∧ ∀ bonus, IsBonus bonus → Credit name (bonus ++ rest) := by
  obtain rfl := margin_eq_nil heq hmargin hp.ne_nil hp.not_blank
  refine ⟨rfl, ?_⟩
  obtain ⟨hbonus, hgap', hne', hitem⟩ | ⟨hitem, hgap', hne', -⟩ := h <;>
    rw [List.nil_append, List.append_assoc, List.append_assoc] at heq
  · have hle := prefix_of_gap heq hgap hne hbonus.not_blank
    have hge := prefix_of_gap heq.symm hgap' hne' hp.not_blank
    obtain rfl := hle.eq_of_length_le hge.length_le
    exact ⟨_, rfl, fun bonus hbonus => .inFront hbonus hgap' hne' hitem⟩
  · have hstarts := prefix_of_gap heq.symm hgap' hne' hp.not_blank
    exact (hname (prefix_of_item hitem hstarts hp.isAlpha_eq_false)).elim

/-- **At the end.** A credit in a text whose last part has no blanks and no letters
takes just this part for the bonus, unless its name ends with it, and would take
any other bonus instead. -/
theorem Credit.of_suffix (h : Credit name seg) (heq : xs ++ (seg ++ margin) = ys ++ (gap ++ p))
    (hmargin : IsBlankRun margin) (hgap : IsBlankRun gap) (hne : gap ≠ []) (hp : p ≠ [])
    (hblank : ∀ c ∈ p, CharSet.blanks.contains c = false)
    (hletter : ∀ c ∈ p, c.isAlpha = false) (hname : ¬ p <:+ name) :
    margin = [] ∧ IsBonus p ∧
      ∃ rest, seg = rest ++ p ∧ ∀ bonus, IsBonus bonus → Credit name (rest ++ bonus) := by
  simp only [← List.append_assoc] at heq
  obtain rfl := margin_eq_nil' heq hmargin hp hblank
  refine ⟨rfl, ?_⟩
  rw [List.append_nil] at heq
  obtain ⟨-, hgap', hne', hitem⟩ | ⟨hitem, hgap', hne', hbonus⟩ := h <;>
    simp only [← List.append_assoc] at heq
  · have hends := suffix_of_gap heq.symm hgap' hne' hblank
    exact (hname (suffix_of_item hitem hends hletter)).elim
  · have hle := suffix_of_gap heq hgap hne hbonus.not_blank
    have hge := suffix_of_gap heq.symm hgap' hne' hblank
    obtain rfl := hle.eq_of_length_le hge.length_le
    refine ⟨hbonus, _, (List.append_assoc ..).symm, fun bonus hbonus => ?_⟩
    rw [List.append_assoc]
    exact .behind hitem hgap' hne' hbonus

/-! ## Mentions in a line about another name -/

/-- The gap in a line that is written down. -/
theorem isBlankRun_blank : IsBlankRun [' '] := List.forall_mem_singleton.2 rfl

namespace Mention

/-- What is matched, without what is around it. -/
def core (m : Mention name text) : List Char :=
  m.opening ++ (m.margin ++ (m.credit ++ (m.margin' ++ m.closing)))

/-- A mention is one in any text where lines begin and end as around it. -/
theorem elsewhere (m : Mention name text) (hbefore : EndsLine m.before → EndsLine before)
    (hafter : StartsLine m.after → StartsLine after) :
    Nonempty (Mention name (before ++ m.core ++ after)) :=
  ⟨{ m with
    before, after
    text_eq := rfl
    opens := m.opens.imp_left (.imp_right hbefore)
    closes := m.closes.imp_left (.imp_right hafter) }⟩

/-- **A bonus in front of another name.** A mention is one in the other name alone,
or would be one with any other bonus too, unless the name that is looked for
begins with the bonus. -/
theorem inFront (m : Mention name text) (htext : text = p ++ ([' '] ++ other)) (hp : IsBonus p)
    (hname : ¬ p <+: name) (hbonus : IsBonus bonus) :
    Nonempty (Mention name other) ∨ Nonempty (Mention name (bonus ++ ([' '] ++ other))) := by
  have hall := htext.symm.trans m.text_eq
  have hlead : ∀ c, c.toNat < 43 → c ≠ ' ' → c ∉ p ++ [' '] := fun c hcode hne =>
    List.not_mem_append (hp.not_mem hcode) (mt List.mem_singleton.1 hne)
  have hcut : (p ++ [' ']) ++ other = m.before ++ (m.core ++ m.after) := by
    simpa only [core, List.append_assoc] using hall
  obtain ⟨t, hbefore, hother⟩ | ⟨t, hne, hbefore, hrest⟩ := covers_or_splits hcut
  · left
    rw [hother, ← List.append_assoc]
    exact m.elsewhere (fun h => (hbefore ▸ h).of_append) id
  right
  obtain ⟨hopening, hstart⟩ | hopening := m.opens
  · -- no line begins inside the bonus, so it is all in front
    have hnil : m.before = [] := hstart.eq_nil fun hmem =>
      hlead '\n' (by decide) (by decide) (hbefore ▸ List.mem_append_left _ hmem)
    rw [hnil, hopening, List.nil_append, List.nil_append] at hall
    simp only [List.append_assoc] at hall
    obtain ⟨hmargin, rest, hcredit, hreplaced⟩ := m.credits.of_prefix hall.symm m.blank
      isBlankRun_blank (List.cons_ne_nil _ _) hp hname
    rw [hmargin, hcredit, List.nil_append, List.append_assoc] at hall
    rw [List.append_cancel_left hall]
    exact ⟨⟨[], [], [], bonus ++ rest, m.margin', m.closing, m.after,
      by simp only [List.nil_append, List.append_assoc], .inl ⟨rfl, nofun⟩, nofun,
      hreplaced bonus hbonus, m.blank', m.closes⟩⟩
  · -- nor is a parenthesis in the bonus
    obtain ⟨c, t, rfl⟩ := List.exists_cons_of_ne_nil hne
    rw [core, hopening] at hrest
    obtain rfl : '(' = c := (List.cons.inj hrest).1
    have hmem : '(' ∈ p ++ [' '] := hbefore ▸ List.mem_append_right _ (List.mem_cons_self ..)
    exact (hlead '(' (by decide) (by decide) hmem).elim

/-- **A bonus behind another name**, in parentheses. A mention would be one with any
other bonus too, unless the name that is looked for ends with the bonus, or with
the bonus and the parenthesis. -/
theorem behind (m : Mention name text) (htext : text = front ++ ([' '] ++ (p ++ [')'])))
    (hp : IsBonus p) (hname : ¬ p <:+ name) (hname' : ¬ p ++ [')'] <:+ name)
    (hbonus : IsBonus bonus) :
    Nonempty (Mention name (front ++ ([' '] ++ (bonus ++ [')'])))) := by
  have hall := htext.symm.trans m.text_eq
  have htail : ∀ c, c.toNat < 43 → c ≠ ' ' → c ∉ [' '] ++ p := fun c hcode hne =>
    List.not_mem_append (mt List.mem_singleton.1 hne) (hp.not_mem hcode)
  have hcut : (m.before ++ m.core) ++ m.after = front ++ ([' '] ++ (p ++ [')'])) := hall.symm
  obtain ⟨t, hfront, hafter⟩ | ⟨t, hne, hcore, htail_eq⟩ := covers_or_splits hcut
  · rw [hfront, List.append_assoc]
    refine m.elsewhere id fun hline => ?_
    rw [hafter] at hline
    cases t <;> exact hline
  have hends : t ++ m.after = ([' '] ++ p) ++ [')'] := by
    simpa only [List.append_assoc] using htail_eq.symm
  obtain ⟨hclosing, hline⟩ | hclosing := m.closes
  · -- no line ends inside the bonus, so the parenthesis would be part of a credit
    have hafter : m.after = [] := hline.eq_nil fun hmem =>
      List.not_mem_append (htail '\n' (by decide) (by decide)) (by decide)
        (hends ▸ List.mem_append_right _ hmem)
    have hall : (m.before ++ (m.opening ++ m.margin)) ++ (m.credit ++ m.margin') =
        front ++ ([' '] ++ (p ++ [')'])) := by
      simpa only [hclosing, hafter, List.append_assoc, List.append_nil] using hall.symm
    obtain ⟨-, hparen, -⟩ := m.credits.of_suffix hall m.blank' isBlankRun_blank
      (List.cons_ne_nil _ _) (List.append_ne_nil_of_left_ne_nil hp.ne_nil _)
      (List.forall_mem_append.2 ⟨hp.not_blank, List.forall_mem_singleton.2 rfl⟩)
      (List.forall_mem_append.2 ⟨hp.isAlpha_eq_false, List.forall_mem_singleton.2 rfl⟩) hname'
    exact (hparen.not_mem (by decide) (List.mem_append_right p (List.mem_singleton_self _))).elim
  · -- the parenthesis that closes the mention is the one behind the bonus
    have hlast : (m.before ++ (m.opening ++ (m.margin ++ (m.credit ++ m.margin')))) ++ [')'] =
        front ++ t := by
      simpa only [core, hclosing, List.append_assoc] using hcore
    have hafter : m.after = [] :=
      eq_nil_of_last hends (last_mem hlast hne) (htail ')' (by decide) (by decide))
    have hall : (m.before ++ (m.opening ++ m.margin)) ++ (m.credit ++ m.margin') =
        front ++ ([' '] ++ p) :=
      List.append_cancel_right (show _ ++ [')'] = _ ++ [')'] by
        simpa only [hclosing, hafter, List.append_assoc, List.append_nil] using hall.symm)
    obtain ⟨hmargin, -, rest, hcredit, hreplaced⟩ := m.credits.of_suffix hall m.blank'
      isBlankRun_blank (List.cons_ne_nil _ _) hp.ne_nil hp.not_blank hp.isAlpha_eq_false hname
    rw [hmargin, hcredit, List.append_nil, ← List.append_assoc, ← List.append_assoc front] at hall
    rw [← List.append_assoc, ← List.append_cancel_right hall]
    exact ⟨⟨m.before, m.opening, m.margin, rest ++ bonus, [], [')'], [],
      by simp only [List.nil_append, List.append_assoc, List.append_nil],
      m.opens, m.blank, hreplaced bonus hbonus, nofun, .inr rfl⟩⟩

end Mention

/-! ## Checked patterns -/

namespace BonusPattern

/-- The name that the pattern of a weapon looks for. -/
def itemName (name : String) : List Char := (Text.lower (Text.trim name)).toList

variable {pat : BonusPattern} {own foreign credited : String}

theorem isMatch_weapon (h : weapon own = .ok pat) {line : String} :
    pat.isMatch line = true ↔ Nonempty (Mention (itemName own) line.toList) := by
  simp only [weapon] at h
  split_ifs at h
  · cases h
  · cases h
  · exact Except.ok.inj h ▸ isMatch_weaponRegex

/-- A pattern that is found to be distinct from another name matches none of the
texts with it that are tried. -/
theorem isMatch_itemProbes (h : pat.ensureDistinct own foreign = .ok ())
    (hne : Text.sameIgnoringCase own foreign = false) :
    ∀ probe ∈ itemProbes foreign, ¬ pat.isMatch probe = true := by
  rw [ensureDistinct, hne, if_neg Bool.false_ne_true] at h
  split at h
  · cases h
  · next hnone => exact List.find?_eq_none.1 hnone

/-- **A line about another weapon** is not taken for one about the own weapon if
the own pattern was found to be distinct from the other name and the own name
neither begins nor ends with the bonus of the line. -/
theorem isMatch_foreign_line (hpat : weapon own = .ok pat)
    (hne : Text.sameIgnoringCase own foreign = false)
    (hdistinct : pat.ensureDistinct own foreign = .ok ()) (hbonus : IsBonus credited.toList) :
    (¬ credited.toList <+: itemName own → pat.isMatch (credited ++ " " ++ foreign) = false) ∧
    (¬ credited.toList <:+ itemName own → ¬ credited.toList ++ [')'] <:+ itemName own →
      pat.isMatch ("(" ++ foreign ++ " " ++ credited ++ ")") = false) := by
  have hprobes := isMatch_itemProbes hdistinct hne
  simp only [isMatch_weapon hpat] at hprobes
  simp only [← Bool.not_eq_true, isMatch_weapon hpat]
  have hone : IsBonus ['+', '1'] := ⟨'+', ['1'], rfl, .inl rfl, List.cons_ne_nil _ _,
    List.forall_mem_singleton.2 rfl⟩
  constructor
  · rintro hname ⟨m⟩
    have hline : (credited ++ " " ++ foreign).toList =
        credited.toList ++ ([' '] ++ foreign.toList) := by
      simp
    obtain hbare | hwith := m.inFront hline hbonus hname hone
    · exact hprobes foreign (by simp [itemProbes]) hbare
    · exact hprobes ("+1 " ++ foreign) (by simp [itemProbes]) (by simpa using hwith)
  · rintro hname hname' ⟨m⟩
    have hline : ("(" ++ foreign ++ " " ++ credited ++ ")").toList =
        ('(' :: foreign.toList) ++ ([' '] ++ (credited.toList ++ [')'])) := by
      simp
    have hwith := m.behind hline hbonus hname hname' hone
    exact hprobes ("(" ++ foreign ++ " +1)") (by simp [itemProbes]) (by simpa using hwith)

/-- Daggers and punching daggers are told apart. -/
theorem isMatch_punching_dagger_line : ∃ pat, weapon "Dagger" = .ok pat ∧
    pat.ensureDistinct "Dagger" "Punching Dagger" = .ok () ∧
    pat.isMatch "+2 Punching Dagger" = false ∧ pat.isMatch "(Punching Dagger +2)" = false := by
  have hpat : weapon "Dagger" =
    .ok ⟨weaponText "dagger".toList, weaponRegex "dagger".toList⟩ := rfl
  have hline := isMatch_foreign_line hpat (show _ = false by decide +kernel)
    (show ensureDistinct _ _ "Punching Dagger" = .ok () by decide +kernel)
    (show IsBonus "+2".toList from
      ⟨'+', ['2'], rfl, .inl rfl, List.cons_ne_nil _ _, List.forall_mem_singleton.2 rfl⟩)
  exact ⟨_, hpat, by decide +kernel, hline.1 (by decide +kernel),
    hline.2 (by decide +kernel) (by decide +kernel)⟩

/-- **All checks pass, and a line is taken for both weapons.** In the first name the
bonus of the line is a part of the weapon's name. -/
theorem isMatch_sword_line : ∃ first second, weapon "+2 Sword" = .ok first ∧
    weapon "Sword +3" = .ok second ∧ Text.sameIgnoringCase "+2 Sword" "Sword +3" = false ∧
    first.ensureSpecific = .ok () ∧ second.ensureSpecific = .ok () ∧
    first.ensureDistinct "+2 Sword" "Sword +3" = .ok () ∧
    second.ensureDistinct "Sword +3" "+2 Sword" = .ok () ∧
    first.isMatch "+2 Sword +3" = true ∧ second.isMatch "+2 Sword +3" = true :=
  ⟨⟨weaponText "+2 sword".toList, weaponRegex "+2 sword".toList⟩,
    ⟨weaponText "sword +3".toList, weaponRegex "sword +3".toList⟩, rfl, rfl,
    by decide +kernel, by decide +kernel, by decide +kernel, by decide +kernel,
    by decide +kernel, by decide +kernel, by decide +kernel⟩

end BonusPattern

end Rulebook
