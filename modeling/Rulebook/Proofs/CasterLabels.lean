import Rulebook.Proofs.Blanks
import Rulebook.Proofs.Scanning
import Rulebook.Proofs.SpellVariants

/-!
# Caster labels

A caster label is a group and a level, written one behind the other with nothing between
them. The level begins at the first digit, so a group that is read has no digit in it,
and the label written from what was read is read as the same again. Labels are therefore
as good as groups and levels: no two of these share one.

There are other ways to write a label: blanks may stand around it and zeros before its
level. Classes and spells forget them and write the label anew for their attributes. The
slots of a class and the known spells meet where group and level are the same.
-/

namespace Rulebook

open Compile Numeral

/-! ## Levels -/

/-- The digits of a number with zeros in front. -/
def Numeral.padded (zeros n : Nat) : List Char := List.replicate zeros '0' ++ digitsOfNat n

theorem Numeral.isDigit_of_mem_padded {zeros n : Nat} : ∀ c ∈ padded zeros n, c.isDigit = true :=
  List.forall_mem_append.2
    ⟨fun _ hc => List.eq_of_mem_replicate hc ▸ rfl, isDigit_of_mem_digitsOfNat n⟩

theorem Numeral.padded_ne_nil {zeros n : Nat} : padded zeros n ≠ [] :=
  List.append_ne_nil_of_right_ne_nil _ (digitsOfNat_ne_nil n)

theorem Text.isBlank_of_isDigit {c : Char} (h : c.isDigit = true) : isBlank c = false :=
  Token.isBlank_of_isNamePart (Token.isNamePart_of_isDigit h)

theorem Text.isTrimmed_padded {zeros n : Nat} : IsTrimmed (padded zeros n) :=
  ⟨fun c hc => isBlank_of_isDigit (isDigit_of_mem_padded c (List.mem_of_mem_head? hc)),
    fun c hc => isBlank_of_isDigit (isDigit_of_mem_padded c (List.mem_of_getLast? hc))⟩

/-- **What is read as a number** where a digit is in front and no blank behind: the digits of
the number, with zeros in front of them. -/
theorem readWhole_eq_ok_iff {cs : List Char} {n : Nat} (hhead : ∀ c ∈ cs.head?, c.isDigit = true)
    (htrimmed : Text.IsTrimmed cs) : readWhole (String.ofList cs) = .ok n ↔
      n < Text.wholeBound ∧ ∃ zeros, cs = padded zeros n := by
  have hread : readWhole (String.ofList cs) = .ok n ↔
      Text.readBounded Text.wholeBound cs = some n := by
    unfold readWhole
    rw [String.toList_ofList, Text.trimChars_of_isTrimmed htrimmed]
    split <;> simp_all [refused]
  rw [hread]
  constructor
  · intro h
    have hdigits := Text.isDigit_of_readBounded h hhead
    rw [Text.readBounded_of_isDigit hdigits] at h
    split at h
    · next hlt =>
      cases h
      exact ⟨hlt.2, exists_zeros_append hlt.1 hdigits⟩
    · cases h
  · rintro ⟨hlt, zeros, rfl⟩
    have hnat : natOfDigits (padded zeros n) = n :=
      (natOfDigits_zeros_append ..).trans (natOfDigits_digitsOfNat n)
    rw [Text.readBounded_of_isDigit isDigit_of_mem_padded, hnat, if_pos ⟨padded_ne_nil, hlt⟩]

namespace CasterLabel

/-! ## Labels as they are written -/

/-- **Whether a group and a level are told apart** in their label: the group has no digit,
and nothing of it is lost with the blanks around the label. -/
structure WellFormed (l : CasterLabel) : Prop where
  ne_empty : l.group ≠ ""
  isDigit : ∀ c ∈ l.group.toList, c.isDigit = false
  isBlank : ∀ c ∈ l.group.toList.head?, Text.isBlank c = false
  level_lt : l.level < Text.wholeBound

/-- The characters of a label with zeros before its level. -/
def chars (l : CasterLabel) (zeros : Nat) : List Char := l.group.toList ++ padded zeros l.level

/-- **The ways to write a label**: with zeros before its level and blanks around it. -/
def IsWrittenAs (l : CasterLabel) (text : String) : Prop :=
  ∃ (zeros : Nat) (front back : List Char), text.toList = front ++ (l.chars zeros ++ back) ∧
    (∀ b ∈ front, Text.isBlank b = true) ∧ ∀ b ∈ back, Text.isBlank b = true

variable {l l' : CasterLabel} {text : String}

theorem toList_group_ne_nil (h : l.WellFormed) : l.group.toList ≠ [] :=
  mt String.toList_eq_nil_iff.1 h.ne_empty

/-- Only the blanks around a label are taken away. -/
theorem isTrimmed_chars (h : l.WellFormed) {zeros : Nat} : Text.IsTrimmed (l.chars zeros) := by
  constructor
  · intro c hc
    rw [chars, List.head?_append_of_ne_nil _ (toList_group_ne_nil h)] at hc
    exact h.isBlank c hc
  · intro c hc
    rw [chars, List.getLast?_append_of_ne_nil _ padded_ne_nil] at hc
    exact Text.isTrimmed_padded.last c hc

/-- The level begins at the first digit. -/
theorem span_chars (h : l.WellFormed) {zeros : Nat} :
    (l.chars zeros).takeWhile (!Char.isDigit ·) = l.group.toList ∧
      (l.chars zeros).dropWhile (!Char.isDigit ·) = padded zeros l.level := by
  refine Text.span_append (fun c hc => ?_) (fun c hc => ?_)
  · rw [h.isDigit c hc]
    rfl
  · rw [isDigit_of_mem_padded c (List.mem_of_mem_head? hc)]
    rfl

/-- A text is cut at its first digit, and neither part is empty. -/
theorem exists_digits_of_read (h : read text = .ok l) : ∃ digits,
    Text.trimChars text.toList = l.group.toList ++ digits ∧ l.group ≠ "" ∧
      (∀ c ∈ l.group.toList, c.isDigit = false) ∧ (∀ d ∈ digits.head?, d.isDigit = true) ∧
      readWhole (String.ofList digits) = .ok l.level := by
  unfold read at h
  dsimp only at h
  split at h
  · cases h
  · next hne =>
    obtain ⟨level, hlevel, h⟩ := Outcome.bind_eq_ok.1 h
    cases h
    rw [Bool.or_eq_true, decide_eq_true_eq, decide_eq_true_eq, not_or] at hne
    refine ⟨_, ?_, mt String.ofList_eq_empty_iff.1 hne.1, fun c hc => ?_, fun d hd => ?_, hlevel⟩
    · rw [String.toList_ofList, List.takeWhile_append_dropWhile]
    · rw [String.toList_ofList] at hc
      simpa using List.mem_takeWhile_imp hc
    · simpa using Text.head_dropWhile (!Char.isDigit ·) _ d hd

/-- **What is read** is what stands between the blanks. -/
theorem exists_chars_of_read (h : read text = .ok l) :
    l.WellFormed ∧ ∃ zeros, Text.trimChars text.toList = l.chars zeros := by
  obtain ⟨digits, hchars, hne, hgroup, hdigits, hlevel⟩ := exists_digits_of_read h
  have htrimmed : Text.IsTrimmed (l.group.toList ++ digits) :=
    hchars ▸ Text.isTrimmed_trimChars text.toList
  obtain ⟨hlt, zeros, rfl⟩ := (readWhole_eq_ok_iff hdigits
    (htrimmed.of_append fun d hd => Text.isBlank_of_isDigit (hdigits d hd))).1 hlevel
  refine ⟨⟨hne, hgroup, fun c hc => htrimmed.head c ?_, hlt⟩, zeros, hchars⟩
  rwa [List.head?_append_of_ne_nil _ (mt String.toList_eq_nil_iff.1 hne)]

/-- **The labels that are read** are the well-formed ones, in all ways to write them. -/
theorem read_eq_ok_iff : read text = .ok l ↔ l.WellFormed ∧ l.IsWrittenAs text := by
  constructor
  · intro h
    obtain ⟨hl, zeros, hchars⟩ := exists_chars_of_read h
    obtain ⟨front, back, htext, hblanks⟩ := Text.exists_blanks_trimChars text.toList
    exact ⟨hl, zeros, front, back, hchars ▸ htext, hblanks⟩
  · rintro ⟨hl, zeros, front, back, htext, hfront, hback⟩
    obtain ⟨hgroup, hlevel⟩ := @span_chars l hl zeros
    have hread : readWhole (String.ofList (padded zeros l.level)) = .ok l.level :=
      (readWhole_eq_ok_iff (fun c hc => isDigit_of_mem_padded c (List.mem_of_mem_head? hc))
        Text.isTrimmed_padded).2 ⟨hl.level_lt, zeros, rfl⟩
    unfold read
    dsimp only
    rw [htext, Text.trimChars_append (isTrimmed_chars hl) hfront hback, hgroup, hlevel, hread,
      if_neg]
    · rw [String.ofList_toList]
      rfl
    · simp [toList_group_ne_nil hl, padded_ne_nil]

/-! ## One label for each group and level -/

/-- A label as it is rendered has no zeros before its level. -/
theorem isWrittenAs_render (l : CasterLabel) : l.IsWrittenAs l.render :=
  ⟨0, [], [], by rw [toList_render, List.append_nil]; rfl, nofun, nofun⟩

/-- **A label that is rendered is read** as the same label. -/
theorem read_render_of_wellFormed (h : l.WellFormed) : read l.render = .ok l :=
  read_eq_ok_iff.2 ⟨h, isWrittenAs_render l⟩

theorem render_inj (h : l.WellFormed) (h' : l'.WellFormed) : l.render = l'.render ↔ l = l' := by
  constructor
  · intro heq
    have hread := read_render_of_wellFormed h
    rw [heq, read_render_of_wellFormed h'] at hread
    exact (Except.ok.inj hread).symm
  · rintro rfl
    rfl

theorem wellFormed_of_read (h : read text = .ok l) : l.WellFormed := (read_eq_ok_iff.1 h).1

/-! ## Slots and known spells -/

/-- The label of a table is what stands in front of the colon. -/
theorem exists_cutFirst_of_slots {slots : String} {t : SpellSlotTable}
    (h : SpellSlotTable.read slots = .ok t) : ∃ label table,
      Text.cutFirst (· = ':') (Text.trimChars slots.toList) = some (label, table) ∧
        read (String.ofList label) = .ok t.label := by
  unfold SpellSlotTable.read at h
  split at h
  · cases h
  · next label table hcut =>
    obtain ⟨caster, hcaster, h⟩ := Outcome.bind_eq_ok.1 h
    obtain ⟨steps, -, h⟩ := Outcome.bind_eq_ok.1 h
    cases h
    exact ⟨label, table, hcut, hcaster⟩

theorem target_spellSlotRule {settings : Settings} {name levels : String} {t : SpellSlotTable}
    {r : Rule} (h : spellSlotRule settings name levels t = .ok r) :
    r.target = member "spellSlots" t.label.render := by
  unfold spellSlotRule at h
  dsimp only at h
  split at h
  · cases h
  · split at h
    · cases h
    · cases h
      rfl

/-- **The slots of a table** are those of a label exactly if the table is for it. -/
theorem target_spellSlotRule_eq_iff {settings : Settings} {name levels slots : String}
    {t : SpellSlotTable} {r : Rule} (hl : l.WellFormed) (ht : SpellSlotTable.read slots = .ok t)
    (h : spellSlotRule settings name levels t = .ok r) :
    r.target = member "spellSlots" l.render ↔ t.label = l := by
  obtain ⟨label, table, -, hlabel⟩ := exists_cutFirst_of_slots ht
  rw [target_spellSlotRule h, member_inj, render_inj (wellFormed_of_read hlabel) hl]

end CasterLabel

namespace Compile

variable {settings : Settings} {entries : List String} {before labels : List CasterLabel}

theorem readVariants_of_forall₂
    (h : List.Forall₂ (fun entry label => CasterLabel.read entry = .ok label) entries labels)
    (hgroups : ∀ label ∈ labels, (settings.casterClass? label.group).isSome = true)
    (hbefore : ∀ label ∈ before, label.WellFormed) (hnodup : (before ++ labels).Nodup) :
    readVariants settings before entries = .ok (before ++ labels) := by
  induction h generalizing before with
  | nil =>
    rw [List.append_nil]
    rfl
  | @cons entry label entries labels hread _ ih =>
    obtain ⟨hgroup, hgroups⟩ := List.forall_mem_cons.1 hgroups
    have hlabel := CasterLabel.wellFormed_of_read hread
    have hnew : ∀ other ∈ before, ¬ other.render = label.render := by
      intro other hother heq
      obtain rfl := (CasterLabel.render_inj (hbefore other hother) hlabel).1 heq
      exact (List.nodup_append.1 hnodup).2.2 other hother other (List.mem_cons_self ..) rfl
    have hany : ¬ before.any (·.render == label.render) = true := by
      simpa using hnew
    have hknown : ¬ (settings.casterClass? label.group).isNone = true := by
      rw [Option.isNone_iff_eq_none]
      exact Option.isSome_iff_ne_none.1 hgroup
    rw [List.append_cons] at hnodup ⊢
    rw [← ih hgroups (List.forall_mem_append.2 ⟨hbefore, List.forall_mem_singleton.2 hlabel⟩)
      hnodup, readVariants, hread]
    exact (if_neg hknown).trans (if_neg hany)

/-- **The variants that a spell is listed for** are those of its entries, if all of them can be
read, their groups are known and no two have the same group and level. -/
theorem readVariants_eq_ok_iff : readVariants settings [] entries = .ok labels ↔
    List.Forall₂ (fun entry label => CasterLabel.read entry = .ok label) entries labels ∧
      (∀ label ∈ labels, (settings.casterClass? label.group).isSome = true) ∧ labels.Nodup := by
  constructor
  · intro h
    obtain ⟨more, rfl, hread, hgroups, hnodup⟩ := Spell.exists_of_readVariants h List.nodup_nil
    exact ⟨hread, hgroups, hnodup.of_map⟩
  · rintro ⟨hread, hgroups, hnodup⟩
    exact readVariants_of_forall₂ hread hgroups nofun hnodup

/-- A spell is not listed for one label twice. -/
theorem exists_readVariants_pair_iff {text text' : String} {l l' : CasterLabel}
    (h : CasterLabel.read text = .ok l) (h' : CasterLabel.read text' = .ok l')
    (hgroup : (settings.casterClass? l.group).isSome = true)
    (hgroup' : (settings.casterClass? l'.group).isSome = true) :
    (∃ labels, readVariants settings [] [text, text'] = .ok labels) ↔ l ≠ l' := by
  constructor
  · rintro ⟨labels, hlabels⟩
    obtain ⟨hread, -, hnodup⟩ := readVariants_eq_ok_iff.1 hlabels
    obtain ⟨_, _, hfirst, hrest, rfl⟩ := List.forall₂_cons_left_iff.1 hread
    obtain ⟨_, _, hsecond, -, rfl⟩ := List.forall₂_cons_left_iff.1 hrest
    cases h.symm.trans hfirst
    cases h'.symm.trans hsecond
    rintro rfl
    exact (List.nodup_cons.1 hnodup).1 (List.mem_cons_self ..)
  · intro hne
    refine ⟨[l, l'], readVariants_eq_ok_iff.2 ⟨.cons h (.cons h' .nil), ?_, ?_⟩⟩
    · exact List.forall_mem_cons.2 ⟨hgroup, List.forall_mem_singleton.2 hgroup'⟩
    · exact List.nodup_cons.2 ⟨mt List.mem_singleton.1 hne, List.nodup_singleton l'⟩

theorem mem_labels_iff {l : CasterLabel}
    (h : List.Forall₂ (fun entry label => CasterLabel.read entry = .ok label) entries labels) :
    l ∈ labels ↔ ∃ entry ∈ entries, CasterLabel.read entry = .ok l := by
  induction h with
  | nil => exact ⟨nofun, nofun⟩
  | cons hread _ ih => simp [ih, hread, eq_comm]

variable {ctx : Context} {record : Record} {o : Output} {s : Spell}

/-- **A spell is known by a label** exactly if it is listed for it. -/
theorem exists_knownRule_iff {l : CasterLabel} (hl : l.WellFormed) (hkind : record.kind = .spell)
    (h : record.compile ctx = .ok o) (hs : s.IsOf ctx record) :
    (∃ r ∈ o.rules, r.target = member "spellsKnown" l.render) ↔
      ∃ entry ∈ s.levels, CasterLabel.read entry = .ok l := by
  obtain ⟨s', variants, hof, hfans, -, -⟩ := Spell.exists_fansOut hkind h
  obtain rfl := hof.unique hs
  obtain ⟨-, fields, -, hread⟩ := hs
  rw [← mem_labels_iff hread.labels, ← hfans.labels]
  have hknown : ∀ r, r ∈ o.rules ∧ groupOf r.target = "spellsKnown" ↔
      ∃ v ∈ variants, s.knownRule v.label = r := by
    intro r
    rw [← List.mem_map, ← hfans.knownRules, List.mem_filter, decide_eq_true_eq]
  constructor
  · rintro ⟨r, hr, htarget⟩
    obtain ⟨v, hv, rfl⟩ := (hknown r).1 ⟨hr, htarget ▸ groupOf_member (by decide)⟩
    -- the label of this variant is that of an entry
    obtain ⟨entry, -, hentry⟩ := (mem_labels_iff hread.labels).1
      (hfans.labels ▸ List.mem_map_of_mem hv)
    have hrender := member_inj.1 htarget
    exact List.mem_map.2 ⟨v, hv,
      (CasterLabel.render_inj (CasterLabel.wellFormed_of_read hentry) hl).1 hrender⟩
  · intro hmem
    obtain ⟨v, hv, rfl⟩ := List.mem_map.1 hmem
    exact ⟨_, ((hknown _).2 ⟨v, hv, rfl⟩).1, rfl⟩

end Compile

/-! ## What a label says -/

namespace CasterLabel

/-- **A label says one group and one level.** A text that is read as a label has a group, with
no digit in it, and the label written anew is read as the same. All texts that are read as it
are this label with blanks around it and zeros before its level. Two texts that are read have
the same label exactly if they have the same group and level: only then the same slots and the
same known spells belong to them, and a spell is listed for both exactly if they differ. -/
theorem render_eq_iff_of_read {text text' : String} {l l' : CasterLabel}
    (h : read text = .ok l) (h' : read text' = .ok l') :
    l.group ≠ "" ∧ (∀ c ∈ l.group.toList, c.isDigit = false) ∧
      read (l.group ++ textOfNat l.level) = .ok l ∧
      (l.render = l'.render ↔ l.group = l'.group ∧ l.level = l'.level) ∧
      (∀ other, read other = .ok l ↔ l.IsWrittenAs other) ∧
      (∀ slots t settings name levels r, SpellSlotTable.read slots = .ok t →
        spellSlotRule settings name levels t = .ok r →
        (r.target = member "spellSlots" l.render ↔ t.label = l)) ∧
      (∀ ctx record o s, record.kind = .spell → record.compile ctx = .ok o →
        Spell.IsOf ctx record s →
        ((∃ r ∈ o.rules, r.target = member "spellsKnown" l.render) ↔
          ∃ entry ∈ s.levels, read entry = .ok l)) ∧
      ∀ settings : Settings, (settings.casterClass? l.group).isSome = true →
        (settings.casterClass? l'.group).isSome = true →
        ((∃ labels, readVariants settings [] [text, text'] = .ok labels) ↔ l ≠ l') := by
  have hl := wellFormed_of_read h
  have hl' := wellFormed_of_read h'
  have hsame : l = l' ↔ l.group = l'.group ∧ l.level = l'.level := by
    cases l
    cases l'
    exact CasterLabel.mk.injEq .. ▸ Iff.rfl
  refine ⟨hl.ne_empty, hl.isDigit, read_render_of_wellFormed hl,
    (render_inj hl hl').trans hsame, ?_, ?_, ?_, ?_⟩
  · exact fun other => read_eq_ok_iff.trans (and_iff_right hl)
  · exact fun slots t settings name levels r ht hr => target_spellSlotRule_eq_iff hl ht hr
  · exact fun ctx record o s hkind ho hs => exists_knownRule_iff hl hkind ho hs
  · exact fun settings hgroup hgroup' => exists_readVariants_pair_iff h h' hgroup hgroup'

/-- First level spells of magic users: the slots for them and a known one, however the label
is written. -/
theorem render_magicUser : ∃ (t : SpellSlotTable) (r : Rule) (o : Output),
    read "\u3000MU01 " = .ok ⟨"MU", 1⟩ ∧ read "MU1" = .ok ⟨"MU", 1⟩ ∧
      IsWrittenAs ⟨"MU", 1⟩ "\u3000MU01 " ∧
      SpellSlotTable.read " MU001:1=1;3=2" = .ok t ∧
      spellSlotRule .default "Magic-User" "levels.Magic-User" t = .ok r ∧
      r.target = "spellSlots.MU1" ∧
      Spell.light.compile ⟨.default, .empty⟩ = .ok o ∧
      (∃ r ∈ o.rules, r.target = "spellsKnown.MU1") ∧
      ¬ ∃ labels, readVariants .default [] ["\u3000MU01 ", "MU1"] = .ok labels := by
  have h : read "\u3000MU01 " = .ok ⟨"MU", 1⟩ := by decide +kernel
  have h' : read "MU1" = .ok ⟨"MU", 1⟩ := by decide +kernel
  have ht : SpellSlotTable.read " MU001:1=1;3=2" = .ok ⟨⟨"MU", 1⟩, [(1, 1), (3, 2)]⟩ := by
    decide +kernel
  obtain ⟨r, hr⟩ := Outcome.exists_of_isOk (show (spellSlotRule .default "Magic-User"
    "levels.Magic-User" ⟨⟨"MU", 1⟩, [(1, 1), (3, 2)]⟩).isOk = true by decide +kernel)
  obtain ⟨o, ho⟩ := Outcome.exists_of_isOk
    (show (Spell.light.compile ⟨.default, .empty⟩).isOk = true by decide +kernel)
  obtain ⟨s, variants, hs, -⟩ := Spell.exists_fansOut rfl ho
  obtain ⟨-, -, -, -, hwritten, hslots, hknown, hlisted⟩ := render_eq_iff_of_read h h'
  have hlevels : s.levels = ["C1", "MU1"] := by
    have hlist : (FieldTable.read .spell Settings.default.experienceMultiplier
        Spell.light.spec).map (·.list "Level") = .ok (.ok ["C1", "MU1"]) := by decide +kernel
    obtain ⟨-, fields, hfields, hread⟩ := hs
    obtain ⟨_, hfields', hlist⟩ := Outcome.map_eq_ok.1 hlist
    cases hfields.symm.trans hfields'
    exact Except.ok.inj (hread.levels.symm.trans hlist)
  have hentry : ∃ entry ∈ s.levels, read entry = .ok ⟨"MU", 1⟩ := ⟨"MU1", by simp [hlevels], h'⟩
  have hslotsName : member "spellSlots" (render ⟨"MU", 1⟩) = "spellSlots.MU1" := by decide +kernel
  have hknownName : member "spellsKnown" (render ⟨"MU", 1⟩) = "spellsKnown.MU1" := by
    decide +kernel
  rw [hslotsName] at hslots
  rw [hknownName] at hknown
  exact ⟨_, r, o, h, h', (hwritten _).1 h, ht, hr, (hslots _ _ _ _ _ _ ht hr).2 rfl, ho,
    (hknown _ _ _ _ rfl ho hs).2 hentry, fun hex => (hlisted .default rfl rfl).1 hex rfl⟩

end CasterLabel

end Rulebook
