import Rulebook.Proofs.BareFields
import Rulebook.Proofs.Blanks
import Rulebook.Proofs.ReadTables
import Rulebook.Proofs.SpellVariants

/-!
# Specifications of spell variants

The choice of a spell variant has a specification of its own, with the school, the one
label and the description. It is written to be read again, but only the description
stands between quotes. So it is read back exactly if the school and the label need
none. Schools and caster groups are free names of the settings, and in settings where
all of them are bare, as they are by default, every variant of every spell can be read
back.

Whatever is written is free of quotes, as it all comes from fields that were read.
-/

namespace Rulebook

variable {ctx : Context} {record : Record} {o : Output}

/-! ## No quotes -/

/-- A field of a table is read from values without quotes. -/
theorem FieldTable.exists_values {kind : Kind} {multiplier : Float} {spec name : String}
    {t : FieldTable} {s : Shape} {content : s.Content} (h : read kind multiplier spec = .ok t)
    (hfield : (name, ⟨s, content⟩) ∈ t.fields) :
    ∃ values, s.read multiplier values = .ok content ∧ ∀ value ∈ values, '"' ∉ value.toList := by
  obtain ⟨raws, hraws, hfields⟩ := exists_readFrom h
  obtain ⟨raw, hraw, hread⟩ := hfields _ hfield
  exact ⟨raw.values, hread.content, (Specification.writable_of_fieldsOfChars hraws raw hraw).values⟩

/-- One value was read as a text. -/
theorem eq_singleton_of_single {values : List String} {value : String}
    (h : single values = .ok value) : values = [value] := by
  unfold single at h
  split at h
  · cases h
    rfl
  · cases h

theorem FieldTable.ReadFrom.eq_of_text {kind : Kind} {multiplier : Float} {raw : RawField}
    {name value : String} (h : ReadFrom kind multiplier raw (name, ⟨.text, value⟩)) :
    raw = ⟨name, [value]⟩ := by
  obtain ⟨hname, -, hcontent⟩ := h
  obtain ⟨_, values⟩ := raw
  cases hname
  obtain rfl := eq_singleton_of_single hcontent
  rfl

theorem FieldTable.ReadFrom.eq_of_list {kind : Kind} {multiplier : Float} {raw : RawField}
    {name : String} {values : List String}
    (h : ReadFrom kind multiplier raw (name, ⟨.list, values⟩)) : raw = ⟨name, values⟩ := by
  obtain ⟨hname, -, hcontent⟩ := h
  cases raw
  cases hname
  cases hcontent
  rfl

theorem FieldTable.not_mem_of_text {kind : Kind} {multiplier : Float} {spec name value : String}
    {t : FieldTable} (h : read kind multiplier spec = .ok t) (hvalue : t.text name = .ok value) :
    '"' ∉ value.toList := by
  obtain ⟨values, hread, hvalues⟩ := exists_values h (mem_of_require hvalue)
  rw [eq_singleton_of_single hread] at hvalues
  exact hvalues value (List.mem_singleton_self _)

theorem FieldTable.not_mem_of_list {kind : Kind} {multiplier : Float} {spec name : String}
    {values : List String} {t : FieldTable} (h : read kind multiplier spec = .ok t)
    (hvalues : t.list name = .ok values) : ∀ value ∈ values, '"' ∉ value.toList := by
  obtain ⟨content, hcontent, rfl⟩ := Outcome.map_eq_ok.1 hvalues
  cases content with
  | none => nofun
  | some values =>
    obtain ⟨_, hread, hvalues⟩ := exists_values h (mem_of_optional hcontent)
    cases hread
    exact hvalues

theorem CasterLabel.subset_group {entry : String} {label : CasterLabel}
    (h : read entry = .ok label) : label.group.toList ⊆ entry.toList := by
  unfold read at h
  dsimp only at h
  split at h
  · cases h
  · obtain ⟨level, -, h⟩ := Outcome.bind_eq_ok.1 h
    cases h
    intro c hc
    rw [String.toList_ofList] at hc
    exact Text.mem_of_mem_trimChars ((List.takeWhile_prefix _).subset hc)

theorem CasterLabel.not_mem_render {entry : String} {label : CasterLabel}
    (h : read entry = .ok label) (hentry : '"' ∉ entry.toList) : '"' ∉ label.render.toList := by
  have hlevel : '"' ∉ Numeral.digitsOfNat label.level :=
    fun hmem => nomatch Numeral.isDigit_of_mem_digitsOfNat label.level '"' hmem
  rw [toList_render]
  exact List.not_mem_append (fun hmem => hentry (subset_group h hmem)) hlevel

namespace Compile

theorem exists_mem_of_pick {entries : List String} {label text : String}
    (h : pick entries label = some text) : ∃ entry ∈ entries, text.toList ⊆ entry.toList := by
  rw [pick_eq, Option.or_eq_some_iff] at h
  obtain h | ⟨-, h⟩ := h
  · obtain ⟨entry, hentry, h⟩ := List.exists_of_findSome?_eq_some h
    obtain ⟨-, rfl⟩ := splitLabel_eq_some_iff.1 (ownText?_eq_some_iff.1 h)
    refine ⟨_, hentry, ?_⟩
    rw [toList_labelled]
    exact fun c hc => List.mem_append_right _ (List.mem_cons_of_mem _ hc)
  · exact ⟨text, List.mem_of_find?_eq_some h, fun c hc => hc⟩

/-- A description that is filled in has the characters of the description and those of
the entries. -/
theorem mem_of_substitute {d : Details} {label : String} {cs out : List Char} {c : Char}
    (h : substitute d label cs = .ok out) (hc : c ∈ out) :
    c ∈ cs ∨ ∃ entry ∈ d.all, c ∈ entry.toList := by
  fun_induction substitute d label cs generalizing out with
  | case1 =>
    cases h
    exact .inl hc
  | case2 _ cs hnone ih =>
    obtain ⟨out, hout, rfl⟩ := Outcome.map_eq_ok.1 h
    obtain rfl | hc := List.mem_cons.1 hc
    · exact .inl (List.mem_cons_self ..)
    · exact (ih hout hc).imp_left (List.mem_cons_of_mem _)
  | case3 => cases h
  | case4 _ cs field entries hof text hpick ih =>
    obtain ⟨out, hout, rfl⟩ := Outcome.map_eq_ok.1 h
    obtain hc | hc := List.mem_append.1 hc
    · obtain ⟨entry, hentry, htext⟩ := exists_mem_of_pick hpick
      exact .inr ⟨entry, (Details.exists_of_iff.1 ⟨field, hof⟩).subset_all hentry, htext hc⟩
    · exact (ih hout hc).imp_left fun hc => List.mem_cons_of_mem _ (List.mem_cons_of_mem _ hc)
  | case5 _ cs hnone ih =>
    obtain ⟨out, hout, rfl⟩ := Outcome.map_eq_ok.1 h
    obtain rfl | hc := List.mem_cons.1 hc
    · exact .inl (List.mem_cons_self ..)
    · exact (ih hout hc).imp_left (List.mem_cons_of_mem _)

namespace Spell

variable {s : Spell} {variants : List SpellVariant}

/-- **Nothing that is written of a variant has quotes.** -/
theorem IsOf.not_mem (h : s.IsOf ctx record) (hfans : s.FansOut variants o) :
    '"' ∉ s.school.toList ∧
      ∀ v ∈ variants, '"' ∉ v.label.render.toList ∧ '"' ∉ v.text := by
  obtain ⟨-, fields, hfields, hread⟩ := h
  have hlevels := FieldTable.not_mem_of_list hfields hread.levels
  have hdescription := FieldTable.not_mem_of_text hfields hread.description
  have hentries : ∀ entry ∈ s.details.all, '"' ∉ entry.toList := by
    simp only [Details.all, List.forall_mem_append]
    exact ⟨⟨FieldTable.not_mem_of_list hfields hread.duration,
      FieldTable.not_mem_of_list hfields hread.effect⟩,
      FieldTable.not_mem_of_list hfields hread.range⟩
  refine ⟨FieldTable.not_mem_of_text hfields hread.school, fun v hv => ⟨?_, fun hmem => ?_⟩⟩
  · have hlabel : v.label ∈ s.labels := hfans.labels ▸ List.mem_map_of_mem hv
    obtain ⟨entry, hentry, hlabel⟩ := exists_mem_of_forall₂ hread.labels _ hlabel
    exact CasterLabel.not_mem_render hlabel (hlevels entry hentry)
  · obtain hmem | ⟨entry, hentry, hmem⟩ := mem_of_substitute (hfans.texts v hv) hmem
    · exact hdescription hmem
    · exact hentries entry hentry hmem

/-! ## Reading -/

/-- **What should be read** of a variant. -/
def table (s : Spell) (v : SpellVariant) : FieldTable :=
  ⟨.spell, [("School", ⟨.text, s.school⟩), ("Level", ⟨.list, [v.label.render]⟩),
    ("Description", ⟨.text, String.ofList v.text⟩)]⟩

/-- The same as written fields. -/
def rawFields (s : Spell) (v : SpellVariant) : List RawField :=
  [⟨"School", [s.school]⟩, ⟨"Level", [v.label.render]⟩, ⟨"Description", [String.ofList v.text]⟩]

theorem read_eq_table_iff {v : SpellVariant} {spec : String} {multiplier : Float} :
    FieldTable.read .spell multiplier spec = .ok (s.table v) ↔
      Specification.fields spec = .ok (s.rawFields v) := by
  constructor
  · intro h
    obtain ⟨raws, hraws, hfields⟩ := FieldTable.forall₂_of_read h
    rw [hraws]
    obtain ⟨_, _, hschool, hlevels, rfl⟩ := List.forall₂_cons_right_iff.1 hfields
    obtain ⟨_, _, hlevel, hdescriptions, rfl⟩ := List.forall₂_cons_right_iff.1 hlevels
    obtain ⟨_, _, hdescription, hnil, rfl⟩ := List.forall₂_cons_right_iff.1 hdescriptions
    obtain rfl := List.forall₂_nil_right_iff.1 hnil
    rw [hschool.eq_of_text, hlevel.eq_of_list, hdescription.eq_of_text]
    rfl
  · intro h
    unfold FieldTable.read
    rw [h]
    rfl

theorem fields_choice_iff {v : SpellVariant} (hschool : '"' ∉ s.school.toList)
    (hlabel : '"' ∉ v.label.render.toList) (htext : '"' ∉ v.text) :
    Specification.fields (s.choice v).spec = .ok (s.rawFields v) ↔
      Specification.IsBare s.school.toList ∧ Specification.IsBare v.label.render.toList := by
  have hspec : (s.choice v).spec.toList = "School".toList ++ '=' :: (s.school.toList ++ ' ' ::
      ("Level".toList ++ '=' :: (v.label.render.toList ++ ' ' ::
        Specification.written ⟨"Description", [String.ofList v.text]⟩))) := by
    simp [choice, toString, Specification.written, Specification.quotedValues,
      Specification.quoted]
  -- the description is written as fields are, so it is read whatever it is made of
  have hplain : ∀ name ∈ ["School", "Level", "Description"], (RawField.mk name []).Writable := by
    decide
  obtain ⟨⟨hs, hschoolName, -⟩, ⟨hl, hlevelName, -⟩, ⟨hd, hdescriptionName, -⟩, -⟩ := by
    simpa only [List.forall_mem_cons] using hplain
  have hdescription : Specification.fieldsOfChars
      (Specification.written ⟨"Description", [String.ofList v.text]⟩ ++ []) =
        .ok [⟨"Description", [String.ofList v.text]⟩] := by
    refine Specification.fieldsOfChars_of_lists (.field Specification.gap_nil .nil)
      (List.forall_mem_singleton.2 ⟨hd, hdescriptionName, List.forall_mem_singleton.2 ?_⟩)
    rwa [String.toList_ofList]
  rw [List.append_nil] at hdescription
  rw [Specification.fields, hspec, rawFields,
    Specification.fieldsOfChars_bare_iff (mt String.toList_eq_nil_iff.1 hs) hschoolName hschool,
    Specification.fieldsOfChars_bare_iff (mt String.toList_eq_nil_iff.1 hl) hlevelName hlabel,
    hdescription]
  exact ⟨fun h => ⟨h.1, h.2.1⟩, fun h => ⟨h.1, h.2, rfl⟩⟩

/-! ## Choices -/

/-- **Where all schools and caster groups are bare**, so is what is written of variants. -/
theorem IsOf.isBare (h : s.IsOf ctx record)
    (hschools : ∀ school ∈ ctx.settings.spellSchools, Specification.IsBare school.toList)
    (hgroups : ∀ group ∈ ctx.settings.casterGroups.map Prod.fst,
      Specification.IsBare group.toList) :
    Specification.IsBare s.school.toList ∧
      ∀ label ∈ s.labels, Specification.IsBare label.render.toList := by
  obtain ⟨-, fields, -, hread⟩ := h
  constructor
  · have habbreviation := hread.abbreviation
    unfold Settings.schoolAbbreviation? at habbreviation
    split at habbreviation
    · next hschool => exact hschools _ (List.contains_iff_mem.1 hschool)
    · cases habbreviation
  · intro label hlabel
    obtain ⟨hne, hall⟩ := hgroups _ (Settings.mem_casterGroups (hread.groups label hlabel))
    rw [CasterLabel.toList_render]
    refine ⟨List.append_ne_nil_of_left_ne_nil hne _, ?_⟩
    rw [List.all_append, hall, Bool.true_and, List.all_eq_true]
    exact fun c hc => Specification.isBareChar_of_isDigit
      (Numeral.isDigit_of_mem_digitsOfNat label.level c hc)

/-- **Whether the choice of a variant can be read**: its specification gives the school,
the one label and the description of the variant, and nothing else, exactly if the
school and the label are bare. -/
theorem read_choice_iff (hkind : record.kind = .spell) (h : record.compile ctx = .ok o) :
    ∃ (s : Spell) (variants : List SpellVariant), s.IsOf ctx record ∧ s.FansOut variants o ∧
      ∀ v ∈ variants, ∀ multiplier,
        FieldTable.read .spell multiplier (s.choice v).spec = .ok (s.table v) ↔
          Specification.IsBare s.school.toList ∧
            Specification.IsBare v.label.render.toList := by
  obtain ⟨s, variants, hof, hfans, -, -⟩ := exists_fansOut hkind h
  obtain ⟨hschool, hvariants⟩ := hof.not_mem hfans
  refine ⟨s, variants, hof, hfans, fun v hv multiplier => ?_⟩
  obtain ⟨hlabel, htext⟩ := hvariants v hv
  rw [read_eq_table_iff, fields_choice_iff hschool hlabel htext]

/-- Both variants of Light can be read. -/
theorem read_choice_light : ∃ (o : Output) (s : Spell) (variants : List SpellVariant),
    light.compile ⟨.default, .empty⟩ = .ok o ∧ s.IsOf ⟨.default, .empty⟩ light ∧
      s.FansOut variants o ∧
      ∀ v ∈ variants, FieldTable.read .spell FieldTable.defaultMultiplier (s.choice v).spec =
        .ok (s.table v) := by
  obtain ⟨o, ho⟩ := Outcome.exists_of_isOk (x := light.compile ⟨.default, .empty⟩)
    (by decide +kernel)
  obtain ⟨s, variants, hof, hfans, hread⟩ := read_choice_iff rfl ho
  obtain ⟨hschool, hlabels⟩ := hof.isBare (by decide) (by decide)
  refine ⟨o, s, variants, ho, hof, hfans, fun v hv => ?_⟩
  have hlabel : v.label ∈ s.labels := hfans.labels ▸ List.mem_map_of_mem hv
  exact (hread v hv _).2 ⟨hschool, hlabels _ hlabel⟩

/-- Settings with a school that has a blank. -/
def wildMagic : Settings := { Settings.default with spellSchools := ["Wild Magic"] }

/-- A spell of that school. -/
def zap : Record := ⟨.spell, "Zap", "School=\"Wild Magic\" Level=C1 Description=Zap"⟩

/-- **A choice that cannot be read**: the school ends at its blank. -/
theorem zap_not_read : wildMagic.validate = .ok () ∧
    ∃ o, zap.compile ⟨wildMagic, .empty⟩ = .ok o ∧ ∃ choice ∈ o.choices,
      FieldTable.read .spell FieldTable.defaultMultiplier choice.spec =
        malformed (.tokenWithoutEquals "Magic") := by
  have hspecs : (zap.compile ⟨wildMagic, .empty⟩).map (·.choices.map Record.spec) =
      .ok ["School=Wild Magic Level=C1 Description=\"Zap\""] := by decide +kernel
  obtain ⟨o, ho, hspecs⟩ := Outcome.map_eq_ok.1 hspecs
  obtain ⟨choice, hchoices, hspec⟩ := List.map_eq_singleton_iff.1 hspecs
  have hfields : Specification.fields "School=Wild Magic Level=C1 Description=\"Zap\"" =
      malformed (.tokenWithoutEquals "Magic") := by decide +kernel
  refine ⟨rfl, o, ho, choice, hchoices ▸ List.mem_singleton_self _, ?_⟩
  rw [FieldTable.read, hspec, hfields]
  rfl

end Spell

end Compile

end Rulebook
