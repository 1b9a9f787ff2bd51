import Mathlib.Data.List.Forall2
import Rulebook.Proofs.AttributeGroups
import Rulebook.Proofs.SpellDescriptions

/-!
# Variants of spells

A spell has one variant for each entry of its levels, and all that it puts out are the
rules, the note and the choice of each variant, in order. No two variants have the same
name. The note and the rules of a variant come from its own description, the one of the
spell with its placeholders filled in; what is written for other variants does not
matter to it.

A spell that compiles has an entry for each placeholder of its description and each
variant, and no entry for a variant that it does not have. As in descriptions
themselves, all that depends on labels holds if the labels that entries begin with are
seen. This is so for all entries if the caster groups have names made of letters.
-/

namespace Rulebook.Compile

variable {settings : Settings} {ctx : Context} {record : Record} {fields : FieldTable}
  {o : Output}

/-! ## Spells and their variants -/

/-- **What is read of a spell.** -/
@[ext]
structure Spell where
  name : String
  school : String
  abbreviation : String
  description : String
  /-- The entries of the levels. -/
  levels : List String
  labels : List CasterLabel
  details : Details

namespace Spell

/-- **The fields of a spell.** -/
structure IsRead (settings : Settings) (fields : FieldTable) (s : Spell) : Prop where
  school : fields.text "School" = .ok s.school
  abbreviation : settings.schoolAbbreviation? s.school = some s.abbreviation
  description : fields.text "Description" = .ok s.description
  levels : fields.list "Level" = .ok s.levels
  labels : List.Forall₂ (fun entry label => CasterLabel.read entry = .ok label) s.levels s.labels
  groups : ∀ label ∈ s.labels, (settings.casterClass? label.group).isSome = true
  duration : fields.list "Duration" = .ok s.details.duration
  effect : fields.list "Effect" = .ok s.details.effect
  range : fields.list "Range" = .ok s.details.range

/-- **Whether a record is one of a spell**: the name is that of the record, and the rest
is read from its fields. -/
structure IsOf (ctx : Context) (record : Record) (s : Spell) : Prop where
  name : s.name = record.name
  fields : ∃ fields, FieldTable.read .spell ctx.settings.experienceMultiplier record.spec =
    .ok fields ∧ s.IsRead ctx.settings fields

end Spell

/-- **A variant of a spell**, with its own description and the note made from it. -/
structure SpellVariant where
  label : CasterLabel
  text : List Char
  template : Template

namespace Spell

variable {s : Spell} {variants : List SpellVariant}

/-- The name of the variant of a label. -/
def variantName (s : Spell) (label : CasterLabel) : String :=
  s!"{s.name}({label.render} {s.abbreviation})"

/-- The attribute of the variant of a label. -/
def attr (s : Spell) (label : CasterLabel) : String := member "spells" (s.variantName label)

/-- The rule that counts the variant of a label among the known spells. -/
def knownRule (s : Spell) (label : CasterLabel) : Rule :=
  .passthrough (member "spellsKnown" label.render) (s.attr label) .add

/-- **The rule that binds a placeholder of a note**: the value of the formula at the caster's
level is set as the numbered attribute of the variant. -/
def bindingRule (s : Spell) (label : CasterLabel) (b : Binding) : Rule where
  target := s.attr label ++ "." ++ Numeral.textOfNat b.placeholder
  source := "casterLevels." ++ label.group
  op := .set
  formula := some b.formula

/-- **The rules of a variant**: those that bind the placeholders of its note, in order, and the
one that counts it. -/
def rules (s : Spell) (v : SpellVariant) : List Rule :=
  v.template.bindings.map (s.bindingRule v.label) ++ [s.knownRule v.label]

/-- **The note of a variant.** -/
def note (s : Spell) (v : SpellVariant) : Note := ⟨s.attr v.label, "magic", v.template.text⟩

/-- **The choice of a variant.** -/
def choice (s : Spell) (v : SpellVariant) : Record :=
  ⟨.spell, s.variantName v.label,
    s!"School={s.school} Level={v.label.render} Description=\"{String.ofList v.text}\""⟩

/-- **Whether an output is that of a spell and its variants**, one for each label. -/
structure FansOut (s : Spell) (variants : List SpellVariant) (o : Output) : Prop where
  labels : variants.map (·.label) = s.labels
  texts : ∀ v ∈ variants,
    substitute s.details v.label.render s.description.toList = .ok v.text
  templates : ∀ v ∈ variants, Template.compileChars v.text = .ok v.template
  rules : o.rules = variants.flatMap s.rules
  notes : o.notes = variants.map s.note
  choices : o.choices = variants.map s.choice

/-! ## Reading -/

/-- **The variants that a spell is listed for**, one for each entry, are of known groups
and different. -/
theorem exists_of_readVariants {before labels : List CasterLabel} {entries : List String}
    (h : readVariants settings before entries = .ok labels)
    (hbefore : (before.map CasterLabel.render).Nodup) :
    ∃ more, labels = before ++ more ∧
      List.Forall₂ (fun entry label => CasterLabel.read entry = .ok label) entries more ∧
      (∀ label ∈ more, (settings.casterClass? label.group).isSome = true) ∧
      (labels.map CasterLabel.render).Nodup := by
  induction entries generalizing before with
  | nil =>
    cases h
    exact ⟨[], (List.append_nil _).symm, .nil, nofun, hbefore⟩
  | cons entry entries ih =>
    rw [readVariants] at h
    obtain ⟨label, hlabel, h⟩ := Outcome.bind_eq_ok.1 h
    split at h
    · cases h
    · next hgroup =>
      split at h
      · cases h
      · next hnew =>
        have hnodup : ((before ++ [label]).map CasterLabel.render).Nodup := by
          simp only [List.any_eq_true, beq_iff_eq, not_exists, not_and] at hnew
          rw [List.map_append, List.nodup_append]
          refine ⟨hbefore, List.pairwise_singleton .., fun text htext other hother heq => ?_⟩
          obtain ⟨l, hl, hrender⟩ := List.mem_map.1 htext
          exact hnew l hl ((hrender.trans heq).trans (List.mem_singleton.1 hother))
        obtain ⟨more, rfl, hread, hgroups, hall⟩ := ih h hnodup
        refine ⟨label :: more, ?_, .cons (Outcome.inField_eq_ok.1 hlabel) hread,
          List.forall_mem_cons.2 ⟨?_, hgroups⟩, hall⟩
        · rw [List.append_assoc, List.singleton_append]
        · exact Option.isSome_iff_ne_none.2 (mt Option.isNone_iff_eq_none.2 hgroup)

/-- **The entries of a field** are for variants that the spell is listed for. -/
theorem of_readDetail {labels : List CasterLabel} {field : String} {entries : List String}
    (h : readDetail fields labels field = .ok entries) :
    fields.list field = .ok entries ∧ ∀ label text, labelled label text ∈ entries →
      isVariantLabel label.toList = true → label ∈ labels.map CasterLabel.render := by
  obtain ⟨all, hall, h⟩ := Outcome.bind_eq_ok.1 h
  split at h
  · cases h
  · next hnone =>
    cases h
    refine ⟨hall, fun label text hentry hform => ?_⟩
    have hlisted := List.findSome?_eq_none_iff.1 hnone _ hentry
    rw [splitLabel_eq_some_iff.2 ⟨hform, rfl⟩, Option.bind_some] at hlisted
    dsimp only at hlisted
    split at hlisted
    · next hany =>
      obtain ⟨l, hl, hrender⟩ := List.any_eq_true.1 hany
      exact List.mem_map.2 ⟨l, hl, beq_iff_eq.1 hrender⟩
    · cases hlisted

/-- **A record is one of at most one spell.** -/
theorem IsOf.unique {s' : Spell} (h : s.IsOf ctx record) (h' : s'.IsOf ctx record) : s' = s := by
  obtain ⟨hname, fields, hfields, h⟩ := h
  obtain ⟨hname', fields', hfields', h'⟩ := h'
  cases hfields.symm.trans hfields'
  have hok : ∀ {α : Type} {x : Compiled α} {a b : α}, x = .ok a → x = .ok b → b = a := by
    intro α x a b ha hb
    cases ha.symm.trans hb
    rfl
  have hschool := hok h.school h'.school
  have hlevels := hok h.levels h'.levels
  have habbreviation : s'.abbreviation = s.abbreviation := by
    rw [← Option.some_inj, ← h.abbreviation, ← h'.abbreviation, hschool]
  have hlabels : s'.labels = s.labels := by
    have hread := h'.labels
    rw [hlevels] at hread
    have hfunctional : Relator.RightUnique
        fun (entry : String) (label : CasterLabel) => CasterLabel.read entry = .ok label :=
      fun _ _ _ ha hb => hok hb ha
    exact List.right_unique_forall₂' hfunctional hread h.labels
  have hdetails : s'.details = s.details := by
    change Details.mk s'.details.duration s'.details.effect s'.details.range = s.details
    rw [hok h.duration h'.duration, hok h.effect h'.effect, hok h.range h'.range]
  exact Spell.ext (hname'.trans hname.symm) hschool habbreviation
    (hok h.description h'.description) hlevels hlabels hdetails

/-! ## Variants -/

/-- The output of a variant. -/
def output (s : Spell) (v : SpellVariant) : Output :=
  Output.ofRules (s.rules v) ++ ⟨[], [s.note v], []⟩ ++ ⟨[], [], [s.choice v]⟩

theorem rules_output {v : SpellVariant} : (s.output v).rules = s.rules v := by
  simp [output, Output.ofRules]

/-- The compiler binds placeholders by these rules. -/
theorem bindingRules_eq {label : CasterLabel} {bindings : List Binding} :
    bindingRules (s.attr label) (member "casterLevels" label.group) bindings =
      bindings.map (s.bindingRule label) := by
  have hsource : member "casterLevels" label.group = "casterLevels." ++ label.group :=
    congrArg (· ++ label.group) (by decide : "casterLevels" ++ "." = "casterLevels.")
  rw [hsource]
  rfl

theorem exists_variant_of_variantOutput {label : CasterLabel}
    (h : variantOutput s.name s.school s.abbreviation s.description.toList s.details label =
      .ok o) :
    ∃ v : SpellVariant, v.label = label ∧
      substitute s.details v.label.render s.description.toList = .ok v.text ∧
      Template.compileChars v.text = .ok v.template ∧ o = s.output v := by
  unfold variantOutput at h
  simp only [Outcome.bind_eq_ok] at h
  obtain ⟨text, htext, template, htemplate, h⟩ := h
  cases h
  refine ⟨⟨label, text, template⟩, rfl, htext, Outcome.inField_eq_ok.1 htemplate, ?_⟩
  unfold output rules
  rw [← bindingRules_eq]
  rfl

/-- **All variants**, one for each label. -/
theorem exists_variants_of_mapM {labels : List CasterLabel} {outputs : List Output}
    (h : labels.mapM (variantOutput s.name s.school s.abbreviation s.description.toList
      s.details) = .ok outputs) :
    ∃ variants : List SpellVariant, variants.map (·.label) = labels ∧
      (∀ v ∈ variants, substitute s.details v.label.render s.description.toList = .ok v.text) ∧
      (∀ v ∈ variants, Template.compileChars v.text = .ok v.template) ∧
      outputs = variants.map s.output := by
  induction labels generalizing outputs with
  | nil =>
    cases h
    exact ⟨[], rfl, nofun, nofun, rfl⟩
  | cons label labels ih =>
    rw [List.mapM_cons] at h
    obtain ⟨first, hfirst, h⟩ := Outcome.bind_eq_ok.1 h
    obtain ⟨others, hothers, h⟩ := Outcome.bind_eq_ok.1 h
    cases h
    obtain ⟨v, rfl, htext, htemplate, rfl⟩ := exists_variant_of_variantOutput hfirst
    obtain ⟨variants, rfl, htexts, htemplates, rfl⟩ := ih hothers
    exact ⟨v :: variants, rfl, List.forall_mem_cons.2 ⟨htext, htexts⟩,
      List.forall_mem_cons.2 ⟨htemplate, htemplates⟩, rfl⟩

/-- **A spell fans out** into its variants. -/
theorem fansOut_of_spellOutput (h : spellOutput ctx record fields = .ok o) :
    ∃ (s : Spell) (variants : List SpellVariant), s.name = record.name ∧
      s.IsRead ctx.settings fields ∧ s.FansOut variants o ∧
      (s.labels.map CasterLabel.render).Nodup ∧
      ∀ label text, labelled label text ∈ s.details.all → isVariantLabel label.toList = true →
        label ∈ s.labels.map CasterLabel.render := by
  obtain ⟨school, abbreviation, description, levels, labels, duration, effect, range, outputs,
    hschool, habbreviation, hdescription, hlevels, hlabels, hduration, heffect, hrange, houtputs,
    rfl⟩ := exists_of_spellOutput h
  obtain ⟨more, rfl, hread, hgroups, hnodup⟩ := exists_of_readVariants hlabels List.nodup_nil
  obtain ⟨hduration, hdurations⟩ := of_readDetail hduration
  obtain ⟨heffect, heffects⟩ := of_readDetail heffect
  obtain ⟨hrange, hranges⟩ := of_readDetail hrange
  let s : Spell :=
    ⟨record.name, school, abbreviation, description, levels, labels, ⟨duration, effect, range⟩⟩
  obtain ⟨variants, hvariants, htexts, htemplates, rfl⟩ := exists_variants_of_mapM (s := s) houtputs
  refine ⟨s, variants, rfl, ⟨hschool, habbreviation, hdescription, hlevels, hread, hgroups,
    hduration, heffect, hrange⟩, ⟨hvariants, htexts, htemplates, ?_, ?_, ?_⟩, hnodup, ?_⟩
  · rw [Output.rules_concat, List.flatMap_map]
    exact congrArg (variants.flatMap ·) (funext fun v => rules_output)
  · rw [Output.notes_concat, List.flatMap_map]
    exact List.flatMap_pure_eq_map ..
  · rw [Output.choices_concat, List.flatMap_map]
    exact List.flatMap_pure_eq_map ..
  · intro label text hmem
    rw [Details.all, List.mem_append, List.mem_append] at hmem
    obtain (hmem | hmem) | hmem := hmem
    · exact hdurations label text hmem
    · exact heffects label text hmem
    · exact hranges label text hmem

/-- **Names of variants are different** if their labels are. -/
theorem nodup_variantName (h : (s.labels.map CasterLabel.render).Nodup) :
    (s.labels.map s.variantName).Nodup := by
  have hinjective : Function.Injective
      fun render : String => s!"{s.name}({render} {s.abbreviation})" := by
    intro render render' hname
    simpa [toString] using hname
  have hmap := h.map hinjective
  rwa [List.map_map] at hmap

/-- **One rule for each variant** counts it among the known spells. -/
theorem FansOut.knownRules (h : s.FansOut variants o) :
    o.rules.filter (fun r => groupOf r.target = "spellsKnown") =
      variants.map fun v => s.knownRule v.label := by
  have hvariant : ∀ v : SpellVariant,
      (s.rules v).filter (fun r => groupOf r.target = "spellsKnown") = [s.knownRule v.label] := by
    intro v
    have hbindings : ∀ r ∈ v.template.bindings.map (s.bindingRule v.label),
        ¬ decide (groupOf r.target = "spellsKnown") = true := by
      intro r hr
      obtain ⟨b, -, rfl⟩ := List.mem_map.1 hr
      have hgroup :
          groupOf (s.attr v.label ++ "." ++ Numeral.textOfNat b.placeholder) = "spells" := by
        rw [String.append_assoc]
        exact groupOf_member_append (by decide)
      rw [decide_eq_true_iff]
      exact fun h => absurd (hgroup.symm.trans h) (by decide)
    have hknown : groupOf (s.knownRule v.label).target = "spellsKnown" :=
      groupOf_member (by decide)
    rw [Spell.rules, List.filter_append, List.filter_eq_nil_iff.2 hbindings, List.nil_append,
      List.filter_singleton, hknown]
    rfl
  rw [h.rules, List.filter_flatMap]
  exact (congrArg (variants.flatMap ·) (funext hvariant)).trans (List.flatMap_pure_eq_map ..)

/-- **A variant does not depend on entries for others.** -/
theorem FansOut.mem_of_reworded {d : Details} {variants' : List SpellVariant} {o' : Output}
    {v : SpellVariant} (h : s.FansOut variants o)
    (h' : { s with details := d }.FansOut variants' o')
    (hseen : Seen settings s.details.all) (hv : v ∈ variants)
    (hd : s.details.Reworded settings v.label.render d) : v ∈ variants' := by
  have hlabel : v.label ∈ variants'.map (·.label) := by
    rw [h'.labels]
    exact h.labels ▸ List.mem_map_of_mem hv
  obtain ⟨v', hv', hlabel⟩ := List.mem_map.1 hlabel
  have htext := h'.texts v' hv'
  rw [hlabel, substitute_reworded hseen hd, h.texts v hv] at htext
  have htemplate := h'.templates v' hv'
  cases v
  cases v'
  cases hlabel
  cases htext
  cases (h.templates _ hv).symm.trans htemplate
  exact hv'

/-! ## Compiled spells -/

/-- **What the descriptions of variants are**: that of the spell, filled in for each. And
all entries that this takes are there, and none is for a variant that is not. -/
structure Described (settings : Settings) (s : Spell) (variants : List SpellVariant) : Prop where
  fills : ∀ v ∈ variants,
    Fills settings s.details v.label.render s.description.toList v.text
  chosen : ∀ label ∈ s.labels, ∀ c entries, Placeholder s.details c entries →
    ['$', c] <:+: s.description.toList → ∃ text, Chosen settings label.render entries text
  listed : ∀ label text, IsLabel settings label → labelled label text ∈ s.details.all →
    label ∈ s.labels.map CasterLabel.render

/-- The labels of a spell are labels. -/
theorem IsOf.isLabel (h : s.IsOf ctx record) :
    ∀ label ∈ s.labels, IsLabel ctx.settings label.render := by
  obtain ⟨-, fields, -, hread⟩ := h
  exact fun label hlabel => .inr ⟨label, hread.groups label hlabel, rfl⟩

/-- A record of a spell that compiles fans out. -/
theorem exists_fansOut (hkind : record.kind = .spell) (h : record.compile ctx = .ok o) :
    ∃ (s : Spell) (variants : List SpellVariant), s.IsOf ctx record ∧ s.FansOut variants o ∧
      (s.labels.map CasterLabel.render).Nodup ∧
      ∀ label text, labelled label text ∈ s.details.all → isVariantLabel label.toList = true →
        label ∈ s.labels.map CasterLabel.render := by
  obtain ⟨fields, hfields, h⟩ := Outcome.bind_eq_ok.1 h
  rw [hkind] at hfields
  unfold fieldsOutput at h
  rw [hkind] at h
  obtain ⟨s, variants, hname, hread, hrest⟩ := fansOut_of_spellOutput h
  exact ⟨s, variants, ⟨hname, fields, hfields, hread⟩, hrest⟩

/-- **The variants of a spell that compiles**: there is one for each entry of its levels,
in order; each has a name of its own, and one note, one choice and one rule that counts
it. If the labels of entries are seen, each variant has the description of the spell,
filled in for it, and entries for other variants do not matter to it. -/
theorem fansOut_of_compile (hkind : record.kind = .spell) (h : record.compile ctx = .ok o) :
    ∃ (s : Spell) (variants : List SpellVariant), s.IsOf ctx record ∧
      (∀ s' : Spell, s'.IsOf ctx record → s' = s) ∧
      s.FansOut variants o ∧
      (variants.map fun v => s.variantName v.label).Nodup ∧
      (o.rules.filter fun r => groupOf r.target = "spellsKnown") =
        (variants.map fun v => s.knownRule v.label) ∧
      (Seen ctx.settings s.details.all →
        s.Described ctx.settings variants ∧
        ∀ (other : Record) (o' : Output) (d : Details), other.kind = .spell →
          other.compile ctx = .ok o' → { s with details := d }.IsOf ctx other →
          ∃ variants', { s with details := d }.FansOut variants' o' ∧
            ∀ v ∈ variants, s.details.Reworded ctx.settings v.label.render d → v ∈ variants') := by
  obtain ⟨s, variants, hof, hfans, hnodup, hlisted⟩ := exists_fansOut hkind h
  refine ⟨s, variants, hof, fun s' => hof.unique, hfans, ?_, hfans.knownRules,
    fun hseen => ⟨?_, ?_⟩⟩
  · have hnames := nodup_variantName hnodup
    rwa [← hfans.labels, List.map_map] at hnames
  · have hfills : ∀ v ∈ variants,
        Fills ctx.settings s.details v.label.render s.description.toList v.text := by
      intro v hv
      have hlabel : v.label ∈ s.labels := hfans.labels ▸ List.mem_map_of_mem hv
      exact (substitute_eq_ok_iff hseen (hof.isLabel _ hlabel)).1 (hfans.texts v hv)
    refine ⟨hfills, ?_, fun label text hlabel hentry => ?_⟩
    · intro label hlabel c entries hc hmem
      rw [← hfans.labels] at hlabel
      obtain ⟨v, hv, rfl⟩ := List.mem_map.1 hlabel
      exact (hfills v hv).exists_chosen hc hmem
    · exact hlisted label text hentry (hseen _ hentry label text hlabel rfl)
  · intro other o' d hkind' hcompile hof'
    obtain ⟨s', variants', hof'', hfans', -, -⟩ := exists_fansOut hkind' hcompile
    cases hof'.unique hof''
    exact ⟨variants', hfans', fun v hv hd => hfans.mem_of_reworded hfans' hseen hv hd⟩

/-- Light, of which clerics have more. -/
def light : Record :=
  ⟨.spell, "Light", "School=Alteration Level=C1,MU1 Description=\"$R radius light for $D\" " ++
    "Duration=\"C1:%\x7bsource + 6\x7d turns\",\"%\x7bsource\x7d turns\" Range=\"20'\""⟩

/-- Its two variants have the description filled in. -/
theorem fansOut_light : ∃ (o : Output) (s : Spell) (variants : List SpellVariant),
    light.compile ⟨.default, .empty⟩ = .ok o ∧
      o.notes.map Note.format =
        ["20' radius light for %1 turns", "20' radius light for %1 turns"] ∧
      s.IsOf ⟨.default, .empty⟩ light ∧ s.FansOut variants o ∧ s.Described .default variants := by
  have hnotes : (light.compile ⟨.default, .empty⟩).map (·.notes.map Note.format) =
      .ok ["20' radius light for %1 turns", "20' radius light for %1 turns"] := by decide +kernel
  obtain ⟨o, ho, hnotes⟩ := Outcome.map_eq_ok.1 hnotes
  obtain ⟨s, variants, hof, -, hfans, -, -, hdescribed⟩ := fansOut_of_compile rfl ho
  have hseen : Seen .default s.details.all := seen_of_isAlpha (by decide) s.details.all
  exact ⟨o, s, variants, ho, hnotes, hof, hfans, (hdescribed hseen).1⟩

/-- Settings with a group whose name has a hyphen. -/
def specialists : Settings :=
  { Settings.default with casterGroups := [("C", "Cleric"), ("MU-S", "Magic-User")] }

/-- A spell with an entry for that group, and one for all others. -/
def glow : Record :=
  ⟨.spell, "Glow", "School=Alteration Level=C1,MU-S2 Description=\"For $D\" " ++
    "Duration=\"MU-S2:2 turns\",\"1 turn\""⟩

/-- What is read of it. -/
def glowSpell : Spell :=
  ⟨"Glow", "Alteration", "Alte", "For $D", ["C1", "MU-S2"], [⟨"C", 1⟩, ⟨"MU-S", 2⟩],
    ⟨["MU-S2:2 turns", "1 turn"], [], []⟩⟩

/-- **A label that is not seen**: there is one way to fill the description in for this
variant, and no note comes from it. -/
theorem glow_not_described : specialists.validate = .ok () ∧
    glowSpell.IsOf ⟨specialists, .empty⟩ glow ∧
    ∃ o, glow.compile ⟨specialists, .empty⟩ = .ok o ∧
      ∃ label ∈ glowSpell.labels, ∃ text template,
        (∀ out, Fills specialists glowSpell.details label.render
          glowSpell.description.toList out ↔ out = text) ∧
        Template.compileChars text = .ok template ∧ ∀ n ∈ o.notes, n.format ≠ template.text := by
  have htexts : (FieldTable.read .spell specialists.experienceMultiplier glow.spec).map
      (fun t => ["School", "Description"].map t.text) = .ok [.ok "Alteration", .ok "For $D"] := by
    decide +kernel
  have hlists : (FieldTable.read .spell specialists.experienceMultiplier glow.spec).map
      (fun t => ["Level", "Duration", "Effect", "Range"].map t.list) =
        .ok [.ok ["C1", "MU-S2"], .ok ["MU-S2:2 turns", "1 turn"], .ok [], .ok []] := by
    decide +kernel
  obtain ⟨fields, hfields, htexts⟩ := Outcome.map_eq_ok.1 htexts
  rw [hfields] at hlists
  simp only [Except.map, Except.ok.injEq, List.map_cons, List.map_nil, List.cons.injEq, and_true]
    at htexts hlists
  obtain ⟨hschool, hdescription⟩ := htexts
  obtain ⟨hlevels, hduration, heffect, hrange⟩ := hlists
  have hof : glowSpell.IsOf ⟨specialists, .empty⟩ glow :=
    ⟨rfl, fields, hfields, hschool, by decide, hdescription, hlevels,
      .cons (by decide +kernel) (.cons (by decide +kernel) .nil), by decide, hduration, heffect,
      hrange⟩
  have hnotes : (glow.compile ⟨specialists, .empty⟩).map (·.notes.map Note.format) =
      .ok ["For MU-S2:2 turns", "For MU-S2:2 turns"] := by decide +kernel
  obtain ⟨o, ho, hnotes⟩ := Outcome.map_eq_ok.1 hnotes
  have htext : Chosen specialists "MU-S2" glowSpell.details.duration "2 turns" :=
    @Chosen.own _ _ _ _ [] ["1 turn"] rfl nofun
  have hplaceholder : Fills specialists glowSpell.details "MU-S2" "$D".toList
      ("2 turns".toList ++ []) := .placeholder .duration htext .nil
  have hfills : Fills specialists glowSpell.details "MU-S2" glowSpell.description.toList
      "For 2 turns".toList :=
    .other nofun (.other nofun (.other nofun (.other nofun hplaceholder)))
  have htemplate : (Template.compileChars "For 2 turns".toList).map Template.text =
      .ok "For 2 turns" := by decide +kernel
  obtain ⟨template, htemplate, hformat⟩ := Outcome.map_eq_ok.1 htemplate
  have hrender : CasterLabel.render ⟨"MU-S", 2⟩ = "MU-S2" := by decide +kernel
  refine ⟨rfl, hof, o, ho, ⟨"MU-S", 2⟩, by decide, _, template, fun out => ?_, htemplate, ?_⟩
  · rw [hrender]
    exact ⟨fun h => h.unique hfills, fun h => h ▸ hfills⟩
  intro n hn heq
  have hmem := List.mem_map_of_mem (f := Note.format) hn
  rw [hnotes, heq, hformat] at hmem
  exact absurd hmem (by decide)

end Spell

end Rulebook.Compile
