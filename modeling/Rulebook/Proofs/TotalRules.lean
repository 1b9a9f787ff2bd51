import Rulebook.Proofs.AttributeGroups

/-!
# Who contributes to the totals of saving throws

Every class brings the same two rules for the total of a saving throw: the first
sets it to what the classes give, and the second adds the adjustments to it. It
brings nothing else there.

Totals are attributes that only classes set, as far as records do not choose their
targets. Features and goodies do: the effects of features and the attributes of
goodies are free texts, so they may contribute to a total. But none of them can
bring the first of the two rules. An effect of a feature always computes something,
and a goody copies from an attribute of its own.
-/

namespace Rulebook

namespace Compile

/-- **The rule that sets the total of a saving throw** to what the classes give. -/
def baseRule (category : String) : Rule :=
  .passthrough (member "save" category) (member "classSave" category) .set

/-- **The rule that adds the adjustments** to the total of a saving throw. -/
def adjustmentRule (category : String) : Rule :=
  .passthrough (member "save" category) (member "saveAdjustment" category) .add

variable {category target source group group' name name' : String} {op : MergeOp}
  {f : Formula Float}

/-! ## Who brings the first rule -/

theorem computed_ne_baseRule : Rule.computed target source op f ≠ baseRule category :=
  fun h => nomatch congrArg Rule.formula h

theorem passthrough_ne_of_source (h : source ≠ member "classSave" category) :
    Rule.passthrough target source op ≠ baseRule category :=
  fun heq => h (congrArg Rule.source heq)

/-- Attributes of groups that begin differently are different. -/
theorem member_ne_member (h : (group ++ ".").toList.head? ≠ (group' ++ ".").toList.head?) :
    member group name ≠ member group' name' := by
  have hhead : ∀ group name : String,
      (member group name).toList.head? = (group ++ ".").toList.head? := by
    intro group name
    unfold member
    rw [String.toList_append, List.head?_append_of_ne_nil]
    simp
  intro heq
  rw [← hhead group name, ← hhead group' name', heq] at h
  exact h rfl

end Compile

open Compile

/-- **Whether an output leaves the total of a category as it is**: the rule that
sets it is not there. -/
def Output.Spares (category : String) (o : Output) : Prop := ∀ r ∈ o.rules, r ≠ baseRule category

/-- Only a class may set a total, of the records that do not choose their targets. -/
theorem Output.Belongs.spares {category : String} {key : Key} {o : Output} (h : o.Belongs key)
    (hkey : key.kind ≠ .charClass) : o.Spares category := by
  rintro r hr rfl
  have hgroup : groupOf (baseRule category).target = "save" := groupOf_member (by decide)
  have hbelongs := h _ hr
  unfold Rule.Belongs at hbelongs
  rw [hgroup] at hbelongs
  exact hkey hbelongs.1

theorem Output.Spares.append {category : String} {a b : Output} (ha : a.Spares category)
    (hb : b.Spares category) : (a ++ b).Spares category :=
  List.forall_mem_append.2 ⟨ha, hb⟩

namespace Compile

variable {ctx : Context} {record : Record} {fields : FieldTable} {o : Output}
  {category target source : String} {op : MergeOp} {f : Formula Float}

theorem bindingRules_ne_baseRule {attr : String} {bindings : List Binding} :
    ∀ r ∈ bindingRules attr source bindings, r ≠ baseRule category :=
  List.forall_mem_map.2 (fun _ _ => computed_ne_baseRule)

/-- Notes are filled from the record that they belong to. -/
theorem spares_sectionNotes {settings : Settings} {sections notes : List String} {key : String}
    (hsource : source ≠ member "classSave" category)
    (h : sectionNotes settings sections notes key source = .ok o) : o.Spares category := by
  have hnote : ∀ {before : List String} {name note : String} {o : Output},
      sectionNote settings key source before name note = .ok o → o.Spares category := by
    intro before name note o h
    unfold sectionNote at h
    split at h
    · cases h
    · split at h
      · cases h
      · obtain ⟨template, -, h⟩ := Outcome.bind_eq_ok.1 h
        cases h
        exact .append (List.forall_mem_cons.2
          ⟨passthrough_ne_of_source hsource, bindingRules_ne_baseRule⟩) nofun
  have hnotes : ∀ {notes : List (String × String)} {before : List String} {o : Output},
      sectionNotesAfter settings key source before notes = .ok o → o.Spares category := by
    intro notes
    induction notes with
    | nil =>
      intro before o h
      cases h
      nofun
    | cons note notes ih =>
      intro before o h
      obtain ⟨first, hfirst, h⟩ := Outcome.bind_eq_ok.1 h
      obtain ⟨others, hothers, h⟩ := Outcome.bind_eq_ok.1 h
      cases h
      exact .append (hnote hfirst) (ih hothers)
  unfold sectionNotes at h
  split at h
  · cases h
  · exact hnotes h

theorem spares_featureOutput (h : featureOutput ctx record fields = .ok o) :
    o.Spares category := by
  unfold featureOutput at h
  simp only [Outcome.bind_eq_ok] at h
  obtain ⟨sections, -, notes, -, shown, hshown, entries, -, effects, -, h⟩ := h
  cases h
  exact .append (.append (spares_sectionNotes (member_ne_member (by decide)) hshown)
    (List.forall_mem_map.2 (fun _ _ => computed_ne_baseRule))) nofun

theorem spares_goodyOutput (h : goodyOutput ctx record fields = .ok o) : o.Spares category := by
  unfold goodyOutput at h
  simp only [Outcome.bind_eq_ok] at h
  obtain ⟨patternText, -, pattern, -, -, -, valueText, -, value, -, opText, -, op, -,
    attrs, -, h⟩ := h
  split at h
  · cases h
  simp only [Outcome.bind_eq_ok] at h
  obtain ⟨rules, hrules, sections, -, notes, -, shown, hshown, h⟩ := h
  cases h
  have hsource : member "goodies" record.name ≠ member "classSave" category :=
    member_ne_member (by decide)
  have hrules : ∀ r ∈ rules, r ≠ baseRule category :=
    Outcome.forall_of_mapM hrules (fun attr _ r hr => by
      unfold goodyRule at hr
      dsimp only at hr
      split at hr
      · cases hr
      · cases hr
        exact passthrough_ne_of_source hsource)
  exact .append (.append (List.forall_mem_cons.2 ⟨computed_ne_baseRule, hrules⟩)
    (spares_sectionNotes hsource hshown)) nofun

/-! ## What a class brings -/

/-- The two rules for the total of a category, in order. -/
def totalRules (category : String) : List Rule := [baseRule category, adjustmentRule category]

/-- **Whether a rule contributes to something else** than a total. -/
def Elsewhere (r : Rule) : Prop := ¬ "save.".toList <+: r.target.toList

theorem elsewhere_computed (h : ¬ "save.".toList <+: target.toList) :
    Elsewhere (.computed target source op f) := h

theorem elsewhere_passthrough (h : ¬ "save.".toList <+: target.toList) :
    Elsewhere (.passthrough target source op) := h

theorem Elsewhere.filter_eq_nil {rules : List Rule} (h : ∀ r ∈ rules, Elsewhere r) :
    rules.filter (·.target == member "save" category) = [] := by
  refine List.filter_eq_nil_iff.2 (fun r hr htarget => h r hr ?_)
  rw [beq_iff_eq.1 htarget, member, String.toList_append, String.toList_append]
  exact List.prefix_append ..

theorem elsewhere_experienceRules {name levels : String} {table : ExperienceTable Float} :
    ∀ r ∈ experienceRules name (member "levels" levels) table, Elsewhere r :=
  List.forall_mem_cons.2 ⟨elsewhere_computed (by simp [member]), List.forall_mem_cons.2
    ⟨elsewhere_computed (by simp [member]),
      List.forall_mem_singleton.2 (elsewhere_passthrough (by decide))⟩⟩

theorem elsewhere_hitDieRules {levels : String} {die : HitDieProgression Float} :
    ∀ r ∈ hitDieRules levels die, Elsewhere r := by
  refine List.forall_mem_cons.2 ⟨elsewhere_computed (by decide), ?_⟩
  split
  · exact List.forall_mem_singleton.2 (elsewhere_computed (by decide))
  · exact List.forall_mem_nil _

theorem elsewhere_proficiencyRules {levels : String} {p : Option (ProficiencyProgression Float)} :
    ∀ r ∈ proficiencyRules levels p, Elsewhere r := by
  cases p with
  | none => exact List.forall_mem_nil _
  | some q =>
    exact List.forall_mem_cons.2 ⟨elsewhere_computed (by decide),
      List.forall_mem_singleton.2 (elsewhere_computed (by decide))⟩

theorem elsewhere_requirements {texts : List String} {attrPrefix : String}
    (h : requirements texts attrPrefix source = .ok o) : ∀ r ∈ o.rules, Elsewhere r := by
  unfold requirements at h
  split at h
  · cases h
    nofun
  · obtain ⟨conditions, -, h⟩ := Outcome.bind_eq_ok.1 h
    cases h
    refine List.forall_mem_singleton.2 (elsewhere_computed ?_)
    show ¬ "save.".toList <+: ("validationNotes." ++ attrPrefix ++ "Requirements").toList
    simp

theorem elsewhere_grantLanguages {languages : List String}
    (h : grantLanguages ctx languages source = .ok o) : ∀ r ∈ o.rules, Elsewhere r := by
  obtain ⟨rules, hrules, h⟩ := Outcome.bind_eq_ok.1 h
  cases h
  refine Outcome.forall_of_mapM hrules (fun language _ r hr => ?_)
  obtain ⟨-, -, hr⟩ := Outcome.bind_eq_ok.1 hr
  cases hr
  exact elsewhere_computed (by simp [member])

theorem elsewhere_spellSlotRule {settings : Settings} {name levels : String}
    {table : SpellSlotTable} {r : Rule} (h : spellSlotRule settings name levels table = .ok r) :
    Elsewhere r := by
  unfold spellSlotRule at h
  dsimp only at h
  split at h
  · cases h
  · split at h
    · cases h
    · cases h
      exact elsewhere_computed (by simp [member])

/-- A category brings the two rules for its own total. -/
theorem filter_saveRules {levels other : String} {save : SaveProgression Float} :
    (saveRules levels other save).filter (·.target == member "save" category) =
      if other = category then totalRules category else [] := by
  have hclass : Elsewhere (.computed (member "classSave" other) levels SaveProgression.policy.op
      save.formula) := elsewhere_computed (by simp [member])
  unfold saveRules
  dsimp only
  rw [← List.singleton_append, List.filter_append,
    Elsewhere.filter_eq_nil (List.forall_mem_singleton.2 hclass), List.nil_append]
  split
  · next heq =>
    subst heq
    exact List.filter_eq_self.2 (List.forall_mem_cons.2
      ⟨beq_iff_eq.2 rfl, List.forall_mem_singleton.2 (beq_iff_eq.2 rfl)⟩)
  · next hne =>
    have htotal : (member "save" other == member "save" category) = false := by
      rw [beq_eq_false_iff_ne]
      simpa [member] using hne
    exact List.filter_eq_nil_iff.2 (List.forall_mem_cons.2 ⟨ne_true_of_eq_false htotal,
      List.forall_mem_singleton.2 (ne_true_of_eq_false htotal)⟩)

/-- So do some categories among which it is. -/
theorem filter_saves {levels : String} {categories : List String} {saves : List (List Rule)}
    (h : (categories.mapM fun other => do
      let save ← fields.require .save other
      return saveRules levels other save) = .ok saves) :
    saves.flatten.filter (·.target == member "save" category) =
      categories.flatMap fun other => if other = category then totalRules category else [] := by
  induction categories generalizing saves with
  | nil =>
    cases h
    rfl
  | cons other categories ih =>
    rw [List.mapM_cons] at h
    obtain ⟨rules, hrules, h⟩ := Outcome.bind_eq_ok.1 h
    obtain ⟨others, hothers, h⟩ := Outcome.bind_eq_ok.1 h
    obtain ⟨save, -, hrules⟩ := Outcome.bind_eq_ok.1 hrules
    cases h
    cases hrules
    rw [List.flatten_cons, List.filter_append, List.flatMap_cons]
    exact congrArg₂ (· ++ ·) filter_saveRules (ih hothers)

/-- **A class brings the two rules for each total** and nothing else to it. -/
theorem filter_classOutput (hcategory : category ∈ saveCategories)
    (h : classOutput ctx record fields = .ok o) :
    o.rules.filter (·.target == member "save" category) = totalRules category := by
  unfold classOutput at h
  simp only [Outcome.bind_eq_ok] at h
  obtain ⟨experience, -, attack, -, hitDie, -, proficiency, -, saves, hsaves, features, -,
    grants, hgrants, texts, -, require, hrequire, names, -, languages, hlanguages, tables, -,
    slots, hslots, h⟩ := h
  cases h
  have hexperience : ∀ r ∈ experienceRules record.name (member "levels" record.name) experience,
      Elsewhere r := elsewhere_experienceRules
  have hhitDie : ∀ r ∈ hitDieRules (member "levels" record.name) hitDie, Elsewhere r :=
    elsewhere_hitDieRules
  have hproficiency : ∀ r ∈ proficiencyRules (member "levels" record.name) proficiency,
      Elsewhere r := elsewhere_proficiencyRules
  have hattack : Elsewhere (.computed "baseAttack" (member "levels" record.name)
      AttackProgression.policy.op attack.formula) := elsewhere_computed (by decide)
  have hgrants : ∀ r ∈ grants, Elsewhere r :=
    Outcome.forall_of_mapM hgrants (fun feature _ r hr => by
      obtain ⟨-, -, hr⟩ := Outcome.bind_eq_ok.1 hr
      cases hr
      exact elsewhere_computed (by simp [member]))
  have hslots : ∀ r ∈ slots, Elsewhere r :=
    Outcome.forall_of_mapM hslots (fun table _ r hr => elsewhere_spellSlotRule hr)
  have hcasting : ∀ r ∈ (casterGroups tables).map fun group =>
      Rule.passthrough (member "casterLevels" group) (member "levels" record.name) .max,
      Elsewhere r :=
    List.forall_mem_map.2 (fun group _ => elsewhere_passthrough (by simp [member]))
  have hsave : saveCategories.flatMap (fun other =>
      if other = category then totalRules category else []) = totalRules category := by
    simp only [saveCategories, List.mem_cons, List.not_mem_nil, or_false] at hcategory
    obtain rfl | rfl | rfl | rfl | rfl := hcategory <;> rfl
  simp only [Output.rules_append, Output.ofRules, Output.ofChoice, List.filter_append,
    Elsewhere.filter_eq_nil hexperience,
    Elsewhere.filter_eq_nil (List.forall_mem_singleton.2 hattack),
    Elsewhere.filter_eq_nil hhitDie, Elsewhere.filter_eq_nil hproficiency, filter_saves hsaves,
    hsave,
    Elsewhere.filter_eq_nil hgrants, Elsewhere.filter_eq_nil (elsewhere_requirements hrequire),
    Elsewhere.filter_eq_nil (elsewhere_grantLanguages hlanguages),
    Elsewhere.filter_eq_nil hslots, Elsewhere.filter_eq_nil hcasting,
    List.nil_append, List.append_nil]

end Compile

/-- **What is certain of the output of a record** for the total of a category:
a class brings the two rules for it and no others, and what is not a class does
not bring the first of them. -/
structure Output.Keeps (category : String) (key : Key) (o : Output) : Prop where
  total : key.kind = .charClass →
    o.rules.filter (·.target == member "save" category) = totalRules category
  spares : key.kind ≠ .charClass → o.Spares category

theorem Record.keeps_compile {ctx : Context} {record : Record} {o : Output} {category : String}
    (hcategory : category ∈ saveCategories) (h : record.compile ctx = .ok o) :
    o.Keeps category record.key := by
  constructor
  · intro hclass
    have hkind : record.kind = .charClass := hclass
    obtain ⟨fields, -, h⟩ := Outcome.bind_eq_ok.1 h
    unfold fieldsOutput at h
    rw [hkind] at h
    exact filter_classOutput hcategory h
  · intro hclass
    by_cases hfree : record.kind.hasFreeTargets = false
    · exact (Record.belongs_compile hfree h).spares hclass
    obtain ⟨fields, -, h⟩ := Outcome.bind_eq_ok.1 h
    unfold fieldsOutput at h
    cases hkind : record.kind with
    | feature =>
      rw [hkind] at h
      exact spares_featureOutput h
    | goody =>
      rw [hkind] at h
      exact spares_goodyOutput h
    | _ => exact absurd (congrArg Kind.hasFreeTargets hkind) hfree

end Rulebook
