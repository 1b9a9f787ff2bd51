import Rulebook.Proofs.CompiledRules

/-!
# Attributes by their groups

The names of most attributes have two parts: before the first point the *group*,
a word of this library, and behind it the name of a record. Where the order of
contributions matters, the group says by whom an attribute may be set.

* The totals of saving throws are set by all classes alike.
* Some groups have one attribute for each record of a kind, which it sets itself.
* The parts of a weapon are numbered attributes behind its own.
* Requirements have an attribute whose name is made from the record's, by running
  its words together, and different names may come to the same.
* A variant of a spell has numbered attributes behind a name that is put together
  from the spell's and the listing's.

All other attributes only have contributions that may come in any order. This
holds of all records but features and goodies, whose targets are free.
-/

namespace Rulebook

/-! ## Groups -/

/-- **The group of an attribute**: its name up to the first point. -/
def groupOf (attr : String) : String := String.ofList (attr.toList.takeWhile (· ≠ '.'))

/-- **Attributes at which the order of contributions matters**, by who may set
them. -/
inductive Domain where
  /-- The totals of saving throws. -/
  | total
  /-- One attribute for each record of a kind. -/
  | own (kind : Kind)
  /-- The parts of weapons. -/
  | part
  | requirement
  /-- Numbered attributes of variants of spells. -/
  | variant
  deriving DecidableEq

/-- The domain of a group, if the order of contributions matters there. -/
def domain? : String → Option Domain
  | "save" => some .total
  | "levels" | "experienceNeeded" => some (.own .charClass)
  | "races" => some (.own .race)
  | "weaponAttack" | "weaponDamage" | "weaponRange" => some (.own .weapon)
  | "weapons" => some .part
  | "validationNotes" => some .requirement
  | "spells" => some .variant
  | _ => none

/-- The attribute that says how much of a record's requirements is not met. -/
def requirementAttr (name : String) : String :=
  s!"validationNotes.{attributePrefix name}Requirements"

variable {group name other : String}

theorem groupOf_member (h : '.' ∉ group.toList) : groupOf (member group name) = group := by
  have hgroup : ∀ c ∈ group.toList, decide (c ≠ '.') = true :=
    fun c hc => decide_eq_true (fun heq => h (heq ▸ hc))
  unfold groupOf member
  rw [String.toList_append, String.toList_append, List.append_assoc,
    List.takeWhile_append_of_pos hgroup]
  exact (congrArg String.ofList (List.append_nil _)).trans String.ofList_toList

/-- What is put behind a member of a group does not change the group. -/
theorem groupOf_member_append {more : String} (h : '.' ∉ group.toList) :
    groupOf (member group name ++ more) = group := by
  have hmember : member group name ++ more = member group (name ++ more) := String.append_assoc
  rw [hmember, groupOf_member h]

theorem member_inj : member group name = member group other ↔ name = other :=
  ⟨fun h => by simpa [member] using h, fun h => h ▸ rfl⟩

theorem requirementAttr_inj : requirementAttr name = requirementAttr other ↔
    attributePrefix name = attributePrefix other := by
  unfold requirementAttr
  rw [String.append_left_inj, String.append_right_inj]
  exact Iff.rfl

theorem domain?_requirementAttr : domain? (groupOf (requirementAttr name)) = some .requirement := by
  have hmember : requirementAttr name =
      member "validationNotes" (attributePrefix name ++ "Requirements") := String.append_assoc
  rw [hmember, groupOf_member (by decide)]
  rfl

/-! ## Whose rules are whose -/

open Compile

/-- **Whether a record may have a rule**, given the domain of the rule's target.
Where the order does not matter, every record may. -/
@[irreducible] def Rule.Belongs (key : Key) (r : Rule) : Prop :=
  match domain? (groupOf r.target) with
  | none => r.op.isCommutative = true
  | some .total =>
    key.kind = .charClass ∧ ∃ category ∈ saveCategories, r.target = member "save" category
  | some (.own kind) => key.kind = kind ∧ r.target = member (groupOf r.target) key.name
  | some .part =>
    key.kind = .weapon ∧ ∃ part ∈ [".1", ".2", ".3"], r.target = member "weapons" key.name ++ part
  | some .requirement =>
    r.target = requirementAttr key.name ∧ r.op = .set ∧
      (key.kind = .charClass ∧ r.source = member "levels" key.name ∨
        key.kind = .race ∧ r.source = member "races" key.name)
  | some .variant => key.kind = .spell ∧ r.op = .set

/-- Whether all rules of an output belong to a record. -/
def Output.Belongs (key : Key) (o : Output) : Prop := ∀ r ∈ o.rules, r.Belongs key

theorem Output.Belongs.append {key : Key} {a b : Output} (ha : a.Belongs key)
    (hb : b.Belongs key) : (a ++ b).Belongs key :=
  List.forall_mem_append.2 ⟨ha, hb⟩

namespace Compile

variable {key : Key} {target source : String} {op : MergeOp} {f : Option (Formula Float)}

theorem belongs_plain (hdomain : domain? (groupOf target) = none)
    (hop : op.isCommutative = true) : Rule.Belongs key ⟨target, source, op, f⟩ := by
  unfold Rule.Belongs
  rwa [hdomain]

theorem belongs_member (hdot : '.' ∉ group.toList) (hdomain : domain? group = none)
    (hop : op.isCommutative = true) : Rule.Belongs key ⟨member group name, source, op, f⟩ := by
  refine belongs_plain ?_ hop
  rwa [groupOf_member hdot]

theorem belongs_total {category : String} (hkind : key.kind = .charClass)
    (hcategory : category ∈ saveCategories) :
    Rule.Belongs key ⟨member "save" category, source, op, f⟩ := by
  unfold Rule.Belongs
  rw [groupOf_member (by decide)]
  exact ⟨hkind, category, hcategory, rfl⟩

theorem belongs_own (hdot : '.' ∉ group.toList) (hdomain : domain? group = some (.own key.kind)) :
    Rule.Belongs key ⟨member group key.name, source, op, f⟩ := by
  unfold Rule.Belongs
  rw [groupOf_member hdot, hdomain]
  exact ⟨rfl, rfl⟩

theorem belongs_part {part : String} (hkind : key.kind = .weapon)
    (hpart : part ∈ [".1", ".2", ".3"]) :
    Rule.Belongs key ⟨member "weapons" key.name ++ part, source, op, f⟩ := by
  unfold Rule.Belongs
  rw [groupOf_member_append (by decide)]
  exact ⟨hkind, part, hpart, rfl⟩

theorem belongs_requirement
    (hsource : key.kind = .charClass ∧ source = member "levels" key.name ∨
      key.kind = .race ∧ source = member "races" key.name) :
    Rule.Belongs key ⟨requirementAttr key.name, source, .set, f⟩ := by
  unfold Rule.Belongs
  rw [domain?_requirementAttr]
  exact ⟨rfl, rfl, hsource⟩

theorem belongs_variant {variant number : String} (hkind : key.kind = .spell) :
    Rule.Belongs key ⟨member "spells" variant ++ "." ++ number, source, .set, f⟩ := by
  unfold Rule.Belongs
  rw [String.append_assoc, groupOf_member_append (by decide)]
  exact ⟨hkind, rfl⟩

/-! ## Compilers -/

variable {ctx : Context} {record : Record} {fields : FieldTable} {o : Output}

theorem belongs_requirements {texts : List String}
    (hsource : key.kind = .charClass ∧ source = member "levels" key.name ∨
      key.kind = .race ∧ source = member "races" key.name)
    (h : requirements texts (attributePrefix key.name) source = .ok o) : o.Belongs key := by
  unfold requirements at h
  split at h
  · cases h
    nofun
  · obtain ⟨conditions, -, h⟩ := Outcome.bind_eq_ok.1 h
    cases h
    have hrule : Rule.Belongs key (.computed (requirementAttr key.name) source .set
        (violation conditions)) := belongs_requirement hsource
    exact .append (List.forall_mem_singleton.2 hrule) nofun

theorem belongs_grantLanguages {languages : List String}
    (h : grantLanguages ctx languages source = .ok o) : o.Belongs key := by
  obtain ⟨rules, hrules, h⟩ := Outcome.bind_eq_ok.1 h
  cases h
  refine Outcome.forall_of_mapM hrules (fun language _ r hr => ?_)
  obtain ⟨-, -, hr⟩ := Outcome.bind_eq_ok.1 hr
  cases hr
  exact belongs_member (by decide) rfl rfl

theorem belongs_classOutput (hkind : record.kind = .charClass)
    (h : classOutput ctx record fields = .ok o) : o.Belongs record.key := by
  unfold classOutput at h
  simp only [Outcome.bind_eq_ok] at h
  obtain ⟨experience, -, attack, -, hitDie, -, proficiency, -, saves, hsaves, features, -,
    grants, hgrants, texts, -, require, hrequire, names, -, languages, hlanguages, tables, -,
    slots, hslots, h⟩ := h
  cases h
  have hown : some (Domain.own .charClass) = some (.own record.key.kind) :=
    congrArg (fun kind => some (Domain.own kind)) hkind.symm
  have hexperience : ∀ r ∈ experienceRules record.name (member "levels" record.name) experience,
      r.Belongs record.key :=
    List.forall_mem_cons.2 ⟨belongs_own (by decide) hown,
      List.forall_mem_cons.2 ⟨belongs_own (by decide) hown,
        List.forall_mem_singleton.2 (belongs_plain rfl rfl)⟩⟩
  have hattack : Rule.Belongs record.key (.computed "baseAttack" (member "levels" record.name)
      AttackProgression.policy.op attack.formula) := belongs_plain rfl rfl
  have hhitDie : ∀ r ∈ hitDieRules (member "levels" record.name) hitDie,
      r.Belongs record.key := by
    refine List.forall_mem_cons.2 ⟨belongs_plain rfl rfl, ?_⟩
    split
    · exact List.forall_mem_singleton.2 (belongs_plain rfl rfl)
    · exact List.forall_mem_nil _
  have hproficiency : ∀ r ∈ proficiencyRules (member "levels" record.name) proficiency,
      r.Belongs record.key := by
    cases proficiency with
    | none => exact List.forall_mem_nil _
    | some p =>
      exact List.forall_mem_cons.2 ⟨belongs_plain rfl rfl,
        List.forall_mem_singleton.2 (belongs_plain rfl rfl)⟩
  have hsaves : ∀ r ∈ saves.flatten, r.Belongs record.key := by
    refine List.forall_mem_flatten.2
      (Outcome.forall_of_mapM hsaves (fun category hcategory rules hr => ?_))
    obtain ⟨save, -, hr⟩ := Outcome.bind_eq_ok.1 hr
    cases hr
    exact List.forall_mem_cons.2 ⟨belongs_member (by decide) rfl rfl,
      List.forall_mem_cons.2 ⟨belongs_total hkind hcategory,
        List.forall_mem_singleton.2 (belongs_total hkind hcategory)⟩⟩
  have hgrants : ∀ r ∈ grants, r.Belongs record.key :=
    Outcome.forall_of_mapM hgrants (fun feature _ r hr => by
      obtain ⟨-, -, hr⟩ := Outcome.bind_eq_ok.1 hr
      cases hr
      exact belongs_member (by decide) rfl rfl)
  have hslots : ∀ r ∈ slots, r.Belongs record.key :=
    Outcome.forall_of_mapM hslots (fun table _ r hr => by
      unfold spellSlotRule at hr
      dsimp only at hr
      split at hr
      · cases hr
      · split at hr
        · cases hr
        · cases hr
          exact belongs_member (by decide) rfl rfl)
  have hcasting : ∀ r ∈ (casterGroups tables).map fun group =>
      Rule.passthrough (member "casterLevels" group) (member "levels" record.name) .max,
      r.Belongs record.key :=
    List.forall_mem_map.2 (fun group _ => belongs_member (by decide) rfl rfl)
  refine .append (.append (.append (.append ?_ (belongs_requirements (.inl ⟨hkind, rfl⟩) hrequire))
    (belongs_grantLanguages hlanguages)) ?_) nofun
  · unfold Output.Belongs Output.ofRules
    simp only [List.forall_mem_append]
    exact ⟨⟨⟨⟨⟨hexperience, List.forall_mem_singleton.2 hattack⟩, hhitDie⟩, hproficiency⟩, hsaves⟩,
      hgrants⟩
  · exact List.forall_mem_append.2 ⟨hslots, hcasting⟩

theorem belongs_raceOutput (hkind : record.kind = .race)
    (h : raceOutput ctx record fields = .ok o) : o.Belongs record.key := by
  unfold raceOutput at h
  simp only [Outcome.bind_eq_ok] at h
  obtain ⟨features, -, grants, hgrants, texts, -, require, hrequire, names, -,
    languages, hlanguages, h⟩ := h
  cases h
  have hown : some (Domain.own .race) = some (.own record.key.kind) :=
    congrArg (fun kind => some (Domain.own kind)) hkind.symm
  have hgrants : ∀ r ∈ grants, r.Belongs record.key :=
    Outcome.forall_of_mapM hgrants (fun feature _ r hr => by
      obtain ⟨-, -, hr⟩ := Outcome.bind_eq_ok.1 hr
      cases hr
      unfold raceGrant
      dsimp only
      split
      · exact belongs_member (by decide) rfl rfl
      · exact belongs_member (by decide) rfl rfl)
  exact .append (.append (.append (List.forall_mem_cons.2 ⟨belongs_own (by decide) hown, hgrants⟩)
    (belongs_requirements (.inr ⟨hkind, rfl⟩) hrequire)) (belongs_grantLanguages hlanguages)) nofun

theorem belongs_variantOutput {name school abbreviation : String} {description : List Char}
    {d : Details} {label : CasterLabel} (hkind : key.kind = .spell)
    (h : variantOutput name school abbreviation description d label = .ok o) : o.Belongs key := by
  unfold variantOutput at h
  simp only [Outcome.bind_eq_ok] at h
  obtain ⟨text, -, template, -, h⟩ := h
  cases h
  have hbindings : ∀ r ∈ bindingRules (member "spells" s!"{name}({label.render} {abbreviation})")
      (member "casterLevels" label.group) template.bindings, r.Belongs key :=
    List.forall_mem_map.2 (fun _ _ => belongs_variant hkind)
  exact .append (.append (List.forall_mem_append.2 ⟨hbindings,
    List.forall_mem_singleton.2 (belongs_member (by decide) rfl rfl)⟩) nofun) nofun

theorem belongs_spellOutput (hkind : record.kind = .spell)
    (h : spellOutput ctx record fields = .ok o) : o.Belongs record.key := by
  obtain ⟨_, _, _, _, _, _, _, _, outputs, -, -, -, -, -, -, -, -, houtputs, rfl⟩ :=
    exists_of_spellOutput h
  unfold Output.Belongs
  rw [Output.rules_concat]
  exact List.forall_mem_flatMap.2
    (Outcome.forall_of_mapM houtputs (fun label _ o ho => belongs_variantOutput hkind ho))

theorem belongs_weaponOutput (hkind : record.kind = .weapon)
    (h : weaponOutput ctx record fields = .ok o) : o.Belongs record.key := by
  unfold weaponOutput at h
  obtain ⟨type, -, h⟩ := Outcome.bind_eq_ok.1 h
  split at h
  · cases h
  obtain ⟨damage, -, h⟩ := Outcome.bind_eq_ok.1 h
  split at h
  · cases h
  obtain ⟨range, hrange, h⟩ := Outcome.bind_eq_ok.1 h
  obtain ⟨pattern, -, h⟩ := Outcome.bind_eq_ok.1 h
  cases h
  have hown : some (Domain.own .weapon) = some (.own record.key.kind) :=
    congrArg (fun kind => some (Domain.own kind)) hkind.symm
  refine .append (.append ?_ nofun) nofun
  unfold Output.Belongs Output.ofRules
  simp only [List.forall_mem_append, List.forall_mem_cons, List.forall_mem_map, List.not_mem_nil,
    false_implies, implies_true, and_true]
  exact ⟨⟨⟨⟨belongs_own (by decide) hown, belongs_own (by decide) hown⟩,
    fun _ _ => belongs_own (by decide) hown⟩, belongs_member (by decide) rfl rfl,
    belongs_part hkind (by decide), belongs_part hkind (by decide)⟩,
    fun _ _ => belongs_part hkind (by decide)⟩

theorem belongs_armorOutput (h : armorOutput record fields = .ok o) : o.Belongs key := by
  unfold armorOutput at h
  simp only [Outcome.bind_eq_ok] at h
  obtain ⟨ac, -, speed, -, weight, -, h⟩ := h
  cases h
  exact .append (List.forall_mem_append.2 ⟨List.forall_mem_append.2
    ⟨List.forall_mem_singleton.2 (belongs_plain rfl rfl),
      List.forall_mem_map.2 (fun _ _ => belongs_plain rfl rfl)⟩,
    List.forall_mem_map.2 (fun _ _ => belongs_plain rfl rfl)⟩) nofun

theorem belongs_shieldOutput (h : shieldOutput record fields = .ok o) : o.Belongs key := by
  unfold shieldOutput at h
  simp only [Outcome.bind_eq_ok] at h
  obtain ⟨ac, -, weight, -, h⟩ := h
  cases h
  refine .append (List.forall_mem_append.2 ⟨?_, List.forall_mem_map.2 ?_⟩) nofun
  · split
    · exact List.forall_mem_singleton.2 (belongs_plain rfl rfl)
    · exact List.forall_mem_nil _
  · exact fun _ _ => belongs_plain rfl rfl

theorem belongs_skillOutput (h : skillOutput ctx record fields = .ok o) : o.Belongs key := by
  unfold skillOutput at h
  simp only [Outcome.bind_eq_ok] at h
  obtain ⟨text, -, ability, -, classes, -, classRules, hclassRules, h⟩ := h
  cases h
  have hclassRules : ∀ r ∈ classRules, r.Belongs key :=
    Outcome.forall_of_mapM hclassRules (fun cls _ r hr => by
      obtain ⟨-, -, hr⟩ := Outcome.bind_eq_ok.1 hr
      cases hr
      exact belongs_member (by decide) rfl rfl)
  refine .append (.append ?_ nofun) nofun
  unfold Output.Belongs Output.ofRules
  simp only [List.forall_mem_append, List.forall_mem_singleton, List.forall_mem_map]
  exact ⟨⟨belongs_member (by decide) rfl rfl, fun _ _ => belongs_member (by decide) rfl rfl⟩,
    hclassRules⟩

theorem belongs_languageOutput : (languageOutput record).Belongs key :=
  .append (List.forall_mem_singleton.2 (belongs_plain rfl rfl)) nofun

end Compile

/-- **Whether the targets of a kind of records are free texts.** -/
def Kind.hasFreeTargets : Kind → Bool
  | .feature | .goody => true
  | _ => false

/-- **The rules of a record belong to it** if it does not choose their targets. -/
theorem Record.belongs_compile {ctx : Context} {record : Record} {o : Output}
    (hkind : record.kind.hasFreeTargets = false) (h : record.compile ctx = .ok o) :
    o.Belongs record.key := by
  obtain ⟨fields, -, h⟩ := Outcome.bind_eq_ok.1 h
  unfold fieldsOutput at h
  split at h
  · next hclass => exact belongs_classOutput hclass h
  · next hrace => exact belongs_raceOutput hrace h
  · next hspell => exact belongs_spellOutput hspell h
  · next hweapon => exact belongs_weaponOutput hweapon h
  · exact belongs_armorOutput h
  · exact belongs_shieldOutput h
  · exact belongs_skillOutput h
  · next hfeature =>
    rw [hfeature] at hkind
    cases hkind
  · cases h
    exact belongs_languageOutput
  · next hgoody =>
    rw [hgoody] at hkind
    cases hkind

end Rulebook
