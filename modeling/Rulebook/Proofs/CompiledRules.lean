import Rulebook.Compile.Record
import Rulebook.Proofs.ProperFields

/-!
# Compiled rules equal themselves

With settings that make sense, every rule that a record compiles to has a
proper formula or none, and therefore equals itself. The ledger and the book
both look rules up by `==`, and this is what lets them find a rule again.

There is one lemma for each kind of content. It takes the output apart along
the definition and hands every formula to the lemma on how it was built.
-/

namespace Rulebook

/-- **All rules of an output are proper.** -/
def Output.Proper (o : Output) : Prop := ∀ r ∈ o.rules, r.Proper

/-- What several outputs have of one part is put one behind the other. -/
theorem Output.part_concat {α : Type} (part : Output → List α) (hempty : part empty = [])
    (happend : ∀ a b, part (a ++ b) = part a ++ part b) (outputs : List Output) :
    part (concat outputs) = outputs.flatMap part := by
  have go : ∀ {outputs : List Output} {first : Output},
      part (outputs.foldl (· ++ ·) first) = part first ++ outputs.flatMap part := by
    intro outputs
    induction outputs with
    | nil => exact (List.append_nil _).symm
    | cons o outputs ih =>
      intro first
      rw [List.foldl_cons, ih, happend, List.append_assoc, List.flatMap_cons]
  rw [concat, go, hempty, List.nil_append]

theorem Output.rules_concat {outputs : List Output} :
    (concat outputs).rules = outputs.flatMap Output.rules :=
  part_concat rules rfl rules_append outputs

theorem Output.notes_concat {outputs : List Output} :
    (concat outputs).notes = outputs.flatMap Output.notes :=
  part_concat notes rfl notes_append outputs

theorem Output.choices_concat {outputs : List Output} :
    (concat outputs).choices = outputs.flatMap Output.choices :=
  part_concat choices rfl choices_append outputs

namespace Rule.Proper

variable {target source : String} {op : MergeOp} {f : Formula Float}

theorem computed (hf : f.Proper) : (Rule.computed target source op f).Proper := by
  intro g hg
  cases hg
  exact hf

theorem passthrough : (Rule.passthrough target source op).Proper := nofun

end Rule.Proper

namespace Output.Proper

variable {a b : Output}

theorem append (ha : a.Proper) (hb : b.Proper) : (a ++ b).Proper :=
  List.forall_mem_append.2 ⟨ha, hb⟩

theorem empty : Output.empty.Proper := fun _ h => nomatch h

theorem ofRules {rules : List Rule} (h : ∀ r ∈ rules, r.Proper) : (Output.ofRules rules).Proper :=
  h

theorem ofNote {attr sheetSection format : String} :
    (Output.ofNote attr sheetSection format).Proper := fun _ h => nomatch h

theorem ofChoice {kind : Kind} {name spec : String} : (Output.ofChoice kind name spec).Proper :=
  fun _ h => nomatch h

theorem concat {outputs : List Output} (h : ∀ o ∈ outputs, o.Proper) :
    (Output.concat outputs).Proper := by
  unfold Proper
  rw [rules_concat]
  exact List.forall_mem_flatMap.2 h

end Output.Proper

namespace Compile

open Formula.Proper (one)

variable {ctx : Context} {record : Record} {fields : FieldTable} {o : Output}

/-! ## What several kinds share -/

theorem proper_allOf {conditions : List (Formula Float)} (h : ∀ f ∈ conditions, f.Proper) :
    (allOf conditions).Proper := by
  have go : ∀ {fs : List (Formula Float)} {f : Formula Float}, f.Proper →
      (∀ g ∈ fs, g.Proper) → (fs.foldl (.binary .and) f).Proper := by
    intro fs
    induction fs with
    | nil => exact fun hf _ => hf
    | cons g fs ih =>
      intro f hf h
      obtain ⟨hg, h⟩ := List.forall_mem_cons.1 h
      exact ih (.binary .and hf hg) h
  cases conditions with
  | nil => exact one
  | cons f fs =>
    obtain ⟨hf, hfs⟩ := List.forall_mem_cons.1 h
    exact go hf hfs

theorem proper_requirements {texts : List String} {attrPrefix source : String}
    (h : requirements texts attrPrefix source = .ok o) : o.Proper := by
  unfold requirements at h
  split at h
  · cases h
    exact .empty
  · obtain ⟨conditions, hconditions, h⟩ := Outcome.bind_eq_ok.1 h
    cases h
    have hproper : ∀ f ∈ conditions, f.Proper := Outcome.forall_of_mapM hconditions
      (fun text _ f hf => Formula.proper_read (Outcome.inField_eq_ok.1 hf))
    exact .append (.ofRules (List.forall_mem_singleton.2
      (.computed (.whenever (.not (proper_allOf hproper)) one)))) .ofNote

theorem proper_grantLanguages {languages : List String} {source : String}
    (h : grantLanguages ctx languages source = .ok o) : o.Proper := by
  obtain ⟨rules, hrules, h⟩ := Outcome.bind_eq_ok.1 h
  cases h
  refine .ofRules (Outcome.forall_of_mapM hrules (fun language _ r hr => ?_))
  obtain ⟨-, -, hr⟩ := Outcome.bind_eq_ok.1 hr
  cases hr
  exact .computed one

theorem proper_alsoRequire {condition : Option (Formula Float)} {more : Formula Float}
    (hc : ∀ f ∈ condition, f.Proper) (hm : more.Proper) : (alsoRequire condition more).Proper := by
  cases condition with
  | none => exact hm
  | some f => exact .binary .and (hc f rfl) hm

theorem proper_bindingRules {attr source : String} {bindings : List Binding}
    (h : ∀ b ∈ bindings, b.formula.Proper) : ∀ r ∈ bindingRules attr source bindings, r.Proper := by
  intro r hr
  obtain ⟨b, hb, rfl⟩ := List.mem_map.1 hr
  exact .computed (h b hb)

theorem proper_sectionNote {settings : Settings} {key source : String} {before : List String}
    {name note : String} (h : sectionNote settings key source before name note = .ok o) :
    o.Proper := by
  unfold sectionNote at h
  split at h
  · cases h
  · split at h
    · cases h
    · obtain ⟨template, htemplate, h⟩ := Outcome.bind_eq_ok.1 h
      cases h
      have hbindings := Template.proper_compileChars (Outcome.inField_eq_ok.1 htemplate)
      exact .append (.ofRules (List.forall_mem_cons.2
        ⟨.passthrough, proper_bindingRules hbindings⟩)) .ofNote

theorem proper_sectionNotesAfter {settings : Settings} {key source : String}
    {before : List String} {notes : List (String × String)}
    (h : sectionNotesAfter settings key source before notes = .ok o) : o.Proper := by
  induction notes generalizing before o with
  | nil =>
    cases h
    exact .empty
  | cons note notes ih =>
    obtain ⟨first, hfirst, h⟩ := Outcome.bind_eq_ok.1 h
    obtain ⟨others, hothers, h⟩ := Outcome.bind_eq_ok.1 h
    cases h
    exact .append (proper_sectionNote hfirst) (ih hothers)

theorem proper_sectionNotes {settings : Settings} {sections notes : List String}
    {key source : String} (h : sectionNotes settings sections notes key source = .ok o) :
    o.Proper := by
  unfold sectionNotes at h
  split at h
  · cases h
  · exact proper_sectionNotesAfter h

/-! ## Classes and races -/

theorem proper_saveRules {levels category : String} {save : SaveProgression Float}
    (h : save.Finite) : ∀ r ∈ saveRules levels category save, r.Proper :=
  List.forall_mem_cons.2 ⟨.computed (SaveProgression.proper_formula h),
    List.forall_mem_cons.2 ⟨.passthrough, List.forall_mem_singleton.2 .passthrough⟩⟩

theorem proper_experienceRules {name levels : String} {table : ExperienceTable Float}
    (h : table.Ascending) : ∀ r ∈ experienceRules name levels table, r.Proper :=
  List.forall_mem_cons.2 ⟨.computed (ExperienceTable.proper_formula h),
    List.forall_mem_cons.2 ⟨.computed (ExperienceTable.proper_nextFormula h),
      List.forall_mem_singleton.2 .passthrough⟩⟩

theorem proper_hitDieRules {levels : String} {die : HitDieProgression Float}
    (h : die.perLevel.isFinite = true) : ∀ r ∈ hitDieRules levels die, r.Proper := by
  refine List.forall_mem_cons.2 ⟨.computed (HitDieProgression.proper_formula die), ?_⟩
  split
  · exact List.forall_mem_singleton.2 (.computed (HitDieProgression.proper_bonusFormula h))
  · exact fun _ h => nomatch h

theorem proper_proficiencyRules {levels : String} {p : Option (ProficiencyProgression Float)}
    (h : ∀ q ∈ p, ProficiencyProgression.Finite q) :
    ∀ r ∈ proficiencyRules levels p, r.Proper := by
  cases p with
  | none => exact fun _ h => nomatch h
  | some q =>
    have hq := h q rfl
    exact List.forall_mem_cons.2 ⟨.computed (ProficiencyProgression.proper_formula hq),
      List.forall_mem_singleton.2 (.computed (.finite hq.penalty))⟩

theorem proper_spellSlotRule {settings : Settings} {name levels : String} {table : SpellSlotTable}
    {r : Rule} (h : spellSlotRule settings name levels table = .ok r) : r.Proper := by
  unfold spellSlotRule at h
  dsimp only at h
  split at h
  · cases h
  · split at h
    · cases h
    · cases h
      exact .computed (SpellSlotTable.proper_formula table)

theorem proper_classOutput (hf : fields.Sound) (h : classOutput ctx record fields = .ok o) :
    o.Proper := by
  unfold classOutput at h
  simp only [Outcome.bind_eq_ok] at h
  obtain ⟨experience, hexperience, attack, hattack, hitDie, hhitDie, proficiency, hproficiency,
    saves, hsaves, features, hfeatures, grants, hgrants, texts, -, require, hrequire, names, -,
    languages, hlanguages, tables, -, slots, hslots, h⟩ := h
  cases h
  have hsaves : ∀ rules ∈ saves, ∀ r ∈ rules, r.Proper :=
    Outcome.forall_of_mapM hsaves (fun category _ rules hrules => by
      obtain ⟨save, hsave, hrules⟩ := Outcome.bind_eq_ok.1 hrules
      cases hrules
      exact proper_saveRules (FieldTable.sound_require hf hsave))
  have hgrants : ∀ r ∈ grants, r.Proper :=
    Outcome.forall_of_mapM hgrants (fun feature hmem r hr => by
      obtain ⟨-, -, hr⟩ := Outcome.bind_eq_ok.1 hr
      cases hr
      exact .computed (.whenever (proper_alsoRequire (FieldTable.sound_leveled hf hfeatures _ hmem)
        (.binary .ge .source (.whole _))) one))
  have hslots : ∀ r ∈ slots, r.Proper :=
    Outcome.forall_of_mapM hslots (fun table _ r hr => proper_spellSlotRule hr)
  refine .append (.append (.append (.append (.ofRules ?_) (proper_requirements hrequire))
    (proper_grantLanguages hlanguages)) (.ofRules ?_)) .ofChoice
  · simp only [List.forall_mem_append]
    exact ⟨⟨⟨⟨⟨proper_experienceRules (FieldTable.sound_require hf hexperience),
        List.forall_mem_singleton.2
          (.computed (AttackProgression.proper_formula (FieldTable.sound_require hf hattack)))⟩,
      proper_hitDieRules (FieldTable.sound_require hf hhitDie)⟩,
      proper_proficiencyRules (FieldTable.sound_optional hf hproficiency)⟩,
      fun r hr => by
        obtain ⟨rules, hrules, hr⟩ := List.mem_flatten.1 hr
        exact hsaves rules hrules r hr⟩,
      hgrants⟩
  · refine List.forall_mem_append.2 ⟨hslots, fun r hr => ?_⟩
    obtain ⟨group, -, rfl⟩ := List.mem_map.1 hr
    exact .passthrough

theorem proper_raceGrant {selected : String} {feature : LeveledFeature}
    (h : ∀ f ∈ feature.condition, f.Proper) : (raceGrant selected feature).Proper := by
  have hcondition : ∀ f ∈ raceCondition feature, f.Proper := by
    unfold raceCondition
    split
    · intro f hf
      cases hf
      exact proper_alsoRequire h (.binary .ge (.attr (by decide)) (.whole _))
    · exact h
  unfold raceGrant
  split
  · next condition hc => exact .computed (.whenever (hcondition _ hc) one)
  · exact .passthrough

theorem proper_raceOutput (hf : fields.Sound) (h : raceOutput ctx record fields = .ok o) :
    o.Proper := by
  unfold raceOutput at h
  simp only [Outcome.bind_eq_ok] at h
  obtain ⟨features, hfeatures, grants, hgrants, texts, -, require, hrequire, names, -,
    languages, hlanguages, h⟩ := h
  cases h
  have hgrants : ∀ r ∈ grants, r.Proper :=
    Outcome.forall_of_mapM hgrants (fun feature hmem r hr => by
      obtain ⟨-, -, hr⟩ := Outcome.bind_eq_ok.1 hr
      cases hr
      exact proper_raceGrant (FieldTable.sound_leveled hf hfeatures _ hmem))
  exact .append (.append (.append (.ofRules (List.forall_mem_cons.2
      ⟨.computed (.whenever (.binary .eq .source (.text _)) one), hgrants⟩))
    (proper_requirements hrequire)) (proper_grantLanguages hlanguages)) .ofChoice

/-! ## Equipment -/

theorem proper_whileSelected {name : String} {value : Formula Float} (h : value.Proper) :
    (whileSelected name value).Proper :=
  .whenever (.binary .eq .source (.text name)) h

theorem proper_selectedRule {kind : Kind} {name target : String} {op : MergeOp}
    {value : Formula Float} (h : value.Proper) :
    (selectedRule kind name target op value).Proper :=
  .computed (proper_whileSelected h)

theorem isFinite_protection (hf : fields.Sound) {ac : Float} (h : protection fields = .ok ac) :
    ac.isFinite = true := by
  obtain ⟨x, hx, h⟩ := Outcome.bind_eq_ok.1 h
  split at h
  · cases h
  · cases h
    exact FieldTable.sound_require hf hx

/-- The rules of an optional number that counts while an item is chosen. -/
theorem proper_optionalRule {kind : Kind} {name target : String} {op : MergeOp}
    {x : Option Float} (h : ∀ y ∈ x, Float.isFinite y = true) :
    ∀ r ∈ x.toList.map fun y => selectedRule kind name target op (.number y), r.Proper := by
  intro r hr
  obtain ⟨y, hy, rfl⟩ := List.mem_map.1 hr
  exact proper_selectedRule (.finite (h y (Option.mem_toList.1 hy)))

theorem proper_armorOutput (hf : fields.Sound) (h : armorOutput record fields = .ok o) :
    o.Proper := by
  unfold armorOutput at h
  simp only [Outcome.bind_eq_ok] at h
  obtain ⟨ac, hac, speed, hspeed, weight, hweight, h⟩ := h
  cases h
  refine .append (.ofRules ?_) .ofChoice
  simp only [List.forall_mem_append]
  exact ⟨⟨List.forall_mem_singleton.2
      (proper_selectedRule (Formula.Proper.finite (isFinite_protection hf hac)).neg),
    proper_optionalRule (FieldTable.sound_optional hf hspeed)⟩,
    proper_optionalRule (FieldTable.sound_optional hf hweight)⟩

theorem proper_shieldOutput (hf : fields.Sound) (h : shieldOutput record fields = .ok o) :
    o.Proper := by
  unfold shieldOutput at h
  simp only [Outcome.bind_eq_ok] at h
  obtain ⟨ac, hac, weight, hweight, h⟩ := h
  cases h
  refine .append (.ofRules (List.forall_mem_append.2
    ⟨?_, proper_optionalRule (FieldTable.sound_optional hf hweight)⟩)) .ofChoice
  split
  · exact List.forall_mem_singleton.2
      (proper_selectedRule (Formula.Proper.finite (isFinite_protection hf hac)).neg)
  · exact List.forall_mem_nil _

theorem proper_whileHeld {value : Formula Float} (h : value.Proper) : (whileHeld value).Proper :=
  .whenever .source h

theorem append_ne_empty {s t : String} (h : t ≠ "") : s ++ t ≠ "" := by
  intro hst
  have := congrArg String.toList hst
  rw [String.toList_append] at this
  exact h (String.toList_inj.1 (List.append_eq_nil_iff.1 this).2)

theorem member_ne_empty {group name : String} : member group name ≠ "" := by
  intro h
  have := congrArg String.toList h
  simp [member] at this

theorem proper_weaponOutput (hf : fields.Sound) (h : weaponOutput ctx record fields = .ok o) :
    o.Proper := by
  unfold weaponOutput at h
  obtain ⟨category, -, h⟩ := Outcome.bind_eq_ok.1 h
  split at h
  · cases h
  obtain ⟨damage, -, h⟩ := Outcome.bind_eq_ok.1 h
  split at h
  · cases h
  obtain ⟨range, hrange, h⟩ := Outcome.bind_eq_ok.1 h
  obtain ⟨pattern, -, h⟩ := Outcome.bind_eq_ok.1 h
  cases h
  refine .append (.append (.ofRules ?_) .ofNote) .ofChoice
  -- only the attribute names of the sum could be at fault, and none is empty
  have hattack : (Formula.sum [.attr "baseAttack",
      .attr (ctx.settings.attackAbility category ++ "Modifier"),
      .attr (member "weaponBonus" record.name)]).Proper := by
    refine .sum (List.forall_mem_cons.2 ⟨.attr (by decide), List.forall_mem_cons.2
      ⟨.attr (append_ne_empty (by decide)), List.forall_mem_singleton.2 (.attr member_ne_empty)⟩⟩)
  have hbonus : (pattern.formula (.binary .or (.capture 1) (.capture 2))).Proper :=
    .matching .source (.binary .or (.capture (by decide)) (.capture (by decide)))
  simp only [List.forall_mem_append, List.forall_mem_cons, List.forall_mem_map, List.not_mem_nil,
    false_implies, implies_true, and_true]
  refine ⟨⟨⟨⟨.computed (proper_whileHeld hattack), .computed (proper_whileHeld (.text _))⟩, ?_⟩,
    .computed hbonus, .passthrough, .passthrough⟩, fun _ _ => .passthrough⟩
  intro x hx
  exact .computed (proper_whileHeld
    (.finite (FieldTable.sound_optional hf hrange x (Option.mem_toList.1 hx))))

/-! ## The other kinds -/

theorem proper_skillOutput (h : skillOutput ctx record fields = .ok o) : o.Proper := by
  unfold skillOutput at h
  simp only [Outcome.bind_eq_ok] at h
  obtain ⟨text, -, ability, -, classes, -, classRules, hclassRules, h⟩ := h
  cases h
  have hclassRules : ∀ r ∈ classRules, r.Proper :=
    Outcome.forall_of_mapM hclassRules (fun cls _ r hr => by
      obtain ⟨-, -, hr⟩ := Outcome.bind_eq_ok.1 hr
      cases hr
      exact .computed one)
  refine .append (.append (.ofRules ?_) .ofNote) .ofChoice
  simp only [List.forall_mem_append, List.forall_mem_singleton, List.forall_mem_map]
  exact ⟨⟨.passthrough, fun _ _ => .passthrough⟩, hclassRules⟩

theorem proper_effect {entry : String} {e : Effect} (h : Effect.read entry = .ok e) :
    e.formula.Proper := by
  unfold Effect.read at h
  split at h
  · cases h
  · dsimp only at h
    split at h
    · cases h
    · obtain ⟨formula, hformula, h⟩ := Outcome.bind_eq_ok.1 h
      cases h
      exact Formula.proper_readChars hformula

theorem proper_featureOutput (h : featureOutput ctx record fields = .ok o) : o.Proper := by
  unfold featureOutput at h
  simp only [Outcome.bind_eq_ok] at h
  obtain ⟨sections, -, notes, -, shown, hshown, entries, -, effects, heffects, h⟩ := h
  cases h
  have heffects : ∀ e ∈ effects, e.formula.Proper :=
    Outcome.forall_of_mapM heffects (fun entry _ e he => proper_effect (Outcome.inField_eq_ok.1 he))
  refine .append (.append (proper_sectionNotes hshown) (.ofRules ?_)) .ofChoice
  exact List.forall_mem_map.2 (fun e he => .computed (heffects e he))

theorem proper_goodyRule {total attr : String} {op : MergeOp} {r : Rule}
    (h : goodyRule total op attr = .ok r) : r.Proper := by
  unfold goodyRule at h
  dsimp only at h
  split at h
  · cases h
  · cases h
    exact .passthrough

theorem proper_goodyOutput (h : goodyOutput ctx record fields = .ok o) : o.Proper := by
  unfold goodyOutput at h
  simp only [Outcome.bind_eq_ok] at h
  obtain ⟨patternText, -, pattern, -, -, -, valueText, -, value, hvalue, opText, -, op, -,
    attrs, -, h⟩ := h
  split at h
  · cases h
  simp only [Outcome.bind_eq_ok] at h
  obtain ⟨rules, hrules, sections, -, notes, -, shown, hshown, h⟩ := h
  cases h
  have hvalue := Formula.proper_read (Outcome.inField_eq_ok.1 hvalue)
  exact .append (.append (.ofRules (List.forall_mem_cons.2 ⟨.computed (.matching .source hvalue),
      Outcome.forall_of_mapM hrules (fun attr _ r hr => proper_goodyRule hr)⟩))
    (proper_sectionNotes hshown)) .ofChoice

theorem proper_variantOutput {name school abbreviation : String} {description : List Char}
    {d : Details} {label : CasterLabel}
    (h : variantOutput name school abbreviation description d label = .ok o) : o.Proper := by
  unfold variantOutput at h
  simp only [Outcome.bind_eq_ok] at h
  obtain ⟨text, -, template, htemplate, h⟩ := h
  cases h
  have hbindings := Template.proper_compileChars (Outcome.inField_eq_ok.1 htemplate)
  exact .append (.append (.ofRules (List.forall_mem_append.2
    ⟨proper_bindingRules hbindings, List.forall_mem_singleton.2 .passthrough⟩)) .ofNote) .ofChoice

/-- **What a spell puts out** is the output of its variants, for what was read of it. -/
theorem exists_of_spellOutput (h : spellOutput ctx record fields = .ok o) :
    ∃ school abbreviation description levels labels duration effect range outputs,
      fields.text "School" = .ok school ∧
      ctx.settings.schoolAbbreviation? school = some abbreviation ∧
      fields.text "Description" = .ok description ∧
      fields.list "Level" = .ok levels ∧
      readVariants ctx.settings [] levels = .ok labels ∧
      readDetail fields labels "Duration" = .ok duration ∧
      readDetail fields labels "Effect" = .ok effect ∧
      readDetail fields labels "Range" = .ok range ∧
      labels.mapM (variantOutput record.name school abbreviation description.toList
        ⟨duration, effect, range⟩) = .ok outputs ∧
      o = .concat outputs := by
  unfold spellOutput at h
  obtain ⟨school, hschool, h⟩ := Outcome.bind_eq_ok.1 h
  split at h
  · cases h
  next abbreviation habbreviation =>
  simp only [Outcome.bind_eq_ok] at h
  obtain ⟨description, hdescription, levels, hlevels, labels, hlabels, h⟩ := h
  split at h
  · cases h
  simp only [Outcome.bind_eq_ok] at h
  obtain ⟨duration, hduration, effect, heffect, range, hrange, outputs, houtputs, h⟩ := h
  cases h
  exact ⟨school, abbreviation, description, levels, labels, duration, effect, range, outputs,
    hschool, habbreviation, hdescription, hlevels, hlabels, hduration, heffect, hrange, houtputs,
    rfl⟩

theorem proper_spellOutput (h : spellOutput ctx record fields = .ok o) : o.Proper := by
  obtain ⟨_, _, _, _, _, _, _, _, outputs, -, -, -, -, -, -, -, -, houtputs, rfl⟩ :=
    exists_of_spellOutput h
  exact .concat (Outcome.forall_of_mapM houtputs (fun label _ o ho => proper_variantOutput ho))

theorem proper_languageOutput : (languageOutput record).Proper :=
  .append (.ofRules (List.forall_mem_singleton.2 .passthrough)) .ofChoice

theorem proper_fieldsOutput (hf : fields.Sound) (h : fieldsOutput ctx record fields = .ok o) :
    o.Proper := by
  unfold fieldsOutput at h
  split at h
  · exact proper_classOutput hf h
  · exact proper_raceOutput hf h
  · exact proper_spellOutput h
  · exact proper_weaponOutput hf h
  · exact proper_armorOutput hf h
  · exact proper_shieldOutput hf h
  · exact proper_skillOutput h
  · exact proper_featureOutput h
  · cases h
    exact proper_languageOutput
  · exact proper_goodyOutput h

end Compile

theorem Settings.isFinite_of_validate {settings : Settings} (h : settings.validate = .ok ()) :
    settings.experienceMultiplier.isFinite = true := by
  unfold validate at h
  dsimp only at h
  split at h
  · cases h
  · next hm =>
    rw [Bool.not_eq_true', Bool.not_eq_false, Bool.and_eq_true] at hm
    exact hm.1

/-- **What a record compiles to is proper**, under settings that make sense. -/
theorem Record.proper_compile {ctx : Context} (hs : ctx.settings.validate = .ok ())
    {record : Record} {o : Output} (h : record.compile ctx = .ok o) : o.Proper := by
  obtain ⟨fields, hfields, h⟩ := Outcome.bind_eq_ok.1 h
  exact Compile.proper_fieldsOutput
    (FieldTable.sound_read (Settings.isFinite_of_validate hs) hfields) h

/-- **Every compiled rule equals itself.** -/
theorem Record.beq_self_of_compile {ctx : Context} (hs : ctx.settings.validate = .ok ())
    {record : Record} {o : Output} (h : record.compile ctx = .ok o) :
    ∀ r ∈ o.rules, (r == r) = true :=
  fun r hr => (proper_compile hs h r hr).beq_self

end Rulebook
