import Rulebook.Proofs.BatchOrder
import Rulebook.Proofs.TotalRules

/-!
# Records that get along

Two different records that do not choose their targets can be registered
together, in either order. Where the order of contributions matters, they have
attributes of their own, or bring the same rule.

There are two exceptions, and both come from names that are not told apart. The
requirements of a class or a race are reported in an attribute whose name is made
of the words of the record's name, so a class and a race of the same name do not
both get it if both require something, nor do `Half-Elf` and `Half Elf`. And a
variant of a spell is named by its spell and its listing, with a parenthesis
between them: if that can be read in two ways, two spells may have variants of the
same name, whose notes need not agree.
-/

namespace Rulebook

open Compile

namespace Rule

variable {target : String} {rules : List Rule}

/-- Commutative rules are not fixed. -/
theorem fixed?_of_commutative (h : ∀ r ∈ rules, r.target = target → r.op.isCommutative = true) :
    fixed? target rules = none := by
  refine Option.eq_none_iff_forall_ne_some.2 (fun r hr => ?_)
  obtain ⟨hmem, htarget, hop⟩ := mem_of_fixed? hr
  cases (h r hmem htarget).symm.trans hop

/-- A rule that is set is fixed, or another one is before it. -/
theorem exists_fixed? (h : ∃ r ∈ rules, r.target = target ∧ r.op = .set) :
    ∃ r ∈ rules, fixed? target rules = some r := by
  obtain ⟨r, hmem, htarget, hop⟩ := h
  cases hfixed : fixed? target rules with
  | none =>
    have hnot := List.find?_eq_none.1 hfixed r (List.mem_filter.2 ⟨hmem, beq_iff_eq.2 htarget⟩)
    rw [hop] at hnot
    exact absurd rfl hnot
  | some s =>
    exact ⟨s, (mem_of_fixed? hfixed).1, rfl⟩

theorem touches_of_fixed? {r : Rule} (h : fixed? target rules = some r) : Touches target rules :=
  ⟨r, (mem_of_fixed? h).1, (mem_of_fixed? h).2.1⟩

end Rule

/-! ## Variants of spells -/

/-- Texts are cut at the last point in one way. -/
theorem eq_of_append_point {xs ys ds es : List Char} (hds : '.' ∉ ds) (hes : '.' ∉ es)
    (h : xs ++ '.' :: ds = ys ++ '.' :: es) : xs = ys := by
  induction xs generalizing ys with
  | nil =>
    cases ys with
    | nil => rfl
    | cons y ys =>
      obtain ⟨-, rfl⟩ := List.cons.inj h
      exact absurd (List.mem_append_right _ (List.mem_cons_self ..)) hds
  | cons x xs ih =>
    cases ys with
    | nil =>
      obtain ⟨-, rfl⟩ := List.cons.inj h
      exact absurd (List.mem_append_right _ (List.mem_cons_self ..)) hes
    | cons y ys =>
      obtain ⟨rfl, htail⟩ := List.cons.inj h
      rw [ih htail]

/-- **The numbered attribute of a variant of a spell.** -/
def variantAttr (variant : String) (n : Nat) : String :=
  member "spells" variant ++ "." ++ Numeral.textOfNat n

/-- Numbered attributes of variants of different names are different. -/
theorem variant_eq_of_variantAttr {variant other : String} {m n : Nat}
    (h : variantAttr variant m = variantAttr other n) : variant = other := by
  have hpoint : ∀ n, '.' ∉ Numeral.digitsOfNat n :=
    fun n hmem => nomatch Numeral.isDigit_of_mem_digitsOfNat n '.' hmem
  have hattr : ∀ variant n, (variantAttr variant n).toList =
      ("spells.".toList ++ variant.toList) ++ '.' :: Numeral.digitsOfNat n := by
    intro variant n
    simp [variantAttr, member, Numeral.textOfNat]
  have hlist := congrArg String.toList h
  rw [hattr, hattr] at hlist
  exact String.toList_inj.1
    (List.append_cancel_left (eq_of_append_point (hpoint m) (hpoint n) hlist))

namespace Compile

variable {o : Output} {r : Rule}

/-- A variant sets numbered attributes, and can be chosen by its name. -/
theorem exists_choice_of_variantOutput {name school abbreviation : String}
    {description : List Char} {d : Details} {label : CasterLabel}
    (h : variantOutput name school abbreviation description d label = .ok o)
    (hr : r ∈ o.rules) (hop : r.op = .set) :
    ∃ c ∈ o.choices, ∃ n, r.target = variantAttr c.name n := by
  unfold variantOutput at h
  simp only [Outcome.bind_eq_ok] at h
  obtain ⟨text, -, template, -, h⟩ := h
  cases h
  refine ⟨_, List.mem_append_right _ (List.mem_singleton_self _), ?_⟩
  have hrules : r ∈ bindingRules (member "spells" s!"{name}({label.render} {abbreviation})")
      (member "casterLevels" label.group) template.bindings ++
      [.passthrough (member "spellsKnown" label.render)
        (member "spells" s!"{name}({label.render} {abbreviation})") .add] := by
    simpa [Output.ofRules, Output.ofNote, Output.ofChoice] using hr
  obtain hr | hr := List.mem_append.1 hrules
  · obtain ⟨b, -, rfl⟩ := List.mem_map.1 hr
    exact ⟨b.placeholder, rfl⟩
  · cases List.mem_singleton.1 hr
    cases hop

/-- **What a spell sets** are numbered attributes of its variants. -/
theorem exists_choice_of_spellOutput {ctx : Context} {record : Record} {fields : FieldTable}
    (h : spellOutput ctx record fields = .ok o) (hr : r ∈ o.rules) (hop : r.op = .set) :
    ∃ c ∈ o.choices, ∃ n, r.target = variantAttr c.name n := by
  obtain ⟨_, _, _, _, _, _, _, _, outputs, -, -, -, -, -, -, -, -, houtputs, rfl⟩ :=
    exists_of_spellOutput h
  rw [Output.rules_concat] at hr
  obtain ⟨o, ho, hr⟩ := List.mem_flatMap.1 hr
  have hchoice : ∀ o ∈ outputs, r ∈ o.rules →
      ∃ c ∈ o.choices, ∃ n, r.target = variantAttr c.name n :=
    Outcome.forall_of_mapM houtputs
      (fun label _ o ho hr => exists_choice_of_variantOutput ho hr hop)
  obtain ⟨c, hc, htarget⟩ := hchoice o ho hr
  rw [Output.choices_concat]
  exact ⟨c, List.mem_flatMap_of_mem ho hc, htarget⟩

end Compile

namespace Context

variable {ctx : Context} {r s : Record}

/-- **Whether two records get in each other's way.** -/
inductive Clash (ctx : Context) (r s : Record) : Prop where
  /-- Both have requirements, which are reported in the same attribute. -/
  | requirement (hname : attributePrefix r.name = attributePrefix s.name)
      (hr : Rule.Touches (requirementAttr r.name) (ctx.output r).rules)
      (hs : Rule.Touches (requirementAttr s.name) (ctx.output s).rules)
  /-- Both are spells with a variant of the same name, and set a numbered
  attribute of it differently. -/
  | variant {c d : Record} {n : Nat} {p q : Rule} (hr : r.kind = .spell) (hs : s.kind = .spell)
      (hc : c ∈ (ctx.output r).choices) (hd : d ∈ (ctx.output s).choices) (hname : c.name = d.name)
      (hp : Rule.fixed? (variantAttr c.name n) (ctx.output r).rules = some p)
      (hq : Rule.fixed? (variantAttr c.name n) (ctx.output s).rules = some q)
      (hne : (p == q) = false)

/-- **The rules of a record that compiles** belong to it if it does not choose
their targets. -/
theorem belongs_output (hr : r.kind.hasFreeTargets = false) (hcr : ctx.Compiles r) :
    ∀ p ∈ (ctx.output r).rules, p.Belongs r.key := by
  obtain ⟨o, ho⟩ := hcr
  rw [output_of_compile ho]
  exact Record.belongs_compile hr ho

/-- A class brings the two rules for each total. -/
theorem fixed?_output_total {category : String} (hr : r.kind = .charClass) (hcr : ctx.Compiles r)
    (hcategory : category ∈ saveCategories) :
    Rule.fixed? (member "save" category) (ctx.output r).rules = some (baseRule category) := by
  obtain ⟨o, ho⟩ := hcr
  rw [output_of_compile ho, Rule.fixed?, (Record.keeps_compile hcategory ho).total hr]
  rfl

/-- **What is set by a spell** is a numbered attribute of one of its variants. -/
theorem exists_choice (hr : r.kind = .spell) (hcr : ctx.Compiles r) {p : Rule}
    (hp : p ∈ (ctx.output r).rules) (hop : p.op = .set) :
    ∃ c ∈ (ctx.output r).choices, ∃ n, p.target = variantAttr c.name n := by
  obtain ⟨o, ho⟩ := hcr
  rw [output_of_compile ho] at hp ⊢
  obtain ⟨fields, -, ho⟩ := Outcome.bind_eq_ok.1 ho
  unfold fieldsOutput at ho
  rw [hr] at ho
  exact exists_choice_of_spellOutput ho hp hop

theorem baseRule_beq_self {category : String} :
    (some (baseRule category) == some (baseRule category)) = true := by
  show Rule.same _ _ = true
  simp [Rule.same, baseRule, Rule.passthrough]

/-- Weapons of different names have different parts. -/
theorem eq_of_append_part {attr attr' part part' : String} (hpart : part ∈ [".1", ".2", ".3"])
    (hpart' : part' ∈ [".1", ".2", ".3"]) (h : attr ++ part = attr' ++ part') : attr = attr' := by
  have hlength : ∀ part ∈ [".1", ".2", ".3"], part.toList.length = 2 := by decide
  have hlist := congrArg String.toList h
  rw [String.toList_append, String.toList_append] at hlist
  exact String.toList_inj.1
    (List.append_inj' hlist ((hlength part hpart).trans (hlength part' hpart').symm)).1

/-- **Records that do not clash** may be registered together. -/
theorem fits_of_not_clash (hkey : r.key ≠ s.key) (hr : r.kind.hasFreeTargets = false)
    (hs : s.kind.hasFreeTargets = false) (hcr : ctx.Compiles r) (hcs : ctx.Compiles s)
    (h : ¬ ctx.Clash r s) : ctx.Fits r s := by
  have hbelongs := belongs_output hr hcr
  have hbelongs' := belongs_output hs hcs
  have hsame : r.kind = s.kind → r.name ≠ s.name :=
    fun hkind hname => hkey (congrArg₂ Key.mk hkind hname)
  rintro target ⟨p, hp, rfl⟩ ⟨q, hq, htarget⟩
  have hpr := hbelongs p hp
  have hqs := hbelongs' q hq
  unfold Rule.Belongs at hpr hqs
  rw [htarget] at hqs
  cases hd : domain? (groupOf p.target) with
  | none =>
    have hnone : ∀ {key : Key} {rules : List Rule}, (∀ r ∈ rules, r.Belongs key) →
        Rule.fixed? p.target rules = none := by
      intro key rules hrules
      refine Rule.fixed?_of_commutative (fun t ht htt => ?_)
      have htk := hrules t ht
      unfold Rule.Belongs at htk
      rwa [htt, hd] at htk
    rw [hnone hbelongs, hnone hbelongs']
    rfl
  | some d =>
    rw [hd] at hpr hqs
    cases d with
    | total =>
      obtain ⟨hclass, category, hcategory, hsave⟩ := hpr
      rw [hsave, fixed?_output_total hclass hcr hcategory,
        fixed?_output_total hqs.1 hcs hcategory]
      exact baseRule_beq_self
    | own kind =>
      obtain ⟨hkind, hattr⟩ := hpr
      obtain ⟨hkind', hattr'⟩ := hqs
      exact absurd (member_inj.1 (hattr.symm.trans hattr')) (hsame (hkind.trans hkind'.symm))
    | part =>
      obtain ⟨hkind, part, hpart, hattr⟩ := hpr
      obtain ⟨hkind', part', hpart', hattr'⟩ := hqs
      have hname := eq_of_append_part hpart hpart' (hattr.symm.trans hattr')
      exact absurd (member_inj.1 hname) (hsame (hkind.trans hkind'.symm))
    | requirement =>
      obtain ⟨hattr, -⟩ := hpr
      obtain ⟨hattr', -⟩ := hqs
      have hname := requirementAttr_inj.1 (hattr.symm.trans hattr')
      exact absurd (.requirement hname ⟨p, hp, hattr⟩ ⟨q, hq, htarget.trans hattr'⟩) h
    | variant =>
      obtain ⟨hspell, hset⟩ := hpr
      obtain ⟨hspell', hset'⟩ := hqs
      obtain ⟨p', -, hfixed⟩ := Rule.exists_fixed? ⟨p, hp, rfl, hset⟩
      obtain ⟨q', -, hfixed'⟩ := Rule.exists_fixed? ⟨q, hq, htarget, hset'⟩
      obtain ⟨c, hc, n, hattr⟩ := exists_choice hspell hcr hp hset
      obtain ⟨d, hd, m, hattr'⟩ := exists_choice hspell' hcs hq hset'
      rw [hfixed, hfixed']
      by_contra hne
      have hname := variant_eq_of_variantAttr (hattr.symm.trans (htarget.symm.trans hattr'))
      exact h (.variant hspell hspell' hc hd hname (hattr ▸ hfixed) (hattr ▸ hfixed')
        (Bool.eq_false_iff.2 hne))

/-- A record with requirements sets the attribute for them, from an attribute of
its own. -/
theorem exists_requirement (hr : r.kind.hasFreeTargets = false) (hcr : ctx.Compiles r)
    (h : Rule.Touches (requirementAttr r.name) (ctx.output r).rules) :
    ∃ p, Rule.fixed? (requirementAttr r.name) (ctx.output r).rules = some p ∧
      (r.kind = .charClass ∧ p.source = member "levels" r.name ∨
        r.kind = .race ∧ p.source = member "races" r.name) := by
  have hall : ∀ p ∈ (ctx.output r).rules, p.target = requirementAttr r.name → p.op = .set ∧
      (r.kind = .charClass ∧ p.source = member "levels" r.name ∨
        r.kind = .race ∧ p.source = member "races" r.name) := by
    intro p hp htarget
    have hbelongs := belongs_output hr hcr p hp
    unfold Rule.Belongs at hbelongs
    rw [htarget, domain?_requirementAttr] at hbelongs
    exact hbelongs.2
  obtain ⟨q, hq, htarget⟩ := h
  obtain ⟨p, hp, hfixed⟩ := Rule.exists_fixed? ⟨q, hq, htarget, (hall q hq htarget).1⟩
  exact ⟨p, hfixed, (hall p hp (Rule.mem_of_fixed? hfixed).2.1).2⟩

/-- **Records that clash** may not be registered together. -/
theorem not_fits_of_clash (hkey : r.key ≠ s.key) (hr : r.kind.hasFreeTargets = false)
    (hs : s.kind.hasFreeTargets = false) (hcr : ctx.Compiles r) (hcs : ctx.Compiles s)
    (h : ctx.Clash r s) : ¬ ctx.Fits r s := by
  intro hfits
  cases h with
  | requirement hname htr hts =>
    obtain ⟨p, hp, hsource⟩ := exists_requirement hr hcr htr
    obtain ⟨q, hq, hsource'⟩ := exists_requirement hs hcs hts
    rw [← requirementAttr_inj.2 hname] at hq hts
    have heq := hfits _ htr hts
    rw [hp, hq] at heq
    have hsame : p.source = q.source := Rule.source_eq_of_beq heq
    -- the sources tell the records apart
    obtain ⟨hkind, hp⟩ | ⟨hkind, hp⟩ := hsource
    · obtain ⟨hkind', hq⟩ | ⟨-, hq⟩ := hsource'
      · rw [hp, hq, member_inj] at hsame
        exact hkey (congrArg₂ Key.mk (hkind.trans hkind'.symm) hsame)
      · rw [hp, hq] at hsame
        exact member_ne_member (by decide) hsame
    · obtain ⟨-, hq⟩ | ⟨hkind', hq⟩ := hsource'
      · rw [hp, hq] at hsame
        exact member_ne_member (by decide) hsame
      · rw [hp, hq, member_inj] at hsame
        exact hkey (congrArg₂ Key.mk (hkind.trans hkind'.symm) hsame)
  | variant _ _ _ _ _ hp hq hne =>
    have heq := hfits _ (Rule.touches_of_fixed? hp) (Rule.touches_of_fixed? hq)
    rw [hp, hq] at heq
    cases heq.symm.trans hne

/-- **Two records may be registered together** exactly if they do not clash. -/
theorem fits_iff (hkey : r.key ≠ s.key) (hr : r.kind.hasFreeTargets = false)
    (hs : s.kind.hasFreeTargets = false) (hcr : ctx.Compiles r) (hcs : ctx.Compiles s) :
    ctx.Fits r s ↔ ¬ ctx.Clash r s :=
  ⟨fun hfits h => not_fits_of_clash hkey hr hs hcr hcs h hfits,
    fits_of_not_clash hkey hr hs hcr hcs⟩

end Context

namespace Compiler

variable {settings : Settings} {stream : List Record} {r s : Record}

/-- Two known records that compile are accepted if they fit. -/
theorem acceptsAll_pair (hs : settings.validate = .ok ()) (hr : r ∈ stream) (hs' : s ∈ stream)
    (hkey : r.key ≠ s.key) (hcr : (new settings stream).context.Compiles r)
    (hcs : (new settings stream).context.Compiles s) :
    (new settings stream).AcceptsAll [r, s] ↔ (new settings stream).context.Fits r s := by
  have h : InStep (new settings stream) .empty (Session.start settings stream).current :=
    Session.inStep_start hs stream
  have hknown : ∀ t ∈ [r, s], (new settings stream).catalog.contains t.key = true :=
    List.forall_mem_cons.2 ⟨contains_new hr, List.forall_mem_singleton.2 (contains_new hs')⟩
  have hnodup : ([r, s].map Record.key).Nodup :=
    List.nodup_cons.2 ⟨fun hmem => hkey (List.mem_singleton.1 hmem), List.nodup_singleton _⟩
  have hempty : ∀ t ∈ [r, s], Rule.Merges ((new settings stream).context.output t).rules
      (new settings stream).ledger.rules := by
    rintro t - target - ⟨q, hq, -⟩
    cases hq
  rw [h.acceptsAll_iff hknown (fun _ _ => nofun) hnodup, and_iff_left hempty,
    Context.consistent_cons, Context.consistent_cons, List.forall_mem_singleton]
  exact ⟨fun hall => hall.2.1, fun hfits => ⟨hcr, hfits, hcs, nofun, nofun, .nil⟩⟩

/-- **Records that do not choose their own targets** do not block each other, but
for names that are not told apart. Under settings that make sense, let two records
of different keys be in the stream, neither of them a feature or a goody, and let
both compile. Then both can be registered in either order, unless both have
requirements and their names have the same words, or both are spells with a variant
of the same name that they set differently; in these cases neither order works. -/
theorem acceptsAll_pair_iff (hs : settings.validate = .ok ()) (hr : r ∈ stream) (hs' : s ∈ stream)
    (hkey : r.key ≠ s.key) (hkr : r.kind.hasFreeTargets = false)
    (hks : s.kind.hasFreeTargets = false) (hcr : (new settings stream).context.Compiles r)
    (hcs : (new settings stream).context.Compiles s) :
    ((new settings stream).AcceptsAll [r, s] ↔ ¬ (new settings stream).context.Clash r s) ∧
      ((new settings stream).AcceptsAll [s, r] ↔ ¬ (new settings stream).context.Clash r s) := by
  have hfits := Context.fits_iff hkey hkr hks hcr hcs
  rw [acceptsAll_pair hs hr hs' hkey hcr hcs, acceptsAll_pair hs hs' hr hkey.symm hcs hcr]
  exact ⟨hfits, ⟨fun h => hfits.1 h.symm, fun h => (hfits.2 h).symm⟩⟩

/-- Two races that both require something. -/
def elvenRaces : List Record :=
  [⟨.race, "Elf", "Require=\"dexterity >= 9\""⟩, ⟨.race, "Half-Elf", "Require=\"charisma >= 9\""⟩]

/-- The requirements of the two races are reported in different attributes. -/
theorem acceptsAll_elvenRaces : (new .default elvenRaces).AcceptsAll elvenRaces ∧
    (new .default elvenRaces).AcceptsAll elvenRaces.reverse := by
  have hcompiles : ∀ r ∈ elvenRaces, (new .default elvenRaces).context.Compiles r := by
    have hok : ∀ r ∈ elvenRaces,
        (r.compile (new .default elvenRaces).context).isOk = true := by decide +kernel
    exact fun r hr => Outcome.exists_of_isOk (hok r hr)
  have hfirst : elvenRaces.head (by decide) ∈ elvenRaces := List.head_mem _
  have hlast : elvenRaces.getLast (by decide) ∈ elvenRaces := List.getLast_mem _
  obtain ⟨haccepts, haccepts'⟩ := acceptsAll_pair_iff rfl hfirst hlast (by decide) rfl rfl
    (hcompiles _ hfirst) (hcompiles _ hlast)
  have hclash : ¬ (new .default elvenRaces).context.Clash (elvenRaces.head (by decide))
      (elvenRaces.getLast (by decide)) := by
    rintro (⟨hname, -, -⟩ | ⟨hkind, -, -, -, -, -, -, -⟩)
    · exact absurd hname (by decide +kernel)
    · cases hkind
  exact ⟨haccepts.2 hclash, haccepts'.2 hclash⟩

/-- A race and a class of the same name that both require something. -/
def elfAndElf : List Record :=
  [⟨.race, "Elf", "Require=\"dexterity >= 9\""⟩,
    ⟨.charClass, "Elf", "Require=\"strength >= 9\" Experience=0,2 HitDie=d10,9,3 Attack=0,1,1,- " ++
      "Breath=17,1.5,2 Death=14,1.5,2 Petrification=15,1.5,2 Spell=17,1.5,2 Wand=16,1.5,2"⟩]

/-- Settings with a caster group that has a parenthesis in its name. -/
def nestedGroups : Settings :=
  { Settings.default with casterGroups := [("C", "Cleric"), ("x(C", "Cleric")] }

/-- Two spells that both come in a variant `S(x(C1 Alte)`. -/
def nestedSpells : List Record :=
  [⟨.spell, "S(x", "School=Alteration Level=C1 Description=\"%\x7bsource\x7d\""⟩,
    ⟨.spell, "S", "School=Alteration Level=x(C1 Description=\"%\x7bsource\x7d\""⟩]

/-- **Valid records that block each other**: a race and a class of the same name,
and two spells with a variant of the same name. All of them compile. -/
theorem not_acceptsAll_elfAndElf :
    ((∀ r ∈ elfAndElf, (new .default elfAndElf).context.Compiles r) ∧
      ¬ (new .default elfAndElf).AcceptsAll elfAndElf) ∧
    (nestedGroups.validate = .ok () ∧
      (∀ r ∈ nestedSpells, (new nestedGroups nestedSpells).context.Compiles r) ∧
      ¬ (new nestedGroups nestedSpells).AcceptsAll nestedSpells) := by
  have hblocked : ∀ {settings : Settings} {records : List Record},
      ((new settings records).compileAll records).result.isClean = false →
      ¬ (new settings records).AcceptsAll records := by
    intro settings records h haccepts
    cases h.symm.trans (isClean_compileAll.2 haccepts)
  have helves : ∀ r ∈ elfAndElf,
      (r.compile (new .default elfAndElf).context).isOk = true := by decide +kernel
  have hspells : ∀ r ∈ nestedSpells,
      (r.compile (new nestedGroups nestedSpells).context).isOk = true := by decide +kernel
  exact ⟨⟨fun r hr => Outcome.exists_of_isOk (helves r hr), hblocked (by decide +kernel)⟩, rfl,
    fun r hr => Outcome.exists_of_isOk (hspells r hr), hblocked (by decide +kernel)⟩

end Compiler

end Rulebook
