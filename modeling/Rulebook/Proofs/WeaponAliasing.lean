import Rulebook.Proofs.AttributeGroups
import Rulebook.Proofs.BonusLines
import Rulebook.Proofs.Sessions

/-!
# Weapons in a session

The pattern of a weapon is checked when the weapon is compiled, against the
weapons that are known at that moment. Records become known as they are handed in,
and weapons that are in the book already are not looked at again. So it matters
when a weapon is taken: from a registration or a recompilation on that came when
another weapon was known, the pattern matches no text with the other name, whatever
is called later, and however batches and failures come in between.

Two weapons escape this. Names that differ in nothing but case are one item to the
check, though the records are two. And a weapon may be registered before another
one is heard of, whose name goes on where its own ends, as `Sword +1` does.
-/

namespace Rulebook

open Compile

variable {own other : String}

/-- **The rule by which a weapon gets its bonus.** -/
def bonusRule (name : String) (p : BonusPattern) : Rule :=
  .computed (member "weaponBonus" name) "goodiesList" .add
    (p.formula (.binary .or (.capture 1) (.capture 2)))

/-- **An output of a weapon that keeps clear of another name**: its bonus comes from
one rule, by a pattern that matches the other name neither bare nor with a bonus. -/
def Output.KeepsClear (own other : String) (o : Output) : Prop :=
  ∃ p, BonusPattern.weapon own = .ok p ∧
    o.rules.filter (·.target == member "weaponBonus" own) = [bonusRule own p] ∧
    ∀ text ∈ [other, "+1 " ++ other, "(" ++ other ++ " +1)", other ++ " +1"],
      p.isMatch text = false

/-! ## Compiling a weapon -/

/-- The names of a kind are those of the keys. -/
theorem Catalog.mem_names {c : Catalog} {kind : Kind} {name : String}
    (h : c.contains ⟨kind, name⟩ = true) : name ∈ c.names kind := by
  unfold names
  rw [(Text.sortOn_perm id _).mem_iff]
  exact List.mem_map.2 ⟨⟨kind, name⟩,
    List.mem_filter.2 ⟨List.contains_iff_mem.1 h, beq_self_eq_true kind⟩, rfl⟩

namespace Compile

variable {ctx : Context} {record : Record} {fields : FieldTable} {o : Output} {name : String}
  {p : BonusPattern}

/-- A pattern is checked against all known weapons. -/
theorem ensureDistinct_of_bonusPattern (h : bonusPattern ctx name = .ok p) :
    BonusPattern.weapon name = .ok p ∧
      ∀ other ∈ ctx.catalog.names .weapon, p.ensureDistinct name other = .ok () := by
  unfold bonusPattern at h
  obtain ⟨pattern, hpattern, h⟩ := Outcome.bind_eq_ok.1 h
  obtain ⟨-, -, h⟩ := Outcome.bind_eq_ok.1 h
  obtain ⟨⟨⟩, hdistinct, h⟩ := Outcome.bind_eq_ok.1 h
  cases h
  exact ⟨hpattern, Outcome.forall_of_forM hdistinct⟩

/-- **A weapon has one rule for its bonus**, by its pattern. -/
theorem exists_bonusRule_of_weaponOutput (h : weaponOutput ctx record fields = .ok o) :
    ∃ p, bonusPattern ctx record.name = .ok p ∧
      o.rules.filter (·.target == member "weaponBonus" record.name) =
        [bonusRule record.name p] := by
  unfold weaponOutput at h
  obtain ⟨category, -, h⟩ := Outcome.bind_eq_ok.1 h
  split at h
  · cases h
  obtain ⟨damage, -, h⟩ := Outcome.bind_eq_ok.1 h
  split at h
  · cases h
  obtain ⟨range, -, h⟩ := Outcome.bind_eq_ok.1 h
  obtain ⟨pattern, hpattern, h⟩ := Outcome.bind_eq_ok.1 h
  cases h
  refine ⟨pattern, hpattern, ?_⟩
  -- the other rules are about other groups of attributes
  have hgroup : ∀ {target : String}, groupOf target ≠ "weaponBonus" →
      (target == member "weaponBonus" record.name) = false := fun hne =>
    beq_eq_false_iff_ne.2 fun heq => hne (heq ▸ groupOf_member (by decide))
  have hattr : ∀ {group : String}, '.' ∉ group.toList → group ≠ "weaponBonus" →
      (member group record.name == member "weaponBonus" record.name) = false := fun hdot hne =>
    hgroup ((groupOf_member hdot).trans_ne hne)
  have hpart : ∀ part : String, (member "weapons" record.name ++ part ==
      member "weaponBonus" record.name) = false := by
    intro part
    have hmember : member "weapons" record.name ++ part = member "weapons" (record.name ++ part) :=
      String.append_assoc
    refine hgroup ?_
    rw [hmember, groupOf_member (by decide)]
    decide
  cases range <;>
    simp [Output.ofRules, Output.ofNote, Output.ofChoice, Rule.computed, Rule.passthrough,
      bonusRule, hattr, hpart]

end Compile

/-- **A weapon keeps clear of every known name**, unless the names differ in nothing
but case. -/
theorem Record.keepsClear_compile {ctx : Context} {record : Record} {o : Output}
    (h : record.compile ctx = .ok o) (hkey : record.key = ⟨.weapon, own⟩)
    (hknown : ctx.catalog.contains ⟨.weapon, other⟩ = true)
    (hne : Text.sameIgnoringCase own other = false) : o.KeepsClear own other := by
  obtain ⟨hkind, rfl⟩ := Key.mk.inj hkey
  obtain ⟨fields, -, h⟩ := Outcome.bind_eq_ok.1 h
  unfold fieldsOutput at h
  rw [hkind] at h
  obtain ⟨p, hp, hrule⟩ := exists_bonusRule_of_weaponOutput h
  obtain ⟨hweapon, hdistinct⟩ := ensureDistinct_of_bonusPattern hp
  refine ⟨p, hweapon, hrule, fun text htext => ?_⟩
  exact Bool.eq_false_iff.2 (BonusPattern.isMatch_itemProbes
    (hdistinct other (Catalog.mem_names hknown)) hne text htext)

/-! ## What a step keeps -/

/-- **A weapon is told apart from another name** that is known: it is registered,
and its current output keeps clear of the name. -/
structure Stage.TellsApart (own other : String) (t : Stage) : Prop where
  known : t.compiler.catalog.contains ⟨.weapon, other⟩ = true
  registered : ⟨.weapon, own⟩ ∈ t.compiler.registered
  output : ∃ o, t.current ⟨.weapon, own⟩ = some o ∧ o.KeepsClear own other

namespace Stage

variable {t : Stage} {key : Key} {o : Output}

theorem contains_know (h : t.compiler.catalog.contains key = true) (handed : Key) :
    (t.know handed).compiler.catalog.contains key = true := by
  show (t.compiler.catalog.insert handed).contains key = true
  rw [Catalog.contains_insert, h, Bool.or_true]

namespace TellsApart

theorem know (h : t.TellsApart own other) (key : Key) : (t.know key).TellsApart own other where
  known := contains_know h.known key
  registered := h.registered
  output := h.output

/-- Withdrawing another record changes nothing. -/
theorem withdraw (h : t.TellsApart own other) (hkey : key ≠ ⟨.weapon, own⟩) :
    (t.withdraw key).TellsApart own other where
  known := h.known
  registered := (List.mem_erase_of_ne hkey.symm).2 h.registered
  output := by
    obtain ⟨o, ho, hclear⟩ := h.output
    exact ⟨o, (Function.update_of_ne hkey.symm ..).trans ho, hclear⟩

/-- **Taking a record** tells the weapon apart if it is this weapon, and its output
keeps clear of the name. Otherwise nothing changes. -/
theorem emit (hknown : t.compiler.catalog.contains ⟨.weapon, other⟩ = true)
    (hown : key = ⟨.weapon, own⟩ → o.KeepsClear own other)
    (h : key ≠ ⟨.weapon, own⟩ → t.TellsApart own other) :
    (t.emit key o).TellsApart own other := by
  obtain rfl | hkey := eq_or_ne key ⟨.weapon, own⟩
  · exact ⟨hknown, List.mem_append_right _ (List.mem_singleton_self _), o,
      Function.update_self .., hown rfl⟩
  · obtain ⟨o', ho', hclear⟩ := (h hkey).output
    exact ⟨hknown, List.mem_append_left _ (h hkey).registered, o',
      (Function.update_of_ne hkey.symm ..).trans ho', hclear⟩

end TellsApart

end Stage

namespace Session

variable {s : Session} {record : Record}

/-- What is accepted for the weapon keeps clear of a known name. -/
theorem keepsClear_of_prepare {o : Output}
    (hknown : s.compiler.catalog.contains ⟨.weapon, other⟩ = true)
    (hne : Text.sameIgnoringCase own other = false)
    (h : (s.compiler.know record.key).prepare record = .ok o)
    (hkey : record.key = ⟨.weapon, own⟩) : o.KeepsClear own other :=
  Record.keepsClear_compile (Outcome.mapError_eq_ok.1 (Compiler.prepare_eq_ok.1 h).1) hkey
    (Stage.contains_know (t := s.stage) hknown record.key) hne

/-- **Registering a record** keeps a weapon apart from a known name, and makes it so
if it is the weapon that is registered. -/
theorem tellsApart_register (hknown : s.compiler.catalog.contains ⟨.weapon, other⟩ = true)
    (hne : Text.sameIgnoringCase own other = false)
    (h : s.stage.TellsApart own other ∨
      record.key = ⟨.weapon, own⟩ ∧ (s.compiler.register record).result = .ok ()) :
    (s.perform (.register record)).stage.TellsApart own other := by
  obtain ⟨e, hfail, heq⟩ | ⟨e, hfail, heq⟩ | ⟨-, o, ho, heq⟩ := s.stage_register_cases record
  · rw [heq]
    exact h.resolve_right (fun hok => nomatch hfail.symm.trans hok.2)
  · rw [heq]
    exact (h.resolve_right (fun hok => nomatch hfail.symm.trans hok.2)).know _
  · rw [heq]
    exact .emit (Stage.contains_know hknown _) (keepsClear_of_prepare hknown hne ho)
      (fun hkey => (h.resolve_right (fun hok => hkey hok.1)).know _)

/-- So does **recompiling a record**. -/
theorem tellsApart_recompile (hknown : s.compiler.catalog.contains ⟨.weapon, other⟩ = true)
    (hne : Text.sameIgnoringCase own other = false)
    (h : s.stage.TellsApart own other ∨
      record.key = ⟨.weapon, own⟩ ∧ (s.compiler.recompile record).result = .ok ()) :
    (s.perform (.recompile record)).stage.TellsApart own other := by
  obtain ⟨e, hfail, heq⟩ | ⟨o, ho, heq⟩ := s.stage_recompile_cases record
  · rw [heq]
    exact (h.resolve_right (fun hok => nomatch hfail.symm.trans hok.2)).know _
  · rw [heq]
    exact .emit (Stage.contains_know hknown _) (keepsClear_of_prepare hknown hne ho)
      (fun hkey => ((h.resolve_right (fun hok => hkey hok.1)).know _).withdraw hkey)

/-! ## Sessions -/

/-- **A weapon is confused with another one**: both are registered, and the pattern
that the book has for the first one matches the name of the second, bare or with a
bonus. -/
structure Confuses (s : Session) (own other : String) : Prop where
  ne : own ≠ other
  registered : s.compiler.isRegistered ⟨.weapon, own⟩ = true
  registered' : s.compiler.isRegistered ⟨.weapon, other⟩ = true
  pattern : ∃ p, BonusPattern.weapon own = .ok p ∧
    s.book.rules.contains (bonusRule own p) = true ∧
      ∃ text ∈ [other, "+1 " ++ other, "(" ++ other ++ " +1)", other ++ " +1"],
        p.isMatch text = true

/-- A weapon that is told apart from another one is not confused with it. -/
theorem not_confuses_of_tellsApart (h : s.stage.TellsApart own other) : ¬ s.Confuses own other := by
  rintro ⟨-, -, -, p, hp, -, text, htext, hmatch⟩
  obtain ⟨o, -, q, hq, -, hclear⟩ := h.output
  obtain rfl : p = q := Except.ok.inj (hp.symm.trans hq)
  cases hmatch.symm.trans (hclear text htext)

/-- **Registered weapons are told apart** from those that were known when they were
taken. In any session on any stream, taken one record at a time, let a weapon be
registered or recompiled at a point where another weapon was known, from the stream
or because it was handed in before, and let the names differ in more than case. Then
from there on, whatever is called, the weapon is registered, and the pattern of its
bonus matches none of the texts with the other name. -/
theorem tellsApart_run {settings : Settings} {known : List Record}
    {calls before after : List Call} {step : Call}
    (hcalls : calls.flatMap Call.oneByOne = before ++ step :: after)
    (hstep : step = .register record ∨ step = .recompile record)
    (hkey : record.key = ⟨.weapon, own⟩)
    (hok : (((start settings known).run before).compiler.call step).result = .outcome (.ok ()))
    (hknown : ((start settings known).run before).compiler.catalog.contains ⟨.weapon, other⟩ = true)
    (hne : Text.sameIgnoringCase own other = false) :
    ((start settings known).run calls).stage.TellsApart own other := by
  rw [← run_oneByOne, hcalls, run_append]
  refine run_induction (P := fun s => s.stage.TellsApart own other)
    (fun _ _ h => tellsApart_register h.known hne (.inl h))
    (fun _ _ h => tellsApart_recompile h.known hne (.inl h)) ?_ after
  obtain rfl | rfl := hstep
  · exact tellsApart_register hknown hne (.inr ⟨hkey, Answer.outcome.inj hok⟩)
  · exact tellsApart_recompile hknown hne (.inr ⟨hkey, Answer.outcome.inj hok⟩)

/-- Two swords, of which one is heard of first. -/
def swords : List Record :=
  [⟨.weapon, "Long Sword", "Category=1h Damage=d8"⟩, ⟨.weapon, "Sword", "Category=1h Damage=d6"⟩]

/-- In a batch the second sword is told apart from the first. -/
theorem tellsApart_swords :
    ((start .default []).run [.compileAll swords]).stage.TellsApart "Sword" "Long Sword" := by
  have hcalls : [Call.compileAll swords].flatMap Call.oneByOne =
      [.register (swords.head (by decide))] ++ .register (swords.getLast (by decide)) :: [] := rfl
  have hisOk : (((start .default []).run [.register (swords.head (by decide))]).compiler.register
      (swords.getLast (by decide))).result.isOk = true := by decide +kernel
  obtain ⟨⟨⟩, hok⟩ := Outcome.exists_of_isOk hisOk
  exact tellsApart_run hcalls (.inl rfl) rfl (congrArg Answer.outcome hok) (by decide +kernel)
    (by decide +kernel)

/-- Two daggers whose names differ in nothing but case. -/
def daggers : List Record :=
  [⟨.weapon, "Dagger", "Category=Li Damage=d4"⟩, ⟨.weapon, "DAGGER", "Category=Li Damage=d4"⟩]

/-- A sword, and another one with a bonus in its name. -/
def magicSwords : List Record :=
  [⟨.weapon, "Sword", "Category=1h Damage=d8"⟩, ⟨.weapon, "Sword +1", "Category=1h Damage=d8"⟩]

/-- **Registered weapons that are not told apart.** Daggers whose names differ in
case, though both are in the stream; and a sword that was registered before one
with a bonus in its name was heard of. -/
theorem confuses_daggers :
    ((start .default daggers).run [.compileAll daggers]).Confuses "Dagger" "DAGGER" ∧
      ((start .default []).run [.compileAll magicSwords]).Confuses "Sword" "Sword +1" := by
  constructor
  · let p : BonusPattern :=
      ⟨BonusPattern.weaponText "dagger".toList, BonusPattern.weaponRegex "dagger".toList⟩
    obtain ⟨hown, hother, hbook⟩ :
        ((start .default daggers).run [.compileAll daggers]).compiler.isRegistered
          ⟨.weapon, "Dagger"⟩ = true ∧
        ((start .default daggers).run [.compileAll daggers]).compiler.isRegistered
          ⟨.weapon, "DAGGER"⟩ = true ∧
        ((start .default daggers).run [.compileAll daggers]).book.rules.contains
          (bonusRule "Dagger" p) = true := by decide +kernel
    exact ⟨by decide, hown, hother, p, rfl, hbook, "+1 DAGGER", by decide, by decide +kernel⟩
  · let p : BonusPattern :=
      ⟨BonusPattern.weaponText "sword".toList, BonusPattern.weaponRegex "sword".toList⟩
    obtain ⟨hown, hother, hbook⟩ :
        ((start .default []).run [.compileAll magicSwords]).compiler.isRegistered
          ⟨.weapon, "Sword"⟩ = true ∧
        ((start .default []).run [.compileAll magicSwords]).compiler.isRegistered
          ⟨.weapon, "Sword +1"⟩ = true ∧
        ((start .default []).run [.compileAll magicSwords]).book.rules.contains
          (bonusRule "Sword" p) = true := by decide +kernel
    exact ⟨by decide, hown, hother, p, rfl, hbook, "Sword +1", by decide, by decide +kernel⟩

end Session

end Rulebook
