import Mathlib.Data.List.Perm.Basic
import Rulebook.Proofs.FieldLookups

/-!
# The order of fields

The fields of a specification may stand in any order. Reading them gives tables with the
same fields in different orders, and as no name is there twice, looking a field up finds
the same one in each of them. Since look-ups are all that the compilers see of a table,
what a record compiles to does not depend on the order of its fields.

The one thing that differs is the specification itself. Most kinds pass it on with their
choice; nothing else of their output is made from it.
-/

namespace Rulebook

/-! ## Tables that answer alike -/

namespace FieldTable

variable {t u : FieldTable} {name : String}

/-- Where no name is there twice, every field is found. -/
theorem get?_eq_some_iff (h : (t.fields.map Prod.fst).Nodup) {v : FieldValue} :
    t.get? name = some v ↔ (name, v) ∈ t.fields := by
  refine ⟨mem_of_get?, fun hmem => ?_⟩
  obtain ⟨before, after, hfields⟩ := List.append_of_mem hmem
  refine List.lookup_eq_some_iff.2 ⟨before, after, hfields, fun field hfield => ?_⟩
  rw [hfields, List.map_append, List.nodup_append] at h
  exact bne_iff_ne.2 (h.2.2 _ (List.mem_map_of_mem hfield) _ (List.mem_cons_self ..)).symm

/-- **Tables that no look-up can tell apart.** -/
structure Alike (t u : FieldTable) : Prop where
  kind : t.kind = u.kind
  get? : ∀ name, t.get? name = u.get? name

theorem Alike.answer_eq (h : t.Alike u) (q : Lookup) : q.answer t = q.answer u := by
  have hoptional : ∀ s name, t.optional s name = u.optional s name := by
    intro s name
    unfold optional
    rw [h.get?]
  cases q with
  | optional s name => exact hoptional s name
  | require s name =>
    show t.require s name = u.require s name
    unfold require
    rw [hoptional, h.kind]

/-- Tables with the same fields are alike. -/
theorem Alike.of_perm (hkind : t.kind = u.kind) (hnodup : (t.fields.map Prod.fst).Nodup)
    (h : t.fields.Perm u.fields) : t.Alike u := by
  refine ⟨hkind, fun name => Option.ext fun v => ?_⟩
  rw [get?_eq_some_iff hnodup, get?_eq_some_iff ((h.map Prod.fst).nodup_iff.1 hnodup), h.mem_iff]

/-- **Fields in another order** give a table that is alike. -/
theorem exists_alike_of_perm {kind : Kind} {multiplier : Float} {raws others : List RawField}
    (h : raws.Perm others) (ht : ofFields kind multiplier raws = .ok t) :
    ∃ u, ofFields kind multiplier others = .ok u ∧ t.Alike u := by
  obtain ⟨hkind, hread, hnodup, hcomplete⟩ := ofFields_eq_ok_iff.1 ht
  obtain ⟨fields, hothers, hperm⟩ := List.perm_comp_forall₂ h.symm hread
  have hnames := hperm.map Prod.fst
  refine ⟨⟨kind, fields⟩, ofFields_eq_ok_iff.2 ⟨rfl, hothers, hnames.nodup_iff.2 hnodup, ?_⟩,
    .of_perm hkind hnodup hperm.symm⟩
  exact fun spec hspec hrequired => hnames.mem_iff.2 (hcomplete spec hspec hrequired)

end FieldTable

/-- **Look-ups that are answered alike** lead to the same result. -/
theorem Compile.LooksUp.congr {P : Lookup → Prop} {α : Type} {f : FieldTable → Compiled α}
    (hf : LooksUp P f) {t u : FieldTable} (h : ∀ q, P q → q.answer t = q.answer u) :
    f t = f u := by
  induction hf with
  | const x => rfl
  | ask hq _ ih =>
    dsimp only
    rw [h _ hq]
    exact congrArg (_ >>= ·) (funext fun a => ih a)

/-! ## Specifications in outputs -/

/-- An output without the specifications of its choices. -/
def Output.withoutSpecs (o : Output) : Output :=
  { o with choices := o.choices.map fun c => { c with spec := "" } }

theorem Output.eq_of_withoutSpecs {o o' : Output} (h : o'.withoutSpecs = o.withoutSpecs) :
    o'.rules = o.rules ∧ o'.notes = o.notes ∧ o'.sections = o.sections ∧
      o'.choices.map Record.key = o.choices.map Record.key := by
  obtain ⟨hrules, hnotes, hchoices⟩ := Output.mk.inj h
  refine ⟨hrules, hnotes, ?_, ?_⟩
  · unfold sections
    rw [hnotes]
  · -- a key does not say what the specification is
    have hkeys := congrArg (List.map Record.key) hchoices
    rwa [List.map_map, List.map_map] at hkeys

namespace Compile

/-- **Outcomes that differ in the specifications of choices** at most. -/
def SameButSpecs (x y : Compiled Output) : Prop :=
  x.map Output.withoutSpecs = y.map Output.withoutSpecs

namespace SameButSpecs

variable {α : Type} {x : Compiled α} {y y' z z' : Compiled Output}

theorem bind {f g : α → Compiled Output} (h : ∀ a, SameButSpecs (f a) (g a)) :
    SameButSpecs (x >>= f) (x >>= g) := by
  cases x with
  | error e => rfl
  | ok a => exact h a

theorem ite {c : Prop} [Decidable c] (hy : SameButSpecs y y') (hz : SameButSpecs z z') :
    SameButSpecs (if c then y else z) (if c then y' else z') := by
  split
  · exact hy
  · exact hz

theorem choice {o : Output} {kind : Kind} {name spec other : String} :
    SameButSpecs (pure (o ++ .ofChoice kind name spec))
      (pure (o ++ .ofChoice kind name other)) := by
  show Except.ok (Output.withoutSpecs _) = Except.ok (Output.withoutSpecs _)
  simp only [Output.withoutSpecs, Output.choices_append, List.map_append]
  rfl

end SameButSpecs

/-- **Nothing is made of the specification itself** but to pass it on with a choice. -/
theorem sameButSpecs_fieldsOutput {ctx : Context} {kind : Kind} {name spec other : String}
    {t : FieldTable} :
    SameButSpecs (fieldsOutput ctx ⟨kind, name, spec⟩ t)
      (fieldsOutput ctx ⟨kind, name, other⟩ t) := by
  unfold fieldsOutput
  cases kind with
  | charClass =>
    unfold classOutput
    repeat refine .bind fun _ => ?_
    exact .choice
  | race =>
    unfold raceOutput
    repeat refine .bind fun _ => ?_
    exact .choice
  | spell => rfl
  | weapon =>
    unfold weaponOutput
    refine .bind fun category => .ite rfl <| .bind fun damage => .ite rfl <| ?_
    repeat refine .bind fun _ => ?_
    exact .choice
  | armor =>
    unfold armorOutput
    repeat refine .bind fun _ => ?_
    exact .choice
  | shield =>
    unfold shieldOutput
    repeat refine .bind fun _ => ?_
    exact .choice
  | skill =>
    unfold skillOutput
    repeat refine .bind fun _ => ?_
    exact .choice
  | feature =>
    unfold featureOutput
    repeat refine .bind fun _ => ?_
    exact .choice
  | language => exact .choice
  | goody =>
    unfold goodyOutput
    repeat refine .bind fun _ => ?_
    refine .ite rfl ?_
    repeat refine .bind fun _ => ?_
    exact .choice

end Compile

namespace Record

variable {ctx : Context} {kind : Kind} {name spec other : String} {raws others : List RawField}
  {o : Output}

/-- A record with its fields in another order compiles if it does, to the same. -/
theorem exists_output_of_perm (hraws : Specification.fields spec = .ok raws)
    (hothers : Specification.fields other = .ok others) (h : raws.Perm others)
    (ho : compile ctx ⟨kind, name, spec⟩ = .ok o) :
    ∃ o', compile ctx ⟨kind, name, other⟩ = .ok o' ∧ o'.withoutSpecs = o.withoutSpecs := by
  obtain ⟨t, ht, ho⟩ := Outcome.bind_eq_ok.1 ho
  obtain ⟨_, hfields, ht⟩ := Outcome.bind_eq_ok.1 ht
  cases hraws.symm.trans hfields
  obtain ⟨u, hu, halike⟩ := FieldTable.exists_alike_of_perm h ht
  have hsame : Compile.SameButSpecs (Compile.fieldsOutput ctx ⟨kind, name, spec⟩ t)
      (Compile.fieldsOutput ctx ⟨kind, name, other⟩ t) := Compile.sameButSpecs_fieldsOutput
  rw [Compile.SameButSpecs, ho] at hsame
  obtain ⟨o', ho', hspecs⟩ := Outcome.map_eq_ok.1 hsame.symm
  rw [(Compile.looksUp_fieldsOutput ctx _).congr fun q _ => halike.answer_eq q] at ho'
  exact ⟨o', Outcome.bind_eq_ok.2 ⟨u, Outcome.bind_eq_ok.2 ⟨others, hothers, hu⟩, ho'⟩, hspecs⟩

/-- **The order of fields does not matter**: a record compiles if and only if it does
with its fields in another order, and then it has the same rules and notes, in the same
sections, and offers choices of the same kinds and names, all in the same order. -/
theorem compile_perm (hraws : Specification.fields spec = .ok raws)
    (hothers : Specification.fields other = .ok others) (h : raws.Perm others) :
    ((∃ o, compile ctx ⟨kind, name, spec⟩ = .ok o) ↔
        ∃ o, compile ctx ⟨kind, name, other⟩ = .ok o) ∧
      ∀ o o', compile ctx ⟨kind, name, spec⟩ = .ok o →
        compile ctx ⟨kind, name, other⟩ = .ok o' →
          o'.rules = o.rules ∧ o'.notes = o.notes ∧ o'.sections = o.sections ∧
            o'.choices.map Record.key = o.choices.map Record.key := by
  refine ⟨⟨?_, ?_⟩, fun o o' ho ho' => ?_⟩
  · rintro ⟨o, ho⟩
    obtain ⟨o', ho', -⟩ := exists_output_of_perm hraws hothers h ho
    exact ⟨o', ho'⟩
  · rintro ⟨o, ho⟩
    obtain ⟨o', ho', -⟩ := exists_output_of_perm hothers hraws h.symm ho
    exact ⟨o', ho'⟩
  · obtain ⟨_, hother, hspecs⟩ := exists_output_of_perm hraws hothers h ho
    cases hother.symm.trans ho'
    exact Output.eq_of_withoutSpecs hspecs

/-- A sling with its fields in two orders. -/
theorem compile_perm_sling : ∃ o o',
    compile ⟨.default, .empty⟩ ⟨.weapon, "Sling", "Category=R Damage=d4 Range=50"⟩ = .ok o ∧
      compile ⟨.default, .empty⟩ ⟨.weapon, "Sling", "Range=50 Category=R Damage=d4"⟩ = .ok o' ∧
      o'.rules = o.rules ∧ o'.notes = o.notes ∧ o'.sections = o.sections ∧
        o'.choices.map Record.key = o.choices.map Record.key := by
  have hraws : Specification.fields "Category=R Damage=d4 Range=50" =
      .ok [⟨"Category", ["R"]⟩, ⟨"Damage", ["d4"]⟩, ⟨"Range", ["50"]⟩] := by decide +kernel
  have hothers : Specification.fields "Range=50 Category=R Damage=d4" =
      .ok [⟨"Range", ["50"]⟩, ⟨"Category", ["R"]⟩, ⟨"Damage", ["d4"]⟩] := by decide +kernel
  obtain ⟨hiff, hsame⟩ :=
    @compile_perm ⟨.default, .empty⟩ .weapon "Sling" _ _ _ _ hraws hothers (by decide)
  obtain ⟨o, ho⟩ := Outcome.exists_of_isOk (x := compile ⟨.default, .empty⟩
    ⟨.weapon, "Sling", "Category=R Damage=d4 Range=50"⟩) (by decide +kernel)
  obtain ⟨o', ho'⟩ := hiff.1 ⟨o, ho⟩
  exact ⟨o, o', ho, ho', hsame o o' ho ho'⟩

end Record

end Rulebook
