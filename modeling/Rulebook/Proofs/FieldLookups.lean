import Rulebook.Compile.Record
import Rulebook.Proofs.ReadTables

/-!
# What the compilers ask of a table

A compiler learns of a record by looking fields up, each by its name and in some shape.
A field that is asked for in another shape than it has, or that has to be there and is
not, is an error that no author of a record can do anything about: it would be a slip in
a compiler or in the schema.

There are no such slips. A table that was read *conforms* to the schema of its kind, and
whatever the schema of a kind says of a field is a *promise* to those who look it up. The
compiler of a kind sees its table through look-ups only, and asks for nothing but what is
promised to it.
-/

namespace Rulebook

variable {kind : Kind} {t : FieldTable}

/-! ## Look-ups -/

/-- **Looking up a field** by its shape and its name, if it is there or because it has to
be. -/
inductive Lookup where
  | optional (shape : Shape) (name : String)
  | require (shape : Shape) (name : String)

namespace Lookup

/-- What one gets. -/
def Answer : Lookup → Type
  | optional s _ => Option s.Content
  | require s _ => s.Content

/-- **The answer of a table.** -/
def answer (t : FieldTable) : (q : Lookup) → Compiled q.Answer
  | optional s name => t.optional s name
  | require s name => t.require s name

/-- **What the schema of a kind promises**: the field is known to it in this shape, and it
is there if it has to be. -/
def Promised (kind : Kind) : Lookup → Prop
  | optional s name => ∃ spec ∈ schema kind, spec.name = name ∧ spec.shape = s
  | require s name => .mandatory name s ∈ schema kind

instance : DecidablePred (Promised kind)
  | optional _ _ => inferInstanceAs (Decidable (∃ spec ∈ schema kind, _ ∧ _))
  | require _ _ => inferInstanceAs (Decidable (_ ∈ schema kind))

end Lookup

/-! ## Tables that conform to the schema -/

namespace FieldTable

/-- **Whether a table is one of its kind**: no field is there twice, each is known to the
schema and has the shape that it says there, and none that is required is missing. -/
structure Conforms (t : FieldTable) : Prop where
  nodup : (t.fields.map Prod.fst).Nodup
  known : ∀ field ∈ t.fields, field.1 ∈ (schema t.kind).map FieldSpec.name
  shapes : ∀ field ∈ t.fields, ∀ spec ∈ schema t.kind, spec.name = field.1 →
    field.2.shape = spec.shape
  complete : ∀ spec ∈ schema t.kind, spec.required = true → spec.name ∈ t.fields.map Prod.fst

theorem conforms_of_ofFields {multiplier : Float} {raws : List RawField}
    (h : ofFields kind multiplier raws = .ok t) : t.kind = kind ∧ t.Conforms := by
  obtain ⟨rfl, hread, hnodup, hcomplete⟩ := ofFields_eq_ok_iff.1 h
  have hknown : ∀ field ∈ t.fields, ∃ spec ∈ schema t.kind,
      spec.name = field.1 ∧ spec.shape = field.2.shape := by
    intro field hfield
    obtain ⟨_, -, hfrom⟩ := exists_mem_of_forall₂ hread field hfield
    exact hfrom.known
  refine ⟨rfl, hnodup, fun field hfield => ?_, fun field hfield spec hspec hname => ?_, hcomplete⟩
  · obtain ⟨spec, hspec, hname, -⟩ := hknown field hfield
    exact List.mem_map.2 ⟨spec, hspec, hname⟩
  · -- the names of a schema are different, so it says the shape of a field once
    obtain ⟨other, hother, hname', hshape⟩ := hknown field hfield
    rw [← hshape, List.inj_on_of_nodup_map (nodup_schema t.kind) hother hspec
      (hname'.trans hname.symm)]

namespace Conforms

/-- A field that is there is found, in the shape of the schema. -/
theorem exists_optional (h : t.Conforms) {spec : FieldSpec} (hspec : spec ∈ schema t.kind) :
    ∃ content, t.optional spec.shape spec.name = .ok content ∧
      (spec.required = true → content.isSome = true) := by
  unfold optional
  cases hget : t.get? spec.name with
  | none =>
    refine ⟨none, rfl, fun hrequired => ?_⟩
    obtain ⟨field, hfield, hname⟩ := List.mem_map.1 (h.complete spec hspec hrequired)
    have hne := List.lookup_eq_none_iff.1 hget field hfield
    rw [hname, bne_self_eq_false] at hne
    exact absurd hne Bool.false_ne_true
  | some v =>
    have hshape : v.shape = spec.shape := h.shapes _ (mem_of_get? hget) spec hspec rfl
    refine ⟨some (hshape ▸ v.content), ?_, fun _ => rfl⟩
    dsimp only
    rw [FieldValue.as?, dif_pos hshape]

/-- **Promises are kept**: what the schema promises, a table of the kind has an answer
to. -/
theorem exists_answer (h : t.Conforms) {q : Lookup} (hq : q.Promised t.kind) :
    ∃ a, q.answer t = .ok a := by
  cases q with
  | optional s name =>
    obtain ⟨spec, hspec, rfl, rfl⟩ := hq
    obtain ⟨content, hcontent, -⟩ := h.exists_optional hspec
    exact ⟨content, hcontent⟩
  | require s name =>
    obtain ⟨content, hcontent, hsome⟩ := h.exists_optional hq
    obtain ⟨content, rfl⟩ := Option.isSome_iff_exists.1 (hsome rfl)
    refine ⟨content, ?_⟩
    show t.require s name = .ok content
    unfold require
    rw [show t.optional s name = .ok (some content) from hcontent]

end Conforms

end FieldTable

namespace Compile

/-! ## Computations that look fields up -/

/-- **A computation that sees its table only through look-ups** of some sort. A look-up
without an answer ends it; what comes after one may depend on the answer. -/
inductive LooksUp (P : Lookup → Prop) {α : Type} : (FieldTable → Compiled α) → Prop where
  /-- The table does not matter. -/
  | const (x : Compiled α) : LooksUp P fun _ => x
  /-- A look-up, and what is made of its answer. -/
  | ask {q : Lookup} (hq : P q) {next : q.Answer → FieldTable → Compiled α}
      (hnext : ∀ a, LooksUp P (next a)) : LooksUp P fun t => q.answer t >>= fun a => next a t

namespace LooksUp

variable {P Q : Lookup → Prop} {α β : Type} {f : FieldTable → Compiled α}

theorem mono (h : LooksUp P f) (hPQ : ∀ q, P q → Q q) : LooksUp Q f := by
  induction h with
  | const x => exact .const x
  | ask hq _ ih => exact .ask (hPQ _ hq) ih

theorem bind {g : α → FieldTable → Compiled β} (hf : LooksUp P f) (hg : ∀ a, LooksUp P (g a)) :
    LooksUp P fun t => f t >>= fun a => g a t := by
  induction hf with
  | const x =>
    cases x with
    | error e => exact .const (.error e)
    | ok a => exact hg a
  | ask hq _ ih =>
    simp only [bind_assoc]
    exact .ask hq ih

theorem answer {q : Lookup} (hq : P q) : LooksUp P q.answer := by
  have h := ask hq fun a => const (.ok a)
  rwa [show (fun t => q.answer t >>= fun a => Except.ok a) = q.answer from
    funext fun t => bind_pure (q.answer t)] at h

theorem map (hf : LooksUp P f) (g : α → β) : LooksUp P fun t => (f t).map g := by
  have h := hf.bind fun a => const (.ok (g a))
  rwa [show (fun t => f t >>= fun a => Except.ok (g a)) = fun t => (f t).map g from
    funext fun t => by cases f t <;> rfl] at h

theorem ite {c : Prop} [Decidable c] {g : FieldTable → Compiled α} (hf : LooksUp P f)
    (hg : LooksUp P g) : LooksUp P fun t => if c then f t else g t := by
  by_cases hc : c
  · simpa only [if_pos hc] using hf
  · simpa only [if_neg hc] using hg

theorem mapM {xs : List β} {f : β → FieldTable → Compiled α} (h : ∀ x ∈ xs, LooksUp P (f x)) :
    LooksUp P fun t => xs.mapM (f · t) := by
  induction xs with
  | nil => exact .const (.ok [])
  | cons x xs ih =>
    obtain ⟨hx, hxs⟩ := List.forall_mem_cons.1 h
    simp only [List.mapM_cons]
    exact hx.bind fun y => (ih hxs).bind fun ys => .const (.ok (y :: ys))

section Fields

variable {s : Shape} {name : String}

theorem optional (h : (Lookup.optional s name).Promised kind) :
    LooksUp (Lookup.Promised kind) (·.optional s name) := answer h

theorem require (h : (Lookup.require s name).Promised kind) :
    LooksUp (Lookup.Promised kind) (·.require s name) := answer h

theorem text (h : (Lookup.require .text name).Promised kind) :
    LooksUp (Lookup.Promised kind) (·.text name) := require h

theorem number (h : (Lookup.require .number name).Promised kind) :
    LooksUp (Lookup.Promised kind) (·.number name) := require h

theorem list (h : (Lookup.optional .list name).Promised kind) :
    LooksUp (Lookup.Promised kind) (·.list name) := (optional h).map (·.getD [])

theorem leveled (h : (Lookup.optional .leveled name).Promised kind) :
    LooksUp (Lookup.Promised kind) (·.leveled name) := (optional h).map (·.getD [])

theorem spellSlots (h : (Lookup.optional .spellSlots name).Promised kind) :
    LooksUp (Lookup.Promised kind) (·.spellSlots name) := (optional h).map (·.getD [])

end Fields

end LooksUp

/-! ## The compilers -/

section Compilers

open Lookup (Promised)

variable {ctx : Context} {record : Record}

theorem looksUp_protection {kind : Kind} (h : (Lookup.require .number "AC").Promised kind) :
    LooksUp (Promised kind) protection := by
  unfold protection
  exact .bind (.number h) fun ac => .const _

theorem looksUp_armorOutput : LooksUp (Promised .armor) (armorOutput record) := by
  unfold armorOutput
  exact .bind (looksUp_protection (by decide)) fun ac =>
    .bind (.optional (by decide)) fun speed =>
    .bind (.optional (by decide)) fun weight => .const _

theorem looksUp_shieldOutput : LooksUp (Promised .shield) (shieldOutput record) := by
  unfold shieldOutput
  exact .bind (looksUp_protection (by decide)) fun ac =>
    .bind (.optional (by decide)) fun weight => .const _

theorem looksUp_skillOutput : LooksUp (Promised .skill) (skillOutput ctx record) := by
  unfold skillOutput
  exact .bind (.optional (by decide)) fun text => .bind (.const _) fun ability =>
    .bind (.list (by decide)) fun classes => .const _

theorem looksUp_raceOutput : LooksUp (Promised .race) (raceOutput ctx record) := by
  unfold raceOutput
  exact .bind (.leveled (by decide)) fun features => .bind (.const _) fun grants =>
    .bind (.list (by decide)) fun require => .bind (.const _) fun requirements =>
    .bind (.list (by decide)) fun languages => .const _

theorem looksUp_classOutput : LooksUp (Promised .charClass) (classOutput ctx record) := by
  have hsaves : ∀ category ∈ saveCategories,
      (Lookup.require .save category).Promised .charClass := by decide
  unfold classOutput
  exact .bind (.require (by decide)) fun experience => .bind (.require (by decide)) fun attack =>
    .bind (.require (by decide)) fun hitDie => .bind (.optional (by decide)) fun proficiency =>
    .bind (.mapM fun category hcategory =>
      .bind (.require (hsaves category hcategory)) fun save => .const _) fun saves =>
    .bind (.leveled (by decide)) fun features => .bind (.const _) fun grants =>
    .bind (.list (by decide)) fun texts => .bind (.const _) fun require =>
    .bind (.list (by decide)) fun names => .bind (.const _) fun languages =>
    .bind (.spellSlots (by decide)) fun tables => .const _

theorem looksUp_featureOutput : LooksUp (Promised .feature) (featureOutput ctx record) := by
  unfold featureOutput
  exact .bind (.list (by decide)) fun sections => .bind (.list (by decide)) fun notes =>
    .bind (.const _) fun shown => .bind (.list (by decide)) fun effects => .const _

theorem looksUp_goodyOutput : LooksUp (Promised .goody) (goodyOutput ctx record) := by
  unfold goodyOutput
  exact .bind (.text (by decide)) fun patternText => .bind (.const _) fun pattern =>
    .bind (.const _) fun _ => .bind (.text (by decide)) fun valueText =>
    .bind (.const _) fun value => .bind (.optional (by decide)) fun effect =>
    .bind (.const _) fun op => .bind (.list (by decide)) fun attrs =>
    .ite (.const _) <| .bind (.const _) fun rules => .bind (.list (by decide)) fun sections =>
    .bind (.list (by decide)) fun notes => .const _

theorem looksUp_weaponOutput : LooksUp (Promised .weapon) (weaponOutput ctx record) := by
  unfold weaponOutput
  exact .bind (.text (by decide)) fun category => .ite (.const _) <|
    .bind (.text (by decide)) fun damage => .ite (.const _) <|
    .bind (.optional (by decide)) fun range => .const _

theorem looksUp_readDetail {labels : List CasterLabel} {field : String}
    (h : (Lookup.optional .list field).Promised .spell) :
    LooksUp (Promised .spell) fun fields => readDetail fields labels field := by
  unfold readDetail
  exact .bind (.list h) fun entries => .const _

theorem looksUp_spellOutput : LooksUp (Promised .spell) (spellOutput ctx record) := by
  unfold spellOutput
  refine .bind (.text (by decide)) fun school => ?_
  cases ctx.settings.schoolAbbreviation? school with
  | none => exact .const _
  | some abbreviation =>
    exact .bind (.text (by decide)) fun description => .bind (.list (by decide)) fun levels =>
      .bind (.const _) fun labels => .ite (.const _) <|
      .bind (looksUp_readDetail (by decide)) fun duration =>
      .bind (looksUp_readDetail (by decide)) fun effect =>
      .bind (looksUp_readDetail (by decide)) fun range => .const _

/-- **Each compiler** asks only for what the schema of its kind promises. -/
theorem looksUp_fieldsOutput (ctx : Context) (record : Record) :
    LooksUp (Promised record.kind) (fieldsOutput ctx record) := by
  unfold fieldsOutput
  cases hkind : record.kind with
  | charClass => exact looksUp_classOutput
  | race => exact looksUp_raceOutput
  | spell => exact looksUp_spellOutput
  | weapon => exact looksUp_weaponOutput
  | armor => exact looksUp_armorOutput
  | shield => exact looksUp_shieldOutput
  | skill => exact looksUp_skillOutput
  | feature => exact looksUp_featureOutput
  | language => exact .const _
  | goody => exact looksUp_goodyOutput

end Compilers

end Compile

/-- **A table that was read** conforms to the schema of its kind, and it has an answer to
every look-up of the compiler of its kind. -/
theorem FieldTable.conforms_of_read {multiplier : Float} {spec : String}
    (h : FieldTable.read kind multiplier spec = .ok t) :
    t.kind = kind ∧ t.Conforms ∧ ∀ (ctx : Context) (record : Record), record.kind = kind →
      Compile.LooksUp (fun q => ∃ a, q.answer t = .ok a) (Compile.fieldsOutput ctx record) := by
  obtain ⟨raws, -, h⟩ := Outcome.bind_eq_ok.1 h
  obtain ⟨rfl, hconforms⟩ := conforms_of_ofFields h
  refine ⟨rfl, hconforms, fun ctx record hkind => ?_⟩
  refine (Compile.looksUp_fieldsOutput ctx record).mono fun q hq => ?_
  exact hconforms.exists_answer (hkind ▸ hq)

/-- The table of a sling, whose optional range stands before what is required. -/
theorem conforms_sling : ∃ t,
    FieldTable.read .weapon FieldTable.defaultMultiplier "Range=50 Damage=d4 Category=R" = .ok t ∧
      t.kind = .weapon ∧ t.Conforms ∧
      ∀ (ctx : Context) (record : Record), record.kind = .weapon →
        Compile.LooksUp (fun q => ∃ a, q.answer t = .ok a) (Compile.fieldsOutput ctx record) := by
  obtain ⟨t, ht⟩ := Outcome.exists_of_isOk (x := FieldTable.read .weapon
    FieldTable.defaultMultiplier "Range=50 Damage=d4 Category=R") (by decide +kernel)
  exact ⟨t, ht, FieldTable.conforms_of_read ht⟩

end Rulebook
