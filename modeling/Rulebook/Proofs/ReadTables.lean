import Mathlib.Data.List.Forall2
import Mathlib.Data.List.Nodup
import Rulebook.Content.FieldTable
import Rulebook.Proofs.Outcomes

/-!
# Where the fields of a table come from

A table of fields has one field for each that was written, in the same order. Each
was read from the values that were written, in the shape that the schema gives to its
name. So what is known of written values, or of what a shape makes of them, is known
of the fields of a table, and of what is looked up in it.

Nothing else is needed for a table to be read than that the names are different and
that all that the schema requires is there.
-/

namespace Rulebook

/-- What two lists share one by one, each entry of the second shares with one of the
first. -/
theorem exists_mem_of_forall₂ {α β : Type} {R : α → β → Prop} {xs : List α} {ys : List β}
    (h : List.Forall₂ R xs ys) : ∀ y ∈ ys, ∃ x ∈ xs, R x y := by
  induction h with
  | nil => nofun
  | @cons x y xs ys hxy _ ih =>
    refine List.forall_mem_cons.2 ⟨⟨x, List.mem_cons_self .., hxy⟩, fun y hy => ?_⟩
    obtain ⟨x, hx, hxy⟩ := ih y hy
    exact ⟨x, List.mem_cons_of_mem _ hx, hxy⟩

/-- A schema has one field of each name. -/
theorem nodup_schema (kind : Kind) : ((schema kind).map FieldSpec.name).Nodup := by
  cases kind <;> decide

/-- Looking for a field of a schema gives it. -/
theorem find?_schema {kind : Kind} {spec : FieldSpec} {name : String} (h : spec ∈ schema kind)
    (hname : spec.name = name) : (schema kind).find? (·.name == name) = some spec := by
  cases hfind : (schema kind).find? (·.name == name) with
  | none =>
    have hother := List.find?_eq_none.1 hfind spec h
    rw [hname, beq_self_eq_true] at hother
    exact absurd rfl hother
  | some found =>
    have hfound : (found.name == name) = true :=
      List.find?_some (p := fun s : FieldSpec => s.name == name) hfind
    exact congrArg some (List.inj_on_of_nodup_map (nodup_schema kind)
      (List.mem_of_find?_eq_some hfind) h ((beq_iff_eq.1 hfound).trans hname.symm))

namespace FieldTable

variable {kind : Kind} {multiplier : Float}

/-- **A field that was read from a written one**, in the shape that the schema says. -/
structure ReadFrom (kind : Kind) (multiplier : Float) (raw : RawField)
    (field : String × FieldValue) : Prop where
  name : field.1 = raw.name
  known : ∃ spec ∈ schema kind, spec.name = field.1 ∧ spec.shape = field.2.shape
  content : field.2.shape.read multiplier raw.values = .ok field.2.content

theorem nodup_map_fst_concat {fields : List (String × FieldValue)} {field : String × FieldValue} :
    ((fields ++ [field]).map Prod.fst).Nodup ↔
      (fields.map Prod.fst).Nodup ∧ field.1 ∉ fields.map Prod.fst := by
  rw [List.map_append, List.map_singleton, ← List.concat_eq_append, List.nodup_concat, and_comm]

theorem hasField_iff {fields : List (String × FieldValue)} {name : String} :
    hasField fields name = true ↔ name ∈ fields.map Prod.fst := by
  simp only [hasField, List.any_eq_true, beq_iff_eq, List.mem_map]

/-- **Reading a field** adds one at the end, unless there is one of its name. -/
theorem readField_eq_ok_iff {before after : List (String × FieldValue)} {raw : RawField} :
    readField kind multiplier before raw = .ok after ↔
      ∃ field, after = before ++ [field] ∧ ReadFrom kind multiplier raw field ∧
        field.1 ∉ before.map Prod.fst := by
  unfold readField
  constructor
  · intro h
    split at h
    · cases h
    · next spec hspec =>
      split at h
      · cases h
      · next hnew =>
        obtain ⟨content, hcontent, h⟩ := Outcome.bind_eq_ok.1 h
        cases h
        have hname : (spec.name == raw.name) = true :=
          List.find?_some (p := fun s : FieldSpec => s.name == raw.name) hspec
        exact ⟨_, rfl, ⟨beq_iff_eq.1 hname, ⟨spec, List.mem_of_find?_eq_some hspec, rfl, rfl⟩,
          Outcome.inField_eq_ok.1 hcontent⟩, mt hasField_iff.2 hnew⟩
  · rintro ⟨⟨_, shape, content⟩, rfl, ⟨rfl, ⟨spec, hspec, hname, rfl⟩, hcontent⟩, hnew⟩
    dsimp only at hname hcontent hnew
    rw [find?_schema hspec hname, ← hname]
    dsimp only
    rw [if_neg (mt hasField_iff.1 (hname ▸ hnew)), Outcome.inField_eq_ok.2 hcontent]
    rfl

/-- **Reading fields** one after the other adds one for each, all of different names. -/
theorem foldlM_readField_eq_ok_iff {raws : List RawField}
    {before after : List (String × FieldValue)} (hbefore : (before.map Prod.fst).Nodup) :
    raws.foldlM (readField kind multiplier) before = .ok after ↔
      ∃ fields, after = before ++ fields ∧ List.Forall₂ (ReadFrom kind multiplier) raws fields ∧
        (after.map Prod.fst).Nodup := by
  induction raws generalizing before with
  | nil =>
    simp only [List.foldlM_nil, Outcome.pure_eq_ok, List.forall₂_nil_left_iff]
    constructor
    · rintro rfl
      exact ⟨[], (List.append_nil _).symm, rfl, hbefore⟩
    · rintro ⟨_, rfl, rfl, -⟩
      exact (List.append_nil _).symm
  | cons raw raws ih =>
    rw [List.foldlM_cons, Outcome.bind_eq_ok]
    constructor
    · rintro ⟨_, hnext, h⟩
      obtain ⟨field, rfl, hfield, hnew⟩ := readField_eq_ok_iff.1 hnext
      obtain ⟨fields, rfl, hfields, hnodup⟩ := (ih (nodup_map_fst_concat.2 ⟨hbefore, hnew⟩)).1 h
      exact ⟨field :: fields, List.append_assoc .., .cons hfield hfields, hnodup⟩
    · rintro ⟨_, rfl, hall, hnodup⟩
      obtain ⟨field, fields, hfield, hfields, rfl⟩ := List.forall₂_cons_left_iff.1 hall
      have hnext : ((before ++ [field]).map Prod.fst).Nodup := by
        have hnodup := hnodup
        rw [List.append_cons, List.map_append] at hnodup
        exact hnodup.of_append_left
      have hnew := (nodup_map_fst_concat.1 hnext).2
      exact ⟨before ++ [field], readField_eq_ok_iff.2 ⟨field, rfl, hfield, hnew⟩,
        (ih hnext).2 ⟨fields, List.append_cons .., hfields, hnodup⟩⟩

/-- **Which tables are read from some fields**: those with a field for each, all of
different names, and with all that the schema requires. -/
theorem ofFields_eq_ok_iff {raws : List RawField} {t : FieldTable} :
    ofFields kind multiplier raws = .ok t ↔
      t.kind = kind ∧ List.Forall₂ (ReadFrom kind multiplier) raws t.fields ∧
        (t.fields.map Prod.fst).Nodup ∧
        ∀ spec ∈ schema kind, spec.required = true → spec.name ∈ t.fields.map Prod.fst := by
  unfold ofFields
  rw [Outcome.bind_eq_ok]
  have hmissing : ∀ {fields : List (String × FieldValue)},
      ((schema kind).find? fun spec => spec.required && !hasField fields spec.name) = none ↔
        ∀ spec ∈ schema kind, spec.required = true → spec.name ∈ fields.map Prod.fst := by
    intro fields
    simp only [List.find?_eq_none, Bool.and_eq_true, Bool.not_eq_true', not_and,
      Bool.not_eq_false, hasField_iff]
  have hnil : (([] : List (String × FieldValue)).map Prod.fst).Nodup := List.nodup_nil
  constructor
  · rintro ⟨fields, hfields, h⟩
    obtain ⟨_, rfl, hread, hnodup⟩ := (foldlM_readField_eq_ok_iff hnil).1 hfields
    split at h
    · cases h
    · next hnone =>
      cases h
      exact ⟨rfl, hread, hnodup, hmissing.1 hnone⟩
  · obtain ⟨_, fields⟩ := t
    rintro ⟨rfl, hread, hnodup, hrequired⟩
    refine ⟨fields, (foldlM_readField_eq_ok_iff hnil).2 ⟨fields, rfl, hread, hnodup⟩, ?_⟩
    rw [hmissing.2 hrequired]
    rfl

/-- **The fields of a table** were read from those that were written, one by one. -/
theorem forall₂_of_read {spec : String} {t : FieldTable} (h : read kind multiplier spec = .ok t) :
    ∃ raws, Specification.fields spec = .ok raws ∧
      List.Forall₂ (ReadFrom kind multiplier) raws t.fields := by
  obtain ⟨raws, hraws, h⟩ := Outcome.bind_eq_ok.1 h
  exact ⟨raws, hraws, (ofFields_eq_ok_iff.1 h).2.1⟩

/-- So each field was read from some written field. -/
theorem exists_readFrom {spec : String} {t : FieldTable} (h : read kind multiplier spec = .ok t) :
    ∃ raws, Specification.fields spec = .ok raws ∧
      ∀ field ∈ t.fields, ∃ raw ∈ raws, ReadFrom kind multiplier raw field := by
  obtain ⟨raws, hraws, hfields⟩ := forall₂_of_read h
  exact ⟨raws, hraws, exists_mem_of_forall₂ hfields⟩

variable {t : FieldTable} {name : String} {s : Shape}

theorem mem_of_get? {v : FieldValue} (h : t.get? name = some v) : (name, v) ∈ t.fields := by
  obtain ⟨before, after, hfields, -⟩ := List.lookup_eq_some_iff.1 h
  rw [hfields]
  exact List.mem_append_right _ (List.mem_cons_self ..)

/-- **Looking a field up** gives one that is there. -/
theorem mem_of_optional {content : s.Content} (h : t.optional s name = .ok (some content)) :
    (name, ⟨s, content⟩) ∈ t.fields := by
  unfold optional at h
  split at h
  · cases h
  · next v hv =>
    have hmem := mem_of_get? hv
    -- a field is given back only at its own shape, so the two contents are one
    obtain ⟨shape, content⟩ := v
    unfold FieldValue.as? at h
    dsimp only at h
    split at h
    · next heq =>
      cases h
      split at heq
      · next hshape =>
        cases hshape
        cases heq
        exact hmem
      · cases heq
    · cases h

theorem mem_of_require {content : s.Content} (h : t.require s name = .ok content) :
    (name, ⟨s, content⟩) ∈ t.fields := by
  unfold require at h
  split at h
  · cases h
  · cases h
  · next content' hcontent =>
    cases h
    exact mem_of_optional hcontent

end FieldTable

end Rulebook
