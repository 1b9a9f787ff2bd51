import Mathlib.Data.List.Sort
import Mathlib.Data.String.Basic
import Rulebook.Compiler
import Rulebook.Proofs.Outcomes

/-!
# What a record sees of the others

A record is compiled by itself, but it may name classes, features and languages,
and a weapon is held against all other weapons. That is all it sees of the
catalog. So catalogs that agree in this, which are called *alike*, compile every
record alike, errors included.

Catalogs are alike in two situations that matter. One is that they were made
from the same records in different orders; the names of weapons are looked at in
ascending order, whatever order they came in. The other is that they differ in
records of kinds that nobody refers to.
-/

namespace Rulebook

/-! ## Sorting forgets the order -/

namespace Text

variable {α : Type} {key : α → String}

theorem pairwise_insertOn {a : α} {items : List α}
    (h : items.Pairwise fun b c => key b ≤ key c) :
    (insertOn key a items).Pairwise fun b c => key b ≤ key c := by
  induction items with
  | nil => exact List.pairwise_singleton _ a
  | cons b items ih =>
    obtain ⟨hb, hitems⟩ := List.pairwise_cons.1 h
    unfold insertOn
    split
    · next hlt =>
      refine List.pairwise_cons.2 ⟨fun c hc => ?_, ih hitems⟩
      obtain rfl | hc := List.mem_cons.1 ((insertOn_perm key a items).mem_iff.1 hc)
      · exact le_of_lt hlt
      · exact hb c hc
    · next hle =>
      have hle : key a ≤ key b := not_lt.1 hle
      refine List.pairwise_cons.2 ⟨fun c hc => ?_, h⟩
      obtain rfl | hc := List.mem_cons.1 hc
      · exact hle
      · exact le_trans hle (hb c hc)

theorem pairwise_sortOn (items : List α) :
    (sortOn key items).Pairwise fun b c => key b ≤ key c := by
  induction items with
  | nil => exact List.Pairwise.nil
  | cons a items ih => exact pairwise_insertOn ih

/-- **Sorted texts** do not tell in which order the texts came. -/
theorem sortOn_id_eq_of_perm {xs ys : List String} (h : xs.Perm ys) :
    sortOn id xs = sortOn id ys :=
  ((sortOn_perm id xs).trans (h.trans (sortOn_perm id ys).symm)).eq_of_pairwise
    (fun _ _ _ _ hab hba => le_antisymm hab hba) (pairwise_sortOn xs) (pairwise_sortOn ys)

end Text

/-! ## Catalogs that are alike -/

namespace Catalog

/-- The kinds that other records refer to by name. -/
def referable : List Kind := [.charClass, .feature, .language]

/-- The kinds of records that other records see: those that they refer to, and
weapons. -/
def visible : List Kind := .weapon :: referable

/-- **Catalogs that no record can tell apart.** -/
structure Alike (c d : Catalog) : Prop where
  contains : ∀ kind ∈ referable, ∀ name, c.contains ⟨kind, name⟩ = d.contains ⟨kind, name⟩
  weapons : c.names .weapon = d.names .weapon

namespace Alike

variable {c d : Catalog}

theorem require_eq (h : c.Alike d) (kind : Kind) (hkind : kind ∈ referable) (name : String) :
    c.require kind name = d.require kind name := by
  unfold require
  rw [h.contains kind hkind]

end Alike

end Catalog

/-! ## Compiling under catalogs that are alike -/

namespace Compile

open Catalog (Alike)

variable {settings : Settings} {c d : Catalog} {record : Record} {fields : FieldTable}

theorem grantLanguages_congr (h : c.Alike d) (languages : List String) (source : String) :
    grantLanguages ⟨settings, c⟩ languages source =
      grantLanguages ⟨settings, d⟩ languages source := by
  have hrequire := h.require_eq .language (by decide)
  unfold grantLanguages
  simp only [hrequire]

theorem classOutput_congr (h : c.Alike d) :
    classOutput ⟨settings, c⟩ record fields = classOutput ⟨settings, d⟩ record fields := by
  have hrequire := h.require_eq .feature (by decide)
  unfold classOutput
  simp only [hrequire, grantLanguages_congr h]

theorem raceOutput_congr (h : c.Alike d) :
    raceOutput ⟨settings, c⟩ record fields = raceOutput ⟨settings, d⟩ record fields := by
  have hrequire := h.require_eq .feature (by decide)
  unfold raceOutput
  simp only [hrequire, grantLanguages_congr h]

theorem skillOutput_congr (h : c.Alike d) :
    skillOutput ⟨settings, c⟩ record fields = skillOutput ⟨settings, d⟩ record fields := by
  have hrequire := h.require_eq .charClass (by decide)
  unfold skillOutput
  simp only [hrequire]

theorem weaponOutput_congr (h : c.Alike d) :
    weaponOutput ⟨settings, c⟩ record fields = weaponOutput ⟨settings, d⟩ record fields := by
  unfold weaponOutput bonusPattern
  simp only [h.weapons]

theorem fieldsOutput_congr (h : c.Alike d) :
    fieldsOutput ⟨settings, c⟩ record fields = fieldsOutput ⟨settings, d⟩ record fields := by
  unfold fieldsOutput
  split
  · exact classOutput_congr h
  · exact raceOutput_congr h
  · rfl
  · exact weaponOutput_congr h
  · rfl
  · rfl
  · exact skillOutput_congr h
  · rfl
  · rfl
  · rfl

end Compile

/-- **A record compiles alike** under catalogs that are alike. -/
theorem Record.compile_congr {settings : Settings} {c d : Catalog} (h : c.Alike d)
    (record : Record) : record.compile ⟨settings, c⟩ = record.compile ⟨settings, d⟩ := by
  unfold Record.compile
  simp only [Compile.fieldsOutput_congr h]

namespace Catalog

variable {c d : Catalog} {key : Key}

/-! ## When catalogs are alike -/

theorem mem_keys_iff : key ∈ c.keys ↔ c.contains key = true := List.contains_iff_mem.symm

/-- Catalogs of the same keys are alike. -/
theorem Alike.of_perm (h : c.keys.Perm d.keys) : c.Alike d where
  contains kind _ name := by
    rw [Bool.eq_iff_iff, ← mem_keys_iff, ← mem_keys_iff]
    exact h.mem_iff
  weapons := Text.sortOn_id_eq_of_perm ((h.filter _).map Key.name)

theorem nodup_insert (h : c.keys.Nodup) : (c.insert key).keys.Nodup := by
  unfold insert
  split
  · exact h
  · next hkey =>
    rw [← mem_keys_iff] at hkey
    exact h.append (List.nodup_singleton key) (List.disjoint_singleton.2 hkey)

/-- The keys of the catalog of some records. -/
theorem ofRecords_keys (records : List Record) :
    (ofRecords records).keys.Nodup ∧
      ∀ key, (ofRecords records).contains key = true ↔ key ∈ records.map Record.key := by
  have go : ∀ {records : List Record} {c : Catalog}, c.keys.Nodup →
      (records.foldl (fun c r => c.insert r.key) c).keys.Nodup ∧
        ∀ key, (records.foldl (fun c r => c.insert r.key) c).contains key = true ↔
          c.contains key = true ∨ key ∈ records.map Record.key := by
    intro records
    induction records with
    | nil => exact fun h => ⟨h, fun key => by simp⟩
    | cons record records ih =>
      intro c h
      have hinsert : (c.insert record.key).keys.Nodup := nodup_insert h
      obtain ⟨hnodup, hcontains⟩ := ih hinsert
      refine ⟨hnodup, fun key => ?_⟩
      rw [List.foldl_cons, hcontains, contains_insert, List.map_cons, List.mem_cons,
        Bool.or_eq_true, beq_iff_eq]
      tauto
  obtain ⟨hnodup, hcontains⟩ := @go records empty List.nodup_nil
  exact ⟨hnodup, fun key => (hcontains key).trans (or_iff_right (fun h => nomatch h))⟩

/-- **Catalogs of the same records** in different orders are alike. -/
theorem alike_ofRecords {records others : List Record} (h : records.Perm others) :
    (ofRecords records).Alike (ofRecords others) := by
  obtain ⟨hnodup, hcontains⟩ := ofRecords_keys records
  obtain ⟨hnodup', hcontains'⟩ := ofRecords_keys others
  refine .of_perm ((List.perm_ext_iff_of_nodup hnodup hnodup').2 (fun key => ?_))
  rw [mem_keys_iff, mem_keys_iff, hcontains, hcontains', (h.map Record.key).mem_iff]

/-- A catalog is not changed by a key that it holds. -/
theorem insert_eq_self_iff : c.insert key = c ↔ c.contains key = true := by
  unfold insert
  constructor
  · intro h
    split at h
    · assumption
    · exact absurd (congrArg (List.length ∘ keys) h) (by simp)
  · exact fun h => if_pos h

end Catalog

/-- A compiler is not changed by a record that it knows. -/
theorem Compiler.know_eq_self_iff {c : Compiler} {key : Key} :
    c.know key = c ↔ c.catalog.contains key = true := by
  rw [← Catalog.insert_eq_self_iff]
  constructor
  · exact congrArg Compiler.catalog
  · intro h
    unfold know
    rw [h]

end Rulebook
