import Mathlib.Data.List.Nodup
import Mathlib.Data.List.Pairwise
import Rulebook.Ledger
import Rulebook.Proofs.RuleEquality

/-!
# Who owns which rule

A ledger is sound if its entries are of different rules, each of which equals
itself, and no record is twice among the owners of one. Then a rule has at most
one entry, and the ledger is a relation between records and rules.

Each operation is described by what it does to that relation, and by what it
does to the *emissions*: the rules together with the records that they were
emitted under. Committing a rule adds a pair to the relation, and an emission
only if nobody owned the rule. Forgetting a record takes its pairs away; what it
had emitted goes to the next owner, and these are just the handovers.
-/

namespace Rulebook

namespace LedgerEntry

variable {key other : Key} {e f : LedgerEntry}

@[simp] theorem rule_share : (e.share key).rule = e.rule := by
  unfold share
  split <;> rfl

@[simp] theorem emitter_share : (e.share key).emitter = e.emitter := by
  unfold share
  split <;> rfl

theorem emitter_mem_owners : e.emitter ∈ e.owners := List.mem_cons_self ..

theorem mem_owners_share : other ∈ (e.share key).owners ↔ other ∈ e.owners ∨ other = key := by
  unfold share
  split
  · next h =>
    have : key ∈ e.owners := List.contains_iff_mem.1 h
    exact ⟨.inl, fun h => h.elim id (fun h => h ▸ this)⟩
  · unfold owners
    simp only [List.mem_cons, List.mem_append, List.not_mem_nil, or_false, or_assoc]

theorem nodup_owners_share (h : e.owners.Nodup) : (e.share key).owners.Nodup := by
  unfold share
  split
  · exact h
  · next hkey =>
    have hkey : key ∉ e.owners := fun hmem => hkey (List.contains_iff_mem.2 hmem)
    show (e.owners ++ [key]).Nodup
    exact h.append (List.nodup_singleton key) (List.disjoint_singleton.2 hkey)

/-- **Releasing an owner** keeps the rule and takes the owner out. -/
theorem release_eq_some : e.release key = some f ↔
    f.rule = e.rule ∧ f.owners = e.owners.erase key := by
  unfold release
  constructor
  · intro h
    split at h
    · cases h
    · next emitter sharers howners =>
      cases h
      exact ⟨rfl, howners.symm⟩
  · rintro ⟨hrule, howners⟩
    obtain ⟨rule, emitter, sharers⟩ := f
    cases hrule
    rw [← howners]
    rfl

theorem release_eq_none : e.release key = none ↔ e.owners.erase key = [] := by
  unfold release
  split <;> simp_all

/-- An entry that was emitted under another record stays emitted under it. -/
theorem emitter_of_release (h : e.release key = some f) (hne : e.emitter ≠ key) :
    f.emitter = e.emitter := by
  have howners := (release_eq_some.1 h).2
  rw [owners, owners, List.erase_cons_tail (by simpa using hne)] at howners
  exact (List.cons.inj howners).1

end LedgerEntry

namespace Ledger

open LedgerEntry

/-- **A sound ledger.** -/
structure Sound (l : Ledger) : Prop where
  /-- No two entries are of equal rules. -/
  distinct : l.entries.Pairwise fun e f => (e.rule == f.rule) = false
  /-- The rule of an entry equals itself. -/
  beq_self : ∀ e ∈ l.entries, (e.rule == e.rule) = true
  /-- No owner of an entry is there twice. -/
  nodup : ∀ e ∈ l.entries, e.owners.Nodup

/-- **Whether a record produces a rule** according to a ledger. -/
def Owns (l : Ledger) (key : Key) (r : Rule) : Prop :=
  ∃ e ∈ l.entries, (e.rule == r) = true ∧ key ∈ e.owners

/-- The owners of a rule, the one that it was emitted under first. -/
def owners (l : Ledger) (r : Rule) : List Key :=
  match l.find? r with
  | some e => e.owners
  | none => []

/-- **The rules with the records that they were emitted under.** -/
def emissions (l : Ledger) : List (Key × Rule) := l.entries.map fun e => (e.emitter, e.rule)

/-- The rules of a record that nobody owned when they were committed. -/
def fresh (l : Ledger) (key : Key) (rules : List Rule) : List Rule :=
  (l.commitAll key rules).2.filterMap fun (r, owner) => if owner.isNone then some r else none

variable {l : Ledger} {key other : Key} {r s : Rule} {rules : List Rule}

/-! ## Looking a rule up -/

theorem find?_eq_some {e : LedgerEntry} (h : l.find? r = some e) :
    e ∈ l.entries ∧ (e.rule == r) = true := by
  unfold find? at h
  exact ⟨List.mem_of_find?_eq_some h, List.find?_some (p := fun e : LedgerEntry => e.rule == r) h⟩

theorem find?_eq_none (h : l.find? r = none) : ∀ e ∈ l.entries, (e.rule == r) = false :=
  fun e he => Bool.eq_false_iff.2 (List.find?_eq_none.1 h e he)

/-- Equal rules have one entry. -/
theorem Sound.eq_of_beq (hl : l.Sound) {e f : LedgerEntry} (he : e ∈ l.entries)
    (hf : f ∈ l.entries) (h : (e.rule == f.rule) = true) : e = f := by
  by_contra hne
  have : Std.Symm fun e f : LedgerEntry => (e.rule == f.rule) = false :=
    ⟨fun a b hab => by rwa [BEq.comm]⟩
  rw [hl.distinct.forall he hf hne] at h
  cases h

/-- Any entry of a rule is the one that is found. -/
theorem Sound.find?_eq (hl : l.Sound) {e : LedgerEntry} (he : e ∈ l.entries)
    (h : (e.rule == r) = true) : l.find? r = some e := by
  cases hfind : l.find? r with
  | none =>
    rw [find?_eq_none hfind e he] at h
    cases h
  | some f =>
    obtain ⟨hf, hfr⟩ := find?_eq_some hfind
    rw [hl.eq_of_beq hf he (BEq.trans hfr (BEq.symm h))]

/-- **The owners of a rule** are the records that own it. -/
theorem Sound.mem_owners (hl : l.Sound) : key ∈ l.owners r ↔ l.Owns key r := by
  unfold owners
  constructor
  · intro h
    split at h
    · next e he =>
      obtain ⟨hmem, hr⟩ := find?_eq_some he
      exact ⟨e, hmem, hr, h⟩
    · cases h
  · rintro ⟨e, hmem, hr, h⟩
    rw [hl.find?_eq hmem hr]
    exact h

/-! ## Committing -/

/-- What committing does to an entry of a rule that is there already. -/
theorem shareFirst_eq_map {es : List LedgerEntry}
    (h : es.Pairwise fun e f => (e.rule == f.rule) = false) :
    shareFirst key r es = es.map fun e => if e.rule == r then e.share key else e := by
  induction es with
  | nil => rfl
  | cons e es ih =>
    obtain ⟨hhead, htail⟩ := List.pairwise_cons.1 h
    rw [shareFirst, List.map_cons]
    split
    · next her =>
      -- no entry after the first is of the same rule
      have hrest : ∀ f ∈ es, (if f.rule == r then f.share key else f) = f := by
        intro f hf
        rw [if_neg]
        intro hfr
        have := hhead f hf
        rw [BEq.trans her (BEq.symm hfr)] at this
        cases this
      rw [List.map_congr_left hrest, List.map_id']
    · rw [ih htail]

/-- **Committing a rule that is there** gives its entry one more owner. -/
theorem Sound.commit_of_some (hl : l.Sound) {e : LedgerEntry} (h : l.find? r = some e) :
    l.commit key r = ⟨l.entries.map fun e => if e.rule == r then e.share key else e⟩ := by
  unfold commit
  rw [h, ← shareFirst_eq_map hl.distinct]

/-- **Committing a rule that is not there** makes an entry. -/
theorem commit_of_none (h : l.find? r = none) :
    l.commit key r = ⟨l.entries ++ [⟨r, key, []⟩]⟩ := by
  unfold commit
  rw [h]

/-- Committing keeps a ledger sound. -/
theorem Sound.commit (hl : l.Sound) (hr : (r == r) = true) : (l.commit key r).Sound := by
  cases hfind : l.find? r with
  | none =>
    rw [commit_of_none hfind]
    refine ⟨?_, ?_, ?_⟩
    · refine List.pairwise_append.2 ⟨hl.distinct, List.pairwise_singleton _ _, ?_⟩
      intro e he f hf
      obtain rfl := List.mem_singleton.1 hf
      exact find?_eq_none hfind e he
    · exact List.forall_mem_append.2 ⟨hl.beq_self, List.forall_mem_singleton.2 hr⟩
    · exact List.forall_mem_append.2
        ⟨hl.nodup, List.forall_mem_singleton.2 (List.nodup_singleton key)⟩
  | some e =>
    rw [hl.commit_of_some hfind]
    have hrule (f : LedgerEntry) : (if f.rule == r then f.share key else f).rule = f.rule := by
      split
      · exact rule_share
      · rfl
    refine ⟨?_, ?_, ?_⟩
    · refine List.pairwise_map.2 (hl.distinct.imp (fun {a b} hab => ?_))
      rwa [hrule, hrule]
    · refine List.forall_mem_map.2 (fun f hf => ?_)
      rw [hrule]
      exact hl.beq_self f hf
    · refine List.forall_mem_map.2 (fun f hf => ?_)
      split
      · exact nodup_owners_share (hl.nodup f hf)
      · exact hl.nodup f hf

/-- **Committing a rule makes the record own it**, and nothing else. -/
theorem Sound.owns_commit (hl : l.Sound) :
    (l.commit key r).Owns other s ↔ l.Owns other s ∨ other = key ∧ (r == s) = true := by
  cases hfind : l.find? r with
  | none =>
    rw [commit_of_none hfind]
    constructor
    · rintro ⟨e, he, hes, hother⟩
      obtain he | he := List.mem_append.1 he
      · exact .inl ⟨e, he, hes, hother⟩
      · obtain rfl := List.mem_singleton.1 he
        exact .inr ⟨List.mem_singleton.1 hother, hes⟩
    · rintro (⟨e, he, hes, hother⟩ | ⟨rfl, hrs⟩)
      · exact ⟨e, List.mem_append_left _ he, hes, hother⟩
      · exact ⟨_, List.mem_append_right _ (List.mem_singleton.2 rfl), hrs, List.mem_singleton.2 rfl⟩
  | some found =>
    obtain ⟨hfound, hfoundr⟩ := find?_eq_some hfind
    rw [hl.commit_of_some hfind]
    constructor
    · rintro ⟨_, hmem, hes, hother⟩
      obtain ⟨e, he, rfl⟩ := List.mem_map.1 hmem
      split at hes
      · next her =>
        rw [if_pos her] at hother
        rw [rule_share] at hes
        obtain hother | rfl := mem_owners_share.1 hother
        · exact .inl ⟨e, he, hes, hother⟩
        · exact .inr ⟨rfl, BEq.trans (BEq.symm her) hes⟩
      · next her =>
        rw [if_neg her] at hother
        exact .inl ⟨e, he, hes, hother⟩
    · rintro (⟨e, he, hes, hother⟩ | ⟨rfl, hrs⟩)
      · refine ⟨_, List.mem_map.2 ⟨e, he, rfl⟩, ?_⟩
        split
        · rw [rule_share]
          exact ⟨hes, mem_owners_share.2 (.inl hother)⟩
        · exact ⟨hes, hother⟩
      · refine ⟨_, List.mem_map.2 ⟨found, hfound, rfl⟩, ?_⟩
        rw [if_pos hfoundr, rule_share]
        exact ⟨BEq.trans hfoundr hrs, mem_owners_share.2 (.inr rfl)⟩

/-- A rule is emitted when it is committed for the first time. -/
theorem Sound.emissions_commit (hl : l.Sound) : (l.commit key r).emissions =
    l.emissions ++ if (l.find? r).isNone then [(key, r)] else [] := by
  cases hfind : l.find? r with
  | none =>
    rw [commit_of_none hfind]
    exact List.map_append
  | some e =>
    rw [hl.commit_of_some hfind]
    unfold emissions
    rw [List.map_map]
    refine (List.map_congr_left (fun f _ => ?_)).trans (List.append_nil _).symm
    show ((if f.rule == r then f.share key else f).emitter,
      (if f.rule == r then f.share key else f).rule) = (f.emitter, f.rule)
    split
    · rw [emitter_share, rule_share]
    · rfl

/-! ## Committing all rules of a record -/

theorem commitAll_cons :
    (l.commitAll key (r :: rules)).1 = ((l.commit key r).commitAll key rules).1 := rfl

theorem fresh_cons : l.fresh key (r :: rules) =
    (if (l.find? r).isNone then [r] else []) ++ (l.commit key r).fresh key rules := by
  unfold fresh
  show List.filterMap _ ((r, (l.find? r).map LedgerEntry.emitter) :: _) = _
  rw [List.filterMap_cons]
  cases l.find? r <;> rfl

theorem Sound.commitAll (hl : l.Sound) (h : ∀ r ∈ rules, (r == r) = true) :
    (l.commitAll key rules).1.Sound := by
  induction rules generalizing l with
  | nil => exact hl
  | cons r rules ih =>
    obtain ⟨hr, h⟩ := List.forall_mem_cons.1 h
    exact ih (hl.commit hr) h

/-- **Committing an output makes the record own just its rules** besides what it
owned. -/
theorem Sound.owns_commitAll (hl : l.Sound) (h : ∀ r ∈ rules, (r == r) = true) :
    (l.commitAll key rules).1.Owns other s ↔
      l.Owns other s ∨ other = key ∧ ∃ r ∈ rules, (r == s) = true := by
  induction rules generalizing l with
  | nil => exact ⟨.inl, fun h => h.elim id (fun ⟨_, _, hr, _⟩ => nomatch hr)⟩
  | cons r rules ih =>
    obtain ⟨hr, h⟩ := List.forall_mem_cons.1 h
    rw [commitAll_cons, ih (hl.commit hr) h, hl.owns_commit, or_assoc, ← and_or_left]
    simp only [List.exists_mem_cons_iff]

/-- **The emissions after an output is committed**: those before, and the fresh
rules under the record. -/
theorem Sound.emissions_commitAll (hl : l.Sound) (h : ∀ r ∈ rules, (r == r) = true) :
    (l.commitAll key rules).1.emissions = l.emissions ++ (l.fresh key rules).map (key, ·) := by
  induction rules generalizing l with
  | nil => exact (List.append_nil _).symm
  | cons r rules ih =>
    obtain ⟨hr, h⟩ := List.forall_mem_cons.1 h
    rw [commitAll_cons, ih (hl.commit hr) h, hl.emissions_commit, fresh_cons, List.map_append,
      List.append_assoc]
    refine congrArg _ (congrArg (· ++ _) ?_)
    split <;> rfl

/-! ## Forgetting -/

theorem mem_forget {e : LedgerEntry} :
    e ∈ (l.forget key).entries ↔ ∃ f ∈ l.entries, f.release key = some e :=
  List.mem_filterMap

/-- Forgetting keeps a ledger sound. -/
theorem Sound.forget (hl : l.Sound) : (l.forget key).Sound := by
  refine ⟨?_, ?_, ?_⟩
  · refine List.Pairwise.filterMap _ (fun a b hab a' ha' b' hb' => ?_) hl.distinct
    rw [(release_eq_some.1 ha').1, (release_eq_some.1 hb').1]
    exact hab
  · intro e he
    obtain ⟨f, hf, hfe⟩ := mem_forget.1 he
    rw [(release_eq_some.1 hfe).1]
    exact hl.beq_self f hf
  · intro e he
    obtain ⟨f, hf, hfe⟩ := mem_forget.1 he
    rw [(release_eq_some.1 hfe).2]
    exact (hl.nodup f hf).erase key

/-- **Forgetting a record takes just its ownership away.** -/
theorem Sound.owns_forget (hl : l.Sound) :
    (l.forget key).Owns other s ↔ l.Owns other s ∧ other ≠ key := by
  constructor
  · rintro ⟨e, he, hes, hother⟩
    obtain ⟨f, hf, hfe⟩ := mem_forget.1 he
    obtain ⟨hrule, howners⟩ := release_eq_some.1 hfe
    rw [howners] at hother
    obtain ⟨hne, hother⟩ := (hl.nodup f hf).mem_erase_iff.1 hother
    exact ⟨⟨f, hf, hrule ▸ hes, hother⟩, hne⟩
  · rintro ⟨⟨f, hf, hfs, hother⟩, hne⟩
    have hother : other ∈ f.owners.erase key := (hl.nodup f hf).mem_erase_iff.2 ⟨hne, hother⟩
    cases hfe : f.release key with
    | none =>
      rw [release_eq_none.1 hfe] at hother
      cases hother
    | some e =>
      obtain ⟨hrule, howners⟩ := release_eq_some.1 hfe
      exact ⟨e, mem_forget.2 ⟨f, hf, hfe⟩, hrule ▸ hfs, howners ▸ hother⟩

/-- **The emissions after a record is forgotten**: those of the others, and the
handovers. -/
theorem emissions_forget : (l.forget key).emissions.Perm
    (l.emissions.filter (·.1 != key) ++ (l.handovers key).map fun h => (h.owner, h.rule)) := by
  have hsorted : ((l.handovers key).map fun h => (h.owner, h.rule)).Perm
      ((l.entries.filterMap (handover? key)).map fun h => (h.owner, h.rule)) :=
    (Text.sortOn_perm _ _).map _
  refine .trans ?_ (hsorted.symm.append_left _)
  unfold emissions forget
  dsimp only
  induction l.entries with
  | nil => exact .refl _
  | cons e es ih =>
    rw [List.filterMap_cons, List.filterMap_cons, List.map_cons, List.filter_cons]
    by_cases hkey : e.emitter = key
    · -- the record emitted the rule: the next owner takes it over
      have hskip : ((e.emitter, e.rule).1 != key) = false := by simpa using hkey
      have hhandover : handover? key e = (e.release key).map fun f => ⟨f.emitter, f.rule⟩ :=
        if_pos hkey
      rw [hskip, if_neg Bool.false_ne_true, hhandover]
      cases e.release key with
      | none => exact ih
      | some f => exact (ih.cons _).trans List.perm_middle.symm
    · -- another record did: the entry keeps its emitter
      have hkeep : ((e.emitter, e.rule).1 != key) = true := by simpa using hkey
      have hhandover : handover? key e = none := if_neg hkey
      rw [hkeep, if_pos rfl, hhandover]
      cases hrelease : e.release key with
      | none =>
        have hempty := release_eq_none.1 hrelease
        rw [LedgerEntry.owners, List.erase_cons_tail (by simpa using hkey)] at hempty
        cases hempty
      | some f =>
        rw [List.map_cons, emitter_of_release hrelease hkey, (release_eq_some.1 hrelease).1]
        exact ih.cons _

/-- A handover goes to another owner. -/
theorem Sound.owns_of_mem_handovers (hl : l.Sound) {h : Handover} (hh : h ∈ l.handovers key) :
    (l.forget key).Owns h.owner h.rule := by
  obtain ⟨e, he, hhe⟩ := List.mem_filterMap.1 ((Text.sortOn_perm _ _).mem_iff.1 hh)
  unfold handover? at hhe
  split at hhe
  · obtain ⟨f, hf, rfl⟩ := Option.map_eq_some_iff.1 hhe
    have hmem : f ∈ (l.forget key).entries := mem_forget.2 ⟨e, he, hf⟩
    exact ⟨f, hmem, hl.forget.beq_self f hmem, emitter_mem_owners⟩
  · cases hhe

/-- What is handed over has been emitted by the record itself. -/
theorem Sound.owns_self_of_mem_handovers (hl : l.Sound) {h : Handover}
    (hh : h ∈ l.handovers key) : l.Owns key h.rule := by
  obtain ⟨e, he, hhe⟩ := List.mem_filterMap.1 ((Text.sortOn_perm _ _).mem_iff.1 hh)
  unfold handover? at hhe
  split at hhe
  · next hkey =>
    obtain ⟨f, hf, rfl⟩ := Option.map_eq_some_iff.1 hhe
    refine ⟨e, he, ?_, hkey ▸ emitter_mem_owners⟩
    show (e.rule == f.rule) = true
    rw [(release_eq_some.1 hf).1]
    exact hl.beq_self e he
  · cases hhe

/-- Fresh rules come in the order of the rules that are committed. -/
theorem fresh_sublist : (l.fresh key rules).Sublist rules := by
  induction rules generalizing l with
  | nil => exact .refl _
  | cons r rules ih =>
    rw [fresh_cons]
    split
    · exact ih.cons_cons r
    · exact ih.cons r

theorem sound_empty : Ledger.empty.Sound :=
  ⟨List.Pairwise.nil, fun _ h => (nomatch h), fun _ h => (nomatch h)⟩

theorem not_owns_empty : ¬ Ledger.empty.Owns key r := fun ⟨_, h, _⟩ => (nomatch h)

end Ledger

end Rulebook
