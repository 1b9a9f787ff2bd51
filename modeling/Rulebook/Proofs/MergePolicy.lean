import Mathlib.Data.List.Basic
import Rulebook.Proofs.Ownership

/-!
# The merge policy

What a record may contribute to a target that others contribute to is decided by
one rule of each side, the first that is fixed. So two lists of rules go
together, or *merge*, if at each target that both touch these rules are the
same, or neither has one. This is symmetric, although the ledger asks it of one
record against all that came before.

Of the ledger only the rules matter for this, and committing changes them in a
simple way: a rule that is there already does not come again, but it would not
have been the first fixed rule of anything either.
-/

namespace Rulebook

namespace Rule

variable {target : String} {rules others more : List Rule} {r : Rule}

/-- **Whether some rules contribute to a target.** -/
def Touches (target : String) (rules : List Rule) : Prop := ∃ r ∈ rules, r.target = target

/-- **The first fixed rule at a target**: the first for which the order of
contributions matters. -/
def fixed? (target : String) (rules : List Rule) : Option Rule :=
  (rules.filter (·.target == target)).find? (!·.op.isCommutative)

/-- **Whether two lists of rules may contribute to the same targets.** -/
def Merges (rules others : List Rule) : Prop :=
  ∀ target, Touches target rules → Touches target others →
    (fixed? target rules == fixed? target others) = true

theorem touches_append : Touches target (rules ++ others) ↔
    Touches target rules ∨ Touches target others := by
  unfold Touches
  rw [← exists_or]
  refine exists_congr (fun r => ?_)
  rw [List.mem_append, or_and_right]

theorem fixed?_append :
    fixed? target (rules ++ others) = (fixed? target rules).or (fixed? target others) := by
  unfold fixed?
  rw [List.filter_append, List.find?_append]

theorem mem_of_fixed? (h : fixed? target rules = some r) :
    r ∈ rules ∧ r.target = target ∧ r.op.isCommutative = false := by
  have hmem := List.mem_filter.1 (List.mem_of_find?_eq_some h)
  have hop := List.find?_some h
  exact ⟨hmem.1, beq_iff_eq.1 hmem.2, by simpa using hop⟩

/-- Rules that do not touch a target have no fixed rule there. -/
theorem fixed?_eq_none (h : ¬ Touches target rules) : fixed? target rules = none := by
  refine Option.eq_none_iff_forall_ne_some.2 (fun r hr => h ?_)
  obtain ⟨hmem, htarget, -⟩ := mem_of_fixed? hr
  exact ⟨r, hmem, htarget⟩

theorem Merges.symm (h : Merges rules others) : Merges others rules :=
  fun target hothers hrules => BEq.symm (h target hrules hothers)

/-- **Merging with two lists** that merge with each other is merging with each
of them. -/
theorem merges_append_iff (h : Merges others more) :
    Merges rules (others ++ more) ↔ Merges rules others ∧ Merges rules more := by
  constructor
  · intro hall
    refine ⟨fun target hrules hothers => ?_, fun target hrules hmore => ?_⟩
    · have hfixed := hall target hrules (touches_append.2 (.inl hothers))
      rw [fixed?_append] at hfixed
      by_cases hmore : Touches target more
      · -- at a target of both lists the first of them decides alone or not at all
        have hsame := h target hothers hmore
        cases hfirst : fixed? target others with
        | some r => rwa [hfirst, Option.some_or] at hfixed
        | none =>
          rw [hfirst] at hfixed hsame
          exact BEq.trans hfixed (BEq.symm hsame)
      · rwa [fixed?_eq_none hmore, Option.or_none] at hfixed
    · have hfixed := hall target hrules (touches_append.2 (.inr hmore))
      rw [fixed?_append] at hfixed
      by_cases hothers : Touches target others
      · have hsame := h target hothers hmore
        cases hfirst : fixed? target others with
        | some r =>
          rw [hfirst, Option.some_or] at hfixed
          exact BEq.trans hfixed (hfirst ▸ hsame)
        | none => rwa [hfirst, Option.none_or] at hfixed
      · rwa [fixed?_eq_none hothers, Option.none_or] at hfixed
  · rintro ⟨hothers, hmore⟩ target hrules htouches
    rw [fixed?_append]
    cases hfirst : fixed? target others with
    | some r =>
      obtain ⟨hmem, htarget, -⟩ := mem_of_fixed? hfirst
      rw [Option.some_or, ← hfirst]
      exact hothers target hrules ⟨r, hmem, htarget⟩
    | none =>
      rw [Option.none_or]
      by_cases htouches' : Touches target more
      · exact hmore target hrules htouches'
      · rw [fixed?_eq_none htouches', ← hfirst]
        exact hothers target hrules ((touches_append.1 htouches).resolve_right htouches')

end Rule

namespace Ledger

open Rule

/-- **The rules of a ledger**, in the order of their first commitment. -/
def rules (l : Ledger) : List Rule := l.entries.map LedgerEntry.rule

/-- The rules that some other record than the given one owns. -/
def foreignRules (l : Ledger) (key : Key) : List Rule :=
  (l.entries.filter (LedgerEntry.isForeign key)).map LedgerEntry.rule

variable {l : Ledger} {key : Key} {r : Rule} {rules : List Rule} {target : String}

/-! ## The check -/

theorem map_rule_foreign : (l.foreign key target).map LedgerEntry.rule =
    (l.foreignRules key).filter (·.target == target) := by
  unfold foreign foreignRules
  rw [List.filter_map, List.filter_filter]
  rfl

theorem foreign_eq_nil_iff : l.foreign key target = [] ↔ ¬ Touches target (l.foreignRules key) := by
  rw [← List.map_eq_nil_iff (f := LedgerEntry.rule), map_rule_foreign, List.filter_eq_nil_iff]
  unfold Touches
  simp only [beq_iff_eq, not_exists, not_and]

theorem find?_foreign : ((l.foreign key target).find? (!·.rule.op.isCommutative)).map
    LedgerEntry.rule = fixed? target (l.foreignRules key) := by
  unfold fixed?
  rw [← map_rule_foreign, List.find?_map]
  rfl

theorem mem_targets : target ∈ targets rules ↔ Touches target rules := by
  unfold targets Touches
  rw [(Text.sortOn_perm _ _).mem_iff, List.mem_eraseDups, List.mem_map]

/-- Nothing stands against rules at a target if there are no other entries or
the first fixed rules are the same. -/
theorem objection_eq_none_iff {own : List Rule} {others : List LedgerEntry} (hown : own ≠ []) :
    objection key own others = none ↔ others = [] ∨
      (own.find? (!·.op.isCommutative) ==
        (others.find? (!·.rule.op.isCommutative)).map LedgerEntry.rule) = true := by
  unfold objection
  cases others with
  | nil => exact ⟨fun _ => .inl rfl, fun _ => rfl⟩
  | cons first rest =>
    rw [or_iff_right (List.cons_ne_nil _ _)]
    cases own.find? (!·.op.isCommutative) with
    | none =>
      cases (first :: rest).find? (!·.rule.op.isCommutative) with
      | none => exact ⟨fun _ => rfl, fun _ => rfl⟩
      | some e =>
        obtain ⟨r, own, rfl⟩ := List.exists_cons_of_ne_nil hown
        exact ⟨nofun, nofun⟩
    | some r =>
      cases (first :: rest).find? (!·.rule.op.isCommutative) with
      | none => exact ⟨nofun, nofun⟩
      | some e =>
        show (if r == e.rule then none else some _) = none ↔ (r == e.rule) = true
        split
        · next h => exact ⟨fun _ => h, fun _ => rfl⟩
        · next h => exact ⟨nofun, fun h' => absurd h' h⟩

/-- **The check accepts what merges** with the rules that others own. -/
theorem check_eq_ok : l.check key rules = .ok () ↔ Merges rules (l.foreignRules key) := by
  have hcheck : l.check key rules = .ok () ↔ ∀ target ∈ targets rules,
      objection key (rules.filter (·.target == target)) (l.foreign key target) = none := by
    rw [← List.findSome?_eq_none_iff]
    unfold check
    split
    · next fault h =>
      rw [h]
      exact ⟨nofun, nofun⟩
    · next h => exact ⟨fun _ => h, fun _ => rfl⟩
  rw [hcheck]
  refine forall_congr' (fun target => ?_)
  rw [mem_targets]
  refine forall_congr' (fun htouches => ?_)
  have hown : rules.filter (·.target == target) ≠ [] := by
    obtain ⟨r, hr, htarget⟩ := htouches
    exact List.ne_nil_of_mem (List.mem_filter.2 ⟨hr, beq_iff_eq.2 htarget⟩)
  rw [objection_eq_none_iff hown, foreign_eq_nil_iff, find?_foreign, imp_iff_not_or]
  rfl

/-! ## The rules of a ledger -/

theorem fixed?_map_rule {es : List LedgerEntry} : fixed? target (es.map LedgerEntry.rule) =
    (es.find? fun e => e.rule.target == target && !e.rule.op.isCommutative).map
      LedgerEntry.rule := by
  unfold fixed?
  rw [List.filter_map, List.find?_map, List.find?_filter]
  simp only [Bool.decide_and, Bool.decide_eq_true]
  rfl

/-- What others own is the whole ledger for a record that owns nothing. -/
theorem Sound.foreignRules_eq (hl : l.Sound)
    (h : ∀ r, ¬ l.Owns key r) : l.foreignRules key = l.rules := by
  refine congrArg (List.map LedgerEntry.rule) (List.filter_eq_self.2 (fun e he => ?_))
  refine List.any_eq_true.2 ⟨e.emitter, LedgerEntry.emitter_mem_owners, bne_iff_ne.2 ?_⟩
  rintro rfl
  exact h e.rule ⟨e, he, hl.beq_self e he, LedgerEntry.emitter_mem_owners⟩

theorem map_rule_shareFirst {es : List LedgerEntry} :
    (shareFirst key r es).map LedgerEntry.rule = es.map LedgerEntry.rule := by
  induction es with
  | nil => rfl
  | cons e es ih =>
    unfold shareFirst
    split
    · rw [List.map_cons, List.map_cons, LedgerEntry.rule_share]
    · rw [List.map_cons, List.map_cons, ih]

/-- A rule comes to a ledger when it is committed for the first time. -/
theorem rules_commit :
    (l.commit key r).rules = l.rules ++ if (l.find? r).isNone then [r] else [] := by
  cases hfind : l.find? r with
  | none =>
    rw [commit_of_none hfind]
    exact List.map_append
  | some e =>
    unfold commit
    rw [hfind]
    exact map_rule_shareFirst.trans (List.append_nil _).symm

theorem touches_commit : Touches target (l.commit key r).rules ↔
    Touches target (l.rules ++ [r]) := by
  rw [rules_commit]
  cases hfind : l.find? r with
  | none => exact Iff.rfl
  | some e =>
    obtain ⟨he, her⟩ := find?_eq_some hfind
    rw [touches_append, touches_append]
    refine or_congr_right' (fun hnot => ⟨nofun, ?_⟩)
    rintro ⟨s, hs, htarget⟩
    obtain rfl := List.mem_singleton.1 hs
    exact absurd ⟨e.rule, List.mem_map_of_mem he, (target_eq_of_beq her).trans htarget⟩ hnot

/-- **A rule that is there already** is not the first fixed rule of its target. -/
theorem fixed?_commit : fixed? target (l.commit key r).rules = fixed? target (l.rules ++ [r]) := by
  rw [rules_commit]
  cases hfind : l.find? r with
  | none => rfl
  | some e =>
    obtain ⟨he, her⟩ := find?_eq_some hfind
    rw [fixed?_append, fixed?_append]
    cases hfirst : fixed? target l.rules with
    | some s => rfl
    | none =>
      -- a fixed rule with an entry at the target would have been found
      refine (Option.eq_none_iff_forall_ne_some.2 (fun s hs => ?_)).symm
      obtain ⟨hmem, htarget, hop⟩ := mem_of_fixed? hs
      obtain rfl := List.mem_singleton.1 hmem
      have hmem : e.rule ∈ l.rules.filter (·.target == target) :=
        List.mem_filter.2 ⟨List.mem_map_of_mem he,
          beq_iff_eq.2 ((target_eq_of_beq her).trans htarget)⟩
      have hnot := List.find?_eq_none.1 hfirst e.rule hmem
      rw [op_eq_of_beq her, hop] at hnot
      exact hnot rfl

/-- **What the rules of a ledger demand** after an output is committed is what
the rules before demand, and then those of the output. -/
theorem touches_commitAll : Touches target (l.commitAll key rules).1.rules ↔
    Touches target (l.rules ++ rules) := by
  induction rules generalizing l with
  | nil => rw [List.append_nil]; rfl
  | cons r rules ih =>
    rw [commitAll_cons, ih, touches_append, touches_commit, ← touches_append, List.append_assoc]
    rfl

theorem fixed?_commitAll :
    fixed? target (l.commitAll key rules).1.rules = fixed? target (l.rules ++ rules) := by
  induction rules generalizing l with
  | nil => rw [List.append_nil]; rfl
  | cons r rules ih =>
    rw [commitAll_cons, ih, fixed?_append, fixed?_commit, ← fixed?_append, List.append_assoc]
    rfl

/-- Rules merge with those of a ledger to which an output is committed if they
merge with those before and those of the output together. -/
theorem merges_commitAll {own : List Rule} :
    Merges own (l.commitAll key rules).1.rules ↔ Merges own (l.rules ++ rules) := by
  unfold Merges
  simp only [touches_commitAll, fixed?_commitAll]

end Ledger

end Rulebook
