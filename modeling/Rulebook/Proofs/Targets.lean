import Rulebook.Proofs.Chapters
import Rulebook.Proofs.MergePolicy

/-!
# One target at a time

The ledger is one list, but nothing that happens at a target depends on what
happens at another. So the entries of one target make a small ledger of their
own. Committing and forgetting can be followed there, with the entries in their
order, and so can the handovers, although these are sorted by their targets.

The book keeps rules by record and not by target. What it shows at one target is
its emissions there, again in their order. Handing a rule over puts it behind all
that the record shows at the target, if nobody else shows anything there.
-/

namespace Rulebook

namespace Ledger

/-- **The part of a ledger at one target.** -/
def atTarget (l : Ledger) (target : String) : Ledger :=
  ⟨l.entries.filter (·.rule.target == target)⟩

variable {l : Ledger} {key other : Key} {r s : Rule} {rules : List Rule} {target : String}

theorem mem_atTarget {e : LedgerEntry} :
    e ∈ (l.atTarget target).entries ↔ e ∈ l.entries ∧ e.rule.target = target := by
  rw [atTarget, List.mem_filter, beq_iff_eq]

/-- A rule is owned at its own target. -/
theorem owns_atTarget : (l.atTarget r.target).Owns key r ↔ l.Owns key r := by
  constructor
  · rintro ⟨e, he, her, hkey⟩
    exact ⟨e, (mem_atTarget.1 he).1, her, hkey⟩
  · rintro ⟨e, he, her, hkey⟩
    exact ⟨e, mem_atTarget.2 ⟨he, Rule.target_eq_of_beq her⟩, her, hkey⟩

theorem rules_atTarget : (l.atTarget target).rules = l.rules.filter (·.target == target) := by
  unfold Ledger.rules atTarget
  rw [List.filter_map]
  rfl

/-- The first fixed rule at a target is found there. -/
theorem fixed?_atTarget :
    Rule.fixed? target (l.atTarget target).rules = Rule.fixed? target l.rules := by
  unfold Rule.fixed?
  rw [rules_atTarget, List.filter_filter]
  simp only [Bool.and_self]

/-! ## Committing -/

theorem find?_atTarget : (l.atTarget r.target).find? r = l.find? r := by
  have htest : ∀ e : LedgerEntry,
      decide ((e.rule.target == r.target) = true ∧ (e.rule == r) = true) = (e.rule == r) := by
    intro e
    rw [Bool.eq_iff_iff, decide_eq_true_iff]
    exact and_iff_right_of_imp (fun her => beq_iff_eq.2 (Rule.target_eq_of_beq her))
  unfold find? atTarget
  rw [List.find?_filter]
  simp only [htest]

theorem filter_shareFirst {es : List LedgerEntry} :
    (shareFirst key r es).filter (·.rule.target == target) =
      if r.target = target then shareFirst key r (es.filter (·.rule.target == target))
      else es.filter (·.rule.target == target) := by
  induction es with
  | nil => exact (ite_self []).symm
  | cons e es ih =>
    rw [shareFirst]
    by_cases her : (e.rule == r) = true
    · rw [if_pos her, List.filter_cons, List.filter_cons, LedgerEntry.rule_share,
        Rule.target_eq_of_beq her]
      by_cases htarget : r.target = target
      · rw [if_pos htarget, if_pos (beq_iff_eq.2 htarget), if_pos (beq_iff_eq.2 htarget),
          shareFirst, if_pos her]
      · rw [if_neg htarget, if_neg (mt beq_iff_eq.1 htarget), if_neg (mt beq_iff_eq.1 htarget)]
    · rw [if_neg her, List.filter_cons, List.filter_cons, ih]
      by_cases he : (e.rule.target == target) = true
      · rw [if_pos he, if_pos he, shareFirst, if_neg her]
        split <;> rfl
      · rw [if_neg he, if_neg he]

/-- **Committing a rule** touches its own target only. -/
theorem atTarget_commit : (l.commit key r).atTarget target =
    if r.target = target then (l.atTarget target).commit key r else l.atTarget target := by
  cases hfind : l.find? r with
  | none =>
    rw [commit_of_none hfind, atTarget, List.filter_append]
    by_cases htarget : r.target = target
    · subst htarget
      rw [if_pos rfl, List.filter_cons, if_pos (beq_iff_eq.2 rfl),
        commit_of_none (find?_atTarget.trans hfind)]
      rfl
    · rw [if_neg htarget, List.filter_cons, if_neg (mt beq_iff_eq.1 htarget), List.filter_nil,
        List.append_nil]
      rfl
  | some e =>
    have hcommit : l.commit key r = ⟨shareFirst key r l.entries⟩ := by
      unfold commit
      rw [hfind]
    rw [hcommit, atTarget, filter_shareFirst]
    by_cases htarget : r.target = target
    · subst htarget
      unfold commit
      rw [if_pos rfl, if_pos rfl, find?_atTarget, hfind]
      rfl
    · rw [if_neg htarget, if_neg htarget]
      rfl

/-- **Committing an output** commits to each target what belongs there. -/
theorem atTarget_commitAll : (l.commitAll key rules).1.atTarget target =
    ((l.atTarget target).commitAll key (rules.filter (·.target == target))).1 := by
  induction rules generalizing l with
  | nil => rfl
  | cons r rules ih =>
    rw [commitAll_cons, ih, atTarget_commit, List.filter_cons]
    by_cases htarget : r.target = target
    · rw [if_pos htarget, if_pos (beq_iff_eq.2 htarget), commitAll_cons]
    · rw [if_neg htarget, if_neg (mt beq_iff_eq.1 htarget)]

/-- What is fresh at a target is fresh in its part of the ledger. -/
theorem filter_fresh : (l.fresh key rules).filter (·.target == target) =
    (l.atTarget target).fresh key (rules.filter (·.target == target)) := by
  induction rules generalizing l with
  | nil => rfl
  | cons r rules ih =>
    rw [fresh_cons, List.filter_append, ih, atTarget_commit, List.filter_cons]
    by_cases htarget : r.target = target
    · subst htarget
      rw [if_pos rfl, if_pos (beq_iff_eq.2 rfl), fresh_cons, find?_atTarget]
      refine congrArg (· ++ _) ?_
      split
      · exact List.filter_cons_of_pos (beq_iff_eq.2 rfl)
      · rfl
    · rw [if_neg htarget, if_neg (mt beq_iff_eq.1 htarget)]
      refine (congrArg (· ++ _) ?_).trans (List.nil_append _)
      split
      · exact List.filter_cons_of_neg (mt beq_iff_eq.1 htarget)
      · rfl

/-! ## Forgetting -/

/-- **Forgetting a record** goes on at each target by itself. -/
theorem atTarget_forget : (l.forget key).atTarget target = (l.atTarget target).forget key := by
  unfold atTarget forget
  dsimp only
  rw [List.filter_filterMap, List.filterMap_filter]
  refine congrArg Ledger.mk (List.filterMap_congr (fun e _ => ?_))
  cases hrelease : e.release key with
  | none => exact (ite_self none).symm
  | some f =>
    rw [← (LedgerEntry.release_eq_some.1 hrelease).1, Option.filter_some]

/-- **The handovers at a target** are in the order of its entries. -/
theorem filter_handovers : (l.handovers key).filter (·.rule.target == target) =
    (l.atTarget target).entries.filterMap (handover? key) := by
  unfold handovers atTarget
  dsimp only
  rw [Text.filter_sortOn, List.filter_filterMap, List.filterMap_filter]
  refine List.filterMap_congr (fun e _ => ?_)
  cases hhandover : handover? key e with
  | none => exact (ite_self none).symm
  | some h =>
    have hrule : h.rule = e.rule := by
      unfold handover? at hhandover
      split at hhandover
      · obtain ⟨f, hf, rfl⟩ := Option.map_eq_some_iff.1 hhandover
        exact (LedgerEntry.release_eq_some.1 hf).1
      · cases hhandover
    rw [← hrule, Option.filter_some]

end Ledger

namespace Book

/-! ## The book at a target -/

/-- **What a book shows at a target**: the rules there, with the records that
they stand under. -/
def emissionsAt (b : Book) (target : String) : List (Option Key × Rule) :=
  b.emissions.filter (·.2.target == target)

variable {b : Book} {key : Key} {r : Rule} {target : String}

theorem rulesFor_eq : b.rulesFor target = (b.emissionsAt target).map Prod.snd := by
  unfold rulesFor emissionsAt
  rw [← map_snd_emissions, List.filter_map]
  rfl

theorem emissionsAt_retract :
    (b.retract key).emissionsAt target = (b.emissionsAt target).filter (·.1 != some key) := by
  unfold emissionsAt
  rw [emissions_retract, List.filter_filter, List.filter_filter]
  simp only [Bool.and_comm]

/-- Chapters of other records show nothing at a target where only one record
shows anything. -/
theorem filter_emissions_eq_nil {cs : List Chapter}
    (hother : ∀ c ∈ cs, c.record ≠ some key)
    (honly : ∀ e ∈ (cs.flatMap Chapter.emissions).filter (·.2.target == target), e.1 = some key) :
    (cs.flatMap Chapter.emissions).filter (·.2.target == target) = [] := by
  refine List.eq_nil_iff_forall_not_mem.2 (fun e he => ?_)
  obtain ⟨c, hc, hec⟩ := List.mem_flatMap.1 (List.mem_filter.1 he).1
  obtain ⟨r, -, rfl⟩ := List.mem_map.1 hec
  exact hother c hc (honly _ he)

/-- A rule that is put into a chapter comes behind all that is shown at its
target, if only the record of the chapter shows anything there. -/
theorem filter_emissions_addRule {before after : List Chapter} {c : Chapter}
    (hrecord : c.record = some key) (hnodup : ((before ++ c :: after).map Chapter.record).Nodup)
    (honly : r.target = target →
      ∀ e ∈ ((before ++ c :: after).flatMap Chapter.emissions).filter (·.2.target == target),
        e.1 = some key) :
    ((before ++ c.addRule r :: after).flatMap Chapter.emissions).filter (·.2.target == target) =
      ((before ++ c :: after).flatMap Chapter.emissions).filter (·.2.target == target) ++
        [(some key, r)].filter (·.2.target == target) := by
  simp only [List.flatMap_append, List.flatMap_cons, Chapter.emissions_addRule hrecord,
    List.filter_append, List.append_assoc, List.forall_mem_append] at honly ⊢
  by_cases htarget : r.target = target
  · -- the record has no other chapter, so nothing comes after this one
    rw [List.map_append, List.nodup_append, List.map_cons, List.nodup_cons] at hnodup
    have hnil := filter_emissions_eq_nil (fun d hd heq =>
      hnodup.2.1.1 (hrecord.trans heq.symm ▸ List.mem_map_of_mem hd)) (honly htarget).2.2
    rw [hnil, List.append_nil, List.nil_append]
  · rw [List.filter_cons, if_neg (mt beq_iff_eq.1 htarget), List.filter_nil, List.append_nil,
      List.nil_append]

/-- **Handovers at a target** where only one record shows anything come behind
what it shows, if all of them go to this record. -/
theorem emissionsAt_handovers {hs : List Handover}
    (hchapters : ∀ h ∈ hs, some h.owner ∈ b.headings.map Prod.fst)
    (hnodup : (b.headings.map Prod.fst).Nodup)
    (honly : ∀ e ∈ b.emissionsAt target, e.1 = some key)
    (howner : ∀ h ∈ hs, h.rule.target = target → h.owner = key) :
    (b.applyAll (hs.flatMap Compiler.handoverEdits)).emissionsAt target =
      b.emissionsAt target ++
        (hs.filter (·.rule.target == target)).map fun h => (some h.owner, h.rule) := by
  induction hs generalizing b with
  | nil => exact (List.append_nil _).symm
  | cons h hs ih =>
    obtain ⟨hhead, htail⟩ := List.forall_mem_cons.1 hchapters
    obtain ⟨hownerHead, hownerTail⟩ := List.forall_mem_cons.1 howner
    have hrecords : b.headings.map Prod.fst = b.chapters.map Chapter.record := List.map_map
    have hheadings : (b.applyAll ([h].flatMap Compiler.handoverEdits)).headings = b.headings :=
      (applyAll_handovers (List.forall_mem_singleton.2 hhead)).1
    have hstep : (b.applyAll (Compiler.handoverEdits h)).emissionsAt target =
        b.emissionsAt target ++ [(some h.owner, h.rule)].filter (·.2.target == target) := by
      obtain ⟨before, c, after, hchapters, hrecord, -, hafter⟩ :=
        chapters_applyAll_handoverEdits (exists_isOf_iff.2 hhead)
      rw [hrecords] at hnodup
      unfold emissionsAt emissions at honly ⊢
      rw [hchapters] at hnodup honly ⊢
      rw [hafter]
      refine filter_emissions_addRule hrecord hnodup fun htarget => ?_
      rw [hownerHead htarget]
      exact honly
    rw [List.flatMap_singleton] at hheadings
    rw [List.flatMap_cons, applyAll_append,
      ih (hheadings ▸ htail) (hheadings ▸ hnodup) ?_ hownerTail, hstep, List.append_assoc]
    · rw [List.filter_cons, List.filter_cons]
      split <;> rfl
    · rw [hstep, List.forall_mem_append]
      refine ⟨honly, fun e he => ?_⟩
      obtain ⟨hmem, htarget⟩ := List.mem_filter.1 he
      obtain rfl := List.mem_singleton.1 hmem
      exact congrArg some (hownerHead (beq_iff_eq.1 htarget))

end Book

end Rulebook
