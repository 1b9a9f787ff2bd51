import Rulebook.Proofs.LedgerAndBook
import Rulebook.Proofs.MergePolicy

/-!
# Shared targets have one decisive rule

The check holds the rules of a record against the ledger and not against the
outputs that the ledger was made from. It looks at one rule of each side, and
the entries that it sees have been shared, released and handed over before. Yet
the policy is kept: whatever is called, every current output merges with the
ledger. So the first fixed rule of a target, if it has one, belongs to every
record that contributes to the target.

The reason is that an entry outlives its first owner. When a record is
withdrawn, the first fixed rule of a target stays where it is as long as anybody
else contributes to the target, since everybody who does owns it.

The check does not look at fixed rules beyond the first. A record may bring a
second one, and another record may still share the first.
-/

namespace Rulebook

namespace Rule

variable {target : String} {rules others more : List Rule} {r : Rule}

theorem fixed?_eq_none_iff : fixed? target rules = none ↔
    ∀ r ∈ rules, r.target = target → r.op.isCommutative = true := by
  unfold fixed?
  rw [List.find?_eq_none]
  simp only [List.mem_filter, beq_iff_eq, and_imp, Bool.not_eq_true, Bool.not_eq_false']

theorem fixed?_singleton (hr : r.op.isCommutative = false) : fixed? r.target [r] = some r := by
  unfold fixed?
  rw [List.filter_cons, if_pos (beq_iff_eq.2 rfl), List.find?_cons, hr]
  rfl

/-- Lists that merge with a third one, which the first does not go beyond, merge
with each other. -/
theorem Merges.of_touches (hrules : Merges rules more) (hothers : Merges others more)
    (htouches : ∀ target, Touches target rules → Touches target more) : Merges rules others :=
  fun target h h' => BEq.trans (hrules target h (htouches target h))
    (BEq.symm (hothers target h' (htouches target h)))

/-- Rules that equal themselves merge with themselves. -/
theorem merges_self (h : ∀ r ∈ rules, (r == r) = true) : Merges rules rules := by
  intro target _ _
  cases hfixed : fixed? target rules with
  | none => rfl
  | some r => exact h r (mem_of_fixed? hfixed).1

end Rule

namespace LedgerEntry

/-- An entry is released for good if nobody else owns it. -/
theorem map_rule_release {e : LedgerEntry} {key : Key} (h : e.owners.Nodup) :
    (e.release key).map LedgerEntry.rule = if e.isForeign key then some e.rule else none := by
  have hforeign : e.isForeign key = true ↔ e.owners.erase key ≠ [] := by
    unfold isForeign
    rw [List.any_eq_true, Ne, List.eq_nil_iff_forall_not_mem, not_forall]
    refine exists_congr (fun owner => ?_)
    rw [not_not, h.mem_erase_iff, bne_iff_ne, and_comm]
  cases hrelease : e.release key with
  | none => rw [if_neg (fun hf => hforeign.1 hf (release_eq_none.1 hrelease))]; rfl
  | some f =>
    obtain ⟨hrule, howners⟩ := release_eq_some.1 hrelease
    have hne : e.owners.erase key ≠ [] := howners ▸ List.cons_ne_nil _ _
    rw [if_pos (hforeign.2 hne), ← hrule]
    rfl

end LedgerEntry

namespace Ledger

open Rule

variable {l : Ledger} {key other : Key} {r s : Rule} {rules : List Rule} {target : String}

/-- **What is left of a ledger** when a record is forgotten are the rules of the
others. -/
theorem Sound.rules_forget (hl : l.Sound) : (l.forget key).rules = l.foreignRules key := by
  unfold Ledger.rules Ledger.forget foreignRules
  rw [List.map_filterMap, ← List.filterMap_eq_filter, List.map_filterMap]
  refine List.filterMap_congr (fun e he => ?_)
  rw [LedgerEntry.map_rule_release (hl.nodup e he), Option.guard_apply]
  split <;> rfl

/-- Who owns a rule contributes to its target. -/
theorem Owns.touches (h : l.Owns key r) : Touches r.target l.rules := by
  obtain ⟨e, he, her, -⟩ := h
  exact ⟨e.rule, List.mem_map_of_mem he, target_eq_of_beq her⟩

/-- **The first fixed rule stays the first** while anybody else owns it. -/
theorem Sound.fixed?_forget (hl : l.Sound) (hfixed : fixed? target l.rules = some r)
    (howns : l.Owns other r) (hne : other ≠ key) :
    fixed? target (l.forget key).rules = some r := by
  rw [hl.rules_forget]
  unfold Ledger.rules at hfixed
  unfold foreignRules
  rw [fixed?_map_rule] at hfixed ⊢
  obtain ⟨e, he, rfl⟩ := Option.map_eq_some_iff.1 hfixed
  obtain ⟨hdecides, before, after, hentries, hbefore⟩ := List.find?_eq_some_iff_append.1 he
  have hforeign : e.isForeign key = true := by
    have hmem : e ∈ l.entries := List.mem_of_find?_eq_some he
    obtain ⟨f, hf, hfe, hother⟩ := howns
    obtain rfl := hl.eq_of_beq hf hmem hfe
    exact List.any_eq_true.2 ⟨other, hother, bne_iff_ne.2 hne⟩
  refine congrArg (Option.map LedgerEntry.rule) (List.find?_eq_some_iff_append.2
    ⟨hdecides, before.filter (LedgerEntry.isForeign key),
      after.filter (LedgerEntry.isForeign key), ?_, fun f hf => ?_⟩)
  · rw [hentries, List.filter_append, List.filter_cons_of_pos hforeign]
  · exact hbefore f (List.mem_filter.1 hf).1

/-- Forgetting a record does not change the first fixed rule of a target, if
there is none or somebody else owns it. -/
theorem Sound.fixed?_forget_eq (hl : l.Sound)
    (h : ∀ r, fixed? target l.rules = some r → ∃ other, other ≠ key ∧ l.Owns other r) :
    fixed? target (l.forget key).rules = fixed? target l.rules := by
  cases hfixed : fixed? target l.rules with
  | none =>
    rw [hl.rules_forget, fixed?_eq_none_iff]
    intro r hr
    refine fixed?_eq_none_iff.1 hfixed r ?_
    obtain ⟨e, he, rfl⟩ := List.mem_map.1 hr
    exact List.mem_map_of_mem (List.mem_filter.1 he).1
  | some r =>
    obtain ⟨other, hne, howns⟩ := h r hfixed
    exact hl.fixed?_forget hfixed howns hne

end Ledger

open Rule

/-! ## What a session does to the outputs -/

/-- **Induction over the outputs of a session.** A session makes records known,
takes outputs away, and brings others for records that have none. Those compile
and merge with what is there at that moment. -/
theorem Session.stage_induction {P : Stage → Prop} {settings : Settings}
    (hs : settings.validate = .ok ()) {known : List Record}
    (hstart : P (start settings known).stage)
    (hknow : ∀ t key, P t → P (t.know key))
    (hwithdraw : ∀ t key, InStep t.compiler t.book t.current → P t → P (t.withdraw key))
    (hemit : ∀ t (record : Record) o, InStep t.compiler t.book t.current → P t →
      t.current record.key = none → record.compile t.compiler.context = .ok o →
      Merges o.rules t.compiler.ledger.rules → P (t.emit record.key o))
    (calls : List Call) : P ((start settings known).run calls).stage := by
  have hprepare : ∀ {c : Compiler} {record : Record} {o : Output},
      (c.know record.key).prepare record = .ok o →
        record.compile (c.know record.key).context = .ok o ∧
          Merges o.rules (c.ledger.foreignRules record.key) := by
    intro c record o ho
    obtain ⟨hcompile, hcheck⟩ := Compiler.prepare_eq_ok.1 ho
    exact ⟨Outcome.mapError_eq_ok.1 hcompile, Ledger.check_eq_ok.1 hcheck⟩
  have hrun := run_induction
    (P := fun s => InStep s.compiler s.book s.current ∧ P s.stage) (s := start settings known)
    (fun s record h => ⟨inStep_register h.1 record, ?_⟩)
    (fun s record h => ⟨inStep_recompile h.1 record, ?_⟩) ⟨inStep_start hs known, hstart⟩ calls
  · exact hrun.2
  · obtain ⟨hstep, hP⟩ := h
    obtain ⟨-, -, heq⟩ | ⟨-, -, heq⟩ | ⟨hnew, o, ho, heq⟩ := s.stage_register_cases record
    · rw [heq]
      exact hP
    · rw [heq]
      exact hknow _ _ hP
    · obtain ⟨hcompile, hmerges⟩ := hprepare ho
      -- a record that is not registered owns nothing that it could be excused for
      rw [hstep.sound.foreignRules_eq (fun r hr => hnew (hstep.mem_registered hr))] at hmerges
      rw [heq]
      exact hemit _ record o hstep.know (hknow _ _ hP) (hstep.current_eq_none hnew) hcompile
        hmerges
  · obtain ⟨hstep, hP⟩ := h
    obtain ⟨-, -, heq⟩ | ⟨o, ho, heq⟩ := s.stage_recompile_cases record
    · rw [heq]
      exact hknow _ _ hP
    · obtain ⟨hcompile, hmerges⟩ := hprepare ho
      -- the check has passed over just what is gone when the record is withdrawn
      rw [← hstep.sound.rules_forget] at hmerges
      have hknown : InStep (s.compiler.know record.key) s.book s.current := hstep.know
      rw [heq]
      exact hemit _ record o hknown.withdraw (hwithdraw _ _ hknown (hknow _ _ hP))
        (Function.update_self ..) hcompile hmerges

/-! ## Outputs and the ledger -/

/-- **A stage whose outputs merge with the ledger.** -/
def Stage.Settled (t : Stage) : Prop :=
  ∀ key, ∀ o ∈ t.current key, Merges o.rules t.compiler.ledger.rules

/-- A current output does not go beyond the ledger. -/
theorem InStep.touches {c : Compiler} {b : Book} {current : Key → Option Output}
    (h : InStep c b current) {key : Key} {o : Output} (ho : o ∈ current key) {target : String}
    (htouches : Touches target o.rules) : Touches target c.ledger.rules := by
  obtain ⟨r, hr, rfl⟩ := htouches
  exact ((h.owns key r).2 ⟨o, ho, r, hr, h.beq_self key o ho r hr⟩).touches

/-- The record of an output that merges with the ledger owns the first fixed
rule of the targets that it contributes to. -/
theorem InStep.owns_of_merges {c : Compiler} {b : Book} {current : Key → Option Output}
    (h : InStep c b current) {key : Key} {o : Output} (ho : o ∈ current key)
    (hmerges : Merges o.rules c.ledger.rules) {target : String}
    (htouches : Touches target o.rules) {r : Rule}
    (hfixed : fixed? target c.ledger.rules = some r) : c.ledger.Owns key r := by
  have hsame := hmerges target htouches (h.touches ho htouches)
  rw [hfixed] at hsame
  cases hown : fixed? target o.rules with
  | none =>
    rw [hown] at hsame
    cases hsame
  | some s =>
    rw [hown] at hsame
    exact (h.owns key r).2 ⟨o, ho, s, (mem_of_fixed? hown).1, hsame⟩

namespace Stage

variable {t : Stage} {key : Key} {o : Output}

/-- While anybody else contributes to a target, its first fixed rule stays. -/
theorem Settled.fixed?_forget (hsettled : t.Settled) (h : InStep t.compiler t.book t.current)
    {other : Key} (ho : o ∈ t.current other) (hne : other ≠ key) {target : String}
    (htouches : Touches target o.rules) :
    fixed? target (t.compiler.ledger.forget key).rules = fixed? target t.compiler.ledger.rules :=
  h.sound.fixed?_forget_eq
    (fun _ hr => ⟨other, hne, h.owns_of_merges ho (hsettled other o ho) htouches hr⟩)

/-- **Withdrawing a record** leaves the outputs of the others merging. -/
theorem Settled.withdraw (hsettled : t.Settled) (h : InStep t.compiler t.book t.current) :
    (t.withdraw key).Settled := by
  intro other o ho target htouches hleft
  obtain ⟨hne, ho⟩ := mem_update_none.1 ho
  show (fixed? target o.rules == fixed? target (t.compiler.ledger.forget key).rules) = true
  rw [hsettled.fixed?_forget h ho hne htouches]
  exact hsettled other o ho target htouches (h.touches ho htouches)

/-- **Without its own entries** the ledger decides about a record as before. -/
theorem Settled.merges_foreign (hsettled : t.Settled) (h : InStep t.compiler t.book t.current)
    (ho : o ∈ t.current key) : Merges o.rules (t.compiler.ledger.foreignRules key) := by
  rw [← h.sound.rules_forget]
  rintro target htouches ⟨r, hr, rfl⟩
  -- what is left at the target belongs to another record
  obtain ⟨e, he, rfl⟩ := List.mem_map.1 hr
  have hleft : (t.compiler.ledger.forget key).Owns e.emitter e.rule :=
    ⟨e, he, h.sound.forget.beq_self e he, LedgerEntry.emitter_mem_owners⟩
  obtain ⟨howns, hne⟩ := h.sound.owns_forget.1 hleft
  obtain ⟨o', ho', s, hs, hse⟩ := (h.owns e.emitter e.rule).1 howns
  rw [hsettled.fixed?_forget h ho' hne ⟨s, hs, target_eq_of_beq hse⟩]
  exact hsettled key o ho _ htouches (h.touches ho htouches)

/-- **Emitting an output** that merges with what is there. -/
theorem Settled.emit (hsettled : t.Settled) (h : InStep t.compiler t.book t.current)
    (hmerges : Merges o.rules t.compiler.ledger.rules) (ho : ∀ r ∈ o.rules, (r == r) = true) :
    (t.emit key o).Settled := by
  intro other o' ho'
  refine Ledger.merges_commitAll.2 ((merges_append_iff hmerges.symm).2 ?_)
  obtain ⟨-, rfl⟩ | ⟨-, ho'⟩ := mem_update_some.1 ho'
  · exact ⟨hmerges, merges_self ho⟩
  · have hmerges' := hsettled other o' ho'
    exact ⟨hmerges', hmerges'.of_touches hmerges (fun _ => h.touches ho')⟩

end Stage

namespace Session

variable {settings : Settings}

/-- **Every current output merges with the ledger**, whatever is called. -/
theorem settled_run (hs : settings.validate = .ok ()) (known : List Record) (calls : List Call) :
    ((start settings known).run calls).stage.Settled := by
  refine stage_induction (P := Stage.Settled) hs ?_ ?_ ?_ ?_ calls
  · exact fun _ _ ho => nomatch ho
  · exact fun _ _ hsettled => hsettled
  · exact fun _ _ h hsettled => hsettled.withdraw h
  · intro t record o h hsettled _ hcompile hmerges
    have hself := @Record.beq_self_of_compile t.compiler.context h.valid record o hcompile
    exact hsettled.emit h hmerges hself

/-- **Merge safety.** Whoever contributes to a target with a fixed rule owns the
first one, and so do all others who contribute to it. -/
theorem owns_fixed_run (hs : settings.validate = .ok ()) (known : List Record)
    (calls : List Call) {target : String} {r s : Rule} {key : Key}
    (hfixed : fixed? target ((start settings known).run calls).compiler.ledger.rules = some r)
    (howns : ((start settings known).run calls).compiler.ledger.Owns key s)
    (htarget : s.target = target) :
    ((start settings known).run calls).compiler.ledger.Owns key r := by
  have h := inStep_run hs known calls
  obtain ⟨o, ho, t, ht, hts⟩ := (h.owns key s).1 howns
  have htouches : Touches target o.rules := ⟨t, ht, (target_eq_of_beq hts).trans htarget⟩
  exact h.owns_of_merges ho (settled_run hs known calls key o ho) htouches hfixed

end Session

/-! ## What the check does not see -/

/-- **The check looks at the first fixed rule only.** If a record brings another
rule after it to the target, a second record may share the first alone, although
the second rule may be fixed as well. -/
theorem Ledger.owns_first_alone {key other : Key} (hne : other ≠ key) {r s : Rule}
    (hr : (r == r) = true) (hs : (s == s) = true) (hrs : (r == s) = false)
    (hfixed : r.op.isCommutative = false) :
    (Ledger.empty.commitAll key [r, s]).1.check other [r] = .ok () ∧
      ((Ledger.empty.commitAll key [r, s]).1.commitAll other [r]).1.Owns other r ∧
      ((Ledger.empty.commitAll key [r, s]).1.commitAll other [r]).1.Owns key s ∧
      ¬ ((Ledger.empty.commitAll key [r, s]).1.commitAll other [r]).1.Owns other s := by
  have hself : ∀ t ∈ [r, s], (t == t) = true :=
    List.forall_mem_cons.2 ⟨hr, List.forall_mem_singleton.2 hs⟩
  have hself' : ∀ t ∈ [r], (t == t) = true := List.forall_mem_singleton.2 hr
  have hsound : (Ledger.empty.commitAll key [r, s]).1.Sound := sound_empty.commitAll hself
  have howns : ∀ t, ¬ (Ledger.empty.commitAll key [r, s]).1.Owns other t := by
    intro t ht
    rw [sound_empty.owns_commitAll hself] at ht
    exact ht.elim not_owns_empty (fun h => hne h.1)
  refine ⟨?_, ?_, ?_, ?_⟩
  · rw [check_eq_ok, hsound.foreignRules_eq howns, merges_commitAll]
    rintro target ⟨t, ht, rfl⟩ -
    obtain rfl := List.mem_singleton.1 ht
    show (fixed? t.target [t] == fixed? t.target ([t] ++ [s])) = true
    rw [fixed?_append, fixed?_singleton hfixed, Option.some_or]
    exact hr
  · exact (hsound.owns_commitAll hself').2 (.inr ⟨rfl, r, List.mem_singleton.2 rfl, hr⟩)
  · refine (hsound.owns_commitAll hself').2 (.inl ((sound_empty.owns_commitAll hself).2 ?_))
    exact .inr ⟨rfl, s, List.mem_cons_of_mem _ (List.mem_singleton.2 rfl), hs⟩
  · rw [hsound.owns_commitAll hself']
    rintro (h | ⟨-, t, ht, hts⟩)
    · exact howns s h
    · obtain rfl := List.mem_singleton.1 ht
      rw [hrs] at hts
      cases hts

end Rulebook
