import Rulebook.Proofs.Recompilation
import Rulebook.Proofs.Targets
import Rulebook.Proofs.TotalRules

/-!
# The totals of saving throws stay intact

As long as there is a class, each total of a saving throw has its two rules in
the book, once each, the first before the second, and both under one class.

What keeps features and goodies off is that the first of the two rules is fixed
and that only classes bring it. A class is refused if anything contributed to
the total before it, and anything else is refused if a class did.

The class under which the two rules stand may be recompiled at any time. All
classes own both rules, and they came to them in the same order. So the next
owner of one is the next owner of the other, and the rules are handed over one
behind the other.
-/

namespace Rulebook

open Compile Rule

variable {category : String} {key other : Key} {rules others : List Rule}

namespace Compile

theorem beq_baseRule {r : Rule} (h : (r == baseRule category) = true) : r = baseRule category := by
  obtain ⟨target, source, op, formula⟩ := r
  change Rule.same _ _ = true at h
  unfold Rule.same at h
  simp only [Bool.and_eq_true, beq_iff_eq] at h
  obtain ⟨⟨⟨rfl, rfl⟩, rfl⟩, hformula⟩ := h
  cases formula with
  | none => rfl
  | some f => exact nomatch hformula

theorem baseRule_beq_self : (baseRule category == baseRule category) = true :=
  Proper.passthrough.beq_self

theorem adjustmentRule_beq_self : (adjustmentRule category == adjustmentRule category) = true :=
  Proper.passthrough.beq_self

theorem baseRule_beq_adjustmentRule : (baseRule category == adjustmentRule category) = false :=
  Bool.eq_false_iff.2 (fun h => nomatch op_eq_of_beq h)

theorem fixed?_totalRules :
    fixed? (member "save" category) (totalRules category) = some (baseRule category) := by
  have hsingle : fixed? (member "save" category) [baseRule category] = some (baseRule category) :=
    fixed?_singleton rfl
  show fixed? _ ([baseRule category] ++ [adjustmentRule category]) = _
  rw [fixed?_append, hsingle, Option.some_or]

/-- What merges with the first rule of a total, and touches the total, has this
rule. -/
theorem baseRule_mem_of_merges (hmerges : Merges rules others)
    (htouches : Touches (member "save" category) rules)
    (hfixed : fixed? (member "save" category) others = some (baseRule category)) :
    baseRule category ∈ rules := by
  obtain ⟨hmem, htarget, -⟩ := mem_of_fixed? hfixed
  have hsame := hmerges _ htouches ⟨_, hmem, htarget⟩
  rw [hfixed] at hsame
  cases hown : fixed? (member "save" category) rules with
  | none =>
    rw [hown] at hsame
    cases hsame
  | some r =>
    rw [hown] at hsame
    rw [← beq_baseRule hsame]
    exact (mem_of_fixed? hown).1

end Compile

/-! ## The two entries of a total -/

namespace Ledger

/-- **A ledger of the two rules of a total**, which have the same owners. -/
def total (category : String) (emitter : Key) (sharers : List Key) : Ledger :=
  ⟨[⟨baseRule category, emitter, sharers⟩, ⟨adjustmentRule category, emitter, sharers⟩]⟩

variable {emitter : Key} {sharers : List Key}

theorem mem_owners_of_owns_total {r : Rule} (h : (total category emitter sharers).Owns key r) :
    key ∈ emitter :: sharers := by
  obtain ⟨e, he, -, hkey⟩ := h
  obtain rfl | he := List.mem_cons.1 he
  · exact hkey
  · obtain rfl := List.mem_singleton.1 he
    exact hkey

/-- The first class makes the two entries. -/
theorem commitAll_empty : (empty.commitAll key (totalRules category)).1 = total category key [] ∧
    empty.fresh key (totalRules category) = totalRules category := by
  have hbase : empty.commit key (baseRule category) = ⟨[⟨baseRule category, key, []⟩]⟩ :=
    commit_of_none rfl
  have hfind : find? ⟨[⟨baseRule category, key, []⟩]⟩ (adjustmentRule category) = none := by
    unfold find?
    rw [List.find?_cons, baseRule_beq_adjustmentRule]
    rfl
  constructor
  · rw [totalRules, commitAll_cons, hbase, commitAll_cons, commit_of_none hfind]
    rfl
  · rw [totalRules, fresh_cons, hbase, fresh_cons, hfind]
    rfl

/-- Another class joins both. -/
theorem exists_commitAll_total (category : String) (key emitter : Key) (sharers : List Key) :
    ∃ more, ((total category emitter sharers).commitAll key (totalRules category)).1 =
      total category emitter more ∧
    (total category emitter sharers).fresh key (totalRules category) = [] := by
  obtain ⟨more, hshare⟩ : ∃ more, ∀ r : Rule,
      LedgerEntry.share key ⟨r, emitter, sharers⟩ = ⟨r, emitter, more⟩ := by
    by_cases hkey : (emitter :: sharers).contains key = true
    · exact ⟨sharers, fun _ => if_pos hkey⟩
    · exact ⟨sharers ++ [key], fun _ => if_neg hkey⟩
  have hbase : (total category emitter sharers).find? (baseRule category) =
      some ⟨baseRule category, emitter, sharers⟩ := by
    unfold find? total
    rw [List.find?_cons, baseRule_beq_self]
  have hcommit : (total category emitter sharers).commit key (baseRule category) =
      ⟨[⟨baseRule category, emitter, more⟩, ⟨adjustmentRule category, emitter, sharers⟩]⟩ := by
    unfold commit
    rw [hbase]
    unfold total
    dsimp only
    rw [shareFirst, if_pos baseRule_beq_self, hshare]
  have hadjustment : find? ⟨[⟨baseRule category, emitter, more⟩,
      ⟨adjustmentRule category, emitter, sharers⟩]⟩ (adjustmentRule category) =
        some ⟨adjustmentRule category, emitter, sharers⟩ := by
    unfold find?
    rw [List.find?_cons, baseRule_beq_adjustmentRule, List.find?_cons, adjustmentRule_beq_self]
  refine ⟨more, ?_, ?_⟩
  · rw [totalRules, commitAll_cons, hcommit, commitAll_cons]
    unfold commit
    rw [hadjustment]
    dsimp only
    rw [shareFirst, if_neg (ne_true_of_eq_false baseRule_beq_adjustmentRule), shareFirst,
      if_pos adjustmentRule_beq_self, hshare]
    rfl
  · rw [totalRules, fresh_cons, hbase, hcommit, fresh_cons, hadjustment]
    rfl

/-- **The next owner takes both rules over**, in order. -/
theorem forget_total_emitter (category : String) (key next : Key) (rest : List Key) :
    (total category key (next :: rest)).forget key = total category next rest ∧
      (total category key (next :: rest)).entries.filterMap (handover? key) =
        (totalRules category).map (⟨next, ·⟩) := by
  have hrelease : ∀ r : Rule,
      LedgerEntry.release key ⟨r, key, next :: rest⟩ = some ⟨r, next, rest⟩ := fun r =>
    LedgerEntry.release_eq_some.2 ⟨rfl, (List.erase_cons_head ..).symm⟩
  have hhandover : ∀ r : Rule, handover? key ⟨r, key, next :: rest⟩ = some ⟨next, r⟩ := by
    intro r
    unfold handover?
    rw [if_pos rfl, hrelease]
    rfl
  constructor
  · simp only [forget, total, List.filterMap_cons, hrelease, List.filterMap_nil]
  · simp only [total, totalRules, List.filterMap_cons, hhandover, List.filterMap_nil,
      List.map_cons, List.map_nil]

/-- Nothing is handed over if another class emitted the rules. -/
theorem forget_total_sharer (category : String) (sharers : List Key) (h : emitter ≠ key) :
    (total category emitter sharers).forget key = total category emitter (sharers.erase key) ∧
      (total category emitter sharers).entries.filterMap (handover? key) = [] := by
  have hrelease : ∀ r : Rule, LedgerEntry.release key ⟨r, emitter, sharers⟩ =
      some ⟨r, emitter, sharers.erase key⟩ := fun r =>
    LedgerEntry.release_eq_some.2 ⟨rfl, (List.erase_cons_tail (mt beq_iff_eq.1 h)).symm⟩
  have hhandover : ∀ r : Rule, handover? key ⟨r, emitter, sharers⟩ = none := fun r => if_neg h
  constructor
  · simp only [forget, total, List.filterMap_cons, hrelease, List.filterMap_nil]
  · simp only [total, List.filterMap_cons, hhandover, List.filterMap_nil]

end Ledger

/-! ## What a step preserves -/

namespace InStep

variable {c : Compiler} {b : Book} {current : Key → Option Output} {o : Output} {target : String}

/-- **What a book shows at a target** once a record is withdrawn, if one record
has taken over all that is left there. -/
theorem emissionsAt_withdraw (h : InStep c b current) (heir : Key)
    (honly : ∀ e ∈ (b.emissionsAt target).filter (·.1 != some key), e.1 = some heir)
    (howner : ∀ hand ∈ (c.ledger.atTarget target).entries.filterMap (Ledger.handover? key),
      hand.owner = heir) :
    (b.applyAll (c.withdraw key).2.edits).emissionsAt target =
      (b.emissionsAt target).filter (·.1 != some key) ++
        ((c.ledger.atTarget target).entries.filterMap (Ledger.handover? key)).map
          fun hand => (some hand.owner, hand.rule) := by
  rw [← Book.emissionsAt_retract] at honly ⊢
  have hnodup : ((b.retract key).headings.map Prod.fst).Nodup := by
    rw [Book.headings_retract]
    exact h.nodup_headings.sublist (List.filter_sublist.map _)
  rw [← Ledger.filter_handovers] at howner ⊢
  exact Book.emissionsAt_handovers (fun _ hhand => h.owner_mem_headings hhand) hnodup honly
    (fun hand hhand htarget => howner hand (List.mem_filter.2 ⟨hhand, beq_iff_eq.2 htarget⟩))

/-- A book shows nothing at a target that the ledger has no rules for. -/
theorem emissionsAt_eq_nil (h : InStep c b current) (hnot : ¬ Touches target c.ledger.rules) :
    b.emissionsAt target = [] := by
  refine List.filter_eq_nil_iff.2 (fun e he htarget => hnot ?_)
  obtain ⟨e', he', rfl⟩ := List.mem_map.1 (h.emissions.mem_iff.1 he)
  obtain ⟨f, hf, rfl⟩ := List.mem_map.1 he'
  exact ⟨f.rule, List.mem_map_of_mem hf, beq_iff_eq.1 htarget⟩

end InStep

/-- **A stage in which a total is intact**: the two rules have the same owners in
the ledger, and the book shows them under the first of these, in order. -/
def Stage.Intact (category : String) (t : Stage) : Prop :=
  ∃ emitter sharers,
    t.compiler.ledger.atTarget (member "save" category) = .total category emitter sharers ∧
      t.book.emissionsAt (member "save" category) =
        (totalRules category).map (some emitter, ·)

/-- **What holds of a total** at every stage. -/
structure Stage.Guarded (category : String) (t : Stage) : Prop where
  keeps : ∀ key, ∀ o ∈ t.current key, o.Keeps category key
  intact : (∃ key : Key, key.kind = .charClass ∧ (t.current key).isSome = true) →
    t.Intact category

namespace Stage

variable {t : Stage} {o : Output}

/-- Classes bring both rules. -/
theorem Guarded.baseRule_mem (hkeeps : o.Keeps category key) (hclass : key.kind = .charClass) :
    baseRule category ∈ o.rules := by
  have hmem : baseRule category ∈ totalRules category := List.mem_cons_self ..
  rw [← hkeeps.total hclass] at hmem
  exact (List.mem_filter.1 hmem).1

/-- Withdrawing a record keeps a total intact while another record owns a rule of it. -/
theorem Intact.withdraw (hintact : t.Intact category) (h : InStep t.compiler t.book t.current)
    {other : Key} (hother : other ≠ key)
    (howns : t.compiler.ledger.Owns other (baseRule category)) :
    (t.withdraw key).Intact category := by
  obtain ⟨emitter, sharers, hledger, hbook⟩ := hintact
  rw [← Ledger.owns_atTarget] at howns
  have hmem : other ∈ emitter :: sharers := Ledger.mem_owners_of_owns_total (hledger ▸ howns)
  have hafter : (t.withdraw key).compiler.ledger.atTarget (member "save" category) =
      (Ledger.total category emitter sharers).forget key :=
    Ledger.atTarget_forget.trans (congrArg (Ledger.forget · key) hledger)
  by_cases hemitter : emitter = key
  · -- the other owner is one of the sharers, the first of which takes over
    subst hemitter
    obtain ⟨next, rest, rfl⟩ : ∃ next rest, sharers = next :: rest :=
      List.exists_cons_of_ne_nil (List.ne_nil_of_mem ((List.mem_cons.1 hmem).resolve_left hother))
    obtain ⟨hforget, hhandovers⟩ := Ledger.forget_total_emitter category emitter next rest
    refine ⟨next, rest, hafter.trans hforget, ?_⟩
    have hgone : (t.book.emissionsAt (member "save" category)).filter (·.1 != some emitter) =
        [] := by
      rw [hbook, List.filter_map]
      exact congrArg _ (List.filter_eq_nil_iff.2 (fun r _ => by simp))
    rw [Stage.withdraw, h.emissionsAt_withdraw next, hgone, hledger, hhandovers]
    · rfl
    · rw [hgone]
      exact List.forall_mem_nil _
    · rw [hledger, hhandovers]
      exact List.forall_mem_map.2 (fun _ _ => rfl)
  · obtain ⟨hforget, hhandovers⟩ := Ledger.forget_total_sharer category sharers hemitter
    refine ⟨emitter, sharers.erase key, hafter.trans hforget, ?_⟩
    have hstays : (t.book.emissionsAt (member "save" category)).filter (·.1 != some key) =
        t.book.emissionsAt (member "save" category) := by
      rw [hbook, List.filter_map]
      exact congrArg _ (List.filter_eq_self.2 (fun r _ => by simpa using hemitter))
    rw [Stage.withdraw, h.emissionsAt_withdraw emitter, hstays, hledger, hhandovers]
    · rw [hbook]
      exact List.append_nil _
    · rw [hstays, hbook]
      exact List.forall_mem_map.2 (fun _ _ => rfl)
    · rw [hledger, hhandovers]
      exact List.forall_mem_nil _

/-- **Withdrawing a record** keeps a total guarded: if a class is left, it owns both
rules. -/
theorem Guarded.withdraw (hguarded : t.Guarded category)
    (h : InStep t.compiler t.book t.current) : (t.withdraw key).Guarded category := by
  refine ⟨fun other o ho => hguarded.keeps other o (mem_update_none.1 ho).2, ?_⟩
  rintro ⟨cls, hclass, hsome⟩
  obtain ⟨o, ho⟩ := Option.isSome_iff_exists.1 hsome
  obtain ⟨hcls, ho⟩ := mem_update_none.1 ho
  have hintact := hguarded.intact ⟨cls, hclass, Option.isSome_iff_exists.2 ⟨o, ho⟩⟩
  exact hintact.withdraw h hcls ((h.owns _ _).2 ⟨o, ho, _,
    Guarded.baseRule_mem (hguarded.keeps cls o ho) hclass, baseRule_beq_self⟩)

/-- **What emitting an output does at a target**: what it has for the target is
committed there, and what is fresh is shown after all that was shown before. -/
theorem emit_atTarget (h : InStep t.compiler t.book t.current) (hnone : t.current key = none)
    (o : Output) (target : String) :
    (t.emit key o).compiler.ledger.atTarget target =
        ((t.compiler.ledger.atTarget target).commitAll key
          (o.rules.filter (·.target == target))).1 ∧
      (t.emit key o).book.emissionsAt target = t.book.emissionsAt target ++
        ((t.compiler.ledger.atTarget target).fresh key
          (o.rules.filter (·.target == target))).map (some key, ·) := by
  have hkey : key ∉ t.compiler.registered := by
    rw [h.registered, hnone]
    exact Bool.false_ne_true
  refine ⟨Ledger.atTarget_commitAll, ?_⟩
  rw [← Ledger.filter_fresh]
  unfold Book.emissionsAt Book.emissions emit
  rw [h.chapters_emit hkey, List.flatMap_append, List.flatMap_singleton, List.filter_append]
  unfold Chapter.emissions
  rw [List.filter_map]
  rfl

/-- **Emitting the output of a class** brings the rules or joins them. -/
theorem Guarded.emit_class (hguarded : t.Guarded category)
    (h : InStep t.compiler t.book t.current) (hnone : t.current key = none)
    (hkeeps : o.Keeps category key) (hclass : key.kind = .charClass)
    (hmerges : Merges o.rules t.compiler.ledger.rules) : (t.emit key o).Intact category := by
  obtain ⟨hledger', hbook'⟩ := emit_atTarget h hnone o (member "save" category)
  rw [hkeeps.total hclass] at hledger' hbook'
  by_cases hearlier : ∃ key : Key, key.kind = .charClass ∧ (t.current key).isSome = true
  · obtain ⟨emitter, sharers, hledger, hbook⟩ := hguarded.intact hearlier
    obtain ⟨more, hcommit, hfresh⟩ := Ledger.exists_commitAll_total category key emitter sharers
    rw [hledger, hcommit] at hledger'
    rw [hledger, hfresh, hbook] at hbook'
    exact ⟨emitter, more, hledger', hbook'.trans (List.append_nil _)⟩
  · -- the first rule is nowhere, so nothing was at the total
    have hfixed : fixed? (member "save" category) o.rules = some (baseRule category) := by
      unfold fixed?
      rw [hkeeps.total hclass]
      rfl
    have hnot : ¬ Touches (member "save" category) t.compiler.ledger.rules := by
      intro htouches
      obtain ⟨e, he, hbase⟩ := List.mem_map.1 (baseRule_mem_of_merges hmerges.symm htouches hfixed)
      have howns : t.compiler.ledger.Owns e.emitter (baseRule category) :=
        ⟨e, he, hbase ▸ baseRule_beq_self, LedgerEntry.emitter_mem_owners⟩
      obtain ⟨o', ho', r, hr, hsame⟩ := (h.owns _ _).1 howns
      obtain rfl := beq_baseRule hsame
      by_cases hkind : e.emitter.kind = .charClass
      · exact hearlier ⟨_, hkind, Option.isSome_iff_exists.2 ⟨o', ho'⟩⟩
      · exact (hguarded.keeps _ o' ho').spares hkind _ hr rfl
    have hempty : t.compiler.ledger.atTarget (member "save" category) = .empty := by
      refine congrArg Ledger.mk (List.filter_eq_nil_iff.2 (fun e he htarget => hnot ?_))
      exact ⟨e.rule, List.mem_map_of_mem he, beq_iff_eq.1 htarget⟩
    rw [hempty, Ledger.commitAll_empty.1] at hledger'
    rw [hempty, Ledger.commitAll_empty.2, h.emissionsAt_eq_nil hnot] at hbook'
    exact ⟨key, [], hledger', hbook'⟩

/-- **Emitting another output** does not change what is at a total. -/
theorem Guarded.emit_other (h : InStep t.compiler t.book t.current)
    (hintact : t.Intact category) (hnone : t.current key = none)
    (hspares : o.Spares category) (hmerges : Merges o.rules t.compiler.ledger.rules) :
    (t.emit key o).Intact category := by
  obtain ⟨emitter, sharers, hledger, hbook⟩ := hintact
  have hfixed : fixed? (member "save" category) t.compiler.ledger.rules =
      some (baseRule category) := by
    rw [← Ledger.fixed?_atTarget, hledger]
    exact fixed?_totalRules
  have hnil : o.rules.filter (·.target == member "save" category) = [] := by
    refine List.filter_eq_nil_iff.2 (fun r hr htarget => ?_)
    exact hspares _ (baseRule_mem_of_merges hmerges ⟨r, hr, beq_iff_eq.1 htarget⟩ hfixed) rfl
  obtain ⟨hledger', hbook'⟩ := emit_atTarget h hnone o (member "save" category)
  rw [hnil, hledger] at hledger'
  rw [hnil, hbook] at hbook'
  exact ⟨emitter, sharers, hledger', hbook'.trans (List.append_nil _)⟩

/-- **Emitting an output** that merges with what is there. -/
theorem Guarded.emit (hguarded : t.Guarded category)
    (h : InStep t.compiler t.book t.current) (hnone : t.current key = none)
    (hkeeps : o.Keeps category key) (hmerges : Merges o.rules t.compiler.ledger.rules) :
    (t.emit key o).Guarded category := by
  constructor
  · intro other o' ho'
    obtain ⟨rfl, rfl⟩ | ⟨-, ho'⟩ := mem_update_some.1 ho'
    · exact hkeeps
    · exact hguarded.keeps other o' ho'
  · rintro ⟨cls, hclass, hsome⟩
    by_cases hkind : key.kind = .charClass
    · exact hguarded.emit_class h hnone hkeeps hkind hmerges
    · have hcls : cls ≠ key := by
        rintro rfl
        exact hkind hclass
      change (Function.update t.current key (some o) cls).isSome = true at hsome
      rw [Function.update_of_ne hcls] at hsome
      exact Guarded.emit_other h (hguarded.intact ⟨cls, hclass, hsome⟩) hnone
        (hkeeps.spares hkind) hmerges

end Stage

namespace Session

/-- **Totals are guarded** whatever is called. -/
theorem guarded_run {settings : Settings} (hs : settings.validate = .ok ())
    (hcategory : category ∈ saveCategories) (known : List Record) (calls : List Call) :
    ((start settings known).run calls).stage.Guarded category := by
  refine stage_induction (P := Stage.Guarded category) hs ?_ ?_ ?_ ?_ calls
  · exact ⟨fun _ _ ho => (nomatch ho), fun ⟨_, _, hsome⟩ => (nomatch hsome)⟩
  · exact fun _ _ hguarded => ⟨hguarded.keeps, hguarded.intact⟩
  · exact fun _ _ h hguarded => hguarded.withdraw h
  · intro t record o h hguarded hnone hcompile hmerges
    exact hguarded.emit h hnone (Record.keeps_compile hcategory hcompile) hmerges

/-- **The totals of saving throws are intact** as long as there is a class.
Whatever is called on a new compiler, and on whatever records, the rules for the
total of a category are two: the one that sets it to what the classes give, and
then the one that adds the adjustments. Both are in the chapter of one class,
which is registered. -/
theorem rulesFor_save_run {settings : Settings} (hs : settings.validate = .ok ())
    (known : List Record) (calls : List Call) (hcategory : category ∈ saveCategories)
    (hclass : ∃ key : Key, key.kind = .charClass ∧
      ((start settings known).run calls).compiler.isRegistered key = true) :
    let s := (start settings known).run calls
    s.book.rulesFor (member "save" category) = [baseRule category, adjustmentRule category] ∧
      ∃ key chapter, key.kind = .charClass ∧ s.compiler.isRegistered key = true ∧
        s.book.chapter? key = some chapter ∧
        baseRule category ∈ chapter.rules ∧ adjustmentRule category ∈ chapter.rules := by
  intro s
  have h : InStep s.compiler s.book s.current := inStep_run hs known calls
  have hguarded : s.stage.Guarded category := guarded_run hs hcategory known calls
  obtain ⟨cls, hkind, hregistered⟩ := hclass
  obtain ⟨emitter, sharers, hledger, hbook⟩ :=
    hguarded.intact ⟨cls, hkind, h.isRegistered.1 hregistered⟩
  change s.compiler.ledger.atTarget (member "save" category) = _ at hledger
  change s.book.emissionsAt (member "save" category) = _ at hbook
  -- the rules stand under a record that owns them, and only classes do
  have howns : (s.compiler.ledger.atTarget (baseRule category).target).Owns emitter
      (baseRule category) := by
    show (s.compiler.ledger.atTarget (member "save" category)).Owns _ _
    rw [hledger]
    exact ⟨_, List.mem_cons_self .., baseRule_beq_self, LedgerEntry.emitter_mem_owners⟩
  obtain ⟨o, ho, r, hr, hsame⟩ := (h.owns _ _).1 (Ledger.owns_atTarget.1 howns)
  obtain rfl := beq_baseRule hsame
  have hemitter : emitter.kind = .charClass := by
    by_contra hkind
    exact (hguarded.keeps emitter o ho).spares hkind _ hr rfl
  have hmem : ∀ r ∈ totalRules category, (some emitter, r) ∈ s.book.emissions := by
    intro r hr
    have hshown : (some emitter, r) ∈ s.book.emissionsAt (member "save" category) := by
      rw [hbook]
      exact List.mem_map_of_mem hr
    exact (List.mem_filter.1 hshown).1
  obtain ⟨chapter, hchapter, hbase⟩ :=
    h.exists_chapter_of_mem (hmem (baseRule category) (List.mem_cons_self ..))
  obtain ⟨chapter', hchapter', hadjustment⟩ :=
    h.exists_chapter_of_mem (hmem (adjustmentRule category) (List.mem_cons_of_mem _
      (List.mem_singleton.2 rfl)))
  obtain rfl := Option.some.inj (hchapter.symm.trans hchapter')
  refine ⟨?_, emitter, chapter, hemitter, ?_, hchapter, hbase, hadjustment⟩
  · rw [Book.rulesFor_eq, hbook]
    rfl
  · exact h.isRegistered.2 (Option.isSome_iff_exists.2 ⟨o, ho⟩)

/-- Two classes are there, a feature tries to set a total, and the class under
which the rules of the total stand is recompiled: they are there all the same. -/
theorem rulesFor_save_ranger :
    let s := (start .default martialClasses).run [.compileAll martialClasses,
      .register ⟨.feature, "Luck", "Effects=\"save.Death = 5\""⟩,
      .recompile ⟨.charClass, "Fighter", martial⟩]
    s.compiler.isRegistered ⟨.charClass, "Fighter"⟩ = true ∧
      s.book.rulesFor (member "save" "Death") = [baseRule "Death", adjustmentRule "Death"] := by
  intro s
  have hkey : s.compiler.isRegistered ⟨.charClass, "Fighter"⟩ = true := by decide +kernel
  exact ⟨hkey, (rulesFor_save_run rfl martialClasses _ (by decide) ⟨_, rfl, hkey⟩).1⟩

end Session

end Rulebook
