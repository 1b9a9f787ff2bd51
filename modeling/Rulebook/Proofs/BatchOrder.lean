import Rulebook.Proofs.MergePolicy
import Rulebook.Proofs.References
import Rulebook.Proofs.SheetSections

/-!
# The order of a batch does not matter

Records of a batch are accepted or refused one by one, each against what came
before it. Whether all are accepted can nevertheless be said without an order:
every record has to compile, and any two of them have to merge. This holds
since all names are known from the start, so that compiling depends on the batch
but not on its order, and since the rules of records that merge with each other
act on the check as the rules of each one do.

Two batches of the same records then lead to the same outputs. What the book
holds follows from the outputs, but for the chapter in which a shared rule
stands. A rule of one record only stands in the chapter of this record, in the
place that it has in the record's output.
-/

namespace Rulebook

/-! ## Batches that can be registered as a whole -/

namespace Context

/-- The output of a record, which is empty if the record does not compile. -/
def output (ctx : Context) (record : Record) : Output :=
  (record.compile ctx).toOption.getD .empty

/-- Whether a record compiles. -/
def Compiles (ctx : Context) (record : Record) : Prop := ∃ o, record.compile ctx = .ok o

/-- **Whether two records may be registered together.** -/
def Fits (ctx : Context) (r s : Record) : Prop :=
  Rule.Merges (ctx.output r).rules (ctx.output s).rules

/-- **Whether records may be registered together**, in whatever order. -/
structure Consistent (ctx : Context) (records : List Record) : Prop where
  compiles : ∀ r ∈ records, ctx.Compiles r
  fits : records.Pairwise ctx.Fits

variable {ctx ctx' : Context} {records others : List Record}

theorem output_of_compile {record : Record} {o : Output} (h : record.compile ctx = .ok o) :
    ctx.output record = o := by
  unfold output
  rw [h]
  rfl

theorem consistent_cons {record : Record} : ctx.Consistent (record :: records) ↔
    ctx.Compiles record ∧ (∀ r ∈ records, ctx.Fits record r) ∧ ctx.Consistent records := by
  constructor
  · rintro ⟨hcompiles, hfits⟩
    obtain ⟨hrecord, hrecords⟩ := List.forall_mem_cons.1 hcompiles
    obtain ⟨hhead, htail⟩ := List.pairwise_cons.1 hfits
    exact ⟨hrecord, hhead, hrecords, htail⟩
  · rintro ⟨hrecord, hhead, hrecords, htail⟩
    exact ⟨List.forall_mem_cons.2 ⟨hrecord, hrecords⟩, List.pairwise_cons.2 ⟨hhead, htail⟩⟩

/-- **Neither the order of the records nor that of the catalog** matters. -/
theorem Consistent.of_perm (hcompile : ∀ record : Record, record.compile ctx = record.compile ctx')
    (hperm : records.Perm others) (h : ctx.Consistent records) : ctx'.Consistent others := by
  have houtput : ctx.output = ctx'.output := funext (fun record => by
    unfold output
    rw [hcompile])
  refine ⟨fun r hr => ?_, ?_⟩
  · obtain ⟨o, ho⟩ := h.compiles r (hperm.mem_iff.2 hr)
    exact ⟨o, (hcompile r).symm.trans ho⟩
  · have hfits : ctx.Fits = ctx'.Fits := by
      unfold Fits
      rw [houtput]
    rw [← hfits]
    exact h.fits.perm hperm Rule.Merges.symm

end Context

/-! ## Batches without failures -/

namespace Compiler

variable {c : Compiler} {record : Record} {records : List Record}

/-- **All registrations of a batch succeed.** -/
def AcceptsAll (c : Compiler) : List Record → Prop
  | [] => True
  | record :: records =>
    (c.register record).result = .ok () ∧ (c.register record).compiler.AcceptsAll records

theorem isClean_registerAll {report : Report} :
    (c.registerAll report records).result.isClean = true ↔
      report.isClean = true ∧ c.AcceptsAll records := by
  induction records generalizing c report with
  | nil => exact (and_iff_left trivial).symm
  | cons record records ih =>
    unfold registerAll AcceptsAll
    dsimp only
    rw [ih]
    cases (c.register record).result with
    | ok u => exact and_congr_right (fun _ => (and_iff_right rfl).symm)
    | error e =>
      have hskipped : (⟨report.registered, report.skipped ++ [e]⟩ : Report).isClean = false :=
        List.isEmpty_eq_false_iff.2 (List.append_ne_nil_of_right_ne_nil _ (List.cons_ne_nil _ _))
      exact ⟨fun h => absurd h.1 (by rw [hskipped]; exact Bool.false_ne_true),
        fun h => nomatch h.2.1⟩

/-- **A batch is clean** if all registrations succeed. -/
theorem isClean_compileAll :
    (c.compileAll records).result.isClean = true ↔ c.AcceptsAll records :=
  isClean_registerAll.trans (and_iff_right rfl)

/-! ## Registering what is known -/

/-- **Registering a known record** that is not registered succeeds if the record
compiles and passes the check. -/
theorem register_eq_ok_iff (hknown : c.catalog.contains record.key = true)
    (hnew : record.key ∉ c.registered) : (c.register record).result = .ok () ↔
      c.context.Compiles record ∧
        c.ledger.check record.key (c.context.output record).rules = .ok () := by
  have hprepare : ∀ {o}, c.prepare record = .ok o ↔ record.compile c.context = .ok o ∧
      c.ledger.check record.key o.rules = .ok () := by
    intro o
    rw [prepare_eq_ok]
    exact and_congr_left' Outcome.mapError_eq_ok
  obtain ⟨hregistered, -⟩ | ⟨-, e, he, heq⟩ | ⟨-, o, ho, heq⟩ := c.register_cases record
  · exact absurd hregistered hnew
  · rw [know_eq_self_iff.2 hknown] at he
    rw [heq]
    refine ⟨nofun, fun ⟨⟨o, ho⟩, hcheck⟩ => ?_⟩
    rw [Context.output_of_compile ho] at hcheck
    rw [hprepare.2 ⟨ho, hcheck⟩] at he
    cases he
  · rw [know_eq_self_iff.2 hknown] at ho
    obtain ⟨hcompile, hcheck⟩ := hprepare.1 ho
    rw [heq, Context.output_of_compile hcompile]
    exact ⟨fun _ => ⟨⟨o, hcompile⟩, hcheck⟩, fun _ => rfl⟩

/-- **What registering a known record leads to** if it succeeds. -/
theorem register_of_ok (hknown : c.catalog.contains record.key = true)
    (hok : (c.register record).result = .ok ()) :
    (c.register record).compiler = (c.emit record.key (c.context.output record)).1 ∧
      c.acceptedBy record (c.register record).result =
        [(record.key, c.context.output record)] := by
  obtain ⟨-, heq⟩ | ⟨-, e, -, heq⟩ | ⟨-, o, ho, heq⟩ := c.register_cases record
  · rw [heq] at hok
    cases hok
  · rw [heq] at hok
    cases hok
  · have hcompile : record.compile c.context = .ok o := by
      have := (prepare_eq_ok.1 ho).1
      rw [know_eq_self_iff.2 hknown] at this
      exact Outcome.mapError_eq_ok.1 this
    rw [heq, know_eq_self_iff.2 hknown, Context.output_of_compile hcompile]
    exact ⟨rfl, acceptedBy_ok ho⟩

/-- **The outputs that a clean batch accepts** are those of its records. -/
theorem acceptedEach_of_acceptsAll (hknown : ∀ r ∈ records, c.catalog.contains r.key = true)
    (h : c.AcceptsAll records) :
    c.acceptedEach records = records.map fun r => (r.key, c.context.output r) := by
  induction records generalizing c with
  | nil => rfl
  | cons record records ih =>
    obtain ⟨hok, hrest⟩ := h
    obtain ⟨hrecord, hrecords⟩ := List.forall_mem_cons.1 hknown
    obtain ⟨hcompiler, haccepted⟩ := register_of_ok hrecord hok
    rw [acceptedEach, haccepted, List.map_cons, List.singleton_append]
    rw [hcompiler] at hrest ⊢
    exact congrArg (_ :: ·) (ih (c := (c.emit record.key _).1) hrecords hrest)

end Compiler

/-! ## Clean batches are consistent -/

namespace InStep

/-- **A batch of known records is accepted** if all compile and merge with what
is there and with each other. -/
theorem acceptsAll_iff {c : Compiler} {b : Book} {current : Key → Option Output}
    {records : List Record} (h : InStep c b current)
    (hknown : ∀ r ∈ records, c.catalog.contains r.key = true)
    (hnew : ∀ r ∈ records, r.key ∉ c.registered) (hnodup : (records.map Record.key).Nodup) :
    c.AcceptsAll records ↔ c.context.Consistent records ∧
      ∀ r ∈ records, Rule.Merges (c.context.output r).rules c.ledger.rules := by
  induction records generalizing c b current with
  | nil => exact ⟨fun _ => ⟨⟨nofun, .nil⟩, nofun⟩, fun _ => trivial⟩
  | cons record records ih =>
    obtain ⟨hrecord, hrecords⟩ := List.forall_mem_cons.1 hknown
    obtain ⟨hnewRecord, hnewRecords⟩ := List.forall_mem_cons.1 hnew
    obtain ⟨hkey, hkeys⟩ := List.nodup_cons.1 hnodup
    have hok : (c.register record).result = .ok () ↔ c.context.Compiles record ∧
        Rule.Merges (c.context.output record).rules c.ledger.rules := by
      have howns : ∀ r, ¬ c.ledger.Owns record.key r :=
        fun r hr => hnewRecord (h.mem_registered hr)
      rw [Compiler.register_eq_ok_iff hrecord hnewRecord, Ledger.check_eq_ok,
        h.sound.foreignRules_eq howns]
    have hrest : (c.register record).result = .ok () →
        ((c.register record).compiler.AcceptsAll records ↔ c.context.Consistent records ∧
          ∀ r ∈ records, Rule.Merges (c.context.output r).rules c.ledger.rules ∧
            c.context.Fits record r) := by
      intro hresult
      obtain ⟨⟨o, ho⟩, hmerges⟩ := hok.1 hresult
      have hself := @Record.beq_self_of_compile c.context h.valid record o ho
      rw [← Context.output_of_compile ho] at hself
      have hemit := h.emit (h.current_eq_none hnewRecord) hself
      rw [(Compiler.register_of_ok hrecord hresult).1]
      have hnewRecords : ∀ r ∈ records, r.key ∉ c.registered ++ [record.key] := by
        intro r hr hmem
        obtain hmem | hmem := List.mem_append.1 hmem
        · exact hnewRecords r hr hmem
        · exact hkey (List.mem_map.2 ⟨r, hr, List.mem_singleton.1 hmem⟩)
      refine (ih hemit hrecords hnewRecords hkeys).trans (and_congr_right (fun _ => ?_))
      refine forall₂_congr (fun r _ => Ledger.merges_commitAll.trans ?_)
      -- what is there and the record merge, so merging with both is merging with each
      rw [Rule.merges_append_iff hmerges.symm]
      exact and_congr_right (fun _ => ⟨Rule.Merges.symm, Rule.Merges.symm⟩)
    rw [Context.consistent_cons, List.forall_mem_cons]
    constructor
    · rintro ⟨hresult, haccepts⟩
      obtain ⟨hcompiles, hmerges⟩ := hok.1 hresult
      obtain ⟨hconsistent, hall⟩ := (hrest hresult).1 haccepts
      exact ⟨⟨hcompiles, fun r hr => (hall r hr).2, hconsistent⟩,
        hmerges, fun r hr => (hall r hr).1⟩
    · rintro ⟨⟨hcompiles, hfits, hconsistent⟩, hmerges, hall⟩
      have hresult := hok.2 ⟨hcompiles, hmerges⟩
      exact ⟨hresult, (hrest hresult).2 ⟨hconsistent, fun r hr => ⟨hall r hr, hfits r hr⟩⟩⟩

end InStep

/-! ## Books of the same outputs -/

/-- **Whether a rule is of one record only**: the output of this record contains
it, and no other output does. -/
def OfOnly (current : Key → Option Output) (key : Key) (r : Rule) : Prop :=
  ∀ other, (∃ o, current other = some o ∧ o.rules.contains r = true) ↔ other = key

/-- **Whether a rule stands under one record**: once in the chapter of this
record, and in the chapter of no other. -/
def Book.ShowsUnder (b : Book) (key : Key) (r : Rule) : Prop :=
  ∀ other, (b.rulesOf other).countP (· == r) = if other = key then 1 else 0

/-- **Books with the same content**, for given outputs of the records. They may
differ only in the order of the sections and of the chapters, and in the chapter
of a rule that several outputs contain. -/
structure Book.SameContent (current : Key → Option Output) (b d : Book) : Prop where
  /-- The sections are the same. -/
  sections : b.sections.Perm d.sections
  /-- The same records have chapters, with the same notes and choices in the same
  order, and there are no other chapters. -/
  headings : b.headings.Perm d.headings
  contents : ∀ key, (b.chapter? key).map (fun chapter => (chapter.notes, chapter.choices)) =
    (d.chapter? key).map fun chapter => (chapter.notes, chapter.choices)
  /-- Each rule is as often in one book as in the other. -/
  rules : ∀ r, b.rules.countP (· == r) = d.rules.countP (· == r)
  size : b.rules.length = d.rules.length
  /-- In both, a rule of one record only stands in the chapter of this record. -/
  own : ∀ key r, OfOnly current key r → b.ShowsUnder key r ∧ d.ShowsUnder key r

/-- **Whether the chapters keep the order of the outputs**: each has a part of
the rules of its record's output, in their order. -/
def Book.InOrder (current : Key → Option Output) (b : Book) : Prop :=
  ∀ key o, current key = some o → (b.rulesOf key).Sublist o.rules

/-- Lists in which each rule is as often are of the same length, if no rule in
them differs from itself. -/
theorem length_eq_of_countP_eq {rules others : List Rule} (hrules : ∀ r ∈ rules, (r == r) = true)
    (hothers : ∀ r ∈ others, (r == r) = true)
    (h : ∀ r, rules.countP (· == r) = others.countP (· == r)) : rules.length = others.length := by
  induction rules generalizing others with
  | nil =>
    cases others with
    | nil => rfl
    | cons s others =>
      have hs := h s
      rw [List.countP_cons, if_pos (hothers s (List.mem_cons_self ..))] at hs
      cases hs
  | cons r rules ih =>
    obtain ⟨hr, hrules⟩ := List.forall_mem_cons.1 hrules
    have hpos : 0 < others.countP (· == r) := by
      rw [← h r, List.countP_cons, if_pos hr]
      exact Nat.succ_pos _
    -- the first rule has an equal one in the other list: both are taken out
    obtain ⟨s, hs, hsr⟩ := List.countP_pos_iff.1 hpos
    obtain ⟨before, after, rfl⟩ := List.append_of_mem hs
    have hrest : ∀ t, rules.countP (· == t) = (before ++ after).countP (· == t) := by
      intro t
      have ht := h t
      rw [List.countP_append, List.countP_cons, List.countP_cons, BEq.congr_left hsr,
        ← Nat.add_assoc, ← List.countP_append] at ht
      exact Nat.add_right_cancel ht
    have hsub : ∀ t ∈ before ++ after, (t == t) = true := by
      intro t ht
      refine hothers t (List.mem_append.2 ((List.mem_append.1 ht).imp_right ?_))
      exact List.mem_cons_of_mem s
    rw [List.length_cons, ih hrules hsub hrest, List.length_append, List.length_append,
      List.length_cons, Nat.add_assoc]

namespace InStep

variable {c c' : Compiler} {b b' : Book} {current : Key → Option Output}

theorem countP_eq_zero (h : InStep c b current) {r : Rule}
    (hr : ∀ key, ¬ c.ledger.Owns key r) : b.rules.countP (· == r) = 0 := by
  rw [h.rules_perm.countP_eq, List.countP_eq_zero]
  intro s hs hsr
  obtain ⟨e, he, rfl⟩ := List.mem_map.1 hs
  exact hr e.emitter ⟨e, he, hsr, LedgerEntry.emitter_mem_owners⟩

/-- **The chapter of a record shows its output.** -/
theorem contents_eq (h : InStep c b current) (key : Key) :
    (b.chapter? key).map (fun chapter => (chapter.notes, chapter.choices)) =
      (current key).map fun o => (o.notes, o.choices) := by
  cases hcurrent : current key with
  | none =>
    have hkey : key ∉ c.registered := by
      rw [h.registered, hcurrent]
      exact Bool.false_ne_true
    have hnone : b.chapter? key = none := by
      refine List.find?_eq_none.2 (fun chapter hchapter hof => hkey ?_)
      exact h.mem_headings.1 (Book.exists_isOf_iff.1 ⟨chapter, hchapter, hof⟩)
    rw [hnone]
    rfl
  | some o =>
    have hkey : key ∈ c.registered := by
      rw [h.registered, hcurrent]
      rfl
    have hmem : o.heading key ∈ b.headings := by
      rw [h.headings]
      refine List.mem_map.2 ⟨key, hkey, ?_⟩
      rw [hcurrent]
      rfl
    obtain ⟨chapter, hchapter, heq⟩ := List.mem_map.1 hmem
    obtain ⟨hrecord, hcontents⟩ := Prod.mk.inj heq
    rw [h.chapter?_eq hchapter hrecord]
    exact congrArg some hcontents

/-- The same chapters, but for their order. -/
theorem headings_perm (h : InStep c b current) (h' : InStep c' b' current) :
    b.headings.Perm b'.headings := by
  rw [h.headings, h'.headings]
  refine ((List.perm_ext_iff_of_nodup h.nodup h'.nodup).2 (fun key => ?_)).map _
  rw [h.registered, h'.registered]

/-- A record owns what its chapter shows. -/
theorem owns_of_mem_rulesOf (h : InStep c b current) {key : Key} {r : Rule}
    (hr : r ∈ b.rulesOf key) : c.ledger.Owns key r := by
  have hmem := h.emissions.mem_iff.1 (Book.mem_emissions_of_mem_rulesOf hr)
  obtain ⟨p, hp, heq⟩ := List.mem_map.1 hmem
  obtain ⟨e, he, rfl⟩ := List.mem_map.1 hp
  obtain ⟨hkey, rfl⟩ := Prod.mk.inj heq
  rw [← Option.some.inj hkey]
  exact ⟨e, he, h.sound.beq_self e he, LedgerEntry.emitter_mem_owners⟩

/-- **A rule of one record only** stands in the chapter of this record. -/
theorem showsUnder (h : InStep c b current) {key : Key} {r : Rule} (hr : OfOnly current key r) :
    b.ShowsUnder key r := by
  have howns : ∀ other, c.ledger.Owns other r ↔ other = key :=
    fun other => h.owns_iff_contains.trans (hr other)
  have hkey : c.ledger.Owns key r := (howns key).2 rfl
  intro other
  split
  · next heq =>
    subst heq
    -- its chapter has the rule at least once, and the whole book has it only once
    obtain ⟨first, chapter, hfirst, hchapter, hcontains⟩ := h.exists_chapter hkey
    have hmem : first ∈ c.ledger.owners r := List.mem_of_head? hfirst
    obtain rfl := (howns first).1 (h.sound.mem_owners.1 hmem)
    have hrules : b.rulesOf first = chapter.rules := by
      rw [Book.rulesOf, hchapter]
      rfl
    have hsub : chapter.rules.Sublist b.rules :=
      List.sublist_flatten_of_mem
        (List.mem_map_of_mem (List.mem_of_find?_eq_some hchapter))
    rw [hrules]
    refine Nat.le_antisymm (hsub.countP_le.trans (h.countP_eq_one hkey).le) ?_
    rw [List.contains_eq_any_beq, List.any_eq_true] at hcontains
    obtain ⟨s, hs, hrs⟩ := hcontains
    exact List.countP_pos_iff.2 ⟨s, hs, BEq.symm hrs⟩
  · next hne =>
    refine List.countP_eq_zero.2 (fun s hs hsr => hne ((howns other).1 ?_))
    obtain ⟨e, he, hes, hother⟩ := h.owns_of_mem_rulesOf hs
    exact ⟨e, he, BEq.trans hes hsr, hother⟩

/-- **Books that are in step with the same outputs** have the same content if
they have the same sections. -/
theorem sameContent (h : InStep c b current) (h' : InStep c' b' current)
    (hsections : b.sections.Perm b'.sections) : b.SameContent current b' := by
  have hself : ∀ {c : Compiler} {b : Book}, InStep c b current →
      ∀ r ∈ b.rules, (r == r) = true := by
    intro c b h r hr
    obtain ⟨e, he, rfl⟩ := List.mem_map.1 (h.rules_perm.mem_iff.1 hr)
    exact h.sound.beq_self e he
  have hcount : ∀ r, b.rules.countP (· == r) = b'.rules.countP (· == r) := by
    intro r
    have howns : ∀ key, c.ledger.Owns key r ↔ c'.ledger.Owns key r :=
      fun key => (h.owns key r).trans (h'.owns key r).symm
    by_cases hr : ∃ key, c.ledger.Owns key r
    · obtain ⟨key, hr⟩ := hr
      rw [h.countP_eq_one hr, h'.countP_eq_one ((howns key).1 hr)]
    · have hr : ∀ key, ¬ c.ledger.Owns key r := not_exists.1 hr
      rw [h.countP_eq_zero hr, h'.countP_eq_zero (fun key => mt (howns key).2 (hr key))]
  exact ⟨hsections, h.headings_perm h',
    fun key => (h.contents_eq key).trans (h'.contents_eq key).symm,
    hcount, length_eq_of_countP_eq (hself h) (hself h') hcount,
    fun key r hr => ⟨h.showsUnder hr, h'.showsUnder hr⟩⟩

end InStep

/-! ## The order within chapters -/

namespace Session

variable {s : Session}

/-- **Registering keeps the order of the outputs** in all chapters. -/
theorem inOrder_register (h : InStep s.compiler s.book s.current)
    (horder : s.book.InOrder s.current) (record : Record) :
    (s.perform (.register record)).book.InOrder (s.perform (.register record)).current := by
  show (s.perform (.register record)).stage.book.InOrder
    (s.perform (.register record)).stage.current
  obtain ⟨-, -, heq⟩ | ⟨-, -, heq⟩ | ⟨hnew, o, -, heq⟩ := s.stage_register_cases record
  · rw [heq]
    exact horder
  · rw [heq]
    exact horder
  · rw [heq]
    intro other o' ho'
    have hknown : InStep (s.compiler.know record.key) s.book s.current := h.know
    have hrules : (s.book.applyAll ((s.compiler.know record.key).emit record.key o).2.edits).rulesOf
        other = _ := hknown.rulesOf_emit hnew
    show (Book.rulesOf _ other).Sublist o'.rules
    refine hrules ▸ ?_
    obtain ⟨rfl, rfl⟩ | ⟨hne, ho'⟩ := mem_update_some.1 ho'
    · rw [if_pos rfl]
      exact Ledger.fresh_sublist
    · rw [if_neg hne]
      exact horder other o' ho'

/-- **A batch** keeps the order of the outputs. -/
theorem inOrder_compileAll {settings : Settings} (hs : settings.validate = .ok ())
    (known records : List Record) :
    ((start settings known).run [.compileAll records]).book.InOrder
      ((start settings known).run [.compileAll records]).current := by
  have hrun : ∀ (records : List Record) {s : Session}, InStep s.compiler s.book s.current →
      s.book.InOrder s.current →
      (s.run (records.map .register)).book.InOrder (s.run (records.map .register)).current := by
    intro records
    induction records with
    | nil => exact fun _ horder => horder
    | cons record records ih =>
      exact fun h horder => ih (inStep_register h record) (inOrder_register h horder record)
  have hbatch : (start settings known).run [.compileAll records] =
      (start settings known).run (records.map .register) :=
    perform_compileAll ..
  rw [hbatch]
  exact hrun records (inStep_start hs known) (fun _ _ ho => nomatch ho)

end Session

/-! ## The outputs of a batch -/

/-- An output is the last one of its record if there is one for each record. -/
theorem Session.lastOutput_eq_some_iff {accepted : List (Key × Output)}
    (hnodup : (accepted.map Prod.fst).Nodup) {key : Key} {o : Output} :
    lastOutput accepted key = some o ↔ (key, o) ∈ accepted := by
  rw [lastOutput, List.lookup_eq_some_iff, ← List.mem_reverse]
  constructor
  · rintro ⟨before, after, heq, -⟩
    rw [heq]
    exact List.mem_append_right _ (List.mem_cons_self ..)
  · intro hmem
    obtain ⟨before, after, heq⟩ := List.append_of_mem hmem
    -- an earlier pair with the same key would be the key twice
    refine ⟨before, after, heq, fun p hp => bne_iff_ne.2 ?_⟩
    have hnodup : ((before ++ (key, o) :: after).map Prod.fst).Nodup := by
      rw [← heq, List.map_reverse]
      exact List.nodup_reverse.2 hnodup
    rw [List.map_append, List.map_cons] at hnodup
    have hdisjoint := List.disjoint_of_nodup_append hnodup
    rintro rfl
    exact hdisjoint (List.mem_map_of_mem hp) (List.mem_cons_self ..)

/-- **The order in which outputs were accepted** does not matter if there is one
for each record. -/
theorem Session.lastOutput_eq_of_perm {accepted others : List (Key × Output)}
    (hnodup : (accepted.map Prod.fst).Nodup) (hperm : accepted.Perm others) :
    lastOutput accepted = lastOutput others := by
  funext key
  refine Option.ext (fun o => ?_)
  rw [lastOutput_eq_some_iff hnodup,
    lastOutput_eq_some_iff ((hperm.map Prod.fst).nodup_iff.1 hnodup), hperm.mem_iff]

/-- **The outputs of a batch** whose records are all accepted: what each record
comes to. -/
def Context.outputs (ctx : Context) (records : List Record) : Key → Option Output :=
  Session.lastOutput (records.map fun r => (r.key, ctx.output r))

/-! ## Batches on a new compiler -/

/-- **The book of a batch**: what registering all records with a new compiler
makes of an empty book. -/
def Book.ofBatch (settings : Settings) (records : List Record) : Book :=
  Book.empty.applyAll ((Compiler.new settings records).compileAll records).effects.edits

namespace Compiler

variable {settings : Settings} {records others : List Record}

theorem contains_new {r : Record} (hr : r ∈ records) :
    (new settings records).catalog.contains r.key = true :=
  ((Catalog.ofRecords_keys records).2 r.key).2 (List.mem_map_of_mem hr)

/-- **A batch is clean** if its records are consistent. -/
theorem isClean_new_iff (hs : settings.validate = .ok ())
    (hnodup : (records.map Record.key).Nodup) :
    ((new settings records).compileAll records).result.isClean = true ↔
      (new settings records).context.Consistent records := by
  have h : InStep (new settings records) .empty (Session.start settings records).current :=
    Session.inStep_start hs records
  rw [isClean_compileAll, h.acceptsAll_iff (fun _ hr => contains_new hr) (fun _ _ => nofun) hnodup]
  refine and_iff_left (fun r _ target _ htouches => ?_)
  obtain ⟨s, hs, -⟩ := htouches
  cases hs

/-- A clean batch accepts the outputs of all its records. -/
theorem accepted_ofBatch
    (hclean : ((new settings records).compileAll records).result.isClean = true) :
    ((Session.start settings records).run [.compileAll records]).accepted =
      records.map fun r => (r.key, (new settings records).context.output r) :=
  acceptedEach_of_acceptsAll (fun _ hr => contains_new hr) (isClean_compileAll.1 hclean)

/-- **The book of a clean batch** shows the outputs of its records, in their
order. -/
theorem inStep_ofBatch (hs : settings.validate = .ok ())
    (hclean : ((new settings records).compileAll records).result.isClean = true) :
    InStep ((new settings records).compileAll records).compiler (.ofBatch settings records)
        ((new settings records).context.outputs records) ∧
      (Book.ofBatch settings records).InOrder ((new settings records).context.outputs records) := by
  unfold Context.outputs
  rw [← accepted_ofBatch hclean]
  exact ⟨Session.inStep_run hs records [.compileAll records],
    Session.inOrder_compileAll hs records records⟩

/-- **The order of a batch does not matter.** Under settings that make sense, a
batch of different records is clean in any order or in none. If it is clean, the
books have the same content, and in both the chapters keep the order of the
outputs. -/
theorem compileAll_perm (hs : settings.validate = .ok ())
    (hnodup : (records.map Record.key).Nodup) (hperm : records.Perm others) :
    ((new settings records).compileAll records).result.isClean =
        ((new settings others).compileAll others).result.isClean ∧
      (((new settings records).compileAll records).result.isClean = true →
        let outputs := (new settings records).context.outputs records
        (Book.ofBatch settings records).SameContent outputs (Book.ofBatch settings others) ∧
          (Book.ofBatch settings records).InOrder outputs ∧
          (Book.ofBatch settings others).InOrder outputs) := by
  have hnodup' : (others.map Record.key).Nodup := (hperm.map Record.key).nodup_iff.1 hnodup
  have hcompile : ∀ record : Record, record.compile (new settings records).context =
      record.compile (new settings others).context :=
    Record.compile_congr (Catalog.alike_ofRecords hperm)
  have hclean : ((new settings records).compileAll records).result.isClean = true ↔
      ((new settings others).compileAll others).result.isClean = true := by
    rw [isClean_new_iff hs hnodup, isClean_new_iff hs hnodup']
    exact ⟨.of_perm hcompile hperm, .of_perm (fun record => (hcompile record).symm) hperm.symm⟩
  refine ⟨Bool.eq_iff_iff.2 hclean, fun h => ?_⟩
  have houtput : (new settings records).context.output = (new settings others).context.output :=
    funext (fun record => by
      unfold Context.output
      rw [hcompile])
  -- both batches accept the same outputs, in different orders
  have haccepted : ((Session.start settings records).run [.compileAll records]).accepted.Perm
      ((Session.start settings others).run [.compileAll others]).accepted := by
    rw [accepted_ofBatch h, accepted_ofBatch (hclean.1 h), houtput]
    exact hperm.map _
  have houtputs : (new settings records).context.outputs records =
      (new settings others).context.outputs others := by
    unfold Context.outputs
    rw [houtput]
    refine Session.lastOutput_eq_of_perm ?_ (hperm.map _)
    rwa [List.map_map]
  have hsections : (Book.ofBatch settings records).sections.Perm
      (Book.ofBatch settings others).sections :=
    (Session.showsSections_run settings records [.compileAll records]).perm
      (Session.showsSections_run settings others [.compileAll others])
      (fun _ => haccepted.mem_iff)
  obtain ⟨hinStep, horder⟩ := inStep_ofBatch hs h
  obtain ⟨hinStep', horder'⟩ := inStep_ofBatch hs (hclean.1 h)
  rw [← houtputs] at hinStep' horder'
  exact ⟨hinStep.sameContent hinStep' hsections, horder, horder'⟩

/-- A race, and after it the language that it speaks. -/
def elves : List Record := [⟨.race, "Elf", "Languages=Elvish"⟩, ⟨.language, "Elvish", ""⟩]

/-- The race and the language make a clean batch, also the other way round. -/
theorem compileAll_reverse_elves :
    ((new .default elves).compileAll elves).result.isClean = true ∧
      ((new .default elves.reverse).compileAll elves.reverse).result.isClean = true ∧
      (Book.ofBatch .default elves).SameContent ((new .default elves).context.outputs elves)
        (Book.ofBatch .default elves.reverse) := by
  have hclean : ((new .default elves).compileAll elves).result.isClean = true := by decide +kernel
  obtain ⟨hsame, hcontent⟩ :=
    @compileAll_perm .default elves elves.reverse rfl (by decide) elves.reverse_perm.symm
  exact ⟨hclean, hsame ▸ hclean, (hcontent hclean).1⟩

end Compiler

end Rulebook
