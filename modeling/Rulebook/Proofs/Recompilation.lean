import Rulebook.Proofs.BatchIsolation
import Rulebook.Proofs.FailedCalls
import Rulebook.Proofs.MergeSafety

/-!
# Recompiling an unchanged record

A record that is registered can be recompiled as it is at any time, and nothing
comes of it: the book says the same afterwards. Two things could go wrong.

The record might compile to something else than before. It does not as long as
all records that are handed in were announced to the compiler when it was made:
then the catalog never changes, and what a record compiles to depends on nothing
else.

The check might refuse the record. It passes over entries that only the record
itself owns, so it looks at a part of the ledger, whose first fixed rules could
be others than those of the whole. They are not: where another record owns
anything at all, it owns the first fixed rule as well.

What does change is where things stand. The chapter of the record is written anew
and comes last, and what the record had emitted for others as well is handed over
to the next owner.
-/

namespace Rulebook

/-- The records that a call hands in. -/
def Call.records : Call → List Record
  | .compile record | .register record | .recompile record => [record]
  | .compileAll records => records

/-- **The last record with a key** in a list of records. -/
def latest (records : List Record) (key : Key) : Option Record :=
  records.reverse.find? (·.key == key)

theorem key_of_latest {records : List Record} {key : Key} {record : Record}
    (h : latest records key = some record) : record.key = key :=
  beq_iff_eq.1 (List.find?_some (p := fun r : Record => r.key == key) h)

theorem mem_of_latest {records : List Record} {key : Key} {record : Record}
    (h : latest records key = some record) : record ∈ records :=
  List.mem_reverse.1 (List.mem_of_find?_eq_some h)

/-- The last output of a record, when every record has given its own. -/
theorem Session.lastOutput_map {records : List Record} {f : Record → Output} {key : Key} :
    lastOutput (records.map fun r => (r.key, f r)) key = (latest records key).map f := by
  unfold lastOutput latest
  rw [← List.map_reverse]
  induction records.reverse with
  | nil => rfl
  | cons r rs ih =>
    rw [List.map_cons, List.lookup_cons, List.find?_cons]
    by_cases h : r.key = key
    · rw [beq_iff_eq.2 h, beq_iff_eq.2 h.symm]
      rfl
    · rw [beq_eq_false_iff_ne.2 h, beq_eq_false_iff_ne.2 (Ne.symm h)]
      exact ih

/-! ## Writing a chapter anew -/

/-- **A book in which the chapter of a record was written anew**, for given
outputs of the records. -/
structure Book.Renewed (current : Key → Option Output) (key : Key) (b d : Book) : Prop where
  /-- The sections stay, in their order. -/
  sections : d.sections = b.sections
  /-- The chapter comes last; the others stay in their order. -/
  headings : ∀ o ∈ current key,
    d.headings = b.headings.filter (·.1 != some key) ++ [o.heading key]
  /-- The chapter has a part of the rules of the output, in their order. -/
  rules : ∀ o ∈ current key, (d.rulesOf key).Sublist o.rules
  /-- Other chapters keep their rules, in their order. What comes behind them are
  rules that both records produce. -/
  others : ∀ other, other ≠ key → ∃ handed, d.rulesOf other = b.rulesOf other ++ handed ∧
    ∀ r ∈ handed, ∀ k ∈ [key, other], ∃ o, current k = some o ∧ o.rules.contains r = true

namespace InStep

variable {c : Compiler} {b : Book} {current : Key → Option Output} {key other : Key} {o : Output}

/-- What is handed over is a rule of both outputs. -/
theorem contains_of_mem_handovers (h : InStep c b current) {hand : Handover}
    (hhand : hand ∈ c.ledger.handovers key) :
    ∀ k ∈ [key, hand.owner], ∃ o, current k = some o ∧ o.rules.contains hand.rule = true := by
  have howner := (h.sound.owns_forget.1 (h.sound.owns_of_mem_handovers hhand)).1
  intro k hk
  refine h.owns_iff_contains.1 ?_
  obtain rfl | hk := List.mem_cons.1 hk
  · exact h.sound.owns_self_of_mem_handovers hhand
  · obtain rfl := List.mem_singleton.1 hk
    exact howner

/-- **Withdrawing a record and emitting its current output** writes its chapter
anew. -/
theorem renewed (h : InStep c b current) (hcurrent : current key = some o)
    (hsections : ∀ name ∈ o.sections, name ∈ b.sections) :
    b.Renewed current key ((b.applyAll (c.withdraw key).2.edits).applyAll
      ((c.withdraw key).1.emit key o).2.edits) := by
  have hwithdrawn : InStep (c.withdraw key).1 (b.applyAll (c.withdraw key).2.edits)
      (Function.update current key none) := h.withdraw
  have hkey : key ∉ (c.withdraw key).1.registered := by
    rw [hwithdrawn.registered, Function.update_self]
    exact Bool.false_ne_true
  refine ⟨?sections, fun o' ho' => ?headings, fun o' ho' => ?rules, fun other hne => ?others⟩
  case sections =>
    rw [← Book.applyAll_append]
    refine Book.sections_applyAll_of_forall (fun name hname => hsections name ?_)
    obtain hname | hname := List.mem_append.1 hname
    · exact absurd hname Compiler.sheetSection_not_mem_withdraw
    · exact Compiler.sheetSection_mem_emit.1 hname
  case headings =>
    obtain rfl := Option.some.inj (hcurrent.symm.trans ho')
    unfold Book.headings
    rw [hwithdrawn.chapters_emit hkey, List.map_append]
    show (b.applyAll (c.withdraw key).2.edits).headings ++ [o.heading key] = _
    refine congrArg (· ++ _) ?_
    exact (Book.applyAll_handovers fun _ hhand => h.owner_mem_headings hhand).1.trans
      Book.headings_retract
  case rules =>
    obtain rfl := Option.some.inj (hcurrent.symm.trans ho')
    rw [hwithdrawn.rulesOf_emit hkey, if_pos rfl]
    exact Ledger.fresh_sublist
  case others =>
    refine ⟨((c.ledger.handovers key).filter (·.owner == other)).map Handover.rule, ?_, ?_⟩
    · rw [hwithdrawn.rulesOf_emit hkey, if_neg hne, h.rulesOf_withdraw hne]
    · intro r hr
      obtain ⟨hand, hhand, rfl⟩ := List.mem_map.1 hr
      obtain ⟨hhand, howner⟩ := List.mem_filter.1 hhand
      rw [← beq_iff_eq.1 howner]
      exact h.contains_of_mem_handovers hhand

end InStep

/-! ## The records that a compiler has taken -/

namespace Compiler

variable {c : Compiler} {record : Record} {records : List Record} {call : Call}
  {ctx : Context} {o : Output}

/-- The record of a step that succeeded. -/
def takenBy (record : Record) : Except RecordError Unit → List Record
  | .ok () => [record]
  | .error _ => []

/-- The records that a call registers or recompiles without failing. -/
def taken (c : Compiler) : Call → List Record
  | .compile _ => []
  | .register record => takenBy record (c.register record).result
  | .recompile record => takenBy record (c.recompile record).result
  | .compileAll records => c.kept records

/-- **The records that some calls register or recompile** without failing, in
order. The last of a key is the record as it is registered. -/
def takenAll (c : Compiler) : List Call → List Record
  | [] => []
  | call :: calls => c.taken call ++ (c.call call).compiler.takenAll calls

theorem compile_of_prepare (h : c.prepare record = .ok o) : record.compile c.context = .ok o :=
  Outcome.mapError_eq_ok.1 (prepare_eq_ok.1 h).1

/-- **Registering or recompiling a known record** leaves the context as it is,
and accepts what the record comes to in this context. -/
theorem step_of_known (hctx : c.context = ctx)
    (hknown : ctx.catalog.contains record.key = true) {step : Step (Except RecordError Unit)}
    (hstep : step = c.register record ∨ step = c.recompile record) :
    step.compiler.context = ctx ∧
      c.acceptedBy record step.result =
        (takenBy record step.result).map (fun r => (r.key, ctx.output r)) ∧
      ∀ r ∈ takenBy record step.result, ctx.Compiles r := by
  subst hctx
  have hself : c.know record.key = c := know_eq_self_iff.2 hknown
  have hok : ∀ {o}, (c.know record.key).prepare record = .ok o →
      c.acceptedBy record (.ok ()) = [(record.key, c.context.output record)] ∧
        ∀ r ∈ [record], c.context.Compiles r := by
    intro o ho
    have hcompile : record.compile c.context = .ok o := compile_of_prepare (hself ▸ ho)
    rw [acceptedBy_ok ho, Context.output_of_compile hcompile]
    exact ⟨rfl, List.forall_mem_singleton.2 ⟨o, hcompile⟩⟩
  obtain rfl | rfl := hstep
  · obtain ⟨-, heq⟩ | ⟨-, e, -, heq⟩ | ⟨-, o, ho, heq⟩ := c.register_cases record
    · rw [heq]
      exact ⟨rfl, rfl, nofun⟩
    · rw [heq, hself]
      exact ⟨rfl, rfl, nofun⟩
    · rw [heq, hself]
      exact ⟨rfl, hok ho⟩
  · obtain ⟨e, -, heq⟩ | ⟨o, ho, heq⟩ := c.recompile_cases record
    · rw [heq, hself]
      exact ⟨rfl, rfl, nofun⟩
    · rw [heq, hself]
      exact ⟨rfl, hok ho⟩

theorem kept_cons : c.kept (record :: records) =
    takenBy record (c.register record).result ++ (c.register record).compiler.kept records := by
  cases h : (c.register record).result with
  | ok u =>
    rw [kept_cons_of_ok h]
    rfl
  | error e =>
    rw [kept_cons_of_error h]
    rfl

/-- **A batch of known records** leaves the context as it is, and accepts the
outputs of the records that it keeps. -/
theorem registerEach_of_known (hctx : c.context = ctx)
    (hknown : ∀ r ∈ records, ctx.catalog.contains r.key = true) :
    (c.registerEach records).context = ctx ∧
      c.acceptedEach records = (c.kept records).map (fun r => (r.key, ctx.output r)) ∧
      ∀ r ∈ c.kept records, ctx.Compiles r := by
  induction records generalizing c with
  | nil => exact ⟨hctx, rfl, nofun⟩
  | cons record records ih =>
    obtain ⟨hrecord, hrecords⟩ := List.forall_mem_cons.1 hknown
    obtain ⟨hcontext, haccepted, hcompiles⟩ := step_of_known hctx hrecord (.inl rfl)
    obtain ⟨ihcontext, ihaccepted, ihcompiles⟩ := ih hcontext hrecords
    rw [kept_cons, acceptedEach, haccepted, ihaccepted, List.map_append]
    exact ⟨ihcontext, rfl, List.forall_mem_append.2 ⟨hcompiles, ihcompiles⟩⟩

/-- **A call on known records** leaves the context as it is, and accepts the
outputs of the records that it takes. -/
theorem call_of_known (hctx : c.context = ctx)
    (hknown : ∀ r ∈ call.records, ctx.catalog.contains r.key = true) :
    (c.call call).compiler.context = ctx ∧
      c.accepted call = (c.taken call).map (fun r => (r.key, ctx.output r)) ∧
      ∀ r ∈ c.taken call, ctx.Compiles r := by
  cases call with
  | compile record => exact ⟨hctx, rfl, nofun⟩
  | register record => exact step_of_known hctx (hknown record (List.mem_cons_self ..)) (.inl rfl)
  | recompile record =>
    exact step_of_known hctx (hknown record (List.mem_cons_self ..)) (.inr rfl)
  | compileAll records =>
    show (c.compileAll records).compiler.context = ctx ∧ _
    rw [compiler_compileAll]
    exact registerEach_of_known hctx hknown

end Compiler

namespace Session

variable {s : Session} {calls : List Call} {ctx : Context}

/-- **A session on known records** accepts the outputs of the records that it
takes, all in one context. -/
theorem run_of_known (hctx : s.compiler.context = ctx)
    (hknown : ∀ call ∈ calls, ∀ r ∈ call.records, ctx.catalog.contains r.key = true) :
    (s.run calls).compiler.context = ctx ∧
      (s.run calls).accepted = s.accepted ++
        (s.compiler.takenAll calls).map (fun r => (r.key, ctx.output r)) ∧
      ∀ r ∈ s.compiler.takenAll calls, ctx.Compiles r := by
  induction calls generalizing s with
  | nil => exact ⟨hctx, (List.append_nil _).symm, nofun⟩
  | cons call calls ih =>
    obtain ⟨hcall, hcalls⟩ := List.forall_mem_cons.1 hknown
    obtain ⟨hcontext, haccepted, hcompiles⟩ := Compiler.call_of_known hctx hcall
    obtain ⟨ihcontext, ihaccepted, ihcompiles⟩ := ih (s := s.perform call) hcontext hcalls
    refine ⟨ihcontext, ?_, List.forall_mem_append.2 ⟨hcompiles, ihcompiles⟩⟩
    show ((s.perform call).run calls).accepted = _
    rw [ihaccepted, Compiler.takenAll, List.map_append, ← List.append_assoc, ← haccepted]
    rfl

/-! ## Recompiling -/

/-- An output that is current was accepted. -/
theorem mem_accepted_of_current {key : Key} {o : Output} (h : s.current key = some o) :
    (key, o) ∈ s.accepted := by
  obtain ⟨before, after, heq, -⟩ := List.lookup_eq_some_iff.1 h
  rw [← List.mem_reverse, heq]
  exact List.mem_append_right _ (List.mem_cons_self ..)

/-- **Recompiling a record whose output is current** succeeds. The outputs stay as
they are, and the chapter of the record is written anew. -/
theorem recompile_of_current (h : InStep s.compiler s.book s.current)
    (hsettled : s.stage.Settled) (hsections : s.ShowsSections) {record : Record} {o : Output}
    (hknown : s.compiler.catalog.contains record.key = true)
    (hcompile : record.compile s.compiler.context = .ok o)
    (hcurrent : s.current record.key = some o) :
    (s.compiler.recompile record).result = .ok () ∧
      (s.perform (.recompile record)).current = s.current ∧
      s.book.Renewed s.current record.key (s.perform (.recompile record)).book := by
  have hself : s.compiler.know record.key = s.compiler := Compiler.know_eq_self_iff.2 hknown
  have hcheck : s.compiler.ledger.check record.key o.rules = .ok () :=
    Ledger.check_eq_ok.2 (hsettled.merges_foreign h hcurrent)
  have hprepare : (s.compiler.know record.key).prepare record = .ok o := by
    rw [hself]
    exact Compiler.prepare_eq_ok.2 ⟨Outcome.mapError_eq_ok.2 hcompile, hcheck⟩
  obtain ⟨e, he, -⟩ | ⟨o', ho', heq⟩ := s.compiler.recompile_cases record
  · rw [hprepare] at he
    cases he
  · obtain rfl := Except.ok.inj (hprepare.symm.trans ho')
    rw [hself] at heq
    refine ⟨congrArg Step.result heq, ?_, ?_⟩
    · show lastOutput (s.accepted ++ s.compiler.acceptedBy record _) = s.current
      rw [heq, Compiler.acceptedBy_ok hprepare, lastOutput_append]
      exact Function.update_eq_self_iff.2 hcurrent.symm
    · show s.book.Renewed s.current record.key
        (s.book.applyAll (s.compiler.recompile record).effects.edits)
      rw [heq, Effects.edits_append, Book.applyAll_append]
      refine h.renewed hcurrent (fun name hname => (hsections.mem name).2 ?_)
      exact ⟨_, mem_accepted_of_current hcurrent, hname⟩

/-- **Recompiling an unchanged record** always succeeds and changes nothing.
Whatever is called on known records, a registered record was last registered or
recompiled in some form. Recompiling it in this form succeeds. The book then has
the same content, up to what writing the record's chapter anew moves, and the
same records are registered. -/
theorem recompile_unchanged {settings : Settings} (hs : settings.validate = .ok ())
    {known : List Record} {calls : List Call}
    (hknown : ∀ call ∈ calls, ∀ r ∈ call.records, r.key ∈ known.map Record.key) {key : Key}
    (hkey : ((start settings known).run calls).compiler.isRegistered key = true) :
    let s := (start settings known).run calls
    ∃ record, latest ((Compiler.new settings known).takenAll calls) key = some record ∧
      record.key = key ∧
      (s.compiler.recompile record).result = .ok () ∧
      s.book.SameContent s.current (s.perform (.recompile record)).book ∧
      s.book.Renewed s.current key (s.perform (.recompile record)).book ∧
      ∀ other, (s.perform (.recompile record)).compiler.isRegistered other =
        s.compiler.isRegistered other := by
  intro s
  have hcatalog : ∀ k, (Compiler.new settings known).catalog.contains k = true ↔
      k ∈ known.map Record.key := (Catalog.ofRecords_keys known).2
  obtain ⟨hcontext, haccepted, hcompiles⟩ := run_of_known (s := start settings known) rfl
    (fun call hcall r hr => (hcatalog _).2 (hknown call hcall r hr))
  have h : InStep s.compiler s.book s.current := inStep_run hs known calls
  have hlast : s.current key =
      (latest ((Compiler.new settings known).takenAll calls) key).map
        (Compiler.new settings known).context.output := by
    rw [← lastOutput_map]
    exact congrArg (lastOutput · key) (haccepted.trans (List.nil_append _))
  have hknows : s.compiler.KnowsRegistered := by
    rw [compiler_run]
    exact Compiler.knowsRegistered_after settings known calls
  -- a registered record has an output, so it was taken
  have htaken := h.isRegistered.1 hkey
  rw [hlast, Option.isSome_map, Option.isSome_iff_exists] at htaken
  obtain ⟨record, hrecord⟩ := htaken
  obtain rfl := key_of_latest hrecord
  obtain ⟨o, ho⟩ := hcompiles record (mem_of_latest hrecord)
  have hcurrent : s.current record.key = some o := by
    rw [hlast, hrecord, ← Context.output_of_compile ho]
    rfl
  have hcontains : s.compiler.catalog.contains record.key = true :=
    hknows record.key (List.contains_iff_mem.1 hkey)
  obtain ⟨hok, hsame, hrenewed⟩ := recompile_of_current h (settled_run hs known calls)
    (showsSections_run settings known calls) hcontains (hcontext ▸ ho) hcurrent
  have h' := inStep_recompile h record
  rw [hsame] at h'
  refine ⟨record, hrecord, rfl, hok, h.sameContent h' (.of_eq hrenewed.sections.symm), hrenewed,
    fun other => ?_⟩
  rw [Bool.eq_iff_iff, h.isRegistered, h'.isRegistered]

/-- Of two classes the first emits what they share. It can be recompiled
nevertheless. -/
theorem recompile_unchanged_fighter :
    let s := (start .default martialClasses).run [.compileAll martialClasses]
    s.compiler.isRegistered ⟨.charClass, "Fighter"⟩ = true ∧
      (s.compiler.recompile ⟨.charClass, "Fighter", martial⟩).result = .ok () ∧
      s.book.SameContent s.current
        (s.perform (.recompile ⟨.charClass, "Fighter", martial⟩)).book ∧
      s.book.Renewed s.current ⟨.charClass, "Fighter"⟩
        (s.perform (.recompile ⟨.charClass, "Fighter", martial⟩)).book := by
  intro s
  have hkey : s.compiler.isRegistered ⟨.charClass, "Fighter"⟩ = true := by decide +kernel
  obtain ⟨record, hrecord, -, hok, hsame, hrenewed, -⟩ :=
    @recompile_unchanged .default rfl martialClasses [.compileAll martialClasses] (by decide) _ hkey
  have hfighter : latest ((Compiler.new .default martialClasses).takenAll
      [.compileAll martialClasses]) ⟨.charClass, "Fighter"⟩ =
        some ⟨.charClass, "Fighter", martial⟩ := by decide +kernel
  obtain rfl := Option.some.inj (hrecord.symm.trans hfighter)
  exact ⟨hkey, hok, hsame, hrenewed⟩

end Session

end Rulebook
