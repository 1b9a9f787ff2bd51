import Rulebook.Proofs.References
import Rulebook.Proofs.Sessions

/-!
# What a failed call leaves behind

A record is known from the moment it is handed in, also if it fails. So a failed
call passes nothing on and leaves ledger and registrations as they were, but it
leaves a name in the catalog, where later records find it: a race may speak a
language that was refused.

Most kinds of records are referred to by nobody, and a name of such a kind goes
unnoticed. To see this, two compilers are called *twins* if they agree in
everything but names that nobody looks at. Twins answer every call alike and are
twins afterwards, hence they answer any calls alike.
-/

namespace Rulebook

/-! ## Names that nobody looks at -/

namespace Catalog

variable {c d : Catalog} {key : Key}

/-- **Catalogs with the same visible names**, in the same order. -/
def SameVisible (c d : Catalog) : Prop :=
  ∀ kind ∈ visible, c.keys.filter (·.kind == kind) = d.keys.filter (·.kind == kind)

theorem filter_insert (p : Key → Bool) :
    (c.insert key).keys.filter p =
      c.keys.filter p ++ if c.contains key then [] else [key].filter p := by
  unfold insert
  split
  · rw [List.append_nil]
  · rw [List.filter_append]

/-- A name of a kind that is not visible is not seen. -/
theorem sameVisible_insert (h : key.kind ∉ visible) : c.SameVisible (c.insert key) := by
  intro kind hkind
  have hne : key.kind ≠ kind := fun heq => h (heq ▸ hkind)
  have hnone : [key].filter (·.kind == kind) = [] :=
    List.filter_cons_of_neg (fun heq => hne (beq_iff_eq.1 heq))
  rw [filter_insert, hnone, ite_self, List.append_nil]

namespace SameVisible

theorem contains_eq (h : c.SameVisible d) {kind : Kind} (hkind : kind ∈ visible) (name : String) :
    c.contains ⟨kind, name⟩ = d.contains ⟨kind, name⟩ := by
  have hmem {c : Catalog} : (⟨kind, name⟩ : Key) ∈ c.keys ↔
      (⟨kind, name⟩ : Key) ∈ c.keys.filter (·.kind == kind) := by
    rw [List.mem_filter, beq_self_eq_true, and_iff_left rfl]
  rw [Bool.eq_iff_iff, ← mem_keys_iff, ← mem_keys_iff, hmem, h kind hkind, ← hmem]

theorem alike (h : c.SameVisible d) : c.Alike d where
  contains _ hkind := h.contains_eq (List.mem_cons_of_mem _ hkind)
  weapons := by
    unfold names
    rw [h .weapon (List.mem_cons_self ..)]

theorem insert (h : c.SameVisible d) (key : Key) : (c.insert key).SameVisible (d.insert key) := by
  by_cases hkey : key.kind ∈ visible
  · intro kind hkind
    rw [filter_insert, filter_insert, h kind hkind, h.contains_eq hkey key.name]
  · -- the key is in neither list, whether it is inserted or not
    exact fun kind hkind =>
      ((sameVisible_insert hkey kind hkind).symm.trans (h kind hkind)).trans
        (sameVisible_insert hkey kind hkind)

end SameVisible

end Catalog

/-! ## Twins -/

namespace Compiler

/-- **Compilers that no call can tell apart**, since they differ in names that
nobody looks at. -/
structure Twin (c d : Compiler) : Prop where
  settings : c.settings = d.settings
  catalog : c.catalog.SameVisible d.catalog
  ledger : c.ledger = d.ledger
  registered : c.registered = d.registered

end Compiler

/-- **Steps that end in twins** and are otherwise the same. -/
structure Step.Twin {α : Type} (s t : Step α) : Prop where
  compiler : s.compiler.Twin t.compiler
  effects : s.effects = t.effects
  result : s.result = t.result

namespace Compiler.Twin

variable {c d : Compiler} {record : Record}

theorem compile_eq (h : c.Twin d) (record : Record) : c.compile record = d.compile record := by
  unfold Compiler.compile Compiler.context
  rw [h.settings, Record.compile_congr h.catalog.alike]

theorem prepare_eq (h : c.Twin d) (record : Record) : c.prepare record = d.prepare record := by
  unfold Compiler.prepare
  rw [h.compile_eq, h.ledger]

theorem know (h : c.Twin d) (key : Key) : (c.know key).Twin (d.know key) :=
  ⟨h.settings, h.catalog.insert key, h.ledger, h.registered⟩

theorem emit (h : c.Twin d) (key : Key) (o : Output) :
    (c.emit key o).1.Twin (d.emit key o).1 ∧ (c.emit key o).2 = (d.emit key o).2 := by
  unfold Compiler.emit
  rw [h.ledger]
  exact ⟨⟨h.settings, h.catalog, rfl, congrArg (· ++ [key]) h.registered⟩, rfl⟩

theorem withdraw (h : c.Twin d) (key : Key) :
    (c.withdraw key).1.Twin (d.withdraw key).1 ∧ (c.withdraw key).2 = (d.withdraw key).2 := by
  unfold Compiler.withdraw
  rw [h.ledger]
  exact ⟨⟨h.settings, h.catalog, rfl, congrArg (·.erase key) h.registered⟩, rfl⟩

theorem register (h : c.Twin d) (record : Record) :
    (c.register record).Twin (d.register record) := by
  have hknow := h.know record.key
  have hregistered : c.isRegistered record.key = d.isRegistered record.key :=
    congrArg (·.contains record.key) h.registered
  unfold Compiler.register
  dsimp only
  rw [hregistered, hknow.prepare_eq]
  split
  · exact ⟨h, rfl, rfl⟩
  · cases (d.know record.key).prepare record with
    | error e => exact ⟨hknow, rfl, rfl⟩
    | ok o => exact ⟨(hknow.emit record.key o).1, (hknow.emit record.key o).2, rfl⟩

theorem recompile (h : c.Twin d) (record : Record) :
    (c.recompile record).Twin (d.recompile record) := by
  have hknow := h.know record.key
  unfold Compiler.recompile
  dsimp only
  rw [hknow.prepare_eq]
  cases (d.know record.key).prepare record with
  | error e => exact ⟨hknow, rfl, rfl⟩
  | ok o =>
    obtain ⟨hwithout, hbefore⟩ := hknow.withdraw record.key
    obtain ⟨hafter, heffects⟩ := hwithout.emit record.key o
    exact ⟨hafter, congrArg₂ (· ++ ·) hbefore heffects, rfl⟩

theorem registerAll (h : c.Twin d) (report : Report) (records : List Record) :
    (c.registerAll report records).Twin (d.registerAll report records) := by
  induction records generalizing c d report with
  | nil => exact ⟨h, rfl, rfl⟩
  | cons record records ih =>
    have hstep := h.register record
    unfold Compiler.registerAll
    dsimp only
    rw [hstep.effects, hstep.result]
    have hrest := ih hstep.compiler
    exact ⟨(hrest _).compiler, congrArg (_ ++ ·) (hrest _).effects, (hrest _).result⟩

theorem compileAll (h : c.Twin d) (records : List Record) :
    (c.compileAll records).Twin (d.compileAll records) := by
  have hall := h.registerAll ⟨[], []⟩ records
  unfold Compiler.compileAll Compiler.ruleCount
  dsimp only
  rw [hall.effects, hall.result, hall.compiler.ledger]
  exact ⟨hall.compiler, rfl, rfl⟩

/-- **Twins make a call alike.** -/
theorem call (h : c.Twin d) (call : Call) : (c.call call).Twin (d.call call) := by
  cases call with
  | compile record => exact ⟨h, rfl, congrArg Answer.output (h.compile_eq record)⟩
  | register record =>
    have hstep := h.register record
    exact ⟨hstep.compiler, hstep.effects, congrArg Answer.outcome hstep.result⟩
  | recompile record =>
    have hstep := h.recompile record
    exact ⟨hstep.compiler, hstep.effects, congrArg Answer.outcome hstep.result⟩
  | compileAll records =>
    have hstep := h.compileAll records
    exact ⟨hstep.compiler, hstep.effects, congrArg Answer.report hstep.result⟩

/-- **Twins make any calls alike.** -/
theorem trace_eq (h : c.Twin d) (calls : List Call) : c.trace calls = d.trace calls := by
  induction calls generalizing c d with
  | nil => rfl
  | cons call calls ih =>
    have hstep := h.call call
    show (_, _) :: _ = (_, _) :: _
    rw [hstep.effects, hstep.result, ih hstep.compiler]

end Compiler.Twin

namespace Compiler

/-! ## Registered records are known -/

/-- **Compilers that know what they have registered.** -/
def KnowsRegistered (c : Compiler) : Prop := ∀ key ∈ c.registered, c.catalog.contains key = true

namespace KnowsRegistered

variable {c : Compiler}

theorem know (h : c.KnowsRegistered) (key : Key) : (c.know key).KnowsRegistered := by
  intro other hother
  show (c.catalog.insert key).contains other = true
  rw [Catalog.contains_insert, h other hother, Bool.or_true]

theorem know_emit (h : c.KnowsRegistered) (key : Key) (o : Output) :
    ((c.know key).emit key o).1.KnowsRegistered := by
  intro other hother
  obtain hother | hother := List.mem_append.1 hother
  · exact h.know key other hother
  · show (c.catalog.insert key).contains other = true
    rw [Catalog.contains_insert, List.mem_singleton.1 hother, beq_self_eq_true, Bool.true_or]

theorem register (h : c.KnowsRegistered) (record : Record) :
    (c.register record).compiler.KnowsRegistered := by
  obtain ⟨-, hstep⟩ | ⟨-, e, -, hstep⟩ | ⟨-, o, -, hstep⟩ := c.register_cases record
  · rw [hstep]
    exact h
  · rw [hstep]
    exact h.know record.key
  · rw [hstep]
    exact h.know_emit record.key o

theorem recompile (h : c.KnowsRegistered) (record : Record) :
    (c.recompile record).compiler.KnowsRegistered := by
  obtain ⟨e, -, hstep⟩ | ⟨o, -, hstep⟩ := c.recompile_cases record
  · rw [hstep]
    exact h.know record.key
  · have hwithout : { c with registered := c.registered.erase record.key }.KnowsRegistered :=
      fun other hother => h other (List.mem_of_mem_erase hother)
    rw [hstep]
    exact hwithout.know_emit record.key o

end KnowsRegistered

theorem knowsRegistered_after (settings : Settings) (records : List Record) (calls : List Call) :
    ((new settings records).after calls).KnowsRegistered := by
  have hnew : (new settings records).KnowsRegistered := fun _ hkey => nomatch hkey
  have hrun : ((Session.start settings records).run calls).compiler.KnowsRegistered :=
    Session.run_induction (P := fun s => s.compiler.KnowsRegistered)
      (fun _ record h => h.register record) (fun _ record h => h.recompile record) hnew calls
  rwa [Session.compiler_run] at hrun

/-! ## Failed calls -/

/-- **A failed call passes nothing on** and leaves the name of its record. -/
theorem step_of_failed {c : Compiler} (hc : c.KnowsRegistered) {record : Record}
    {step : Step (Except RecordError Unit)}
    (hstep : step = c.register record ∨ step = c.recompile record) {e : RecordError}
    (hfailed : step.result = .error e) : step = ⟨c.know record.key, .none, .error e⟩ := by
  obtain rfl | rfl := hstep
  · -- a record that is refused as registered is known, so its name is not new
    obtain ⟨hregistered, hstep⟩ | ⟨-, e', -, hstep⟩ | ⟨-, o, -, hstep⟩ := c.register_cases record
    · have hknown := hc record.key hregistered
      rw [hstep] at hfailed ⊢
      rw [know_eq_self_iff.2 hknown, ← hfailed]
    · rw [hstep] at hfailed ⊢
      rw [← hfailed]
    · rw [hstep] at hfailed
      exact nomatch hfailed
  · obtain ⟨e', -, hstep⟩ | ⟨o, -, hstep⟩ := c.recompile_cases record
    · rw [hstep] at hfailed ⊢
      rw [← hfailed]
    · rw [hstep] at hfailed
      exact nomatch hfailed

/-- **A failed call leaves a name behind**, and nothing else. It leaves the
compiler as it was exactly if the record had been known before. All later calls
go as if it had not been made if the record had been known or is of a kind that
nobody looks at. -/
theorem leftover_of_failed {settings : Settings} {records : List Record} {calls : List Call}
    {c : Compiler} (hc : c = (new settings records).after calls) {record : Record}
    {step : Step (Except RecordError Unit)}
    (hstep : step = c.register record ∨ step = c.recompile record) {e : RecordError}
    (hfailed : step.result = .error e) :
    step.effects = .none ∧
      step.compiler = { c with catalog := c.catalog.insert record.key } ∧
      (step.compiler = c ↔ c.catalog.contains record.key = true) ∧
      (c.catalog.contains record.key = true ∨ record.kind ∉ Catalog.visible →
        ∀ later, step.compiler.trace later = c.trace later) := by
  have hknows : c.KnowsRegistered := hc ▸ knowsRegistered_after settings records calls
  rw [step_of_failed hknows hstep hfailed]
  refine ⟨rfl, rfl, know_eq_self_iff, ?_⟩
  rintro (hknown | hkind) later
  · show (c.know record.key).trace later = _
    rw [know_eq_self_iff.2 hknown]
  · have htwin : c.Twin (c.know record.key) :=
      ⟨rfl, Catalog.sameVisible_insert hkind, rfl, rfl⟩
    exact (htwin.trace_eq later).symm

/-- A language with a field that languages do not have. -/
def elvish : Record := ⟨.language, "Elvish", "Script=Runic"⟩

/-- A race that speaks it. -/
def elf : Record := ⟨.race, "Elf", "Languages=Elvish"⟩

/-- The race is refused, since nobody knows the language. Its name stays, but
nobody looks at the names of races. -/
theorem leftover_of_refused_elf :
    ∃ e, ((new .default []).register elf).result = .error e ∧
      ((new .default []).register elf).effects = .none ∧
      ((new .default []).register elf).compiler ≠ new .default [] ∧
      ∀ later, ((new .default []).register elf).compiler.trace later =
        (new .default []).trace later := by
  have hfails : ((new .default []).register elf).result.isOk = false := by decide +kernel
  obtain ⟨e, he⟩ := Outcome.exists_of_isOk_eq_false hfails
  obtain ⟨heffects, -, hsame, hlater⟩ :=
    @leftover_of_failed .default [] [] _ rfl elf _ (.inl rfl) e he
  refine ⟨e, he, heffects, fun h => ?_, hlater (.inr (by decide))⟩
  exact absurd (hsame.1 h) (by decide)

/-- **A race speaks a language that was refused**, which it could not if nobody
had tried to register the language. -/
theorem elf_speaks_refused_elvish :
    (∃ e, ((new .default []).register elvish).result = .error e) ∧
      ((new .default []).register elvish).compiler.trace [.register elf] ≠
        (new .default []).trace [.register elf] := by
  have hfails : ((new .default []).register elvish).result.isOk = false := by decide +kernel
  refine ⟨Outcome.exists_of_isOk_eq_false hfails, fun h => ?_⟩
  have hedits := congrArg (·.map fun (effects, _) => effects.edits.length) h
  revert hedits
  decide +kernel

end Compiler

end Rulebook
