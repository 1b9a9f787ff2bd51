import Rulebook.Proofs.BatchOrder

/-!
# Skipped records have no effect

A batch goes on after a failure. A record may be skipped since it cannot be read,
since it refers to something that is not there, since its rules do not go with
those of others, or since one of the same key came before it. In a batch whose
names are all known from the start none of this can be noticed by the records
that come later: the compiler is the same after the failure as before it.

Hence the records that a batch *keeps*, those that are accepted when their turn
comes, make a batch of their own. It is accepted as a whole, and it leads to the
same compiler and passes on the same edits, step by step.
-/

namespace Rulebook.Compiler

variable {c : Compiler} {record : Record} {records : List Record} {report : Report}

/-- **The records that a batch keeps**: those that are accepted when their turn
comes. -/
def kept (c : Compiler) : List Record → List Record
  | [] => []
  | record :: records =>
    let step := c.register record
    let rest := step.compiler.kept records
    if step.result.isOk then record :: rest else rest

theorem kept_cons_of_ok (h : (c.register record).result = .ok ()) :
    c.kept (record :: records) = record :: (c.register record).compiler.kept records := by
  rw [kept, h]
  exact if_pos rfl

theorem kept_cons_of_error {e : RecordError} (h : (c.register record).result = .error e) :
    c.kept (record :: records) = (c.register record).compiler.kept records := by
  rw [kept, h]
  exact if_neg Bool.false_ne_true

theorem kept_sublist (c : Compiler) (records : List Record) : (c.kept records).Sublist records := by
  induction records generalizing c with
  | nil => exact .slnil
  | cons record records ih =>
    cases h : (c.register record).result with
    | ok u =>
      rw [kept_cons_of_ok h]
      exact (ih _).cons_cons record
    | error e =>
      rw [kept_cons_of_error h]
      exact (ih _).cons record

/-! ## What the report says -/

/-- **The report names the records that are kept**, in order. -/
theorem registered_registerAll : (c.registerAll report records).result.registered =
    report.registered ++ (c.kept records).map Record.key := by
  induction records generalizing c report with
  | nil => exact (List.append_nil _).symm
  | cons record records ih =>
    unfold registerAll
    dsimp only
    rw [ih]
    cases h : (c.register record).result with
    | ok u =>
      rw [kept_cons_of_ok h, List.map_cons]
      exact List.append_assoc ..
    | error e => rw [kept_cons_of_error h]

/-- Every other record is reported as skipped. -/
theorem length_skipped_registerAll :
    (c.registerAll report records).result.skipped.length + (c.kept records).length =
      report.skipped.length + records.length := by
  induction records generalizing c report with
  | nil => rfl
  | cons record records ih =>
    have hrest := @ih (c.register record).compiler
    unfold registerAll
    dsimp only
    cases h : (c.register record).result with
    | ok u =>
      rw [kept_cons_of_ok h, List.length_cons, List.length_cons, ← Nat.add_assoc, hrest,
        Nat.add_assoc]
    | error e =>
      rw [kept_cons_of_error h, hrest, List.length_append, List.length_singleton,
        List.length_cons, Nat.add_assoc, Nat.add_comm 1]

/-! ## Failures among known records -/

/-- **Refusing a known record** changes nothing. -/
theorem register_of_error (hknown : c.catalog.contains record.key = true) {e : RecordError}
    (h : (c.register record).result = .error e) : c.register record = ⟨c, .none, .error e⟩ := by
  obtain ⟨-, heq⟩ | ⟨-, e', -, heq⟩ | ⟨-, o, -, heq⟩ := c.register_cases record
  · rw [heq] at h ⊢
    rw [← h]
  · rw [know_eq_self_iff.2 hknown] at heq
    rw [heq] at h ⊢
    rw [← h]
  · rw [heq] at h
    cases h

/-- Registering a known record leaves the catalog as it is. -/
theorem catalog_register (hknown : c.catalog.contains record.key = true) :
    (c.register record).compiler.catalog = c.catalog := by
  cases h : (c.register record).result with
  | ok u =>
    rw [(register_of_ok hknown h).1]
    rfl
  | error e => rw [register_of_error hknown h]

/-- **The records that are kept** are all accepted on their own, and lead to the
same compiler by the same edits. -/
theorem replay_kept (hknown : ∀ r ∈ records, c.catalog.contains r.key = true) :
    c.AcceptsAll (c.kept records) ∧
      c.registerEach (c.kept records) = c.registerEach records ∧
      c.batchEdits (c.kept records) = c.batchEdits records := by
  induction records generalizing c with
  | nil => exact ⟨trivial, rfl, rfl⟩
  | cons record records ih =>
    obtain ⟨hrecord, hrecords⟩ := List.forall_mem_cons.1 hknown
    have hstep : ∀ r ∈ records, (c.register record).compiler.catalog.contains r.key = true := by
      rw [catalog_register hrecord]
      exact hrecords
    obtain ⟨haccepts, hcompiler, hedits⟩ := ih hstep
    cases h : (c.register record).result with
    | ok u =>
      rw [kept_cons_of_ok h]
      exact ⟨⟨h, haccepts⟩, hcompiler, congrArg (_ ++ ·) hedits⟩
    | error e =>
      -- the step that failed led from the compiler to itself
      have hself := register_of_error hrecord h
      rw [hself] at haccepts hcompiler hedits
      rw [kept_cons_of_error h, hself]
      refine ⟨haccepts, hcompiler.trans ?_, hedits.trans ?_⟩
      · show _ = (c.register record).compiler.registerEach records
        rw [hself]
      · rw [batchEdits, hself]
        rfl

/-! ## Batches on a new compiler -/

/-- **Skipped records have no effect.** A batch of any records registers some of
them and skips the others. Those that it registers make a clean batch for the
same new compiler, and this batch leads to the same compiler, with the same
ledger, and to the same book. -/
theorem compileAll_kept (settings : Settings) (records : List Record) :
    let c := new settings records
    let whole := c.compileAll records
    let part := c.compileAll (c.kept records)
    (c.kept records).Sublist records ∧
      whole.result.registered = (c.kept records).map Record.key ∧
      whole.result.skipped.length + (c.kept records).length = records.length ∧
      part.result.isClean = true ∧
      part.result.registered = whole.result.registered ∧
      part.compiler = whole.compiler ∧
      part.effects.edits = whole.effects.edits ∧
      Book.empty.applyAll part.effects.edits = .ofBatch settings records := by
  intro c whole part
  obtain ⟨haccepts, hcompiler, hedits⟩ : c.AcceptsAll (c.kept records) ∧ _ :=
    replay_kept (fun _ hr => contains_new hr)
  have hclean : part.result.isClean = true := isClean_compileAll.2 haccepts
  have hregistered : whole.result.registered = (c.kept records).map Record.key :=
    registered_registerAll
  have hkeys : part.result.registered = (c.kept (c.kept records)).map Record.key :=
    registered_registerAll
  have hskipped : whole.result.skipped.length + (c.kept records).length = records.length :=
    length_skipped_registerAll.trans (Nat.zero_add _)
  -- a clean batch keeps all of its records
  have hkept : c.kept (c.kept records) = c.kept records := by
    have hlength : part.result.skipped.length + (c.kept (c.kept records)).length =
        (c.kept records).length := length_skipped_registerAll.trans (Nat.zero_add _)
    rw [List.isEmpty_iff.1 hclean, List.length_nil, Nat.zero_add] at hlength
    exact (c.kept_sublist _).eq_of_length hlength
  have hsame : part.effects.edits = whole.effects.edits := by
    rw [edits_compileAll, edits_compileAll, hedits]
  refine ⟨c.kept_sublist records, hregistered, hskipped, hclean, ?_, ?_, hsame, ?_⟩
  · rw [hkeys, hkept, hregistered]
  · rw [compiler_compileAll, compiler_compileAll, hcompiler]
  · rw [hsame]
    rfl

end Rulebook.Compiler
