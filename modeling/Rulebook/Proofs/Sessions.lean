import Mathlib.Logic.Function.Basic
import Rulebook.Compiler
import Rulebook.Proofs.Outcomes

/-!
# Sessions

A compiler is used through four calls. A *session* makes calls in any order, on
any records, and keeps one book that carries out all edits. It also remembers
which outputs were accepted; the last accepted output of a record is the one
that its chapter should show.

What a single call can do is said once, in `register_cases` and
`recompile_cases`. In either case the record is known afterwards, and nothing
else happens unless it compiles and passes the check. A batch is made of
registrations, so what these two calls preserve holds in every session.
-/

namespace Rulebook

/-- **What can be asked of a compiler.** -/
inductive Call where
  | compile (record : Record)
  | register (record : Record)
  | recompile (record : Record)
  | compileAll (records : List Record)

/-- **A call, one record at a time**: the records of a batch are registered. -/
def Call.oneByOne : Call → List Call
  | .compileAll records => records.map .register
  | call => [call]

/-- What a compiler answers. -/
inductive Answer where
  | output (result : Except RecordError Output)
  | outcome (result : Except RecordError Unit)
  | report (report : Report)

namespace Compiler

variable {c : Compiler} {record : Record} {o : Output}

/-- **Carries out a call.** -/
def call (c : Compiler) : Call → Step Answer
  | .compile record => ⟨c, .none, .output (c.compile record)⟩
  | .register record =>
    let step := c.register record
    ⟨step.compiler, step.effects, .outcome step.result⟩
  | .recompile record =>
    let step := c.recompile record
    ⟨step.compiler, step.effects, .outcome step.result⟩
  | .compileAll records =>
    let step := c.compileAll records
    ⟨step.compiler, step.effects, .report step.result⟩

/-- The compiler after some calls. -/
def after (c : Compiler) (calls : List Call) : Compiler :=
  calls.foldl (fun c call => (c.call call).compiler) c

/-- **What some calls answer and pass on**, one by one. -/
def trace (c : Compiler) : List Call → List (Effects × Answer)
  | [] => []
  | call :: calls =>
    let step := c.call call
    (step.effects, step.result) :: step.compiler.trace calls

/-! ## What a call can do -/

theorem prepare_eq_ok : c.prepare record = .ok o ↔
    c.compile record = .ok o ∧ c.ledger.check record.key o.rules = .ok () := by
  unfold prepare
  simp only [Outcome.bind_eq_ok, Outcome.mapError_eq_ok, Outcome.pure_eq_ok]
  constructor
  · rintro ⟨_, ho, ⟨⟩, hcheck, rfl⟩
    exact ⟨ho, hcheck⟩
  · rintro ⟨ho, hcheck⟩
    exact ⟨o, ho, (), hcheck, rfl⟩

/-- **Registering** refuses a record that is registered, or makes it known and
fails to compile it, or emits its output. -/
theorem register_cases (c : Compiler) (record : Record) :
    (record.key ∈ c.registered ∧
      c.register record = ⟨c, .none, .error ⟨record.key, .semantic .alreadyRegistered⟩⟩) ∨
    (record.key ∉ c.registered ∧ ∃ e, (c.know record.key).prepare record = .error e ∧
      c.register record = ⟨c.know record.key, .none, .error e⟩) ∨
    (record.key ∉ c.registered ∧ ∃ o, (c.know record.key).prepare record = .ok o ∧
      c.register record = ⟨((c.know record.key).emit record.key o).1,
        ((c.know record.key).emit record.key o).2, .ok ()⟩) := by
  unfold register isRegistered
  dsimp only
  by_cases hkey : record.key ∈ c.registered
  · rw [if_pos (List.contains_iff_mem.2 hkey)]
    exact .inl ⟨hkey, rfl⟩
  · rw [if_neg (fun h => hkey (List.contains_iff_mem.1 h))]
    cases (c.know record.key).prepare record with
    | error e => exact .inr (.inl ⟨hkey, e, rfl, rfl⟩)
    | ok o => exact .inr (.inr ⟨hkey, o, rfl, rfl⟩)

/-- **Recompiling** makes a record known and fails to compile it, or withdraws
what it had put out and emits its output. -/
theorem recompile_cases (c : Compiler) (record : Record) :
    (∃ e, (c.know record.key).prepare record = .error e ∧
      c.recompile record = ⟨c.know record.key, .none, .error e⟩) ∨
    (∃ o, (c.know record.key).prepare record = .ok o ∧
      c.recompile record = ⟨(((c.know record.key).withdraw record.key).1.emit record.key o).1,
        ((c.know record.key).withdraw record.key).2 ++
          (((c.know record.key).withdraw record.key).1.emit record.key o).2, .ok ()⟩) := by
  unfold recompile
  dsimp only
  cases (c.know record.key).prepare record with
  | error e => exact .inl ⟨e, rfl, rfl⟩
  | ok o => exact .inr ⟨o, rfl, rfl⟩

/-! ## Batches -/

/-- Carries out the registrations of a batch. -/
def registerEach (c : Compiler) (records : List Record) : Compiler :=
  records.foldl (fun c record => (c.register record).compiler) c

/-- The edits of the registrations of a batch. -/
def batchEdits (c : Compiler) : List Record → List Edit
  | [] => []
  | record :: records =>
    (c.register record).effects.edits ++ (c.register record).compiler.batchEdits records

theorem compiler_registerAll {report : Report} {records : List Record} :
    (c.registerAll report records).compiler = c.registerEach records := by
  induction records generalizing c report with
  | nil => rfl
  | cons record records ih => exact ih

theorem edits_registerAll {report : Report} {records : List Record} :
    (c.registerAll report records).effects.edits = c.batchEdits records := by
  induction records generalizing c report with
  | nil => rfl
  | cons record records ih =>
    rw [batchEdits, ← ih]
    show (_ ++ []) ++ _ = _
    rw [List.append_nil]

theorem compiler_compileAll {records : List Record} :
    (c.compileAll records).compiler = c.registerEach records := compiler_registerAll

theorem edits_compileAll {records : List Record} :
    (c.compileAll records).effects.edits = c.batchEdits records := by
  show (c.registerAll _ records).effects.edits ++ [] = _
  rw [List.append_nil, edits_registerAll]

/-! ## Accepted outputs -/

/-- The output of a record when it is handed in: what it compiles to once it is
known. -/
def output? (c : Compiler) (record : Record) : Option Output :=
  ((c.know record.key).compile record).toOption

/-- The output that a step accepted, given the step's result. -/
def acceptedBy (c : Compiler) (record : Record) : Except RecordError Unit → List (Key × Output)
  | .ok () => (c.output? record).toList.map (record.key, ·)
  | .error _ => []

/-- The outputs that a batch accepts. -/
def acceptedEach (c : Compiler) : List Record → List (Key × Output)
  | [] => []
  | record :: records =>
    c.acceptedBy record (c.register record).result ++
      (c.register record).compiler.acceptedEach records

/-- **The outputs that a call accepts**, in order: those of the records that it
registers or recompiles without failing. -/
def accepted (c : Compiler) : Call → List (Key × Output)
  | .compile _ => []
  | .register record => c.acceptedBy record (c.register record).result
  | .recompile record => c.acceptedBy record (c.recompile record).result
  | .compileAll records => c.acceptedEach records

theorem acceptedBy_ok (h : (c.know record.key).prepare record = .ok o) :
    c.acceptedBy record (.ok ()) = [(record.key, o)] := by
  unfold acceptedBy output?
  rw [(prepare_eq_ok.1 h).1]
  rfl

end Compiler

/-- **A compiler in use**, with a book that carries out its edits and all
outputs that it accepted. -/
structure Session where
  compiler : Compiler
  book : Book
  accepted : List (Key × Output)

namespace Session

/-- A session with a new compiler, for whose records the names of the given ones
are known, and an empty book. -/
def start (settings : Settings) (records : List Record) : Session :=
  ⟨.new settings records, .empty, []⟩

/-- **Makes a call** and carries out its edits. -/
def perform (s : Session) (call : Call) : Session :=
  let step := s.compiler.call call
  ⟨step.compiler, s.book.applyAll step.effects.edits, s.accepted ++ s.compiler.accepted call⟩

/-- **Makes calls in order.** -/
def run (s : Session) (calls : List Call) : Session := calls.foldl perform s

/-- **The last output of a record** among some accepted ones. -/
def lastOutput (accepted : List (Key × Output)) (key : Key) : Option Output :=
  accepted.reverse.lookup key

/-- **The current output of a record**: the last one that was accepted. -/
def current (s : Session) (key : Key) : Option Output := lastOutput s.accepted key

theorem lastOutput_append {accepted : List (Key × Output)} {key : Key} {o : Output} :
    lastOutput (accepted ++ [(key, o)]) =
      Function.update (lastOutput accepted) key (some o) := by
  funext other
  unfold lastOutput
  rw [List.reverse_append, List.reverse_singleton, List.singleton_append, List.lookup_cons,
    Function.update_apply]
  by_cases h : other = key
  · rw [beq_iff_eq.2 h, if_pos h]
  · rw [beq_eq_false_iff_ne.2 h, if_neg h]

end Session

/-! ## Stages -/

/-- What is withdrawn is nobody's output. -/
theorem mem_update_none {current : Key → Option Output} {key other : Key} {o : Output} :
    o ∈ Function.update current key none other ↔ other ≠ key ∧ o ∈ current other := by
  rw [Function.update_apply]
  split
  · next heq => exact iff_of_false nofun (fun h => h.1 heq)
  · next hne => exact (and_iff_right hne).symm

/-- What is brought is the output of one record, and the others keep theirs. -/
theorem mem_update_some {current : Key → Option Output} {key other : Key} {o o' : Output} :
    o' ∈ Function.update current key (some o) other ↔
      other = key ∧ o' = o ∨ other ≠ key ∧ o' ∈ current other := by
  rw [Function.update_apply]
  split
  · next heq => simp [heq, eq_comm]
  · next hne => simp [hne]

/-- **What matters of a session**: the compiler, the book, and the current
outputs. -/
structure Stage where
  compiler : Compiler
  book : Book
  current : Key → Option Output

namespace Stage

/-- Makes a record known. -/
def know (t : Stage) (key : Key) : Stage := { t with compiler := t.compiler.know key }

/-- Takes the output of a record away. -/
def withdraw (t : Stage) (key : Key) : Stage where
  compiler := (t.compiler.withdraw key).1
  book := t.book.applyAll (t.compiler.withdraw key).2.edits
  current := Function.update t.current key none

/-- Brings an output for a record. -/
def emit (t : Stage) (key : Key) (o : Output) : Stage where
  compiler := (t.compiler.emit key o).1
  book := t.book.applyAll (t.compiler.emit key o).2.edits
  current := Function.update t.current key (some o)

end Stage

namespace Session

/-- The stage that a session is in. -/
def stage (s : Session) : Stage := ⟨s.compiler, s.book, s.current⟩

/-- **What registering does to a stage.** -/
theorem stage_register_cases (s : Session) (record : Record) :
    (∃ e, (s.compiler.register record).result = .error e ∧
      (s.perform (.register record)).stage = s.stage) ∨
    (∃ e, (s.compiler.register record).result = .error e ∧
      (s.perform (.register record)).stage = s.stage.know record.key) ∨
    (record.key ∉ s.compiler.registered ∧
      ∃ o, (s.compiler.know record.key).prepare record = .ok o ∧
        (s.perform (.register record)).stage = (s.stage.know record.key).emit record.key o) := by
  have hstage : (s.perform (.register record)).stage =
      ⟨(s.compiler.register record).compiler,
        s.book.applyAll (s.compiler.register record).effects.edits,
        lastOutput (s.accepted ++
          s.compiler.acceptedBy record (s.compiler.register record).result)⟩ := rfl
  rw [hstage]
  obtain ⟨-, heq⟩ | ⟨-, e, -, heq⟩ | ⟨hnew, o, ho, heq⟩ := s.compiler.register_cases record
  · refine .inl ⟨_, congrArg Step.result heq, ?_⟩
    rw [heq]
    show (⟨_, _, lastOutput (s.accepted ++ [])⟩ : Stage) = _
    rw [List.append_nil]
    rfl
  · refine .inr (.inl ⟨e, congrArg Step.result heq, ?_⟩)
    rw [heq]
    show (⟨_, _, lastOutput (s.accepted ++ [])⟩ : Stage) = _
    rw [List.append_nil]
    rfl
  · refine .inr (.inr ⟨hnew, o, ho, ?_⟩)
    rw [heq]
    dsimp only
    rw [Compiler.acceptedBy_ok ho, lastOutput_append]
    rfl

/-- **What recompiling does to a stage.** -/
theorem stage_recompile_cases (s : Session) (record : Record) :
    (∃ e, (s.compiler.recompile record).result = .error e ∧
      (s.perform (.recompile record)).stage = s.stage.know record.key) ∨
    ∃ o, (s.compiler.know record.key).prepare record = .ok o ∧
      (s.perform (.recompile record)).stage =
        ((s.stage.know record.key).withdraw record.key).emit record.key o := by
  have hstage : (s.perform (.recompile record)).stage =
      ⟨(s.compiler.recompile record).compiler,
        s.book.applyAll (s.compiler.recompile record).effects.edits,
        lastOutput (s.accepted ++
          s.compiler.acceptedBy record (s.compiler.recompile record).result)⟩ := rfl
  rw [hstage]
  obtain ⟨e, -, heq⟩ | ⟨o, ho, heq⟩ := s.compiler.recompile_cases record
  · refine .inl ⟨e, congrArg Step.result heq, ?_⟩
    rw [heq]
    show (⟨_, _, lastOutput (s.accepted ++ [])⟩ : Stage) = _
    rw [List.append_nil]
    rfl
  · refine .inr ⟨o, ho, ?_⟩
    rw [heq]
    dsimp only
    rw [Compiler.acceptedBy_ok ho, lastOutput_append, Effects.edits_append, Book.applyAll_append]
    -- the output that is taken away is the one that is replaced
    have hidem := Function.update_idem (β := fun _ => Option Output) (a := record.key) none
      (some o) (lastOutput s.accepted)
    exact congrArg (Stage.mk _ _) hidem.symm

/-! ## Induction over sessions -/

theorem perform_compile (s : Session) (record : Record) : s.perform (.compile record) = s := by
  show (⟨s.compiler, s.book.applyAll [], s.accepted ++ []⟩ : Session) = s
  rw [Book.applyAll_nil, List.append_nil]

/-- **A batch** is registering its records one by one. -/
theorem perform_compileAll (s : Session) (records : List Record) :
    s.perform (.compileAll records) = s.run (records.map .register) := by
  have hperform : ∀ (s : Session) (records : List Record), s.perform (.compileAll records) =
      ⟨s.compiler.registerEach records, s.book.applyAll (s.compiler.batchEdits records),
        s.accepted ++ s.compiler.acceptedEach records⟩ := by
    intro s records
    show (⟨(s.compiler.compileAll records).compiler,
      s.book.applyAll (s.compiler.compileAll records).effects.edits, _⟩ : Session) = _
    rw [Compiler.compiler_compileAll, Compiler.edits_compileAll]
    rfl
  induction records generalizing s with
  | nil =>
    rw [hperform]
    show (⟨s.compiler, s.book.applyAll [], s.accepted ++ []⟩ : Session) = s
    rw [Book.applyAll_nil, List.append_nil]
  | cons record records ih =>
    show _ = (s.perform (.register record)).run (records.map .register)
    rw [← ih, hperform, hperform, Compiler.batchEdits, Book.applyAll_append,
      Compiler.acceptedEach, ← List.append_assoc]
    rfl

theorem run_append (s : Session) (calls others : List Call) :
    s.run (calls ++ others) = (s.run calls).run others :=
  List.foldl_append

/-- **Every session** takes one record at a time. -/
theorem run_oneByOne (s : Session) (calls : List Call) :
    s.run (calls.flatMap Call.oneByOne) = s.run calls := by
  induction calls generalizing s with
  | nil => rfl
  | cons call calls ih =>
    have hcall : s.run call.oneByOne = s.perform call := by
      cases call with
      | compile record => rfl
      | register record => rfl
      | recompile record => rfl
      | compileAll records => exact (s.perform_compileAll records).symm
    rw [List.flatMap_cons, run_append, hcall, ih]
    rfl

/-- **What registering and recompiling preserve, every session preserves.** -/
theorem run_induction {P : Session → Prop}
    (hregister : ∀ s record, P s → P (s.perform (.register record)))
    (hrecompile : ∀ s record, P s → P (s.perform (.recompile record))) {s : Session} (h : P s)
    (calls : List Call) : P (s.run calls) := by
  have heach : ∀ (records : List Record) {s : Session}, P s →
      P (s.run (records.map .register)) := by
    intro records
    induction records with
    | nil => exact fun h => h
    | cons record records ih => exact fun h => ih (hregister _ record h)
  induction calls generalizing s with
  | nil => exact h
  | cons call calls ih =>
    refine ih ?_
    cases call with
    | compile record => rwa [perform_compile]
    | register record => exact hregister s record h
    | recompile record => exact hrecompile s record h
    | compileAll records =>
      rw [perform_compileAll]
      exact heach records h

theorem compiler_run (s : Session) (calls : List Call) :
    (s.run calls).compiler = s.compiler.after calls := by
  induction calls generalizing s with
  | nil => rfl
  | cons call calls ih => exact ih (s.perform call)

end Session

end Rulebook
