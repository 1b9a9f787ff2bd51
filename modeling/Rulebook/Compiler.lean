import Rulebook.Book
import Rulebook.Compile.Record
import Rulebook.Ledger

/-!
# The compiler

The compiler takes records one at a time. A record is compiled in full and
checked against the ledger first; only then are edits passed on, so that a
record that fails leaves no trace in the book. A batch goes on after a failure
and reports it at the end.

A record counts as known from the moment it is handed in, whether it compiles
or not. What later records may refer to does not depend on it.
-/

namespace Rulebook

/-- **What the compiler reports while it works.** -/
inductive Event where
  | registered (key : Key) (rules collapsed notes : Nat)
  /-- A rule that had been emitted for another record. -/
  | collapsed (rule : Rule) (owner : Key)
  | retracted (key : Key) (handovers : Nat)
  | skipped (error : RecordError)
  /-- The end of a batch. -/
  | compiled (registered skipped rules : Nat)

/-- How much an event matters. -/
inductive Severity where
  | debug | info | warn
  deriving DecidableEq, Repr

/-- The name of a severity in logs. -/
def Severity.name : Severity → String
  | debug => "DEBUG"
  | info => "INFO"
  | warn => "WARN"

/-- How much an event matters. -/
def Event.severity : Event → Severity
  | registered .. | collapsed .. | retracted .. => .debug
  | skipped .. => .warn
  | compiled .. => .info

/-- What logs say of an event. -/
def Event.message : Event → String
  | registered .. => "Registered record"
  | collapsed .. => "Collapsed duplicate rule"
  | retracted .. => "Retracted record output"
  | skipped .. => "Skipped content record"
  | compiled .. => "Compiled content records"

/-- **What a step of the compiler passes on**: edits for the book, and events. -/
structure Effects where
  edits : List Edit
  events : List Event

namespace Effects

/-- Nothing to pass on. -/
def none : Effects := ⟨[], []⟩

instance : Append Effects := ⟨fun a b => ⟨a.edits ++ b.edits, a.events ++ b.events⟩⟩

@[simp] theorem edits_append (a b : Effects) : (a ++ b).edits = a.edits ++ b.edits := rfl
@[simp] theorem events_append (a b : Effects) : (a ++ b).events = a.events ++ b.events := rfl

end Effects

/-- **The state of the compiler.** -/
structure Compiler where
  settings : Settings
  catalog : Catalog
  ledger : Ledger
  /-- The records whose output is in the book. -/
  registered : List Key

/-- **The end of a step**: the compiler as it is then, what the step passes on,
and its result. -/
structure Step (α : Type) where
  compiler : Compiler
  effects : Effects
  result : α

/-- **How a batch went.** -/
structure Report where
  registered : List Key
  skipped : List RecordError

/-- Whether no record was skipped. -/
def Report.isClean (r : Report) : Bool := r.skipped.isEmpty

namespace Compiler

/-- A compiler for whose records the names of the given ones are known. -/
def new (settings : Settings) (records : List Record) : Compiler where
  settings := settings
  catalog := .ofRecords records
  ledger := .empty
  registered := []

/-- Whether the output of a record is in the book. -/
def isRegistered (c : Compiler) (key : Key) : Bool := c.registered.contains key

/-- The number of distinct rules that were emitted. -/
def ruleCount (c : Compiler) : Nat := c.ledger.size

/-- What records can see while they are compiled. -/
def context (c : Compiler) : Context := ⟨c.settings, c.catalog⟩

/-- **Compiles a record** without registering anything. -/
def compile (c : Compiler) (record : Record) : Except RecordError Output :=
  (record.compile c.context).mapError (⟨record.key, ·⟩)

/-- The compiler once a record is known. -/
def know (c : Compiler) (key : Key) : Compiler := { c with catalog := c.catalog.insert key }

/-- **Compiles a record and checks it** against the output of the others. -/
def prepare (c : Compiler) (record : Record) : Except RecordError Output := do
  let output ← c.compile record
  (c.ledger.check record.key output.rules).mapError (⟨record.key, ·⟩)
  return output

/-- The edits that emit rules which were not emitted before. -/
def newRules (committed : List (Rule × Option Key)) : List Edit :=
  committed.filterMap fun (r, owner) => if owner.isNone then some (.rule r) else none

/-- The events for rules which were emitted before. -/
def collapses (committed : List (Rule × Option Key)) : List Event :=
  committed.filterMap fun (r, owner) => owner.map (.collapsed r)

/-- **Emits the output of a record.** Rules that were emitted for another record
are not emitted again. -/
def emit (c : Compiler) (key : Key) (output : Output) : Compiler × Effects :=
  let (ledger, committed) := c.ledger.commitAll key output.rules
  let edits := .begin key :: output.sections.map .sheetSection ++ newRules committed ++
    output.notes.map .note ++ output.choices.map .choice
  let collapsed := collapses committed
  let summary := .registered key (output.rules.length - collapsed.length) collapsed.length
    output.notes.length
  ({ c with ledger, registered := c.registered ++ [key] }, ⟨edits, collapsed ++ [summary]⟩)

/-- The edits by which another record emits a rule. -/
def handoverEdits (h : Handover) : List Edit := [.begin h.owner, .rule h.rule]

/-- **Withdraws the output of a record.** What others still produce is emitted
again for them. -/
def withdraw (c : Compiler) (key : Key) : Compiler × Effects :=
  let handovers := c.ledger.handovers key
  ({ c with ledger := c.ledger.forget key, registered := c.registered.erase key },
    ⟨.retract key :: handovers.flatMap handoverEdits, [.retracted key handovers.length]⟩)

/-- **Registers a record**, which must not be registered already. -/
def register (c : Compiler) (record : Record) : Step (Except RecordError Unit) :=
  let key := record.key
  if c.isRegistered key then
    ⟨c, .none, .error ⟨key, .semantic .alreadyRegistered⟩⟩
  else
    let known := c.know key
    match known.prepare record with
    | .error e => ⟨known, .none, .error e⟩
    | .ok output =>
      let (after, effects) := known.emit key output
      ⟨after, effects, .ok ()⟩

/-- **Replaces the output of a record.** If it does not compile, its old output
stays. -/
def recompile (c : Compiler) (record : Record) : Step (Except RecordError Unit) :=
  let key := record.key
  let known := c.know key
  match known.prepare record with
  | .error e => ⟨known, .none, .error e⟩
  | .ok output =>
    let (without, before) := known.withdraw key
    let (after, effects) := without.emit key output
    ⟨after, before ++ effects, .ok ()⟩

/-- Registers records in order, after some whose report is known. -/
def registerAll (c : Compiler) (report : Report) : List Record → Step Report
  | [] => ⟨c, .none, report⟩
  | record :: records =>
    let step := c.register record
    let (report, events) : Report × List Event := match step.result with
      | .ok () => ({ report with registered := report.registered ++ [record.key] }, [])
      | .error e => ({ report with skipped := report.skipped ++ [e] }, [.skipped e])
    let rest := step.compiler.registerAll report records
    ⟨rest.compiler, step.effects ++ ⟨[], events⟩ ++ rest.effects, rest.result⟩

/-- **Registers every record that can be registered** and reports on the
others. -/
def compileAll (c : Compiler) (records : List Record) : Step Report :=
  let step := c.registerAll ⟨[], []⟩ records
  let report := step.result
  let summary := .compiled report.registered.length report.skipped.length step.compiler.ruleCount
  ⟨step.compiler, step.effects ++ ⟨[], [summary]⟩, report⟩

end Compiler

end Rulebook
