import Rulebook.Content.Record
import Rulebook.Rule
import Rulebook.Text.Sorted

/-!
# The ledger

Which record contributes which rule. A rule that several records produce is
there once, with all of them as its owners, and the first of the owners is the
one under which it was emitted.

A target at which the order of contributions matters is not to be shared: it may
carry at most one distinct rule of that sort, and once it carries one, every
record that contributes to it has to produce that same rule. `check` refuses a
record that would break this, before anything of it is committed.
-/

namespace Rulebook

/-- **A rule and the records that produce it.** -/
structure LedgerEntry where
  rule : Rule
  /-- The record that the rule was emitted under. -/
  emitter : Key
  /-- The other records that produce the rule, in the order in which they came. -/
  sharers : List Key

namespace LedgerEntry

/-- All records that produce the rule. -/
def owners (e : LedgerEntry) : List Key := e.emitter :: e.sharers

/-- Whether some other record than the given one produces the rule. -/
def isForeign (key : Key) (e : LedgerEntry) : Bool := e.owners.any (· != key)

/-- The first owner that is not the given record. -/
def otherOwner (key : Key) (e : LedgerEntry) : Key :=
  (e.owners.find? (· != key)).getD e.emitter

/-- An entry with one more owner. -/
def share (key : Key) (e : LedgerEntry) : LedgerEntry :=
  if e.owners.contains key then e else { e with sharers := e.sharers ++ [key] }

/-- **An entry without one of its owners**; none if it was the only one. -/
def release (key : Key) (e : LedgerEntry) : Option LedgerEntry :=
  match e.owners.erase key with
  | [] => none
  | emitter :: sharers => some ⟨e.rule, emitter, sharers⟩

end LedgerEntry

/-- **A rule that another record has to emit now**, since the one that emitted
it is gone. -/
structure Handover where
  owner : Key
  rule : Rule

/-- **The entries of all rules**, in the order of their first commitment. -/
structure Ledger where
  entries : List LedgerEntry

namespace Ledger

/-- The ledger of no rules. -/
def empty : Ledger := ⟨[]⟩

/-- The number of distinct rules. -/
def size (l : Ledger) : Nat := l.entries.length

/-- The entries of a target that some other record than the given one owns. -/
def foreign (l : Ledger) (key : Key) (target : String) : List LedgerEntry :=
  l.entries.filter fun e => e.rule.target == target && e.isForeign key

/-- **What stands against a record's rules at one target**, given those rules
and the entries of others. The fixed rule of each side decides, and of several
the first. -/
def objection (key : Key) (own : List Rule) (others : List LedgerEntry) :
    Option SemanticFault :=
  match others with
  | [] => none
  | first :: _ =>
    match own.find? (!·.op.isCommutative), others.find? (!·.rule.op.isCommutative) with
    | some r, some e =>
      if r == e.rule then none
      else some (.conflict r.render e.rule.render (e.otherOwner key).render)
    | some r, none => some (.override r.render first.rule.render (first.otherOwner key).render)
    | none, some e =>
      own.head?.map fun r => .mixture r.render e.rule.render (e.otherOwner key).render
    | none, none => none

/-- The targets of some rules, each once, in ascending order. -/
def targets (rules : List Rule) : List String :=
  Text.sortOn id (rules.map Rule.target).eraseDups

/-- **Checks the rules of a record** against what other records contribute.
What only the record itself contributes is passed over, so that a record can be
checked before it replaces its own output. -/
def check (l : Ledger) (key : Key) (rules : List Rule) : Compiled Unit :=
  match (targets rules).findSome? fun target =>
      objection key (rules.filter (·.target == target)) (l.foreign key target) with
  | some fault => refused fault
  | none => .ok ()

/-- The entry of a rule. -/
def find? (l : Ledger) (rule : Rule) : Option LedgerEntry := l.entries.find? (·.rule == rule)

/-- Replaces the first entry of a rule. -/
def shareFirst (key : Key) (rule : Rule) : List LedgerEntry → List LedgerEntry
  | [] => []
  | e :: es => if e.rule == rule then e.share key :: es else e :: shareFirst key rule es

/-- **Commits a rule of a record.** A rule that is there already gets one more
owner; any other gets an entry. -/
def commit (l : Ledger) (key : Key) (rule : Rule) : Ledger :=
  match l.find? rule with
  | some _ => ⟨shareFirst key rule l.entries⟩
  | none => ⟨l.entries ++ [⟨rule, key, []⟩]⟩

/-- **Commits the rules of a record in order** and says of each under which
record it was emitted before, if it was. -/
def commitAll (l : Ledger) (key : Key) : List Rule → Ledger × List (Rule × Option Key)
  | [] => (l, [])
  | rule :: rules =>
    let (after, rest) := (l.commit key rule).commitAll key rules
    (after, (rule, (l.find? rule).map LedgerEntry.emitter) :: rest)

/-- The rule of an entry and its next owner, if the given record emitted it and
others still produce it. -/
def handover? (key : Key) (e : LedgerEntry) : Option Handover :=
  if e.emitter = key then (e.release key).map fun rest => ⟨rest.emitter, rest.rule⟩ else none

/-- **The rules that others have to emit** when a record is forgotten, in
ascending order of their targets. -/
def handovers (l : Ledger) (key : Key) : List Handover :=
  Text.sortOn (·.rule.target) (l.entries.filterMap (handover? key))

/-- **Forgets a record**, and with it the rules that no other record produces. -/
def forget (l : Ledger) (key : Key) : Ledger :=
  ⟨l.entries.filterMap (LedgerEntry.release key)⟩

end Ledger

end Rulebook
