import Rulebook.Regex.Basic

/-!
# The room of a regular expression

A machine that runs an expression goes from step to step, and a step may fork
into several ways. Repetitions with counts are written out: `a{3}` takes as many
steps as `aaa`. So a short expression can stand for a huge machine, and its size
has to be bounded before it is built. The size is counted in bytes, those of the
steps and of what belongs to them. It is the one that `regex-lite` holds against its
limit, on a machine with words of eight bytes.
-/

namespace Rulebook.Regex

/-- The room of a step. -/
def stepRoom : Nat := 32

/-- The room of a way on from a fork. -/
def wayRoom : Nat := 4

/-- The room of a range of characters. -/
def rangeRoom : Nat := 8

/-- The room of a number of a group. -/
def numberRoom : Nat := 16

/-- The room of a fork with two ways. -/
def forkRoom : Nat := stepRoom + 2 * wayRoom

mutual

/-- **Whether an expression may match the empty text**, conditions left aside. -/
def matchesEmpty : Regex → Bool
  | char _ | chars _ => false
  | look _ => true
  | sequence rs => matchEmpty rs
  | anyOf rs => anyMatchesEmpty rs
  | group _ r => matchesEmpty r
  | repetition least _ r => least = 0 || matchesEmpty r

/-- Whether all of some expressions may match the empty text. -/
def matchEmpty : List Regex → Bool
  | [] => true
  | r :: rs => matchesEmpty r && matchEmpty rs

/-- Whether one of some expressions may match the empty text. -/
def anyMatchesEmpty : List Regex → Bool
  | [] => false
  | r :: rs => matchesEmpty r || anyMatchesEmpty rs

end

/-- **The room of a repetition** of what takes `part`. A fork leads on or into
another round. Where a round may take no character, a star needs a fork before it
and one behind it. -/
def repetitionRoom (part : Nat) (emptyRounds : Bool) : Nat → Option Nat → Nat
  | 0, none => part + if emptyRounds then 2 * forkRoom + stepRoom else forkRoom
  | 0, some 1 => part + forkRoom + stepRoom
  | least, none => least * part + forkRoom
  | least, some most =>
    let required := if least = 0 then stepRoom else least * part
    if least = most then required
    else required + stepRoom + (most - least) * (part + forkRoom)

mutual

/-- **The room of an expression**, its group numbers left aside. -/
def room : Regex → Nat
  | char _ | look _ => stepRoom
  | chars s => stepRoom + s.ranges.length * rangeRoom
  | sequence [] => stepRoom
  | sequence (r :: rs) => room r + roomAll rs
  | anyOf rs => roomAll rs + 2 * stepRoom + rs.length * wayRoom
  | group _ r => room r + 2 * stepRoom
  | repetition least most r => repetitionRoom (room r) (matchesEmpty r) least most

/-- The room of some expressions together. -/
def roomAll : List Regex → Nat
  | [] => 0
  | r :: rs => room r + roomAll rs

/-- The groups of an expression, in order. -/
def groups : Regex → List Group
  | char _ | chars _ | look _ => []
  | sequence rs | anyOf rs => groupsAll rs
  | group g r => g :: groups r
  | repetition _ _ r => groups r

/-- The groups of some expressions, in order. -/
def groupsAll : List Regex → List Group
  | [] => []
  | r :: rs => groups r ++ groupsAll rs

end

/-- The room of the name of a group. -/
def nameRoom (g : Group) : Nat :=
  match g.name with
  | none => 0
  | some name => (String.ofList name).utf8ByteSize + wayRoom

/-- The room of the names and numbers of some groups. Numbers are kept up to the
largest, zero included. -/
def labelRoom (groups : List Group) : Nat :=
  groups.foldl (fun n g => n + nameRoom g) 0 +
    (groups.foldl (fun n g => max n g.number) 0 + 1) * numberRoom

/-- **The room that an expression takes as a whole**: group zero is around all
of it, and a last step ends it. -/
def wholeRoom (r : Regex) : Nat := r.room + 3 * stepRoom + labelRoom r.groups

/-- How much room an expression may take. -/
def mostRoom : Nat := 10 * Nat.pow 2 20

end Rulebook.Regex
