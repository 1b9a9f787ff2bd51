import Rulebook.Formula.Basic
import Rulebook.Json.Basic
import Rulebook.Text.Whole

/-!
# Stored formulas

A stored formula is an object whose member `type` names the sort of its
outermost part; the other members belong to that part, and members that do not
are passed over. A choice without an alternative stores null for it and may
also leave it out when it is read.

A formula can be stored as an array as well: its type, then its members in
order. Arrays and objects may nest only so deep in what is stored, and what is
around a formula counts.
-/

namespace Rulebook.Formula

mutual

/-- **The stored form of a formula.** -/
def toJson : Formula Float → Json
  | number x => .object [("type", .string "number"), ("value", .real x)]
  | text s => .object [("type", .string "text"), ("value", .string s)]
  | null => .object [("type", .string "null")]
  | source => .object [("type", .string "source")]
  | attr name => .object [("type", .string "attribute"), ("name", .string name)]
  | capture i => .object [("type", .string "capture"), ("index", .whole i)]
  | unary op a =>
    .object [("type", .string "unary"), ("op", .string op.name), ("operand", toJson a)]
  | binary op a b =>
    .object [("type", .string "binary"), ("op", .string op.name), ("left", toJson a),
      ("right", toJson b)]
  | whenever a b =>
    .object [("type", .string "conditional"), ("condition", toJson a),
      ("consequent", toJson b), ("alternative", .null)]
  | choose a b c =>
    .object [("type", .string "conditional"), ("condition", toJson a),
      ("consequent", toJson b), ("alternative", toJson c)]
  | call f args =>
    .object [("type", .string "call"), ("function", .string f.name),
      ("args", .array (toJsonList args))]

/-- The stored forms of some formulas. -/
def toJsonList : List (Formula Float) → List Json
  | [] => []
  | a :: as => toJson a :: toJsonList as

end

/-- What a stored formula gives as its type. -/
def typeMember : Json → Option Json
  | .object fields => (Json.atMostOnce fields "type").join
  | .array (j :: _) => some j
  | _ => none

/-- The types of formulas, in order. -/
def typeNames : List String :=
  ["number", "text", "null", "source", "attribute", "capture", "unary", "binary", "conditional",
    "call"]

/-- **The type of a formula inside another one**, which may be given by its
position among all types. -/
def innerType (j : Json) : Option String :=
  match typeMember j with
  | some (.string s) => some s
  | some (.whole n) => if 0 ≤ n then typeNames[n.toNat]? else none
  | _ => none

/-- **The type of a formula inside no other one.** -/
def outerType (j : Json) : Option String := (typeMember j).bind Json.text?

/-- The name of an operator or a function. -/
def operatorName : Json → Option String
  | .object [(s, .object [])] => some s
  | j => j.name?

/-- The members of a stored formula besides its type. An array has to hold all
of them. -/
def members (names : List String) : Json → Option (List (Option Json))
  | .object fields => Json.members names 0 (.object fields)
  | .array (_ :: items) => Json.members names names.length (.array items)
  | _ => none

/-- **Reads a formula of a type**, given how to read the formulas inside it. -/
def readTyped (inner : Json → Option (Formula Float)) (j : Json) :
    String → Option (Formula Float)
  | "number" => match members ["value"] j with
    | some [some value] => value.float?.map number
    | _ => none
  | "text" => match members ["value"] j with
    | some [some value] => value.text?.map text
    | _ => none
  | "null" => (members [] j).map fun _ => null
  | "source" => (members [] j).map fun _ => source
  | "attribute" => match members ["name"] j with
    | some [some name] => name.text?.map attr
    | _ => none
  | "capture" => match members ["index"] j with
    | some [some index] => (index.natBelow? Text.indexBound).map capture
    | _ => none
  | "unary" => match members ["op", "operand"] j with
    | some [some op, some a] => do
      return unary (← (operatorName op).bind UnaryOp.ofName?) (← inner a)
    | _ => none
  | "binary" => match members ["op", "left", "right"] j with
    | some [some op, some a, some b] => do
      return binary (← (operatorName op).bind BinaryOp.ofName?) (← inner a) (← inner b)
    | _ => none
  | "conditional" => match members ["condition", "consequent", "alternative"] j with
    | some [some a, some b, none] | some [some a, some b, some .null] => do
      return whenever (← inner a) (← inner b)
    | some [some a, some b, some c] => do
      return choose (← inner a) (← inner b) (← inner c)
    | _ => none
  | "call" => match members ["function", "args"] j with
    | some [some f, some args] => do
      return call (← (operatorName f).bind Function.ofName?) (← (← args.items?).mapM inner)
    | _ => none
  | _ => none

/-- **Reads a formula inside another one**, of at most the given depth. -/
def readInner : Nat → Json → Option (Formula Float)
  | 0, _ => none
  | n + 1, j => (innerType j).bind (readTyped (readInner n) j)

/-- **Reads a stored formula** that may nest so deep. It has to make sense
throughout, also in members that are passed over. -/
def ofJson (levels : Nat) (j : Json) : Option (Formula Float) :=
  if j.makesSense && j.depth ≤ levels then (outerType j).bind (readTyped (readInner levels) j)
  else none

end Rulebook.Formula
