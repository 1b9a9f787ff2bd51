import Rulebook.Double

/-!
# JSON values

Rules, formulas and settings are stored as JSON. Keys of an object keep their
order and may repeat; whoever reads an object decides what a repeated key
means.

A structure may be stored as an object or as an array of its members in order.
`members` reads both. Members of other names are passed over and need not make
sense; all that is asked of them is that they follow the notation.

The modules on JSON stand for the library `serde_json` and for how structures are
stored with it, and follow what these document:

* a text is one value and blanks around it (`Json.read`); arrays and objects nest at
  most `Json.deepest` deep, but for members that are passed over;
* a whole number that fits a machine word stays one; any other is read as a double,
  without the library's option for exact reading, so that its last bit may be off
  (`Json.Reader`), and one too large for a double is refused;
* a key of a structure may not repeat, an optional member may be absent or null, and
  other members are passed over;
* numbers are written with the fewest digits that tell them from other doubles, and
  infinities and what is no number as null (`Json.Writer`, `Json.Indented`).
-/

namespace Rulebook

/-- **A JSON value.** -/
inductive Json where
  | null
  | bool (b : Bool)
  /-- A number written without a point or an exponent. -/
  | whole (n : Int)
  /-- Any other number. One that is too large for a double is infinite. -/
  | real (x : Float)
  | string (s : String)
  /-- What follows the notation but has no value: a text with half a pair of
  units, which is no character, or an object with such a key. -/
  | senseless
  | array (items : List Json)
  | object (fields : List (String × Json))

namespace Json

/-- The values of a key, in order. -/
def valuesOf (fields : List (String × Json)) (key : String) : List Json :=
  (fields.filter (·.1 == key)).map (·.2)

/-- The value of a key that is there at most once; fails if it repeats. -/
def atMostOnce (fields : List (String × Json)) (key : String) : Option (Option Json) :=
  match valuesOf fields key with
  | [] => some none
  | [v] => some (some v)
  | _ => none

/-- **The members of a stored structure**, by the given names, absent ones
being `none`. An array has to hold the `required` first ones at least. -/
def members (names : List String) (required : Nat) : Json → Option (List (Option Json))
  | object fields => names.mapM (atMostOnce fields)
  | array items =>
    if required ≤ items.length && items.length ≤ names.length then
      some (items.map some ++ List.replicate (names.length - items.length) none)
    else none
  | _ => none

/-- A text. -/
def text? : Json → Option String
  | string s => some s
  | _ => none

/-- **The name of an alternative**, given as a text, or as an object with that
one key and nothing in it. -/
def name? : Json → Option String
  | string s => some s
  | object [(s, null)] => some s
  | _ => none

/-- The items of an array. -/
def items? : Json → Option (List Json)
  | array items => some items
  | _ => none

/-- A list of texts. -/
def texts? (j : Json) : Option (List String) := j.items?.bind (·.mapM text?)

/-- **A finite number**; whole numbers are fine too. -/
def float? : Json → Option Float
  | whole n =>
    some (Double.ofNumeral (.finite (n < 0) n.natAbs 0))
  | real x => if x.isFinite then some x else none
  | _ => none

/-- A whole number from zero to below a bound. -/
def natBelow? (bound : Nat) : Json → Option Nat
  | whole n => if 0 ≤ n && n < bound then some n.toNat else none
  | _ => none

/-- The value of a member that may be absent or null. -/
def optional? {α : Type} (read : Json → Option α) : Option Json → Option (Option α)
  | none => some none
  | some null => some none
  | some j => (read j).map some

mutual

/-- **Whether a value makes sense throughout**: it has no number beyond the
doubles in it and nothing senseless. -/
def makesSense : Json → Bool
  | real x => x.isFinite
  | senseless => false
  | array items => allMakeSense items
  | object fields => fieldsMakeSense fields
  | _ => true

/-- Whether some values make sense. -/
def allMakeSense : List Json → Bool
  | [] => true
  | j :: js => makesSense j && allMakeSense js

/-- Whether the values of some fields make sense. -/
def fieldsMakeSense : List (String × Json) → Bool
  | [] => true
  | (_, j) :: fields => makesSense j && fieldsMakeSense fields

end

/-- How deep arrays and objects may nest in what is stored. -/
def deepest : Nat := 127

mutual

/-- **How deep arrays and objects nest** in a value. -/
def depth : Json → Nat
  | array items => depthAll items + 1
  | object fields => depthFields fields + 1
  | _ => 0

/-- How deep the deepest of some values nests. -/
def depthAll : List Json → Nat
  | [] => 0
  | j :: js => max (depth j) (depthAll js)

/-- How deep the deepest of some fields nests. -/
def depthFields : List (String × Json) → Nat
  | [] => 0
  | (_, j) :: fields => max (depth j) (depthFields fields)

end

end Json

end Rulebook
