import Rulebook.Json.Basic

/-!
# Reading JSON

The reader takes JSON texts as the format defines them. What is wrong with any
other text it does not say.

A number with a point or an exponent, or one too large for a machine word, is
read by its leading digits, as many as fit a machine word, and one
multiplication with or division by a power of ten. The result can differ in its
last bit from the nearest double, as it does in `serde_json` unless it is built to
read exactly.
-/

namespace Rulebook.Json

/-- The blanks between the parts of a JSON text. -/
def isSpace (c : Char) : Bool := c = ' ' || c = '\n' || c = '\t' || c = '\r'

/-- A text without the blanks at its start. -/
def skipSpace (cs : List Char) : List Char := cs.dropWhile isSpace

/-- The value of a hexadecimal digit. -/
def hexValue (c : Char) : Option Nat :=
  if c.isDigit then some (c.toNat - '0'.toNat)
  else if 'a' ≤ c && c ≤ 'f' then some (c.toNat - 'a'.toNat + 10)
  else if 'A' ≤ c && c ≤ 'F' then some (c.toNat - 'A'.toNat + 10)
  else none

/-- Four hexadecimal digits and what follows them. -/
def readUnit : List Char → Option (Nat × List Char)
  | a :: b :: c :: d :: rest => do
    let n := ((← hexValue a) * 16 + (← hexValue b)) * 256 + (← hexValue c) * 16 + (← hexValue d)
    return (n, rest)
  | _ => none

/-- **The character of an escape**, after its backslash. Characters beyond the
first plane are written as two units; a unit of a pair without the other one is
no character. -/
def readEscape : List Char → Option (Option Char × List Char)
  | '"' :: rest => some ('"', rest)
  | '\\' :: rest => some ('\\', rest)
  | '/' :: rest => some ('/', rest)
  | 'b' :: rest => some ('\x08', rest)
  | 'f' :: rest => some ('\x0c', rest)
  | 'n' :: rest => some ('\n', rest)
  | 'r' :: rest => some ('\r', rest)
  | 't' :: rest => some ('\t', rest)
  | 'u' :: rest =>
    match readUnit rest with
    | none => none
    | some (n, rest) =>
      if n < 0xd800 || 0xe000 ≤ n then some (Char.ofNat n, rest)
      else if 0xdc00 ≤ n then some (none, rest)
      else
        match rest with
        | '\\' :: 'u' :: after =>
          match readUnit after with
          | none => none
          | some (m, after) =>
            if 0xdc00 ≤ m && m < 0xe000 then
              some (Char.ofNat (0x10000 + (n - 0xd800) * 0x400 + (m - 0xdc00)), after)
            else some (none, rest)
        | _ => some (none, rest)
  | _ => none

theorem length_of_readUnit {cs rest : List Char} {n : Nat} (h : readUnit cs = some (n, rest)) :
    rest.length < cs.length := by
  match cs with
  | a :: b :: c :: d :: cs =>
    simp only [readUnit, Option.bind_eq_bind, Option.pure_def, Option.bind_eq_some_iff,
      Option.some.injEq, Prod.mk.injEq] at h
    obtain ⟨-, -, -, -, -, -, -, -, -, rfl⟩ := h
    simp only [List.length_cons]
    omega
  | [] | [_] | [_, _] | [_, _, _] => simp [readUnit] at h

theorem length_of_readEscape {cs rest : List Char} {c : Option Char}
    (h : readEscape cs = some (c, rest)) : rest.length < cs.length := by
  unfold readEscape at h
  have := @length_of_readUnit
  grind

/-- **Reads a text** after its opening quote, character by character. Control
characters have to be escaped. -/
def readText : List Char → Option (List (Option Char) × List Char)
  | [] => none
  | c :: cs =>
    if c = '"' then some ([], cs)
    else if c = '\\' then
      match _h : readEscape cs with
      | none => none
      | some (e, rest) => (readText rest).map fun (s, rest) => (e :: s, rest)
    else if c.toNat < 0x20 then none
    else (readText cs).map fun (s, rest) => (some c :: s, rest)
  termination_by cs => cs.length
  decreasing_by
    · have := length_of_readEscape _h
      simp only [List.length_cons]
      omega
    · simp

/-- The text of some characters, if all of them are. -/
def textOf (cs : List (Option Char)) : Option String := (cs.mapM id).map String.ofList

/-- One more than the largest number of a machine word. -/
def wordBound : Nat := Nat.pow 2 64

/-- **The leading digits that fit a machine word** after those taken before,
and how many of them were taken. -/
def fitDigits : Nat → List Char → Nat × Nat
  | n, [] => (n, 0)
  | n, c :: cs =>
    let next := 10 * n + Numeral.digitValue c
    if next < wordBound then
      let (total, taken) := fitDigits next cs
      (total, taken + 1)
    else (n, 0)

/-- A power of ten that is a double. -/
def powerOfTen (e : Nat) : Float := Double.ofNumeral (.finite false 1 e)

/-- The largest power of ten that is a double. -/
def largestPower : Nat := 308

/-- Divides by powers of ten, the largest at a time, at most so often as there
are `rounds`; three of them make zero of any machine word. -/
def divideDown : Nat → Float → Nat → Float
  | 0, x, e => x / powerOfTen e
  | rounds + 1, x, e =>
    if e ≤ largestPower then x / powerOfTen e
    else divideDown rounds (x / powerOfTen largestPower) (min (e - largestPower) (4 * largestPower))

/-- **The number of some leading digits and a power of ten.** It is infinite
if it is too large. -/
def scaleDigits (digits : Nat) (exponent : Int) : Float :=
  let x := Double.ofNumeral (.finite false digits 0)
  if digits = 0 then x
  else if exponent < 0 then divideDown 4 x exponent.natAbs
  else if exponent ≤ largestPower then x * powerOfTen exponent.natAbs
  else Double.infinity

/-- The exponent of a number and what follows it; zero if there is none. -/
def readExponent : List Char → Option (Option Int × List Char)
  | [] => some (none, [])
  | c :: cs =>
    if c = 'e' || c = 'E' then
      let (negative, rest) := Numeral.splitSign cs
      let digits := rest.takeWhile Char.isDigit
      if digits.isEmpty then none
      else
        let n : Int := Numeral.natOfDigits digits
        some (some (if negative then -n else n), rest.dropWhile Char.isDigit)
    else some (none, c :: cs)

/-- The digits after the point of a number and what follows them; none at all
if there is no point. -/
def readFraction : List Char → Option (Option (List Char) × List Char)
  | '.' :: cs =>
    let digits := cs.takeWhile Char.isDigit
    if digits.isEmpty then none else some (some digits, cs.dropWhile Char.isDigit)
  | cs => some (none, cs)

/-- The number of an integer part, a fraction and an exponent. -/
def assemble (negative : Bool) (whole : List Char) (fraction : Option (List Char))
    (exponent : Option Int) : Json :=
  let (significand, taken) := fitDigits 0 whole
  let signed (x : Float) : Json := real (if negative then -x else x)
  let skipped := whole.length - taken
  match fraction, exponent with
  | none, none =>
    let fits := if negative then significand ≠ 0 && significand ≤ wordBound / 2 else true
    if skipped = 0 && fits then
      Json.whole (if negative then -significand else significand)
    else signed (scaleDigits significand skipped)
  | fraction, exponent =>
    let (significand, placed) := fitDigits significand (fraction.getD [])
    signed (scaleDigits significand (skipped - placed + exponent.getD 0))

/-- **Reads a number**: no zeros before other digits, and a digit on each side
of a point. -/
def readNumber (cs : List Char) : Option (Json × List Char) :=
  let (negative, rest) := match cs with
    | '-' :: rest => (true, rest)
    | rest => (false, rest)
  let whole := rest.takeWhile Char.isDigit
  if whole.isEmpty || (whole.head? = some '0' && whole.length ≠ 1) then none
  else do
    let (fraction, rest) ← readFraction (rest.dropWhile Char.isDigit)
    let (exponent, rest) ← readExponent rest
    return (assemble negative whole fraction exponent, rest)

/-- What follows a word that the text begins with. -/
def dropWord : List Char → List Char → Option (List Char)
  | [], cs => some cs
  | w :: ws, c :: cs => if w = c then dropWord ws cs else none
  | _ :: _, [] => none

/-- A value and what follows it. The fuel bounds the length of what is read. -/
abbrev Rest (α : Type) := Option (α × List Char)

/-- An object with some fields; it is senseless if a key is. -/
def ofFields (fields : List (Option String × Json)) : Json :=
  match fields.mapM fun (key, j) => key.map (·, j) with
  | some fields => object fields
  | none => senseless

mutual

/-- **Reads a value.** Every reader takes at least one character, so a fuel of
the length of the text is enough. -/
def readValue : Nat → List Char → Rest Json
  | 0, _ => none
  | fuel + 1, cs =>
    match skipSpace cs with
    | '"' :: cs => (readText cs).map fun (s, rest) => ((textOf s).elim senseless string, rest)
    | '[' :: cs =>
      match skipSpace cs with
      | ']' :: rest => some (array [], rest)
      | cs => (readItems fuel cs).map fun (items, rest) => (array items, rest)
    | '\x7b' :: cs =>
      match skipSpace cs with
      | '\x7d' :: rest => some (object [], rest)
      | cs => (readFields fuel cs).map fun (fields, rest) => (ofFields fields, rest)
    | 'n' :: cs => (dropWord "ull".toList cs).map (null, ·)
    | 't' :: cs => (dropWord "rue".toList cs).map (bool true, ·)
    | 'f' :: cs => (dropWord "alse".toList cs).map (bool false, ·)
    | cs => readNumber cs

/-- Reads one item or more, up to the closing bracket. -/
def readItems : Nat → List Char → Rest (List Json)
  | 0, _ => none
  | fuel + 1, cs =>
    match readValue fuel cs with
    | none => none
    | some (item, rest) =>
      match skipSpace rest with
      | ']' :: rest => some ([item], rest)
      | ',' :: rest => (readItems fuel rest).map fun (items, rest) => (item :: items, rest)
      | _ => none

/-- Reads one field or more, up to the closing brace. -/
def readFields : Nat → List Char → Rest (List (Option String × Json))
  | 0, _ => none
  | fuel + 1, cs =>
    match skipSpace cs with
    | '"' :: cs =>
      match readText cs with
      | none => none
      | some (key, rest) =>
        match skipSpace rest with
        | ':' :: rest =>
          match readValue fuel rest with
          | none => none
          | some (item, rest) =>
            let field := (textOf key, item)
            match skipSpace rest with
            | '\x7d' :: rest => some ([field], rest)
            | ',' :: rest =>
              (readFields fuel rest).map fun (fields, rest) => (field :: fields, rest)
            | _ => none
        | _ => none
    | _ => none

end

/-- **Reads a JSON text**, which is one value and blanks around it. -/
def read (text : String) : Option Json :=
  let cs := text.toList
  match readValue (2 * cs.length + 2) cs with
  | some (j, rest) => if (skipSpace rest).isEmpty then some j else none
  | none => none

end Rulebook.Json
