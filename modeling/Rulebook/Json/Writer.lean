import Rulebook.Json.Basic
import Rulebook.Text.Quoted

/-!
# Writing JSON

Values are written without blanks, numbers in the layout of stored numbers. A
number that is not finite has no form in JSON and is written as null, and so is
what makes no sense.
-/

namespace Rulebook.Json

/-- One character of a text. -/
def escapeChar (c : Char) : List Char :=
  if c = '"' then ['\\', '"']
  else if c = '\\' then ['\\', '\\']
  else if c = '\n' then ['\\', 'n']
  else if c = '\r' then ['\\', 'r']
  else if c = '\t' then ['\\', 't']
  else if c = '\x08' then ['\\', 'b']
  else if c = '\x0c' then ['\\', 'f']
  else if c.toNat < 0x20 then
    ['\\', 'u', '0', '0', Text.hexDigit (c.toNat / 16), Text.hexDigit (c.toNat % 16)]
  else [c]

/-- A text in quotes. -/
def textChars (s : String) : List Char := '"' :: s.toList.flatMap escapeChar ++ ['"']

mutual

/-- **A value as JSON text**, and some text after it. -/
def charsBefore : Json → List Char → List Char
  | null, after => "null".toList ++ after
  | bool true, after => "true".toList ++ after
  | bool false, after => "false".toList ++ after
  | whole n, after => (if n < 0 then ['-'] else []) ++ Numeral.digitsOfNat n.natAbs ++ after
  | real x, after => (if x.isFinite then Layout.stored.chars x else "null".toList) ++ after
  | string s, after => textChars s ++ after
  | senseless, after => "null".toList ++ after
  | array items, after => '[' :: itemsBefore items (']' :: after)
  | object fields, after => '\x7b' :: fieldsBefore fields ('\x7d' :: after)

/-- Items with commas between them, and some text after them. -/
def itemsBefore : List Json → List Char → List Char
  | [], after => after
  | [j], after => charsBefore j after
  | j :: k :: rest, after => charsBefore j (',' :: itemsBefore (k :: rest) after)

/-- Fields with commas between them, and some text after them. -/
def fieldsBefore : List (String × Json) → List Char → List Char
  | [], after => after
  | [(key, j)], after => textChars key ++ ':' :: charsBefore j after
  | (key, j) :: field :: rest, after =>
    textChars key ++ ':' :: charsBefore j (',' :: fieldsBefore (field :: rest) after)

end

/-- A value as JSON text, character by character. -/
def chars (j : Json) : List Char := charsBefore j []

/-- A value as JSON text. -/
def write (j : Json) : String := String.ofList j.chars

end Rulebook.Json
