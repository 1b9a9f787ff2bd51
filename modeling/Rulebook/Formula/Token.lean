import Rulebook.Double
import Rulebook.Error
import Rulebook.Formula.Printer
import Rulebook.Text.Blank
import Rulebook.Text.Quoted
import Rulebook.Text.Whole

/-!
# The tokens of an expression

An expression is cut into tokens from the left. Blanks separate tokens and mean
nothing else. A text stands between single or double quotes, an attribute name
that is no plain identifier between back-quotes; a backslash in either takes
the next character as it is.
-/

namespace Rulebook

/-- **A token of an expression.** -/
inductive Token where
  | number (value : Float)
  | text (value : String)
  /-- A plain identifier: an attribute, a function or a reserved word. -/
  | ident (name : String)
  /-- An attribute name in back-quotes. -/
  | quotedIdent (name : String)
  | capture (index : Nat)
  | op (op : BinaryOp)
  /-- The exclamation mark. -/
  | bang
  | openParen | closeParen | comma | question | colon
  deriving Repr

namespace Token

/-- **How messages show a token.** -/
def describe : Token → String
  | number x => s!"Number({Layout.quoted.text x})"
  | text s => s!"Text({Text.quote s})"
  | ident s => s!"Ident({Text.quote s})"
  | quotedIdent s => s!"QuotedIdent({Text.quote s})"
  | capture i => s!"Capture({Numeral.textOfNat i})"
  | op o => s!"Op({Text.quote o.symbol})"
  | bang => "Op(\"!\")"
  | openParen => "LParen"
  | closeParen => "RParen"
  | comma => "Comma"
  | question => "Question"
  | colon => "Colon"

/-- **Reads up to a closing quote**: the text between, and what follows. -/
def readQuoted (quote : Char) : List Char → Option (List Char × List Char)
  | [] => none
  | '\\' :: c :: cs => (readQuoted quote cs).map fun (s, rest) => (c :: s, rest)
  | c :: cs =>
    if c = quote then some ([], cs)
    else (readQuoted quote cs).map fun (s, rest) => (c :: s, rest)

/-- The back-quote. -/
def backQuote : Char := Char.ofNat 0x60

/-- The operator at the start of a text, the longest one first. -/
def readOp : List Char → Option (Token × List Char)
  | '<' :: '=' :: rest => some (op .le, rest)
  | '>' :: '=' :: rest => some (op .ge, rest)
  | '=' :: '=' :: rest => some (op .eq, rest)
  | '!' :: '=' :: rest => some (op .ne, rest)
  | '&' :: '&' :: rest => some (op .and, rest)
  | '|' :: '|' :: rest => some (op .or, rest)
  | '<' :: rest => some (op .lt, rest)
  | '>' :: rest => some (op .gt, rest)
  | '!' :: rest => some (bang, rest)
  | '+' :: rest => some (op .add, rest)
  | '-' :: rest => some (op .sub, rest)
  | '*' :: rest => some (op .mul, rest)
  | '/' :: rest => some (op .div, rest)
  | _ => none

/-- The characters of number literals. -/
def isNumberPart (c : Char) : Bool := c.isDigit || c = '.'

/-- Whether a text begins with a digit. -/
def startsWithDigit : List Char → Bool
  | c :: _ => c.isDigit
  | [] => false

/-- **The first token of a text that begins with no blank**, and what follows
it. The whole input is for the messages. -/
def first (input : String) (c : Char) (cs : List Char) : Compiled (Token × List Char) :=
  if c = '(' then .ok (openParen, cs)
  else if c = ')' then .ok (closeParen, cs)
  else if c = ',' then .ok (comma, cs)
  else if c = '?' then .ok (question, cs)
  else if c = ':' then .ok (colon, cs)
  else if c = '\'' || c = '"' then
    match readQuoted c cs with
    | none => malformed .unterminatedQuote
    | some (s, rest) => .ok (text (String.ofList s), rest)
  else if c = backQuote then
    match readQuoted c cs with
    | none => malformed .unterminatedAttributeQuote
    | some ([], _) => malformed (.emptyAttributeName input)
    | some (s, rest) => .ok (quotedIdent (String.ofList s), rest)
  else if c = '$' then
    let digits := cs.takeWhile Char.isDigit
    match Text.readBounded Text.indexBound digits with
    | none => malformed (.invalidCapture (String.ofList digits) input)
    | some i => .ok (capture i, cs.dropWhile Char.isDigit)
  else if c.isDigit || (c = '.' && startsWithDigit cs) then
    let literal := c :: cs.takeWhile isNumberPart
    match Quantity.read literal with
    | none => malformed (.invalidNumber (String.ofList literal) input)
    | some x => .ok (number x, cs.dropWhile isNumberPart)
  else if isNameStart c then
    .ok (ident (String.ofList (c :: cs.takeWhile isNamePart)), cs.dropWhile isNamePart)
  else
    match readOp (c :: cs) with
    | none => malformed (.unexpectedCharacter c input)
    | some (t, rest) => .ok (t, rest)

theorem length_dropWhile_le (p : Char → Bool) (cs : List Char) :
    (cs.dropWhile p).length ≤ cs.length :=
  (List.dropWhile_sublist p).length_le

theorem length_of_readQuoted {quote : Char} {cs s rest : List Char}
    (h : readQuoted quote cs = some (s, rest)) : rest.length < cs.length := by
  fun_induction readQuoted quote cs generalizing s rest with
  | case1 => simp at h
  | case2 c cs ih =>
    obtain ⟨⟨s', rest'⟩, h', heq⟩ := Option.map_eq_some_iff.1 h
    obtain ⟨-, rfl⟩ := Prod.mk.inj heq
    have := ih h'
    simp only [List.length_cons]
    omega
  | case3 cs =>
    obtain ⟨-, rfl⟩ := Prod.mk.inj (Option.some.inj h)
    simp
  | case4 c cs _ _ ih =>
    obtain ⟨⟨s', rest'⟩, h', heq⟩ := Option.map_eq_some_iff.1 h
    obtain ⟨-, rfl⟩ := Prod.mk.inj heq
    have := ih h'
    simp only [List.length_cons]
    omega

theorem length_of_readOp {cs rest : List Char} {t : Token}
    (h : readOp cs = some (t, rest)) : rest.length < cs.length := by
  unfold readOp at h
  split at h <;> grind

/-- A token is at least one character long. -/
theorem length_of_first {input : String} {c : Char} {cs rest : List Char} {t : Token}
    (h : first input c cs = .ok (t, rest)) : rest.length ≤ cs.length := by
  have quoted := @length_of_readQuoted
  have operator := @length_of_readOp (c :: cs) rest t
  have dropped := fun p => length_dropWhile_le p cs
  unfold first malformed at h
  dsimp only at h
  repeat' split at h
  all_goals first
    | contradiction
    | (simp only [Except.ok.injEq, Prod.mk.injEq] at h
       obtain ⟨-, rfl⟩ := h
       first
         | exact Nat.le_refl _
         | exact dropped _
         | exact Nat.le_of_lt (quoted ‹_›))
    | (simp only [Except.ok.injEq, Prod.mk.injEq] at h
       obtain ⟨rfl, rfl⟩ := h
       exact Nat.le_of_lt_succ (operator ‹_›))

/-- **The tokens of an expression.** -/
def scan (input : String) : List Char → Compiled (List Token)
  | [] => .ok []
  | c :: cs =>
    if Text.isBlank c then scan input cs
    else
      match _h : first input c cs with
      | .error e => .error e
      | .ok (t, rest) => (scan input rest).map (t :: ·)
  termination_by cs => cs.length
  decreasing_by
    · simp
    · have := length_of_first _h
      simp only [List.length_cons]
      omega

end Token

end Rulebook
