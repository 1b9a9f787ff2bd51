import Rulebook.Formula.Token

/-!
# Reading expressions

An expression is read from its tokens from the left. A choice is the loosest: a
condition, a question mark, and one or two choices. Operators between operands
are read by climbing: after an operand, an operator is taken if it binds at least
as tightly as is asked for, and its right operand is read asking for more. Then
come the operators before an operand, and last what stands by itself.

What a reader leaves is shorter than what it was given, or at least no longer,
and its result says so; that is why the reading ends.
-/

namespace Rulebook

/-- A formula and the tokens after it, fewer than there were before. -/
abbrev Parsed (ts : List Token) := {r : Formula Float × List Token // r.2.length < ts.length}

/-- A formula and the tokens after it, no more than there were before. -/
abbrev ParsedRest (ts : List Token) := {r : Formula Float × List Token // r.2.length ≤ ts.length}

/-- Arguments and the tokens after the parenthesis that closes them. -/
abbrev ParsedArgs (ts : List Token) :=
  {r : List (Formula Float) × List Token // r.2.length < ts.length}

section Shorter

variable {t u : Token} {a b c d : List Token}

/-- What follows the first token is shorter than the whole. -/
theorem shorter_cons : a.length < (t :: a).length := Nat.lt_succ_self _

/-- So is what is shorter than that. -/
theorem shorter_cons_of_shorter (h : b.length < a.length) : b.length < (t :: a).length :=
  Nat.lt_succ_of_lt h

/-- So is what follows a token of what is shorter than that. -/
theorem shorter_cons_of_cons (h : (u :: b).length < a.length) : b.length < (t :: a).length := by
  simp only [List.length_cons] at h ⊢
  omega

/-- A list that is no longer than a shorter one is shorter. -/
theorem shorter_of_rest (h₁ : c.length ≤ b.length) (h : b.length < a.length) :
    c.length < a.length :=
  Nat.lt_of_le_of_lt h₁ h

/-- What follows a token of a shorter list is shorter. -/
theorem shorter_of_cons (h : (t :: b).length < a.length) : b.length < a.length :=
  Nat.lt_of_succ_lt h

/-- So is what is shorter than that. -/
theorem shorter_of_cons_of_shorter (h : (t :: b).length < a.length) (h₁ : c.length < b.length) :
    c.length < a.length :=
  Nat.lt_trans h₁ (shorter_of_cons h)

/-- So is a list that comes after two such tokens. -/
theorem shorter_of_cons_of_cons (h : (t :: b).length < a.length)
    (h₁ : (u :: c).length < b.length) (h₂ : d.length < c.length) : d.length < a.length :=
  shorter_of_cons_of_shorter h (shorter_of_cons_of_shorter h₁ h₂)

/-- What is shorter than the list after two tokens is shorter than the whole. -/
theorem shorter_call (h : b.length < a.length) : b.length < (t :: u :: a).length :=
  Nat.lt_succ_of_lt (Nat.lt_succ_of_lt h)

/-- What is no longer than a list shorter than the one after a token is no
longer than the whole. -/
theorem rest_of_shorter (h : b.length < a.length) (h₁ : c.length ≤ b.length) :
    c.length ≤ (t :: a).length :=
  Nat.le_of_lt (shorter_cons_of_shorter (Nat.lt_of_le_of_lt h₁ h))

/-- A list is no longer than itself. -/
theorem rest_refl : a.length ≤ a.length := Nat.le_refl _

end Shorter

namespace Formula

/-- The precedence of the loosest operator. -/
def loosest : Nat := BinaryOp.precedence .or

/-- The formula that an identifier stands for when no parenthesis follows. -/
def ofIdent (name : String) : Formula Float :=
  if name = "source" then source
  else if name = "null" then null
  else attr name

mutual

/-- **A choice**, or a formula without one. A colon belongs to the nearest question
mark that has none yet. -/
def readChoice (input : String) (ts : List Token) : Compiled (Parsed ts) :=
  match readBinary input loosest ts with
  | .error e => .error e
  | .ok ⟨(condition, rest), h⟩ =>
    match rest, h with
    | .question :: rest, h =>
      match readChoice input rest with
      | .error e => .error e
      | .ok ⟨(consequent, rest₁), h₁⟩ =>
        match rest₁, h₁ with
        | .colon :: rest₁, h₁ =>
          match readChoice input rest₁ with
          | .error e => .error e
          | .ok ⟨(alternative, rest₂), h₂⟩ =>
            .ok ⟨(choose condition consequent alternative, rest₂), shorter_of_cons_of_cons h h₁ h₂⟩
        | rest₁, h₁ =>
          .ok ⟨(whenever condition consequent, rest₁), shorter_of_cons_of_shorter h h₁⟩
    | rest, h => .ok ⟨(condition, rest), h⟩
  termination_by 8 * ts.length + 3
  decreasing_by all_goals grind

/-- **Operands with operators between them** that all bind at least as tightly as
the given one. -/
def readBinary (input : String) (least : Nat) (ts : List Token) : Compiled (Parsed ts) :=
  match readUnary input ts with
  | .error e => .error e
  | .ok ⟨(left, rest), h⟩ =>
    match readOperators input least left rest with
    | .error e => .error e
    | .ok ⟨r, h₁⟩ => .ok ⟨r, shorter_of_rest h₁ h⟩
  termination_by 8 * ts.length + 2
  decreasing_by all_goals grind

/-- The operators after a formula and their right operands. What an operator
takes on its right holds tighter operators only, so that those of one precedence
group to the left. -/
def readOperators (input : String) (least : Nat) (left : Formula Float) (ts : List Token) :
    Compiled (ParsedRest ts) :=
  match ts with
  | .op op :: rest =>
    if op.precedence < least then .ok ⟨(left, .op op :: rest), rest_refl⟩
    else
      match readBinary input (op.precedence + 1) rest with
      | .error e => .error e
      | .ok ⟨(right, rest₁), h₁⟩ =>
        match readOperators input least (binary op left right) rest₁ with
        | .error e => .error e
        | .ok ⟨r, h₂⟩ => .ok ⟨r, rest_of_shorter h₁ h₂⟩
  | ts => .ok ⟨(left, ts), rest_refl⟩
  termination_by 8 * ts.length
  decreasing_by all_goals grind

/-- **An operand with the operators before it.** A minus sign before a number
becomes part of the number. -/
def readUnary (input : String) (ts : List Token) : Compiled (Parsed ts) :=
  match ts with
  | .op .sub :: rest =>
    match readUnary input rest with
    | .error e => .error e
    | .ok ⟨(f, rest₁), h⟩ => .ok ⟨(f.neg, rest₁), shorter_cons_of_shorter h⟩
  | .bang :: rest =>
    match readUnary input rest with
    | .error e => .error e
    | .ok ⟨(f, rest₁), h⟩ => .ok ⟨(unary .not f, rest₁), shorter_cons_of_shorter h⟩
  | ts => readPrimary input ts
  termination_by 8 * ts.length + 1
  decreasing_by all_goals grind

/-- **What stands by itself**: a literal, a name, a formula in parentheses or
a call. -/
def readPrimary (input : String) (ts : List Token) : Compiled (Parsed ts) :=
  match ts with
  | [] => malformed (.unexpectedEnd input)
  | .number x :: rest => .ok ⟨(number x, rest), shorter_cons⟩
  | .text s :: rest => .ok ⟨(text s, rest), shorter_cons⟩
  | .capture i :: rest => .ok ⟨(capture i, rest), shorter_cons⟩
  | .quotedIdent name :: rest => .ok ⟨(attr name, rest), shorter_cons⟩
  | .openParen :: rest =>
    match readChoice input rest with
    | .error e => .error e
    | .ok ⟨(f, rest₁), h⟩ =>
      match rest₁, h with
      | .closeParen :: rest₁, h => .ok ⟨(f, rest₁), shorter_cons_of_cons h⟩
      | _, _ => malformed (.expectedClose input)
  | .ident name :: .openParen :: rest =>
    match Function.ofName? name with
    | none => refused (.unknownFunction name)
    | some f =>
      match readArguments input rest with
      | .error e => .error e
      | .ok ⟨(args, rest₁), h⟩ =>
        if f.accepts args.length then .ok ⟨(call f args, rest₁), shorter_call h⟩
        else malformed (.argumentCount name f.arity args.length)
  | .ident name :: rest => .ok ⟨(ofIdent name, rest), shorter_cons⟩
  | t :: _ => malformed (.unexpectedToken t.describe input)
  termination_by 8 * ts.length
  decreasing_by all_goals grind

/-- The arguments of a call, after its opening parenthesis. -/
def readArguments (input : String) (ts : List Token) : Compiled (ParsedArgs ts) :=
  match ts with
  | .closeParen :: rest => .ok ⟨([], rest), shorter_cons⟩
  | ts => readMoreArguments input ts
  termination_by 8 * ts.length + 5
  decreasing_by all_goals grind

/-- One argument or more, up to the closing parenthesis. -/
def readMoreArguments (input : String) (ts : List Token) : Compiled (ParsedArgs ts) :=
  match readChoice input ts with
  | .error e => .error e
  | .ok ⟨(f, rest), h⟩ =>
    match rest, h with
    | .closeParen :: rest, h => .ok ⟨([f], rest), shorter_of_cons h⟩
    | .comma :: rest, h =>
      match readMoreArguments input rest with
      | .error e => .error e
      | .ok ⟨(fs, rest₁), h₁⟩ => .ok ⟨(f :: fs, rest₁), shorter_of_cons_of_shorter h h₁⟩
    | _, _ => malformed (.expectedCommaOrClose input)
  termination_by 8 * ts.length + 4
  decreasing_by all_goals grind

end

/-- **The formula of a list of tokens**, all of which have to be used. -/
def ofTokens (input : String) (ts : List Token) : Compiled (Formula Float) :=
  if ts.isEmpty then malformed .emptyExpression
  else
    match readChoice input ts with
    | .error e => .error e
    | .ok ⟨(f, []), _⟩ => .ok f
    | .ok ⟨(_, t :: _), _⟩ => malformed (.unexpectedToken t.describe input)

/-- **Reads an expression**, given as characters. -/
def readChars (cs : List Char) : Compiled (Formula Float) :=
  let input := String.ofList cs
  (Token.scan input cs).bind (ofTokens input)

/-- **Reads an expression.** -/
def read (text : String) : Compiled (Formula Float) := readChars text.toList

end Formula

end Rulebook
