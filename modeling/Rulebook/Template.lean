import Rulebook.Formula.Reader

/-!
# Note templates

A note may hold expressions between `%{` and `}`. Compiling it replaces each by
a numbered placeholder and binds the number to the formula. Numbers begin after
the highest one that the note already uses, wherever it uses it, so no two
placeholders share a number.

A brace inside quotes does not close an interpolation, and neither does one
after a backslash.
-/

namespace Rulebook

/-- **A placeholder and the formula for its value.** -/
structure Binding where
  placeholder : Nat
  formula : Formula Float

/-- **A compiled note**: its text, in which placeholders stand for the
interpolations, and what they are bound to. -/
structure Template where
  chars : List Char
  bindings : List Binding

namespace Template

/-- The text of a compiled note. -/
def text (t : Template) : String := String.ofList t.chars

/-- The highest number that a placeholder can have. -/
def lastPlaceholder : Nat := Text.indexBound - 1

/-- **The highest placeholder number in a text**, zero if there is none. A
percent sign and the digits after it make a placeholder. -/
def highestPlaceholder : List Char → Nat
  | [] => 0
  | c :: cs =>
    if c = '%' then
      max ((Text.readBounded Text.indexBound (cs.takeWhile Char.isDigit)).getD 0)
        (highestPlaceholder cs)
    else highestPlaceholder cs

/-- **Cuts at the first place where an interpolation opens.** -/
def cutOpening : List Char → Option (List Char × List Char)
  | [] => none
  | '%' :: '\x7b' :: cs => some ([], cs)
  | c :: cs => (cutOpening cs).map fun (before, after) => (c :: before, after)

/-- Whether a character opens a quoted run. -/
def isQuote (c : Char) : Bool := c = '\'' || c = '"' || c = Token.backQuote

/-- **Cuts at the brace that closes an interpolation**, given the quote that is
open, if any. -/
def cutClosing : Option Char → List Char → Option (List Char × List Char)
  | _, [] => none
  | _, ['\\'] => none
  | quote, '\\' :: c :: cs =>
    (cutClosing quote cs).map fun (body, rest) => ('\\' :: c :: body, rest)
  | some q, c :: cs =>
    (cutClosing (if c = q then none else some q) cs).map fun (body, rest) => (c :: body, rest)
  | none, c :: cs =>
    if c = '\x7d' then some ([], cs)
    else (cutClosing (if isQuote c then some c else none) cs).map
      fun (body, rest) => (c :: body, rest)

theorem length_of_cutOpening {cs before after : List Char}
    (h : cutOpening cs = some (before, after)) : after.length < cs.length := by
  fun_induction cutOpening cs generalizing before after with
  | case1 => simp at h
  | case2 cs =>
    obtain ⟨-, rfl⟩ := Prod.mk.inj (Option.some.inj h)
    simp only [List.length_cons]
    omega
  | case3 c cs _ ih =>
    obtain ⟨⟨b, a⟩, h', heq⟩ := Option.map_eq_some_iff.1 h
    obtain ⟨-, rfl⟩ := Prod.mk.inj heq
    have := ih h'
    simp only [List.length_cons]
    omega

theorem length_of_cutClosing {quote : Option Char} {cs body rest : List Char}
    (h : cutClosing quote cs = some (body, rest)) : rest.length < cs.length := by
  fun_induction cutClosing quote cs generalizing body rest with
  | case1 => simp at h
  | case2 => simp at h
  | case3 quote c cs ih =>
    obtain ⟨⟨b, a⟩, h', heq⟩ := Option.map_eq_some_iff.1 h
    obtain ⟨-, rfl⟩ := Prod.mk.inj heq
    have := ih h'
    simp only [List.length_cons]
    omega
  | case4 q c cs _ _ ih =>
    obtain ⟨⟨b, a⟩, h', heq⟩ := Option.map_eq_some_iff.1 h
    obtain ⟨-, rfl⟩ := Prod.mk.inj heq
    have := ih h'
    simp only [List.length_cons]
    omega
  | case5 cs =>
    obtain ⟨-, rfl⟩ := Prod.mk.inj (Option.some.inj h)
    simp
  | case6 c cs _ _ _ ih =>
    obtain ⟨⟨b, a⟩, h', heq⟩ := Option.map_eq_some_iff.1 h
    obtain ⟨-, rfl⟩ := Prod.mk.inj heq
    have := ih h'
    simp only [List.length_cons]
    omega

/-- **Binds the interpolations of a text** to the numbers from `next` on. The
whole note is for the messages. -/
def bindFrom (note : String) (next : Nat) (cs : List Char) : Compiled Template :=
  match _opens : cutOpening cs with
  | none => .ok ⟨cs, []⟩
  | some (before, after) =>
    match _closes : cutClosing none after with
    | none => malformed (.unterminatedInterpolation note)
    | some (body, rest) =>
      let body := Text.trimChars body
      if body = [] then malformed (.emptyInterpolation note)
      else
        match Formula.readChars body with
        | .error e => .error e
        | .ok formula =>
          if lastPlaceholder ≤ next then malformed (.tooManyPlaceholders note)
          else (bindFrom note (next + 1) rest).map fun t =>
            ⟨before ++ '%' :: Numeral.digitsOfNat next ++ t.chars, ⟨next, formula⟩ :: t.bindings⟩
  termination_by cs.length
  decreasing_by
    have := length_of_cutOpening _opens
    have := length_of_cutClosing _closes
    omega

/-- **Compiles a note**, given as characters. -/
def compileChars (cs : List Char) : Compiled Template :=
  let note := String.ofList cs
  let highest := highestPlaceholder cs
  if lastPlaceholder ≤ highest then malformed (.tooManyPlaceholders note)
  else bindFrom note (highest + 1) cs

/-- **Compiles a note.** -/
def compile (note : String) : Compiled Template := compileChars note.toList

end Template

end Rulebook
