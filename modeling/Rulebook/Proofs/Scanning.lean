import Rulebook.Proofs.NumberText

/-!
# Scanning what was written

A text is cut into tokens from the left, and where a token ends depends on what
comes next: a name goes on as long as there are letters, and so do numbers with
digits. What is written piece by piece is therefore scanned piece by piece only if
no piece runs into the next. Names, numbers and captures *end* before anything that
could not stand in a name; quotes, operators and parentheses end by themselves.
-/

namespace Rulebook

namespace Token

variable {input : String} {c : Char} {cs rest : List Char} {t : Token} {ts us : List Token}

/-! ## One token -/

/-- Tokens in front of more tokens. -/
theorem map_append (r : Compiled (List Token)) :
    (r.map (us ++ ·)).map (ts ++ ·) = r.map (ts ++ us ++ ·) := by
  cases r with
  | error e => rfl
  | ok vs => exact congrArg Except.ok (List.append_assoc ts us vs).symm

/-- **Scanning takes the first token** and goes on behind it. -/
theorem scan_of_first (hc : Text.isBlank c = false) (h : first input c cs = .ok (t, rest)) :
    scan input (c :: cs) = (scan input rest).map ([t] ++ ·) := by
  conv_lhs => unfold scan
  rw [if_neg (by rw [hc]; exact Bool.false_ne_true)]
  split
  · rename_i e he
    rw [h] at he
    cases he
  · rename_i t' rest' hok
    rw [h] at hok
    obtain ⟨rfl, rfl⟩ := Prod.mk.inj (Except.ok.inj hok)
    rfl

theorem scan_nil : scan input [] = .ok [] := by
  unfold scan
  rfl

theorem scan_space : scan input (' ' :: cs) = scan input cs := by
  conv_lhs => unfold scan
  exact if_pos (by decide)

theorem scan_openParen : scan input ('(' :: cs) = (scan input cs).map ([openParen] ++ ·) :=
  scan_of_first (by decide) rfl

theorem scan_closeParen : scan input (')' :: cs) = (scan input cs).map ([closeParen] ++ ·) :=
  scan_of_first (by decide) rfl

theorem scan_comma : scan input (',' :: cs) = (scan input cs).map ([comma] ++ ·) :=
  scan_of_first (by decide) rfl

theorem scan_question : scan input ('?' :: cs) = (scan input cs).map ([question] ++ ·) :=
  scan_of_first (by decide) rfl

theorem scan_colon : scan input (':' :: cs) = (scan input cs).map ([colon] ++ ·) :=
  scan_of_first (by decide) rfl

theorem scan_minus : scan input ('-' :: cs) = (scan input cs).map ([op .sub] ++ ·) :=
  scan_of_first (by decide) rfl

/-- An exclamation mark is a token unless an equals sign follows. -/
theorem scan_bang (h : cs.head? ≠ some '=') :
    scan input ('!' :: cs) = (scan input cs).map ([bang] ++ ·) := by
  refine scan_of_first (by decide) ?_
  have hop : readOp ('!' :: cs) = some (bang, cs) := by
    unfold readOp
    split <;> simp_all
  unfold first
  rw [hop]
  rfl

/-- An operator with a blank behind it is a token. -/
theorem scan_op (o : BinaryOp) : scan input (o.symbol.toList ++ ' ' :: cs) =
    (scan input cs).map ([op o] ++ ·) := by
  rw [← @scan_space input cs]
  cases o <;> exact scan_of_first (by decide) rfl

/-! ## Quotes -/

/-- **What is quoted is read up to its closing quote.** -/
theorem readQuoted_quoteWith {quote : Char} (hquote : quote ≠ '\\') (s rest : List Char) :
    ∃ cs, quoteWith quote s ++ rest = quote :: cs ∧ readQuoted quote cs = some (s, rest) := by
  refine ⟨_, rfl, ?_⟩
  show readQuoted quote ((_ ++ [quote]) ++ rest) = _
  rw [List.append_assoc, List.singleton_append]
  induction s with
  | nil =>
    rw [List.flatMap_nil, List.nil_append, readQuoted, if_pos rfl]
    exact fun _ _ h _ => hquote h
  | cons c s ih =>
    rw [List.flatMap_cons, List.append_assoc]
    by_cases hescape : c = quote ∨ c = '\\'
    · rw [if_pos (by simpa using hescape), List.cons_append, List.cons_append, List.nil_append,
        readQuoted, ih]
      rfl
    · obtain ⟨hc, hslash⟩ := not_or.1 hescape
      rw [if_neg (by simpa using hescape), List.singleton_append, readQuoted, if_neg hc, ih]
      · rfl
      · exact fun _ _ h _ => hslash h

theorem scan_text (s : String) : scan input (quoteWith '\'' s.toList ++ rest) =
    (scan input rest).map ([text s] ++ ·) := by
  obtain ⟨cs, hcs, hread⟩ := @readQuoted_quoteWith '\'' (by decide) s.toList rest
  rw [hcs]
  refine scan_of_first (by decide) ?_
  unfold first
  rw [hread]
  exact congrArg (fun s => Except.ok (text s, rest)) String.ofList_toList

theorem scan_quotedIdent {name : String} (hname : name ≠ "") :
    scan input (quoteWith backQuote name.toList ++ rest) =
      (scan input rest).map ([quotedIdent name] ++ ·) := by
  obtain ⟨c, s, hs⟩ : ∃ c s, name.toList = c :: s :=
    List.exists_cons_of_ne_nil (fun h => hname (String.toList_eq_nil_iff.1 h))
  obtain ⟨cs, hcs, hread⟩ := @readQuoted_quoteWith backQuote (by decide) name.toList rest
  have hname' : String.ofList (c :: s) = name := by rw [← hs, String.ofList_toList]
  rw [hcs]
  refine scan_of_first (by decide) ?_
  unfold first
  rw [hread, hs]
  exact congrArg (fun s => Except.ok (quotedIdent s, rest)) hname'

/-! ## Names and numbers -/

/-- **Whether a name or a number ends** before a text. -/
def Ends (cs : List Char) : Prop := ∀ c ∈ cs.head?, isNamePart c = false

theorem ends_nil : Ends [] := nofun

theorem ends_cons (h : isNamePart c = false) : Ends (c :: cs) := by
  rintro _ ⟨⟩
  exact h

/-- What holds of the characters up to an end, and only of parts of names, is
read up to there. -/
theorem span_of_ends (p : Char → Bool) (hp : ∀ c, p c = true → isNamePart c = true)
    (hcs : ∀ c ∈ cs, p c = true) (hrest : Ends rest) :
    (cs ++ rest).takeWhile p = cs ∧ (cs ++ rest).dropWhile p = rest :=
  Text.span_append hcs fun c hc => Bool.eq_false_iff.2 fun h =>
    nomatch (hp c h).symm.trans (hrest c hc)

/-- The numbers of the characters that names are made of. -/
theorem toNat_of_isNamePart (h : isNamePart c = true) :
    c.toNat = 46 ∨ 48 ≤ c.toNat ∧ c.toNat ≤ 57 ∨ 65 ≤ c.toNat ∧ c.toNat ≤ 90 ∨
      c.toNat = 95 ∨ 97 ≤ c.toNat ∧ c.toNat ≤ 122 := by
  unfold isNamePart Char.isAlphanum Char.isAlpha Char.isUpper Char.isLower Char.isDigit at h
  simp only [Bool.or_eq_true, Bool.and_eq_true, decide_eq_true_eq, ge_iff_le,
    UInt32.le_iff_toNat_le] at h
  change (((65 ≤ c.toNat ∧ c.toNat ≤ 90 ∨ 97 ≤ c.toNat ∧ c.toNat ≤ 122) ∨
    48 ≤ c.toNat ∧ c.toNat ≤ 57) ∨ c = '_') ∨ c = '.' at h
  obtain (h | rfl) | rfl := h
  · omega
  · decide
  · decide

/-- Names and numbers have no blanks in them. -/
theorem isBlank_of_isNamePart (h : isNamePart c = true) : Text.isBlank c = false := by
  have hnat := toNat_of_isNamePart h
  unfold Text.isBlank
  simp only [Bool.or_eq_false_iff, Bool.and_eq_false_iff, decide_eq_false_iff_not]
  omega

/-- Nor have they any character that is a token by itself. -/
theorem ne_of_isNamePart (h : isNamePart c = true) {d : Char} (hd : isNamePart d = false) :
    c ≠ d := by
  rintro rfl
  rw [h] at hd
  cases hd

theorem isNamePart_of_isDigit (h : c.isDigit = true) : isNamePart c = true := by
  rw [isNamePart, Char.isAlphanum, h, Bool.or_true, Bool.true_or, Bool.true_or]

theorem isNamePart_of_isNumberPart (h : isNumberPart c = true) : isNamePart c = true := by
  obtain h | h := Bool.or_eq_true_iff.1 h
  · exact isNamePart_of_isDigit h
  · rw [isNamePart, h, Bool.or_true]

theorem isNamePart_of_isNameStart (h : isNameStart c = true) : isNamePart c = true := by
  obtain h | h := Bool.or_eq_true_iff.1 h
  · rw [isNamePart, Char.isAlphanum, h, Bool.true_or, Bool.true_or, Bool.true_or]
  · rw [isNamePart, h, Bool.or_true, Bool.true_or]

/-- What begins a name begins no number. -/
theorem isDigit_of_isNameStart (h : isNameStart c = true) : c.isDigit = false ∧ c ≠ '.' := by
  obtain h | h := Bool.or_eq_true_iff.1 h
  · refine ⟨Numeral.isDigit_eq_false_of_isAlpha h, ?_⟩
    rintro rfl
    revert h
    decide
  · obtain rfl := of_decide_eq_true h
    decide

/-- **The first token of a name part** is not decided by any of the characters
that are tokens by themselves. -/
theorem first_of_isNamePart (h : isNamePart c = true) : first input c cs =
    if c.isDigit || (c = '.' && startsWithDigit cs) then
      match (Quantity.read (c :: cs.takeWhile isNumberPart) : Option Float) with
      | none => malformed (.invalidNumber (String.ofList (c :: cs.takeWhile isNumberPart)) input)
      | some x => .ok (number x, cs.dropWhile isNumberPart)
    else if isNameStart c then
      .ok (ident (String.ofList (c :: cs.takeWhile isNamePart)), cs.dropWhile isNamePart)
    else match readOp (c :: cs) with
      | none => malformed (.unexpectedCharacter c input)
      | some (t, rest) => .ok (t, rest) := by
  have hne := @ne_of_isNamePart c h
  have hquote : ¬ (decide (c = '\'') || decide (c = '"')) = true := by
    rw [Bool.or_eq_true, decide_eq_true_eq, decide_eq_true_eq, not_or]
    exact ⟨hne (by decide), hne (by decide)⟩
  rw [first, if_neg (hne (by decide)), if_neg (hne (by decide)), if_neg (hne (by decide)),
    if_neg (hne (by decide)), if_neg (hne (by decide)), if_neg hquote, if_neg (hne (by decide))]
  exact if_neg (hne (by decide))

/-- **A literal is scanned as its number** where it ends. -/
theorem scan_literal {x : Float} (h : Double.IsLiteral cs x) (hrest : Ends rest) :
    scan input (cs ++ rest) = (scan input rest).map ([number x] ++ ·) := by
  obtain ⟨hstarts, hparts, hread⟩ := h
  cases cs with
  | nil => cases hstarts
  | cons c cs =>
    have hc : isNamePart c = true := isNamePart_of_isDigit hstarts
    obtain ⟨htake, hdrop⟩ := span_of_ends isNumberPart (fun _ => isNamePart_of_isNumberPart)
      (fun d hd => hparts d (List.mem_cons_of_mem _ hd)) hrest
    rw [List.cons_append]
    refine scan_of_first (isBlank_of_isNamePart hc) ?_
    rw [first_of_isNamePart hc, if_pos (by rw [show c.isDigit = true from hstarts, Bool.true_or]),
      htake, hdrop, hread]

/-- **A name is scanned as an identifier** where it ends. -/
theorem scan_ident {name : List Char} (hstart : ∀ c ∈ name.head?, isNameStart c = true)
    (hne : name ≠ []) (hparts : ∀ c ∈ name, isNamePart c = true) (hrest : Ends rest) :
    scan input (name ++ rest) = (scan input rest).map ([ident (String.ofList name)] ++ ·) := by
  obtain ⟨c, cs, rfl⟩ := List.exists_cons_of_ne_nil hne
  have hstart : isNameStart c = true := hstart c rfl
  have hc : isNamePart c = true := isNamePart_of_isNameStart hstart
  obtain ⟨hdigit, hpoint⟩ := isDigit_of_isNameStart hstart
  obtain ⟨htake, hdrop⟩ := span_of_ends isNamePart (fun _ h => h)
    (fun d hd => hparts d (List.mem_cons_of_mem _ hd)) hrest
  rw [List.cons_append]
  refine scan_of_first (isBlank_of_isNamePart hc) ?_
  rw [first_of_isNamePart hc, if_neg (by simp [hdigit, hpoint]), if_pos hstart, htake, hdrop]

/-- **A capture is scanned as its number** where it ends. -/
theorem scan_capture {i : Nat} (hi : i < Text.indexBound) (hrest : Ends rest) :
    scan input ('$' :: Numeral.digitsOfNat i ++ rest) =
      (scan input rest).map ([capture i] ++ ·) := by
  obtain ⟨htake, hdrop⟩ := span_of_ends Char.isDigit (fun _ => isNamePart_of_isDigit)
    (Numeral.isDigit_of_mem_digitsOfNat i) hrest
  rw [List.cons_append]
  refine scan_of_first (by decide) ?_
  unfold first
  dsimp only
  rw [htake, hdrop, Text.readBounded_digitsOfNat hi]
  rfl

/-! ## Pieces -/

/-- **A piece of text that is scanned as some tokens**, wherever it ends. It does
not begin with an equals sign, with which an exclamation mark before it would be
an operator. -/
structure Scans (cs : List Char) (ts : List Token) : Prop where
  begins : ∃ c ∈ cs.head?, c ≠ '='
  scan_append : ∀ input rest, Ends rest →
    scan input (cs ++ rest) = (scan input rest).map (ts ++ ·)

namespace Scans

variable {ds : List Char}

/-- **A piece that is a whole text** is scanned as its tokens. -/
theorem scan_eq (h : Scans cs ts) (input : String) : scan input cs = .ok ts := by
  have hscan := h.scan_append input [] ends_nil
  rw [List.append_nil] at hscan
  rw [hscan, scan_nil]
  exact congrArg Except.ok (List.append_nil ts)

/-- A piece ends before anything that is in no name. -/
theorem scan_append_cons (h : Scans cs ts) (hc : isNamePart c = false) :
    scan input (cs ++ c :: rest) = (scan input (c :: rest)).map (ts ++ ·) :=
  h.scan_append input _ (ends_cons hc)

theorem begins_append (h : Scans cs ts) (ds : List Char) :
    ∃ c ∈ (cs ++ ds).head?, c ≠ '=' := by
  obtain ⟨c, hc, hne⟩ := h.begins
  refine ⟨c, ?_, hne⟩
  cases cs with
  | nil => cases hc
  | cons d cs => exact hc

theorem literal {x : Float} (h : Double.IsLiteral cs x) : Scans cs [number x] where
  begins := by
    have hstarts := h.starts
    cases cs with
    | nil => cases hstarts
    | cons c cs =>
      refine ⟨c, rfl, ?_⟩
      rintro rfl
      cases hstarts
  scan_append _ _ hrest := scan_literal h hrest

theorem text (s : String) : Scans (quoteWith '\'' s.toList) [.text s] where
  begins := ⟨'\'', rfl, by decide⟩
  scan_append _ _ _ := scan_text s

theorem capture {i : Nat} (hi : i < Text.indexBound) :
    Scans ('$' :: Numeral.digitsOfNat i) [.capture i] where
  begins := ⟨'$', rfl, by decide⟩
  scan_append _ _ hrest := scan_capture hi hrest

theorem quotedIdent {name : String} (h : name ≠ "") :
    Scans (quoteWith backQuote name.toList) [.quotedIdent name] where
  begins := ⟨backQuote, rfl, by decide⟩
  scan_append _ _ _ := scan_quotedIdent h

/-- A name that begins as names do and has only what names have. -/
theorem ident {name : String} (hstart : ∃ c ∈ name.toList.head?, isNameStart c = true)
    (hparts : ∀ c ∈ name.toList, isNamePart c = true) : Scans name.toList [.ident name] := by
  obtain ⟨c, hc, hstart⟩ := hstart
  have hne : name.toList ≠ [] := by
    intro h
    rw [h] at hc
    cases hc
  have hstart' : ∀ d ∈ name.toList.head?, isNameStart d = true := by
    intro d hd
    rwa [← Option.some.inj (hc.symm.trans hd)]
  refine ⟨⟨c, hc, ?_⟩, fun input rest hrest => ?_⟩
  · rintro rfl
    exact absurd hstart (by decide)
  · rw [scan_ident hstart' hne hparts hrest, String.ofList_toList]

theorem paren (h : Scans cs ts) :
    Scans ('(' :: cs ++ [')']) (.openParen :: (ts ++ [.closeParen])) where
  begins := ⟨'(', rfl, by decide⟩
  scan_append input rest _ := by
    simp only [List.cons_append, List.append_assoc, List.nil_append]
    rw [scan_openParen, h.scan_append_cons (by decide), scan_closeParen, map_append, map_append]
    simp only [List.append_assoc, List.cons_append, List.nil_append]

theorem minus (h : Scans cs ts) : Scans ('-' :: cs) (.op .sub :: ts) where
  begins := ⟨'-', rfl, by decide⟩
  scan_append input rest hrest := by
    rw [List.cons_append, scan_minus, h.scan_append input rest hrest, map_append]
    rfl

theorem bang (h : Scans cs ts) : Scans ('!' :: cs) (.bang :: ts) where
  begins := ⟨'!', rfl, by decide⟩
  scan_append input rest hrest := by
    have hhead : (cs ++ rest).head? ≠ some '=' := by
      obtain ⟨c, hc, hne⟩ := h.begins_append rest
      rw [show (cs ++ rest).head? = some c from hc]
      exact fun heq => hne (Option.some.inj heq)
    rw [List.cons_append, scan_bang hhead, h.scan_append input rest hrest, map_append]
    rfl

theorem binary (o : BinaryOp) (h : Scans cs ts) (h' : Scans ds us) :
    Scans (cs ++ ' ' :: o.symbol.toList ++ ' ' :: ds) (ts ++ .op o :: us) where
  begins := by
    rw [List.append_assoc]
    exact h.begins_append _
  scan_append input rest hrest := by
    simp only [List.append_assoc, List.cons_append]
    rw [h.scan_append_cons (by decide), scan_space, scan_op, h'.scan_append input rest hrest,
      map_append, map_append]
    simp only [List.append_assoc, List.cons_append, List.nil_append]

/-- A mark with blanks around it separates pieces. -/
theorem separated {mark : Char} {t : Token} (h : Scans cs ts) (h' : Scans ds us)
    (hmark : ∀ input cs, scan input (mark :: cs) = (scan input cs).map ([t] ++ ·)) :
    Scans (cs ++ [' ', mark, ' '] ++ ds) (ts ++ t :: us) where
  begins := by
    rw [List.append_assoc]
    exact h.begins_append _
  scan_append input rest hrest := by
    simp only [List.append_assoc, List.cons_append, List.nil_append]
    rw [h.scan_append_cons (by decide), scan_space, hmark, scan_space,
      h'.scan_append input rest hrest, map_append, map_append]
    simp only [List.append_assoc, List.cons_append, List.nil_append]

theorem question (h : Scans cs ts) (h' : Scans ds us) :
    Scans (cs ++ " ? ".toList ++ ds) (ts ++ .question :: us) :=
  h.separated h' (fun _ _ => scan_question)

theorem colon (h : Scans cs ts) (h' : Scans ds us) :
    Scans (cs ++ " : ".toList ++ ds) (ts ++ .colon :: us) :=
  h.separated h' (fun _ _ => scan_colon)

theorem comma (h : Scans cs ts) (h' : Scans ds us) :
    Scans (cs ++ ',' :: ' ' :: ds) (ts ++ .comma :: us) where
  begins := h.begins_append _
  scan_append input rest hrest := by
    simp only [List.append_assoc, List.cons_append]
    rw [h.scan_append_cons (by decide), scan_comma, scan_space, h'.scan_append input rest hrest,
      map_append, map_append]
    simp only [List.append_assoc, List.cons_append, List.nil_append]

/-- The name of a function is an identifier before its arguments. -/
theorem call (f : Function) (h : Scans cs ts) : Scans (f.name.toList ++ '(' :: cs ++ [')'])
    (.ident f.name :: .openParen :: (ts ++ [.closeParen])) := by
  have hname : Scans f.name.toList [.ident f.name] := by
    refine ident ?_ ?_
    · cases f <;> exact ⟨_, rfl, by decide⟩
    · cases f <;> exact List.all_eq_true.1 (by decide)
  refine ⟨?_, fun input rest hrest => ?_⟩
  · rw [List.append_assoc]
    exact hname.begins_append _
  · have hsplit : f.name.toList ++ '(' :: cs ++ [')'] ++ rest =
        f.name.toList ++ ('(' :: cs ++ [')'] ++ rest) := by
      simp only [List.append_assoc]
    have hends : Ends ('(' :: cs ++ [')'] ++ rest) := ends_cons (by decide)
    rw [hsplit, hname.scan_append input _ hends,
      h.paren.scan_append input rest hrest, map_append]
    rfl

end Scans

end Token

end Rulebook
