import Rulebook.Proofs.Blanks
import Rulebook.Proofs.Grammar
import Rulebook.Proofs.Placeholders
import Rulebook.Proofs.ReadFormulas
import Rulebook.Proofs.Scanning

/-!
# Finding the interpolations of a note

Where an interpolation ends is found before its body is read, and by other
means: the search for the closing brace only looks at quotes and backslashes.
It agrees with the scanner on every text that the scanner accepts. A brace can
stand in such a text only between quotes, for no token begins with one, and a
quoted run ends for both at the same quote, since both take what follows a
backslash as it is. Outside quotes the search skips what follows a backslash
and the scanner does not, but no token begins with a backslash either.

So a note that is put together from literal text and expressions is taken apart
into the same pieces, and it is compiled if there are numbers left for all of
them.
-/

namespace Rulebook

namespace Template

variable {c quote : Char} {cs run xs ys : List Char}

/-! ## The closing brace -/

/-- Whether the search for a closing brace looks at a character. -/
def isSpecial (c : Char) : Bool := c = '\\' || c = '\x7d' || isQuote c

theorem cutClosing_cons (hc : isSpecial c = false) : cutClosing none (c :: cs) =
    (cutClosing none cs).map fun (body, rest) => (c :: body, rest) := by
  simp only [isSpecial, Bool.or_eq_false_iff, decide_eq_false_iff_not] at hc
  obtain ⟨⟨hslash, hbrace⟩, hquote⟩ := hc
  rw [cutClosing, if_neg hbrace, hquote]
  · rfl
  · exact fun h _ => hslash h
  · exact fun _ _ h _ => hslash h

/-- **A text that the search for a closing brace passes over.** -/
def Passes (run : List Char) : Prop := ∀ cs, cutClosing none (run ++ cs) =
  (cutClosing none cs).map fun (body, rest) => (run ++ body, rest)

/-- The same inside quotes, up to the quote that ends them. -/
def Unquotes (quote : Char) (run : List Char) : Prop := ∀ cs, cutClosing (some quote) (run ++ cs) =
  (cutClosing none cs).map fun (body, rest) => (run ++ body, rest)

theorem Passes.append (hxs : Passes xs) (hys : Passes ys) : Passes (xs ++ ys) := by
  intro cs
  rw [List.append_assoc, hxs, hys, Option.map_map]
  simp [Function.comp_def]

theorem Passes.plain (h : ∀ c ∈ run, isSpecial c = false) : Passes run := by
  intro cs
  induction run with
  | nil => simp
  | cons c run ih =>
    obtain ⟨hc, hrun⟩ := List.forall_mem_cons.1 h
    rw [List.cons_append, cutClosing_cons hc, ih hrun, Option.map_map]
    rfl

/-- What begins with a quote is passed over if the quote ends. -/
theorem Unquotes.passes (hquote : isQuote quote = true) (h : Unquotes quote run) :
    Passes (quote :: run) := by
  intro cs
  have hslash : quote ≠ '\\' := by
    rintro rfl
    cases hquote
  have hbrace : quote ≠ '\x7d' := by
    rintro rfl
    cases hquote
  rw [List.cons_append, cutClosing, if_neg hbrace, if_pos hquote, h, Option.map_map]
  · rfl
  · exact fun h _ => hslash h
  · exact fun _ _ h _ => hslash h

end Template

namespace Token

open Template

variable {input input' : String} {c quote : Char} {cs ds blanks rest s run : List Char} {t : Token}
  {ts : List Token}

/-! ## The first token -/

/-- The characters that are tokens by themselves. -/
def marks : List (Char × Token) :=
  [('(', openParen), (')', closeParen), (',', comma), ('?', question), (':', colon)]

/-- **The first token of a text** that begins with a given character, and what
follows it. -/
inductive First : Char → List Char → Token → List Char → Prop where
  | mark {c : Char} {cs : List Char} {t : Token}
      (h : (c, t) ∈ marks) : First c cs t cs
  | text {c : Char} {cs s rest : List Char} (hc : c = '\'' ∨ c = '"')
      (h : readQuoted c cs = some (s, rest)) : First c cs (text (String.ofList s)) rest
  | quotedIdent {cs s rest : List Char} (h : readQuoted backQuote cs = some (s, rest))
      (hs : s ≠ []) : First backQuote cs (quotedIdent (String.ofList s)) rest
  | capture {cs : List Char} {i : Nat}
      (h : Text.readBounded Text.indexBound (cs.takeWhile Char.isDigit) = some i) :
      First '$' cs (capture i) (cs.dropWhile Char.isDigit)
  | number {c : Char} {cs : List Char} {x : Float}
      (hc : (c.isDigit || (c = '.' && startsWithDigit cs)) = true)
      (h : Quantity.read (c :: cs.takeWhile isNumberPart) = some x) :
      First c cs (number x) (cs.dropWhile isNumberPart)
  | ident {c : Char} {cs : List Char} (hc : isNameStart c = true) :
      First c cs (ident (String.ofList (c :: cs.takeWhile isNamePart))) (cs.dropWhile isNamePart)
  | op {c : Char} {cs rest : List Char} {t : Token} (h : readOp (c :: cs) = some (t, rest)) :
      First c cs t rest

/-- What begins a number may stand in a name. -/
theorem isNamePart_of_number (h : (c.isDigit || (c = '.' && startsWithDigit cs)) = true) :
    isNamePart c = true := by
  obtain h | h := Bool.or_eq_true_iff.1 h
  · exact isNamePart_of_isDigit h
  · rw [isNamePart, (Bool.and_eq_true_iff.1 h).1, Bool.or_true]

/-- The characters of operators. -/
def operatorChars : List Char := ['<', '>', '=', '!', '&', '|', '+', '-', '*', '/']

/-- **What is read as an operator** is made of such characters, and it is read so
too if less follows. -/
theorem readOp_eq_some (h : readOp cs = some (t, rest)) :
    ∃ c run, cs = c :: run ++ rest ∧ (∀ d ∈ c :: run, d ∈ operatorChars) ∧
      ∀ ds, ds <+: rest → readOp (c :: run ++ ds) = some (t, ds) := by
  unfold readOp at h
  split at h <;> cases h
  case h_1 | h_2 | h_3 | h_4 | h_5 | h_6 =>
    exact ⟨_, [_], rfl, by simp [operatorChars], fun _ _ => rfl⟩
  case h_7 hne | h_8 hne | h_9 hne =>
    -- no equals sign follows
    refine ⟨_, [], rfl, by simp [operatorChars], fun ds hds => ?_⟩
    rw [List.cons_append, List.nil_append, readOp]
    rintro ds rfl
    obtain ⟨l, rfl⟩ := hds
    exact hne _ rfl
  all_goals exact ⟨_, [], rfl, by simp [operatorChars], fun _ _ => rfl⟩

theorem first_of_readOp (h : readOp (c :: cs) = some (t, rest)) :
    first input c cs = .ok (t, rest) := by
  obtain ⟨d, run, heq, hrun, -⟩ := readOp_eq_some h
  obtain ⟨rfl, -⟩ := List.cons.inj heq
  have hc : c ∈ operatorChars := hrun c (List.mem_cons_self ..)
  simp only [operatorChars, List.mem_cons, List.not_mem_nil, or_false] at hc
  -- no other token begins with any of these characters
  unfold first
  dsimp only
  rw [h]
  obtain rfl | rfl | rfl | rfl | rfl | rfl | rfl | rfl | rfl | rfl := hc <;> rfl

/-- **Reading the first token** does not depend on what the messages show. -/
theorem first_eq_ok : first input c cs = .ok (t, rest) ↔ First c cs t rest := by
  constructor
  · fun_cases first input c cs with
    | case1 => rintro ⟨⟩; exact .mark (by simp [marks, *])
    | case2 => rintro ⟨⟩; exact .mark (by simp [marks, *])
    | case3 => rintro ⟨⟩; exact .mark (by simp [marks, *])
    | case4 => rintro ⟨⟩; exact .mark (by simp [marks, *])
    | case5 => rintro ⟨⟩; exact .mark (by simp [marks, *])
    | case7 _ _ _ _ _ hc s rest h =>
      rintro ⟨⟩
      exact .text (by simpa using hc) h
    | case10 _ _ _ _ _ _ hc s rest hs h =>
      rintro ⟨⟩
      cases hc
      exact .quotedIdent h hs
    | case12 _ _ _ _ _ _ _ hc _ i =>
      rename_i h
      rintro ⟨⟩
      cases hc
      exact .capture h
    | case14 _ _ _ _ _ _ _ _ hc _ x =>
      rename_i h
      rintro ⟨⟩
      exact .number hc h
    | case15 _ _ _ _ _ _ _ _ _ hc =>
      rintro ⟨⟩
      exact .ident hc
    | case17 _ _ _ _ _ _ _ _ _ _ t rest h =>
      rintro ⟨⟩
      exact .op h
    | _ => rintro ⟨⟩
  · rintro (h | ⟨hc, h⟩ | ⟨h, hs⟩ | h | ⟨hc, h⟩ | hc | h)
    · simp only [marks, List.mem_cons, Prod.mk.injEq, List.not_mem_nil, or_false] at h
      obtain ⟨rfl, rfl⟩ | ⟨rfl, rfl⟩ | ⟨rfl, rfl⟩ | ⟨rfl, rfl⟩ | ⟨rfl, rfl⟩ := h <;> rfl
    · unfold first
      obtain rfl | rfl := hc <;> rw [h] <;> rfl
    · obtain ⟨d, s, rfl⟩ := List.exists_cons_of_ne_nil hs
      unfold first
      rw [h]
      rfl
    · unfold first
      dsimp only
      rw [h]
      rfl
    · rw [first_of_isNamePart (isNamePart_of_number hc), if_pos hc, h]
    · obtain ⟨hdigit, hpoint⟩ := isDigit_of_isNameStart hc
      rw [first_of_isNamePart (isNamePart_of_isNameStart hc),
        if_neg (by simp [hdigit, hpoint]), if_pos hc]
    · exact first_of_readOp h

/-- **Scanning is reading the first token** and scanning what follows. -/
theorem scan_cons_eq_ok (hc : Text.isBlank c = false) : scan input (c :: cs) = .ok ts ↔
    ∃ t rest us, First c cs t rest ∧ scan input rest = .ok us ∧ ts = t :: us := by
  constructor
  · intro h
    cases hfirst : first input c cs with
    | error e =>
      unfold scan at h
      rw [if_neg (by rw [hc]; exact Bool.false_ne_true)] at h
      split at h
      · cases h
      · next hok => cases hfirst.symm.trans hok
    | ok r =>
      obtain ⟨t, rest⟩ := r
      rw [scan_of_first hc hfirst] at h
      obtain ⟨us, hus, rfl⟩ := Outcome.map_eq_ok.1 h
      exact ⟨t, rest, us, first_eq_ok.1 hfirst, hus, rfl⟩
  · rintro ⟨t, rest, us, hfirst, hus, rfl⟩
    rw [scan_of_first hc (first_eq_ok.2 hfirst), hus]
    rfl

theorem scan_of_isBlank (hc : Text.isBlank c = true) : scan input (c :: cs) = scan input cs := by
  conv_lhs => unfold scan
  rw [if_pos hc]

/-! ## The characters of a token -/

/-- **Whether a run does not end with a blank.** -/
def EndsVisibly (run : List Char) : Prop :=
  ∀ init c, run = init ++ [c] → Text.isBlank c = false

theorem EndsVisibly.of_forall (h : ∀ c ∈ run, Text.isBlank c = false) : EndsVisibly run := by
  rintro init c rfl
  exact h c (List.mem_append_right _ (List.mem_singleton_self c))

theorem EndsVisibly.concat (run : List Char) (h : Text.isBlank c = false) :
    EndsVisibly (run ++ [c]) := by
  intro init d heq
  obtain ⟨-, hd⟩ := List.append_inj' heq rfl
  cases hd
  exact h

/-- **A quoted run**: the scanner and the search for a closing brace leave it at
the same quote. -/
theorem readQuoted_eq_some (hslash : quote ≠ '\\') (h : readQuoted quote cs = some (s, rest)) :
    ∃ run, cs = run ++ [quote] ++ rest ∧ Unquotes quote (run ++ [quote]) ∧
      ∀ ds, readQuoted quote (run ++ [quote] ++ ds) = some (s, ds) := by
  fun_induction readQuoted quote cs generalizing s with
  | case1 => cases h
  | case2 c cs ih =>
    obtain ⟨⟨s, rest⟩, h', heq⟩ := Option.map_eq_some_iff.1 h
    cases heq
    obtain ⟨run, rfl, hcut, hread⟩ := ih h'
    refine ⟨'\\' :: c :: run, rfl, fun ds => ?_, fun ds => ?_⟩
    · simp only [List.cons_append]
      rw [cutClosing, hcut, Option.map_map]
      rfl
    · simp only [List.cons_append]
      rw [readQuoted, hread]
      rfl
  | case3 cs =>
    cases h
    refine ⟨[], rfl, fun ds => ?_, fun ds => ?_⟩
    · rw [List.nil_append, List.singleton_append, cutClosing, if_pos rfl]
      · rfl
      · exact fun h _ => hslash h
      · exact fun _ _ h _ => hslash h
    · rw [List.nil_append, List.singleton_append, readQuoted, if_pos rfl]
      exact fun _ _ h _ => hslash h
  | case4 c cs hescape hc ih =>
    obtain ⟨⟨s, rest⟩, h', heq⟩ := Option.map_eq_some_iff.1 h
    cases heq
    obtain ⟨run, rfl, hcut, hread⟩ := ih h'
    -- a backslash would take the next character, which there is
    have hplain : c ≠ '\\' := by
      rintro rfl
      cases run with
      | nil => exact hescape _ _ rfl rfl
      | cons d run => exact hescape _ _ rfl rfl
    refine ⟨c :: run, rfl, fun ds => ?_, fun ds => ?_⟩
    · simp only [List.cons_append]
      rw [cutClosing, if_neg hc, hcut, Option.map_map]
      · rfl
      · exact fun h _ => hplain h
      · exact fun _ _ h _ => hplain h
    · simp only [List.cons_append]
      rw [readQuoted, if_neg hc, hread]
      · rfl
      · exact fun _ _ h _ => hplain h

/-- What is taken from the front is taken again if less follows. -/
theorem span_of_prefix {p : Char → Bool} (hds : ds <+: cs.dropWhile p) :
    (cs.takeWhile p ++ ds).takeWhile p = cs.takeWhile p ∧
      (cs.takeWhile p ++ ds).dropWhile p = ds := by
  refine Text.span_append (fun _ hc => List.mem_takeWhile_imp hc) fun d hd => ?_
  obtain ⟨rest, hrest⟩ := hds
  refine Text.head_dropWhile p cs d ?_
  rw [← hrest, List.head?_append, Option.mem_def.1 hd]
  rfl

/-- A run of characters that are neither special nor blank. -/
theorem passes_and_endsVisibly
    (h : ∀ d ∈ run, isSpecial d = false ∧ Text.isBlank d = false) :
    Passes run ∧ EndsVisibly run :=
  ⟨.plain (fun d hd => (h d hd).1), .of_forall (fun d hd => (h d hd).2)⟩

theorem plain_of_isNamePart (h : isNamePart c = true) :
    isSpecial c = false ∧ Text.isBlank c = false := by
  refine ⟨?_, isBlank_of_isNamePart h⟩
  simp only [isSpecial, isQuote, Bool.or_eq_false_iff, decide_eq_false_iff_not]
  exact ⟨⟨ne_of_isNamePart h (by decide), ne_of_isNamePart h (by decide)⟩,
    ⟨ne_of_isNamePart h (by decide), ne_of_isNamePart h (by decide)⟩,
    ne_of_isNamePart h (by decide)⟩

theorem isSpecial_of_isBlank (h : Text.isBlank c = true) : isSpecial c = false := by
  have hne : ∀ {d : Char}, Text.isBlank d = false → c ≠ d := by
    rintro d hd rfl
    cases h.symm.trans hd
  simp only [isSpecial, isQuote, Bool.or_eq_false_iff, decide_eq_false_iff_not]
  exact ⟨⟨hne (by decide), hne (by decide)⟩, ⟨hne (by decide), hne (by decide)⟩, hne (by decide)⟩

/-- **The characters of a token.** The search for a closing brace passes over
them, they do not end with a blank, and they are read as the same token if less
follows. -/
theorem First.exists_run (h : First c cs t rest) : ∃ run, cs = run ++ rest ∧
    Passes (c :: run) ∧ EndsVisibly (c :: run) ∧
      ∀ ds, ds <+: rest → First c (run ++ ds) t ds := by
  cases h with
  | mark h =>
    have hmark : ∀ m ∈ marks, isSpecial m.1 = false ∧ Text.isBlank m.1 = false := by decide
    obtain ⟨hpasses, hvisible⟩ := passes_and_endsVisibly (List.forall_mem_singleton.2 (hmark _ h))
    exact ⟨[], rfl, hpasses, hvisible, fun _ _ => .mark h⟩
  | text hc h =>
    have hslash : c ≠ '\\' := by obtain rfl | rfl := hc <;> decide
    have hquote : isQuote c = true := by obtain rfl | rfl := hc <;> decide
    have hblank : Text.isBlank c = false := by obtain rfl | rfl := hc <;> decide
    obtain ⟨run, rfl, hcut, hread⟩ := readQuoted_eq_some hslash h
    exact ⟨run ++ [c], rfl, hcut.passes hquote, .concat (c :: run) hblank,
      fun ds _ => .text hc (hread ds)⟩
  | quotedIdent h hs =>
    obtain ⟨run, rfl, hcut, hread⟩ := readQuoted_eq_some (by decide) h
    exact ⟨run ++ [backQuote], rfl, hcut.passes (by decide), .concat (backQuote :: run) (by decide),
      fun ds _ => .quotedIdent (hread ds) hs⟩
  | capture h =>
    have hrun : ∀ d ∈ '$' :: cs.takeWhile Char.isDigit,
        isSpecial d = false ∧ Text.isBlank d = false :=
      List.forall_mem_cons.2 ⟨by decide, fun d hd =>
        plain_of_isNamePart (isNamePart_of_isDigit (List.mem_takeWhile_imp hd))⟩
    obtain ⟨hpasses, hvisible⟩ := passes_and_endsVisibly hrun
    refine ⟨cs.takeWhile Char.isDigit, List.takeWhile_append_dropWhile.symm, hpasses, hvisible,
      fun ds hds => ?_⟩
    obtain ⟨htake, hdrop⟩ := span_of_prefix hds
    have hcapture := @First.capture (cs.takeWhile Char.isDigit ++ ds) _ (by rwa [htake])
    rwa [hdrop] at hcapture
  | number hc h =>
    have hrun : ∀ d ∈ c :: cs.takeWhile isNumberPart, isNamePart d = true :=
      List.forall_mem_cons.2 ⟨isNamePart_of_number hc,
        fun d hd => isNamePart_of_isNumberPart (List.mem_takeWhile_imp hd)⟩
    obtain ⟨hpasses, hvisible⟩ :=
      passes_and_endsVisibly (fun d hd => plain_of_isNamePart (hrun d hd))
    refine ⟨cs.takeWhile isNumberPart, List.takeWhile_append_dropWhile.symm, hpasses, hvisible,
      fun ds hds => ?_⟩
    obtain ⟨htake, hdrop⟩ := span_of_prefix hds
    have hstarts : startsWithDigit cs = true →
        startsWithDigit (cs.takeWhile isNumberPart ++ ds) = true := by
      intro hcs
      cases cs with
      | nil => cases hcs
      | cons d cs =>
        have hd : isNumberPart d = true := Bool.or_eq_true_iff.2 (.inl hcs)
        rw [List.takeWhile_cons_of_pos hd]
        exact hcs
    have hbegin : (c.isDigit ||
        (c = '.' && startsWithDigit (cs.takeWhile isNumberPart ++ ds))) = true := by
      simp only [Bool.or_eq_true, Bool.and_eq_true] at hc ⊢
      exact hc.imp_right (And.imp_right hstarts)
    have hnumber := First.number hbegin (by rwa [htake])
    rwa [hdrop] at hnumber
  | ident hc =>
    have hrun : ∀ d ∈ c :: cs.takeWhile isNamePart, isNamePart d = true :=
      List.forall_mem_cons.2 ⟨isNamePart_of_isNameStart hc, fun d hd => List.mem_takeWhile_imp hd⟩
    obtain ⟨hpasses, hvisible⟩ :=
      passes_and_endsVisibly (fun d hd => plain_of_isNamePart (hrun d hd))
    refine ⟨cs.takeWhile isNamePart, List.takeWhile_append_dropWhile.symm, hpasses, hvisible,
      fun ds hds => ?_⟩
    obtain ⟨htake, hdrop⟩ := span_of_prefix hds
    have hident := @First.ident c (cs.takeWhile isNamePart ++ ds) hc
    rwa [htake, hdrop] at hident
  | op h =>
    obtain ⟨d, run, heq, hrun, hread⟩ := readOp_eq_some h
    cases heq
    have hop : ∀ d ∈ operatorChars, isSpecial d = false ∧ Text.isBlank d = false := by
      intro d hd
      simp only [operatorChars, List.mem_cons, List.not_mem_nil, or_false] at hd
      obtain rfl | rfl | rfl | rfl | rfl | rfl | rfl | rfl | rfl | rfl := hd
      all_goals exact ⟨by decide, by decide⟩
    obtain ⟨hpasses, hvisible⟩ := passes_and_endsVisibly (fun d hd => hop d (hrun d hd))
    exact ⟨run, rfl, hpasses, hvisible, fun ds hds => .op (hread ds hds)⟩

/-- **The search for a closing brace passes over all that is scanned.** -/
theorem passes_of_scan (h : scan input cs = .ok ts) : Passes cs := by
  induction hlength : cs.length using Nat.strong_induction_on generalizing cs ts with
  | _ n ih =>
    subst hlength
    cases cs with
    | nil => exact .plain nofun
    | cons c cs =>
      by_cases hc : Text.isBlank c = true
      · rw [scan_of_isBlank hc] at h
        have hspecial : isSpecial c = false := isSpecial_of_isBlank hc
        exact (Passes.plain (List.forall_mem_singleton.2 hspecial)).append
          (ih _ (Nat.lt_succ_self _) h rfl)
      · obtain ⟨t, rest, us, hfirst, hus, rfl⟩ :=
          (scan_cons_eq_ok (Bool.eq_false_iff.2 hc)).1 h
        obtain ⟨run, rfl, hpasses, -⟩ := hfirst.exists_run
        refine hpasses.append (ih _ ?_ hus rfl)
        simp only [List.length_cons, List.length_append]
        omega

/-! ## Blanks around -/

theorem scan_blanks_append (hblanks : ∀ b ∈ blanks, Text.isBlank b = true) :
    scan input (blanks ++ cs) = scan input cs := by
  induction blanks with
  | nil => rfl
  | cons b blanks ih =>
    obtain ⟨hb, hblanks⟩ := List.forall_mem_cons.1 hblanks
    rw [List.cons_append, scan_of_isBlank hb, ih hblanks]

/-- **Blanks at the end of a text mean nothing.** -/
theorem scan_of_append_blanks (hblanks : ∀ b ∈ blanks, Text.isBlank b = true)
    (h : scan input (cs ++ blanks) = .ok ts) : scan input' cs = .ok ts := by
  induction hlength : cs.length using Nat.strong_induction_on generalizing cs ts with
  | _ n ih =>
    subst hlength
    cases cs with
    | nil =>
      rw [List.nil_append, ← List.append_nil blanks, scan_blanks_append hblanks, scan_nil] at h
      rw [scan_nil, ← h]
    | cons c cs =>
      by_cases hc : Text.isBlank c = true
      · rw [List.cons_append, scan_of_isBlank hc] at h
        rw [scan_of_isBlank hc]
        exact ih _ (Nat.lt_succ_self _) h rfl
      · have hc : Text.isBlank c = false := Bool.eq_false_iff.2 hc
        obtain ⟨t, rest, us, hfirst, hus, rfl⟩ := (scan_cons_eq_ok hc).1 h
        obtain ⟨run, hrun, -, hvisible, hless⟩ := hfirst.exists_run
        -- the token ends before the blanks
        obtain ⟨ds, rfl, rfl⟩ : ∃ ds, cs = run ++ ds ∧ rest = ds ++ blanks := by
          obtain ⟨ds, hds, hrest⟩ | ⟨ds, hds, hrest⟩ := List.append_eq_append_iff.1 hrun
          · obtain rfl | ⟨init, d, rfl⟩ := List.eq_nil_or_concat ds
            · exact ⟨[], by rw [hds, List.append_nil, List.append_nil], hrest.symm⟩
            · have hd : Text.isBlank d = false :=
                hvisible (c :: cs ++ init) d (by rw [hds]; simp)
              have hmem : d ∈ blanks := by rw [hrest]; simp
              cases hd.symm.trans (hblanks d hmem)
          · exact ⟨ds, hds, hrest⟩
        refine (scan_cons_eq_ok hc).2 ⟨t, ds, us, hless ds (List.prefix_append ..),
          ih _ ?_ hus rfl, rfl⟩
        simp only [List.length_cons, List.length_append]
        omega

end Token

/-- **Blanks around an expression mean nothing.** -/
theorem Formula.readChars_trimChars {cs : List Char} {f : Formula Float}
    (h : readChars cs = .ok f) : readChars (Text.trimChars cs) = .ok f := by
  obtain ⟨ts, hts, hf⟩ := Outcome.bind_eq_ok.1 h
  obtain ⟨front, back, hcs, hfront, hback⟩ := Text.exists_blanks_trimChars cs
  have hscan : Token.scan (String.ofList (Text.trimChars cs)) (Text.trimChars cs) = .ok ts := by
    rw [hcs, Token.scan_blanks_append hfront] at hts
    exact Token.scan_of_append_blanks hback hts
  exact Outcome.bind_eq_ok.2 ⟨ts, hscan, ofTokens_eq_ok.2 (ofTokens_eq_ok.1 hf)⟩

namespace Template

variable {front body rest : List Char} {is : List Interpolation} {fs : List (Formula Float)}
  {f : Formula Float}

/-! ## Taking a note apart again -/

/-- **An expression is cut at the brace behind it**, whatever it has between
quotes. -/
theorem cutClosing_of_readChars (h : Formula.readChars body = .ok f) :
    cutClosing none (body ++ '\x7d' :: rest) = some (body, rest) := by
  obtain ⟨ts, hts, -⟩ := Outcome.bind_eq_ok.1 h
  have hnext : cutClosing none ('\x7d' :: rest) = some ([], rest) := by
    rw [cutClosing, if_pos rfl]
    · exact nofun
    · exact nofun
  rw [Token.passes_of_scan hts, hnext]
  simp

/-- The two characters that open an interpolation. -/
def opening : List Char := ['%', '\x7b']

/-- Nothing is cut where nothing opens. -/
theorem cutOpening_eq_none_iff {cs : List Char} :
    cutOpening cs = none ↔ ¬ opening <:+: cs := by
  induction cs with
  | nil => exact iff_of_true rfl (by decide)
  | cons c cs ih =>
    have hprefix : opening <+: c :: cs ↔ c = '%' ∧ cs.head? = some '\x7b' := by
      unfold opening
      rw [List.cons_prefix_cons, eq_comm]
      cases cs with
      | nil => simp
      | cons d cs => simp [List.cons_prefix_cons, eq_comm]
    rw [cutOpening_cons_eq_none, ih, List.infix_cons_iff, hprefix, not_or]

/-- Literal text is cut off at the opening behind it. -/
theorem cutOpening_append_opening (h : cutOpening front = none) :
    cutOpening (front ++ '%' :: '\x7b' :: rest) = some (front, rest) := by
  induction front with
  | nil => rfl
  | cons c front ih =>
    obtain ⟨hc, hfront⟩ := cutOpening_cons_eq_none.1 h
    have hseam : ¬ (c = '%' ∧ (front ++ '%' :: '\x7b' :: rest).head? = some '\x7b') := by
      rintro ⟨rfl, hhead⟩
      cases front with
      | nil => cases hhead
      | cons d front => exact hc ⟨rfl, hhead⟩
    rw [List.cons_append, cutOpening_cons hseam, ih hfront]
    rfl

/-- **What was put together is taken apart** into the same pieces. -/
theorem takeApart_assembled (hfront : ¬ opening <:+: front)
    (hliteral : ∀ i ∈ is, ¬ opening <:+: i.literal)
    (hread : List.Forall₂ (fun i f => Formula.readChars i.body = .ok f) is fs) :
    takeApart (assembled front is) = some (front, is) := by
  induction hread generalizing front with
  | nil => exact takeApart_of_none (cutOpening_eq_none_iff.2 hfront)
  | @cons i f is fs hbody _ ih =>
    obtain ⟨hi, hliteral⟩ := List.forall_mem_cons.1 hliteral
    rw [assembled, takeApart_of_some (cutOpening_append_opening (cutOpening_eq_none_iff.2 hfront))
      (cutClosing_of_readChars hbody), ih hi hliteral]
    rfl

/-- **Compiling finds every interpolation and nothing else.** Literal text in
which no interpolation opens and expressions between braces are put together to
a note. If there are enough numbers above the highest placeholder that can be
found anywhere in the note, the expressions are bound to the next numbers in
their order, and the numbers stand in their places. -/
theorem compile_assembled {highest : Nat} (hfront : ¬ opening <:+: front)
    (hliteral : ∀ i ∈ is, ¬ opening <:+: i.literal)
    (hread : List.Forall₂ (fun i f => Formula.read (String.ofList i.body) = .ok f) is fs)
    (hhighest : highest =
      ((numbers (assembled front is)).filter (· < Text.indexBound)).foldr max 0)
    (hroom : highest + is.length < lastPlaceholder) :
    compile (String.ofList (assembled front is)) =
      .ok ⟨numbered (highest + 1) front is, bound (highest + 1) fs⟩ := by
  have hread : List.Forall₂ (fun i f => Formula.readChars i.body = .ok f) is fs := by
    refine hread.imp (fun i f h => ?_)
    rwa [Formula.read, String.toList_ofList] at h
  have hbodies : List.Forall₂ Interpolation.IsRead is fs :=
    hread.imp (fun _ _ h => Formula.readChars_trimChars h)
  rw [← highestPlaceholder_eq] at hhighest
  subst hhighest
  rw [compile, String.toList_ofList]
  exact compileChars_eq_ok.2
    ⟨front, is, fs, takeApart_assembled hfront hliteral hread, hbodies, hroom, rfl⟩

/-- A brace between quotes belongs to the expression, and so does an opening. -/
theorem compile_assembled_quoted : ∃ f,
    Formula.read "source == '%\x7b\x7d' ? 2 : 1" = .ok f ∧
      compile "%3: %\x7bsource == '%\x7b\x7d' ? 2 : 1\x7d!" = .ok ⟨"%3: %4!".toList, [⟨4, f⟩]⟩ := by
  have hok : (Formula.read "source == '%\x7b\x7d' ? 2 : 1").isOk = true := by decide +kernel
  obtain ⟨f, hf⟩ := Outcome.exists_of_isOk hok
  let quoted : Interpolation := ⟨"source == '%\x7b\x7d' ? 2 : 1".toList, ['!']⟩
  have hcompiled : compile (String.ofList (assembled "%3: ".toList [quoted])) =
      .ok ⟨numbered 4 "%3: ".toList [quoted], bound 4 [f]⟩ :=
    compile_assembled (by decide) (by decide) (.cons hf .nil) (by decide +kernel) (by decide)
  have htext : String.ofList (assembled "%3: ".toList [quoted]) =
      "%3: %\x7bsource == '%\x7b\x7d' ? 2 : 1\x7d!" := by decide +kernel
  have hchars : numbered 4 "%3: ".toList [quoted] = "%3: %4!".toList := by decide +kernel
  rw [htext, hchars] at hcompiled
  exact ⟨f, hf, hcompiled⟩

end Template

end Rulebook
