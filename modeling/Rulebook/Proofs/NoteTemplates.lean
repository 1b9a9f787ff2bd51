import Rulebook.Proofs.Numerals
import Rulebook.Proofs.Outcomes
import Rulebook.Template

/-!
# Compiling a note again

The text of a compiled note has no interpolations left: what was cut out at them
is gone, and no new one arises where a number was put in. So compiling it again
finds nothing to do.

It may fail all the same, for the numbers are put in as bare digits. If an
interpolation is directly followed by a digit, its number and the digits after
it read as one number, which may be the highest that a placeholder can have.
Then there is no number left to begin with. This is the only way in which it
fails, and it does not fail where no interpolation is followed by a digit.
-/

namespace Rulebook

namespace Template

variable {note : String} {next : Nat} {cs xs ys before after body rest : List Char} {c : Char}
  {quote : Option Char} {t : Template} {f : Formula Float}

/-! ## Where an interpolation opens -/

theorem cutOpening_cons (h : ¬ (c = '%' ∧ cs.head? = some '\x7b')) :
    cutOpening (c :: cs) = (cutOpening cs).map fun (before, after) => (c :: before, after) := by
  rw [cutOpening]
  rintro cs' rfl rfl
  exact h ⟨rfl, rfl⟩

theorem cutOpening_cons_eq_none : cutOpening (c :: cs) = none ↔
    ¬ (c = '%' ∧ cs.head? = some '\x7b') ∧ cutOpening cs = none := by
  by_cases h : c = '%' ∧ cs.head? = some '\x7b'
  · obtain ⟨rfl, hhead⟩ := h
    obtain ⟨cs, rfl⟩ := List.head?_eq_some_iff.1 hhead
    exact ⟨nofun, fun h => absurd ⟨rfl, rfl⟩ h.1⟩
  · rw [cutOpening_cons h, Option.map_eq_none_iff]
    exact (and_iff_right h).symm

/-- Nothing opens where two texts meet, unless the second begins with a brace. -/
theorem cutOpening_append (hxs : cutOpening xs = none) (hys : cutOpening ys = none)
    (hseam : ys.head? ≠ some '\x7b') : cutOpening (xs ++ ys) = none := by
  induction xs with
  | nil => exact hys
  | cons x xs ih =>
    obtain ⟨hx, hxs⟩ := cutOpening_cons_eq_none.1 hxs
    refine cutOpening_cons_eq_none.2 ⟨?_, ih hxs⟩
    rintro ⟨rfl, hhead⟩
    cases xs with
    | nil => exact hseam hhead
    | cons x xs => exact hx ⟨rfl, hhead⟩

/-- Nothing opens before the first opening. -/
theorem cutOpening_eq_some (h : cutOpening cs = some (before, after)) :
    cs = before ++ '%' :: '\x7b' :: after ∧ cutOpening before = none := by
  induction cs generalizing before with
  | nil => cases h
  | cons c cs ih =>
    by_cases hc : c = '%' ∧ cs.head? = some '\x7b'
    · obtain ⟨rfl, hhead⟩ := hc
      obtain ⟨cs, rfl⟩ := List.head?_eq_some_iff.1 hhead
      cases h
      exact ⟨rfl, rfl⟩
    · rw [cutOpening_cons hc] at h
      obtain ⟨⟨before, after⟩, hcut, heq⟩ := Option.map_eq_some_iff.1 h
      cases heq
      obtain ⟨rfl, hnone⟩ := ih hcut
      refine ⟨rfl, cutOpening_cons_eq_none.2 ⟨?_, hnone⟩⟩
      rintro ⟨rfl, hhead⟩
      obtain ⟨before, rfl⟩ := List.head?_eq_some_iff.1 hhead
      exact hc ⟨rfl, rfl⟩

/-- Nothing opens at a placeholder. -/
theorem cutOpening_placeholder (h : cutOpening cs = none) (n : Nat) :
    cutOpening ('%' :: Numeral.digitsOfNat n ++ cs) = none := by
  obtain ⟨d, ds, hds⟩ := List.exists_cons_of_ne_nil (Numeral.digitsOfNat_ne_nil n)
  have hdigits : ∀ c ∈ d :: ds, c.isDigit = true := hds ▸ Numeral.isDigit_of_mem_digitsOfNat n
  have hskip : ∀ {ds : List Char}, (∀ c ∈ ds, c.isDigit = true) → cutOpening (ds ++ cs) = none := by
    intro ds hds
    induction ds with
    | nil => exact h
    | cons d ds ih =>
      obtain ⟨hd, hds⟩ := List.forall_mem_cons.1 hds
      refine cutOpening_cons_eq_none.2 ⟨?_, ih hds⟩
      rintro ⟨rfl, -⟩
      cases hd
  rw [hds]
  refine cutOpening_cons_eq_none.2 ⟨?_, hskip hdigits⟩
  rintro ⟨-, hhead⟩
  cases hhead
  exact nomatch (List.forall_mem_cons.1 hdigits).1

/-- **Nothing opens in a compiled note.** -/
theorem cutOpening_of_bindFrom (h : bindFrom note next cs = .ok t) : cutOpening t.chars = none := by
  fun_induction bindFrom note next cs generalizing t with
  | case1 next cs hopen =>
    cases h
    exact hopen
  | case6 next cs before after hopen =>
    rename_i ih
    obtain ⟨t, ht, rfl⟩ := Outcome.map_eq_ok.1 h
    show cutOpening (before ++ '%' :: Numeral.digitsOfNat next ++ t.chars) = none
    rw [List.append_assoc]
    exact cutOpening_append (cutOpening_eq_some hopen).2 (cutOpening_placeholder (ih ht) next)
      nofun
  | _ => cases h

/-! ## The highest placeholder -/

/-- **A text that does not go on with a digit.** -/
def NoDigit (cs : List Char) : Prop := ∀ c ∈ cs.head?, c.isDigit = false

theorem takeWhile_append (hys : NoDigit ys) :
    (xs ++ ys).takeWhile Char.isDigit = xs.takeWhile Char.isDigit :=
  (Text.span_append_of_head hys).1

theorem highestPlaceholder_append (hys : NoDigit ys) :
    highestPlaceholder (xs ++ ys) = max (highestPlaceholder xs) (highestPlaceholder ys) := by
  induction xs with
  | nil => exact (Nat.zero_max _).symm
  | cons x xs ih =>
    rw [List.cons_append, highestPlaceholder, highestPlaceholder, takeWhile_append hys, ih]
    split
    · rw [max_assoc]
    · rfl

theorem highestPlaceholder_le_append : highestPlaceholder ys ≤ highestPlaceholder (xs ++ ys) := by
  induction xs with
  | nil => exact le_rfl
  | cons x xs ih =>
    rw [List.cons_append, highestPlaceholder]
    split
    · exact ih.trans (le_max_right ..)
    · exact ih

theorem highestPlaceholder_of_isDigit (hcs : ∀ c ∈ cs, c.isDigit = true) :
    highestPlaceholder cs = 0 := by
  induction cs with
  | nil => rfl
  | cons c cs ih =>
    obtain ⟨hc, hcs⟩ := List.forall_mem_cons.1 hcs
    have hne : c ≠ '%' := by
      rintro rfl
      cases hc
    rw [highestPlaceholder, if_neg hne, ih hcs]

/-- A number that is put in is a placeholder of the text. -/
theorem highestPlaceholder_placeholder (hnext : next < Text.indexBound) (hcs : NoDigit cs) :
    highestPlaceholder ('%' :: Numeral.digitsOfNat next ++ cs) =
      max next (highestPlaceholder cs) := by
  have hdigits := Numeral.isDigit_of_mem_digitsOfNat next
  have hread : Text.readBounded Text.indexBound (Numeral.digitsOfNat next) = some next :=
    Text.readBounded_digitsOfNat hnext
  have hzero : highestPlaceholder (Numeral.digitsOfNat next) = 0 :=
    highestPlaceholder_of_isDigit hdigits
  rw [List.cons_append, highestPlaceholder, if_pos rfl, takeWhile_append hcs,
    List.takeWhile_eq_self_iff.2 hdigits, hread, highestPlaceholder_append hcs, hzero,
    Nat.zero_max]
  rfl

/-! ## Notes without captured digits -/

/-- **Whether no interpolation is directly followed by a digit.** -/
inductive Separated : List Char → Prop where
  | plain {cs : List Char} (h : cutOpening cs = none) : Separated cs
  | interpolation {cs before after body rest : List Char}
      (hopen : cutOpening cs = some (before, after))
      (hclose : cutClosing none after = some (body, rest))
      (hdigit : NoDigit rest) (h : Separated rest) : Separated cs

theorem suffix_of_cutClosing (h : cutClosing quote cs = some (body, rest)) : rest <:+ cs := by
  fun_induction cutClosing quote cs generalizing body with
  | case1 => cases h
  | case2 => cases h
  | case3 quote c cs ih =>
    obtain ⟨⟨body, rest⟩, h', heq⟩ := Option.map_eq_some_iff.1 h
    cases heq
    exact ((ih h').trans (List.suffix_cons ..)).trans (List.suffix_cons ..)
  | case4 q c cs _ _ ih =>
    obtain ⟨⟨body, rest⟩, h', heq⟩ := Option.map_eq_some_iff.1 h
    cases heq
    exact (ih h').trans (List.suffix_cons ..)
  | case5 cs =>
    cases h
    exact List.suffix_cons ..
  | case6 c cs _ _ _ ih =>
    obtain ⟨⟨body, rest⟩, h', heq⟩ := Option.map_eq_some_iff.1 h
    cases heq
    exact (ih h').trans (List.suffix_cons ..)

/-- Binding does not put a digit in front. -/
theorem noDigit_of_bindFrom (h : bindFrom note next cs = .ok t) (hcs : NoDigit cs) :
    NoDigit t.chars := by
  revert h
  fun_cases bindFrom note next cs with
  | case1 hopen =>
    intro h
    cases h
    exact hcs
  | case6 before after hopen =>
    intro h
    obtain ⟨t, -, rfl⟩ := Outcome.map_eq_ok.1 h
    obtain ⟨rfl, -⟩ := cutOpening_eq_some hopen
    cases before with
    | nil => exact fun c hc => by cases hc; rfl
    | cons b before => exact hcs
  | _ => exact nofun

/-- **No number grows** where no interpolation is followed by a digit. -/
theorem highestPlaceholder_of_bindFrom (h : bindFrom note next cs = .ok t) (hcs : Separated cs)
    (hlast : highestPlaceholder cs < lastPlaceholder) :
    highestPlaceholder t.chars < lastPlaceholder := by
  fun_induction bindFrom note next cs generalizing t with
  | case1 next cs hopen =>
    cases h
    exact hlast
  | case6 next cs before after hopen body rest hclose _ _ f _ hnext =>
    rename_i ih
    obtain ⟨t, ht, rfl⟩ := Outcome.map_eq_ok.1 h
    cases hcs with
    | plain hnone => cases hnone.symm.trans hopen
    | interpolation hopen' hclose' hdigit hrest =>
      cases Option.some.inj (hopen.symm.trans hopen')
      cases Option.some.inj (hclose.symm.trans hclose')
      have hclosed : highestPlaceholder rest ≤ highestPlaceholder after := by
        obtain ⟨xs, rfl⟩ := suffix_of_cutClosing hclose
        exact highestPlaceholder_le_append
      have hafter : highestPlaceholder after ≤ highestPlaceholder ('%' :: '\x7b' :: after) :=
        @highestPlaceholder_le_append ['%', '\x7b'] after
      obtain ⟨rfl, -⟩ := cutOpening_eq_some hopen
      rw [highestPlaceholder_append (fun c hc => by cases hc; rfl), max_lt_iff] at hlast
      have hrest := ih ht hrest (hclosed.trans_lt (hafter.trans_lt hlast.2))
      show highestPlaceholder (before ++ '%' :: Numeral.digitsOfNat next ++ t.chars) < _
      have hnext : next < lastPlaceholder := Nat.lt_of_not_le hnext
      rw [List.append_assoc, highestPlaceholder_append (fun c hc => by cases hc; rfl),
        highestPlaceholder_placeholder (hnext.trans (by decide)) (noDigit_of_bindFrom ht hdigit)]
      exact max_lt hlast.1 (max_lt hnext hrest)
  | _ => cases h

/-! ## Compiling again -/

theorem compileChars_of_cutOpening (h : cutOpening cs = none) : compileChars cs =
    if highestPlaceholder cs < lastPlaceholder then .ok ⟨cs, []⟩
    else malformed (.tooManyPlaceholders (String.ofList cs)) := by
  have hbind : bindFrom (String.ofList cs) (highestPlaceholder cs + 1) cs = .ok ⟨cs, []⟩ := by
    rw [bindFrom]
    split
    · rfl
    · next hopen => cases h.symm.trans hopen
  unfold compileChars
  dsimp only
  rw [hbind]
  split
  · next hle => exact (if_neg (not_lt_of_ge hle)).symm
  · next hnot => exact (if_pos (lt_of_not_ge hnot)).symm

/-- **Compiling the text of a compiled note** gives the same text again and binds
nothing, or it fails since the highest number of a placeholder is taken already.
It does not fail if no interpolation of the note was directly followed by a
digit. -/
theorem compile_text (h : compile note = .ok t) :
    (compile t.text = if highestPlaceholder t.chars < lastPlaceholder then .ok ⟨t.chars, []⟩
      else malformed (.tooManyPlaceholders t.text)) ∧
    (Separated note.toList → compile t.text = .ok ⟨t.chars, []⟩) := by
  unfold compile compileChars at h
  dsimp only at h
  split at h
  · cases h
  · next hlast =>
    have hagain := compileChars_of_cutOpening (cutOpening_of_bindFrom h)
    unfold compile text
    rw [String.toList_ofList, hagain]
    refine ⟨rfl, fun hseparated => if_pos ?_⟩
    exact highestPlaceholder_of_bindFrom h hseparated (Nat.lt_of_not_le hlast)

/-- In this note a blank comes after the interpolation. -/
theorem compile_text_armor : ∃ t,
    compile "+%\x7bsource\x7d AC" = .ok t ∧ compile t.text = .ok ⟨t.chars, []⟩ := by
  have hok : (compile "+%\x7bsource\x7d AC").isOk = true := by decide +kernel
  obtain ⟨t, ht⟩ := Outcome.exists_of_isOk hok
  have hseparated : Separated "+%\x7bsource\x7d AC".toList :=
    @Separated.interpolation _ ['+'] "source\x7d AC".toList "source".toList [' ', 'A', 'C']
      (by decide) (by decide) (fun c hc => by cases hc; rfl) (.plain rfl)
  exact ⟨t, ht, (compile_text ht).2 hseparated⟩

/-- **A note that cannot be compiled again**: the number 2 is put in before the
digits 55, and the text ends with the placeholder 255. -/
theorem compile_text_captured : ¬ ∀ (note : String) (t : Template), compile note = .ok t →
    compile t.text = .ok ⟨t.chars, []⟩ := by
  intro h
  have hfirst : (compile "%1%\x7bx\x7d55").map text = .ok "%1%255" := by decide +kernel
  obtain ⟨t, ht, htext⟩ := Outcome.map_eq_ok.1 hfirst
  have hagain := h _ t ht
  rw [htext] at hagain
  have hfails : (compile "%1%255").isOk = false := by decide +kernel
  rw [hagain] at hfails
  cases hfails

end Template

end Rulebook
