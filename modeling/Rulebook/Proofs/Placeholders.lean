import Mathlib.Data.List.Forall2
import Rulebook.Proofs.NoteTemplates

/-!
# The placeholders of a compiled note

Whoever shows a note reads its template from the left and takes a percent sign
with the digits directly behind it for a placeholder. What is found in this way
should be the placeholders that the literal text of the note has, and one more
for each interpolation, in their order.

To say so, a note is taken apart into its literal text and its interpolations,
and compiling is described on these pieces: the bodies are read one by one, and
the template is put together again with numbers in their places. Literal text
does not grow a placeholder where it meets a number, with one exception: digits
at its beginning go to the number in front of it. So the template is read as it
should be exactly if no interpolation is directly followed by a digit.
-/

namespace Rulebook

namespace Template

variable {note : String} {next : Nat} {cs xs ys digits front before after body rest : List Char}
  {t : Template} {f : Formula Float}

/-! ## Reading placeholders -/

/-- **The placeholders of a text**: the digits behind each percent sign that has
any, as many as there are. -/
def placeholders : List Char → List (List Char)
  | [] => []
  | c :: cs =>
    let digits := cs.takeWhile Char.isDigit
    if c = '%' ∧ digits ≠ [] then digits :: placeholders cs else placeholders cs

/-- The numbers of the placeholders of a text. -/
def numbers (cs : List Char) : List Nat := (placeholders cs).map Numeral.natOfDigits

theorem placeholders_cons_of_ne {c : Char} (h : c ≠ '%') :
    placeholders (c :: cs) = placeholders cs :=
  if_neg (fun hc => h hc.1)

/-- Texts that meet where no digit is have the placeholders of both. -/
theorem placeholders_append (hys : NoDigit ys) :
    placeholders (xs ++ ys) = placeholders xs ++ placeholders ys := by
  induction xs with
  | nil => rfl
  | cons x xs ih =>
    rw [List.cons_append, placeholders, placeholders, takeWhile_append hys, ih]
    split
    · rfl
    · rfl

/-- Digits at the front of a text are no placeholders. -/
theorem placeholders_digits (hdigits : ∀ c ∈ digits, c.isDigit = true) :
    placeholders (digits ++ cs) = placeholders cs := by
  induction digits with
  | nil => rfl
  | cons d digits ih =>
    obtain ⟨hd, hdigits⟩ := List.forall_mem_cons.1 hdigits
    have hne : d ≠ '%' := by
      rintro rfl
      cases hd
    rw [List.cons_append, placeholders_cons_of_ne hne, ih hdigits]

/-- **A placeholder takes the digits that follow.** -/
theorem placeholders_number (n : Nat) : placeholders ('%' :: (Numeral.digitsOfNat n ++ cs)) =
    (Numeral.digitsOfNat n ++ cs.takeWhile Char.isDigit) :: placeholders cs := by
  have hdigits := Numeral.isDigit_of_mem_digitsOfNat n
  have htake : (Numeral.digitsOfNat n ++ cs).takeWhile Char.isDigit =
      Numeral.digitsOfNat n ++ cs.takeWhile Char.isDigit := List.takeWhile_append_of_pos hdigits
  have hne : Numeral.digitsOfNat n ++ cs.takeWhile Char.isDigit ≠ [] :=
    List.append_ne_nil_of_left_ne_nil (Numeral.digitsOfNat_ne_nil n) _
  rw [placeholders, htake, if_pos ⟨rfl, hne⟩, placeholders_digits hdigits]

/-- **The highest placeholder** is the highest number that is small enough. -/
theorem highestPlaceholder_eq (cs : List Char) : highestPlaceholder cs =
    ((numbers cs).filter (· < Text.indexBound)).foldr max 0 := by
  induction cs with
  | nil => rfl
  | cons c cs ih =>
    have hdigits : ∀ d ∈ cs.takeWhile Char.isDigit, d.isDigit = true :=
      fun _ hd => List.mem_takeWhile_imp hd
    rw [highestPlaceholder, numbers, placeholders, Text.readBounded_of_isDigit hdigits, ih]
    by_cases hc : c = '%'
    · by_cases hne : cs.takeWhile Char.isDigit = []
      · rw [if_pos hc, if_neg (fun h => h.1 hne), if_neg (fun h => h.2 hne)]
        exact Nat.zero_max _
      · have hboth : c = '%' ∧ cs.takeWhile Char.isDigit ≠ [] := ⟨hc, hne⟩
        rw [if_pos hc, if_pos hboth, List.map_cons, List.filter_cons]
        by_cases hlt : Numeral.natOfDigits (cs.takeWhile Char.isDigit) < Text.indexBound
        · rw [if_pos ⟨hne, hlt⟩, if_pos (decide_eq_true hlt), List.foldr_cons]
          rfl
        · rw [if_neg (fun h => hlt h.2), if_neg (fun h => hlt (of_decide_eq_true h))]
          exact Nat.zero_max _
    · rw [if_neg hc, if_neg (fun h => hc h.1)]
      rfl

/-- The highest placeholder is not below any that is small enough. -/
theorem le_highestPlaceholder {n : Nat} (hn : n ∈ numbers cs) (hlt : n < Text.indexBound) :
    n ≤ highestPlaceholder cs := by
  have hle : ∀ ns : List Nat, n ∈ ns → n ≤ ns.foldr max 0 := by
    intro ns
    induction ns with
    | nil => exact nofun
    | cons m ns ih =>
      intro hmem
      obtain rfl | hmem := List.mem_cons.1 hmem
      · exact le_max_left ..
      · exact (ih hmem).trans (le_max_right ..)
  rw [highestPlaceholder_eq]
  exact hle _ (List.mem_filter.2 ⟨hn, decide_eq_true hlt⟩)

theorem numbers_append (hys : NoDigit ys) : numbers (xs ++ ys) = numbers xs ++ numbers ys := by
  rw [numbers, placeholders_append hys, List.map_append]
  rfl

/-- The end of a text has no placeholders that the text does not have. -/
theorem numbers_sublist_append : (numbers ys).Sublist (numbers (xs ++ ys)) := by
  refine List.Sublist.map _ ?_
  induction xs with
  | nil => exact .refl _
  | cons x xs ih =>
    rw [List.cons_append, placeholders]
    split
    · exact ih.cons _
    · exact ih

/-! ## Notes in pieces -/

/-- **An interpolation** and the literal text from there to the next one. -/
structure Interpolation where
  body : List Char
  literal : List Char

/-- **The text of a note** with some literal text in front of its
interpolations. -/
def assembled (front : List Char) : List Interpolation → List Char
  | [] => front
  | i :: is => front ++ '%' :: '\x7b' :: (i.body ++ '\x7d' :: assembled i.literal is)

/-- **The text in which numbers stand for the interpolations.** -/
def numbered (next : Nat) (front : List Char) : List Interpolation → List Char
  | [] => front
  | i :: is => front ++ '%' :: (Numeral.digitsOfNat next ++ numbered (next + 1) i.literal is)

/-- Formulas bound to the numbers from a given one on. -/
def bound (next : Nat) : List (Formula Float) → List Binding
  | [] => []
  | f :: fs => ⟨next, f⟩ :: bound (next + 1) fs

/-- **Takes a note apart** as compiling does: its literal text in front, and its
interpolations. -/
def takeApart (cs : List Char) : Option (List Char × List Interpolation) :=
  match _opens : cutOpening cs with
  | none => some (cs, [])
  | some (before, after) =>
    match _closes : cutClosing none after with
    | none => none
    | some (body, rest) =>
      (takeApart rest).map fun (literal, is) => (before, ⟨body, literal⟩ :: is)
  termination_by cs.length
  decreasing_by
    have := length_of_cutOpening _opens
    have := length_of_cutClosing _closes
    omega

theorem takeApart_of_none (h : cutOpening cs = none) : takeApart cs = some (cs, []) := by
  rw [takeApart]
  split
  · rfl
  · next hopen => cases h.symm.trans hopen

theorem takeApart_of_unclosed (hopen : cutOpening cs = some (before, after))
    (hclose : cutClosing none after = none) : takeApart cs = none := by
  rw [takeApart]
  split
  · next hopen' => cases hopen.symm.trans hopen'
  · next hopen' =>
    cases hopen.symm.trans hopen'
    split
    · rfl
    · next hclose' => cases hclose.symm.trans hclose'

theorem takeApart_of_some (hopen : cutOpening cs = some (before, after))
    (hclose : cutClosing none after = some (body, rest)) :
    takeApart cs = (takeApart rest).map fun (literal, is) => (before, ⟨body, literal⟩ :: is) := by
  rw [takeApart]
  split
  · next hopen' => cases hopen.symm.trans hopen'
  · next hopen' =>
    cases hopen.symm.trans hopen'
    split
    · next hclose' => cases hclose.symm.trans hclose'
    · next hclose' =>
      cases hclose.symm.trans hclose'
      rfl

/-- What is cut at a closing brace is the body and what follows. -/
theorem cutClosing_eq_some {quote : Option Char} (h : cutClosing quote cs = some (body, rest)) :
    cs = body ++ '\x7d' :: rest := by
  fun_induction cutClosing quote cs generalizing body with
  | case1 => cases h
  | case2 => cases h
  | case3 quote c cs ih =>
    obtain ⟨⟨body, rest⟩, h', heq⟩ := Option.map_eq_some_iff.1 h
    cases heq
    rw [ih h']
    rfl
  | case4 q c cs _ _ ih =>
    obtain ⟨⟨body, rest⟩, h', heq⟩ := Option.map_eq_some_iff.1 h
    cases heq
    rw [ih h']
    rfl
  | case5 cs =>
    cases h
    rfl
  | case6 c cs _ _ _ ih =>
    obtain ⟨⟨body, rest⟩, h', heq⟩ := Option.map_eq_some_iff.1 h
    cases heq
    rw [ih h']
    rfl

/-- **The pieces make up the note.** -/
theorem assembled_of_takeApart {is : List Interpolation} (h : takeApart cs = some (front, is)) :
    assembled front is = cs := by
  fun_induction takeApart cs generalizing front is with
  | case1 => cases h; rfl
  | case2 => cases h
  | case3 cs before after hopen body rest hclose ih =>
    obtain ⟨⟨literal, is⟩, hrest, heq⟩ := Option.map_eq_some_iff.1 h
    cases heq
    rw [(cutOpening_eq_some hopen).1, cutClosing_eq_some hclose, assembled, ih hrest]

theorem noDigit_cons {c : Char} (hc : c.isDigit = false) : NoDigit (c :: cs) := by
  rintro _ ⟨⟩
  exact hc

theorem noDigit_assembled {is : List Interpolation} :
    NoDigit (assembled front is) ↔ NoDigit front := by
  cases is with
  | nil => exact Iff.rfl
  | cons i is =>
    cases front with
    | nil => exact iff_of_true (noDigit_cons (by decide)) nofun
    | cons c front => exact Iff.rfl

/-- A note is separated if its literal text is. -/
theorem separated_iff {is : List Interpolation} (h : takeApart cs = some (front, is)) :
    Separated cs ↔ ∀ i ∈ is, NoDigit i.literal := by
  fun_induction takeApart cs generalizing front is with
  | case1 cs hopen =>
    cases h
    exact ⟨fun _ => nofun, fun _ => .plain hopen⟩
  | case2 => cases h
  | case3 cs before after hopen body rest hclose ih =>
    obtain ⟨⟨literal, is⟩, hrest, heq⟩ := Option.map_eq_some_iff.1 h
    cases heq
    have hdigit : NoDigit rest ↔ NoDigit literal := assembled_of_takeApart hrest ▸ noDigit_assembled
    rw [List.forall_mem_cons, ← ih hrest, ← hdigit]
    constructor
    · rintro (hnone | ⟨hopen', hclose', hdigit, hrest⟩)
      · cases hnone.symm.trans hopen
      · cases hopen.symm.trans hopen'
        cases hclose.symm.trans hclose'
        exact ⟨hdigit, hrest⟩
    · rintro ⟨hdigit, hrest⟩
      exact .interpolation hopen hclose hdigit hrest

/-- **The placeholders of the literal text** are placeholders of the note. -/
theorem mem_numbers_assembled {n : Nat} {is : List Interpolation}
    (h : n ∈ numbers front ∨ ∃ i ∈ is, n ∈ numbers i.literal) :
    n ∈ numbers (assembled front is) := by
  induction is generalizing front with
  | nil =>
    obtain h | ⟨i, hi, -⟩ := h
    · exact h
    · cases hi
  | cons i is ih =>
    have hcut : assembled front (i :: is) =
        (front ++ '%' :: '\x7b' :: (i.body ++ ['\x7d'])) ++ assembled i.literal is := by
      simp [assembled]
    obtain h | ⟨j, hj, hn⟩ := h
    · rw [assembled, numbers_append (noDigit_cons (by decide))]
      exact List.mem_append_left _ h
    · rw [hcut]
      refine numbers_sublist_append.subset (ih ?_)
      obtain rfl | hj := List.mem_cons.1 hj
      · exact .inl hn
      · exact .inr ⟨j, hj, hn⟩

/-! ## Compiling on pieces -/

/-- Whether a formula is what the body of an interpolation is read as. -/
def Interpolation.IsRead (i : Interpolation) (f : Formula Float) : Prop :=
  Formula.readChars (Text.trimChars i.body) = .ok f

/-- Nothing is read where nothing is written. -/
theorem readChars_nil : Formula.readChars [] ≠ .ok f := by
  unfold Formula.readChars Token.scan
  nofun

/-- **Binding on pieces.** A note is bound if all bodies are read and there are
enough numbers for them. -/
theorem bindFrom_eq_ok : bindFrom note next cs = .ok t ↔ ∃ front is fs,
    takeApart cs = some (front, is) ∧ List.Forall₂ Interpolation.IsRead is fs ∧
      (is ≠ [] → next + is.length ≤ lastPlaceholder) ∧
      t = ⟨numbered next front is, bound next fs⟩ := by
  fun_induction bindFrom note next cs generalizing t with
  | case1 next cs hopen =>
    rw [takeApart_of_none hopen]
    constructor
    · rintro ⟨⟩
      exact ⟨cs, [], [], rfl, .nil, fun h => absurd rfl h, rfl⟩
    · rintro ⟨_, _, _, ⟨⟩, ⟨⟩, -, rfl⟩
      rfl
  | case2 next cs before after hopen hclose =>
    rw [takeApart_of_unclosed hopen hclose]
    constructor
    · rintro ⟨⟩
    · rintro ⟨_, _, _, ⟨⟩, -⟩
  | case3 next cs before after hopen body rest hclose _ =>
    rename_i hempty
    rw [takeApart_of_some hopen hclose]
    refine ⟨by rintro ⟨⟩, ?_⟩
    rintro ⟨front, is, fs, h, hread, -⟩
    obtain ⟨⟨literal, is⟩, -, heq⟩ := Option.map_eq_some_iff.1 h
    cases heq
    cases hread with
    | cons hbody _ =>
      have hnil : Text.trimChars body = [] := hempty
      unfold Interpolation.IsRead at hbody
      rw [hnil] at hbody
      exact absurd hbody readChars_nil
  | case4 next cs before after hopen body rest hclose _ _ e =>
    rename_i he
    rw [takeApart_of_some hopen hclose]
    refine ⟨by rintro ⟨⟩, ?_⟩
    rintro ⟨front, is, fs, h, hread, -⟩
    obtain ⟨⟨literal, is⟩, -, heq⟩ := Option.map_eq_some_iff.1 h
    cases heq
    cases hread with
    | cons hbody _ => cases he.symm.trans hbody
  | case5 next cs before after hopen body rest hclose _ _ formula hformula =>
    rename_i hlast
    rw [takeApart_of_some hopen hclose]
    refine ⟨by rintro ⟨⟩, ?_⟩
    rintro ⟨front, is, fs, h, -, hroom, -⟩
    obtain ⟨⟨literal, is⟩, -, heq⟩ := Option.map_eq_some_iff.1 h
    cases heq
    have hroom := hroom (List.cons_ne_nil _ _)
    rw [List.length_cons] at hroom
    omega
  | case6 next cs before after hopen body rest hclose _ _ formula hformula hlast =>
    rename_i ih
    rw [takeApart_of_some hopen hclose, Outcome.map_eq_ok]
    constructor
    · rintro ⟨t, ht, rfl⟩
      obtain ⟨literal, is, fs, hrest, hread, hroom, rfl⟩ := ih.1 ht
      refine ⟨before, ⟨body, literal⟩ :: is, formula :: fs, by rw [hrest]; rfl,
        .cons hformula hread, fun _ => ?_, by simp [numbered, bound]⟩
      rw [List.length_cons]
      by_cases his : is = []
      · rw [his, List.length_nil]
        omega
      · have := hroom his
        omega
    · rintro ⟨front, is, fs, h, hread, hroom, rfl⟩
      obtain ⟨⟨literal, is⟩, hrest, heq⟩ := Option.map_eq_some_iff.1 h
      cases heq
      cases hread with
      | cons hbody hread =>
        cases hformula.symm.trans hbody
        have hroom := hroom (List.cons_ne_nil _ _)
        rw [List.length_cons] at hroom
        refine ⟨_, ih.2 ⟨literal, is, _, hrest, hread, fun _ => by omega, rfl⟩, ?_⟩
        simp [numbered, bound]

/-- **Compiling on pieces.** -/
theorem compileChars_eq_ok : compileChars cs = .ok t ↔ ∃ front is fs,
    takeApart cs = some (front, is) ∧ List.Forall₂ Interpolation.IsRead is fs ∧
      highestPlaceholder cs + is.length < lastPlaceholder ∧
      t = ⟨numbered (highestPlaceholder cs + 1) front is,
        bound (highestPlaceholder cs + 1) fs⟩ := by
  unfold compileChars
  dsimp only
  split
  · refine ⟨nofun, ?_⟩
    rintro ⟨_, _, _, _, _, _, _⟩
    omega
  · rw [bindFrom_eq_ok]
    refine exists₃_congr (fun front is fs => and_congr_right (fun _ => and_congr_right (fun _ =>
      and_congr_left' ?_)))
    cases is with
    | nil =>
      rw [List.length_nil]
      exact ⟨fun _ => by omega, fun _ => nofun⟩
    | cons i is =>
      refine ⟨fun h => ?_, fun h _ => by omega⟩
      have := h (List.cons_ne_nil _ _)
      omega

/-! ## Reading what was compiled -/

/-- **The placeholders that a template should have**: those of the literal text,
and a number where each interpolation was. -/
def intended (next : Nat) (front : List Char) : List Interpolation → List (List Char)
  | [] => placeholders front
  | i :: is => placeholders front ++ Numeral.digitsOfNat next :: intended (next + 1) i.literal is

/-- What follows literal text does not lengthen the digits at its beginning. -/
theorem takeWhile_numbered {is : List Interpolation} :
    (numbered next front is).takeWhile Char.isDigit = front.takeWhile Char.isDigit := by
  cases is with
  | nil => rfl
  | cons i is => exact takeWhile_append (noDigit_cons (by decide))

/-- **The template is read as it should be** exactly if no interpolation is
directly followed by a digit. -/
theorem placeholders_numbered {is : List Interpolation} :
    placeholders (numbered next front is) = intended next front is ↔
      ∀ i ∈ is, NoDigit i.literal := by
  induction is generalizing next front with
  | nil => exact ⟨fun _ => nofun, fun _ => rfl⟩
  | cons i is ih =>
    have hnone : i.literal.takeWhile Char.isDigit = [] ↔ NoDigit i.literal := by
      unfold NoDigit
      cases i.literal with
      | nil => exact ⟨fun _ => nofun, fun _ => rfl⟩
      | cons c cs => simp [List.takeWhile_cons]
    rw [numbered, intended, placeholders_append (noDigit_cons (by decide)), placeholders_number,
      takeWhile_numbered, List.append_cancel_left_eq, List.cons.injEq, ih, List.forall_mem_cons,
      List.append_right_eq_self, hnone]

/-- In the text as it should be read, a number that is not in the literal text
stands as often as it was put in. -/
theorem count_intended {m : Nat} {is : List Interpolation} (hfront : m ∉ numbers front)
    (his : ∀ i ∈ is, m ∉ numbers i.literal) :
    ((intended next front is).map Numeral.natOfDigits).count m =
      (List.range' next is.length).count m := by
  induction is generalizing next front with
  | nil => exact List.count_eq_zero.2 hfront
  | cons i is ih =>
    obtain ⟨hi, his⟩ := List.forall_mem_cons.1 his
    have hzero : ((placeholders front).map Numeral.natOfDigits).count m = 0 :=
      List.count_eq_zero.2 hfront
    rw [intended, List.map_append, List.count_append, hzero, Nat.zero_add, List.map_cons,
      Numeral.natOfDigits_digitsOfNat, List.count_cons, ih hi his, List.length_cons,
      List.range'_succ, List.count_cons]

theorem map_placeholder_bound {fs : List (Formula Float)} :
    (bound next fs).map Binding.placeholder = List.range' next fs.length := by
  induction fs generalizing next with
  | nil => rfl
  | cons f fs ih => rw [bound, List.map_cons, ih, List.length_cons, List.range'_succ]

/-- **The placeholders of a compiled note.** The interpolations have numbers in
a row, beginning after the highest that the note uses. Reading the text gives
the placeholders of the literal text and these numbers in their places exactly
if no interpolation was directly followed by a digit. In such a text each bound
number is the number of one placeholder only. -/
theorem placeholders_compile (h : compile note = .ok t) :
    ∃ front is, takeApart note.toList = some (front, is) ∧
      let first := highestPlaceholder note.toList + 1
      t.bindings.map Binding.placeholder = List.range' first is.length ∧
      t.chars = numbered first front is ∧
      (placeholders t.chars = intended first front is ↔ Separated note.toList) ∧
      (Separated note.toList → ∀ b ∈ t.bindings, (numbers t.chars).count b.placeholder = 1) := by
  obtain ⟨front, is, fs, hpieces, hread, hlast, rfl⟩ := compileChars_eq_ok.1 h
  have hnumbers : (bound (highestPlaceholder note.toList + 1) fs).map Binding.placeholder =
      List.range' (highestPlaceholder note.toList + 1) is.length := by
    rw [map_placeholder_bound, hread.length_eq]
  have hscan : placeholders (numbered (highestPlaceholder note.toList + 1) front is) =
      intended (highestPlaceholder note.toList + 1) front is ↔ Separated note.toList :=
    placeholders_numbered.trans (separated_iff hpieces).symm
  refine ⟨front, is, hpieces, hnumbers, rfl, hscan, fun hseparated b hb => ?_⟩
  have hmem : b.placeholder ∈ List.range' (highestPlaceholder note.toList + 1) is.length :=
    hnumbers ▸ List.mem_map_of_mem hb
  -- a number above the highest one is no placeholder of the note
  have hfresh : b.placeholder ∉ numbers (assembled front is) := by
    rw [assembled_of_takeApart hpieces]
    intro hold
    have hrange := List.mem_range'_1.1 hmem
    have hindex : lastPlaceholder < Text.indexBound := by decide
    have := le_highestPlaceholder hold (by omega)
    omega
  dsimp only
  rw [numbers, hscan.2 hseparated, count_intended
    (fun hn => hfresh (mem_numbers_assembled (.inl hn)))
    (fun i hi hn => hfresh (mem_numbers_assembled (.inr ⟨i, hi, hn⟩)))]
  exact (List.Nodup.count (List.nodup_range' ..)).trans (if_pos hmem)

/-- In this note a blank comes after the interpolation, and its number is 2. -/
theorem placeholders_compile_uses : ∃ t,
    compile "%1 uses, %\x7bsource > 5 ? 2 : 1\x7d per day" = .ok t ∧
      placeholders t.chars = [['1'], ['2']] := by
  have hok : (compile "%1 uses, %\x7bsource > 5 ? 2 : 1\x7d per day").isOk = true := by
    decide +kernel
  obtain ⟨t, ht⟩ := Outcome.exists_of_isOk hok
  obtain ⟨front, is, hpieces, -, -, hscan, -⟩ := placeholders_compile ht
  have hopen : cutOpening "%1 uses, %\x7bsource > 5 ? 2 : 1\x7d per day".toList =
      some ("%1 uses, ".toList, "source > 5 ? 2 : 1\x7d per day".toList) := by decide
  have hclose : cutClosing none "source > 5 ? 2 : 1\x7d per day".toList =
      some ("source > 5 ? 2 : 1".toList, " per day".toList) := by decide
  have hexpected : takeApart "%1 uses, %\x7bsource > 5 ? 2 : 1\x7d per day".toList =
      some ("%1 uses, ".toList, [⟨"source > 5 ? 2 : 1".toList, " per day".toList⟩]) := by
    rw [takeApart_of_some hopen hclose, takeApart_of_none (by decide)]
    rfl
  cases hpieces.symm.trans hexpected
  refine ⟨t, ht, (hscan.2 ((separated_iff hpieces).2 ?_)).trans (by decide +kernel)⟩
  rintro i hi
  cases List.mem_singleton.1 hi
  exact noDigit_cons (by decide)

/-- **A placeholder captured by its surroundings**: the number 1 is put in before
the digits 55, and what is read is the placeholder 155, which nothing is bound
to. -/
theorem placeholders_captured : ¬ ∀ (note : String) (t : Template), compile note = .ok t →
    ∀ front is, takeApart note.toList = some (front, is) →
      placeholders t.chars = intended (highestPlaceholder note.toList + 1) front is := by
  intro h
  have hscan : (compile "%\x7bx\x7d55").map (fun t => placeholders t.chars) =
      .ok [['1', '5', '5']] := by decide +kernel
  obtain ⟨t, ht, heq⟩ := Outcome.map_eq_ok.1 hscan
  have hopen : cutOpening "%\x7bx\x7d55".toList = some ([], "x\x7d55".toList) := by decide
  have hclose : cutClosing none "x\x7d55".toList = some (['x'], ['5', '5']) := by decide
  have hpieces : takeApart "%\x7bx\x7d55".toList = some ([], [⟨['x'], ['5', '5']⟩]) := by
    rw [takeApart_of_some hopen hclose, takeApart_of_none (by decide)]
    rfl
  have hread := heq.symm.trans (h _ t ht _ _ hpieces)
  exact absurd hread (by decide +kernel)

end Template

end Rulebook
