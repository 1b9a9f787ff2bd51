import Rulebook.Json.Reader
import Rulebook.Json.Writer
import Rulebook.Proofs.Numerals

/-!
# JSON that is written and read

A JSON value that is written reads back. Texts do, since every character that is escaped
is escaped in a way that the reader knows, and arrays and objects do if what is inside
them does: a value ends where a comma or a closing bracket follows, and every value begins
with a character that is neither a blank nor a closing bracket.

Numbers need not read back, as the reader may miss the last bit of one. So it is asked of
each number that it does, alone, and what is shown here is that it then does so wherever
it stands.
-/

namespace Rulebook.Json

variable {cs rest after : List Char} {c : Char} {j : Json} {items : List Json}
  {fields : List (String × Json)} {fuel : Nat}

/-! ## Writing in front of a text -/

mutual

theorem charsBefore_append : ∀ (j : Json) (xs ys : List Char),
    charsBefore j (xs ++ ys) = charsBefore j xs ++ ys
  | null, _, _ | bool true, _, _ | bool false, _, _ | senseless, _, _ => rfl
  | whole _, _, _ | real _, _, _ | string _, _, _ => (List.append_assoc ..).symm
  | array items, xs, ys => congrArg ('[' :: ·) (itemsBefore_append items (']' :: xs) ys)
  | object fields, xs, ys => congrArg ('\x7b' :: ·) (fieldsBefore_append fields ('\x7d' :: xs) ys)

theorem itemsBefore_append : ∀ (items : List Json) (xs ys : List Char),
    itemsBefore items (xs ++ ys) = itemsBefore items xs ++ ys
  | [], _, _ => rfl
  | [j], xs, ys => charsBefore_append j xs ys
  | j :: k :: rest, xs, ys => by
    rw [itemsBefore, itemsBefore, ← charsBefore_append, itemsBefore_append]
    rfl

theorem fieldsBefore_append : ∀ (fields : List (String × Json)) (xs ys : List Char),
    fieldsBefore fields (xs ++ ys) = fieldsBefore fields xs ++ ys
  | [], _, _ => rfl
  | [(key, j)], xs, ys => by
    rw [fieldsBefore, fieldsBefore, charsBefore_append, List.append_assoc, List.cons_append]
  | (key, j) :: field :: rest, xs, ys => by
    rw [fieldsBefore, fieldsBefore, fieldsBefore_append, ← List.cons_append, charsBefore_append,
      List.append_assoc, List.cons_append]

end

theorem charsBefore_eq (j : Json) (after : List Char) : charsBefore j after = chars j ++ after :=
  charsBefore_append j [] after

/-! ## Numbers -/

/-- **Where a value ends**: at the end of a text, or before a comma or a closing bracket. -/
def Stops (rest : List Char) : Prop := ∀ c ∈ rest.head?, c = ',' ∨ c = ']' ∨ c = '\x7d'

theorem Stops.span_digits (h : Stops rest) : (cs ++ rest).takeWhile Char.isDigit =
    cs.takeWhile Char.isDigit ∧
      (cs ++ rest).dropWhile Char.isDigit = cs.dropWhile Char.isDigit ++ rest := by
  refine Text.span_append_of_head fun c hc => ?_
  rcases h c hc with rfl | rfl | rfl <;> rfl

/-- Something read in front of more text. -/
abbrev before {α : Type} (rest : List Char) (r : α × List Char) : α × List Char :=
  (r.1, r.2 ++ rest)

theorem Stops.readFraction_append (h : Stops rest) :
    readFraction (cs ++ rest) = (readFraction cs).map (before rest) := by
  rcases cs with _ | ⟨c, cs⟩
  · rcases rest with _ | ⟨c, rest⟩
    · rfl
    · rcases h c rfl with rfl | rfl | rfl <;> rfl
  · by_cases hc : c = '.'
    · subst hc
      simp only [List.cons_append, readFraction, h.span_digits]
      split <;> rfl
    · have hother : ∀ ds, readFraction (c :: ds) = some (none, c :: ds) := fun ds => by
        simp [readFraction, hc]
      rw [List.cons_append, hother, hother]
      rfl

theorem Stops.splitSign_append (h : Stops rest) :
    Numeral.splitSign (cs ++ rest) = before rest (Numeral.splitSign cs) := by
  rcases cs with _ | ⟨c, cs⟩
  · rcases rest with _ | ⟨c, rest⟩
    · rfl
    · rcases h c rfl with rfl | rfl | rfl <;> rfl
  · by_cases hminus : c = '-'
    · subst hminus
      rfl
    · by_cases hplus : c = '+'
      · subst hplus
        rfl
      · have hother : ∀ ds, Numeral.splitSign (c :: ds) = (false, c :: ds) := fun ds => by
          simp [Numeral.splitSign, hminus, hplus]
        rw [List.cons_append, hother, hother]
        rfl

theorem Stops.readExponent_append (h : Stops rest) :
    readExponent (cs ++ rest) = (readExponent cs).map (before rest) := by
  rcases cs with _ | ⟨c, cs⟩
  · rcases rest with _ | ⟨c, rest⟩
    · rfl
    · rcases h c rfl with rfl | rfl | rfl <;> rfl
  · simp only [List.cons_append, readExponent, h.splitSign_append, h.span_digits]
    split
    · split <;> rfl
    · rfl

/-- The number that begins with some digits, once its sign has been read. -/
def readMagnitude (negative : Bool) (cs : List Char) : Option (Json × List Char) := do
  let whole := cs.takeWhile Char.isDigit
  if whole.isEmpty || (whole.head? = some '0' && whole.length ≠ 1) then none
  else
    let (fraction, rest) ← readFraction (cs.dropWhile Char.isDigit)
    let (exponent, rest) ← readExponent rest
    return (assemble negative whole fraction exponent, rest)

theorem readNumber_of_ne (h : cs.head? ≠ some '-') : readNumber cs = readMagnitude false cs := by
  rcases cs with _ | ⟨c, cs⟩
  · rfl
  · have hc : c ≠ '-' := fun hc => h (congrArg some hc)
    simp [readNumber, readMagnitude, hc]

theorem Stops.readMagnitude_append (h : Stops rest) {negative : Bool} :
    readMagnitude negative (cs ++ rest) = (readMagnitude negative cs).map (before rest) := by
  simp only [readMagnitude, h.span_digits, h.readFraction_append]
  split
  · rfl
  · cases readFraction (cs.dropWhile Char.isDigit) with
    | none => rfl
    | some r =>
      simp only [Option.map_some, Option.bind_eq_bind, Option.bind_some, h.readExponent_append]
      cases readExponent r.2 <;> rfl

/-- **A number ends where a value ends.** -/
theorem Stops.readNumber_append (h : Stops rest) :
    readNumber (cs ++ rest) = (readNumber cs).map (before rest) := by
  by_cases hcs : cs.head? = some '-'
  · obtain ⟨cs, rfl⟩ := List.head?_eq_some_iff.1 hcs
    exact h.readMagnitude_append
  · have happend : (cs ++ rest).head? ≠ some '-' := by
      rcases cs with _ | ⟨c, cs⟩
      · intro hhead
        rcases h '-' hhead with h | h | h <;> cases h
      · exact hcs
    rw [readNumber_of_ne hcs, readNumber_of_ne happend, h.readMagnitude_append]

/-- A number begins with a digit or a minus sign. -/
theorem head_of_readNumber {r : Json × List Char} (h : readNumber (c :: cs) = some r) :
    c = '-' ∨ c.isDigit = true := by
  by_cases hc : c = '-'
  · exact .inl hc
  · refine .inr (Bool.not_eq_false _ ▸ fun hdigit => ?_)
    rw [readNumber_of_ne (by simpa using hc), readMagnitude,
      List.takeWhile_cons_of_neg (Bool.eq_false_iff.1 hdigit)] at h
    cases h

/-- Digits are taken as long as their number fits. -/
theorem fitDigits_of_lt {n : Nat}
    (h : cs.foldl (fun n c => 10 * n + Numeral.digitValue c) n < wordBound) :
    fitDigits n cs = (cs.foldl (fun n c => 10 * n + Numeral.digitValue c) n, cs.length) := by
  induction cs generalizing n with
  | nil => rfl
  | cons c cs ih =>
    have hgrows : ∀ (ds : List Char) (k : Nat),
        k ≤ ds.foldl (fun n c => 10 * n + Numeral.digitValue c) k := by
      intro ds
      induction ds with
      | nil => exact fun k => Nat.le_refl k
      | cons d ds ihd =>
        intro k
        exact Nat.le_trans (by omega) (ihd (10 * k + Numeral.digitValue d))
    rw [List.foldl_cons] at h
    rw [fitDigits, ih h, if_pos (Nat.lt_of_le_of_lt (hgrows cs _) h)]
    rfl

/-- Only zero is written with a zero in front. -/
theorem head?_digitsOfNat {n : Nat} (hn : n ≠ 0) : (Numeral.digitsOfNat n).head? ≠ some '0' := by
  induction n using Numeral.digits_induction with
  | last n h =>
    have hall : ∀ n < 10, n ≠ 0 → some (Numeral.digitChar n) ≠ some '0' := by decide
    rw [Numeral.digitsOfNat_of_lt h]
    exact hall n h hn
  | more n h ih =>
    obtain ⟨d, ds, hds⟩ := List.exists_cons_of_ne_nil (Numeral.digitsOfNat_ne_nil (n / 10))
    rw [hds] at ih
    rw [Numeral.digitsOfNat_of_le h, hds]
    exact ih (by omega)

/-- **A whole number that fits a machine word** reads back. -/
theorem readNumber_whole {n : Nat} (hn : n < wordBound) :
    readNumber (whole n).chars = some (whole n, []) := by
  have hdigits := Numeral.isDigit_of_mem_digitsOfNat n
  have hchars : (whole n).chars = Numeral.digitsOfNat n := by
    simp [chars, charsBefore, Int.not_lt.2 (Int.natCast_nonneg n)]
  have hminus : (Numeral.digitsOfNat n).head? ≠ some '-' := fun h => by
    cases hdigits '-' (List.mem_of_mem_head? h)
  have hvalue : (Numeral.digitsOfNat n).foldl (fun n c => 10 * n + Numeral.digitValue c) 0 = n :=
    Numeral.natOfDigits_digitsOfNat n
  have hfit : fitDigits 0 (Numeral.digitsOfNat n) = (n, (Numeral.digitsOfNat n).length) := by
    rw [fitDigits_of_lt (hvalue.trans_lt hn), hvalue]
  have hzeros : ¬ ((Numeral.digitsOfNat n).head? = some '0' ∧
      (Numeral.digitsOfNat n).length ≠ 1) := by
    rintro ⟨hhead, hlength⟩
    by_cases hzero : n = 0
    · subst hzero
      exact hlength (by rw [Numeral.digitsOfNat_of_lt (by decide)]; rfl)
    · exact head?_digitsOfNat hzero hhead
  rw [hchars, readNumber_of_ne hminus, readMagnitude, List.takeWhile_eq_self_iff.2 hdigits,
    List.dropWhile_eq_nil_iff.2 hdigits]
  simp [Numeral.digitsOfNat_ne_nil, hzeros, readFraction, readExponent, assemble, hfit]

/-- A value that begins as a number is a number. -/
theorem readValue_of_readNumber {r : Json × List Char} (h : readNumber cs = some r) :
    readValue (fuel + 1) cs = some r := by
  rcases cs with _ | ⟨c, cs⟩
  · cases h
  · have hne : ∀ d : Char, d ≠ '-' → d.isDigit = false → c ≠ d := by
      rintro d hminus hdigit rfl
      rcases head_of_readNumber h with rfl | hc
      · exact hminus rfl
      · rw [hdigit] at hc
        cases hc
    have hspace : isSpace c = false := by
      simp [isSpace, hne]
    have hskip : skipSpace (c :: cs) = c :: cs := by simp [skipSpace, hspace]
    rw [readValue, hskip]
    split <;> simp_all

/-! ## Texts -/

theorem hexValue_hexDigit : ∀ n < 16, hexValue (Text.hexDigit n) = some n := by decide

/-- A character after a backslash is what the escape stands for. -/
theorem readText_of_readEscape {e : Option Char} (h : readEscape cs = some (e, rest)) :
    readText ('\\' :: cs) = (readText rest).map fun (s, rest) => (e :: s, rest) := by
  rw [readText, if_neg (by decide), if_pos rfl]
  split
  · next hnone =>
    rw [h] at hnone
    cases hnone
  · next hsome =>
    rw [h] at hsome
    obtain ⟨rfl, rfl⟩ := Prod.mk.inj (Option.some.inj hsome)
    rfl

/-- A control character is escaped by its number. -/
theorem readEscape_control (h : c.toNat < 0x20) :
    readEscape ('u' :: '0' :: '0' :: Text.hexDigit (c.toNat / 16) ::
      Text.hexDigit (c.toNat % 16) :: cs) = some (some c, cs) := by
  have hunit : readUnit ('0' :: '0' :: Text.hexDigit (c.toNat / 16) ::
      Text.hexDigit (c.toNat % 16) :: cs) = some (c.toNat, cs) := by
    have hzero : hexValue '0' = some 0 := rfl
    simp only [readUnit, hzero, hexValue_hexDigit _ (show c.toNat / 16 < 16 by omega),
      hexValue_hexDigit _ (Nat.mod_lt c.toNat (by decide)), Option.bind_eq_bind, Option.bind_some,
      Option.pure_def, Option.some.injEq, Prod.mk.injEq, and_true]
    omega
  have hlow : c.toNat < 0xd800 := Nat.lt_trans h (by decide)
  simp [readEscape, hunit, hlow]

/-- **What a character is escaped as** is read as this character. -/
theorem readText_escapeChar (c : Char) (cs : List Char) :
    readText (escapeChar c ++ cs) = (readText cs).map fun (s, rest) => (some c :: s, rest) := by
  by_cases hnamed : c ∈ ['"', '\\', '\n', '\r', '\t', '\x08', '\x0c']
  · simp only [List.mem_cons, List.not_mem_nil, or_false] at hnamed
    rcases hnamed with rfl | rfl | rfl | rfl | rfl | rfl | rfl <;> exact readText_of_readEscape rfl
  · simp only [List.mem_cons, List.not_mem_nil, or_false, not_or] at hnamed
    by_cases hcontrol : c.toNat < 0x20
    · have hescape : escapeChar c ++ cs = '\\' :: 'u' :: '0' :: '0' ::
          Text.hexDigit (c.toNat / 16) :: Text.hexDigit (c.toNat % 16) :: cs := by
        simp [escapeChar, hnamed, hcontrol]
      rw [hescape, readText_of_readEscape (readEscape_control hcontrol)]
    · have hescape : escapeChar c ++ cs = c :: cs := by
        simp [escapeChar, hnamed, hcontrol]
      rw [hescape, readText, if_neg hnamed.1, if_neg hnamed.2.1, if_neg hcontrol]

theorem textOf_map_some (s : List Char) : textOf (s.map some) = some (String.ofList s) := by
  have hall : (s.map some).mapM id = some s := by
    induction s with
    | nil => rfl
    | cons c s ih =>
      rw [List.map_cons, List.mapM_cons, ih]
      rfl
  rw [textOf, hall]
  rfl

/-- **A text in quotes** is read up to the closing one. -/
theorem readText_textChars (s : String) (cs : List Char) :
    readText (s.toList.flatMap escapeChar ++ '"' :: cs) = some (s.toList.map some, cs) := by
  induction s.toList with
  | nil => rw [List.flatMap_nil, List.nil_append, readText, if_pos rfl, List.map_nil]
  | cons c s ih =>
    rw [List.flatMap_cons, List.append_assoc, readText_escapeChar, ih]
    rfl

theorem textChars_append (s : String) (cs : List Char) :
    textChars s ++ cs = '"' :: (s.toList.flatMap escapeChar ++ '"' :: cs) := by
  simp [textChars]

/-! ## Values -/

/-- **A value that reads back**, wherever it is written. Two steps of fuel for each
character are enough. -/
structure ReadsBack (j : Json) : Prop where
  begins : ∃ c cs, j.chars = c :: cs ∧ isSpace c = false ∧ c ≠ ']'
  reads : ∀ {fuel : Nat} {rest : List Char}, Stops rest → 2 * j.chars.length ≤ fuel + 1 →
    readValue fuel (j.chars ++ rest) = some (j, rest)

theorem skipSpace_cons (h : isSpace c = false) : skipSpace (c :: cs) = c :: cs := by
  simp [skipSpace, h]

theorem ofFields_map_some (fields : List (String × Json)) :
    ofFields (fields.map fun field => (some field.1, field.2)) = .object fields := by
  have hall : (fields.map fun field => (some field.1, field.2)).mapM
      (fun field => field.1.map (·, field.2)) = some fields := by
    induction fields with
    | nil => rfl
    | cons field fields ih =>
      rw [List.map_cons, List.mapM_cons, ih]
      rfl
  unfold ofFields
  split
  · next found h =>
    cases h.symm.trans hall
    rfl
  · next h => cases h.symm.trans hall

namespace ReadsBack

theorem length_pos (h : ReadsBack j) : 0 < j.chars.length := by
  obtain ⟨c, cs, hcs, -⟩ := h.begins
  rw [hcs]
  exact Nat.succ_pos _

/-- What reads as a number alone is a number everywhere. -/
theorem number (h : readNumber j.chars = some (j, [])) : ReadsBack j where
  begins := by
    cases hcs : j.chars with
    | nil =>
      rw [hcs] at h
      cases h
    | cons c cs =>
      rw [hcs] at h
      refine ⟨c, cs, rfl, ?_⟩
      rcases head_of_readNumber h with rfl | hdigit
      · decide
      · refine ⟨?_, ?_⟩
        · simp only [isSpace, Bool.or_eq_false_iff, decide_eq_false_iff_not]
          refine ⟨⟨⟨?_, ?_⟩, ?_⟩, ?_⟩ <;> rintro rfl <;> cases hdigit
        · rintro rfl
          cases hdigit
  reads := by
    intro fuel rest hrest hfuel
    cases fuel with
    | zero =>
      have hnil : j.chars = [] := List.length_eq_zero_iff.1 (by omega)
      rw [hnil] at h
      cases h
    | succ fuel =>
      refine readValue_of_readNumber ?_
      rw [hrest.readNumber_append, h]
      rfl

theorem null : ReadsBack null where
  begins := ⟨'n', ['u', 'l', 'l'], rfl, by decide, by decide⟩
  reads := by
    intro fuel rest _ hfuel
    cases fuel with
    | zero => exact absurd hfuel (by decide)
    | succ fuel => rfl

theorem string (s : String) : ReadsBack (string s) where
  begins := ⟨'"', _, textChars_append s [], by decide, by decide⟩
  reads := by
    intro fuel rest _ hfuel
    have hchars : (Json.string s).chars ++ rest =
        '"' :: (s.toList.flatMap escapeChar ++ '"' :: rest) := by
      rw [← charsBefore_eq, charsBefore, textChars_append]
    have hlength : 2 ≤ (Json.string s).chars.length := by
      simp [chars, charsBefore, textChars]
    obtain ⟨fuel, rfl⟩ : ∃ n, fuel = n + 1 := ⟨fuel - 1, by omega⟩
    rw [hchars, readValue, skipSpace_cons (by decide)]
    simp [readText_textChars, textOf_map_some]

theorem readItems_itemsBefore (hne : items ≠ []) (h : ∀ j ∈ items, ReadsBack j)
    (hfuel : 2 * (itemsBefore items []).length ≤ fuel) :
    readItems fuel (itemsBefore items (']' :: rest)) = some (items, rest) := by
  induction items generalizing fuel with
  | nil => exact absurd rfl hne
  | cons j items ih =>
    obtain ⟨hj, hitems⟩ := List.forall_mem_cons.1 h
    have hpos := hj.length_pos
    cases items with
    | nil =>
      rw [itemsBefore, charsBefore_eq, List.append_nil] at hfuel
      obtain ⟨fuel, rfl⟩ : ∃ n, fuel = n + 1 := ⟨fuel - 1, by omega⟩
      rw [itemsBefore, charsBefore_eq, readItems, hj.reads (by simp [Stops]) hfuel]
      simp [skipSpace_cons (show isSpace ']' = false by decide)]
    | cons k items =>
      rw [itemsBefore, charsBefore_eq, List.length_append, List.length_cons] at hfuel
      obtain ⟨fuel, rfl⟩ : ∃ n, fuel = n + 1 := ⟨fuel - 1, by omega⟩
      rw [itemsBefore, charsBefore_eq, readItems, hj.reads (by simp [Stops]) (by omega)]
      simp [skipSpace_cons (show isSpace ',' = false by decide),
        ih (List.cons_ne_nil _ _) hitems (show _ ≤ fuel by omega)]

/-- **An array** of what reads back. -/
theorem array (h : ∀ j ∈ items, ReadsBack j) : ReadsBack (array items) where
  begins := ⟨'[', _, rfl, by decide, by decide⟩
  reads := by
    intro fuel rest _ hfuel
    have hlength : (Json.array items).chars.length = (itemsBefore items []).length + 2 := by
      have hclose := itemsBefore_append items [] [']']
      rw [List.nil_append] at hclose
      rw [chars, charsBefore, List.length_cons, hclose, List.length_append]
      rfl
    rw [hlength] at hfuel
    obtain ⟨fuel, rfl⟩ : ∃ n, fuel = n + 1 := ⟨fuel - 1, by omega⟩
    rw [← charsBefore_eq, charsBefore, readValue, skipSpace_cons (by decide)]
    cases items with
    | nil => simp [itemsBefore, skipSpace_cons (show isSpace ']' = false by decide)]
    | cons j items =>
      obtain ⟨c, cs, hcs, hspace, hclose⟩ := (h j (List.mem_cons_self ..)).begins
      have hread : readItems fuel (itemsBefore (j :: items) (']' :: rest)) =
          some (j :: items, rest) :=
        readItems_itemsBefore (List.cons_ne_nil j items) h (by omega)
      obtain ⟨after, hafter⟩ : ∃ after, itemsBefore (j :: items) (']' :: rest) = c :: after := by
        cases items <;> exact ⟨_, by rw [itemsBefore, charsBefore_eq, hcs]; rfl⟩
      rw [hafter] at hread ⊢
      simp [skipSpace_cons hspace, hclose, hread]

theorem readFields_fieldsBefore (hne : fields ≠ []) (h : ∀ field ∈ fields, ReadsBack field.2)
    (hfuel : 2 * (fieldsBefore fields []).length ≤ fuel) :
    readFields fuel (fieldsBefore fields ('\x7d' :: rest)) =
      some (fields.map fun field => (some field.1, field.2), rest) := by
  induction fields generalizing fuel with
  | nil => exact absurd rfl hne
  | cons field fields ih =>
    obtain ⟨key, j⟩ := field
    obtain ⟨hj : ReadsBack j, hfields⟩ := List.forall_mem_cons.1 h
    cases fields with
    | nil =>
      rw [fieldsBefore, charsBefore_eq, List.length_append, List.length_cons,
        List.append_nil] at hfuel
      obtain ⟨fuel, rfl⟩ : ∃ n, fuel = n + 1 := ⟨fuel - 1, by omega⟩
      rw [fieldsBefore, charsBefore_eq, textChars_append, readFields, skipSpace_cons (by decide)]
      simp [readText_textChars, textOf_map_some,
        skipSpace_cons (show isSpace ':' = false by decide),
        skipSpace_cons (show isSpace '\x7d' = false by decide),
        hj.reads (show Stops ('\x7d' :: rest) by simp [Stops]) (show _ ≤ fuel + 1 by omega)]
    | cons next fields =>
      rw [fieldsBefore, charsBefore_eq, List.length_append, List.length_cons,
        List.length_append, List.length_cons] at hfuel
      obtain ⟨fuel, rfl⟩ : ∃ n, fuel = n + 1 := ⟨fuel - 1, by omega⟩
      rw [fieldsBefore, charsBefore_eq, textChars_append, readFields, skipSpace_cons (by decide)]
      have hstops : Stops (',' :: fieldsBefore (next :: fields) ('\x7d' :: rest)) := by
        simp [Stops]
      simp [readText_textChars, textOf_map_some,
        skipSpace_cons (show isSpace ':' = false by decide),
        skipSpace_cons (show isSpace ',' = false by decide),
        hj.reads hstops (show _ ≤ fuel + 1 by omega),
        ih (List.cons_ne_nil _ _) hfields (show _ ≤ fuel by omega)]

/-- **An object** whose members read back. -/
theorem object (h : ∀ field ∈ fields, ReadsBack field.2) : ReadsBack (object fields) where
  begins := ⟨'\x7b', _, rfl, by decide, by decide⟩
  reads := by
    intro fuel rest _ hfuel
    have hlength : (Json.object fields).chars.length = (fieldsBefore fields []).length + 2 := by
      have hclose := fieldsBefore_append fields [] ['\x7d']
      rw [List.nil_append] at hclose
      rw [chars, charsBefore, List.length_cons, hclose, List.length_append]
      rfl
    rw [hlength] at hfuel
    obtain ⟨fuel, rfl⟩ : ∃ n, fuel = n + 1 := ⟨fuel - 1, by omega⟩
    rw [← charsBefore_eq, charsBefore, readValue, skipSpace_cons (by decide)]
    cases fields with
    | nil => simp [fieldsBefore, skipSpace_cons (show isSpace '\x7d' = false by decide)]
    | cons field fields =>
      have hread : readFields fuel (fieldsBefore (field :: fields) ('\x7d' :: rest)) =
          some ((field :: fields).map fun field => (some field.1, field.2), rest) :=
        readFields_fieldsBefore (List.cons_ne_nil field fields) h (by omega)
      obtain ⟨after, hafter⟩ :
          ∃ after, fieldsBefore (field :: fields) ('\x7d' :: rest) = '"' :: after := by
        cases fields <;> exact ⟨_, by rw [fieldsBefore, textChars_append]⟩
      rw [hafter] at hread ⊢
      rw [← ofFields_map_some (field :: fields)]
      simp [skipSpace_cons (show isSpace '"' = false by decide), hread]

/-- **A text of what reads back** reads as just this. -/
theorem read_write (h : ReadsBack j) : read j.write = some j := by
  have hread : readValue (2 * j.chars.length + 2) (j.chars ++ []) = some (j, []) :=
    h.reads nofun (by omega)
  rw [List.append_nil] at hread
  rw [read, write, String.toList_ofList, hread]
  rfl

end ReadsBack

end Rulebook.Json
