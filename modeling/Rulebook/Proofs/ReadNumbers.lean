import Rulebook.Content.Number
import Rulebook.Proofs.CorrectRounding
import Rulebook.Proofs.Doubles
import Rulebook.Proofs.Outcomes

/-!
# Decimals that are read

A decimal is written with digits, of which some may stand behind a point, and a power of
ten may follow. It is a rational, and it denotes the double that this is rounded to,
unless it is too large. Sign and digits are read together: the numerals that have digits
are the decimals with at most one sign in front.

A number in content is such a decimal, with blanks around it. But the plus sign that is
taken off first does not end the signs, and one more may follow. All other texts are
refused, those that denote no finite double included.
-/

namespace Rulebook

open Numeral

/-! ## Signs -/

/-- **A sign in front of digits**, if there is one. -/
inductive Mark where
  | none
  | plus
  | minus
  deriving DecidableEq, Repr

namespace Mark

/-- A sign as it is written. -/
def chars : Mark → List Char
  | none => []
  | plus => ['+']
  | minus => ['-']

/-- Whether a sign is that of the numbers below zero. -/
def isMinus : Mark → Bool
  | minus => true
  | _ => false

theorem splitSign_chars (mark : Mark) {cs : List Char}
    (h : ∀ c ∈ cs.head?, c ≠ '+' ∧ c ≠ '-') :
    splitSign (mark.chars ++ cs) = (mark.isMinus, cs) := by
  cases mark with
  | none =>
    rw [chars, List.nil_append]
    unfold splitSign
    split
    · exact absurd rfl (h '-' rfl).2
    · exact absurd rfl (h '+' rfl).1
    · rfl
  | plus => rfl
  | minus => rfl

/-- **A sign is split off** if there is one. -/
theorem exists_of_splitSign {cs rest : List Char} {negative : Bool}
    (h : splitSign cs = (negative, rest)) :
    ∃ mark : Mark, cs = mark.chars ++ rest ∧ mark.isMinus = negative := by
  unfold splitSign at h
  split at h <;> obtain ⟨rfl, rfl⟩ := Prod.mk.inj h
  · exact ⟨.minus, rfl, rfl⟩
  · exact ⟨.plus, rfl, rfl⟩
  · exact ⟨.none, rfl, rfl⟩

end Mark

/-- A digit is no sign. -/
theorem ne_sign_of_isDigit {c : Char} (h : c.isDigit = true) : c ≠ '+' ∧ c ≠ '-' := by
  constructor <;> rintro rfl <;> cases h

/-! ## Powers of ten -/

/-- **A power of ten** as it is written behind a number. -/
structure PowerOfTen where
  letter : Char
  mark : Mark
  digits : List Char
  isLetter : letter = 'e' ∨ letter = 'E'
  isDigit : ∀ c ∈ digits, c.isDigit = true
  ne_nil : digits ≠ []

namespace PowerOfTen

/-- A power of ten as it is written. -/
def chars (p : PowerOfTen) : List Char := p.letter :: (p.mark.chars ++ p.digits)

/-- Its exponent. -/
def exponent (p : PowerOfTen) : ℤ :=
  if p.mark.isMinus then -natOfDigits p.digits else natOfDigits p.digits

theorem readScale_chars (p : PowerOfTen) : readScale p.chars = some p.exponent := by
  have hhead : ∀ c ∈ p.digits.head?, c ≠ '+' ∧ c ≠ '-' :=
    fun c hc => ne_sign_of_isDigit (p.isDigit c (List.mem_of_mem_head? hc))
  have hempty : p.digits.isEmpty = false := List.isEmpty_eq_false_iff.2 p.ne_nil
  have hall : p.digits.all Char.isDigit = true := List.all_eq_true.2 p.isDigit
  have hexponent : readExponent (p.mark.chars ++ p.digits) = some p.exponent := by
    unfold readExponent
    rw [p.mark.splitSign_chars hhead]
    dsimp only
    rw [hempty, hall]
    rfl
  rw [chars, ← hexponent]
  exact if_pos (by simpa using p.isLetter)

theorem exists_of_readExponent {c : Char} (hc : c = 'e' ∨ c = 'E') {cs : List Char} {n : ℤ}
    (h : readExponent cs = some n) : ∃ p : PowerOfTen, c :: cs = p.chars ∧ n = p.exponent := by
  unfold readExponent at h
  obtain ⟨negative, digits, hsplit⟩ : ∃ negative digits, splitSign cs = (negative, digits) :=
    ⟨_, _, rfl⟩
  rw [hsplit] at h
  dsimp only at h
  split at h
  · cases h
  · next hdigits =>
    cases h
    simp only [Bool.or_eq_true, List.isEmpty_iff, Bool.not_eq_true', Bool.not_eq_false, not_or,
      List.all_eq_true] at hdigits
    obtain ⟨mark, rfl, rfl⟩ := Mark.exists_of_splitSign hsplit
    exact ⟨⟨c, mark, digits, hc, hdigits.2, hdigits.1⟩, rfl, rfl⟩

end PowerOfTen

/-! ## Decimals -/

/-- **A decimal without a sign**, as it is written: digits before a point, digits behind
it if there is one, and maybe a power of ten. -/
structure Decimal where
  whole : List Char
  fraction : Option (List Char)
  power : Option PowerOfTen
  whole_isDigit : ∀ c ∈ whole, c.isDigit = true
  fraction_isDigit : ∀ ds ∈ fraction, ∀ c ∈ ds, c.isDigit = true
  /-- There is a digit on one side of the point at least. -/
  ne_nil : whole ++ fraction.getD [] ≠ []

namespace Decimal

/-- The digits behind the point. -/
def places (d : Decimal) : List Char := d.fraction.getD []

/-- What is written behind the digits. -/
def powerChars : Option PowerOfTen → List Char
  | none => []
  | some p => p.chars

/-- The exponent, which is zero if there is no power of ten. -/
def exponent (d : Decimal) : ℤ :=
  match d.power with
  | none => 0
  | some p => p.exponent

/-- **A decimal as it is written.** -/
def chars (d : Decimal) : List Char :=
  d.whole ++ match d.fraction with
    | none => powerChars d.power
    | some places => '.' :: (places ++ powerChars d.power)

/-- **The number that a decimal is.** -/
def value (d : Decimal) : ℚ :=
  (natOfDigits d.whole + natOfDigits d.places / 10 ^ d.places.length) * 10 ^ d.exponent

/-- **The double that a decimal denotes**, with the sign in front: the one that its value
is rounded to, if that is finite. -/
structure Denotes (d : Decimal) (negative : Bool) (x : Float) : Prop where
  finite : x.isFinite = true
  sign : Double.isNegative x = negative
  rounds : Double.RoundsTo d.value (Double.magnitude x)

/-- The numeral with the digits of a decimal. -/
def numeral (d : Decimal) (negative : Bool) : Numeral :=
  .finite negative (natOfDigits (d.whole ++ d.places)) (d.exponent - d.places.length)

/-- All digits together, counted in units of the last one, are the same number. -/
theorem value_eq (d : Decimal) : d.value =
    natOfDigits (d.whole ++ d.places) * 10 ^ (d.exponent - d.places.length) := by
  rw [value, natOfDigits_append, zpow_sub₀ (by norm_num), zpow_natCast]
  push_cast
  field_simp

/-! ## Decimals and numerals -/

theorem head_powerChars (p : Option PowerOfTen) :
    ∀ c ∈ (powerChars p).head?, c.isDigit = false ∧ c ≠ '.' := by
  cases p with
  | none => nofun
  | some p =>
    rintro _ ⟨⟩
    obtain h | h := p.isLetter <;> rw [h] <;> decide

theorem readScale_powerChars (d : Decimal) : readScale (powerChars d.power) = some d.exponent := by
  unfold exponent
  cases d.power with
  | none => rfl
  | some p => exact p.readScale_chars

/-- **A decimal begins with a digit or with its point.** -/
theorem head_chars (d : Decimal) : ∀ c ∈ d.chars.head?, c.isDigit = true ∨ c = '.' := by
  obtain ⟨whole, fraction, power, hwhole, -, hne⟩ := d
  cases whole with
  | cons c whole =>
    rintro _ ⟨⟩
    exact .inl (hwhole c (List.mem_cons_self ..))
  | nil =>
    cases fraction with
    | none => exact absurd rfl hne
    | some places =>
      rintro _ ⟨⟩
      exact .inr rfl

/-- Digits, then a point and more digits. -/
theorem readUnsigned_of_point {cs rest : List Char} (h : cs.dropWhile Char.isDigit = '.' :: rest)
    (negative : Bool) : readUnsigned negative cs =
      if cs.takeWhile Char.isDigit ++ rest.takeWhile Char.isDigit = [] then none
      else (readScale (rest.dropWhile Char.isDigit)).map fun scale =>
        .finite negative (natOfDigits (cs.takeWhile Char.isDigit ++ rest.takeWhile Char.isDigit))
          (scale - (rest.takeWhile Char.isDigit).length) := by
  unfold readUnsigned
  rw [h]
  simp only [List.append_eq_nil_iff, Bool.and_eq_true, List.isEmpty_iff]

/-- Digits, and no point behind them. -/
theorem readUnsigned_of_no_point {cs : List Char}
    (h : ∀ rest, cs.dropWhile Char.isDigit ≠ '.' :: rest) (negative : Bool) :
    readUnsigned negative cs =
      if cs.takeWhile Char.isDigit = [] then none
      else (readScale (cs.dropWhile Char.isDigit)).map fun scale =>
        .finite negative (natOfDigits (cs.takeWhile Char.isDigit)) scale := by
  unfold readUnsigned
  dsimp only
  split
  · next rest hrest => exact absurd hrest (h rest)
  · simp

/-- **The digits of a decimal are read** up to its end. -/
theorem readUnsigned_chars (d : Decimal) (negative : Bool) :
    readUnsigned negative d.chars = some (d.numeral negative) := by
  have hhead := head_powerChars d.power
  have hscale := d.readScale_powerChars
  have hne := d.ne_nil
  unfold numeral places chars
  cases hfraction : d.fraction with
  | none =>
    obtain ⟨htake, hdrop⟩ := Text.span_append d.whole_isDigit fun c hc => (hhead c hc).1
    rw [readUnsigned_of_no_point (fun rest heq => ?_), htake, hdrop, hscale, if_neg]
    · simp
    · simpa [hfraction] using hne
    · rw [hdrop] at heq
      exact (hhead '.' (heq ▸ rfl)).2 rfl
  | some places =>
    have hpoint : ∀ c ∈ ('.' :: (places ++ powerChars d.power)).head?, c.isDigit = false := by
      rintro _ ⟨⟩
      rfl
    obtain ⟨htake, hdrop⟩ := Text.span_append d.whole_isDigit hpoint
    obtain ⟨htake', hdrop'⟩ := Text.span_append (d.fraction_isDigit places hfraction)
      fun c hc => (hhead c hc).1
    rw [readUnsigned_of_point hdrop, htake, htake', hdrop', hscale, if_neg]
    · rfl
    · simpa [hfraction] using hne

theorem exists_of_readScale {cs : List Char} {n : ℤ} (h : readScale cs = some n) :
    ∃ power : Option PowerOfTen, cs = powerChars power ∧
      n = (match power with | none => 0 | some p => p.exponent) := by
  cases cs with
  | nil =>
    cases h
    exact ⟨none, rfl, rfl⟩
  | cons c cs =>
    unfold readScale at h
    dsimp only at h
    split at h
    · next hc =>
      rw [Bool.or_eq_true, decide_eq_true_eq, decide_eq_true_eq] at hc
      obtain ⟨p, hchars, hexponent⟩ := PowerOfTen.exists_of_readExponent hc h
      exact ⟨some p, hchars, hexponent⟩
    · cases h

/-- **Only decimals are read** where digits are expected. -/
theorem exists_of_readUnsigned {cs : List Char} {negative : Bool} {n : Numeral}
    (h : readUnsigned negative cs = some n) :
    ∃ d : Decimal, cs = d.chars ∧ n = d.numeral negative := by
  have hdigits : ∀ ds : List Char, ∀ c ∈ ds.takeWhile Char.isDigit, c.isDigit = true :=
    fun _ _ hc => List.mem_takeWhile_imp hc
  have hwhole := List.takeWhile_append_dropWhile (p := Char.isDigit) (l := cs)
  by_cases hpoint : ∃ rest, cs.dropWhile Char.isDigit = '.' :: rest
  · obtain ⟨rest, hrest⟩ := hpoint
    rw [readUnsigned_of_point hrest] at h
    split at h
    · cases h
    · next hne =>
      obtain ⟨scale, hscale, rfl⟩ := Option.map_eq_some_iff.1 h
      obtain ⟨power, hpower, rfl⟩ := exists_of_readScale hscale
      refine ⟨⟨cs.takeWhile Char.isDigit, some (rest.takeWhile Char.isDigit), power, hdigits cs, ?_,
        hne⟩, ?_, rfl⟩
      · rintro _ ⟨⟩
        exact hdigits rest
      · show cs = cs.takeWhile Char.isDigit ++
          '.' :: (rest.takeWhile Char.isDigit ++ powerChars power)
        rw [← hpower, List.takeWhile_append_dropWhile, ← hrest, hwhole]
  · rw [not_exists] at hpoint
    rw [readUnsigned_of_no_point hpoint] at h
    split at h
    · cases h
    · next hne =>
      obtain ⟨scale, hscale, rfl⟩ := Option.map_eq_some_iff.1 h
      obtain ⟨power, hpower, rfl⟩ := exists_of_readScale hscale
      refine ⟨⟨cs.takeWhile Char.isDigit, none, power, hdigits cs, nofun, ?_⟩, ?_, ?_⟩
      · simpa using hne
      · rw [chars, ← hpower, hwhole]
      · simp [numeral, places, exponent]

/-- A sign in front of a decimal is split off from it. -/
theorem splitSign_chars (d : Decimal) (mark : Mark) :
    splitSign (mark.chars ++ d.chars) = (mark.isMinus, d.chars) := by
  refine mark.splitSign_chars fun c hc => ?_
  obtain h | rfl := d.head_chars c hc
  · exact ne_sign_of_isDigit h
  · decide

/-- **A decimal is a numeral**, with or without a sign. -/
theorem read_chars (d : Decimal) (mark : Mark) :
    Numeral.read (mark.chars ++ d.chars) = some (d.numeral mark.isMinus) := by
  unfold Numeral.read
  rw [d.splitSign_chars mark]
  dsimp only
  rw [d.readUnsigned_chars]
  rfl

/-- **A numeral that has digits is a decimal**, with or without a sign. -/
theorem exists_of_read {cs : List Char} {negative : Bool} {digits : ℕ} {exponent : ℤ}
    (h : Numeral.read cs = some (.finite negative digits exponent)) :
    ∃ (mark : Mark) (d : Decimal), cs = mark.chars ++ d.chars ∧
      .finite negative digits exponent = d.numeral mark.isMinus := by
  obtain ⟨minus, rest, hsplit⟩ : ∃ minus rest, splitSign cs = (minus, rest) := ⟨_, _, rfl⟩
  obtain ⟨mark, rfl, rfl⟩ := Mark.exists_of_splitSign hsplit
  unfold Numeral.read at h
  rw [hsplit] at h
  dsimp only at h
  obtain h | ⟨-, h⟩ := Option.or_eq_some_iff.1 h
  · obtain ⟨d, rfl, hd⟩ := exists_of_readUnsigned h
    exact ⟨mark, d, rfl, hd⟩
  · unfold readWord at h
    dsimp only at h
    split at h
    · cases h
    · split at h <;> cases h

/-! ## Decimals and doubles -/

/-- **The double of the numeral is the one that the decimal denotes**, if it is finite. -/
theorem denotes_iff {d : Decimal} {negative : Bool} {x : Float} :
    d.Denotes negative x ↔ Double.ofNumeral (d.numeral negative) = x ∧ x.isFinite = true := by
  obtain ⟨bits, hbits⟩ : ∃ bits, Double.decimalBits (natOfDigits (d.whole ++ d.places))
      (d.exponent - d.places.length) = bits := ⟨_, rfl⟩
  have hle : bits ≤ Double.infiniteBits := hbits ▸ Double.decimalBits_le ..
  have hnearest : Double.nearest d.value = bits := by
    rw [value_eq, ← Double.decimalBits_eq, hbits]
  have hvalue : 0 ≤ d.value := by
    rw [value_eq]
    positivity
  have hdouble : Double.ofNumeral (d.numeral negative) = Double.ofMagnitude negative bits :=
    congrArg (Double.ofMagnitude negative) hbits
  rw [hdouble]
  constructor
  · rintro ⟨hfinite, hsign, hrounds⟩
    have hmagnitude := (Double.roundsTo_iff hvalue (Double.isFinite_iff.1 hfinite)).1 hrounds
    refine ⟨?_, hfinite⟩
    rw [← hnearest, hmagnitude, ← hsign, Double.ofMagnitude_magnitude]
  · rintro ⟨rfl, hfinite⟩
    obtain ⟨hmagnitude, hsign⟩ := Double.magnitude_ofMagnitude negative hle
    have hlt := Double.isFinite_iff.1 hfinite
    refine ⟨hfinite, hsign, (Double.roundsTo_iff hvalue hlt).2 ?_⟩
    rw [hmagnitude, hnearest]

end Decimal

/-! ## Numbers in content -/

/-- **Whether a text is a decimal that denotes a double**, with one sign in front of it at
most. -/
def IsDecimalOf (x : Float) (cs : List Char) : Prop :=
  ∃ (mark : Mark) (d : Decimal), cs = mark.chars ++ d.chars ∧ d.Denotes mark.isMinus x

variable {x : Float} {cs : List Char}

/-- **Finite numbers are read from decimals** and from nothing else: the words for numbers
without digits stand for none of them. -/
theorem read_finite_iff :
    Quantity.read cs = some x ∧ x.isFinite = true ↔ IsDecimalOf x cs := by
  unfold Quantity.read
  constructor
  · rintro ⟨hread, hfinite⟩
    obtain ⟨n, hn, hx⟩ := Option.bind_eq_some_iff.1 hread
    cases hx
    cases n with
    | finite negative digits exponent =>
      obtain ⟨mark, d, rfl, hd⟩ := Decimal.exists_of_read hn
      rw [hd] at hfinite ⊢
      exact ⟨mark, d, rfl, Decimal.denotes_iff.2 ⟨rfl, hfinite⟩⟩
    | infinite negative =>
      have hlt := Double.isFinite_iff.1 hfinite
      rw [Double.ofNumeral, (Double.magnitude_ofMagnitude negative le_rfl).1] at hlt
      exact absurd hlt (lt_irrefl _)
    | undefined => cases hfinite
  · rintro ⟨mark, d, rfl, hdenotes⟩
    obtain ⟨rfl, hfinite⟩ := Decimal.denotes_iff.1 hdenotes
    exact ⟨by rw [d.read_chars]; rfl, hfinite⟩

/-- A plus sign that is taken off is the sign of the decimal, or it stands in front of
another sign. -/
theorem isDecimalOf_dropPlus : IsDecimalOf x (dropPlus cs) ↔ IsDecimalOf x cs ∨
    ∃ (mark : Mark) (d : Decimal), mark ≠ .none ∧ cs = '+' :: (mark.chars ++ d.chars) ∧
      d.Denotes mark.isMinus x := by
  constructor
  · rintro ⟨mark, d, hcs, hdenotes⟩
    unfold dropPlus at hcs
    split at hcs
    · rw [hcs]
      cases mark with
      | none => exact .inl ⟨.plus, d, rfl, hdenotes⟩
      | plus => exact .inr ⟨.plus, d, nofun, rfl, hdenotes⟩
      | minus => exact .inr ⟨.minus, d, nofun, rfl, hdenotes⟩
    · exact .inl ⟨mark, d, hcs, hdenotes⟩
  · rintro (⟨mark, d, rfl, hdenotes⟩ | ⟨mark, d, -, rfl, hdenotes⟩)
    · cases mark with
      | none =>
        refine ⟨.none, d, ?_, hdenotes⟩
        show dropPlus d.chars = d.chars
        unfold dropPlus
        split
        · next heq =>
          obtain h | h := d.head_chars '+' (heq ▸ rfl) <;> cases h
        · rfl
      | plus => exact ⟨.none, d, rfl, hdenotes⟩
      | minus => exact ⟨.minus, d, rfl, hdenotes⟩
    · exact ⟨mark, d, rfl, hdenotes⟩

theorem readNumber_eq_ok {text : String} :
    readNumber text = .ok x ↔ IsDecimalOf x (dropPlus (Text.trimChars text.toList)) := by
  rw [← read_finite_iff]
  unfold readNumber
  constructor
  · intro h
    split at h
    · next y hread =>
      split at h
      · next hfinite =>
        cases h
        exact ⟨hread, hfinite⟩
      · cases h
    · cases h
  · rintro ⟨hread, hfinite⟩
    rw [hread]
    exact if_pos hfinite

theorem readNumber_eq_refused {text : String} :
    readNumber (N := Float) text = refused (.notNumber text) ↔
      ∀ x : Float, readNumber text ≠ .ok x := by
  unfold readNumber
  constructor
  · rintro h x hx
    cases h.symm.trans hx
  · intro h
    split
    · next x hread =>
      split
      · next hfinite =>
        rw [hread] at h
        exact absurd (if_pos hfinite) (h x)
      · rfl
    · rfl

/-- **Which texts are numbers**: those that are a decimal of a finite double when the
blanks around them are taken away, with one sign in front of it at most, or with a plus
sign and one more. The number is that double. All others are refused. -/
theorem readNumber_eq_ok_iff (text : String) :
    (∀ x : Float, readNumber text = .ok x ↔ IsDecimalOf x (Text.trimChars text.toList) ∨
      ∃ (mark : Mark) (d : Decimal), mark ≠ .none ∧
        Text.trimChars text.toList = '+' :: (mark.chars ++ d.chars) ∧
        d.Denotes mark.isMinus x) ∧
    (readNumber (N := Float) text = refused (.notNumber text) ↔
      ∀ x : Float, readNumber text ≠ .ok x) :=
  ⟨fun _ => readNumber_eq_ok.trans isDecimalOf_dropPlus, readNumber_eq_refused⟩

/-- **Two signs in front of a number**: no decimal has them, and the number is read. -/
theorem readNumber_two_signs : (∃ x : Float, readNumber "+-1" = .ok x) ∧
    ∀ x, ¬ IsDecimalOf x (Text.trimChars "+-1".toList) := by
  have hread : (readNumber (N := Float) "+-1").isOk = true := by decide +kernel
  have htrim : Text.trimChars "+-1".toList = ['+', '-', '1'] := by decide +kernel
  refine ⟨Outcome.exists_of_isOk hread, ?_⟩
  rintro x ⟨mark, d, hchars, -⟩
  have hsplit := d.splitSign_chars mark
  rw [← hchars, htrim] at hsplit
  have hrest : d.chars = ['-', '1'] := (Prod.mk.inj hsplit).2.symm
  obtain h | h := d.head_chars '-' (hrest ▸ rfl) <;> cases h

end Rulebook
