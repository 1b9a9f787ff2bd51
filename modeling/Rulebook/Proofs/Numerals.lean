import Mathlib.Data.List.Induction
import Mathlib.Data.List.TakeWhile
import Mathlib.Tactic.Ring
import Rulebook.Decimal.Layout
import Rulebook.Text.Whole

/-!
# Digits and numerals

A whole number is written as its decimal digits, and the digits are read as that
number again. How many digits there are says how large the number is. Digits with
a point in them are a numeral, and where the point stands is its power of ten.
-/

namespace Rulebook

namespace Text

/-! ## Runs of characters -/

variable {p : Char → Bool} {cs rest : List Char}

/-- A run that ends before some text is read as if the text were not there. -/
theorem span_append_of_head (hrest : ∀ c ∈ rest.head?, p c = false) :
    (cs ++ rest).takeWhile p = cs.takeWhile p ∧
      (cs ++ rest).dropWhile p = cs.dropWhile p ++ rest := by
  induction cs with
  | nil =>
    cases rest with
    | nil => exact ⟨rfl, rfl⟩
    | cons c rest =>
      have hc : ¬ p c = true := Bool.eq_false_iff.1 (hrest c rfl)
      exact ⟨List.takeWhile_cons_of_neg hc, List.dropWhile_cons_of_neg hc⟩
  | cons c cs ih =>
    rw [List.cons_append, List.takeWhile_cons, List.takeWhile_cons, List.dropWhile_cons,
      List.dropWhile_cons, ih.1, ih.2]
    split <;> exact ⟨rfl, rfl⟩

/-- **What holds of the characters in front**, and not of the one behind them, is read up
to there. -/
theorem span_append (hcs : ∀ c ∈ cs, p c = true) (hrest : ∀ c ∈ rest.head?, p c = false) :
    (cs ++ rest).takeWhile p = cs ∧ (cs ++ rest).dropWhile p = rest := by
  have hspan := @span_append_of_head p cs rest hrest
  rwa [List.takeWhile_eq_self_iff.2 hcs, List.dropWhile_eq_nil_iff.2 hcs] at hspan

/-- A run ends where the next character does not belong to it. -/
theorem head_dropWhile (p : Char → Bool) (cs : List Char) :
    ∀ c ∈ (cs.dropWhile p).head?, p c = false := by
  intro c hc
  have hhead := List.head?_dropWhile_not p cs
  rwa [Option.mem_def.1 hc] at hhead

end Text

namespace Numeral

/-! ## Digits -/

theorem digitChar_of_lt {n : Nat} (h : n < 10) :
    (digitChar n).isDigit = true ∧ digitValue (digitChar n) = n := by
  have hall : ∀ n < 10, (digitChar n).isDigit = true ∧ digitValue (digitChar n) = n := by decide
  exact hall n h

theorem digitChar_mod (n : Nat) : digitChar n = digitChar (n % 10) := by
  unfold digitChar
  rw [Nat.mod_mod]

theorem isDigit_digitChar (n : Nat) : (digitChar n).isDigit = true := by
  rw [digitChar_mod]
  exact (digitChar_of_lt (Nat.mod_lt n (by decide))).1

/-- No letter is a digit. -/
theorem isDigit_eq_false_of_isAlpha {c : Char} (h : c.isAlpha = true) : c.isDigit = false := by
  unfold Char.isAlpha Char.isUpper Char.isLower at h
  unfold Char.isDigit
  simp only [Bool.or_eq_true, Bool.and_eq_true, decide_eq_true_eq, UInt32.le_iff_toNat_le,
    ge_iff_le, Bool.and_eq_false_iff, decide_eq_false_iff_not] at h ⊢
  change 65 ≤ c.toNat ∧ c.toNat ≤ 90 ∨ 97 ≤ c.toNat ∧ c.toNat ≤ 122 at h
  change ¬ 48 ≤ c.toNat ∨ ¬ c.toNat ≤ 57
  omega

theorem digitValue_digitChar (n : Nat) : digitValue (digitChar n) = n % 10 := by
  rw [digitChar_mod]
  exact (digitChar_of_lt (Nat.mod_lt n (by decide))).2

theorem digitsOfNat_of_lt {n : Nat} (h : n < 10) : digitsOfNat n = [digitChar n] := by
  rw [digitsOfNat, if_pos h]

theorem digitsOfNat_of_le {n : Nat} (h : 10 ≤ n) :
    digitsOfNat n = digitsOfNat (n / 10) ++ [digitChar n] := by
  rw [digitsOfNat, if_neg (Nat.not_lt.2 h)]

/-- **What is said of the last digit and of the others is said of all.** -/
theorem digits_induction {P : Nat → Prop} (last : ∀ n < 10, P n)
    (more : ∀ n, 10 ≤ n → P (n / 10) → P n) (n : Nat) : P n := by
  induction n using Nat.strong_induction_on with
  | h n ih =>
    by_cases h : n < 10
    · exact last n h
    · exact more n (Nat.not_lt.1 h) (ih _ (Nat.div_lt_self (by omega) (by decide)))

theorem isDigit_of_mem_digitsOfNat (n : Nat) : ∀ c ∈ digitsOfNat n, c.isDigit = true := by
  induction n using digits_induction with
  | last n h =>
    rw [digitsOfNat_of_lt h]
    exact List.forall_mem_singleton.2 (isDigit_digitChar n)
  | more n h ih =>
    rw [digitsOfNat_of_le h]
    exact List.forall_mem_append.2 ⟨ih, List.forall_mem_singleton.2 (isDigit_digitChar n)⟩

theorem digitsOfNat_ne_nil (n : Nat) : digitsOfNat n ≠ [] := by
  unfold digitsOfNat
  split
  · exact List.cons_ne_nil _ _
  · exact List.append_ne_nil_of_right_ne_nil _ (List.cons_ne_nil _ _)

/-- **The digits of a number are read as that number.** -/
theorem natOfDigits_digitsOfNat (n : Nat) : natOfDigits (digitsOfNat n) = n := by
  induction n using digits_induction with
  | last n h =>
    rw [digitsOfNat_of_lt h, ← List.nil_append [_], natOfDigits_concat, digitValue_digitChar,
      natOfDigits_nil, Nat.mod_eq_of_lt h, Nat.mul_zero, Nat.zero_add]
  | more n h ih =>
    rw [digitsOfNat_of_le h, natOfDigits_concat, digitValue_digitChar, ih, Nat.div_add_mod]

theorem lt_pow_length (n : Nat) : n < 10 ^ (digitsOfNat n).length := by
  induction n using digits_induction with
  | last n h =>
    rw [digitsOfNat_of_lt h]
    exact h
  | more n h ih =>
    rw [digitsOfNat_of_le h, List.length_append, List.length_singleton, Nat.pow_succ]
    exact (Nat.div_lt_iff_lt_mul (by decide)).1 ih

/-- **No digit is wasted**: only zero begins with a zero. -/
theorem pow_length_le {n : Nat} (hn : n ≠ 0) : 10 ^ ((digitsOfNat n).length - 1) ≤ n := by
  induction n using digits_induction with
  | last n h =>
    rw [digitsOfNat_of_lt h]
    exact Nat.one_le_iff_ne_zero.2 hn
  | more n h ih =>
    have hpos : 1 ≤ (digitsOfNat (n / 10)).length :=
      List.length_pos_iff.2 (digitsOfNat_ne_nil _)
    have hle := ih (Nat.div_pos h (by decide)).ne'
    rw [digitsOfNat_of_le h, List.length_append, List.length_singleton, Nat.add_sub_cancel,
      ← Nat.sub_add_cancel hpos, Nat.pow_succ]
    exact (Nat.le_div_iff_mul_le (by decide)).1 hle

/-! ## Zeros and other digits -/

theorem natOfDigits_append (cs ds : List Char) :
    natOfDigits (cs ++ ds) = natOfDigits cs * 10 ^ ds.length + natOfDigits ds := by
  induction ds using List.reverseRecOn with
  | nil => simp
  | append_singleton ds d ih =>
    rw [← List.append_assoc, natOfDigits_concat, natOfDigits_concat, ih, List.length_append,
      List.length_singleton, Nat.pow_succ]
    ring

theorem natOfDigits_zeros (k : Nat) : natOfDigits (List.replicate k '0') = 0 := by
  induction k with
  | zero => rfl
  | succ k ih =>
    rw [List.replicate_succ', natOfDigits_concat, ih]
    rfl

/-- Zeros at the front do not count. -/
theorem natOfDigits_zeros_append (k : Nat) (cs : List Char) :
    natOfDigits (List.replicate k '0' ++ cs) = natOfDigits cs := by
  rw [natOfDigits_append, natOfDigits_zeros, Nat.zero_mul, Nat.zero_add]

/-- Zeros at the end are powers of ten. -/
theorem natOfDigits_append_zeros (cs : List Char) (k : Nat) :
    natOfDigits (cs ++ List.replicate k '0') = natOfDigits cs * 10 ^ k := by
  rw [natOfDigits_append, natOfDigits_zeros, List.length_replicate, Nat.add_zero]

/-- A digit stands for its value. -/
theorem digitChar_digitValue {c : Char} (h : c.isDigit = true) :
    digitValue c < 10 ∧ digitChar (digitValue c) = c := by
  have hvalue : digitValue c = c.toNat - 48 := if_pos h
  simp only [Char.isDigit, Bool.and_eq_true, decide_eq_true_eq, ge_iff_le,
    UInt32.le_iff_toNat_le] at h
  obtain ⟨hle, hge⟩ : 48 ≤ c.toNat ∧ c.toNat ≤ 57 := h
  have hnat : 48 + (c.toNat - 48) % 10 = c.toNat := by omega
  refine ⟨by omega, ?_⟩
  rw [hvalue, digitChar]
  exact (congrArg Char.ofNat hnat).trans (Char.ofNat_toNat c)

/-- One more digit behind those of a number that is not zero. -/
theorem digitsOfNat_concat {n : Nat} (hn : n ≠ 0) {c : Char} (hc : c.isDigit = true) :
    digitsOfNat (10 * n + digitValue c) = digitsOfNat n ++ [c] := by
  obtain ⟨hlt, hchar⟩ := digitChar_digitValue hc
  rw [digitsOfNat_of_le (by omega), digitChar_mod,
    show (10 * n + digitValue c) / 10 = n by omega,
    show (10 * n + digitValue c) % 10 = digitValue c by omega, hchar]

/-- **Digits are those of their number**, with zeros in front. -/
theorem exists_zeros_append {cs : List Char} (hne : cs ≠ [])
    (hcs : ∀ c ∈ cs, c.isDigit = true) :
    ∃ k, cs = List.replicate k '0' ++ digitsOfNat (natOfDigits cs) := by
  induction cs using List.reverseRecOn with
  | nil => exact absurd rfl hne
  | append_singleton cs c ih =>
    obtain ⟨hcs, hc⟩ := List.forall_mem_append.1 hcs
    have hc : c.isDigit = true := hc c (List.mem_singleton_self c)
    obtain ⟨hlt, hchar⟩ := digitChar_digitValue hc
    have hone : digitsOfNat (digitValue c) = [c] := by rw [digitsOfNat_of_lt hlt, hchar]
    rw [natOfDigits_concat]
    obtain rfl | hne := eq_or_ne cs []
    · exact ⟨0, by rw [natOfDigits_nil, Nat.mul_zero, Nat.zero_add, hone]; rfl⟩
    · obtain ⟨k, hk⟩ := ih hne hcs
      by_cases hzero : natOfDigits cs = 0
      · -- all digits before the last one are zeros
        have hdigit : digitsOfNat 0 = ['0'] := digitsOfNat_of_lt (by decide)
        rw [hzero, hdigit, ← List.replicate_succ'] at hk
        exact ⟨k + 1, by rw [hzero, Nat.mul_zero, Nat.zero_add, hone, hk]⟩
      · refine ⟨k, ?_⟩
        rw [digitsOfNat_concat hzero hc, ← List.append_assoc, ← hk]

/-! ## Reading numerals -/

/-- A numeral that begins with a digit or a point has no sign. -/
theorem read_cons {c : Char} (hc : c.isDigit = true ∨ c = '.') (cs : List Char) :
    read (c :: cs) = (readUnsigned false (c :: cs)).or (readWord false (c :: cs)) := by
  have hsign : splitSign (c :: cs) = (false, c :: cs) := by
    unfold splitSign
    split
    · next heq =>
      obtain ⟨rfl, -⟩ := List.cons.inj heq
      exact absurd hc (by decide)
    · next heq =>
      obtain ⟨rfl, -⟩ := List.cons.inj heq
      exact absurd hc (by decide)
    · rfl
  unfold read
  rw [hsign]

/-- **A numeral begins with its digits** if it begins with one. -/
theorem read_of_isDigit {cs : List Char} (hne : cs ≠ []) (hcs : ∀ c ∈ cs, c.isDigit = true)
    (rest : List Char) : read (cs ++ rest) =
      (readUnsigned false (cs ++ rest)).or (readWord false (cs ++ rest)) := by
  obtain ⟨c, cs, rfl⟩ := List.exists_cons_of_ne_nil hne
  exact read_cons (.inl (hcs c (List.mem_cons_self ..))) _

/-- **Digits alone** are a whole number. -/
theorem read_digits {cs : List Char} (hne : cs ≠ []) (hcs : ∀ c ∈ cs, c.isDigit = true) :
    read cs = some (finite false (natOfDigits cs) 0) := by
  have hread := read_of_isDigit hne hcs []
  rw [List.append_nil] at hread
  have hwhole : cs.takeWhile Char.isDigit = cs := List.takeWhile_eq_self_iff.2 hcs
  have hrest : cs.dropWhile Char.isDigit = [] := List.dropWhile_eq_nil_iff.2 hcs
  have hempty : cs.isEmpty = false := List.isEmpty_eq_false_iff.2 hne
  have hunsigned : readUnsigned false cs = some (finite false (natOfDigits cs) 0) := by
    unfold readUnsigned
    simp only [hwhole, hrest, hempty, List.append_nil]
    rfl
  rw [hread, hunsigned]
  rfl

/-- **Digits with a point among them** are a number of the units that the last
digit counts. -/
theorem read_point {cs ds : List Char} (hne : cs ≠ []) (hcs : ∀ c ∈ cs, c.isDigit = true)
    (hds : ∀ d ∈ ds, d.isDigit = true) :
    read (cs ++ '.' :: ds) = some (finite false (natOfDigits (cs ++ ds)) (-ds.length)) := by
  have hwhole : (cs ++ '.' :: ds).takeWhile Char.isDigit = cs := by
    rw [List.takeWhile_append_of_pos hcs]
    exact List.append_nil _
  have hrest : (cs ++ '.' :: ds).dropWhile Char.isDigit = '.' :: ds := by
    rw [List.dropWhile_append_of_pos hcs]
    rfl
  have hfraction : ds.takeWhile Char.isDigit = ds := List.takeWhile_eq_self_iff.2 hds
  have hnothing : ds.dropWhile Char.isDigit = [] := List.dropWhile_eq_nil_iff.2 hds
  have hempty : cs.isEmpty = false := List.isEmpty_eq_false_iff.2 hne
  have hunsigned : readUnsigned false (cs ++ '.' :: ds) =
      some (finite false (natOfDigits (cs ++ ds)) (-ds.length)) := by
    unfold readUnsigned
    simp only [hwhole, hrest, hfraction, hnothing, hempty]
    simp [readScale]
  rw [read_of_isDigit hne hcs, hunsigned]
  rfl

end Numeral

namespace Text

open Numeral

/-! ## Whole numbers below a bound -/

/-- **Digits are read as their number** if it is below the bound, and only if
there are any. -/
theorem readBounded_of_isDigit {bound : Nat} {cs : List Char}
    (hcs : ∀ c ∈ cs, c.isDigit = true) : readBounded bound cs =
      if cs ≠ [] ∧ natOfDigits cs < bound then some (natOfDigits cs) else none := by
  cases cs with
  | nil => rfl
  | cons c cs =>
    have hplus : c ≠ '+' := by
      rintro rfl
      cases hcs '+' (List.mem_cons_self ..)
    have hall : (c :: cs).all Char.isDigit = true := List.all_eq_true.2 hcs
    unfold readBounded
    split
    · next heq => exact absurd (List.cons.inj heq).1 hplus
    · dsimp only
      rw [hall]
      simp

/-- A whole number that begins with a digit has nothing else. -/
theorem isDigit_of_readBounded {bound n : Nat} {cs : List Char} (h : readBounded bound cs = some n)
    (hhead : ∀ c ∈ cs.head?, c.isDigit = true) : ∀ c ∈ cs, c.isDigit = true := by
  unfold readBounded at h
  split at h
  · exact absurd (hhead '+' rfl) (by decide)
  · dsimp only at h
    split at h
    · cases h
    · next hdigits =>
      simp only [Bool.or_eq_true, Bool.not_eq_true', not_or, Bool.not_eq_false,
        List.all_eq_true] at hdigits
      exact hdigits.2

/-- Digits that were written are read as the number they were written for. -/
theorem readBounded_digitsOfNat {n bound : Nat} (hn : n < bound) :
    readBounded bound (digitsOfNat n) = some n := by
  rw [readBounded_of_isDigit (isDigit_of_mem_digitsOfNat n), natOfDigits_digitsOfNat,
    if_pos ⟨digitsOfNat_ne_nil n, hn⟩]

end Text

namespace Layout

open Numeral

/-! ## Canonical layouts -/

/-- Taking zeros off the end of digits and putting them back gives the digits. -/
theorem dropZeros_append (digits : List Char) :
    (dropZeros digits).1 ++ List.replicate (dropZeros digits).2 '0' = digits := by
  have hsplit := List.takeWhile_append_dropWhile (p := (· = '0')) (l := digits.reverse)
  have hzeros : digits.reverse.takeWhile (· = '0') =
      List.replicate (digits.reverse.takeWhile (· = '0')).length '0' :=
    List.eq_replicate_of_mem (fun c hc => by simpa using List.mem_takeWhile_imp hc)
  have hlength := congrArg List.length hsplit
  rw [List.length_append, List.length_reverse] at hlength
  unfold dropZeros
  dsimp only
  rw [List.length_reverse, ← hlength, Nat.add_sub_cancel, ← List.reverse_replicate, ← hzeros,
    ← List.reverse_append, hsplit, List.reverse_reverse]

end Layout

end Rulebook
