import Rulebook.Formula.Token
import Rulebook.Proofs.Magnitudes
import Rulebook.Proofs.NearestDouble

/-!
# The text of a double

The canonical text of a double puts the digits of its shortest decimal in place,
with zeros before or after them as the place of the point asks for. Wherever the
point comes to stand, the text denotes the same number as the decimal, and so it
is read back as the double: exactly as it was, but that zero loses its sign.

The text has no other characters than digits and points, and it begins with a
digit. An expression takes all of it for one literal, with a minus sign before it
if the number is below zero.
-/

namespace Rulebook

namespace Layout

open Numeral

variable {digits : List Char}

/-! ## Placing digits -/

/-- **Without the zeros at their end** the digits of a number are those of a number
that is smaller by as many powers of ten. -/
theorem dropZeros_digitsOfNat {n dropped : ℕ}
    (h : dropZeros (digitsOfNat n) = (digits, dropped)) :
    (∀ c ∈ digits, c.isDigit = true) ∧ n = natOfDigits digits * 10 ^ dropped ∧
      (digitsOfNat n).length = digits.length + dropped := by
  have hall : digits ++ List.replicate dropped '0' = digitsOfNat n := by
    have happend := dropZeros_append (digitsOfNat n)
    rwa [h] at happend
  refine ⟨fun c hc => isDigit_of_mem_digitsOfNat n c (hall ▸ List.mem_append_left _ hc), ?_, ?_⟩
  · rw [← natOfDigits_append_zeros, hall, natOfDigits_digitsOfNat]
  · rw [← hall, List.length_append, List.length_replicate]

/-- **Digits in place denote the number** that they are with the point after the
place it is given. -/
theorem read_placeDigits (hne : digits ≠ []) (hdigits : ∀ c ∈ digits, c.isDigit = true)
    (point : ℤ) : ∃ d e, Numeral.read (canonical.placeDigits digits point) =
        some (.finite false d e) ∧
      (d * 10 ^ e : ℚ) = natOfDigits digits * 10 ^ (point - digits.length) := by
  have hzeros (k : ℕ) : ∀ c ∈ List.replicate k '0', c.isDigit = true := by
    intro c hc
    rw [List.eq_of_mem_replicate hc]
    rfl
  unfold placeDigits
  dsimp only
  split_ifs with hsmall hlarge hmarks
  · -- all digits are behind the point
    obtain ⟨k, rfl⟩ : ∃ k : ℕ, point = -k := ⟨(-point).toNat, by omega⟩
    rw [neg_neg, Int.toNat_natCast]
    refine ⟨_, _, @read_point ['0'] (List.replicate k '0' ++ digits) nofun
      (List.forall_mem_singleton.2 rfl) (List.forall_mem_append.2 ⟨hzeros k, hdigits⟩), ?_⟩
    rw [List.singleton_append, ← List.cons_append, ← List.replicate_succ,
      natOfDigits_zeros_append, List.length_append, List.length_replicate]
    congr 2
    push_cast
    ring
  · exact absurd hmarks Bool.false_ne_true
  · -- all digits are before the point, which is not written
    obtain ⟨k, hk⟩ : ∃ k : ℕ, point - digits.length = k := ⟨(point - digits.length).toNat, by omega⟩
    rw [hk, Int.toNat_natCast, List.append_nil]
    refine ⟨_, _, read_digits (List.append_ne_nil_of_left_ne_nil hne _)
      (List.forall_mem_append.2 ⟨hdigits, hzeros k⟩), ?_⟩
    rw [natOfDigits_append_zeros, zpow_zero, mul_one, zpow_natCast]
    push_cast
    rfl
  · obtain ⟨k, rfl⟩ := Int.eq_ofNat_of_zero_le (by omega : 0 ≤ point)
    rw [Int.toNat_natCast]
    have htake : digits.take k ≠ [] := by
      rw [Ne, List.take_eq_nil_iff, not_or]
      exact ⟨by omega, hne⟩
    refine ⟨_, _, read_point htake (fun c hc => hdigits c (List.mem_of_mem_take hc))
      (fun c hc => hdigits c (List.mem_of_mem_drop hc)), ?_⟩
    rw [List.take_append_drop, List.length_drop]
    congr 2
    omega

/-- Digits in place are digits and points, a digit first. -/
theorem placeDigits_chars (hne : digits ≠ []) (hdigits : ∀ c ∈ digits, c.isDigit = true)
    (point : ℤ) : (∀ c ∈ canonical.placeDigits digits point, Token.isNumberPart c = true) ∧
      Token.startsWithDigit (canonical.placeDigits digits point) = true := by
  have hparts : ∀ c ∈ digits, Token.isNumberPart c = true := by
    intro c hc
    rw [Token.isNumberPart, hdigits c hc, Bool.true_or]
  have hzeros (k : ℕ) : ∀ c ∈ List.replicate k '0', Token.isNumberPart c = true := by
    intro c hc
    rw [List.eq_of_mem_replicate hc]
    rfl
  obtain ⟨c, rest, rfl⟩ := List.exists_cons_of_ne_nil hne
  have hfirst : c.isDigit = true := hdigits c (List.mem_cons_self ..)
  unfold placeDigits
  dsimp only
  split_ifs with hsmall hlarge hmarks
  · refine ⟨List.forall_mem_cons.2 ⟨rfl, List.forall_mem_cons.2 ⟨rfl, ?_⟩⟩, rfl⟩
    exact List.forall_mem_append.2 ⟨hzeros _, hparts⟩
  · exact absurd hmarks Bool.false_ne_true
  · rw [List.append_nil]
    exact ⟨List.forall_mem_append.2 ⟨hparts, hzeros _⟩, hfirst⟩
  · obtain ⟨k, hk⟩ : ∃ k, point.toNat = k + 1 := ⟨point.toNat - 1, by omega⟩
    rw [hk]
    refine ⟨List.forall_mem_append.2 ⟨fun d hd => hparts d (List.mem_of_mem_take hd), ?_⟩, hfirst⟩
    exact List.forall_mem_cons.2 ⟨rfl, fun d hd => hparts d (List.mem_of_mem_drop hd)⟩

end Layout

namespace Double

/-! ## Literals -/

/-- **Characters that are the literal of a number**, wherever an expression is
read. -/
structure IsLiteral (cs : List Char) (x : Float) : Prop where
  starts : Token.startsWithDigit cs = true
  parts : ∀ c ∈ cs, Token.isNumberPart c = true
  read : Quantity.read cs = some x

/-- Reading a numeral of the right value gives the double. -/
theorem quantity_read {cs : List Char} {d : ℕ} {e : ℤ} {bits : ℕ}
    (hread : Numeral.read cs = some (.finite false d e)) (hbits : decimalBits d e = bits) :
    (Quantity.read cs : Option Float) = some (ofMagnitude false bits) := by
  unfold Quantity.read
  rw [hread, ← hbits]
  rfl

/-- **The text of a magnitude is a literal of it.** -/
theorem isLiteral_magnitudeText {bits : ℕ} (hbits : bits < infiniteBits) :
    IsLiteral (Layout.canonical.magnitudeText bits) (ofMagnitude false bits) := by
  unfold Layout.magnitudeText
  split_ifs with hzero hmarks
  · exact absurd hmarks Bool.false_ne_true
  · subst hzero
    exact ⟨rfl, List.forall_mem_singleton.2 rfl,
      quantity_read (Numeral.read_digits nofun (List.forall_mem_singleton.2 rfl)) rfl⟩
  · obtain ⟨n, e, hshortest⟩ : ∃ n e, shortest Layout.canonical.tie bits = (n, e) := ⟨_, _, rfl⟩
    have hdecimal : decimalBits n e = bits := by
      have h := decimalBits_shortest Layout.canonical.tie hbits
      rwa [hshortest] at h
    obtain ⟨digits, dropped, hdrop⟩ :
        ∃ digits dropped, Layout.dropZeros (Numeral.digitsOfNat n) = (digits, dropped) :=
      ⟨_, _, rfl⟩
    obtain ⟨hdigits, hvalue, hlength⟩ := Layout.dropZeros_digitsOfNat hdrop
    have hne : digits ≠ [] := by
      rintro rfl
      rw [Numeral.natOfDigits_nil, Nat.zero_mul] at hvalue
      rw [hvalue, decimalBits_eq, Nat.cast_zero, zero_mul, nearest_zero] at hdecimal
      exact hzero hdecimal.symm
    simp only [hshortest, hdrop]
    rw [if_pos (show Layout.canonical.positional _ = true from rfl)]
    obtain ⟨d, e', hread, heq⟩ :=
      Layout.read_placeDigits hne hdigits (e + (Numeral.digitsOfNat n).length)
    obtain ⟨hparts, hstarts⟩ :=
      Layout.placeDigits_chars hne hdigits (e + (Numeral.digitsOfNat n).length)
    refine ⟨hstarts, hparts, quantity_read hread ?_⟩
    -- the zeros that were taken off count for the point
    rw [decimalBits_eq, heq, hlength, ← hdecimal, decimalBits_eq, hvalue]
    congr 1
    push_cast
    rw [show e + (digits.length + dropped) - (digits.length : ℤ) = dropped + e by ring,
      zpow_add₀ (by norm_num), zpow_natCast, mul_assoc]

variable {x : Float}

/-- A double without its sign. -/
def size (x : Float) : Float := ofMagnitude false (magnitude x)

theorem chars_of_finite (hx : magnitude x < infiniteBits) (hzero : magnitude x ≠ 0) :
    chars x = (if isNegative x then ['-'] else []) ++
      Layout.canonical.magnitudeText (magnitude x) := by
  unfold chars Layout.chars
  dsimp only
  rw [if_neg hzero, if_neg (Nat.not_lt.2 hx.le), if_neg hx.ne]

/-- **A finite number below zero** is written as a minus sign and the literal of
its size. -/
theorem chars_of_less (hx : x.isFinite = true) (h : Quantity.less x Quantity.zero = true) :
    ∃ cs, chars x = '-' :: cs ∧ IsLiteral cs (size x) ∧ -size x = x := by
  have hfinite := isFinite_iff.1 hx
  obtain ⟨hnegative, hzero⟩ := (less_zero_iff hfinite.le).1 h
  refine ⟨_, ?_, isLiteral_magnitudeText hfinite, ?_⟩
  · rw [chars_of_finite hfinite hzero, if_pos hnegative]
    rfl
  · rw [size, neg_ofMagnitude (magnitude_lt x), ← hnegative, ofMagnitude_magnitude]

/-- **Any other finite number** is written as the literal of its size, which
equals it. -/
theorem chars_of_not_less (hx : x.isFinite = true)
    (h : Quantity.less x Quantity.zero = false) :
    IsLiteral (chars x) (size x) ∧ (size x == x) = true := by
  have hfinite := isFinite_iff.1 hx
  have hself : (x == x) = true := by
    refine Float.beq_self_iff.2 (fun hnan => ?_)
    rw [hnan] at hx
    exact absurd hx (by decide)
  by_cases hzero : magnitude x = 0
  · have hchars : chars x = Layout.canonical.magnitudeText (magnitude x) := by
      rw [hzero]
      exact if_pos hzero
    rw [hchars]
    have heither : ofMagnitude (isNegative x) 0 = x := by
      rw [← hzero, ofMagnitude_magnitude]
    refine ⟨isLiteral_magnitudeText hfinite, ?_⟩
    -- either zero equals the one without a sign
    rw [size, hzero, ← heither]
    cases isNegative x <;> rfl
  · have hnegative : isNegative x = false := by
      refine Bool.eq_false_iff.2 (fun hnegative => ?_)
      rw [(less_zero_iff hfinite.le).2 ⟨hnegative, hzero⟩] at h
      cases h
    have hsize : size x = x := by
      rw [size, ← hnegative, ofMagnitude_magnitude]
    have hchars : chars x = Layout.canonical.magnitudeText (magnitude x) := by
      rw [chars_of_finite hfinite hzero, hnegative]
      rfl
    rw [hchars]
    refine ⟨isLiteral_magnitudeText hfinite, ?_⟩
    rwa [hsize]

end Double

end Rulebook
