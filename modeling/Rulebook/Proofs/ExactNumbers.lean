import Mathlib.Data.Rat.Floor
import Rulebook.Proofs.FormulaValues
import Rulebook.Proofs.WholeDoubles

/-!
# The exact reading of formulas

The tables of a game book mean exact numbers. Rationals have all operations of
formulas, without rounding and without infinities, so formulas and progressions
over rationals say what their counterparts over doubles are meant to compute.

A double that is finite is itself a rational. Reading every number of a formula
that way changes neither which numbers are equal nor which are whole, and levels
and counts keep their values. So what a progression leaves out of its formula, by
looking at its doubles, is what it would leave out if they were rationals.
-/

namespace Rulebook

/-- **Rationals as quantities.** The words for infinity and for the result that is
no number denote no rational. -/
instance : Quantity ℚ where
  ofNat n := n
  equals x y := x = y
  less x y := x < y
  atMost x y := x ≤ y
  floor x := ⌊x⌋
  ceil x := ⌈x⌉
  round x := if x < 0 then ⌈x - 1 / 2⌉ else ⌊x + 1 / 2⌋
  abs x := |x|
  least xs := xs.min?.getD 0
  greatest xs := xs.max?.getD 0
  isNumber _ := true
  isFinite _ := true
  isWhole x := x.den = 1
  index? x := if x.den = 1 && 0 ≤ x then some x.num.toNat else none
  ofNumeral
    | .finite negative digits exponent =>
      some ((if negative then -1 else 1) * digits * 10 ^ exponent)
    | _ => none
  chars x := (toString x).toList

namespace Exact

variable {x y : ℚ}

theorem zero_eq : (Quantity.zero : ℚ) = 0 := Nat.cast_zero

theorem one_eq : (Quantity.one : ℚ) = 1 := Nat.cast_one

theorem equals_iff : Quantity.equals x y = true ↔ x = y := decide_eq_true_iff

theorem atMost_iff : Quantity.atMost x y = true ↔ x ≤ y := decide_eq_true_iff

theorem isTruthy_ofBool (b : Bool) : (Value.ofBool b : Value ℚ).isTruthy = b := by
  cases b <;> rfl

end Exact

namespace Double

/-- **The rational that a finite double is.** -/
def exact (x : Float) : ℚ := if isNegative x then -value (magnitude x) else value (magnitude x)

variable {x y : Float} {n : ℕ}

theorem exact_ofWhole (hn : n < 2 ^ 53) : exact (ofWhole n) = n := by
  obtain ⟨b, hb, hvalue, heq⟩ := exists_ofWhole_eq hn
  obtain ⟨hmagnitude, hsign⟩ := magnitude_ofMagnitude false hb.le
  rw [exact, heq, hmagnitude, hsign, hvalue]
  rfl

/-- **Doubles rank as the rationals that they are.** -/
theorem exact_le_exact : exact x ≤ exact y ↔ rank x ≤ rank y := by
  have hvalue {b c : ℕ} : value b ≤ value c ↔ b ≤ c := value_strictMono.le_iff_le
  have hzero (b : ℕ) : 0 ≤ value b := value_nonneg b
  unfold exact rank sign
  generalize magnitude x = b, magnitude y = c
  cases isNegative x <;> cases isNegative y
  · exact hvalue.trans Nat.cast_le.symm
  · show value b ≤ -value c ↔ (b : ℤ) ≤ -(c : ℤ)
    constructor
    · intro hle
      have hb : b ≤ 0 := hvalue.1 (by linarith [hzero c, value_zero])
      have hc : c ≤ 0 := hvalue.1 (by linarith [hzero b, value_zero])
      omega
    · intro hle
      obtain rfl : b = 0 := by omega
      obtain rfl : c = 0 := by omega
      rw [value_zero, neg_zero]
  · show -value b ≤ value c ↔ -(b : ℤ) ≤ (c : ℤ)
    exact iff_of_true (by linarith [hzero b, hzero c]) (by omega)
  · exact neg_le_neg_iff.trans (hvalue.trans (Nat.cast_le.symm.trans neg_le_neg_iff.symm))

/-- **Doubles compare as the rationals that they are.** -/
theorem atMost_exact (hx : x.isFinite = true) (hy : y.isFinite = true) :
    Quantity.atMost (exact x) (exact y) = Quantity.atMost x y :=
  Bool.eq_iff_iff.2 (Exact.atMost_iff.trans
    (exact_le_exact.trans (atMost_iff (isNaN_of_isFinite hx) (isNaN_of_isFinite hy)).symm))

theorem equals_exact (hx : x.isFinite = true) (hy : y.isFinite = true) :
    Quantity.equals (exact x) (exact y) = Quantity.equals x y := by
  refine Bool.eq_iff_iff.2 (Exact.equals_iff.trans (Iff.trans ?_
    (equals_iff (isNaN_of_isFinite hx) (isNaN_of_isFinite hy)).symm))
  rw [le_antisymm_iff, exact_le_exact, exact_le_exact, ← le_antisymm_iff]

theorem equals_exact_ofWhole (hx : x.isFinite = true) (hn : n < 2 ^ 53) :
    Quantity.equals (exact x) (Quantity.ofNat n) = Quantity.equals x (Quantity.ofNat n) :=
  (congrArg (Quantity.equals (exact x)) (exact_ofWhole hn).symm).trans
    (equals_exact hx (isFinite_ofWhole hn))

/-- **Whole doubles are whole rationals.** -/
theorem isWhole_exact (hx : x.isFinite = true) :
    Quantity.isWhole (exact x) = Quantity.isWhole x := by
  have hwhole {q : ℚ} (hq : 0 ≤ q) : q.den = 1 ↔ ∃ n : ℕ, q = n := by
    constructor
    · intro hden
      refine ⟨q.num.toNat, ?_⟩
      rw [← Int.cast_natCast, Int.toNat_of_nonneg (Rat.num_nonneg.2 hq)]
      exact (Rat.den_eq_one_iff q).1 hden |>.symm
    · rintro ⟨n, rfl⟩
      exact Rat.den_natCast n
  refine Bool.eq_iff_iff.2 (decide_eq_true_iff.trans (Iff.trans ?_ (isWhole_iff hx).symm))
  have hden : (exact x).den = (value (magnitude x)).den := by
    unfold exact
    split
    · exact Rat.neg_den _
    · rfl
  rw [hden]
  exact hwhole (value_nonneg _)

end Double

namespace Formula

open Double

mutual

/-- **A formula with its doubles read exactly.** -/
def exact : Formula Float → Formula ℚ
  | number x => number (Double.exact x)
  | text s => text s
  | null => null
  | source => source
  | attr name => attr name
  | capture i => capture i
  | unary op f => unary op (exact f)
  | binary op f g => binary op (exact f) (exact g)
  | whenever f g => whenever (exact f) (exact g)
  | choose f g k => choose (exact f) (exact g) (exact k)
  | call fn args => call fn (exactArgs args)

/-- Arguments with their doubles read exactly. -/
def exactArgs : List (Formula Float) → List (Formula ℚ)
  | [] => []
  | f :: fs => exact f :: exactArgs fs

end

theorem exact_whole {n : ℕ} (hn : n < 2 ^ 53) : (whole n : Formula Float).exact = whole n :=
  congrArg number (exact_ofWhole hn)

theorem exact_zero : (number Quantity.zero : Formula Float).exact = number Quantity.zero :=
  exact_whole (by decide)

theorem exact_one : (number Quantity.one : Formula Float).exact = number Quantity.one :=
  exact_whole (by decide)

theorem exact_foldl_add (f : Formula Float) (fs : List (Formula Float)) :
    (fs.foldl (· + ·) f).exact = (fs.map exact).foldl (· + ·) f.exact := by
  induction fs generalizing f with
  | nil => rfl
  | cons g fs ih => exact ih (f + g)

theorem exact_sum (fs : List (Formula Float)) : (sum fs).exact = sum (fs.map exact) := by
  cases fs with
  | nil => exact exact_zero
  | cons f fs => exact exact_foldl_add f fs

theorem exact_scaled (f : Formula Float) {factor : Float} (h : factor.isFinite = true) :
    (f.scaled factor).exact = f.exact.scaled (Double.exact factor) := by
  unfold scaled Quantity.one
  rw [equals_exact_ofWhole h (by decide)]
  split <;> rfl

theorem exact_elapsed {p : Period} (h : p.levels < Text.wholeBound) :
    (p.elapsed : Formula Float).exact = p.elapsed := by
  have hdifference : (source - number Quantity.one : Formula Float).exact =
      source - number Quantity.one := congrArg (binary .sub source) exact_one
  have hlevels : (whole p.levels : Formula Float).exact = whole p.levels :=
    exact_whole (h.trans (by decide))
  unfold Period.elapsed
  dsimp only
  split
  · exact hdifference
  · exact congrArg floor (congrArg₂ (binary .div) hdifference hlevels)

end Formula

end Rulebook
