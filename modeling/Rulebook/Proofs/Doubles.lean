import Mathlib
import Rulebook.Double

/-!
# Doubles that equal themselves

Rules are compared by `==`, and so are the numbers in their formulas. On
doubles `==` is symmetric and transitive but not reflexive: the result that is
no number differs from itself. A rule that differed from itself could never be
found again by whoever looks for it.

What is needed is that this one double never comes up: not from a numeral that
is written in digits, not from a count, and not from the arithmetic that content
goes through, which is the scaling of experience, the removal of noise and the
threshold beyond the last one. An overflow gives an infinity, and that is still
a number.
-/

namespace Rulebook.Double

open Float.Model Float.Model.UnpackedFloat

/-- **A double equals itself** exactly if it is a number. -/
theorem beq_self_iff (x : Float) : (x == x) = true ↔ x.isNaN = false := by
  rw [Float.beq_self_iff, Float.isNaN_eq_decide_eq_nan, decide_eq_false_iff_not]

/-! ## Packing keeps numbers

Arithmetic is defined on unpacked doubles, and its results are packed into bits
again. The bits of what is no number are those with the largest exponent and a
significand other than zero, which packing gives to nothing else. -/

theorem isNaN_unpack {spec : Format} {b : BitVec spec.numBits}
    (h : unpackExponent b = -1#_ → unpackMantissa b = 0#_) :
    (UnpackedFloat.unpack spec b).isNaN = false := by
  unfold UnpackedFloat.unpack
  dsimp only
  split
  · rw [if_pos (h ‹_›)]
    rfl
  · split
    · split <;> rfl
    · rfl

theorem isNaN_unpack_packComponents (spec : Format) (s : Sign) (e : BitVec spec.exponentBits)
    (m : BitVec spec.mantissaBitsWithoutImplicit) (h : e = -1#_ → m = 0#_) :
    (UnpackedFloat.unpack spec (packComponents spec s e m)).isNaN = false :=
  isNaN_unpack (by rwa [unpackExponent_packComponents, unpackMantissa_packComponents])

theorem isNaN_unpack_pack {u : UnpackedFloat} (h : u.isNaN = false) :
    (Float.Model.pack u).unpack.isNaN = false := by
  show (UnpackedFloat.unpack Format.binary64
    (UnpackedFloat.pack Format.binary64 u)).isNaN = false
  cases u with
  | notANumber => cases h
  | infinity s => exact isNaN_unpack_packComponents _ _ _ _ (fun _ => rfl)
  | zero s => exact isNaN_unpack_packComponents _ _ _ _ (fun _ => rfl)
  | finite s m e hm =>
    unfold UnpackedFloat.pack
    dsimp only
    split
    · exact isNaN_unpack_packComponents _ _ _ _ (fun _ => rfl)
    · split
      · -- the exponent of a normal number stays below the largest one
        refine isNaN_unpack_packComponents _ _ _ _ (fun he => ?_)
        have := congrArg BitVec.toNat he
        rw [BitVec.toNat_ofNat] at this
        simp [BitVec.neg_one_eq_allOnes] at this
        omega
      · exact isNaN_unpack_packComponents _ _ _ _
          (fun he => by simp [BitVec.neg_one_eq_allOnes] at he)

theorem isNaN_ofModel_pack {u : UnpackedFloat} (h : u.isNaN = false) :
    (Float.ofModel (.pack u)).isNaN = false := isNaN_unpack_pack h

theorem unpack_pack_infinity (s : Sign) :
    (Float.Model.pack (.infinity s)).unpack = .infinity s := by
  cases s <;> rfl

/-! ## Arithmetic -/

theorem isNaN_roundWithAccuracy (spec : Format) (s : Sign) (m : Nat) (e : Int) (a : Accuracy) :
    (roundWithAccuracy spec s m e a).isNaN = false := by
  unfold roundWithAccuracy
  dsimp only
  split <;> rfl

theorem isNaN_normalize (spec : Format) (m e : Int) (s : Sign) :
    (UnpackedFloat.normalize spec m e s).isNaN = false := by
  unfold UnpackedFloat.normalize
  split
  · exact isNaN_roundWithAccuracy ..
  · rfl
  · exact isNaN_roundWithAccuracy ..

/-- What is finite is a number. -/
theorem isNaN_of_isFinite {x : Float} (hx : x.isFinite = true) : x.isNaN = false := by
  change x.toModel.unpack.isFinite = true at hx
  change x.toModel.unpack.isNaN = false
  generalize x.toModel.unpack = u at hx ⊢
  cases u <;> simp_all [UnpackedFloat.isFinite, UnpackedFloat.isNaN]

/-- Counts are numbers. -/
theorem isNaN_ofWhole (n : Nat) : (ofWhole n).isNaN = false :=
  isNaN_ofModel_pack (isNaN_normalize ..)

theorem isNaN_neg {x : Float} (hx : x.isNaN = false) : (-x).isNaN = false := by
  refine isNaN_ofModel_pack ?_
  change x.toModel.unpack.isNaN = false at hx
  generalize x.toModel.unpack = u at hx ⊢
  cases u <;> simp_all [UnpackedFloat.neg, UnpackedFloat.isNaN]

/-- A product can only fail to be a number if a factor is infinite. -/
theorem isNaN_mul {x y : Float} (hx : x.isFinite = true) (hy : y.isFinite = true) :
    (x * y).isNaN = false := by
  refine isNaN_ofModel_pack ?_
  change x.toModel.unpack.isFinite = true at hx
  change y.toModel.unpack.isFinite = true at hy
  generalize x.toModel.unpack = u at hx ⊢
  generalize y.toModel.unpack = v at hy ⊢
  cases u <;> cases v <;> simp_all [UnpackedFloat.mul, UnpackedFloat.isFinite, UnpackedFloat.isNaN]
  exact isNaN_roundWithAccuracy ..

/-- A sum can only fail to be a number if opposite infinities meet. -/
theorem isNaN_add_of_not_opposite {u v : UnpackedFloat} (hu : u.isNaN = false)
    (hv : v.isNaN = false) (h : ∀ s, u = .infinity s → v ≠ .infinity (-s)) :
    (UnpackedFloat.add Format.binary64 u v).isNaN = false := by
  cases u with
  | notANumber => contradiction
  | infinity s =>
    cases v with
    | notANumber => contradiction
    | infinity t =>
      -- opposite signs are ruled out, and equal ones add up to the same infinity
      have := h s rfl
      cases s <;> cases t <;> first | rfl | exact absurd rfl this
    | zero t => rfl
    | finite t n f hn => rfl
  | zero s =>
    cases v with
    | notANumber => contradiction
    | infinity t => rfl
    | zero t => cases s <;> cases t <;> rfl
    | finite t n f hn => rfl
  | finite s m e hm =>
    cases v with
    | notANumber => contradiction
    | infinity t => rfl
    | zero t => rfl
    | finite t n f hn => exact isNaN_normalize ..

theorem sub_of_not_le {u v : UnpackedFloat} (hu : u.isNaN = false) (hv : v.isNaN = false)
    (h : u.le v = false) :
    (UnpackedFloat.sub Format.binary64 u v).isNaN = false ∧
      ∀ s, u = .infinity s → UnpackedFloat.sub Format.binary64 u v = .infinity s := by
  cases u with
  | notANumber => contradiction
  | infinity s =>
    cases v with
    | notANumber => contradiction
    | infinity t =>
      -- two infinities of one sign are at most each other
      cases s <;> cases t <;> first | contradiction | exact ⟨rfl, fun s hs => hs⟩
    | zero t => exact ⟨rfl, fun s hs => hs⟩
    | finite t n f hn => exact ⟨rfl, fun s hs => hs⟩
  | zero s =>
    refine ⟨?_, nofun⟩
    cases v with
    | notANumber => contradiction
    | infinity t => rfl
    | zero t => cases s <;> cases t <;> rfl
    | finite t n f hn => rfl
  | finite s m e hm =>
    refine ⟨?_, nofun⟩
    cases v with
    | notANumber => contradiction
    | infinity t => rfl
    | zero t => rfl
    | finite t n f hn => exact isNaN_normalize ..

/-- **One interval beyond the last of two ascending numbers** is a number: the
interval is no infinity of the other sign. -/
theorem isNaN_beyond {x y : Float} (hx : x.isNaN = false) (hy : y.isNaN = false)
    (h : ¬ x ≤ y) : (x + (x - y)).isNaN = false := by
  have hle : x.toModel.unpack.le y.toModel.unpack = false :=
    Bool.eq_false_iff.2 (fun hle => h (decide_eq_true hle))
  obtain ⟨hsub, hinf⟩ := sub_of_not_le hx hy hle
  refine isNaN_ofModel_pack (isNaN_add_of_not_opposite hx (isNaN_unpack_pack hsub) ?_)
  intro s hs
  show (Float.Model.pack (UnpackedFloat.sub Format.binary64 x.toModel.unpack
    y.toModel.unpack)).unpack ≠ _
  rw [hinf s hs, unpack_pack_infinity]
  cases s <;> nofun

theorem isFinite_one : (Quantity.one : Float).isFinite = true := by decide

/-- One more than a number is a number. -/
theorem isNaN_add_one {x : Float} (hx : x.isNaN = false) :
    (x + (Quantity.one : Float)).isNaN = false := by
  refine isNaN_ofModel_pack (isNaN_add_of_not_opposite hx (isNaN_of_isFinite isFinite_one) ?_)
  intro s _ hone
  have : (Quantity.one : Float).toModel.unpack.isFinite = true := isFinite_one
  rw [hone] at this
  cases this

/-! ## Numerals -/

theorem nearestBits_le (num den : Nat) : nearestBits num den ≤ infiniteBits := by
  unfold nearestBits
  split
  · exact Nat.zero_le _
  · exact Nat.min_le_left ..

theorem decimalBits_le (digits : Nat) (exponent : Int) :
    decimalBits digits exponent ≤ infiniteBits := by
  unfold decimalBits
  dsimp only
  split
  · exact Nat.zero_le _
  · split
    · exact Nat.le_refl _
    · split
      · exact nearestBits_le ..
      · exact nearestBits_le ..

/-- Magnitude bits up to those of infinity are those of numbers, whatever the
sign. -/
theorem isNaN_ofMagnitude (negative : Bool) {bits : Nat} (h : bits ≤ infiniteBits) :
    (ofMagnitude negative bits).isNaN = false := by
  have hbits : bits ≤ 2047 * 2 ^ 52 := h
  obtain ⟨n, hn, hcases⟩ : ∃ n, (bits + if negative then signBit else 0) = n ∧
      (n = bits ∨ n = bits + 2 ^ 63) := by
    refine ⟨_, rfl, ?_⟩
    cases negative
    · exact .inl rfl
    · exact .inr rfl
  refine isNaN_ofModel_pack (isNaN_unpack (fun he => BitVec.eq_of_toNat_eq ?_))
  have he := congrArg BitVec.toNat he
  rw [hn] at he ⊢
  simp [unpackExponent, unpackMantissa, Nat.shiftRight_eq_div_pow] at he ⊢
  change n % 2 ^ 64 / 2 ^ 52 % 2 ^ 11 = 2 ^ 11 - 1 at he
  change n % 2 ^ 52 = 0
  omega

/-- **A numeral is a number** unless it is the word that says otherwise. -/
theorem isNaN_ofNumeral {n : Numeral} (h : n ≠ .undefined) : (ofNumeral n).isNaN = false := by
  cases n with
  | finite negative digits exponent => exact isNaN_ofMagnitude _ (decimalBits_le ..)
  | infinite negative => exact isNaN_ofMagnitude _ (Nat.le_refl _)
  | undefined => exact absurd rfl h

end Rulebook.Double
