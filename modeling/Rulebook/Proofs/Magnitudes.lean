import Mathlib
import Rulebook.Double

/-!
# Sign and magnitude

The bits of a double are a sign and a magnitude. The magnitude alone decides
whether the double is zero, finite, infinite or no number, and the sign alone
whether it is negative. Comparing and negating respect this, except that the two
zeros are equal.
-/

namespace Rulebook.Double

open Float.Model Float.Model.UnpackedFloat

/-! ## Fields of bits -/

section Fields

variable (b : BitVec Format.binary64.numBits)

theorem toNat_unpackMantissa : (unpackMantissa b).toNat = b.toNat % 2 ^ 52 := by
  simp [unpackMantissa]

theorem toNat_unpackExponent : (unpackExponent b).toNat = b.toNat / 2 ^ 52 % 2 ^ 11 := by
  simp [unpackExponent, Nat.shiftRight_eq_div_pow]

theorem toNat_unpackSign : (unpackSign b).toNat = b.toNat / 2 ^ 63 % 2 := by
  simp [unpackSign, Nat.shiftRight_eq_div_pow]

theorem unpackMantissa_eq_zero : unpackMantissa b = 0#_ ↔ b.toNat % 2 ^ 52 = 0 := by
  rw [← toNat_unpackMantissa, ← BitVec.toNat_inj]
  rfl

theorem unpackExponent_eq_zero : unpackExponent b = 0#_ ↔ b.toNat / 2 ^ 52 % 2 ^ 11 = 0 := by
  rw [← toNat_unpackExponent, ← BitVec.toNat_inj]
  rfl

theorem unpackExponent_eq_max : unpackExponent b = -1#_ ↔ b.toNat / 2 ^ 52 % 2 ^ 11 = 2047 := by
  rw [← toNat_unpackExponent, ← BitVec.toNat_inj]
  rfl

/-- The sign that bits have. -/
def signOf : Sign := if 2 ^ 63 ≤ b.toNat then .negative else .positive

theorem ofBitVec_unpackSign : Sign.ofBitVec (unpackSign b) = signOf b := by
  have hlt : b.toNat < 2 ^ 64 := b.isLt
  have hsign := toNat_unpackSign b
  unfold signOf
  split
  · have hone : unpackSign b = 1#1 := by
      refine BitVec.eq_of_toNat_eq ?_
      rw [hsign, BitVec.toNat_ofNat]
      omega
    rw [hone]
    rfl
  · have hzero : unpackSign b = 0#1 := by
      refine BitVec.eq_of_toNat_eq ?_
      rw [hsign, BitVec.toNat_ofNat]
      omega
    rw [hzero]
    rfl

theorem toNat_one_append {w : ℕ} (v : BitVec w) : (1#1 ++ v).toNat = v.toNat + 2 ^ w := by
  rw [BitVec.toNat_append, ← Nat.shiftLeft_add_eq_or_of_lt v.isLt, Nat.add_comm]
  simp [Nat.shiftLeft_eq]

/-- The significand of bits without a binade is their mantissa. -/
theorem significand_subnormal (h : b.toNat / 2 ^ 52 % 2 ^ 11 = 0) :
    significand (b.toNat % 2 ^ 63) = ((unpackMantissa b).toNat,
      ((unpackExponent b).toNat : ℤ) - (Format.binary64.exponentBias + (52 : ℕ)) + 1) := by
  have hbias : (Format.binary64.exponentBias : ℤ) = 1023 := rfl
  unfold significand
  rw [show binadeSize = 2 ^ 52 from rfl, show leastUnit = -1074 from rfl]
  dsimp only
  rw [if_pos (by omega), toNat_unpackMantissa, toNat_unpackExponent, hbias, h]
  congr 1
  omega

/-- The significand of bits in a binade is their mantissa with one more bit. -/
theorem significand_normal (h : ¬ b.toNat / 2 ^ 52 % 2 ^ 11 = 0) :
    significand (b.toNat % 2 ^ 63) = ((1#1 ++ unpackMantissa b).toNat,
      ((unpackExponent b).toNat : ℤ) - (Format.binary64.exponentBias + (52 : ℕ))) := by
  have hbias : (Format.binary64.exponentBias : ℤ) = 1023 := rfl
  have hmantissa : (1#1 ++ unpackMantissa b).toNat = b.toNat % 2 ^ 52 + 2 ^ 52 := by
    rw [toNat_one_append, toNat_unpackMantissa]
  unfold significand
  rw [show binadeSize = 2 ^ 52 from rfl, show leastUnit = -1074 from rfl]
  dsimp only
  rw [if_neg (by omega), hmantissa, toNat_unpackExponent, hbias]
  congr 1 <;> omega

/-- **What bits stand for**, by their magnitude. What is finite is its sign and its
significand. -/
theorem unpack_cases :
    (b.toNat % 2 ^ 63 = 0 ∧ UnpackedFloat.unpack Format.binary64 b = .zero (signOf b)) ∨
    (0 < b.toNat % 2 ^ 63 ∧ b.toNat % 2 ^ 63 < infiniteBits ∧
      ∃ m e hm, significand (b.toNat % 2 ^ 63) = (m, e) ∧
        UnpackedFloat.unpack Format.binary64 b = .finite (signOf b) m e hm) ∨
    (b.toNat % 2 ^ 63 = infiniteBits ∧
      UnpackedFloat.unpack Format.binary64 b = .infinity (signOf b)) ∨
    (infiniteBits < b.toNat % 2 ^ 63 ∧
      UnpackedFloat.unpack Format.binary64 b = .notANumber) := by
  rw [show infiniteBits = 2047 * 2 ^ 52 from rfl]
  unfold UnpackedFloat.unpack
  dsimp only
  rw [ofBitVec_unpackSign]
  split
  · rename_i hmax
    rw [unpackExponent_eq_max] at hmax
    split
    · rename_i hmantissa
      rw [unpackMantissa_eq_zero] at hmantissa
      exact .inr (.inr (.inl ⟨by omega, rfl⟩))
    · rename_i hmantissa
      rw [unpackMantissa_eq_zero] at hmantissa
      exact .inr (.inr (.inr ⟨by omega, rfl⟩))
  · rename_i hmax
    rw [unpackExponent_eq_max] at hmax
    split
    · rename_i hexponent
      rw [unpackExponent_eq_zero] at hexponent
      split
      · rename_i hmantissa
        rw [unpackMantissa_eq_zero] at hmantissa
        exact .inl ⟨by omega, rfl⟩
      · rename_i hmantissa
        have hne := mt (unpackMantissa_eq_zero b).2 hmantissa
        have hpos : 0 < (unpackMantissa b).toNat := by
          rw [toNat_unpackMantissa]
          omega
        exact .inr (.inl ⟨by omega, by omega, _, _, hpos, significand_subnormal b hexponent, rfl⟩)
    · rename_i hexponent
      rw [unpackExponent_eq_zero] at hexponent
      have hpos : 0 < (1#1 ++ unpackMantissa b).toNat := by
        rw [toNat_one_append]
        omega
      exact .inr (.inl ⟨by omega, by omega, _, _, hpos, significand_normal b hexponent, rfl⟩)

end Fields

/-! ## Magnitudes -/

variable {x : Float}

/-- The sign of a double. -/
def sign (x : Float) : Sign := if isNegative x then .negative else .positive

/-- **What a double is**, by its magnitude. -/
theorem unpack_eq (x : Float) :
    (magnitude x = 0 ∧ x.toModel.unpack = .zero (sign x)) ∨
    (0 < magnitude x ∧ magnitude x < infiniteBits ∧
      ∃ m e hm, significand (magnitude x) = (m, e) ∧
        x.toModel.unpack = .finite (sign x) m e hm) ∨
    (magnitude x = infiniteBits ∧ x.toModel.unpack = .infinity (sign x)) ∨
    (infiniteBits < magnitude x ∧ x.toModel.unpack = .notANumber) := by
  have hsign : signOf x.toModel.toBits.toBitVec = sign x := by
    unfold signOf sign isNegative
    simp only [decide_eq_true_eq]
    rfl
  rw [← hsign]
  exact unpack_cases x.toModel.toBits.toBitVec

theorem magnitude_lt (x : Float) : magnitude x < signBit := Nat.mod_lt _ (by decide)

/-- **A double is its sign and its magnitude.** -/
theorem ofMagnitude_magnitude (x : Float) : ofMagnitude (isNegative x) (magnitude x) = x := by
  have hbits : (magnitude x + if isNegative x then signBit else 0) = x.toBits.toNat := by
    have hlt : x.toBits.toNat < 2 ^ 64 := x.toBits.toNat_lt
    unfold magnitude isNegative
    rw [show signBit = 2 ^ 63 from rfl]
    simp only [decide_eq_true_eq]
    split <;> omega
  unfold ofMagnitude
  rw [hbits, UInt64.ofNat_toNat, Float.ofBits_toBits]

theorem isFinite_iff : x.isFinite = true ↔ magnitude x < infiniteBits := by
  change x.toModel.unpack.isFinite = true ↔ _
  obtain ⟨hx, heq⟩ | ⟨-, hx, m, e, hm, -, heq⟩ | ⟨hx, heq⟩ | ⟨hx, heq⟩ := unpack_eq x
  · rw [heq, hx]
    exact iff_of_true rfl (by decide)
  · rw [heq]
    exact iff_of_true rfl hx
  · rw [heq, hx]
    exact iff_of_false Bool.false_ne_true (Nat.lt_irrefl _)
  · rw [heq]
    exact iff_of_false Bool.false_ne_true (Nat.not_lt.2 (Nat.le_of_lt hx))

theorem isNaN_iff_lt_magnitude : x.isNaN = true ↔ infiniteBits < magnitude x := by
  change x.toModel.unpack.isNaN = true ↔ _
  obtain ⟨hx, heq⟩ | ⟨-, hx, m, e, hm, -, heq⟩ | ⟨hx, heq⟩ | ⟨hx, heq⟩ := unpack_eq x
  · rw [heq, hx]
    exact iff_of_false Bool.false_ne_true (by decide)
  · rw [heq]
    exact iff_of_false Bool.false_ne_true (Nat.not_lt.2 (Nat.le_of_lt hx))
  · rw [heq, hx]
    exact iff_of_false Bool.false_ne_true (Nat.lt_irrefl _)
  · rw [heq]
    exact iff_of_true rfl hx

/-- **The numbers below zero** are those with a sign, but for the zero that has
one. -/
theorem less_zero_iff (hx : magnitude x ≤ infiniteBits) :
    Quantity.less x Quantity.zero = true ↔ isNegative x = true ∧ magnitude x ≠ 0 := by
  have hlt : Quantity.less x Quantity.zero = x.toModel.unpack.lt (.zero .positive) := by
    show decide (decide (x.toModel.unpack.lt (.zero .positive) = true) = true) = _
    rw [Bool.decide_eq_true, Bool.decide_eq_true]
  rw [hlt]
  obtain ⟨hzero, heq⟩ | ⟨hpos, -, m, e, hm, -, heq⟩ | ⟨hinf, heq⟩ | ⟨hnan, -⟩ := unpack_eq x
  · rw [heq, hzero]
    exact iff_of_false Bool.false_ne_true (fun h => h.2 rfl)
  · rw [heq, and_iff_left (Nat.pos_iff_ne_zero.1 hpos)]
    unfold sign
    cases isNegative x with
    | false => exact iff_of_false Bool.false_ne_true Bool.false_ne_true
    | true => exact iff_of_true rfl rfl
  · rw [heq, hinf, and_iff_left (by decide)]
    unfold sign
    cases isNegative x <;> decide
  · exact absurd hx (Nat.not_le.2 hnan)

/-! ## Signs -/

theorem toNat_ofNat {n : Nat} (h : n < 2 ^ 64) :
    (UInt64.ofNat n).toBitVec.toNat = n := Nat.mod_eq_of_lt h

/-- Magnitude bits up to those of infinity are kept, whatever the sign. -/
theorem toBits_ofMagnitude (negative : Bool) {bits : Nat} (h : bits ≤ infiniteBits) :
    (ofMagnitude negative bits).toBits.toNat = bits + if negative then signBit else 0 := by
  have hbits : bits ≤ 2047 * 2 ^ 52 := h
  obtain ⟨n, hn⟩ : ∃ n, (bits + if negative then signBit else 0) = n := ⟨_, rfl⟩
  have hlt : n < 2 ^ 64 ∧ (n = bits ∨ n = bits + 2 ^ 63) := by
    rw [← hn, show signBit = 2 ^ 63 from rfl]
    cases negative
    · exact ⟨by simp only [Bool.false_eq_true, if_false]; omega, .inl rfl⟩
    · exact ⟨by simp only [if_true]; omega, .inr rfl⟩
  have hnan : ¬ @isNaNBits Format.binary64 (UInt64.ofNat n).toBitVec = true := by
    intro hnan
    obtain ⟨hexponent, hmantissa⟩ := of_decide_eq_true hnan
    rw [unpackExponent_eq_max] at hexponent
    refine hmantissa ((unpackMantissa_eq_zero _).2 ?_)
    rw [toNat_ofNat hlt.1] at hexponent ⊢
    omega
  have hpack : (ofMagnitude negative bits).toBits.toBitVec =
      UnpackedFloat.pack Format.binary64
        (UnpackedFloat.unpack Format.binary64 (UInt64.ofNat n).toBitVec) := by
    rw [← hn]
    rfl
  rw [pack_unpack, if_neg hnan] at hpack
  rw [hn]
  exact (congrArg BitVec.toNat hpack).trans (toNat_ofNat hlt.1)

/-- **A sign and a magnitude are those of a double.** -/
theorem magnitude_ofMagnitude (negative : Bool) {bits : Nat} (h : bits ≤ infiniteBits) :
    magnitude (ofMagnitude negative bits) = bits ∧
      isNegative (ofMagnitude negative bits) = negative := by
  have hbits : bits ≤ 2047 * 2 ^ 52 := h
  have hsign : signBit = 2 ^ 63 := rfl
  unfold magnitude isNegative
  rw [toBits_ofMagnitude negative h, hsign]
  cases negative
  · simp only [Bool.false_eq_true, if_false, decide_eq_false_iff_not]
    omega
  · simp only [if_true, decide_eq_true_eq]
    omega

/-- Bits that differ in nothing but the sign stand for opposite numbers. -/
theorem unpack_eq_neg {b d : BitVec Format.binary64.numBits} (hb : b.toNat < 2 ^ 63)
    (hd : d.toNat = b.toNat + 2 ^ 63) : UnpackedFloat.unpack Format.binary64 d =
      (UnpackedFloat.unpack Format.binary64 b).neg := by
  have hmantissa : unpackMantissa d = unpackMantissa b := by
    apply BitVec.eq_of_toNat_eq
    rw [toNat_unpackMantissa, toNat_unpackMantissa]
    omega
  have hexponent : unpackExponent d = unpackExponent b := by
    apply BitVec.eq_of_toNat_eq
    rw [toNat_unpackExponent, toNat_unpackExponent]
    omega
  have hpositive : signOf b = .positive := if_neg (by omega)
  have hnegative : signOf d = .negative := if_pos (by omega)
  unfold UnpackedFloat.unpack
  simp only [ofBitVec_unpackSign, hpositive, hnegative, hmantissa, hexponent]
  split_ifs <;> rfl

theorem unpack_pack_unpack (b : BitVec Format.binary64.numBits) :
    UnpackedFloat.unpack Format.binary64 (UnpackedFloat.pack Format.binary64
      (UnpackedFloat.unpack Format.binary64 b)) = UnpackedFloat.unpack Format.binary64 b := by
  rw [pack_unpack]
  split
  · rename_i h
    obtain ⟨hexponent, hmantissa⟩ := of_decide_eq_true h
    rw [unpack_packedNaN]
    unfold UnpackedFloat.unpack
    simp only [hexponent, hmantissa, if_true, if_false]
  · rfl

/-- **Negating a magnitude** gives it a sign. -/
theorem neg_ofMagnitude {bits : Nat} (h : bits < signBit) :
    -ofMagnitude false bits = ofMagnitude true bits := by
  have h : bits < 2 ^ 63 := h
  have hneg : UnpackedFloat.unpack Format.binary64 (UInt64.ofNat (bits + signBit)).toBitVec =
      (UnpackedFloat.unpack Format.binary64 (UInt64.ofNat (bits + 0)).toBitVec).neg := by
    apply unpack_eq_neg
    · rw [toNat_ofNat (by omega)]
      exact h
    · rw [show signBit = 2 ^ 63 from rfl, toNat_ofNat (by omega), toNat_ofNat (by omega),
        Nat.add_zero]
  show Float.ofModel (Float.Model.pack (UnpackedFloat.neg (UnpackedFloat.unpack Format.binary64 _)))
    = Float.ofModel (Float.Model.pack (UnpackedFloat.unpack Format.binary64
      (UInt64.ofNat (bits + signBit)).toBitVec))
  rw [hneg]
  exact congrArg (fun u => Float.ofModel (Float.Model.pack (UnpackedFloat.neg u)))
    (unpack_pack_unpack _)

end Rulebook.Double
