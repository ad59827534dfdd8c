import LoxCalc.Proofs.NumberText

/-!
# Operations on the bits of a number

What comparing, negating and asking for finiteness do, said with the bits of a number. Bits with the
greatest exponent and a mantissa are those of no number (`Binary64.NaNBits`); all of them stand for
one and the same value, and all other bits are kept. Numbers compare equal if they have the same
bits or are both zero (`Binary64.beq_iff`), and to negate a number is to turn its sign
(`Binary64.isNegative_neg`, `Binary64.magnitude_neg`). The number nearest to a fraction has the
magnitude nearest to it, and no sign (`Binary64.magnitude_nearest`).
-/

namespace LoxCalc
namespace Binary64

open Float.Model (Format)
open Float.Model.UnpackedFloat

/-- Bits that stand for no number: all bits of the exponent are set, and some of the mantissa. -/
def NaNBits (bits : UInt64) : Prop :=
  bits.toNat / pow2 52 % pow2 11 = 2047 ∧ bits.toNat % pow2 52 ≠ 0

/-- Bits that stand for a zero: none is set but, perhaps, the sign. -/
def ZeroBits (bits : UInt64) : Prop :=
  bits.toNat % pow2 63 = 0

lemma isNaNBits_iff_nanBits (bits : UInt64) :
    @isNaNBits Format.binary64 bits.toBitVec = true ↔ NaNBits bits := by
  rw [isNaNBits, decide_eq_true_iff, unpackExponent_eq_iff, ne_eq, unpackMantissa_eq_iff]
  rfl

/-- The bits of a number are kept. -/
lemma toBits_ofBits {bits : UInt64} (h : ¬NaNBits bits) : (Float.ofBits bits).toBits = bits := by
  rw [← UInt64.toBitVec_inj]
  show pack Format.binary64 (unpack Format.binary64 bits.toBitVec) = bits.toBitVec
  rw [pack_unpack, if_neg (mt (isNaNBits_iff_nanBits bits).mp h)]

lemma isNaN_ofBits_iff (bits : UInt64) : (Float.ofBits bits).isNaN = true ↔ NaNBits bits := by
  have hbits : (Float.ofBits bits).toBits.toBitVec =
      if @isNaNBits Format.binary64 bits.toBitVec then packedNaN Format.binary64
      else bits.toBitVec := by
    show pack Format.binary64 (unpack Format.binary64 bits.toBitVec) = _
    rw [pack_unpack]
  rw [isNaN_iff_isNaNBits, hbits, ← isNaNBits_iff_nanBits]
  split
  · next h => simp only [isNaNBits_packedNaN, h]
  · rfl

/-- What is no number has a magnitude above that of infinity. -/
lemma isNaN_iff (x : Float) : x.isNaN = true ↔ infinityBits < magnitude x :=
  (isNaN_iff_isNaNBits x).trans (isNaNBits_iff _)

/-! ## Comparing -/

lemma magnitude_eq_zero_iff (x : Float) : magnitude x = 0 ↔ x = 0 ∨ x = -0 := by
  constructor
  · intro h
    cases hsign : isNegative x with
    | false => exact .inl (eq_of_magnitude_eq hsign h)
    | true => exact .inr (eq_of_magnitude_eq hsign h)
  · rintro (rfl | rfl) <;> rfl

/-- Numbers compare equal if they are the same or both zero. -/
theorem beq_iff (x y : Float) :
    (x == y) = true ↔
      x.isNaN = false ∧ y.isNaN = false ∧ (x = y ∨ magnitude x = 0 ∧ magnitude y = 0) := by
  rw [Float.beq_iff_ne_nan_and_eq, magnitude_eq_zero_iff, magnitude_eq_zero_iff,
    Float.isNaN_eq_decide_eq_nan, Float.isNaN_eq_decide_eq_nan, decide_eq_false_iff_not,
    decide_eq_false_iff_not]
  grind

lemma isNaN_of_magnitude_eq_zero {x : Float} (h : magnitude x = 0) : x.isNaN = false := by
  rcases (magnitude_eq_zero_iff x).mp h with rfl | rfl <;> rfl

lemma not_nanBits_of_zeroBits {bits : UInt64} (h : ZeroBits bits) : ¬NaNBits bits := by
  have h52 : pow2 52 = 4503599627370496 := by decide
  have h63 : pow2 63 = 9223372036854775808 := by decide
  rw [ZeroBits, h63] at h
  rw [NaNBits, h52]
  omega

lemma magnitude_ofBits_eq_zero_iff (bits : UInt64) :
    magnitude (.ofBits bits) = 0 ↔ ZeroBits bits := by
  constructor
  · intro h
    -- A zero is a number, so its bits were kept.
    have hnumber : ¬NaNBits bits := by
      rw [← isNaN_ofBits_iff, isNaN_of_magnitude_eq_zero h]
      decide
    rwa [magnitude, toBits_ofBits hnumber] at h
  · intro h
    rwa [magnitude, toBits_ofBits (not_nanBits_of_zeroBits h)]

/-- Bits make the same number if none of them makes a number, or they are the same. -/
lemma ofBits_eq_iff (a b : UInt64) :
    Float.ofBits a = Float.ofBits b ↔ NaNBits a ∧ NaNBits b ∨ ¬NaNBits a ∧ a = b := by
  by_cases ha : NaNBits a
  · have hnan : Float.ofBits a = Float.nan := by
      simpa using (isNaN_ofBits_iff a).mpr ha
    rw [hnan, ← isNaN_ofBits_iff b]
    simp [ha, eq_comm]
  · constructor
    · intro h
      have hb : ¬NaNBits b := by
        rwa [← isNaN_ofBits_iff, ← h, isNaN_ofBits_iff]
      refine .inr ⟨ha, ?_⟩
      rw [← toBits_ofBits ha, h, toBits_ofBits hb]
    · rintro (⟨hnan, -⟩ | ⟨-, rfl⟩)
      · exact absurd hnan ha
      · rfl

/-! ## Fields -/

/-- A magnitude is made up of an exponent and a mantissa. -/
lemma magnitude_eq (x : Float) :
    magnitude x = (@unpackExponent Format.binary64 x.toBits.toBitVec).toNat * pow2 52 +
      (@unpackMantissa Format.binary64 x.toBits.toBitVec).toNat := by
  have h52 : pow2 52 = 4503599627370496 := by decide
  have h63 : pow2 63 = 9223372036854775808 := by decide
  rw [unpackExponent_def, unpackMantissa_def, BitVec.extractLsb'_toNat, BitVec.extractLsb'_toNat,
    Nat.shiftRight_zero, Nat.shiftRight_eq_div_pow]
  show x.toBits.toNat % pow2 63 =
    x.toBits.toNat / pow2 52 % 2048 * pow2 52 + x.toBits.toNat % pow2 52
  rw [h52, h63]
  omega

lemma isNegative_eq (x : Float) :
    isNegative x = (@unpackSign Format.binary64 x.toBits.toBitVec == 1#1) := by
  have h63 : pow2 63 = 9223372036854775808 := by decide
  have hlt := x.toBits.toNat_lt
  rw [Bool.eq_iff_iff, beq_iff_eq, unpackSign_def, ← BitVec.toNat_inj, BitVec.extractLsb'_toNat,
    Nat.shiftRight_eq_div_pow]
  show decide (pow2 63 ≤ x.toBits.toNat) = true ↔ x.toBits.toNat / pow2 63 % 2 = 1
  rw [decide_eq_true_iff, h63]
  omega

/-- The finite numbers are those with bits below the bits of infinity. -/
theorem isFinite_iff (x : Float) : x.isFinite = true ↔ magnitude x < infinityBits := by
  have hexponent : x.isFinite = true ↔
      ¬@unpackExponent Format.binary64 x.toBits.toBitVec = -1#11 := by
    show (unpack Format.binary64 x.toBits.toBitVec).isFinite = true ↔ _
    simp only [unpack]
    split_ifs with hgreatest
    all_goals simp_all [isFinite]
  have h52 : pow2 52 = 4503599627370496 := by decide
  have h63 : pow2 63 = 9223372036854775808 := by decide
  rw [hexponent, unpackExponent_eq_iff]
  show ¬x.toBits.toNat / pow2 52 % 2048 = 2047 ↔ x.toBits.toNat % pow2 63 < 2047 * pow2 52
  rw [h52, h63]
  omega

lemma isNaN_of_isFinite {x : Float} (h : x.isFinite = true) : x.isNaN = false := by
  rw [isFinite_iff] at h
  rw [Bool.eq_false_iff, ne_eq, isNaN_iff]
  omega

/-! ## The nearest number -/

lemma nearestBits_lt (num den : Nat) : nearestBits num den < pow2 63 :=
  (Nat.min_le_right _ infinityBits).trans_lt (by decide)

lemma toNat_toBits_nearest (num den : Nat) :
    (nearest num den).toBits.toNat = nearestBits num den := by
  have hle : nearestBits num den ≤ infinityBits := Nat.min_le_right _ _
  have hlt : nearestBits num den < 2 ^ 64 := (nearestBits_lt num den).trans (by decide)
  have hbits : (UInt64.ofNat (nearestBits num den)).toNat = nearestBits num den := by
    rw [UInt64.toNat_ofNat', Nat.mod_eq_of_lt hlt]
  have hnumber : ¬NaNBits (UInt64.ofNat (nearestBits num den)) := by
    have h11 : pow2 11 = 2048 := by decide
    have h52 : pow2 52 = 4503599627370496 := by decide
    rw [infinityBits, h52] at hle
    rw [NaNBits, hbits, h11, h52]
    omega
  rw [nearest, toBits_ofBits hnumber, hbits]

/-- The magnitude of the nearest number is the nearest magnitude. -/
theorem magnitude_nearest (num den : Nat) : magnitude (nearest num den) = nearestBits num den := by
  rw [magnitude, toNat_toBits_nearest, Nat.mod_eq_of_lt (nearestBits_lt num den)]

/-- The number nearest to a fraction is a number. -/
theorem isNaN_nearest (num den : Nat) : (nearest num den).isNaN = false := by
  rw [Bool.eq_false_iff, ne_eq, isNaN_iff, magnitude_nearest]
  exact Nat.not_lt.mpr (Nat.min_le_right _ _)

lemma isNegative_nearest (num den : Nat) : isNegative (nearest num den) = false := by
  rw [isNegative, toNat_toBits_nearest]
  exact decide_eq_false (Nat.not_le.mpr (nearestBits_lt num den))

/-! ## Negating -/

/-- To negate is to turn the sign, whatever the other fields are. -/
lemma unpack_turned (b : BitVec 64) :
    unpack Format.binary64 (packComponents Format.binary64
      (-Sign.ofBitVec (@unpackSign Format.binary64 b)) (@unpackExponent Format.binary64 b)
      (@unpackMantissa Format.binary64 b)) = (unpack Format.binary64 b).neg := by
  unfold unpack
  simp only [unpackSign_packComponents, unpackExponent_packComponents,
    unpackMantissa_packComponents, Sign.ofBitVec_toBitVec]
  split_ifs <;> rfl

lemma toBits_neg {x : Float} (h : x.isNaN = false) :
    (-x).toBits.toBitVec = packComponents Format.binary64
      (-Sign.ofBitVec (@unpackSign Format.binary64 x.toBits.toBitVec))
      (@unpackExponent Format.binary64 x.toBits.toBitVec)
      (@unpackMantissa Format.binary64 x.toBits.toBitVec) := by
  have hnumber := mt (isNaN_iff_isNaNBits x).mpr (Bool.eq_false_iff.mp h)
  show pack Format.binary64 (unpack Format.binary64 x.toBits.toBitVec).neg = _
  rw [← unpack_turned, pack_unpack, if_neg]
  simpa [isNaNBits] using hnumber

theorem magnitude_neg {x : Float} (h : x.isNaN = false) : magnitude (-x) = magnitude x := by
  rw [magnitude_eq, magnitude_eq, toBits_neg h, unpackExponent_packComponents,
    unpackMantissa_packComponents]

theorem isNegative_neg {x : Float} (h : x.isNaN = false) : isNegative (-x) = !isNegative x := by
  rw [isNegative_eq, isNegative_eq, toBits_neg h, unpackSign_packComponents]
  generalize @unpackSign Format.binary64 x.toBits.toBitVec = sign
  decide +revert

end Binary64
end LoxCalc
