import LoxCalc.Number.Shortest
import Mathlib.Tactic.Ring

/-!
# Shortest decimals read back

The shortest decimal of a magnitude is one that rounds to the magnitude (`Decimal.exists_shortest`).
The search tests every decimal it tries, and what it falls back on is the exact value. So what is
left to show is that rounding a fraction that is a magnitude gives that magnitude, for which
`Binary64.nearestBits_units` goes through the two layouts of its bits.
-/

namespace LoxCalc

lemma pow2_pos (k : Nat) : 0 < pow2 k :=
  Nat.two_pow_pos k

lemma pow10_pos (k : Nat) : 0 < pow10 k :=
  Nat.pow_pos (by decide)

lemma mul_pow5_mul_pow2 (n k : Nat) : n * Nat.pow 5 k * pow2 k = n * pow10 k := by
  have hten : Nat.pow 5 k * pow2 k = pow10 k := (Nat.mul_pow 5 2 k).symm
  rw [Nat.mul_assoc, hten]

namespace Binary64

/-! ## The two layouts of a magnitude -/

/-- Below the first exponent, the bits count units. -/
lemma units_of_lt {bits : Nat} (h : bits < pow2 52) : units bits = bits := by
  unfold units
  rw [if_pos (Nat.div_eq_of_lt h)]

/-- From there on, they are an exponent and 52 bits of a number of 53 bits. -/
lemma units_normal (exponent : Nat) {mantissa : Nat} (h : mantissa < pow2 52) :
    units ((exponent + 1) * pow2 52 + mantissa) = (pow2 52 + mantissa) * pow2 exponent := by
  have hfield : ((exponent + 1) * pow2 52 + mantissa) / pow2 52 = exponent + 1 := by
    rw [Nat.mul_comm, Nat.mul_add_div (pow2_pos 52), Nat.div_eq_of_lt h, Nat.add_zero]
  have hmantissa : ((exponent + 1) * pow2 52 + mantissa) % pow2 52 = mantissa := by
    rw [Nat.mul_comm, Nat.mul_add_mod, Nat.mod_eq_of_lt h]
  unfold units
  rw [hfield, hmantissa, if_neg (Nat.succ_ne_zero exponent), Nat.add_sub_cancel]

lemma exists_normal {bits : Nat} (h : pow2 52 ≤ bits) :
    ∃ exponent mantissa, mantissa < pow2 52 ∧ bits = (exponent + 1) * pow2 52 + mantissa := by
  refine ⟨bits / pow2 52 - 1, bits % pow2 52, Nat.mod_lt _ (pow2_pos 52), ?_⟩
  have hfield : 1 ≤ bits / pow2 52 := (Nat.one_le_div_iff (pow2_pos 52)).mpr h
  rw [Nat.sub_add_cancel hfield, Nat.mul_comm]
  exact (Nat.div_add_mod _ _).symm

lemma log2_sub_of_lt {bits : Nat} (h : bits < pow2 52) : bits.log2 - 52 = 0 := by
  by_cases hzero : bits = 0
  · subst hzero
    rfl
  · have hlog : bits.log2 < 52 := (Nat.log2_lt hzero).mpr h
    omega

lemma log2_normal (exponent : Nat) {mantissa : Nat} (h : mantissa < pow2 52) :
    ((pow2 52 + mantissa) * pow2 exponent).log2 = 52 + exponent := by
  have hpos := pow2_pos exponent
  have hne : (pow2 52 + mantissa) * pow2 exponent ≠ 0 := by
    have hfront : 0 < pow2 52 + mantissa := Nat.add_pos_left (pow2_pos 52) mantissa
    exact (Nat.mul_pos hfront hpos).ne'
  rw [Nat.log2_eq_iff hne]
  constructor
  · rw [Nat.pow_add]
    exact Nat.mul_le_mul_right _ (Nat.le_add_right _ _)
  · have hfront : pow2 52 + mantissa < 2 ^ (52 + 1) := by
      have hdouble : 2 ^ (52 + 1) = pow2 52 + pow2 52 := by decide
      omega
    rw [Nat.add_right_comm, Nat.pow_add]
    exact Nat.mul_lt_mul_of_pos_right hfront hpos

/-! ## Rounding what is exact -/

lemma roundDiv_mul (n : Nat) {den : Nat} (hden : 0 < den) : roundDiv (n * den) den = n := by
  unfold roundDiv
  rw [Nat.mul_mod_left, Nat.mul_div_cancel n hden]
  simp [hden]

/-- The magnitude nearest to a whole number of units. -/
lemma nearestBits_of_mul_eq {num den count : Nat} (hden : 0 < den)
    (h : num * unitsPerOne = count * den) :
    nearestBits num den =
      min ((count.log2 - 52) * pow2 52 +
        roundDiv (count * den) (den * pow2 (count.log2 - 52))) infinityBits := by
  unfold nearestBits
  simp only [h, Nat.mul_div_cancel count hden]

/-- A fraction that is a finite magnitude is rounded to that magnitude. -/
theorem nearestBits_units {bits num den : Nat} (hbits : bits < infinityBits) (hden : 0 < den)
    (h : num * unitsPerOne = units bits * den) : nearestBits num den = bits := by
  rw [nearestBits_of_mul_eq hden h]
  by_cases hsmall : bits < pow2 52
  · have hone : den * pow2 0 = den := Nat.mul_one den
    rw [units_of_lt hsmall, log2_sub_of_lt hsmall, hone, roundDiv_mul _ hden, Nat.zero_mul,
      Nat.zero_add]
    exact Nat.min_eq_left (Nat.le_of_lt hbits)
  · obtain ⟨exponent, mantissa, hmantissa, rfl⟩ := exists_normal (Nat.le_of_not_lt hsmall)
    have hshift : 52 + exponent - 52 = exponent := by omega
    have hwhole : (pow2 52 + mantissa) * pow2 exponent * den =
        (pow2 52 + mantissa) * (den * pow2 exponent) := by ring
    have hscale : 0 < den * pow2 exponent := Nat.mul_pos hden (pow2_pos exponent)
    -- The 53 bits come out of the division, and the first of them carries into the exponent.
    have hcarry : exponent * pow2 52 + (pow2 52 + mantissa) =
        (exponent + 1) * pow2 52 + mantissa := by ring
    rw [units_normal exponent hmantissa, log2_normal exponent hmantissa, hshift, hwhole,
      roundDiv_mul _ hscale, hcarry]
    exact Nat.min_eq_left (Nat.le_of_lt hbits)

lemma nearestBits_zero {den : Nat} (hden : 0 < den) : nearestBits 0 den = 0 :=
  nearestBits_units (by decide) hden
    (by rw [units_of_lt (pow2_pos 52), Nat.zero_mul, Nat.zero_mul])

/-- A fraction that is not rounded to zero is not zero. -/
lemma num_ne_zero {num den : Nat} (hden : 0 < den) (h : nearestBits num den ≠ 0) : num ≠ 0 := by
  intro hzero
  rw [hzero, nearestBits_zero hden] at h
  exact h rfl

end Binary64

namespace Decimal

/-! ## What the search finds -/

/-- The exact value of a finite magnitude reads as the magnitude. -/
lemma readsAs_grains {bits : Nat} (h : bits < Binary64.infinityBits) :
    readsAs bits (grains bits) = true := by
  have hexact : grains bits * Binary64.unitsPerOne = Binary64.units bits * pow10 1074 := by
    simp only [grains, Binary64.unitsPerOne, mul_pow5_mul_pow2]
  rw [readsAs, Binary64.nearestBits_units h (pow10_pos 1074) hexact]
  exact beq_self_eq_true bits

/-- The search keeps to what passes the test. -/
lemma coarsest_passes {test : Nat → Bool} {n : Nat} (h : test n = true) (k : Nat) :
    test (coarsest test n k) = true := by
  induction k with
  | zero => exact h
  | succ k ih =>
    unfold coarsest
    split
    · next m hm => exact List.find?_some hm
    · exact ih

/-- The shortest decimal of a finite magnitude rounds to the magnitude. -/
theorem exists_shortest {bits : Nat} (h : bits < Binary64.infinityBits) :
    ∃ count, shortest bits = ofGrains count ∧
      Binary64.nearestBits count (pow10 1074) = bits := by
  have hpasses := coarsest_passes (readsAs_grains h) ((Nat.toDigits 10 (grains bits)).length - 1)
  exact ⟨_, rfl, eq_of_beq hpasses⟩

end Decimal
end LoxCalc
