import LoxCalc.Proofs.ShortestDecimal
import Mathlib.Data.Nat.Log
import Mathlib.Data.Rat.Cast.Order

/-!
# Rounding keeps the order

Of two fractions the larger one rounds to no smaller magnitude (`Binary64.nearestBits_mono`), so
equal fractions round alike, whatever their terms (`Binary64.nearestBits_congr`). Inside a power of
two this is the monotonicity of rounded division; from one power of two to a later one, the rounded
quotients are at most `2 ^ 53` and at least `2 ^ 52`, which the exponent makes up for.
-/

namespace LoxCalc
namespace Binary64

variable {num den num' den' : Nat}

/-! ## Rounded division -/

/-- A rounded quotient is above `k` if the quotient is above the half that follows `k`, or is that
half and `k` is odd. -/
lemma lt_roundDiv_iff (k : Nat) (hden : 0 < den) :
    k < roundDiv num den ↔
      (2 * k + 1) * den < 2 * num ∨ (2 * k + 1) * den = 2 * num ∧ k % 2 = 1 := by
  have hr := Nat.mod_lt num hden
  have hnum := Nat.div_add_mod num den
  unfold roundDiv
  generalize num / den = q at hnum
  generalize num % den = r at hr hnum
  subst hnum
  have hdouble : 2 * (den * q + r) = 2 * q * den + 2 * r := by ring
  rcases Nat.lt_trichotomy k q with hlt | rfl | hgt
  · -- The quotient is at least `k + 1` even before it is rounded.
    have hfloor := Nat.mul_le_mul_right den (show 2 * k + 2 ≤ 2 * q by omega)
    rw [Nat.add_mul] at hfloor ⊢
    dsimp only
    split_ifs <;> omega
  · rw [Nat.add_mul]
    dsimp only
    split_ifs <;> omega
  · have hceil := Nat.mul_le_mul_right den (show 2 * q + 2 ≤ 2 * k by omega)
    rw [Nat.add_mul] at hceil ⊢
    dsimp only
    split_ifs <;> omega

/-- A larger fraction has no smaller rounded quotient. -/
theorem roundDiv_mono (hden : 0 < den) (hden' : 0 < den') (h : num * den' ≤ num' * den) :
    roundDiv num den ≤ roundDiv num' den' := by
  apply Nat.le_of_not_lt
  generalize hk : roundDiv num' den' = k
  intro hlt
  have hnot : ¬k < roundDiv num' den' := by omega
  apply hnot
  rw [lt_roundDiv_iff k hden']
  rw [lt_roundDiv_iff k hden] at hlt
  -- Both fractions are compared with the same half, on the common denominator.
  have hcross : 2 * num * den' ≤ 2 * num' * den := by
    rw [Nat.mul_assoc, Nat.mul_assoc]
    exact Nat.mul_le_mul_left 2 h
  have hswap : (2 * k + 1) * den * den' = (2 * k + 1) * den' * den := by ring
  rcases hlt with hlt | ⟨heq, hodd⟩
  · left
    have hscaled : (2 * k + 1) * den * den' < 2 * num * den' :=
      Nat.mul_lt_mul_of_pos_right hlt hden'
    rw [hswap] at hscaled
    exact Nat.lt_of_mul_lt_mul_right (hscaled.trans_le hcross)
  · rw [← heq, hswap] at hcross
    rcases Nat.lt_or_eq_of_le (Nat.le_of_mul_le_mul_right hcross hden) with hlt | heq'
    · exact .inl hlt
    · exact .inr ⟨heq', hodd⟩

lemma roundDiv_le_of_le_mul {k : Nat} (hden : 0 < den) (h : num ≤ k * den) :
    roundDiv num den ≤ k := by
  rw [← roundDiv_mul k hden]
  exact roundDiv_mono hden hden (Nat.mul_le_mul_right den h)

lemma le_roundDiv_of_mul_le {k : Nat} (hden : 0 < den) (h : k * den ≤ num) :
    k ≤ roundDiv num den := by
  rw [← roundDiv_mul k hden]
  exact roundDiv_mono hden hden (Nat.mul_le_mul_right den h)

/-! ## The nearest magnitude -/

lemma div_le_div_of_mul_le (hden : 0 < den) (hden' : 0 < den') (h : num * den' ≤ num' * den) :
    num / den ≤ num' / den' := by
  rw [Nat.le_div_iff_mul_le hden']
  have hfloor : num / den * den' * den ≤ num * den' := by
    rw [Nat.mul_right_comm]
    exact Nat.mul_le_mul_right den' (Nat.div_mul_le_self num den)
  exact Nat.le_of_mul_le_mul_right (hfloor.trans h) hden

lemma pow_mul_eq (shift width den : Nat) :
    2 ^ (shift + width) * den = pow2 width * (den * pow2 shift) := by
  show 2 ^ (shift + width) * den = 2 ^ width * (den * 2 ^ shift)
  ring

/-- A quotient counted in its own power of two has no more than 53 bits. -/
lemma roundDiv_shift_le (num : Nat) (hden : 0 < den) :
    roundDiv num (den * pow2 ((num / den).log2 - 52)) ≤ pow2 53 := by
  apply roundDiv_le_of_le_mul (Nat.mul_pos hden (pow2_pos _))
  have hlog : num / den < 2 ^ ((num / den).log2 - 52 + 53) :=
    Nat.lt_log2_self.trans_le (Nat.pow_le_pow_right (by decide) (by omega))
  calc num ≤ 2 ^ ((num / den).log2 - 52 + 53) * den :=
        Nat.le_of_lt ((Nat.div_lt_iff_lt_mul hden).mp hlog)
    _ = pow2 53 * (den * pow2 ((num / den).log2 - 52)) := pow_mul_eq _ 53 den

/-- Above the least power of two, it has no fewer. -/
lemma le_roundDiv_shift (num : Nat) (hden : 0 < den) (h : 0 < (num / den).log2 - 52) :
    pow2 52 ≤ roundDiv num (den * pow2 ((num / den).log2 - 52)) := by
  apply le_roundDiv_of_mul_le (Nat.mul_pos hden (pow2_pos _))
  have hne : num / den ≠ 0 := by
    intro hzero
    rw [hzero] at h
    exact absurd h (by decide)
  have hlog : 2 ^ ((num / den).log2 - 52 + 52) ≤ num / den := by
    rw [Nat.sub_add_cancel (by omega)]
    exact Nat.log2_self_le hne
  calc pow2 52 * (den * pow2 ((num / den).log2 - 52))
      = 2 ^ ((num / den).log2 - 52 + 52) * den := (pow_mul_eq _ 52 den).symm
    _ ≤ num / den * den := Nat.mul_le_mul_right den hlog
    _ ≤ num := Nat.div_mul_le_self num den

/-- A larger fraction has no smaller nearest magnitude. -/
theorem nearestBits_mono (hden : 0 < den) (hden' : 0 < den')
    (h : (num : ℚ) / den ≤ num' / den') : nearestBits num den ≤ nearestBits num' den' := by
  have hcross : num * den' ≤ num' * den := by
    rw [div_le_div_iff₀ (Nat.cast_pos.mpr hden) (Nat.cast_pos.mpr hden')] at h
    exact_mod_cast h
  have hscaled : num * unitsPerOne * den' ≤ num' * unitsPerOne * den := by
    rw [Nat.mul_right_comm, Nat.mul_right_comm num']
    exact Nat.mul_le_mul_right unitsPerOne hcross
  unfold nearestBits
  generalize num * unitsPerOne = n at hscaled
  generalize num' * unitsPerOne = n' at hscaled
  dsimp only
  have hlog : (n / den).log2 ≤ (n' / den').log2 := by
    rw [Nat.log2_eq_log_two, Nat.log2_eq_log_two]
    exact Nat.log_mono_right (div_le_div_of_mul_le hden hden' hscaled)
  have hupper := roundDiv_shift_le n hden
  have hlower := le_roundDiv_shift n' hden'
  have hshift : (n / den).log2 - 52 ≤ (n' / den').log2 - 52 := Nat.sub_le_sub_right hlog 52
  generalize (n / den).log2 - 52 = shift at hshift hupper
  generalize (n' / den').log2 - 52 = shift' at hshift hlower
  refine min_le_min_right _ ?_
  rcases Nat.eq_or_lt_of_le hshift with rfl | hlt
  · have hunits : n * (den' * pow2 shift) ≤ n' * (den * pow2 shift) := by
      rw [← Nat.mul_assoc, ← Nat.mul_assoc]
      exact Nat.mul_le_mul_right (pow2 shift) hscaled
    have hpos := pow2_pos shift
    exact Nat.add_le_add_left
      (roundDiv_mono (Nat.mul_pos hden hpos) (Nat.mul_pos hden' hpos) hunits) _
  · have hdouble : pow2 53 = pow2 52 + pow2 52 := by decide
    calc shift * pow2 52 + roundDiv n (den * pow2 shift)
        ≤ shift * pow2 52 + (pow2 52 + pow2 52) := Nat.add_le_add_left (hdouble ▸ hupper) _
      _ = (shift + 1) * pow2 52 + pow2 52 := by ring
      _ ≤ shift' * pow2 52 + roundDiv n' (den' * pow2 shift') :=
          Nat.add_le_add (Nat.mul_le_mul_right _ hlt) (hlower (Nat.zero_lt_of_lt hlt))

/-- Equal fractions have the same nearest magnitude. -/
theorem nearestBits_congr (hden : 0 < den) (hden' : 0 < den') (h : (num : ℚ) / den = num' / den') :
    nearestBits num den = nearestBits num' den' :=
  Nat.le_antisymm (nearestBits_mono hden hden' h.le) (nearestBits_mono hden' hden h.ge)

end Binary64
end LoxCalc
