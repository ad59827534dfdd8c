import LoxCalc.Number.Format
import LoxCalc.Proofs.ShortestDecimal
import LoxCalc.Token.Piece
import Mathlib

/-!
# Texts of numbers

Distinct numbers have distinct texts, unless they are not numbers (`NumberStyle.text_injective`). A
text is read back as a rational number (`Decimal.read`), and that is the value of the decimal it was
written from, in whichever form it was written; the decimal in turn rounds to the number. Besides,
texts of numbers are made of few characters and start with a digit, a sign or the word for infinity.
-/

namespace LoxCalc

namespace Decimal

/-! ## Values of decimals -/

/-- The number that a decimal is. -/
def value (d : Decimal) : ℚ :=
  Nat.ofDigitChars 10 d.digits 0 * 10 ^ (d.exponent + 1 - d.digits.length)

/-- The unit that decimals of magnitudes are counted in. -/
def grain : ℚ :=
  10 ^ (-1074 : ℤ)

lemma grain_ne_zero : grain ≠ 0 :=
  zpow_ne_zero _ (by norm_num)

/-- What is dropped from the end are zeros. -/
lemma exists_dropTrailingZeros (digits : List Char) :
    ∃ k, digits = dropTrailingZeros digits ++ List.replicate k '0' := by
  refine ⟨(digits.reverse.takeWhile (· == '0')).length, ?_⟩
  have hzeros : digits.reverse.takeWhile (· == '0') =
      List.replicate (digits.reverse.takeWhile (· == '0')).length '0' := by
    apply List.eq_replicate_of_mem
    intro c hc
    have hzero := List.mem_takeWhile_imp (p := (· == '0')) hc
    exact eq_of_beq hzero
  have hsplit := List.takeWhile_append_dropWhile (p := (· == '0')) (l := digits.reverse)
  rw [hzeros] at hsplit
  have hreverse := congrArg List.reverse hsplit
  rw [List.reverse_append, List.reverse_replicate, List.reverse_reverse] at hreverse
  exact hreverse.symm

lemma ofDigitChars_zeros_append (k : Nat) (digits : List Char) :
    Nat.ofDigitChars 10 (List.replicate k '0' ++ digits) 0 = Nat.ofDigitChars 10 digits 0 := by
  rw [Nat.ofDigitChars_append, Nat.ofDigitChars_replicate_zero, Nat.mul_zero]

lemma ofDigitChars_append_zeros (k : Nat) (digits : List Char) :
    Nat.ofDigitChars 10 (digits ++ List.replicate k '0') 0 =
      10 ^ k * Nat.ofDigitChars 10 digits 0 := by
  rw [Nat.ofDigitChars_append, Nat.ofDigitChars_replicate_zero]

/-- A decimal made from a count is that many grains. -/
theorem value_ofGrains (count : Nat) : (ofGrains count).value = count * grain := by
  obtain ⟨k, hk⟩ := exists_dropTrailingZeros (Nat.toDigits 10 count)
  have hcount : count = 10 ^ k * Nat.ofDigitChars 10 (ofGrains count).digits 0 := by
    rw [← ofDigitChars_append_zeros]
    show count = Nat.ofDigitChars 10 (dropTrailingZeros _ ++ _) 0
    rw [← hk, Nat.ofDigitChars_ten_toDigits]
  have hexponent : (ofGrains count).exponent + 1 - (ofGrains count).digits.length = k + -1074 := by
    have hlength := congrArg List.length hk
    rw [List.length_append, List.length_replicate] at hlength
    show ((Nat.toDigits 10 count).length : ℤ) - 1075 + 1 - (dropTrailingZeros _).length = _
    omega
  have hcast : (count : ℚ) = 10 ^ k * (Nat.ofDigitChars 10 (ofGrains count).digits 0 : ℚ) := by
    exact_mod_cast hcount
  rw [value, hexponent, zpow_add₀ (by norm_num), zpow_natCast, hcast, grain]
  ring

lemma isDigit_of_mem_ofGrains (count : Nat) :
    ∀ c ∈ (ofGrains count).digits, c.isDigit = true := by
  intro c hc
  obtain ⟨k, hk⟩ := exists_dropTrailingZeros (Nat.toDigits 10 count)
  have hmem : c ∈ Nat.toDigits 10 count := by
    rw [hk]
    exact List.mem_append_left _ hc
  exact Nat.isDigit_of_mem_toDigits (by decide) (by decide) hmem

lemma digits_ofGrains_ne_nil {count : Nat} (h : count ≠ 0) : (ofGrains count).digits ≠ [] := by
  intro hnil
  have hvalue := value_ofGrains count
  rw [value, hnil, Nat.ofDigitChars_nil, Nat.cast_zero, zero_mul] at hvalue
  have hzero : (count : ℚ) = 0 := (mul_eq_zero.mp hvalue.symm).resolve_right grain_ne_zero
  exact h (by exact_mod_cast hzero)

/-! ## Reading -/

/-- The number that digits before and after a point stand for. -/
def numeral (whole fraction : List Char) : ℚ :=
  Nat.ofDigitChars 10 (whole ++ fraction) 0 * 10 ^ (-(fraction.length : ℤ))

/-- The exponent behind its mark; if there is none, it is zero. -/
def readExponent : List Char → ℤ
  | _ :: '-' :: digits => -(Nat.ofDigitChars 10 digits 0 : ℤ)
  | _ :: _ :: digits => Nat.ofDigitChars 10 digits 0
  | _ => 0

/-- The number that a text stands for. -/
def read (cs : List Char) : ℚ :=
  numeral ((cs.takeWhile (· != 'e')).takeWhile (· != '.'))
      ((cs.takeWhile (· != 'e')).dropWhile (· != '.')).tail *
    10 ^ readExponent (cs.dropWhile (· != 'e'))

lemma bne_of_isDigit {c stop : Char} (hc : c.isDigit = true) (hstop : stop.isDigit = false) :
    (c != stop) = true := by
  rw [bne_iff_ne]
  intro heq
  rw [← heq, hc] at hstop
  cases hstop

/-- Digits with at least one before the point. -/
structure IsNumeral (whole fraction : List Char) : Prop where
  ne_nil : whole ≠ []
  whole : ∀ c ∈ whole, c.isDigit = true
  fraction : ∀ c ∈ fraction, c.isDigit = true

lemma IsNumeral.forall_mem_text {whole fraction : List Char} (h : IsNumeral whole fraction)
    {p : Char → Prop} (hdigit : ∀ c, c.isDigit = true → p c) (hpoint : p '.') :
    ∀ c ∈ (Piece.number whole fraction).text, p c := by
  have hwhole : ∀ c ∈ whole, p c := fun c hc => hdigit c (h.whole c hc)
  have hfraction : ∀ c ∈ fraction, p c := fun c hc => hdigit c (h.fraction c hc)
  cases fraction with
  | nil => exact hwhole
  | cons d ds =>
    show ∀ c ∈ whole ++ '.' :: d :: ds, p c
    rw [List.forall_mem_append, List.forall_mem_cons]
    exact ⟨hwhole, hpoint, hfraction⟩

/-- The digits on either side of the point are read. -/
lemma IsNumeral.numeral_eq {whole fraction : List Char} (h : IsNumeral whole fraction) :
    numeral ((Piece.number whole fraction).text.takeWhile (· != '.'))
      ((Piece.number whole fraction).text.dropWhile (· != '.')).tail = numeral whole fraction := by
  have hwhole : ∀ c ∈ whole, (c != '.') = true := fun c hc => bne_of_isDigit (h.whole c hc) rfl
  cases fraction with
  | nil =>
    have htext : (Piece.number whole []).text = whole := rfl
    rw [htext, List.takeWhile_eq_self_iff.mpr hwhole, List.dropWhile_eq_nil_iff.mpr hwhole]
    rfl
  | cons d ds =>
    have htext : (Piece.number whole (d :: ds)).text = whole ++ '.' :: d :: ds := rfl
    rw [htext, List.takeWhile_append_of_pos hwhole, List.dropWhile_append_of_pos hwhole]
    simp

lemma IsNumeral.bne_mark {whole fraction : List Char} (h : IsNumeral whole fraction) :
    ∀ c ∈ (Piece.number whole fraction).text, (c != 'e') = true :=
  h.forall_mem_text (fun _ hc => bne_of_isDigit hc rfl) rfl

lemma IsNumeral.read_eq {whole fraction : List Char} (h : IsNumeral whole fraction) :
    read (Piece.number whole fraction).text = numeral whole fraction := by
  rw [read, List.takeWhile_eq_self_iff.mpr h.bne_mark, List.dropWhile_eq_nil_iff.mpr h.bne_mark,
    h.numeral_eq]
  exact mul_one _

/-- The exponent that is written is read. -/
lemma readExponent_exponentText (e : ℤ) :
    readExponent ('e' :: (exponentText e).toList) = e := by
  have hdigits : Nat.ofDigitChars 10
      (List.replicate (2 - (Nat.toDigits 10 e.natAbs).length) '0' ++ Nat.toDigits 10 e.natAbs) 0 =
        e.natAbs := by
    rw [ofDigitChars_zeros_append, Nat.ofDigitChars_ten_toDigits]
  unfold exponentText
  by_cases hnegative : e < 0
  · simp only [if_pos hnegative, String.toList_append, String.toList_ofList]
    refine (congrArg (fun n : Nat => -(n : ℤ)) hdigits).trans ?_
    omega
  · simp only [if_neg hnegative, String.toList_append, String.toList_ofList]
    refine (congrArg (fun n : Nat => (n : ℤ)) hdigits).trans ?_
    omega

lemma IsNumeral.read_exponent {whole fraction : List Char} (h : IsNumeral whole fraction) (e : ℤ) :
    read ((Piece.number whole fraction).text ++ 'e' :: (exponentText e).toList) =
      numeral whole fraction * 10 ^ e := by
  rw [read, List.takeWhile_append_of_pos h.bne_mark, List.dropWhile_append_of_pos h.bne_mark,
    List.takeWhile_cons_of_neg (by simp), List.dropWhile_cons_of_neg (by simp), List.append_nil,
    h.numeral_eq, readExponent_exponentText]

/-! ## Writing -/

lemma isDigit_of_mem_zeros (k : Nat) : ∀ c ∈ List.replicate k '0', c.isDigit = true := by
  intro c hc
  rw [List.eq_of_mem_replicate hc]
  rfl

/-- `Lays d cs`: the text `cs` is made of digits, a point if some are behind it, and an exponent if
the digits do not say it all; and it stands for the decimal. -/
inductive Lays (d : Decimal) : List Char → Prop where
  | positional {whole fraction : List Char} :
      IsNumeral whole fraction → numeral whole fraction = d.value →
      Lays d (Piece.number whole fraction).text
  | scientific {whole fraction : List Char} {e : ℤ} :
      IsNumeral whole fraction → numeral whole fraction * 10 ^ e = d.value →
      Lays d ((Piece.number whole fraction).text ++ 'e' :: (exponentText e).toList)

lemma Lays.read_eq {d : Decimal} {cs : List Char} (h : Lays d cs) : read cs = d.value := by
  cases h with
  | positional hnumeral hvalue => rw [hnumeral.read_eq, hvalue]
  | scientific hnumeral hvalue => rw [hnumeral.read_exponent, hvalue]

variable {d : Decimal}

/-- Below one, zeros stand before the digits. -/
lemma exists_numeral_of_neg (hne : d.digits ≠ []) (hdigits : ∀ c ∈ d.digits, c.isDigit = true)
    (hexponent : d.exponent < 0) :
    ∃ whole fraction, (d.positional "").toList = (Piece.number whole fraction).text ∧
      IsNumeral whole fraction ∧ numeral whole fraction = d.value := by
  generalize hzeros : List.replicate ((-d.exponent).toNat - 1) '0' = zeros
  have htext : (d.positional "").toList = (Piece.number ['0'] (zeros ++ d.digits)).text := by
    simp [positional, hexponent, hzeros, Piece.text, hne]
  have hzeros' : ∀ c ∈ zeros, c.isDigit = true := by
    rw [← hzeros]
    exact isDigit_of_mem_zeros _
  have hvalue : Nat.ofDigitChars 10 (['0'] ++ (zeros ++ d.digits)) 0 =
      Nat.ofDigitChars 10 d.digits 0 := by
    rw [← hzeros]
    exact (ofDigitChars_zeros_append 1 _).trans (ofDigitChars_zeros_append _ _)
  have hpower : -((zeros ++ d.digits).length : ℤ) = d.exponent + 1 - d.digits.length := by
    rw [List.length_append, ← hzeros, List.length_replicate]
    omega
  refine ⟨_, _, htext, ⟨by simp, by simp, List.forall_mem_append.mpr ⟨hzeros', hdigits⟩⟩, ?_⟩
  rw [numeral, hvalue, hpower, value]

/-- From one on, the point stands among the digits, or behind zeros that follow them. -/
lemma exists_numeral_of_nonneg (hne : d.digits ≠ []) (hdigits : ∀ c ∈ d.digits, c.isDigit = true)
    (hexponent : ¬d.exponent < 0) :
    ∃ whole fraction, (d.positional "").toList = (Piece.number whole fraction).text ∧
      IsNumeral whole fraction ∧ numeral whole fraction = d.value := by
  generalize hplaces : d.exponent.toNat + 1 = places
  by_cases hlength : d.digits.length ≤ places
  · have htext : (d.positional "").toList = (Piece.number
        (d.digits ++ List.replicate (places - d.digits.length) '0') []).text := by
      simp [positional, hexponent, hplaces, hlength, Piece.text, List.take_of_length_le]
    have hpower : d.exponent + 1 - d.digits.length = (places - d.digits.length : Nat) := by
      omega
    refine ⟨_, _, htext, ⟨by simp [hne],
      List.forall_mem_append.mpr ⟨hdigits, isDigit_of_mem_zeros _⟩, by simp⟩, ?_⟩
    rw [numeral, List.append_nil, ofDigitChars_append_zeros, value, hpower, zpow_natCast]
    push_cast
    simp [mul_comm]
  · have hzeros : places - (d.digits.take places).length = 0 := by
      rw [List.length_take]
      omega
    have htext : (d.positional "").toList =
        (Piece.number (d.digits.take places) (d.digits.drop places)).text := by
      simp only [positional, if_neg hexponent, hplaces, hzeros]
      simp [hlength, Piece.text]
    have hpower : -((d.digits.drop places).length : ℤ) = d.exponent + 1 - d.digits.length := by
      rw [List.length_drop]
      omega
    refine ⟨_, _, htext, ⟨?_, fun c hc => hdigits c (List.mem_of_mem_take hc),
      fun c hc => hdigits c (List.mem_of_mem_drop hc)⟩, ?_⟩
    · simp [hne]
      omega
    · rw [numeral, List.take_append_drop, hpower, value]

/-- A decimal without an exponent is written as the digits of its value. -/
lemma exists_numeral_positional (hne : d.digits ≠ [])
    (hdigits : ∀ c ∈ d.digits, c.isDigit = true) :
    ∃ whole fraction, (d.positional "").toList = (Piece.number whole fraction).text ∧
      IsNumeral whole fraction ∧ numeral whole fraction = d.value := by
  by_cases hexponent : d.exponent < 0
  · exact exists_numeral_of_neg hne hdigits hexponent
  · exact exists_numeral_of_nonneg hne hdigits hexponent

lemma toList_scientific (d : Decimal) :
    d.scientific.toList = (Piece.number (d.digits.take 1) (d.digits.drop 1)).text ++
      'e' :: (exponentText d.exponent).toList := by
  unfold scientific
  cases hafter : d.digits.drop 1 with
  | nil => simp [Piece.text]
  | cons c cs => simp [Piece.text]

lemma isNumeral_mantissa (hne : d.digits ≠ []) (hdigits : ∀ c ∈ d.digits, c.isDigit = true) :
    IsNumeral (d.digits.take 1) (d.digits.drop 1) :=
  ⟨by simp [hne], fun c hc => hdigits c (List.mem_of_mem_take hc),
    fun c hc => hdigits c (List.mem_of_mem_drop hc)⟩

lemma numeral_mantissa (hne : d.digits ≠ []) :
    numeral (d.digits.take 1) (d.digits.drop 1) * 10 ^ d.exponent = d.value := by
  have hpower : -((d.digits.drop 1).length : ℤ) + d.exponent =
      d.exponent + 1 - d.digits.length := by
    have hpos := List.length_pos_of_ne_nil hne
    rw [List.length_drop]
    omega
  rw [numeral, List.take_append_drop, mul_assoc, ← zpow_add₀ (by norm_num), hpower, value]

/-! ## Characters -/

/-- The characters that texts of numbers are made of. -/
def isNumeric (c : Char) : Bool :=
  c.isAlphanum || c == '.' || c == '+' || c == '-'

lemma isNumeric_of_isDigit {c : Char} (h : c.isDigit = true) : isNumeric c = true := by
  simp [isNumeric, Char.isAlphanum, h]

lemma IsNumeral.isNumeric {whole fraction : List Char} (h : IsNumeral whole fraction) :
    ∀ c ∈ (Piece.number whole fraction).text, isNumeric c = true :=
  h.forall_mem_text (fun _ hc => isNumeric_of_isDigit hc) rfl

lemma isNumeric_exponentText (e : ℤ) : ∀ c ∈ (exponentText e).toList, isNumeric c = true := by
  have hdigits : ∀ c ∈ Nat.toDigits 10 e.natAbs, isNumeric c = true := fun c hc =>
    isNumeric_of_isDigit (Nat.isDigit_of_mem_toDigits (by decide) (by decide) hc)
  have hzeros : ∀ c ∈ List.replicate (2 - (Nat.toDigits 10 e.natAbs).length) '0',
      isNumeric c = true := fun c hc => isNumeric_of_isDigit (isDigit_of_mem_zeros _ c hc)
  have hsign : ∀ c ∈ (if e < 0 then "-" else "+").toList, isNumeric c = true := by
    split <;> simp [isNumeric]
  unfold exponentText
  simp only [String.toList_append, String.toList_ofList, List.forall_mem_append]
  exact ⟨hsign, hzeros, hdigits⟩

lemma Lays.isNumeric {d : Decimal} {cs : List Char} (h : Lays d cs) :
    ∀ c ∈ cs, isNumeric c = true := by
  cases h with
  | positional hnumeral _ => exact hnumeral.isNumeric
  | scientific hnumeral _ =>
    rw [List.forall_mem_append, List.forall_mem_cons]
    exact ⟨hnumeral.isNumeric, rfl, isNumeric_exponentText _⟩

lemma IsNumeral.exists_digit {whole fraction : List Char} (h : IsNumeral whole fraction) :
    ∃ c cs, (Piece.number whole fraction).text = c :: cs ∧ c.isDigit = true := by
  cases whole with
  | nil => exact absurd rfl h.ne_nil
  | cons c cs =>
    have hdigit := h.whole c List.mem_cons_self
    cases fraction with
    | nil => exact ⟨c, cs, rfl, hdigit⟩
    | cons d ds => exact ⟨c, cs ++ '.' :: d :: ds, rfl, hdigit⟩

lemma Lays.exists_digit {d : Decimal} {cs : List Char} (h : Lays d cs) :
    ∃ c rest, cs = c :: rest ∧ c.isDigit = true := by
  cases h with
  | positional hnumeral _ => exact hnumeral.exists_digit
  | @scientific whole fraction e hnumeral _ =>
    obtain ⟨c, rest, htext, hdigit⟩ := hnumeral.exists_digit
    refine ⟨c, rest ++ 'e' :: (exponentText e).toList, ?_, hdigit⟩
    rw [htext]
    rfl

end Decimal

/-! ## The bits of a number -/

namespace Binary64

open Float.Model (Format)
open Float.Model.UnpackedFloat

lemma unpackExponent_eq_iff (b : BitVec 64) :
    @unpackExponent Format.binary64 b = -1#11 ↔ b.toNat / pow2 52 % 2048 = 2047 := by
  rw [unpackExponent_def, ← BitVec.toNat_inj, BitVec.extractLsb'_toNat, Nat.shiftRight_eq_div_pow]
  rfl

lemma unpackMantissa_eq_iff (b : BitVec 64) :
    @unpackMantissa Format.binary64 b = 0#52 ↔ b.toNat % pow2 52 = 0 := by
  rw [unpackMantissa_def, ← BitVec.toNat_inj, BitVec.extractLsb'_toNat, Nat.shiftRight_zero]
  rfl

/-- What is no number has bits above those of infinity. -/
lemma isNaNBits_iff (b : BitVec 64) :
    @isNaNBits Format.binary64 b = true ↔ infinityBits < b.toNat % pow2 63 := by
  have hbits : pow2 52 = 4503599627370496 := by decide
  have hsign : pow2 63 = 9223372036854775808 := by decide
  rw [isNaNBits, decide_eq_true_iff, unpackExponent_eq_iff, ne_eq, unpackMantissa_eq_iff,
    infinityBits, hbits, hsign]
  omega

lemma isNaN_iff_isNaNBits (x : Float) :
    x.isNaN = true ↔ @isNaNBits Format.binary64 x.toBits.toBitVec = true := by
  have hunpack := isNaN_unpack_iff_of_valid x.toModel.valid
  constructor
  · intro h
    have hbits : x.toBits.toBitVec = packedNaN Format.binary64 := hunpack.mp h
    rw [hbits]
    exact isNaNBits_packedNaN
  · intro h
    have hfields := of_decide_eq_true h
    exact hunpack.mpr (x.toModel.valid.eq_packedNaN hfields.1 hfields.2)

lemma magnitude_le {x : Float} (h : x.isNaN = false) : magnitude x ≤ infinityBits := by
  apply Nat.le_of_not_lt
  intro hlt
  have hnan : x.isNaN = true := (isNaN_iff_isNaNBits x).mpr ((isNaNBits_iff _).mpr hlt)
  rw [h] at hnan
  cases hnan

/-- A number is its sign and its magnitude. -/
lemma eq_of_magnitude_eq {x y : Float} (hsign : isNegative x = isNegative y)
    (h : magnitude x = magnitude y) : x = y := by
  have hx := x.toBits.toNat_lt
  have hy := y.toBits.toNat_lt
  have hpow : pow2 63 = 9223372036854775808 := by decide
  unfold isNegative at hsign
  unfold magnitude at h
  rw [hpow] at hsign h
  rw [decide_eq_decide] at hsign
  rw [← Float.toBits_inj, ← UInt64.toNat_inj]
  omega

end Binary64

/-! ## Texts of values -/

namespace NumberStyle

open Binary64 (infinityBits isNegative magnitude nearestBits)

lemma lays_shortest {count : Nat} (h : count ≠ 0) :
    Decimal.Lays (.ofGrains count)
      (if (Decimal.ofGrains count).isPositional then (Decimal.ofGrains count).positional ""
        else (Decimal.ofGrains count).scientific).toList := by
  have hne := Decimal.digits_ofGrains_ne_nil h
  have hdigits := Decimal.isDigit_of_mem_ofGrains count
  split
  · obtain ⟨whole, fraction, htext, hnumeral, hvalue⟩ :=
      Decimal.exists_numeral_positional hne hdigits
    rw [htext]
    exact .positional hnumeral hvalue
  · rw [Decimal.toList_scientific]
    exact .scientific (Decimal.isNumeral_mantissa hne hdigits) (Decimal.numeral_mantissa hne)

/-- The text of a finite magnitude that is not zero is that of a decimal that rounds to it. -/
lemma exists_decimal_magnitudeText {bits : Nat} (h : bits < infinityBits) (hzero : bits ≠ 0) :
    ∃ count, count ≠ 0 ∧ Decimal.shortest bits = .ofGrains count ∧
      nearestBits count (pow10 1074) = bits ∧
      value.magnitudeText bits =
        if (Decimal.ofGrains count).isPositional then (Decimal.ofGrains count).positional ""
        else (Decimal.ofGrains count).scientific := by
  obtain ⟨count, hshortest, hnearest⟩ := Decimal.exists_shortest h
  have hcount : count ≠ 0 := Binary64.num_ne_zero (pow10_pos 1074) (hnearest ▸ hzero)
  refine ⟨count, hcount, hshortest, hnearest, ?_⟩
  rw [magnitudeText, if_neg (Nat.ne_of_lt h), if_neg hzero, hshortest]
  rfl

/-- The text of a finite magnitude stands for a decimal that rounds to the magnitude. -/
theorem exists_lays_magnitudeText {bits : Nat} (h : bits < infinityBits) :
    ∃ count, Decimal.Lays (.ofGrains count) (value.magnitudeText bits).toList ∧
      nearestBits count (pow10 1074) = bits := by
  by_cases hzero : bits = 0
  · have htext : (value.magnitudeText 0).toList = (Piece.number ['0'] []).text := rfl
    have hvalue : Decimal.numeral ['0'] [] = (Decimal.ofGrains 0).value := by
      rw [Decimal.value_ofGrains]
      simp [Decimal.numeral, Nat.ofDigitChars]
    rw [hzero, htext]
    exact ⟨0, .positional ⟨by simp, by simp, by simp⟩ hvalue,
      Binary64.nearestBits_zero (pow10_pos 1074)⟩
  · obtain ⟨count, hcount, -, hnearest, htext⟩ := exists_decimal_magnitudeText h hzero
    rw [htext]
    exact ⟨count, lays_shortest hcount, hnearest⟩

lemma magnitudeText_infinity :
    (value.magnitudeText infinityBits).toList = ['I', 'n', 'f', 'i', 'n', 'i', 't', 'y'] :=
  rfl

/-- Texts of magnitudes start with a digit or the letter that infinity starts with. -/
lemma exists_head_magnitudeText {bits : Nat} (h : bits ≤ infinityBits) :
    ∃ c cs, (value.magnitudeText bits).toList = c :: cs ∧ (c.isDigit = true ∨ c = 'I') := by
  by_cases hinfinity : bits = infinityBits
  · rw [hinfinity]
    exact ⟨'I', _, magnitudeText_infinity, .inr rfl⟩
  · obtain ⟨count, hlays, -⟩ := exists_lays_magnitudeText (Nat.lt_of_le_of_ne h hinfinity)
    obtain ⟨c, cs, htext, hdigit⟩ := hlays.exists_digit
    exact ⟨c, cs, htext, .inl hdigit⟩

lemma isNumeric_magnitudeText {bits : Nat} (h : bits ≤ infinityBits) :
    ∀ c ∈ (value.magnitudeText bits).toList, Decimal.isNumeric c = true := by
  by_cases hinfinity : bits = infinityBits
  · rw [hinfinity, magnitudeText_infinity]
    simp [Decimal.isNumeric, Char.isAlphanum, Char.isAlpha, Char.isUpper, Char.isLower]
  · obtain ⟨count, hlays, -⟩ := exists_lays_magnitudeText (Nat.lt_of_le_of_ne h hinfinity)
    exact hlays.isNumeric

lemma magnitudeText_ne_infinity {bits : Nat} (h : bits < infinityBits) :
    value.magnitudeText bits ≠ value.magnitudeText infinityBits := by
  intro heq
  obtain ⟨count, hlays, -⟩ := exists_lays_magnitudeText h
  obtain ⟨c, cs, htext, hdigit⟩ := hlays.exists_digit
  rw [heq, magnitudeText_infinity] at htext
  have hc : 'I' = c := (List.cons.inj htext).1
  rw [← hc] at hdigit
  exact absurd hdigit (by decide)

/-- Distinct magnitudes have distinct texts. -/
theorem magnitudeText_injective {a b : Nat} (ha : a ≤ infinityBits) (hb : b ≤ infinityBits)
    (h : value.magnitudeText a = value.magnitudeText b) : a = b := by
  by_cases hainfinity : a = infinityBits
  · by_contra hne
    have hfinite : b < infinityBits :=
      Nat.lt_of_le_of_ne hb fun hb => hne (hainfinity.trans hb.symm)
    rw [hainfinity] at h
    exact magnitudeText_ne_infinity hfinite h.symm
  by_cases hbinfinity : b = infinityBits
  · rw [hbinfinity] at h
    exact absurd h (magnitudeText_ne_infinity (Nat.lt_of_le_of_ne ha hainfinity))
  obtain ⟨m, hlaysA, hnearestA⟩ := exists_lays_magnitudeText (Nat.lt_of_le_of_ne ha hainfinity)
  obtain ⟨n, hlaysB, hnearestB⟩ := exists_lays_magnitudeText (Nat.lt_of_le_of_ne hb hbinfinity)
  -- The one text stands for both decimals, so they are the same number of grains.
  have hvalue : (m : ℚ) * Decimal.grain = n * Decimal.grain := by
    rw [← Decimal.value_ofGrains, ← Decimal.value_ofGrains, ← hlaysA.read_eq, ← hlaysB.read_eq, h]
  have hcount : m = n := by
    exact_mod_cast mul_right_cancel₀ Decimal.grain_ne_zero hvalue
  rw [← hnearestA, ← hnearestB, hcount]

lemma text_of_not_isNaN {x : Float} (h : x.isNaN = false) :
    (value.text x).toList =
      (if isNegative x then ['-'] else []) ++ (value.magnitudeText (magnitude x)).toList := by
  unfold text
  rw [if_neg (Bool.eq_false_iff.mp h), String.toList_append]
  split <;> rfl

/-- A text starts with a sign exactly if the number is negative. -/
lemma exists_head_text {x : Float} (h : x.isNaN = false) :
    ∃ c cs, (value.text x).toList = c :: cs ∧ (c = '-' ∨ c.isDigit = true ∨ c = 'I') ∧
      (isNegative x = true ↔ c = '-') := by
  rw [text_of_not_isNaN h]
  cases hsign : isNegative x with
  | true => exact ⟨'-', _, rfl, .inl rfl, by simp⟩
  | false =>
    obtain ⟨c, cs, htext, hc⟩ := exists_head_magnitudeText (Binary64.magnitude_le h)
    have hminus : c ≠ '-' := by
      intro hc'
      rw [hc'] at hc
      exact absurd hc (by decide)
    exact ⟨c, cs, htext, .inr hc, by simp [hminus]⟩

lemma isNumeric_text {x : Float} (h : x.isNaN = false) :
    ∀ c ∈ (value.text x).toList, Decimal.isNumeric c = true := by
  rw [text_of_not_isNaN h, List.forall_mem_append]
  refine ⟨?_, isNumeric_magnitudeText (Binary64.magnitude_le h)⟩
  split <;> simp [Decimal.isNumeric]

/-- Distinct numbers have distinct texts. -/
theorem text_injective {x y : Float} (hx : x.isNaN = false) (hy : y.isNaN = false)
    (h : value.text x = value.text y) : x = y := by
  have hsign : isNegative x = isNegative y := by
    obtain ⟨c, cs, hcs, -, hc⟩ := exists_head_text hx
    obtain ⟨d, ds, hds, -, hd⟩ := exists_head_text hy
    rw [h, hds] at hcs
    have hhead : d = c := (List.cons.inj hcs).1
    rw [Bool.eq_iff_iff, hc, hd, hhead]
  apply Binary64.eq_of_magnitude_eq hsign
  apply magnitudeText_injective (Binary64.magnitude_le hx) (Binary64.magnitude_le hy)
  have htext := congrArg String.toList h
  rw [text_of_not_isNaN hx, text_of_not_isNaN hy, hsign] at htext
  exact String.toList_inj.mp (List.append_cancel_left htext)

end NumberStyle
end LoxCalc
