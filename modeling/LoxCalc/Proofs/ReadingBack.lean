import LoxCalc.Proofs.Equality
import LoxCalc.Proofs.Lines
import LoxCalc.Proofs.ParseGrammar
import LoxCalc.Proofs.PieceEnds
import LoxCalc.Proofs.Rounding

/-!
# Texts of values as sources

The text of a value that is no string can be read as a source, and gives the value back unless it
is a number that is not finite or is written with an exponent (`Value.yields_text_iff`). A text is
cut into a sign, a numeral and, behind that, the pieces of an exponent, whose mark is a word by
itself: so the expression ends before it, and only the mantissa is read. The numeral without an
exponent stands for the decimal that was written, which rounds to the number. A mantissa is between
one and ten, and numbers with an exponent are not.
-/

namespace LoxCalc

open Binary64 (infinityBits isNegative magnitude nearestBits)

/-! ## Sources that have a value -/

namespace Scan

/-- `Yields source v`: scanning the source finds no error, reading its tokens gives a tree, and the
value of the tree is `v`. -/
def Yields (source : String) (v : Value) : Prop :=
  (ofText source).errors = [] ∧ ∃ e, (Expr.parse .standard (ofText source).tokens).tree? = some e ∧
    e.eval .standard = .ok v

lemma Yields.unique {source : String} {v w : Value} (hv : Yields source v)
    (hw : Yields source w) : v = w := by
  obtain ⟨-, e, he, hv⟩ := hv
  obtain ⟨-, f, hf, hw⟩ := hw
  rw [he] at hf
  cases hf
  rw [hv] at hw
  cases hw
  rfl

end Scan

/-- A number with the given sign in front. -/
def signed (negative : Bool) (x : Float) : Float :=
  if negative then -x else x

/-! ## Numerals in a source -/

namespace Piece

/-- The pieces that an exponent is cut into. -/
def exponentPieces (e : Int) : List Piece :=
  let digits := Nat.toDigits 10 e.natAbs
  [.word ['e'], if e < 0 then .mark .minus ['-'] else .mark .plus ['+'],
    .number (List.replicate (2 - digits.length) '0' ++ digits) []]

lemma flatMap_text_exponentPieces (e : Int) :
    (exponentPieces e).flatMap text = 'e' :: (Decimal.exponentText e).toList := by
  unfold exponentPieces Decimal.exponentText
  split_ifs <;> simp [text]

/-- A numeral is cut off before anything but a digit and a point. -/
lemma endsBefore_of_isNumeral {whole fraction after : List Char}
    (h : Decimal.IsNumeral whole fraction) (hdigit : goesOn Char.isDigit after = false)
    (hpoint : goesOn (· == '.') after = false) : (number whole fraction).EndsBefore after := by
  obtain ⟨hne, hwhole, hfraction⟩ := h
  cases whole with
  | nil => exact absurd rfl hne
  | cons c digits =>
    rw [List.forall_mem_cons] at hwhole
    cases fraction with
    | nil =>
      refine .whole hwhole.1 hwhole.2 hdigit ?_
      rintro tail rfl
      cases hpoint
    | cons d fraction =>
      rw [List.forall_mem_cons] at hfraction
      exact .decimal hwhole.1 hwhole.2 hfraction.1 hfraction.2 hdigit

lemma isNumeral_exponent (e : Int) :
    Decimal.IsNumeral (List.replicate (2 - (Nat.toDigits 10 e.natAbs).length) '0' ++
      Nat.toDigits 10 e.natAbs) [] := by
  refine ⟨?_, List.forall_mem_append.mpr ⟨Decimal.isDigit_of_mem_zeros _, ?_⟩, by simp⟩
  · simp
  · intro c hc
    exact Nat.isDigit_of_mem_toDigits (by decide) (by decide) hc

lemma consecutive_exponentPieces (e : Int) : Consecutive (exponentPieces e) := by
  have hnumber : EndsBefore _ [] := endsBefore_of_isNumeral (isNumeral_exponent e) rfl rfl
  unfold exponentPieces
  split_ifs
  · exact ⟨.word rfl (by simp) rfl, .mark rfl, hnumber, trivial⟩
  · exact ⟨.word rfl (by simp) rfl, .mark rfl, hnumber, trivial⟩

/-- `Trails after`: the pieces `after` are nothing or an exponent. -/
inductive Trails : List Piece → Prop where
  | nothing : Trails []
  | exponent (e : Int) : Trails (exponentPieces e)

section

variable {whole fraction : List Char} {after : List Piece}

lemma Trails.consecutive (h : Trails after) (hnumeral : Decimal.IsNumeral whole fraction) :
    Consecutive (.number whole fraction :: after) := by
  cases h with
  | nothing => exact ⟨endsBefore_of_isNumeral hnumeral rfl rfl, trivial⟩
  | exponent e =>
    exact ⟨endsBefore_of_isNumeral hnumeral rfl rfl, consecutive_exponentPieces e⟩

lemma Trails.errors_eq_nil (h : Trails after) (line : Nat) :
    readOff error? line (.number whole fraction :: after) = [] := by
  cases h with
  | nothing => rfl
  | exponent e =>
    unfold exponentPieces
    split_ifs <;> rfl

/-- What follows a number does not go on with an expression. -/
lemma Trails.exists_tokens (h : Trails after) (line : Nat) (last : Int) :
    ∃ (t u : Token) (rest : List Token),
      readOff token? line (.number whole fraction :: after) ++ [.endOfInput last] =
        t :: u :: rest ∧
      t.kind = .number ∧ t.value = .number (numberValue whole fraction) ∧
      u.kind.level? = none := by
  cases h with
  | nothing => exact ⟨_, _, _, rfl, rfl, rfl, rfl⟩
  | exponent e => exact ⟨_, _, _, rfl, rfl, rfl, rfl⟩

end

end Piece

namespace Scan

open Grammar (Derives)

/-- A phrase is read and evaluated if what follows it does not go on with it. -/
lemma yields_of_derives {source : String} {us rest : List Token} {t : Token} {e : Expr} {v : Value}
    (hderives : Derives .equality us e) (herrors : (ofText source).errors = [])
    (htokens : (ofText source).tokens = us ++ t :: rest) (hlevel : t.kind.level? = none)
    (hframes : Limit.standard.allows e.readingFrames = true) (hvalue : e.eval .standard = .ok v) :
    Yields source v := by
  refine ⟨herrors, e, ?_, hvalue⟩
  rw [htokens, Expr.parse_of_derives .standard hderives hframes hlevel rest]
  rfl

/-- A numeral, with a sign or without, is read as the number nearest to it, whether an exponent
follows or not. -/
theorem yields_numeral {source : String} {negative : Bool} {whole fraction : List Char}
    {after : List Piece} (hnumeral : Decimal.IsNumeral whole fraction) (hafter : Piece.Trails after)
    (hsource : source.toList = (if negative then ['-'] else []) ++
      ((Piece.number whole fraction).text ++ after.flatMap Piece.text)) :
    Yields source (.number (signed negative (Piece.numberValue whole fraction))) := by
  have hconsecutive := hafter.consecutive hnumeral
  cases negative with
  | false =>
    have hpieces : Piece.ofText source.toList = .number whole fraction :: after :=
      Piece.ofText_eq_iff.mpr ⟨hconsecutive, hsource.symm⟩
    obtain ⟨t, u, rest, htokens, hkind, hvalue, hlevel⟩ :=
      hafter.exists_tokens 1 (1 + source.toList.count '\n')
    have hderives : Derives .equality [t] (.literal t.value) :=
      .loosen (.carried (.inl hkind)) (by decide)
    have herrors : (ofText source).errors = [] := by
      rw [errors_ofText, hpieces, hafter.errors_eq_nil]
    rw [← hpieces] at htokens
    exact yields_of_derives hderives herrors htokens hlevel rfl (congrArg Except.ok hvalue)
  | true =>
    have hpieces : Piece.ofText source.toList =
        .mark .minus ['-'] :: .number whole fraction :: after :=
      Piece.ofText_eq_iff.mpr ⟨⟨.mark rfl, hconsecutive⟩, hsource.symm⟩
    obtain ⟨t, u, rest, htokens, hkind, hvalue, hlevel⟩ :=
      hafter.exists_tokens 1 (1 + source.toList.count '\n')
    have hderives : Derives .equality [⟨.minus, "-", none, 1⟩, t]
        (.unary ⟨.minus, "-", none, 1⟩ (.literal t.value)) :=
      .loosen (.prefixed (.inr rfl) (.loosen (.carried (.inl hkind)) (by decide))) (by decide)
    have herrors : (ofText source).errors = [] := by
      rw [errors_ofText, hpieces, Piece.readOff_cons]
      exact hafter.errors_eq_nil 1
    have hsigned : (ofText source).tokens = ⟨.minus, "-", none, 1⟩ :: t :: u :: rest := by
      rw [tokens_ofText, hpieces, Piece.readOff_cons, List.append_assoc]
      exact congrArg (_ :: ·) htokens
    have heval : (Expr.unary ⟨.minus, "-", none, 1⟩ (.literal t.value)).eval .standard =
        .ok (.number (-Piece.numberValue whole fraction)) := by
      rw [hvalue]
      rfl
    exact yields_of_derives hderives herrors hsigned hlevel rfl heval

end Scan

/-! ## What numerals stand for -/

namespace Decimal

lemma cast_pow10 (k : Nat) : (pow10 k : ℚ) = 10 ^ k :=
  Nat.cast_pow 10 k

lemma numeral_eq_div (whole fraction : List Char) :
    numeral whole fraction =
      (Piece.digitsValue (whole ++ fraction) : ℚ) / (pow10 fraction.length : Nat) := by
  rw [numeral, Nat.ofDigitChars_eq_foldl, cast_pow10, zpow_neg, zpow_natCast, div_eq_mul_inv]
  rfl

lemma value_ofGrains_eq_div (count : Nat) :
    (ofGrains count).value = (count : ℚ) / (pow10 1074 : Nat) := by
  rw [value_ofGrains, grain, cast_pow10, zpow_neg, zpow_ofNat, div_eq_mul_inv]

/-- A numeral that is a number of grains rounds as these do. -/
lemma magnitude_numberValue {whole fraction : List Char} {count : Nat}
    (h : numeral whole fraction = (ofGrains count).value) :
    magnitude (Piece.numberValue whole fraction) = nearestBits count (pow10 1074) := by
  rw [numeral_eq_div, value_ofGrains_eq_div] at h
  rw [Piece.numberValue, Binary64.magnitude_nearest]
  exact Binary64.nearestBits_congr (pow10_pos _) (pow10_pos _) h

lemma isPositional_iff (d : Decimal) :
    d.isPositional = true ↔ -4 ≤ d.exponent ∧ d.exponent < 16 := by
  simp [isPositional]

/-! ## Mantissas -/

/-- The number that the digits of a decimal stand for with one of them before the point. -/
def mantissa (d : Decimal) : Float :=
  Piece.numberValue (d.digits.take 1) (d.digits.drop 1)

section

variable {count : Nat}

lemma pow_le_of_ne_zero (h : count ≠ 0) :
    10 ^ ((Nat.toDigits 10 count).length - 1) ≤ count := by
  by_cases hone : (Nat.toDigits 10 count).length - 1 = 0
  · rw [hone]
    exact Nat.one_le_iff_ne_zero.mpr h
  · have hlonger : ¬(Nat.toDigits 10 count).length ≤ (Nat.toDigits 10 count).length - 1 := by omega
    rw [Nat.length_toDigits_le_iff (by decide) (Nat.pos_of_ne_zero hone)] at hlonger
    exact Nat.not_lt.mp hlonger

lemma lt_pow_length (count : Nat) : count < 10 ^ (Nat.toDigits 10 count).length :=
  (Nat.length_toDigits_le_iff (by decide) Nat.length_toDigits_pos).mp (Nat.le_refl _)

/-- A decimal is at least its power of ten. -/
lemma zpow_exponent_le (h : count ≠ 0) :
    (10 : ℚ) ^ (ofGrains count).exponent ≤ (ofGrains count).value := by
  have hpos : 0 < (Nat.toDigits 10 count).length := Nat.length_toDigits_pos
  have hexponent : (ofGrains count).exponent =
      ((Nat.toDigits 10 count).length - 1 : Nat) + -1074 := by
    show ((Nat.toDigits 10 count).length : ℤ) - 1075 = _
    omega
  have hcount : ((10 ^ ((Nat.toDigits 10 count).length - 1) : Nat) : ℚ) ≤ count :=
    Nat.cast_le.mpr (pow_le_of_ne_zero h)
  rw [value_ofGrains, hexponent, zpow_add₀ (by norm_num), zpow_natCast, grain]
  rw [Nat.cast_pow] at hcount
  exact mul_le_mul_of_nonneg_right hcount (by positivity)

/-- A decimal is less than the next power of ten. -/
lemma value_lt_zpow (count : Nat) :
    (ofGrains count).value < (10 : ℚ) ^ ((ofGrains count).exponent + 1) := by
  have hexponent : (ofGrains count).exponent + 1 = (Nat.toDigits 10 count).length + -1074 := by
    show ((Nat.toDigits 10 count).length : ℤ) - 1075 + 1 = _
    omega
  have hcount : (count : ℚ) < ((10 ^ (Nat.toDigits 10 count).length : Nat) : ℚ) :=
    Nat.cast_lt.mpr (lt_pow_length count)
  rw [value_ofGrains, hexponent, zpow_add₀ (by norm_num), zpow_natCast, grain]
  rw [Nat.cast_pow] at hcount
  exact mul_lt_mul_of_pos_right hcount (by positivity)

/-- One digit stands before the point of a mantissa, and it is not zero. -/
lemma numeral_mantissa_bounds (h : count ≠ 0) :
    1 ≤ numeral ((ofGrains count).digits.take 1) ((ofGrains count).digits.drop 1) ∧
      numeral ((ofGrains count).digits.take 1) ((ofGrains count).digits.drop 1) < 10 := by
  have hpos : (0 : ℚ) < 10 ^ (ofGrains count).exponent := by positivity
  have hlow := zpow_exponent_le h
  have hhigh := value_lt_zpow count
  rw [← numeral_mantissa (digits_ofGrains_ne_nil h)] at hlow hhigh
  rw [zpow_add_one₀ (by norm_num), mul_comm ((10 : ℚ) ^ _) 10] at hhigh
  exact ⟨le_of_mul_le_mul_right (by rwa [one_mul]) hpos, lt_of_mul_lt_mul_right hhigh hpos.le⟩

lemma magnitude_mantissa_bounds (h : count ≠ 0) :
    nearestBits 1 1 ≤ magnitude (ofGrains count).mantissa ∧
      magnitude (ofGrains count).mantissa ≤ nearestBits 10 1 := by
  obtain ⟨hlow, hhigh⟩ := numeral_mantissa_bounds h
  rw [numeral_eq_div] at hlow hhigh
  rw [mantissa, Piece.numberValue, Binary64.magnitude_nearest]
  constructor
  · exact Binary64.nearestBits_mono Nat.one_pos (pow10_pos _) (by simpa using hlow)
  · exact Binary64.nearestBits_mono (pow10_pos _) Nat.one_pos (by simpa using hhigh.le)

/-- A mantissa is another number if the exponent is not moderate. -/
theorem magnitude_mantissa_ne (h : count ≠ 0)
    (hexponent : ¬(-4 ≤ (ofGrains count).exponent ∧ (ofGrains count).exponent < 16)) :
    magnitude (ofGrains count).mantissa ≠ nearestBits count (pow10 1074) := by
  obtain ⟨hlow, hhigh⟩ := magnitude_mantissa_bounds h
  have hvalue := value_ofGrains_eq_div count
  by_cases hlarge : 16 ≤ (ofGrains count).exponent
  · -- The number is at least `10 ^ 16`, and the mantissa is below ten.
    have hbound : ((10 ^ 16 : Nat) : ℚ) / (1 : Nat) ≤ count / (pow10 1074 : Nat) := by
      rw [← hvalue, Nat.cast_one, div_one, Nat.cast_pow, ← zpow_natCast]
      exact (zpow_le_zpow_right₀ (by norm_num) hlarge).trans (zpow_exponent_le h)
    have hbits := Binary64.nearestBits_mono Nat.one_pos (pow10_pos 1074) hbound
    have hconstant : nearestBits 10 1 < nearestBits (10 ^ 16) 1 := by decide +kernel
    exact (hhigh.trans_lt (hconstant.trans_le hbits)).ne
  · -- The number is below `10 ^ -4`, and the mantissa is at least one.
    have hsmall : (ofGrains count).exponent + 1 ≤ -4 := by omega
    have hbound : (count : ℚ) / (pow10 1074 : Nat) ≤ (1 : Nat) / (10 ^ 4 : Nat) := by
      rw [← hvalue, Nat.cast_one, Nat.cast_pow, ← zpow_natCast, one_div, ← zpow_neg]
      exact (value_lt_zpow count).le.trans (zpow_le_zpow_right₀ (by norm_num) hsmall)
    have hbits := Binary64.nearestBits_mono (pow10_pos 1074) (by decide) hbound
    have hconstant : nearestBits 1 (10 ^ 4) < nearestBits 1 1 := by decide +kernel
    exact ((hbits.trans_lt hconstant).trans_le hlow).ne'

end

end Decimal

/-! ## Signs -/

section

variable {x y : Float}

lemma magnitude_signed (negative : Bool) (h : x.isNaN = false) :
    magnitude (signed negative x) = magnitude x := by
  cases negative with
  | false => rfl
  | true => exact Binary64.magnitude_neg h

/-- A number is its magnitude with its sign in front. -/
lemma signed_isNegative (hy : y.isNaN = false) (hpositive : isNegative y = false)
    (h : magnitude y = magnitude x) : signed (isNegative x) y = x := by
  apply Binary64.eq_of_magnitude_eq
  · cases hx : isNegative x with
    | false => exact hpositive
    | true =>
      show isNegative (-y) = true
      rw [Binary64.isNegative_neg hy, hpositive]
      rfl
  · rw [magnitude_signed _ hy, h]

end

/-! ## Texts of numbers -/

namespace NumberStyle

/-- `WrittenPositionally x`: the text of the finite number `x` has no exponent, for `x` is zero or
the exponent of its shortest decimal is moderate. -/
def WrittenPositionally (x : Float) : Prop :=
  magnitude x = 0 ∨ -4 ≤ (Decimal.shortest (magnitude x)).exponent ∧
    (Decimal.shortest (magnitude x)).exponent < 16

instance (x : Float) : Decidable (WrittenPositionally x) :=
  inferInstanceAs (Decidable (_ ∨ _))

/-- The mantissa of a number, with its sign. -/
def signedMantissa (x : Float) : Float :=
  signed (isNegative x) (Decimal.shortest (magnitude x)).mantissa

section

variable {x : Float}

/-- Without an exponent, the text of a number is a numeral that rounds to it. -/
lemma exists_numeral_text (hfinite : x.isFinite = true) (h : WrittenPositionally x) :
    ∃ whole fraction, Decimal.IsNumeral whole fraction ∧
      (value.text x).toList =
        (if isNegative x then ['-'] else []) ++ (Piece.number whole fraction).text ∧
      magnitude (Piece.numberValue whole fraction) = magnitude x := by
  rw [text_of_not_isNaN (Binary64.isNaN_of_isFinite hfinite)]
  by_cases hzero : magnitude x = 0
  · rw [hzero]
    refine ⟨['0'], [], ⟨by simp, by simp, by simp⟩, rfl, ?_⟩
    rw [Piece.numberValue, Binary64.magnitude_nearest]
    exact Binary64.nearestBits_zero (pow10_pos 0)
  · obtain ⟨count, hcount, hshortest, hnearest, htext⟩ :=
      exists_decimal_magnitudeText ((Binary64.isFinite_iff x).mp hfinite) hzero
    obtain ⟨whole, fraction, hpositional, hnumeral, hvalue⟩ := Decimal.exists_numeral_positional
      (Decimal.digits_ofGrains_ne_nil hcount) (Decimal.isDigit_of_mem_ofGrains count)
    have hmoderate := h.resolve_left hzero
    rw [hshortest] at hmoderate
    refine ⟨whole, fraction, hnumeral, ?_, ?_⟩
    · rw [htext, if_pos ((Decimal.isPositional_iff _).mpr hmoderate), hpositional]
    · rw [Decimal.magnitude_numberValue hvalue, hnearest]

/-- With an exponent, it is a mantissa, which is another number, and the exponent. -/
lemma exists_mantissa_text (hfinite : x.isFinite = true) (h : ¬WrittenPositionally x) :
    ∃ whole fraction e, Decimal.IsNumeral whole fraction ∧
      (value.text x).toList = (if isNegative x then ['-'] else []) ++
        ((Piece.number whole fraction).text ++ (Piece.exponentPieces e).flatMap Piece.text) ∧
      signedMantissa x = signed (isNegative x) (Piece.numberValue whole fraction) ∧
      magnitude (Piece.numberValue whole fraction) ≠ magnitude x := by
  obtain ⟨hzero, hextreme⟩ := not_or.mp h
  obtain ⟨count, hcount, hshortest, hnearest, htext⟩ :=
    exists_decimal_magnitudeText ((Binary64.isFinite_iff x).mp hfinite) hzero
  rw [hshortest] at hextreme
  rw [text_of_not_isNaN (Binary64.isNaN_of_isFinite hfinite)]
  refine ⟨_, _, (Decimal.ofGrains count).exponent, Decimal.isNumeral_mantissa
    (Decimal.digits_ofGrains_ne_nil hcount) (Decimal.isDigit_of_mem_ofGrains count), ?_, ?_, ?_⟩
  · rw [htext, if_neg (mt (Decimal.isPositional_iff _).mp hextreme), Decimal.toList_scientific,
      Piece.flatMap_text_exponentPieces]
  · rw [signedMantissa, hshortest, Decimal.mantissa]
  · rw [← hnearest]
    exact Decimal.magnitude_mantissa_ne hcount hextreme

end

end NumberStyle

/-! ## Texts of values -/

namespace Value

open NumberStyle (WrittenPositionally signedMantissa)

lemma yields_text_nil : Scan.Yields (text .nil) .nil :=
  ⟨by cbv, .literal .nil, by cbv, rfl⟩

lemma yields_text_bool (b : Bool) : Scan.Yields (text (.bool b)) (.bool b) := by
  cases b with
  | true => exact ⟨by cbv, .literal (.bool true), by cbv, rfl⟩
  | false => exact ⟨by cbv, .literal (.bool false), by cbv, rfl⟩

section

variable {x : Float}

lemma yields_text_of_writtenPositionally (hfinite : x.isFinite = true)
    (h : WrittenPositionally x) : Scan.Yields (text (.number x)) (.number x) := by
  obtain ⟨whole, fraction, hnumeral, htext, hmagnitude⟩ :=
    NumberStyle.exists_numeral_text hfinite h
  have hsigned : signed (isNegative x) (Piece.numberValue whole fraction) = x :=
    signed_isNegative (Binary64.isNaN_nearest _ _) (Binary64.isNegative_nearest _ _) hmagnitude
  rw [← List.append_nil (Piece.number whole fraction).text] at htext
  have hyields : Scan.Yields (text (.number x)) _ := Scan.yields_numeral hnumeral .nothing htext
  rwa [hsigned] at hyields

/-- Only the mantissa is read of a number with an exponent. -/
lemma yields_signedMantissa (hfinite : x.isFinite = true) (h : ¬WrittenPositionally x) :
    Scan.Yields (text (.number x)) (.number (signedMantissa x)) := by
  obtain ⟨whole, fraction, e, hnumeral, htext, hmantissa, -⟩ :=
    NumberStyle.exists_mantissa_text hfinite h
  rw [hmantissa]
  exact Scan.yields_numeral hnumeral (.exponent e) htext

lemma signedMantissa_not_equal (hfinite : x.isFinite = true) (h : ¬WrittenPositionally x) :
    equals (.number (signedMantissa x)) (.number x) = false := by
  obtain ⟨whole, fraction, e, -, -, hmantissa, hne⟩ := NumberStyle.exists_mantissa_text hfinite h
  have hmagnitude : magnitude (signedMantissa x) ≠ magnitude x := by
    rw [hmantissa, magnitude_signed]
    · exact hne
    · exact Binary64.isNaN_nearest _ _
  rw [Bool.eq_false_iff]
  intro hequal
  rcases (sameNumber_iff _ _).mp hequal with heq | ⟨hleft, hright⟩
  · exact hmagnitude (congrArg magnitude heq)
  · exact hmagnitude (hleft.trans hright.symm)

/-- The mark of an exponent is in the texts of the numbers that have one. -/
lemma mark_mem_text_iff (hfinite : x.isFinite = true) :
    'e' ∈ (text (.number x)).toList ↔ ¬WrittenPositionally x := by
  show 'e' ∈ (NumberStyle.value.text x).toList ↔ _
  by_cases h : WrittenPositionally x
  · obtain ⟨whole, fraction, hnumeral, htext, -⟩ := NumberStyle.exists_numeral_text hfinite h
    have hnumber : 'e' ∉ (Piece.number whole fraction).text := by
      intro hmem
      exact absurd (hnumeral.bne_mark 'e' hmem) (by decide)
    have hsign : 'e' ∉ (if isNegative x then ['-'] else []) := by split <;> simp
    simp [htext, h, hnumber, hsign]
  · obtain ⟨whole, fraction, e, -, htext, -, -⟩ := NumberStyle.exists_mantissa_text hfinite h
    simp [htext, h, Piece.flatMap_text_exponentPieces]

/-- The words for what is not finite are no expressions. -/
lemma tree?_text_of_not_isFinite (h : x.isFinite = false) :
    (Expr.parse .standard (Scan.ofText (text (.number x))).tokens).tree? = none := by
  have hinfinite : infinityBits ≤ magnitude x := by
    rw [← Nat.not_lt, ← Binary64.isFinite_iff, h]
    decide
  cases hnan : x.isNaN with
  | true =>
    have htext : text (.number x) = "NaN" := if_pos hnan
    rw [htext]
    cbv
  | false =>
    have hmagnitude : magnitude x = infinityBits :=
      Nat.le_antisymm (Binary64.magnitude_le hnan) hinfinite
    have htext := NumberStyle.text_of_not_isNaN hnan
    rw [hmagnitude, NumberStyle.magnitudeText_infinity] at htext
    cases hsign : isNegative x with
    | true =>
      rw [hsign] at htext
      have hword : text (.number x) = "-Infinity" := String.toList_inj.mp htext
      rw [hword]
      cbv
    | false =>
      rw [hsign] at htext
      have hword : text (.number x) = "Infinity" := String.toList_inj.mp htext
      rw [hword]
      cbv

end

/-- The text of a value that is no string is a source of that value exactly if the value is no
number, or a finite one that is written without an exponent, which means without its mark. Texts of
numbers that are not finite are read as no tree, and one with an exponent gives, without an error,
the signed mantissa, which is another number. -/
theorem yields_text_iff :
    (∀ v : Value, v.kind ≠ .string →
      (Scan.Yields v.text v ↔ ∀ x, v = .number x → x.isFinite = true ∧ WrittenPositionally x)) ∧
    (∀ x : Float, x.isFinite = true →
      (WrittenPositionally x ↔ 'e' ∉ (text (.number x)).toList)) ∧
    (∀ x : Float, x.isFinite = false →
      (Expr.parse .standard (Scan.ofText (text (.number x))).tokens).tree? = none) ∧
    ∀ x : Float, x.isFinite = true → ¬WrittenPositionally x →
      Scan.Yields (text (.number x)) (.number (signedMantissa x)) ∧
        equals (.number (signedMantissa x)) (.number x) = false := by
  refine ⟨?_, fun x hfinite => by rw [mark_mem_text_iff hfinite, not_not],
    fun x => tree?_text_of_not_isFinite,
    fun x hfinite h => ⟨yields_signedMantissa hfinite h, signedMantissa_not_equal hfinite h⟩⟩
  intro v hkind
  cases v with
  | nil => exact ⟨fun _ => nofun, fun _ => yields_text_nil⟩
  | bool b => exact ⟨fun _ => nofun, fun _ => yields_text_bool b⟩
  | string s => exact absurd rfl hkind
  | number x =>
    simp only [number.injEq, forall_eq']
    constructor
    · intro hyields
      have hfinite : x.isFinite = true := by
        by_contra hnot
        obtain ⟨-, e, htree, -⟩ := hyields
        rw [tree?_text_of_not_isFinite (Bool.eq_false_iff.mpr hnot)] at htree
        cases htree
      refine ⟨hfinite, ?_⟩
      by_contra hnot
      have hdifferent := signedMantissa_not_equal hfinite hnot
      have hsame := (yields_signedMantissa hfinite hnot).unique hyields
      rw [hsame, equals_equivalence.refl] at hdifferent
      cases hdifferent
    · rintro ⟨hfinite, h⟩
      exact yields_text_of_writtenPositionally hfinite h

/-- The sign of a zero is read back, and `-1e+16` is read as minus one. -/
theorem yields_text_iff_zero_and_power :
    Scan.Yields "-0" (.number (-0)) ∧ Scan.Yields "-1e+16" (.number (-1)) := by
  obtain ⟨hvalues, -, -, hexponents⟩ := yields_text_iff
  have hzero : text (.number (-0)) = "-0" := by decide +kernel
  have hpower : text (.number (.ofBits 0xC341C37937E08000)) = "-1e+16" := by decide +kernel
  have hmantissa : signedMantissa (.ofBits 0xC341C37937E08000) = -1 := by decide +kernel
  have hback := (hvalues (.number (-0)) (by decide)).mpr (by rintro x ⟨⟩; exact ⟨rfl, .inl rfl⟩)
  have hcut := (hexponents (.ofBits 0xC341C37937E08000) (by decide +kernel) (by decide +kernel)).1
  rw [hzero] at hback
  rw [hpower, hmantissa] at hcut
  exact ⟨hback, hcut⟩

end Value
end LoxCalc
