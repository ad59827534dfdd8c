import LoxCalc.Number.Shortest

/-!
# Numbers as text

How a number is written: its shortest decimal, positionally when the exponent is moderate and in
scientific form otherwise. A `NumberStyle` holds the few decisions in which the two listings of a
number differ.
-/

namespace LoxCalc

namespace Decimal

/-- Whether a decimal is written without an exponent. -/
def isPositional (d : Decimal) : Bool :=
  -4 ≤ d.exponent && d.exponent < 16

/-- A decimal without an exponent; `whole` ends the text of a whole number. -/
def positional (whole : String) (d : Decimal) : String :=
  if d.exponent < 0 then
    let zeros := List.replicate ((-d.exponent).toNat - 1) '0'
    "0." ++ String.ofList (zeros ++ d.digits)
  else
    let places := d.exponent.toNat + 1
    let before := d.digits.take places
    let after := d.digits.drop places
    let zeros := List.replicate (places - before.length) '0'
    let front := String.ofList (before ++ zeros)
    if after.isEmpty then front ++ whole else front ++ "." ++ String.ofList after

/-- The exponent of the scientific form: its sign, and at least two digits. -/
def exponentText (e : Int) : String :=
  let sign := if e < 0 then "-" else "+"
  let digits := Nat.toDigits 10 e.natAbs
  sign ++ String.ofList (List.replicate (2 - digits.length) '0' ++ digits)

/-- A decimal with one digit before the point and an exponent. -/
def scientific (d : Decimal) : String :=
  let front := String.ofList (d.digits.take 1)
  let after := d.digits.drop 1
  let point := if after.isEmpty then "" else "."
  front ++ point ++ String.ofList after ++ "e" ++ exponentText d.exponent

end Decimal

/-- What may differ from one listing of numbers to another. -/
structure NumberStyle where
  /-- What ends the text of a whole number written positionally. -/
  whole : String
  /-- The text of a number that is none. -/
  notANumber : String
  /-- The text of infinity, without its sign. -/
  infinity : String

namespace NumberStyle

/-- Numbers as values: `1`, `NaN`, `-Infinity`. -/
def value : NumberStyle := ⟨"", "NaN", "Infinity"⟩

/-- Numbers in a listing of tokens: `1.0`, `nan`, `-inf`. -/
def listing : NumberStyle := ⟨".0", "nan", "inf"⟩

/-- The text of the magnitude with the given bits, which are not those of a NaN. -/
def magnitudeText (style : NumberStyle) (bits : Nat) : String :=
  if bits = Binary64.infinityBits then style.infinity
  else if bits = 0 then "0" ++ style.whole
  else
    let d := Decimal.shortest bits
    if d.isPositional then d.positional style.whole else d.scientific

/-- The text of a number. -/
def text (style : NumberStyle) (x : Float) : String :=
  if x.isNaN then style.notANumber
  else (if Binary64.isNegative x then "-" else "") ++ style.magnitudeText (Binary64.magnitude x)

end NumberStyle
end LoxCalc
