/-!
# Binary64 numbers as exact fractions

Every finite binary64 magnitude is a whole number of *units*, a unit being `2 ^ -1074`, the least
positive magnitude. Magnitudes are handled here through their bits below the sign, as natural
numbers, so that everything is exact arithmetic: `units` gives the value of a bit pattern, and
`nearestBits` the bit pattern whose value is nearest to a fraction.
-/

namespace LoxCalc

/-- A power of two. -/
def pow2 (k : Nat) : Nat :=
  Nat.pow 2 k

/-- A power of ten. -/
def pow10 (k : Nat) : Nat :=
  Nat.pow 10 k

namespace Binary64

/-- How many units make one. -/
def unitsPerOne : Nat := pow2 1074

/-- The bits of infinity; every finite magnitude has smaller ones. -/
def infinityBits : Nat := 2047 * pow2 52

/-- The value, in units, of the magnitude with the given bits. -/
def units (bits : Nat) : Nat :=
  let field := bits / pow2 52
  if field = 0 then bits else (pow2 52 + bits % pow2 52) * pow2 (field - 1)

/-- The quotient of two numbers rounded to the nearest integer, a half going to the even one. -/
def roundDiv (num den : Nat) : Nat :=
  let q := num / den
  let r := num % den
  if 2 * r < den then q
  else if den < 2 * r then q + 1
  else q + q % 2

/-- The bits of the magnitude nearest to `num / den`: the fraction is counted in the largest
power of two of units that leaves 53 bits, and rounded there, a tie going to the even neighbour.
Rounding up to the next power of two carries into the exponent field by itself. What is too large
becomes infinite. -/
def nearestBits (num den : Nat) : Nat :=
  let scaled := num * unitsPerOne
  let shift := (scaled / den).log2 - 52
  min (shift * pow2 52 + roundDiv scaled (den * pow2 shift)) infinityBits

/-- The number nearest to `num / den`. -/
def nearest (num den : Nat) : Float :=
  Float.ofBits (UInt64.ofNat (nearestBits num den))

/-- The bits of a number below its sign. -/
def magnitude (x : Float) : Nat :=
  x.toBits.toNat % pow2 63

/-- Whether the sign bit of a number is set. -/
def isNegative (x : Float) : Bool :=
  pow2 63 ≤ x.toBits.toNat

end Binary64
end LoxCalc
