import LoxCalc.Number.Binary64

/-!
# Shortest decimal digits

The decimal of a number is the one with the fewest digits that reads back as the same number, and
of those the nearest to it. A unit is `5 ^ 1074 / 10 ^ 1074`, so a magnitude is a whole number of
`10 ^ -1074` and the decimals worth trying are its neighbours on coarser and coarser grids of
multiples of powers of ten. The search starts from the coarsest grid; the finest holds the exact
value, so it always ends with a decimal.
-/

namespace LoxCalc

/-- A positive decimal `d₁.d₂d₃… · 10 ^ exponent`, given by its digits. -/
structure Decimal where
  digits : List Char
  exponent : Int
  deriving DecidableEq

namespace Decimal

/-- The magnitude with the given bits, counted in `10 ^ -1074`. -/
def grains (bits : Nat) : Nat :=
  Binary64.units bits * Nat.pow 5 1074

/-- Whether a count of `10 ^ -1074` reads as the magnitude with the given bits. -/
def readsAs (bits count : Nat) : Bool :=
  Binary64.nearestBits count (pow10 1074) == bits

/-- The multiples of `step` on either side of `n`, the nearer first; halfway between them, the
one that is an even multiple is first. -/
def neighbours (n step : Nat) : List Nat :=
  let below := n / step
  let excess := n % step
  if 2 * excess < step ∨ (2 * excess = step ∧ below % 2 = 0) then
    [below * step, (below + 1) * step]
  else
    [(below + 1) * step, below * step]

/-- The first neighbour of `n` that passes the test, on the grids of `10 ^ k`, `10 ^ (k - 1)`, …,
and `n` itself when none does. -/
def coarsest (test : Nat → Bool) (n : Nat) : Nat → Nat
  | 0 => n
  | k + 1 =>
    match (neighbours n (pow10 (k + 1))).find? test with
    | some m => m
    | none => coarsest test n k

/-- A list without the zeros at its end. -/
def dropTrailingZeros (digits : List Char) : List Char :=
  (digits.reverse.dropWhile (· == '0')).reverse

/-- The decimal that is `count · 10 ^ -1074`. -/
def ofGrains (count : Nat) : Decimal :=
  let digits := Nat.toDigits 10 count
  { digits := dropTrailingZeros digits
    exponent := (digits.length : Int) - 1075 }

/-- The shortest decimal that reads back as the magnitude with the given bits. -/
def shortest (bits : Nat) : Decimal :=
  let exact := grains bits
  let places := (Nat.toDigits 10 exact).length
  ofGrains (coarsest (readsAs bits) exact (places - 1))

end Decimal
end LoxCalc
