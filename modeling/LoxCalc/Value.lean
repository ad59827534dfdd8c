import LoxCalc.Number.Format

/-!
# Values

What an expression evaluates to. Two values are equal only if they are of one kind; a number is
equal to itself even when it is not a number, and the two zeros are equal.
-/

namespace LoxCalc

/-- A value of the language. -/
inductive Value where
  | nil
  | bool (b : Bool)
  | number (x : Float)
  | string (s : String)

/-- Numbers are the same when they compare equal or are both NaN. -/
def sameNumber (x y : Float) : Bool :=
  (x.isNaN && y.isNaN) || x == y

namespace Value

/-- Whether a value is a number. -/
def isNumber : Value → Bool
  | .number _ => true
  | _ => false

/-- Whether a value is a string. -/
def isString : Value → Bool
  | .string _ => true
  | _ => false

/-- Only `nil` and `false` are not truthy. -/
def isTruthy : Value → Bool
  | .nil => false
  | .bool b => b
  | .number _ => true
  | .string _ => true

/-- Equality of values; different kinds are never equal. -/
def equals : Value → Value → Bool
  | .nil, .nil => true
  | .bool a, .bool b => a == b
  | .number x, .number y => sameNumber x y
  | .string s, .string t => s == t
  | _, _ => false

/-- The number that a truth value counts as. -/
def truthNumber (b : Bool) : Float :=
  if b then 1 else 0

/-- A looser equality, in which `true` is also the number one and `false` the number zero. -/
def coincides : Value → Value → Bool
  | .bool a, .number y => truthNumber a == y
  | .number x, .bool b => x == truthNumber b
  | v, w => v.equals w

/-- The text of a value. -/
def text : Value → String
  | .nil => "nil"
  | .bool b => if b then "true" else "false"
  | .number x => NumberStyle.value.text x
  | .string s => s

end Value
end LoxCalc
