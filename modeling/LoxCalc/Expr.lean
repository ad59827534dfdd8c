import LoxCalc.Token

/-!
# Expressions

Expression trees. Operators are kept as the tokens they were read from, so that a tree knows the
spelling and the line of each of them.
-/

namespace LoxCalc

/-- An expression. -/
inductive Expr where
  | literal (value : Value)
  | group (inner : Expr)
  | unary (operator : Token) (operand : Expr)
  | binary (left : Expr) (operator : Token) (right : Expr)

namespace Expr

/-- The number of nodes on the longest path from the root. -/
def height : Expr → Nat
  | .literal _ => 1
  | .group inner => inner.height + 1
  | .unary _ operand => operand.height + 1
  | .binary left _ right => max left.height right.height + 1

/-- An expression inside the given number of groups. -/
def wrap : Nat → Expr → Expr
  | 0, e => e
  | n + 1, e => .group (wrap n e)

/-- The operator at the top of an expression below any groups, if there is one. -/
def outermostOperator? : Expr → Option Token
  | .literal _ => none
  | .group inner => inner.outermostOperator?
  | .unary operator _ => some operator
  | .binary _ operator _ => some operator

/-- Whether two expressions have the same shape, the same operators, token for token, and literals
that coincide. -/
def coincides : Expr → Expr → Bool
  | .literal v, .literal w => v.coincides w
  | .group d, .group e => d.coincides e
  | .unary o d, .unary p e => o.same p && d.coincides e
  | .binary l o r, .binary m p s => l.coincides m && o.same p && r.coincides s
  | _, _ => false

end Expr
end LoxCalc
