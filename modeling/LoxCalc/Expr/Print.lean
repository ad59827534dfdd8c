import LoxCalc.Expr
import LoxCalc.Limit

/-!
# Printing expressions

An expression is printed with every operator before its operands, in parentheses. Each level of the
tree uses four frames.
-/

namespace LoxCalc
namespace Expr

/-- The text of a literal: a string stands in quotes as it is, any other value as its text. -/
def literalText : Value → String
  | .string s => "\"" ++ s ++ "\""
  | v => v.text

/-- Prints an expression that stands at the given depth; the root is at depth one. -/
def printAt (limit : Limit) (depth : Nat) (e : Expr) : Option String :=
  if limit.allows (4 * depth) then
    match e with
    | .literal v => some (literalText v)
    | .group inner => (printAt limit (depth + 1) inner).map fun s => "(group " ++ s ++ ")"
    | .unary operator operand =>
      (printAt limit (depth + 1) operand).map fun s => "(" ++ operator.lexeme ++ " " ++ s ++ ")"
    | .binary left operator right =>
      (printAt limit (depth + 1) left).bind fun s =>
        (printAt limit (depth + 1) right).map fun t =>
          "(" ++ operator.lexeme ++ " " ++ s ++ " " ++ t ++ ")"
  else none

/-- The text of an expression, unless it nests too deeply. -/
def print? (limit : Limit) (e : Expr) : Option String :=
  printAt limit 1 e

end Expr
end LoxCalc
