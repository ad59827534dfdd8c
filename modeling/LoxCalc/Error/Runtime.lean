import LoxCalc.Diagnostic
import LoxCalc.Token

/-!
# Runtime errors

The ways in which the evaluation of an expression can fail, and their wording. A runtime error
stands at the operator that could not be applied.
-/

namespace LoxCalc
namespace RuntimeError

/-- Why an operator cannot be applied. -/
inductive Cause where
  /-- The operand is no number. -/
  | numberOperand
  /-- One of the operands is no number. -/
  | numberOperands
  /-- The operands of `+` are neither two numbers nor two strings. -/
  | plusOperands
  /-- What the operator stands on top of nests too deeply. -/
  | tooDeep
  /-- The token is no prefix operator. -/
  | unknownUnary
  /-- The token is no binary operator. -/
  | unknownBinary
  /-- A problem in the words of whoever raised it. -/
  | stated (wording : Wording)

/-- The codes of runtime errors and what they stand for. -/
def catalogue : List (String × String) :=
  [("R001", "Operand must be a number"), ("R002", "Operands must be numbers"),
   ("R003", "Operands must be two numbers or two strings"),
   ("R004", "Expression nested too deeply")]

/-- The words for a cause at its operator. -/
def Cause.wording (operator : Token) : Cause → Wording
  | .numberOperand =>
    ⟨"Operand must be a number.", some "R001",
      some ("'" ++ operator.lexeme ++ "' only applies to numbers.")⟩
  | .numberOperands =>
    ⟨"Operands must be numbers.", some "R002",
      some ("Both sides of '" ++ operator.lexeme ++ "' must be numbers.")⟩
  | .plusOperands =>
    ⟨"Operands must be two numbers or two strings.", some "R003",
      some "'+' adds two numbers or concatenates two strings; there is no implicit conversion."⟩
  | .tooDeep =>
    ⟨"Expression nested too deeply.", some "R004",
      some "Split the expression into smaller parts."⟩
  | .unknownUnary => ⟨"Unknown unary operator '" ++ operator.lexeme ++ "'.", none, none⟩
  | .unknownBinary => ⟨"Unknown binary operator '" ++ operator.lexeme ++ "'.", none, none⟩
  | .stated w => w

/-- How many frames it takes to raise an error, beyond those of its operator: four to make the error
and its diagnostic, one more where the words are put together apart, and one more again where the
operands are checked apart. -/
def Cause.frames : Cause → Nat
  | .numberOperand | .numberOperands => 6
  | .plusOperands => 5
  | .tooDeep | .unknownUnary | .unknownBinary | .stated _ => 4

end RuntimeError

/-- A runtime error at an operator. -/
structure RuntimeError where
  cause : RuntimeError.Cause
  token : Token

namespace RuntimeError

/-- The report of a runtime error, on the line of its operator. -/
def diagnostic (e : RuntimeError) : Diagnostic :=
  { e.cause.wording e.token with line := e.token.line, phase := .runtime }

end RuntimeError
end LoxCalc
