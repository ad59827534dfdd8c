import LoxCalc.Diagnostic
import LoxCalc.Token

/-!
# Syntax errors

The ways in which a list of tokens can fail to begin with an expression, and their wording. A
syntax error stands at the token that could not be taken.
-/

namespace LoxCalc
namespace SyntaxError

/-- Why a token cannot be taken. -/
inductive Cause where
  /-- The token starts no expression where one is due. -/
  | expectedExpression
  /-- The token stands where an open parenthesis must be closed. -/
  | unclosedGroup
  /-- What precedes the token nests too deeply. -/
  | tooDeep
  /-- A problem in the words of whoever raised it. -/
  | stated (wording : Wording)

/-- The codes of syntax errors and what they stand for. -/
def catalogue : List (String × String) :=
  [("P001", "Expected expression"), ("P002", "Unclosed grouping"),
   ("P003", "Expression nested too deeply")]

/-- The hint where an expression is due. -/
def expectedHelp (found : Token) : String :=
  if found.kind = .eof then "The input ended where an operand was expected."
  else "'" ++ found.lexeme ++ "' cannot start an expression."

/-- The words for a cause at the token it was found at. -/
def Cause.wording (found : Token) : Cause → Wording
  | .expectedExpression => ⟨"Expect expression.", some "P001", some (expectedHelp found)⟩
  | .unclosedGroup =>
    ⟨"Expect ')' after expression.", some "P002", some "Add a closing parenthesis ')'."⟩
  | .tooDeep =>
    ⟨"Expression nested too deeply.", some "P003",
      some "Split the expression or remove redundant parentheses and unary operators."⟩
  | .stated w => w

end SyntaxError

/-- A syntax error at a token. -/
structure SyntaxError where
  cause : SyntaxError.Cause
  token : Token

namespace SyntaxError

/-- The report of a syntax error, on the line of its token. -/
def diagnostic (e : SyntaxError) : Diagnostic :=
  { e.cause.wording e.token with line := e.token.line, phase := .parser }

end SyntaxError
end LoxCalc
