import LoxCalc.Error.Runtime
import LoxCalc.Expr
import LoxCalc.Limit

/-!
# Evaluating expressions

The operands of an operator are evaluated first, from left to right, and then the kind of the
operator says what is done with them. Nothing is converted: an operator that does not fit its
operands is an error at the operator. Each level of the tree uses three frames, and raising an error
takes some more; where these are missing, the expression nests too deeply.
-/

namespace LoxCalc
namespace Expr

/-- Why an expression has no value. -/
inductive Failure where
  | error (e : RuntimeError)
  /-- The expression nests too deeply. -/
  | tooDeep

/-- Applies a prefix operator. -/
def applyUnary (operator : Token) (v : Value) : Except RuntimeError Value :=
  match operator.kind with
  | .bang => .ok (.bool !v.isTruthy)
  | .minus =>
    match v with
    | .number x => .ok (.number (-x))
    | _ => .error ⟨.numberOperand, operator⟩
  | _ => .error ⟨.unknownUnary, operator⟩

/-- What an operator does with two numbers, if it takes two numbers and nothing else. -/
def arithmetic? : Token.Kind → Option (Float → Float → Value)
  | .minus => some fun x y => .number (x - y)
  | .star => some fun x y => .number (x * y)
  | .slash => some fun x y => .number (x / y)
  | .greater => some fun x y => .bool (decide (y < x))
  | .greaterEqual => some fun x y => .bool (decide (y ≤ x))
  | .less => some fun x y => .bool (decide (x < y))
  | .lessEqual => some fun x y => .bool (decide (x ≤ y))
  | _ => none

/-- The operators that take two numbers and nothing else. -/
def arithmeticKinds : List Token.Kind :=
  Token.Kind.all.filter fun k => (arithmetic? k).isSome

/-- Adds two numbers or joins two strings. -/
def applyPlus (operator : Token) : Value → Value → Except RuntimeError Value
  | .number x, .number y => .ok (.number (x + y))
  | .string s, .string t => .ok (.string (s ++ t))
  | _, _ => .error ⟨.plusOperands, operator⟩

/-- Applies an operator that takes two numbers, or fails if it is none. -/
def applyArithmetic (operator : Token) (v w : Value) : Except RuntimeError Value :=
  match arithmetic? operator.kind with
  | none => .error ⟨.unknownBinary, operator⟩
  | some f =>
    match v, w with
    | .number x, .number y => .ok (f x y)
    | _, _ => .error ⟨.numberOperands, operator⟩

/-- Applies a binary operator. -/
def applyBinary (operator : Token) (v w : Value) : Except RuntimeError Value :=
  match operator.kind with
  | .equalEqual => .ok (.bool (v.equals w))
  | .bangEqual => .ok (.bool !(v.equals w))
  | .plus => applyPlus operator v w
  | _ => applyArithmetic operator v w

/-- What becomes of the result of an operator at the given depth: an error is raised only if there
are frames for that. -/
def conclude {α : Type} (limit : Limit) (depth : Nat) : Except RuntimeError α → Except Failure α
  | .ok v => .ok v
  | .error err =>
    if limit.allows (3 * depth + err.cause.frames) then .error (.error err) else .error .tooDeep

/-- Evaluates an expression that stands at the given depth; the root is at depth one. -/
def evalAt (limit : Limit) (depth : Nat) (e : Expr) : Except Failure Value :=
  if limit.allows (3 * depth) then
    match e with
    | .literal v => .ok v
    | .group inner => evalAt limit (depth + 1) inner
    | .unary operator operand =>
      (evalAt limit (depth + 1) operand).bind fun v =>
        conclude limit depth (applyUnary operator v)
    | .binary left operator right =>
      (evalAt limit (depth + 1) left).bind fun v =>
        (evalAt limit (depth + 1) right).bind fun w =>
          conclude limit depth (applyBinary operator v w)
  else .error .tooDeep

/-- The value of an expression. -/
def eval (limit : Limit) (e : Expr) : Except Failure Value :=
  evalAt limit 1 e

/-- The error reported for a failure of the given expression: nesting that is too deep is blamed
on the operator at the top, or on the end of line one if there is none. -/
def Failure.report (whole : Expr) : Failure → RuntimeError
  | .error e => e
  | .tooDeep => ⟨.tooDeep, whole.outermostOperator?.getD (Token.endOfInput 1)⟩

/-- The value of an expression, or the error to report. -/
def evaluate (limit : Limit) (e : Expr) : Except RuntimeError Value :=
  (e.eval limit).mapError (Failure.report e)

end Expr
end LoxCalc
