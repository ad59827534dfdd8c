import LoxCalc.Error.Syntactic
import LoxCalc.Expr
import LoxCalc.Limit

/-!
# Reading expressions

The grammar, from the loosest level to the tightest:

    expression → equality
    equality   → comparison (("!=" | "==") comparison)*
    comparison → term ((">" | ">=" | "<" | "<=") term)*
    term       → factor (("-" | "+") factor)*
    factor     → unary (("/" | "*") unary)*
    unary      → ("!" | "-") unary | primary
    primary    → NUMBER | STRING | "true" | "false" | "nil" | "(" expression ")"

Expressions are read token by token. A reader holds the operators that still wait for an operand
to their right, for the innermost open parenthesis and for each one around it. A binary operator
first takes as its left operand everything that binds at least as tightly as itself, so each level
associates to the left. The first token that cannot go on with the expression ends it; what follows
is not looked at.
-/

namespace LoxCalc

namespace Token.Kind

/-- How tightly a binary operator binds; no level means that the kind is no binary operator. -/
def level? : Kind → Option Nat
  | .bangEqual | .equalEqual => some 1
  | .greater | .greaterEqual | .less | .lessEqual => some 2
  | .minus | .plus => some 3
  | .slash | .star => some 4
  | _ => none

/-- Whether a kind is a prefix operator. -/
def isPrefixOperator (k : Kind) : Bool :=
  k == .bang || k == .minus

end Token.Kind

/-- An operator that waits for the operand to its right. -/
inductive Pending where
  | unary (operator : Token)
  | binary (left : Expr) (operator : Token)

namespace Pending

/-- Gives a waiting operator its operand. -/
def apply (operand : Expr) : Pending → Expr
  | .unary operator => .unary operator operand
  | .binary left operator => .binary left operator operand

/-- Gives an operand to the first waiting operator, the result to the next, and so on. -/
def applyAll (waiting : List Pending) (operand : Expr) : Expr :=
  waiting.foldl apply operand

/-- Whether a waiting operator takes its operand before an operator of the given level does. -/
def bindsAt (level : Nat) : Pending → Bool
  | .unary _ => true
  | .binary _ operator => level ≤ operator.kind.level?.getD 0

/-- Whether a waiting operator is a prefix operator. -/
def isUnary : Pending → Bool
  | .unary _ => true
  | .binary _ _ => false

end Pending

/-- An expression that has been read in part. -/
structure Reader where
  /-- The operators that wait inside the innermost open parenthesis, the latest first. -/
  waiting : List Pending := []
  /-- The same for each place outside an open parenthesis, the innermost first. -/
  outer : List (List Pending) := []
  /-- The operand read last, unless one is due. -/
  operand : Option Expr := none

/-- What a reader does on seeing a token. -/
inductive Move where
  /-- The token is taken. -/
  | take (reader : Reader)
  /-- The expression ends before the token. -/
  | finish (e : Expr)
  /-- The token cannot stand here. -/
  | refuse (cause : SyntaxError.Cause)

namespace Expr

/-- The literal that a token is by itself. -/
def ofToken? (t : Token) : Option Expr :=
  match t.kind with
  | .kwFalse => some (.literal (.bool false))
  | .kwTrue => some (.literal (.bool true))
  | .kwNil => some (.literal .nil)
  | .number | .string => some (.literal t.value)
  | _ => none

end Expr

namespace Reader

/-- The frames a reader uses: eleven for an open parenthesis, one for a waiting prefix operator. -/
def frames (r : Reader) : Nat :=
  11 * r.outer.length + (r.waiting :: r.outer).flatten.countP Pending.isUnary

/-- Sees a token where an operand is due. -/
def begin (r : Reader) (t : Token) : Move :=
  match Expr.ofToken? t with
  | some e => .take { r with operand := some e }
  | none =>
    if t.kind = .leftParen then .take { waiting := [], outer := r.waiting :: r.outer }
    else if t.kind.isPrefixOperator then .take { r with waiting := .unary t :: r.waiting }
    else .refuse .expectedExpression

/-- Sees a token after the operand `e`. -/
def resume (r : Reader) (e : Expr) (t : Token) : Move :=
  match t.kind.level? with
  | some level =>
    let left := Pending.applyAll (r.waiting.takeWhile (Pending.bindsAt level)) e
    let others := r.waiting.dropWhile (Pending.bindsAt level)
    .take { waiting := .binary left t :: others, outer := r.outer }
  | none =>
    let whole := Pending.applyAll r.waiting e
    match r.outer with
    | [] => .finish whole
    | waiting :: outer =>
      if t.kind = .rightParen then
        .take { waiting := waiting, outer := outer, operand := some (.group whole) }
      else .refuse .unclosedGroup

/-- Sees a token. -/
def step (r : Reader) (t : Token) : Move :=
  match r.operand with
  | none => r.begin t
  | some e => r.resume e t

end Reader

/-- How the reading of a token list ends, with the tokens that are left. -/
inductive Reading where
  | tree (e : Expr) (rest : List Token)
  | error (e : SyntaxError) (rest : List Token)
  /-- The list ended where another token had to be looked at. -/
  | pastEnd

namespace Reading

/-- The expression read. -/
def tree? : Reading → Option Expr
  | .tree e _ => some e
  | _ => none

/-- The error met. -/
def error? : Reading → Option SyntaxError
  | .error e _ => some e
  | _ => none

/-- The tokens left. -/
def rest : Reading → List Token
  | .tree _ rest => rest
  | .error _ rest => rest
  | .pastEnd => []

/-- How many of the tokens were taken. -/
def taken (tokens : List Token) (r : Reading) : Nat :=
  tokens.length - r.rest.length

end Reading

namespace Reader

/-- Reads on through a token list. When the limit is exceeded, the token that comes next is at
fault. Which one that is, is a convention: a reader with a call for each rule of the grammar has
taken one operator more of a chain of prefix operators when it runs out of frames. It also runs out
of them where it would raise an error with the limit just reached; here that error is raised. -/
def run (limit : Limit) (r : Reader) : List Token → Reading
  | [] => .pastEnd
  | t :: rest =>
    match r.step t with
    | .take next =>
      if limit.allows next.frames then run limit next rest
      else match rest with
        | [] => .pastEnd
        | found :: _ => .error ⟨.tooDeep, found⟩ rest
    | .finish e => .tree e (t :: rest)
    | .refuse cause => .error ⟨cause, t⟩ (t :: rest)

end Reader

namespace Expr

/-- Reads the expression that a token list begins with. -/
def parse (limit : Limit) (tokens : List Token) : Reading :=
  Reader.run limit {} tokens

end Expr
end LoxCalc
