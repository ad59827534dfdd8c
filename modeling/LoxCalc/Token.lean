import LoxCalc.Token.Kind
import LoxCalc.Value

/-!
# Tokens

A token has a kind, the text it was read from, the value it carries if it is a number or a string,
and a line.
-/

namespace LoxCalc

/-- What a token carries besides its text. -/
inductive Literal where
  | number (x : Float)
  | text (s : String)

namespace Literal

/-- Whether two tokens carry the same: numbers are compared as values are. -/
def same : Literal → Literal → Bool
  | .number x, .number y => sameNumber x y
  | .text s, .text t => s == t
  | _, _ => false

/-- The value a literal stands for. -/
def value : Literal → Value
  | .number x => .number x
  | .text s => .string s

/-- A literal in a listing of tokens. -/
def listing : Literal → String
  | .number x => NumberStyle.listing.text x
  | .text s => s

end Literal

/-- A token of the source. -/
structure Token where
  kind : Token.Kind
  lexeme : String
  literal : Option Literal
  line : Int

namespace Token

/-- The token that ends a list, on the given line. -/
def endOfInput (line : Int) : Token :=
  ⟨.eof, "", none, line⟩

/-- A token as it is listed: kind, text, literal. -/
def listing (t : Token) : String :=
  t.kind.name ++ " " ++ t.lexeme ++ " " ++ (t.literal.map Literal.listing).getD ""

/-- Whether two tokens agree in kind, text, literal and line. -/
def same (s t : Token) : Bool :=
  s.kind == t.kind && s.lexeme == t.lexeme && s.line == t.line &&
    match s.literal, t.literal with
    | none, none => true
    | some a, some b => a.same b
    | _, _ => false

/-- The value of a number or string token; one that carries nothing counts as `nil`. -/
def value (t : Token) : Value :=
  match t.literal with
  | none => .nil
  | some l => l.value

end Token
end LoxCalc
