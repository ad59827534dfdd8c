import LoxCalc.Error.Lexical
import LoxCalc.Token
import LoxCalc.Token.Piece

/-!
# Scanning

The tokens and the lexical errors of a source text, read off its pieces. Whatever a piece gives
rise to is on the line on which the piece ends, lines being counted from one.
-/

namespace LoxCalc

/-- What scanning a text gives: its tokens, the last of them the end of input, its lexical errors,
and its last line. -/
structure Scan where
  tokens : List Token
  errors : List LexicalError
  line : Int

namespace Piece

/-- The number that a run of decimal digits stands for. -/
def digitsValue (digits : List Char) : Nat :=
  digits.foldl (fun n c => 10 * n + (c.toNat - '0'.toNat)) 0

/-- The number nearest to a decimal fraction. -/
def numberValue (whole fraction : List Char) : Float :=
  Binary64.nearest (digitsValue (whole ++ fraction)) (pow10 fraction.length)

/-- How many lines end in a piece. -/
def newlines (p : Piece) : Nat :=
  p.text.count '\n'

/-- The token a piece stands for, if any, on the given line. -/
def token? (line : Int) (p : Piece) : Option Token :=
  let lexeme := String.ofList p.text
  match p with
  | .mark kind _ => some ⟨kind, lexeme, none, line⟩
  | .string body => some ⟨.string, lexeme, some (.text (String.ofList body)), line⟩
  | .number whole fraction =>
    some ⟨.number, lexeme, some (.number (numberValue whole fraction)), line⟩
  | .word _ => some ⟨Token.Kind.ofWord lexeme, lexeme, none, line⟩
  | .blank _ | .newline | .comment _ | .unclosed _ | .stray _ => none

/-- The error a piece gives rise to, if any, on the given line. -/
def error? (line : Int) (p : Piece) : Option LexicalError :=
  match p with
  | .unclosed _ => some ⟨.unterminatedString, line⟩
  | .stray c => some ⟨.unexpected (String.singleton c), line⟩
  | .mark _ _ | .blank _ | .newline | .comment _ | .string _ | .number _ _ | .word _ => none

/-- Pieces with the lines on which they end, the first one starting on the given line. -/
def withLines (line : Nat) : List Piece → List (Piece × Nat)
  | [] => []
  | p :: ps => (p, line + p.newlines) :: withLines (line + p.newlines) ps

end Piece

namespace Scan

/-- Scans a text. -/
def ofText (source : String) : Scan :=
  let pieces := Piece.withLines 1 (Piece.ofText source.toList)
  let last : Int := 1 + source.toList.count '\n'
  { tokens := pieces.filterMap (fun (p, line) => p.token? line) ++ [Token.endOfInput last]
    errors := pieces.filterMap fun (p, line) => p.error? line
    line := last }

end Scan
end LoxCalc
