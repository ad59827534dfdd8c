import LoxCalc.Diagnostic
import LoxCalc.Text.Unicode

/-!
# Lexical errors

The two ways in which a source text can fail to be a sequence of tokens, and their wording.
-/

namespace LoxCalc
namespace LexicalError

/-- Why a piece of source is no token. -/
inductive Cause where
  /-- A character that starts no token. -/
  | unexpected (text : String)
  /-- A string without its closing quote. -/
  | unterminatedString
  /-- A problem in the words of whoever raised it. -/
  | stated (wording : Wording)

/-- The codes of lexical errors and what they stand for. -/
def catalogue : List (String × String) :=
  [("L001", "Unexpected character"), ("L002", "Unterminated string literal")]

/-- A code point in upper-case hexadecimal, with at least four digits. -/
def codePoint (c : Char) : String :=
  let digits := (Nat.toDigits 16 c.toNat).map Char.toUpper
  String.ofList (List.replicate (4 - digits.length) '0' ++ digits)

/-- The hint on an unexpected character: the character, or its code point if it has no shape. -/
def unexpectedHelp (text : String) : String :=
  match text.toList.find? (!Text.isPrintable ·) with
  | none => "The character '" ++ text ++ "' is not valid in Lox source code."
  | some c => "Non-printable character (Unicode: U+" ++ codePoint c ++ ") is not allowed."

/-- The words for a cause. -/
def Cause.wording : Cause → Wording
  | .unexpected text => ⟨"Unexpected character.", some "L001", some (unexpectedHelp text)⟩
  | .unterminatedString =>
    ⟨"Unterminated string.", some "L002",
      some "String literals must be closed with a matching \" quote."⟩
  | .stated w => w

end LexicalError

/-- A lexical error on a line. -/
structure LexicalError where
  cause : LexicalError.Cause
  line : Int

namespace LexicalError

/-- The report of a lexical error. -/
def diagnostic (e : LexicalError) : Diagnostic :=
  { e.cause.wording with line := e.line, phase := .lexer }

end LexicalError
end LoxCalc
