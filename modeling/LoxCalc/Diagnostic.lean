/-!
# Diagnostics

What is reported about an input: a message with its line, the phase that found the problem, and
optionally a code, a place and a hint. A diagnostic is written in one or two lines, and the verbose
form adds the code and the hint below.
-/

namespace LoxCalc

/-- The stage that found a problem, by name; callers may name stages of their own. -/
structure Phase where
  name : String
  deriving DecidableEq

namespace Phase

def lexer : Phase := ⟨"lexer"⟩
def parser : Phase := ⟨"parser"⟩
def runtime : Phase := ⟨"runtime"⟩

end Phase

/-- How bad a problem is, by name. -/
structure Severity where
  name : String
  deriving DecidableEq

/-- The severity of everything this library finds itself. -/
def Severity.error : Severity := ⟨"error"⟩

/-- The words of a problem, wherever it arose. -/
structure Wording where
  message : String
  code : Option String := none
  help : Option String := none
  deriving DecidableEq

/-- A reported problem. -/
structure Diagnostic extends Wording where
  line : Int
  severity : Severity := .error
  phase : Phase
  /-- Where on the line the problem is, as it follows the word `Error`. -/
  place : String := ""
  deriving DecidableEq

namespace Diagnostic

/-- The plain text: a runtime problem names its line below its message, any other before it. -/
def summary (d : Diagnostic) : String :=
  if d.phase = .runtime then
    d.message ++ "\n[line " ++ toString d.line ++ "]"
  else
    "[line " ++ toString d.line ++ "] Error" ++ d.place ++ ": " ++ d.message

/-- One line of the verbose form, or nothing when there is nothing to say. -/
def detail (label : String) (text : Option String) : String :=
  match text with
  | none => ""
  | some s => if s.isEmpty then "" else "\n  " ++ label ++ ": " ++ s

/-- What the verbose form adds to the plain text. -/
def details (d : Diagnostic) : String :=
  detail "code" d.code ++ detail "help" d.help

/-- The text of a diagnostic, plain or verbose. -/
def render (verbose : Bool) (d : Diagnostic) : String :=
  if verbose then d.summary ++ d.details else d.summary

end Diagnostic
end LoxCalc
