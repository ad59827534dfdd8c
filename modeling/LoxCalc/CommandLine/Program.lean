import LoxCalc.CommandLine.Arguments
import LoxCalc.CommandLine.Folder
import LoxCalc.Session

/-!
# The program

What the program does with its command line: it evaluates the expression given, or a script, or
line after line at the prompt. Everything it writes is kept, so that a run is a function of the
arguments, the working folder and the input typed in.
-/

namespace LoxCalc
namespace CommandLine

/-- The exit code for a command line with several inputs. -/
def exitUsage : Nat := 64

/-- The exit code for an input with errors. -/
def exitData : Nat := 65

/-- The exit code for a script that cannot be read. -/
def exitNoInput : Nat := 66

/-- The exit code for an interrupted prompt. -/
def exitInterrupted : Nat := 130

/-- The exit code for a command line that cannot be understood. -/
def exitBadArguments : Nat := 2

/-- What asks for a line. -/
def promptText : String := "> "

/-- How a run of the program ends. -/
inductive Ending where
  | exit (code : Nat)
  /-- A tree to be printed was too deep. -/
  | unprintable

/-- A run of the program. -/
structure Run where
  ending : Ending
  /-- Everything printed. -/
  output : String
  /-- Everything reported. -/
  errors : String

/-- The input typed in at the prompt. -/
structure Typed where
  lines : List String
  /-- Whether the prompt is interrupted after the last line. -/
  interrupted : Bool

/-- The session an invocation starts with. -/
def Invocation.session (i : Invocation) : Session :=
  { reporter := { verbose := i.verbose } }

/-- What an invocation wants printed of each input. -/
def Invocation.dumps (i : Invocation) : Dumps :=
  { tokens := i.tokens, tree := i.tree }

namespace Run

/-- The run that leaves a session as it is. -/
def ofSession (ending : Ending) (s : Session) : Run :=
  { ending, output := s.output, errors := s.reporter.text }

/-- The run of a single input. -/
def ofSource (i : Invocation) (source : String) : Run :=
  match i.session.run i.dumps source with
  | (s, .unprintable) => ofSession .unprintable s
  | (s, _) => ofSession (.exit (if s.reporter.hasErrors then exitData else 0)) s

/-- The text of a script. -/
def scriptText (bytes : List UInt8) : Except ReadFault String :=
  match Utf8.decode bytes with
  | .ok cs => .ok (String.ofList (Text.unifyNewlines cs))
  | .error fault => .error (.undecodable fault)

/-- The message that a script cannot be read. -/
def unreadable (path : String) (fault : ReadFault) : String :=
  "Could not read '" ++ path ++ "': " ++ fault.reason ++ "\n"

/-- The run of a script, given what reading its file brought. -/
def ofScript (i : Invocation) (path : String) (found : Except ReadFault (List UInt8)) : Run :=
  match found.bind scriptText with
  | .ok source => ofSource i source
  | .error fault => { ending := .exit exitNoInput, output := "", errors := unreadable path fault }

/-- Asks for a line. -/
def ask (s : Session) : Session :=
  { s with output := s.output ++ promptText }

/-- Runs a line that was typed in; an error on it does not touch the next. -/
def promptLine (dumps : Dumps) (line : String) (s : Session) : Session × Answer :=
  let (s, answer) := (ask s).run dumps line
  match answer with
  | .unprintable => (s, answer)
  | _ => ({ s with reporter := s.reporter.reset }, answer)

/-- Runs the lines that are typed in, until there are no more. -/
def promptLines (dumps : Dumps) (interrupted : Bool) (s : Session) : List String → Run
  | [] => ofSession (.exit (if interrupted then exitInterrupted else 0)) ((ask s).printLine "")
  | line :: lines =>
    match promptLine dumps line s with
    | (s, .unprintable) => ofSession .unprintable s
    | (s, _) => promptLines dumps interrupted s lines

/-- The run of a prompt. -/
def ofPrompt (i : Invocation) (typed : Typed) : Run :=
  promptLines i.dumps typed.interrupted i.session typed.lines

/-- The run of a command line that is not carried out. -/
def ofStop : Stop → Run
  | .help => { ending := .exit 0, output := helpText, errors := "" }
  | .version => { ending := .exit 0, output := versionText, errors := "" }
  | .usage e =>
    { ending := .exit exitBadArguments, output := ""
      errors := usageLine ++ "lox: error: " ++ e.message ++ "\n" }

/-- The run for a command line with several inputs. -/
def tooMany : Run :=
  { ending := .exit exitUsage, output := tooManyInputs, errors := "" }

end Run

/-- The one input that an invocation asks for. -/
inductive Input where
  | expression (source : String)
  | script (path : String)
  | prompt

/-- The input of an invocation, unless it asks for several. -/
def Invocation.input? (i : Invocation) : Option Input :=
  match i.scripts, i.expression with
  | [], none => some .prompt
  | [], some source => some (.expression source)
  | [path], none => some (.script path)
  | _, _ => none

/-- A run of the program in a working folder. -/
def run (arguments : List String) (folder : Folder) (typed : Typed) : Run :=
  match understand arguments with
  | .error stop => .ofStop stop
  | .ok i =>
    match i.input? with
    | none => .tooMany
    | some (.expression source) => .ofSource i source
    | some (.script path) => .ofScript i path (folder.read path)
    | some .prompt => .ofPrompt i typed

end CommandLine
end LoxCalc
