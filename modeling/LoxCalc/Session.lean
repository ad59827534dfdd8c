import LoxCalc.Expr.Eval
import LoxCalc.Expr.Print
import LoxCalc.Reporter.Stages

/-!
# Sessions

A session runs one input after another with one reporter and one output. An input is scanned and
read, whatever errors the scan has found; it is evaluated only if no static error has been reported
since the reporter was last reset.
-/

namespace LoxCalc

/-- What is printed of an input before its value. -/
structure Dumps where
  tokens : Bool := false
  tree : Bool := false

/-- The state between two inputs. -/
structure Session where
  reporter : Reporter := {}
  /-- Everything printed. -/
  output : String := ""

/-- Something to do in a session. -/
inductive Step where
  /-- Scan, read and evaluate an input. -/
  | run (source : String) (dumps : Dumps)
  | scan (source : String)
  | parse (source : String)
  /-- Evaluate an input that is read without reporting anything; errors of the evaluation are
  reported or raised. -/
  | interpret (source : String) (report : Bool)
  /-- Report a static error. -/
  | error (line : Int) (message place : String)
  | runtimeError (e : RuntimeError)
  | report (d : Diagnostic)
  | setVerbose (verbose : Bool)
  | reset

/-- What a step gives back, besides what it writes. -/
inductive Answer where
  | done
  /-- The tokens of an input, as they are listed. -/
  | tokens (listing : List String)
  /-- Whether an input could be read. -/
  | parsed (ok : Bool)
  /-- An error that nobody reported. -/
  | raised (e : RuntimeError)
  /-- The tree was too deep to be printed, and the step ended there. -/
  | unprintable

namespace Session

/-- Prints a line. -/
def printLine (s : Session) (line : String) : Session :=
  { s with output := s.output ++ line ++ "\n" }

/-- Prints the value of an expression, or reports why it has none. -/
def interpret (s : Session) (e : Expr) : Session :=
  match e.evaluate .standard with
  | .ok v => s.printLine v.text
  | .error err => { s with reporter := s.reporter.report err.diagnostic }

/-- Prints the value of an expression, or raises the error why it has none. -/
def interpretOrRaise (s : Session) (e : Expr) : Session × Answer :=
  match e.evaluate .standard with
  | .ok v => (s.printLine v.text, .done)
  | .error err => (s, .raised err)

/-- Scans an input and prints its tokens if they are asked for. -/
def scan (s : Session) (dumps : Dumps) (source : String) : List Token × Session :=
  let (scanned, reporter) := s.reporter.scan source
  let s := { s with reporter }
  let tokens := scanned.tokens
  (tokens, if dumps.tokens then tokens.foldl (fun s t => s.printLine t.listing) s else s)

/-- Prints the tree of an expression if it is asked for, then evaluates it. -/
def finish (s : Session) (dumps : Dumps) (e : Expr) : Session × Answer :=
  if dumps.tree then
    match e.print? .standard with
    | some text => ((s.printLine text).interpret e, .done)
    | none => (s, .unprintable)
  else (s.interpret e, .done)

/-- Runs one input. -/
def run (s : Session) (dumps : Dumps) (source : String) : Session × Answer :=
  let (tokens, s) := s.scan dumps source
  let (reading, reporter) := s.reporter.parse tokens
  let s := { s with reporter }
  match reading.tree? with
  | none => (s, .done)
  | some e => if s.reporter.hadError then (s, .done) else s.finish dumps e

/-- Does one step. -/
def step (s : Session) : Step → Session × Answer
  | .run source dumps => s.run dumps source
  | .scan source =>
    let (scanned, reporter) := s.reporter.scan source
    ({ s with reporter }, .tokens (scanned.tokens.map Token.listing))
  | .parse source =>
    let (scanned, reporter) := s.reporter.scan source
    let (reading, reporter) := reporter.parse scanned.tokens
    ({ s with reporter }, .parsed reading.tree?.isSome)
  | .interpret source report =>
    match (Expr.parse .standard (Scan.ofText source).tokens).tree? with
    | none => (s, .done)
    | some e => if report then (s.interpret e, .done) else s.interpretOrRaise e
  | .error line message place =>
    ({ s with reporter := s.reporter.error line message place }, .done)
  | .runtimeError e => ({ s with reporter := s.reporter.report e.diagnostic }, .done)
  | .report d => ({ s with reporter := s.reporter.report d }, .done)
  | .setVerbose verbose => ({ s with reporter := { s.reporter with verbose } }, .done)
  | .reset => ({ s with reporter := s.reporter.reset }, .done)

/-- A text without its first part. -/
def since (before after : String) : String :=
  String.ofList (after.toList.drop before.length)

/-- What one step did: its answer, what it printed and reported, and the state it left. -/
structure Record where
  answer : Answer
  printed : String
  reported : String
  after : Session

/-- Does steps in order and records each. -/
def play (s : Session) : List Step → List Record × Session
  | [] => ([], s)
  | step :: steps =>
    let (after, answer) := s.step step
    let (records, last) := play after steps
    ({ answer
       printed := since s.output after.output
       reported := since s.reporter.text after.reporter.text
       after } :: records, last)

end Session
end LoxCalc
