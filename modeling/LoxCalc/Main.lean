import LoxCalc.CommandLine.Program

/-!
# The executable

Reads the script that the command line names, or the lines typed in, and writes out what the
program prints and reports.
-/

namespace LoxCalc
namespace CommandLine

/-- What an error of the file system means for a script. A folder can be opened and fails only on
being read, so its error names no path. -/
def ReadFault.ofSystem : IO.Error → ReadFault
  | .noFileOrDirectory .. => .missing
  | .inappropriateType none .. => .isFolder
  | .inappropriateType (some _) .. => .notFolder
  | .invalidArgument .. => .nameTooLong
  | .permissionDenied .. => .system "Permission denied"
  | e => .system (toString e)

/-- Reads the file at a path. -/
def readScript (path : String) : IO (Except ReadFault (List UInt8)) := do
  try
    let bytes ← IO.FS.readBinFile path
    return .ok bytes.toList
  catch e => return .error (.ofSystem e)

/-- Writes out what a session has printed and reported. -/
def flush (output errors : String) : IO Unit := do
  IO.print output
  (← IO.getStdout).flush
  IO.eprint errors

/-- The exit code of an ending; a tree that cannot be printed is a failure. -/
def Ending.code : Ending → UInt32
  | .exit code => code.toUInt32
  | .unprintable => 1

/-- Writes out a run. -/
def Run.perform (r : Run) : IO UInt32 := do
  flush r.output r.errors
  return r.ending.code

/-- A session whose output has been written out. -/
def written (s : Session) : Session :=
  { s with output := "", reporter := { s.reporter with text := "" } }

/-- Runs lines as they are typed in, `typed` first. -/
partial def promptLoop (dumps : Dumps) (s : Session) (typed : List String) : IO UInt32 := do
  match typed with
  | [] =>
    flush promptText ""
    let line ← (← IO.getStdin).getLine
    if line.isEmpty then
      flush "\n" ""
      return 0
    else
      -- The first prompt of these lines is already written.
      match Text.lines line with
      | [] => promptLoop dumps s []
      | first :: rest =>
        let (next, answer) := s.run dumps first
        flush next.output next.reporter.text
        if answer matches .unprintable then return Ending.unprintable.code
        promptLoop dumps (written { next with reporter := next.reporter.reset }) rest
  | line :: rest =>
    let (next, answer) := Run.promptLine dumps line s
    flush next.output next.reporter.text
    if answer matches .unprintable then return Ending.unprintable.code
    promptLoop dumps (written next) rest

/-- Carries out a command line. -/
def perform (arguments : List String) : IO UInt32 := do
  match understand arguments with
  | .error stop => (Run.ofStop stop).perform
  | .ok i =>
    match i.input? with
    | none => Run.tooMany.perform
    | some (.expression source) => (Run.ofSource i source).perform
    | some (.script path) => (Run.ofScript i path (← readScript path)).perform
    | some .prompt => promptLoop i.dumps i.session []

end CommandLine
end LoxCalc

def main (arguments : List String) : IO UInt32 :=
  LoxCalc.CommandLine.perform arguments
