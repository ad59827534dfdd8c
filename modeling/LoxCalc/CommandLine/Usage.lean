import LoxCalc.CommandLine.Flag
import LoxCalc.Text.Unicode

/-!
# Usage

What the program says about its command line and itself: the usage line, the help text, the version,
and what is wrong with a command line that cannot be understood.
-/

namespace LoxCalc

/-- The facts a release is known by. The program shows its version; the others are there to be
looked up, as the texts of the error codes are. -/
structure Release where
  version : String
  author : String
  license : String

/-- The present release. -/
def Release.current : Release :=
  { version := "0.1.0", author := "xwest", license := "MIT" }

namespace CommandLine

/-- What is wrong with a command line. -/
inductive UsageError where
  /-- A shortened option stands for several. -/
  | ambiguous (argument : String) (candidates : List String)
  /-- A text is attached to an option that takes none. -/
  | ignored (flag : Flag) (attached : String)
  /-- An option lacks its value. -/
  | missingValue (flag : Flag)
  /-- Arguments are left over. -/
  | unrecognized (arguments : List String)

namespace UsageError

/-- A usage error in words. -/
def message : UsageError → String
  | .ambiguous argument candidates =>
    "ambiguous option: " ++ argument ++ " could match " ++ ", ".intercalate candidates
  | .ignored flag attached =>
    "argument " ++ flag.name ++ ": ignored explicit argument " ++ Text.quoted attached
  | .missingValue flag => "argument " ++ flag.name ++ ": expected one argument"
  | .unrecognized arguments => "unrecognized arguments: " ++ " ".intercalate arguments

end UsageError

/-- The line that sums up the command line. -/
def usageLine : String :=
  "usage: lox [-h] [-e EXPR] [--tokens] [--ast] [-v] [--version] [script ...]\n"

/-- The help text. -/
def helpText : String :=
  usageLine ++
  "\n" ++
  "Evaluate Lox expressions from a file or an interactive prompt\n" ++
  "\n" ++
  "positional arguments:\n" ++
  "  script                Script to run (omit for the interactive prompt)\n" ++
  "\n" ++
  "options:\n" ++
  "  -h, --help            show this help message and exit\n" ++
  "  -e EXPR, --eval EXPR  Evaluate EXPR instead of reading a script\n" ++
  "  --tokens              Print the scanned tokens of each input\n" ++
  "  --ast                 Print the parsed tree of each input\n" ++
  "  -v, --verbose         Add error codes and help text to diagnostics\n" ++
  "  --version             show program's version number and exit\n" ++
  "\n" ++
  "Examples:\n" ++
  "    lox                       # Start the prompt\n" ++
  "    lox calc.lox              # Evaluate a file\n" ++
  "    lox --ast calc.lox        # Print the parsed tree before evaluating\n" ++
  "    lox -e '(1 + 2) * 3'      # Evaluate an expression given inline\n" ++
  "        \n"

/-- The version as the program prints it. -/
def versionText : String :=
  "lox " ++ Release.current.version ++ "\n"

/-- What is printed when several inputs are given at once. -/
def tooManyInputs : String :=
  "Usage: lox [script]\n"

end CommandLine
end LoxCalc
