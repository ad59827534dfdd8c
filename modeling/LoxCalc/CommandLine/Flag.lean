/-!
# Command-line options

The options of the program and their spellings. A spelling of one letter follows a single dash, a
longer one two dashes.
-/

namespace LoxCalc
namespace CommandLine

/-- An option of the program. -/
inductive Flag where
  | help
  /-- Evaluate the expression given on the command line. -/
  | expression
  /-- Print the tokens of each input. -/
  | tokens
  /-- Print the tree of each input. -/
  | tree
  /-- Add codes and hints to diagnostics. -/
  | verbose
  | version
  deriving DecidableEq

namespace Flag

/-- Every spelling of every option, in the order in which matches are listed. -/
def spellings : List (String × Flag) :=
  [("-h", .help), ("--help", .help), ("-e", .expression), ("--eval", .expression),
   ("--tokens", .tokens), ("--ast", .tree), ("-v", .verbose), ("--verbose", .verbose),
   ("--version", .version)]

/-- The option with exactly the given spelling. -/
def ofSpelling? (text : String) : Option Flag :=
  spellings.lookup text

/-- The option with the given letter after a single dash. -/
def ofLetter? (c : Char) : Option Flag :=
  ofSpelling? (String.ofList ['-', c])

/-- The spellings that begin with the given text. -/
def completions (text : String) : List (String × Flag) :=
  spellings.filter fun (spelling, _) => text.toList.isPrefixOf spelling.toList

/-- An option as messages name it: all its spellings. -/
def name (flag : Flag) : String :=
  "/".intercalate ((spellings.filter (·.2 == flag)).map (·.1))

/-- Whether an option is followed by a value. -/
def takesValue (flag : Flag) : Bool :=
  flag == .expression

end Flag
end CommandLine
end LoxCalc
