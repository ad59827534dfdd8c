import LoxCalc.CommandLine.Usage

/-!
# Understanding the arguments

Every argument is first classified by itself: as an option, with or without a text attached to it,
as an unknown option, or as an operand. After a first `--` everything is an operand. The classified
arguments are then taken in order. Only the first run of operands counts as scripts; operands after
a later option, and unknown options, are left over.
-/

namespace LoxCalc
namespace CommandLine

/-- An argument by itself. -/
inductive Argument where
  | operand (text : String)
  /-- The first `--`. -/
  | separator
  /-- An option; `long` says whether it was spelled with two dashes. -/
  | option (flag : Flag) (long : Bool) (attached : Option String)
  | unknown (text : String)

/-- What the command line asks for. -/
structure Invocation where
  scripts : List String := []
  expression : Option String := none
  tokens : Bool := false
  tree : Bool := false
  verbose : Bool := false

/-- Why a command line is not carried out. -/
inductive Stop where
  | help
  | version
  | usage (e : UsageError)

namespace Argument

/-- The part of a text before the first `=`, and the part after it if there is one. -/
def splitAtEqual (text : String) : String × Option String :=
  let cs := text.toList
  (String.ofList (cs.takeWhile (· != '=')),
    match cs.dropWhile (· != '=') with
    | [] => none
    | _ :: rest => some (String.ofList rest))

/-- An argument that begins with a dash and is no option's spelling, even with a text attached: a
negative number or a text with a space is an operand all the same. -/
def ofDashed (text : String) : Argument :=
  if Text.isNegativeNumber text || text.toList.contains ' ' then .operand text
  else .unknown text

/-- An argument that begins with two dashes: the spelling before a `=` may be cut short as long as
one option alone begins with it. -/
def ofLong (text : String) : Except UsageError Argument :=
  let (spelling, attached) := splitAtEqual text
  match Flag.completions spelling with
  | [] => .ok (ofDashed text)
  | [(_, flag)] => .ok (.option flag true attached)
  | several => .error (.ambiguous text (several.map (·.1)))

/-- An argument that begins with a single dash: a text may be attached right after the letter, or
after a `=`. -/
def ofShort (text : String) : Argument :=
  match text.toList, splitAtEqual text with
  | '-' :: c :: rest, (spelling, attached) =>
    match Flag.ofSpelling? spelling, attached, Flag.ofLetter? c with
    | some flag, some value, _ => .option flag false (some value)
    | _, _, some flag => .option flag false (some (String.ofList rest))
    | _, _, none => ofDashed text
  | _, _ => ofDashed text

/-- Classifies an argument before any `--`. -/
def classify (text : String) : Except UsageError Argument :=
  match text.toList with
  | '-' :: c :: _ =>
    match Flag.ofSpelling? text with
    | some flag => .ok (.option flag (c == '-') none)
    | none => if c = '-' then ofLong text else .ok (ofShort text)
  | _ => .ok (.operand text)

/-- Classifies all arguments. -/
def classifyAll : List String → Except UsageError (List Argument)
  | [] => .ok []
  | text :: rest =>
    if text = "--" then .ok (.separator :: rest.map .operand)
    else (classify text).bind fun a => (classifyAll rest).map (a :: ·)

end Argument

/-- The options bundled in one argument: those without a value, and how the value of the last one
is given if it takes one. -/
structure Bundle where
  flags : List Flag := []
  /-- Whether the bundle ends with an option that takes a value, and the value if it is attached. -/
  valued : Option (Option String) := none

namespace Bundle

/-- The bundle of an option without attached text. -/
def single (flag : Flag) : Bundle :=
  if flag.takesValue then { valued := some none } else { flags := [flag] }

/-- The bundle of an option with attached text: its value, or the letters of further options. -/
def ofAttached (flag : Flag) (long : Bool) : List Char → Except UsageError Bundle
  | [] => if flag.takesValue then .ok { valued := some (some "") } else .error (.ignored flag "")
  | c :: rest =>
    let attached := String.ofList (c :: rest)
    if flag.takesValue then .ok { valued := some (some attached) }
    else if long then .error (.ignored flag attached)
    else
      match Flag.ofLetter? c with
      | none => .error (.ignored flag attached)
      | some next =>
        let others := if rest.isEmpty then .ok (single next) else ofAttached next false rest
        others.map fun b => { b with flags := flag :: b.flags }

end Bundle

/-- Where the arguments taken stand to the scripts, which are the first run of operands. -/
inductive ScriptRun where
  | before
  | within
  | after
  deriving DecidableEq

/-- What has been taken so far. -/
structure Taken where
  invocation : Invocation := {}
  scriptRun : ScriptRun := .before
  leftOver : List String := []

namespace Taken

/-- Leaves an argument over. -/
def leave (t : Taken) (text : String) : Taken :=
  { t with leftOver := t.leftOver ++ [text] }

/-- Takes an operand. -/
def operand (t : Taken) (text : String) : Taken :=
  if t.scriptRun = .after then t.leave text
  else
    { t with
      scriptRun := .within
      invocation := { t.invocation with scripts := t.invocation.scripts ++ [text] } }

/-- Takes the separator. -/
def separator (t : Taken) : Taken :=
  if t.scriptRun = .after then t.leave "--" else { t with scriptRun := .within }

/-- Ends a run of operands. -/
def close (t : Taken) : Taken :=
  { t with scriptRun := if t.scriptRun = .before then .before else .after }

/-- Takes an option without a value; one that takes a value changes nothing until the value
comes. -/
def flag (t : Taken) : Flag → Except Stop Taken
  | .help => .error .help
  | .version => .error .version
  | .tokens => .ok { t with invocation := { t.invocation with tokens := true } }
  | .tree => .ok { t with invocation := { t.invocation with tree := true } }
  | .verbose => .ok { t with invocation := { t.invocation with verbose := true } }
  | .expression => .ok t

/-- Takes options without a value, in order. -/
def flags (t : Taken) (all : List Flag) : Except Stop Taken :=
  all.foldlM flag t

/-- Takes the expression to evaluate; the last one given counts. A lone `--` is no text. -/
def expression (t : Taken) (text : String) : Taken :=
  let text := if text = "--" then "" else text
  { t with invocation := { t.invocation with expression := some text } }

end Taken

/-- The bundle of an option as it is classified. -/
def bundleOf (flag : Flag) (long : Bool) (attached : Option String) : Except UsageError Bundle :=
  match attached with
  | none => .ok (.single flag)
  | some text => Bundle.ofAttached flag long text.toList

/-- Takes classified arguments in order. An option that takes a value and has none attached takes
the next argument, which must be an operand. -/
def takeAll (t : Taken) : List Argument → Except Stop Taken
  | [] => .ok t
  | .operand text :: rest => takeAll (t.operand text) rest
  | .separator :: rest => takeAll t.separator rest
  | .unknown text :: rest => takeAll (t.close.leave text) rest
  | .option flag long attached :: rest =>
    match bundleOf flag long attached with
    | .error e => .error (.usage e)
    | .ok bundle =>
      match bundle.valued, rest with
      | none, rest => (t.close.flags bundle.flags).bind fun t => takeAll t rest
      | some (some text), rest =>
        (t.close.flags bundle.flags).bind fun t => takeAll (t.expression text) rest
      | some none, .operand text :: rest =>
        (t.close.flags bundle.flags).bind fun t => takeAll (t.expression text) rest
      | some none, _ => .error (.usage (.missingValue .expression))

/-- Understands a command line. -/
def understand (arguments : List String) : Except Stop Invocation :=
  match Argument.classifyAll arguments with
  | .error e => .error (.usage e)
  | .ok classified =>
    (takeAll {} classified).bind fun t =>
      if t.leftOver.isEmpty then .ok t.invocation
      else .error (.usage (.unrecognized t.leftOver))

end CommandLine
end LoxCalc
