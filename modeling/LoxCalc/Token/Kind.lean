/-!
# Token kinds

The kinds of token the language has, their names, and the tables that relate them to spelling:
reserved words, one-character marks, and the four marks that may be followed by `=`.
-/

namespace LoxCalc
namespace Token

/-- The kind of a token. -/
inductive Kind where
  | leftParen | rightParen | leftBrace | rightBrace
  | comma | dot | minus | plus | semicolon | slash | star
  | bang | bangEqual | equal | equalEqual | greater | greaterEqual | less | lessEqual
  | identifier | string | number
  | kwAnd | kwClass | kwElse | kwFalse | kwFun | kwFor | kwIf | kwNil | kwOr | kwPrint | kwReturn
  | kwSuper | kwThis | kwTrue | kwVar | kwWhile
  | eof
  deriving DecidableEq

namespace Kind

/-- Every kind, in the order the language lists them. -/
def all : List Kind :=
  [.leftParen, .rightParen, .leftBrace, .rightBrace, .comma, .dot, .minus, .plus, .semicolon,
   .slash, .star, .bang, .bangEqual, .equal, .equalEqual, .greater, .greaterEqual, .less,
   .lessEqual, .identifier, .string, .number, .kwAnd, .kwClass, .kwElse, .kwFalse, .kwFun,
   .kwFor, .kwIf, .kwNil, .kwOr, .kwPrint, .kwReturn, .kwSuper, .kwThis, .kwTrue, .kwVar,
   .kwWhile, .eof]

/-- The name a kind is listed under. -/
def name : Kind → String
  | .leftParen => "LEFT_PAREN"
  | .rightParen => "RIGHT_PAREN"
  | .leftBrace => "LEFT_BRACE"
  | .rightBrace => "RIGHT_BRACE"
  | .comma => "COMMA"
  | .dot => "DOT"
  | .minus => "MINUS"
  | .plus => "PLUS"
  | .semicolon => "SEMICOLON"
  | .slash => "SLASH"
  | .star => "STAR"
  | .bang => "BANG"
  | .bangEqual => "BANG_EQUAL"
  | .equal => "EQUAL"
  | .equalEqual => "EQUAL_EQUAL"
  | .greater => "GREATER"
  | .greaterEqual => "GREATER_EQUAL"
  | .less => "LESS"
  | .lessEqual => "LESS_EQUAL"
  | .identifier => "IDENTIFIER"
  | .string => "STRING"
  | .number => "NUMBER"
  | .kwAnd => "AND"
  | .kwClass => "CLASS"
  | .kwElse => "ELSE"
  | .kwFalse => "FALSE"
  | .kwFun => "FUN"
  | .kwFor => "FOR"
  | .kwIf => "IF"
  | .kwNil => "NIL"
  | .kwOr => "OR"
  | .kwPrint => "PRINT"
  | .kwReturn => "RETURN"
  | .kwSuper => "SUPER"
  | .kwThis => "THIS"
  | .kwTrue => "TRUE"
  | .kwVar => "VAR"
  | .kwWhile => "WHILE"
  | .eof => "EOF"

/-- The kind listed under a name. -/
def ofName? (s : String) : Option Kind :=
  all.find? (·.name == s)

/-- The reserved words, in alphabetical order. Case matters: `Nil` is an identifier. -/
def reserved : List (String × Kind) :=
  [("and", .kwAnd), ("class", .kwClass), ("else", .kwElse), ("false", .kwFalse),
   ("for", .kwFor), ("fun", .kwFun), ("if", .kwIf), ("nil", .kwNil), ("or", .kwOr),
   ("print", .kwPrint), ("return", .kwReturn), ("super", .kwSuper), ("this", .kwThis),
   ("true", .kwTrue), ("var", .kwVar), ("while", .kwWhile)]

/-- The marks that are a token by themselves whatever follows, by code point. -/
def marks : List (Char × Kind) :=
  [('(', .leftParen), (')', .rightParen), ('*', .star), ('+', .plus), (',', .comma),
   ('-', .minus), ('.', .dot), (';', .semicolon), ('{', .leftBrace), ('}', .rightBrace)]

/-- The marks that join with a following `=`: the joined kind, then the kind alone, by code
point. -/
def joining : List (Char × Kind × Kind) :=
  [('!', .bangEqual, .bang), ('<', .lessEqual, .less), ('=', .equalEqual, .equal),
   ('>', .greaterEqual, .greater)]

/-- The kind of a word: a reserved word has its own, any other is an identifier. -/
def ofWord (word : String) : Kind :=
  (reserved.lookup word).getD .identifier

/-- Whether a token of this kind is a reserved word. -/
def isKeyword (k : Kind) : Bool :=
  reserved.any (·.2 == k)

/-- The kinds that stand for a value. -/
def literals : List Kind :=
  [.number, .string, .kwTrue, .kwFalse, .kwNil]

/-- Whether a token of this kind stands for a value. -/
def isLiteral (k : Kind) : Bool :=
  literals.contains k

/-- The kinds that begin a statement. -/
def statementStarts : List Kind :=
  [.kwClass, .kwFun, .kwVar, .kwFor, .kwIf, .kwWhile, .kwPrint, .kwReturn]

/-- Whether a token of this kind begins a statement. -/
def startsStatement (k : Kind) : Bool :=
  statementStarts.contains k

end Kind
end Token
end LoxCalc
