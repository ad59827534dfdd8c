import LoxCalc.Expr.Parse
import LoxCalc.Reporter
import LoxCalc.Token.Scan

/-!
# Scanning and reading with a reporter

The stages before evaluation, with their errors reported as they are found. What a stage finds does
not depend on the reporter.
-/

namespace LoxCalc
namespace Reporter

/-- Scans a text and reports the lexical errors. -/
def scan (r : Reporter) (source : String) : Scan × Reporter :=
  let scanned := Scan.ofText source
  (scanned, r.reportAll (scanned.errors.map LexicalError.diagnostic))

/-- Reads the expression a token list begins with and reports the syntax error, if any. -/
def parse (r : Reporter) (tokens : List Token) : Reading × Reporter :=
  let reading := Expr.parse .standard tokens
  (reading, r.reportAll (reading.error?.toList.map SyntaxError.diagnostic))

/-- Scans a text a number of times, with one reporter, and keeps the last scan; a text that is
never scanned has no tokens. -/
def scanTimes (r : Reporter) (source : String) : Nat → Scan × Reporter
  | 0 => ({ tokens := [], errors := [], line := 1 }, r)
  | 1 => r.scan source
  | n + 2 => (r.scan source).2.scanTimes source (n + 1)

/-- Reads a token list a number of times, with one reporter; every reading is kept. -/
def parseTimes (r : Reporter) (tokens : List Token) : Nat → List Reading × Reporter
  | 0 => ([], r)
  | n + 1 =>
    let (reading, r) := r.parse tokens
    let (readings, r) := r.parseTimes tokens n
    (reading :: readings, r)

end Reporter
end LoxCalc
