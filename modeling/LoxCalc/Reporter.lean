import LoxCalc.Diagnostic

/-!
# Reporters

A reporter collects diagnostics, writes them out as they come, and remembers whether there were
static or runtime errors since it was last reset.
-/

namespace LoxCalc

/-- What has been reported so far. -/
structure Reporter where
  verbose : Bool := false
  /-- Whether a diagnostic of a phase other than runtime came since the last reset. -/
  hadError : Bool := false
  /-- Whether a diagnostic of the runtime phase came since the last reset. -/
  hadRuntimeError : Bool := false
  /-- Every diagnostic, the earliest first. -/
  diagnostics : List Diagnostic := []
  /-- Everything written. -/
  text : String := ""

namespace Reporter

/-- Reports a diagnostic. -/
def report (r : Reporter) (d : Diagnostic) : Reporter :=
  { r with
    hadError := r.hadError || d.phase != .runtime
    hadRuntimeError := r.hadRuntimeError || d.phase == .runtime
    diagnostics := r.diagnostics ++ [d]
    text := r.text ++ d.render r.verbose ++ "\n" }

/-- Reports diagnostics in order. -/
def reportAll (r : Reporter) (ds : List Diagnostic) : Reporter :=
  ds.foldl report r

/-- Reports a static error in the caller's words. -/
def error (r : Reporter) (line : Int) (message place : String) : Reporter :=
  r.report { message, line, phase := .parser, place }

/-- Whether anything was reported since the last reset. -/
def hasErrors (r : Reporter) : Bool :=
  r.hadError || r.hadRuntimeError

/-- Forgets that there were errors; what was reported stays. -/
def reset (r : Reporter) : Reporter :=
  { r with hadError := false, hadRuntimeError := false }

end Reporter
end LoxCalc
