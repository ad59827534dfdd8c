import LoxCalc.Proofs.SessionHistory

/-!
# What a step does

A step answers, prints and reports. Of everything that happened in the session before it, only one
thing has a part in this: whether a static error stands. `Step.effect` says what a step does in
either case, without looking at a session, and `Session.step_eq` that a session undergoes just that.
Two steps, changing the verbose setting and resetting, do nothing else than to change the reporter
(`Session.adjust`).
-/

namespace LoxCalc

/-! ## Texts of diagnostics -/

/-- The text of diagnostics, each on lines of its own. -/
def Diagnostic.renderAll (verbose : Bool) (ds : List Diagnostic) : String :=
  String.join (ds.map fun d => d.render verbose ++ "\n")

namespace Reporter

@[simp] lemma verbose_reportAll (r : Reporter) (ds : List Diagnostic) :
    (r.reportAll ds).verbose = r.verbose := by
  induction ds generalizing r with
  | nil => rfl
  | cons d ds ih => exact ih (r.report d)

@[simp] lemma text_reportAll (r : Reporter) (ds : List Diagnostic) :
    (r.reportAll ds).text = r.text ++ Diagnostic.renderAll r.verbose ds := by
  induction ds generalizing r with
  | nil => simp [Diagnostic.renderAll, String.join]
  | cons d ds ih =>
    show ((r.report d).reportAll ds).text = _
    rw [ih]
    simp [report, Diagnostic.renderAll, String.append_assoc]

end Reporter

/-! ## Effects -/

/-- What a step does: what it answers, prints and reports. -/
structure Effect where
  answer : Answer := .done
  printed : String := ""
  reported : List Diagnostic := []

/-- The line that is printed of the value of an expression, if it has one. -/
def Expr.valueLine (e : Expr) : String :=
  match e.evaluate .standard with
  | .ok v => v.text ++ "\n"
  | .error _ => ""

/-- What it does to evaluate an expression, an error being reported. -/
def Expr.effect (e : Expr) : Effect :=
  { printed := e.valueLine, reported := e.runtimeDiagnostics }

/-- What it does to evaluate an expression, an error being raised. -/
def Expr.raisingEffect (e : Expr) : Effect :=
  match e.evaluate .standard with
  | .ok _ => { printed := e.valueLine }
  | .error err => { answer := .raised err }

/-- What it does to print the tree of an expression, if it is asked for, and to evaluate it. -/
def Dumps.effect (dumps : Dumps) (e : Expr) : Effect :=
  match dumps.printed? e with
  | none => { answer := .unprintable }
  | some text => { e.effect with printed := text ++ e.valueLine }

/-- What it does to run an input, given whether a static error stands. -/
def Scan.effect (stands : Bool) (dumps : Dumps) (source : String) : Effect :=
  let listing := dumps.listing (ofText source).tokens
  if stands || !(staticDiagnostics source).isEmpty then
    { printed := listing, reported := staticDiagnostics source }
  else
    match (reading source).tree? with
    | none => { printed := listing }
    | some e => { dumps.effect e with printed := listing ++ (dumps.effect e).printed }

/-- What a step does, given whether a static error stands. -/
def Step.effect (stands : Bool) : Step → Effect
  | .run source dumps => Scan.effect stands dumps source
  | .scan source =>
    { answer := .tokens ((Scan.ofText source).tokens.map Token.listing)
      reported := Scan.lexicalDiagnostics source }
  | .parse source =>
    { answer := .parsed (Scan.reading source).tree?.isSome
      reported := Scan.staticDiagnostics source }
  | .interpret source reports =>
    match (Scan.reading source).tree? with
    | none => {}
    | some e => if reports then e.effect else e.raisingEffect
  | .error line message place => { reported := [{ message, line, phase := .parser, place }] }
  | .runtimeError e => { reported := [e.diagnostic] }
  | .report d => { reported := [d] }
  | .setVerbose _ => {}
  | .reset => {}

namespace Session

/-- A session after an effect. -/
def undergo (s : Session) (f : Effect) : Session :=
  { reporter := s.reporter.reportAll f.reported, output := s.output ++ f.printed }

/-- What a step changes in the reporter besides reporting. -/
def adjust (s : Session) : Step → Session
  | .setVerbose verbose => { s with reporter := { s.reporter with verbose } }
  | .reset => { s with reporter := s.reporter.reset }
  | _ => s

@[simp] lemma undergo_default (s : Session) : s.undergo {} = s := by
  simp [undergo]

/-! ## Sessions undergo effects -/

lemma interpret_eq (s : Session) (e : Expr) : s.interpret e = s.undergo e.effect := by
  unfold interpret Expr.effect Expr.valueLine Expr.runtimeDiagnostics
  cases e.evaluate .standard with
  | ok v => simp [printLine, undergo, String.append_assoc]
  | error err => simp [undergo, Reporter.reportAll]

lemma interpretOrRaise_eq (s : Session) (e : Expr) :
    s.interpretOrRaise e = (s.undergo e.raisingEffect, e.raisingEffect.answer) := by
  unfold interpretOrRaise Expr.raisingEffect Expr.valueLine
  cases e.evaluate .standard with
  | ok v => simp [printLine, undergo, String.append_assoc]
  | error err => simp [undergo]

/-- A run does what its input and the flag for static errors say. -/
theorem run_eq_undergo (s : Session) (dumps : Dumps) (source : String) :
    s.run dumps source =
      (s.undergo (Scan.effect s.reporter.hadError dumps source),
        (Scan.effect s.reporter.hadError dumps source).answer) := by
  have hruns := runs_run s dumps source
  generalize s.run dumps source = ended at hruns
  obtain ⟨after, answer⟩ := ended
  unfold Scan.effect
  cases hruns with
  | skipped hstands =>
    have hcondition :
        (s.reporter.hadError || !(Scan.staticDiagnostics source).isEmpty) = true := by
      rw [← Bool.not_eq_false, Bool.or_eq_false_iff, Bool.not_eq_false', List.isEmpty_iff]
      exact hstands
    rw [if_pos hcondition]
    rfl
  | unprintable hbefore hstatic hreading hprinted =>
    simp only [hbefore, hstatic, hreading, Reading.tree?, Dumps.effect, hprinted]
    simp [undergo]
  | evaluated hbefore hstatic hreading hprinted =>
    simp only [hbefore, hstatic, hreading, Reading.tree?, Dumps.effect, hprinted]
    refine Prod.ext ((interpret_eq _ _).trans ?_) rfl
    simp [undergo, Expr.effect, String.append_assoc]

/-- A step does what it says itself, given the flag for static errors; nothing else in the session
has a part in it. -/
theorem step_eq (s : Session) (x : Step) :
    s.step x =
      ((s.undergo (x.effect s.reporter.hadError)).adjust x,
        (x.effect s.reporter.hadError).answer) := by
  cases x with
  | run source dumps => exact run_eq_undergo s dumps source
  | scan source => simp [step, Step.effect, undergo, adjust, Reporter.scan, Scan.lexicalDiagnostics]
  | parse source =>
    simp [step, Step.effect, undergo, adjust, Reporter.scan, Reporter.parse,
      Scan.staticDiagnostics, Scan.reading, Reporter.reportAll_append]
  | interpret source reports =>
    simp only [step, Step.effect, Scan.reading]
    cases (Expr.parse .standard (Scan.ofText source).tokens).tree? with
    | none => simp [adjust]
    | some e =>
      cases reports with
      | true => simp [interpret_eq, adjust, Expr.effect]
      | false => simp [interpretOrRaise_eq, adjust]
  | error line message place =>
    simp [step, Step.effect, undergo, adjust, Reporter.reportAll, Reporter.error]
  | runtimeError e => simp [step, Step.effect, undergo, adjust, Reporter.reportAll]
  | report d => simp [step, Step.effect, undergo, adjust, Reporter.reportAll]
  | setVerbose verbose => simp [step, Step.effect, adjust]
  | reset => simp [step, Step.effect, adjust]

end Session
end LoxCalc
