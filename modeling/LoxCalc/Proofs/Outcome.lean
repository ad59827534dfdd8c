import LoxCalc.CommandLine.Program
import LoxCalc.Proofs.SessionRun
import Mathlib

/-!
# One input, one outcome

A run that starts with nothing reported ends in one of four ways (`Session.Ends`): with static
errors, with a tree that cannot be printed, with a value, or with a runtime error. In all but the
second, the input either has a value and nothing is reported, or something is reported and no value
is printed, and the exit code of the program says which.
-/

namespace LoxCalc
namespace Session

/-- A session in which nothing has happened. -/
def fresh (verbose : Bool) : Session :=
  { reporter := { verbose } }

/-- The input has a value: nothing is reported, and what is asked for is printed, then the value. -/
def Succeeded (dumps : Dumps) (source : String) (after : Session) : Prop :=
  after.reporter.diagnostics = [] ∧
    ∃ e rest v text,
      (Scan.ofText source).errors = [] ∧
      Expr.parse .standard (Scan.ofText source).tokens = .tree e rest ∧
      e.eval .standard = .ok v ∧ dumps.printed? e = some text ∧
      after.output = dumps.listing (Scan.ofText source).tokens ++ text ++ v.text ++ "\n"

/-- The input has no value: something is reported, and only what is asked for is printed, the tree
only if there are no static errors. -/
def Failed (dumps : Dumps) (source : String) (after : Session) : Prop :=
  after.reporter.diagnostics ≠ [] ∧
    ((Scan.staticDiagnostics source ≠ [] ∧
        after.output = dumps.listing (Scan.ofText source).tokens) ∨
      ∃ e rest text, Scan.staticDiagnostics source = [] ∧
        Expr.parse .standard (Scan.ofText source).tokens = .tree e rest ∧
        dumps.printed? e = some text ∧
        after.output = dumps.listing (Scan.ofText source).tokens ++ text)

/-- What is reported: the lexical errors, then the syntax error exactly if there is no tree, then
the error of evaluating the tree, only if there is no other error. -/
def Diagnosed (source : String) (after : Session) : Prop :=
  ∃ runtime : Option RuntimeError,
    after.reporter.diagnostics =
      (Scan.ofText source).errors.map LexicalError.diagnostic ++
        (Expr.parse .standard (Scan.ofText source).tokens).error?.toList.map
          SyntaxError.diagnostic ++
        runtime.toList.map RuntimeError.diagnostic ∧
    ((Expr.parse .standard (Scan.ofText source).tokens).error?.isSome = true ↔
      (Expr.parse .standard (Scan.ofText source).tokens).tree? = none) ∧
    ∀ err, runtime = some err →
      (Scan.ofText source).errors = [] ∧
        ∃ e, (Expr.parse .standard (Scan.ofText source).tokens).tree? = some e ∧
          e.evaluate .standard = .error err

/-- The ways in which a run can end that starts with nothing reported. -/
inductive Ends (verbose : Bool) (dumps : Dumps) (source : String) : Session → Answer → Prop where
  | static : Scan.staticDiagnostics source ≠ [] →
      Ends verbose dumps source ((fresh verbose).afterStatic dumps source) .done
  | unprintable {e : Expr} {rest : List Token} :
      Scan.staticDiagnostics source = [] → Scan.reading source = .tree e rest →
      dumps.printed? e = none →
      Ends verbose dumps source ((fresh verbose).afterStatic dumps source) .unprintable
  | value {e : Expr} {rest : List Token} {text : String} {v : Value} :
      Scan.staticDiagnostics source = [] → Scan.reading source = .tree e rest →
      dumps.printed? e = some text → e.eval .standard = .ok v →
      Ends verbose dumps source
        { reporter := { verbose }
          output := dumps.listing (Scan.ofText source).tokens ++ text ++ v.text ++ "\n" } .done
  | runtime {e : Expr} {rest : List Token} {text : String} {err : RuntimeError} :
      Scan.staticDiagnostics source = [] → Scan.reading source = .tree e rest →
      dumps.printed? e = some text → e.evaluate .standard = .error err →
      Ends verbose dumps source
        { reporter := Reporter.report { verbose } err.diagnostic
          output := dumps.listing (Scan.ofText source).tokens ++ text } .done

/-- Without static errors, the static stages report nothing. -/
lemma afterStatic_fresh {verbose : Bool} {dumps : Dumps} {source : String}
    (h : Scan.staticDiagnostics source = []) :
    (fresh verbose).afterStatic dumps source =
      { reporter := { verbose }, output := dumps.listing (Scan.ofText source).tokens } := by
  rw [afterStatic, h, Reporter.reportAll_nil]
  simp [fresh]

/-- In a fresh session the flag for static errors says whether the input has any. -/
lemma hadError_afterStatic_fresh (verbose : Bool) (dumps : Dumps) (source : String) :
    ((fresh verbose).afterStatic dumps source).reporter.hadError = true ↔
      Scan.staticDiagnostics source ≠ [] := by
  rw [afterStatic, Reporter.hadError_reportAll]
  constructor
  · intro h hnil
    rw [hnil] at h
    exact absurd h (by simp [fresh])
  · intro h
    obtain ⟨d, hd⟩ := List.exists_mem_of_ne_nil _ h
    have hany : (Scan.staticDiagnostics source).any (·.phase != .runtime) = true :=
      List.any_eq_true.mpr ⟨d, hd, bne_iff_ne.mpr (Scan.phase_of_mem_staticDiagnostics hd)⟩
    rw [hany, Bool.or_true]

/-- A run that starts with nothing reported ends in one of the four ways. -/
theorem ends_run (verbose : Bool) (dumps : Dumps) (source : String) :
    Ends verbose dumps source ((fresh verbose).run dumps source).1
      ((fresh verbose).run dumps source).2 := by
  rw [run_eq]
  cases htree : (Scan.reading source).tree? with
  | none => exact .static (staticDiagnostics_ne_nil htree)
  | some e =>
    obtain ⟨rest, hreading⟩ := Reading.tree?_eq_some_iff.mp htree
    simp only
    by_cases hstatic : Scan.staticDiagnostics source = []
    · -- Nothing has been reported, so the tree is printed and evaluated.
      have hflag : ¬((fresh verbose).afterStatic dumps source).reporter.hadError = true :=
        fun h => (hadError_afterStatic_fresh verbose dumps source).mp h hstatic
      rw [if_neg hflag]
      cases hprinted : dumps.printed? e with
      | none =>
        rw [finish_of_not_printed hprinted]
        exact .unprintable hstatic hreading hprinted
      | some text =>
        rw [finish_of_printed hprinted, afterStatic_fresh hstatic]
        unfold interpret
        cases heval : e.eval .standard with
        | ok v =>
          have hvalue : e.evaluate .standard = .ok v := by rw [Expr.evaluate, heval]; rfl
          rw [hvalue]
          exact .value hstatic hreading hprinted heval
        | error failure =>
          have herror : e.evaluate .standard = .error (failure.report e) := by
            rw [Expr.evaluate, heval]
            rfl
          rw [herror]
          exact .runtime hstatic hreading hprinted herror
    · rw [if_pos ((hadError_afterStatic_fresh verbose dumps source).mpr hstatic)]
      exact .static hstatic

/-! ## Which way means which outcome -/

lemma errors_eq_nil {source : String} (h : Scan.staticDiagnostics source = []) :
    (Scan.ofText source).errors = [] :=
  List.map_eq_nil_iff.mp (List.append_eq_nil_iff.mp h).1

/-- A fresh session has reported exactly the static errors after the static stages. -/
lemma diagnostics_afterStatic_fresh (verbose : Bool) (dumps : Dumps) (source : String) :
    ((fresh verbose).afterStatic dumps source).reporter.diagnostics =
      Scan.staticDiagnostics source := by
  rw [afterStatic, Reporter.diagnostics_reportAll]
  rfl

/-- A run succeeds exactly if it ends normally and nothing is reported. -/
theorem Ends.succeeded_iff {verbose : Bool} {dumps : Dumps} {source : String} {after : Session}
    {answer : Answer} (h : Ends verbose dumps source after answer) :
    Succeeded dumps source after ↔ answer ≠ .unprintable ∧ after.reporter.diagnostics = [] := by
  cases h with
  | static hstatic =>
    have hne := diagnostics_afterStatic_fresh verbose dumps source ▸ hstatic
    exact ⟨fun hs => absurd hs.1 hne, fun hs => absurd hs.2 hne⟩
  | unprintable hstatic hreading hprinted =>
    constructor
    · -- A value is printed only after the tree.
      rintro ⟨-, e', rest', v, text, -, hparse, -, htext, -⟩
      rw [Scan.reading, hparse] at hreading
      cases hreading
      rw [hprinted] at htext
      cases htext
    · rintro ⟨hnormal, -⟩
      exact absurd rfl hnormal
  | value hstatic hreading hprinted heval =>
    refine ⟨fun _ => ⟨Answer.noConfusion, rfl⟩, fun _ => ⟨rfl, ?_⟩⟩
    exact ⟨_, _, _, _, errors_eq_nil hstatic, hreading, heval, hprinted, rfl⟩
  | runtime _ _ _ _ =>
    constructor
    · rintro ⟨hquiet, -⟩
      exact absurd hquiet (List.cons_ne_nil _ _)
    · rintro ⟨-, hquiet⟩
      exact absurd hquiet (List.cons_ne_nil _ _)

/-- A run fails exactly if it ends normally and something is reported. -/
theorem Ends.failed_iff {verbose : Bool} {dumps : Dumps} {source : String} {after : Session}
    {answer : Answer} (h : Ends verbose dumps source after answer) :
    Failed dumps source after ↔ answer ≠ .unprintable ∧ after.reporter.diagnostics ≠ [] := by
  cases h with
  | static hstatic =>
    have hne := diagnostics_afterStatic_fresh verbose dumps source ▸ hstatic
    refine ⟨fun _ => ⟨Answer.noConfusion, hne⟩, fun _ => ⟨hne, .inl ⟨hstatic, ?_⟩⟩⟩
    simp [afterStatic, fresh]
  | unprintable hstatic hreading hprinted =>
    constructor
    · rintro ⟨hne, -⟩
      rw [diagnostics_afterStatic_fresh] at hne
      exact absurd hstatic hne
    · rintro ⟨hnormal, -⟩
      exact absurd rfl hnormal
  | value _ _ _ _ => exact ⟨fun hs => absurd rfl hs.1, fun hs => absurd rfl hs.2⟩
  | runtime hstatic hreading hprinted _ =>
    refine ⟨fun _ => ⟨Answer.noConfusion, List.cons_ne_nil _ _⟩,
      fun _ => ⟨List.cons_ne_nil _ _, .inr ?_⟩⟩
    exact ⟨_, _, _, hstatic, hreading, hprinted, rfl⟩

/-- The static stages report the lexical errors and the syntax error. -/
lemma diagnosed_afterStatic_fresh (verbose : Bool) (dumps : Dumps) (source : String) :
    Diagnosed source ((fresh verbose).afterStatic dumps source) := by
  refine ⟨none, ?_, Scan.reading_error?_isSome_iff source, fun err herr => absurd herr (by simp)⟩
  rw [diagnostics_afterStatic_fresh]
  simp [Scan.staticDiagnostics, Scan.reading]

/-- What is reported in each of the ways. -/
theorem Ends.diagnosed {verbose : Bool} {dumps : Dumps} {source : String} {after : Session}
    {answer : Answer} (h : Ends verbose dumps source after answer) : Diagnosed source after := by
  have hsyntactic := Scan.reading_error?_isSome_iff source
  cases h with
  | static _ => exact diagnosed_afterStatic_fresh verbose dumps source
  | unprintable _ _ _ => exact diagnosed_afterStatic_fresh verbose dumps source
  | value hstatic _ _ _ =>
    refine ⟨none, ?_, hsyntactic, fun err herr => absurd herr (by simp)⟩
    rw [Scan.staticDiagnostics, Scan.reading] at hstatic
    rw [hstatic]
    rfl
  | @runtime e rest text err hstatic hreading _ herror =>
    refine ⟨some err, ?_, hsyntactic, ?_⟩
    · rw [Scan.staticDiagnostics, Scan.reading] at hstatic
      rw [hstatic]
      rfl
    · intro err' herr
      cases herr
      refine ⟨errors_eq_nil hstatic, e, ?_, herror⟩
      rw [← Scan.reading, hreading]
      rfl

/-- The flags of a reporter tell whether anything was reported. -/
lemma Ends.hasErrors_iff {verbose : Bool} {dumps : Dumps} {source : String} {after : Session}
    {answer : Answer} (h : Ends verbose dumps source after answer) :
    after.reporter.hasErrors = true ↔ after.reporter.diagnostics ≠ [] := by
  cases h with
  | static hstatic =>
    rw [diagnostics_afterStatic_fresh, Reporter.hasErrors,
      (hadError_afterStatic_fresh verbose dumps source).mpr hstatic]
    simpa using hstatic
  | unprintable hstatic _ _ =>
    rw [afterStatic_fresh hstatic]
    simp [Reporter.hasErrors]
  | value _ _ _ _ => simp [Reporter.hasErrors]
  | runtime _ _ _ _ => simp [Reporter.hasErrors, Reporter.report, RuntimeError.diagnostic]

end Session

namespace CommandLine

open Session

/-- `Gives i folder source`: the invocation asks for `source`, on the command line itself or in a
script that can be read. -/
def Invocation.Gives (i : Invocation) (folder : Folder) (source : String) : Prop :=
  i.input? = some (.expression source) ∨
    ∃ path, i.input? = some (.script path) ∧ (folder.read path).bind Run.scriptText = .ok source

lemma run_eq_ofSource {arguments : List String} {folder : Folder} {typed : Typed} {i : Invocation}
    {source : String} (harguments : understand arguments = .ok i) (hgives : i.Gives folder source) :
    run arguments folder typed = .ofSource i source := by
  unfold run
  rw [harguments]
  rcases hgives with hinput | ⟨path, hinput, hread⟩
  · simp only [hinput]
  · simp only [hinput, Run.ofScript, hread]

/-- The program exits if the run of its input ends normally, with a code for whether anything was
reported. -/
lemma ending_ofSource_iff (i : Invocation) (source : String) (code : Nat) :
    (Run.ofSource i source).ending = .exit code ↔
      (i.session.run i.dumps source).2 ≠ .unprintable ∧
        (if (i.session.run i.dumps source).1.reporter.hasErrors then 65 else 0) = code := by
  unfold Run.ofSource
  split
  · next s h =>
    rw [h]
    simp [Run.ofSession]
  · next s answer hnormal h =>
    have hanswer : answer ≠ .unprintable := by
      rintro rfl
      exact hnormal rfl
    rw [h]
    simp [Run.ofSession, hanswer, exitData]

/-- One input has one outcome. A run that starts with nothing reported and ends normally either
succeeds or fails, and reports lexical errors, a syntax error and a runtime error in this order, the
last only if it is alone. The program exits with 0 exactly if the run of its input succeeds and with
65 exactly if it fails. -/
theorem one_outcome (source : String) :
    (∀ (verbose : Bool) (dumps : Dumps) (after : Session) (answer : Answer),
      (fresh verbose).run dumps source = (after, answer) → answer ≠ .unprintable →
        Xor (Succeeded dumps source after) (Failed dumps source after) ∧ Diagnosed source after) ∧
    ∀ (arguments : List String) (folder : Folder) (typed : Typed) (i : Invocation),
      understand arguments = .ok i → i.Gives folder source →
        ((run arguments folder typed).ending = .exit 0 ↔
          Succeeded i.dumps source (i.session.run i.dumps source).1) ∧
        ((run arguments folder typed).ending = .exit 65 ↔
          Failed i.dumps source (i.session.run i.dumps source).1) := by
  constructor
  · intro verbose dumps after answer hrun hnormal
    have hends := ends_run verbose dumps source
    rw [hrun] at hends
    refine ⟨?_, hends.diagnosed⟩
    -- Both outcomes are about what was reported, and exclude each other.
    rw [hends.succeeded_iff, hends.failed_iff]
    by_cases hquiet : after.reporter.diagnostics = []
    · exact .inl ⟨⟨hnormal, hquiet⟩, fun hfailed => hfailed.2 hquiet⟩
    · exact .inr ⟨⟨hnormal, hquiet⟩, fun hsucceeded => hquiet hsucceeded.2⟩
  · intro arguments folder typed i harguments hgives
    have hends := ends_run i.verbose i.dumps source
    change Ends _ _ _ (i.session.run i.dumps source).1 (i.session.run i.dumps source).2 at hends
    -- The exit code depends on the flags, which tell whether anything was reported.
    have hflag := hends.hasErrors_iff
    rw [run_eq_ofSource harguments hgives, ending_ofSource_iff, ending_ofSource_iff,
      hends.succeeded_iff, hends.failed_iff]
    by_cases hquiet : (i.session.run i.dumps source).1.reporter.diagnostics = []
    · have hno : ¬(i.session.run i.dumps source).1.reporter.hasErrors = true :=
        fun h => hflag.mp h hquiet
      simp [hno, hquiet]
    · have hyes := hflag.mpr hquiet
      simp [hyes, hquiet]

/-- `!nil` has the value true; a parenthesis alone has an error instead. -/
theorem one_outcome_negation :
    (run ["-e", "!nil"] [] ⟨[], false⟩).ending = .exit 0 ∧
      Succeeded {} "!nil" { output := "true\n" } ∧ ¬Failed {} "!nil" { output := "true\n" } ∧
      (run ["-e", ")"] [] ⟨[], false⟩).ending = .exit 65 ∧
      Failed {} ")" ((fresh false).run {} ")").1 := by
  have hrun : (fresh false).run {} "!nil" = ({ output := "true\n" }, .done) := by cbv
  have hquiet : (run ["-e", "!nil"] [] ⟨[], false⟩).ending = .exit 0 := by cbv
  have hloud : (run ["-e", ")"] [] ⟨[], false⟩).ending = .exit 65 := by cbv
  obtain ⟨hxor, -⟩ := (one_outcome "!nil").1 false {} _ .done hrun Answer.noConfusion
  have hsucceeded := ((one_outcome "!nil").2 ["-e", "!nil"] [] ⟨[], false⟩
    { expression := some "!nil" } rfl (.inl rfl)).1.mp hquiet
  change Succeeded {} "!nil" ((fresh false).run {} "!nil").1 at hsucceeded
  rw [hrun] at hsucceeded
  have hfailed := ((one_outcome ")").2 ["-e", ")"] [] ⟨[], false⟩
    { expression := some ")" } rfl (.inl rfl)).2.mp hloud
  refine ⟨hquiet, hsucceeded, ?_, hloud, hfailed⟩
  rcases hxor with ⟨-, hnot⟩ | ⟨-, hnot⟩
  · exact hnot
  · exact absurd hsucceeded hnot

end CommandLine
end LoxCalc
