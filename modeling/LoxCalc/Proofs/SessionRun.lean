import LoxCalc.Session
import LoxCalc.Proofs.Reading

/-!
# What a run does

The effects of a run, stage by stage, whatever was reported and printed before it. The reporter is
described by what `reportAll` does to each of its fields, and `Session.run_eq` splits a run into its
static stages, which report and print in any case, and the evaluation, which follows only if no
static error has been reported. `Session.Runs` lists the ways in which a run can go.
-/

namespace LoxCalc

namespace Reporter

/-! ## Reporting -/

@[simp] lemma reportAll_nil (r : Reporter) : r.reportAll [] = r := rfl

lemma reportAll_append (r : Reporter) (ds es : List Diagnostic) :
    r.reportAll (ds ++ es) = (r.reportAll ds).reportAll es :=
  List.foldl_append

@[simp] lemma diagnostics_reportAll (r : Reporter) (ds : List Diagnostic) :
    (r.reportAll ds).diagnostics = r.diagnostics ++ ds := by
  induction ds generalizing r with
  | nil => simp
  | cons d ds ih =>
    show ((r.report d).reportAll ds).diagnostics = _
    rw [ih]
    simp [report]

@[simp] lemma hadError_reportAll (r : Reporter) (ds : List Diagnostic) :
    (r.reportAll ds).hadError = (r.hadError || ds.any (·.phase != .runtime)) := by
  induction ds generalizing r with
  | nil => simp
  | cons d ds ih =>
    show ((r.report d).reportAll ds).hadError = _
    rw [ih, List.any_cons, ← Bool.or_assoc]
    rfl

@[simp] lemma hadRuntimeError_reportAll (r : Reporter) (ds : List Diagnostic) :
    (r.reportAll ds).hadRuntimeError = (r.hadRuntimeError || ds.any (·.phase == .runtime)) := by
  induction ds generalizing r with
  | nil => simp
  | cons d ds ih =>
    show ((r.report d).reportAll ds).hadRuntimeError = _
    rw [ih, List.any_cons, ← Bool.or_assoc]
    rfl

end Reporter

/-! ## The stages of an input -/

/-- The reading of an input. -/
def Scan.reading (source : String) : Reading :=
  Expr.parse .standard (ofText source).tokens

/-- The static errors of an input: those of the scan, then that of the reading. -/
def Scan.staticDiagnostics (source : String) : List Diagnostic :=
  (ofText source).errors.map LexicalError.diagnostic ++
    (reading source).error?.toList.map SyntaxError.diagnostic

/-- An input can be read or has a syntax error. -/
theorem Scan.reading_error?_isSome_iff (source : String) :
    (reading source).error?.isSome = true ↔ (reading source).tree? = none := by
  have hend : reading source ≠ .pastEnd := Reader.run_ne_pastEnd _ _ _ rfl []
  cases h : reading source with
  | tree e rest => simp [Reading.error?, Reading.tree?]
  | error e rest => simp [Reading.error?, Reading.tree?]
  | pastEnd => exact absurd h hend

/-- Static errors are of no runtime phase. -/
lemma Scan.phase_of_mem_staticDiagnostics {source : String} {d : Diagnostic}
    (h : d ∈ staticDiagnostics source) : d.phase ≠ .runtime := by
  rcases List.mem_append.mp h with h | h
  · obtain ⟨e, -, rfl⟩ := List.mem_map.mp h
    exact (by decide : Phase.lexer ≠ .runtime)
  · obtain ⟨e, -, rfl⟩ := List.mem_map.mp h
    exact (by decide : Phase.parser ≠ .runtime)

/-- The tokens of an input as they are printed if they are asked for. -/
def Dumps.listing (dumps : Dumps) (tokens : List Token) : String :=
  if dumps.tokens then String.join (tokens.map fun t => t.listing ++ "\n") else ""

/-- The tree of an input as it is printed if it is asked for, unless it is too deep. -/
def Dumps.printed? (dumps : Dumps) (e : Expr) : Option String :=
  if dumps.tree then (e.print? .standard).map (· ++ "\n") else some ""

namespace Session

lemma foldl_printLine (s : Session) (tokens : List Token) :
    tokens.foldl (fun s t => s.printLine t.listing) s =
      { s with output := s.output ++ String.join (tokens.map fun t => t.listing ++ "\n") } := by
  induction tokens generalizing s with
  | nil => simp [String.join]
  | cons t tokens ih =>
    rw [List.foldl_cons, ih]
    simp [printLine, String.append_assoc]

/-- The session after the static stages of an input. -/
def afterStatic (s : Session) (dumps : Dumps) (source : String) : Session :=
  { reporter := s.reporter.reportAll (Scan.staticDiagnostics source)
    output := s.output ++ dumps.listing (Scan.ofText source).tokens }

/-- A run goes through the static stages, then evaluates the tree if there is one and no static
error has been reported. -/
theorem run_eq (s : Session) (dumps : Dumps) (source : String) :
    s.run dumps source =
      match (Scan.reading source).tree? with
      | none => (s.afterStatic dumps source, .done)
      | some e =>
        if (s.afterStatic dumps source).reporter.hadError then (s.afterStatic dumps source, .done)
        else (s.afterStatic dumps source).finish dumps e := by
  -- The scan reports and prints, and reading reports on top of that.
  have hscan : s.scan dumps source = ((Scan.ofText source).tokens,
      { reporter := s.reporter.reportAll ((Scan.ofText source).errors.map LexicalError.diagnostic)
        output := s.output ++ dumps.listing (Scan.ofText source).tokens }) := by
    unfold scan Dumps.listing
    cases dumps.tokens with
    | false => simp [Reporter.scan]
    | true => simp [Reporter.scan, foldl_printLine]
  unfold run afterStatic
  rw [hscan, Scan.staticDiagnostics, Reporter.reportAll_append]
  rfl

/-- Once the tree is printed, evaluation adds a value line or one runtime error. -/
lemma finish_of_printed {s : Session} {dumps : Dumps} {e : Expr} {text : String}
    (h : dumps.printed? e = some text) :
    s.finish dumps e = (interpret { s with output := s.output ++ text } e, .done) := by
  unfold Dumps.printed? at h
  unfold finish
  cases htree : dumps.tree with
  | false =>
    rw [htree] at h
    cases h
    simp
  | true =>
    simp only [htree, if_true] at h ⊢
    obtain ⟨printed, hprinted, rfl⟩ := Option.map_eq_some_iff.mp h
    rw [hprinted]
    simp [printLine, String.append_assoc]

/-- A tree that cannot be printed ends the run. -/
lemma finish_of_not_printed {s : Session} {dumps : Dumps} {e : Expr}
    (h : dumps.printed? e = none) : s.finish dumps e = (s, .unprintable) := by
  unfold Dumps.printed? at h
  unfold finish
  cases htree : dumps.tree with
  | false => simp [htree] at h
  | true =>
    simp only [htree, if_true, Option.map_eq_none_iff] at h ⊢
    rw [h]

/-! ## The ways a run can go -/

/-- After the static stages no static error stands exactly if none stood before and the input has
none. -/
lemma hadError_afterStatic_eq_false_iff (s : Session) (dumps : Dumps) (source : String) :
    (s.afterStatic dumps source).reporter.hadError = false ↔
      s.reporter.hadError = false ∧ Scan.staticDiagnostics source = [] := by
  rw [afterStatic, Reporter.hadError_reportAll, Bool.or_eq_false_iff, List.any_eq_false]
  refine and_congr_right fun _ => ⟨fun h => ?_, fun h => by simp [h]⟩
  by_contra hne
  obtain ⟨d, hd⟩ := List.exists_mem_of_ne_nil _ hne
  exact h d hd (bne_iff_ne.mpr (Scan.phase_of_mem_staticDiagnostics hd))

/-- An input without a tree has a static error. -/
lemma staticDiagnostics_ne_nil {source : String} (h : (Scan.reading source).tree? = none) :
    Scan.staticDiagnostics source ≠ [] := by
  have hsome := (Scan.reading_error?_isSome_iff source).mpr h
  obtain ⟨err, herr⟩ := Option.isSome_iff_exists.mp hsome
  simp [Scan.staticDiagnostics, herr]

/-- An input without static errors has a tree. -/
lemma exists_tree {source : String} (h : Scan.staticDiagnostics source = []) :
    ∃ e rest, Scan.reading source = .tree e rest := by
  cases htree : (Scan.reading source).tree? with
  | none => exact absurd h (staticDiagnostics_ne_nil htree)
  | some e =>
    obtain ⟨rest, hreading⟩ := Reading.tree?_eq_some_iff.mp htree
    exact ⟨e, rest, hreading⟩

/-- `Runs s dumps source after answer`: the ways in which a run can go, whatever was reported and
printed before it. -/
inductive Runs (s : Session) (dumps : Dumps) (source : String) : Session → Answer → Prop where
  /-- A static error stands, of the input or from before it. -/
  | skipped : ¬(s.reporter.hadError = false ∧ Scan.staticDiagnostics source = []) →
      Runs s dumps source (s.afterStatic dumps source) .done
  /-- The tree is asked for and too deep to be printed. -/
  | unprintable {e : Expr} {rest : List Token} :
      s.reporter.hadError = false → Scan.staticDiagnostics source = [] →
      Scan.reading source = .tree e rest → dumps.printed? e = none →
      Runs s dumps source (s.afterStatic dumps source) .unprintable
  /-- The tree is evaluated. -/
  | evaluated {e : Expr} {rest : List Token} {text : String} :
      s.reporter.hadError = false → Scan.staticDiagnostics source = [] →
      Scan.reading source = .tree e rest → dumps.printed? e = some text →
      Runs s dumps source
        (interpret
          { s with output := s.output ++ dumps.listing (Scan.ofText source).tokens ++ text } e)
        .done

/-- A run goes in one of the ways. -/
theorem runs_run (s : Session) (dumps : Dumps) (source : String) :
    Runs s dumps source (s.run dumps source).1 (s.run dumps source).2 := by
  have hflag := hadError_afterStatic_eq_false_iff s dumps source
  rw [run_eq]
  by_cases hstands : s.reporter.hadError = false ∧ Scan.staticDiagnostics source = []
  · obtain ⟨hbefore, hstatic⟩ := hstands
    obtain ⟨e, rest, hreading⟩ := exists_tree hstatic
    rw [hreading]
    simp only [Reading.tree?, hflag.mpr ⟨hbefore, hstatic⟩, Bool.false_eq_true, if_false]
    cases hprinted : dumps.printed? e with
    | none =>
      rw [finish_of_not_printed hprinted]
      exact .unprintable hbefore hstatic hreading hprinted
    | some text =>
      rw [finish_of_printed hprinted, afterStatic, hstatic]
      exact .evaluated hbefore hstatic hreading hprinted
  · have herror : (s.afterStatic dumps source).reporter.hadError = true := by
      rw [← Bool.not_eq_false, hflag]
      exact hstands
    cases (Scan.reading source).tree? with
    | none => exact .skipped hstands
    | some e =>
      simp only [herror, if_true]
      exact .skipped hstands

end Session
end LoxCalc
