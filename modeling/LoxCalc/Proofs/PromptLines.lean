import LoxCalc.Proofs.DeepNesting
import LoxCalc.Proofs.Effects
import LoxCalc.Proofs.KnownOperators

/-!
# Lines at the prompt

All lines at a prompt share one reporter, but no line leaves anything behind that the next one could
meet: a line is run while no static error stands, and the flags are cleared after it
(`Run.promptLine_eq`). So what a prompt prints and reports is what its lines print and report on
their own, one after the other, and since each of them is a source of one line, everything is
reported on line one.
-/

namespace LoxCalc

/-! ## The lines of diagnostics -/

namespace Scan

/-- The static errors of a source are on lines of it. -/
lemma line_of_mem_staticDiagnostics {source : String} {d : Diagnostic}
    (h : d ∈ staticDiagnostics source) : 1 ≤ d.line ∧ d.line ≤ 1 + source.toList.count '\n' := by
  rcases List.mem_append.mp h with h | h
  · obtain ⟨err, herr, rfl⟩ := List.mem_map.mp h
    exact line_of_mem_errors herr
  · obtain ⟨err, herr, rfl⟩ := List.mem_map.mp h
    cases hreading : reading source with
    | tree e rest => simp [hreading, Reading.error?] at herr
    | pastEnd => simp [hreading, Reading.error?] at herr
    | error err' rest =>
      obtain rfl : err = err' := by simpa [hreading, Reading.error?] using herr
      exact line_of_mem_tokens (Reader.token_mem_of_run_error hreading)

/-- The operators of a tree are tokens of its source. -/
lemma mem_tokens_of_mem_operators {source : String} {e : Expr} {rest : List Token} {t : Token}
    (hreading : reading source = .tree e rest) (h : t ∈ e.operators) :
    t ∈ (ofText source).tokens := by
  obtain ⟨us, next, rest', htokens, -, hderives, -⟩ := Expr.derives_of_parse hreading
  rw [htokens]
  exact List.mem_append_left _ (hderives.operators_sublist.mem h)

/-- The error of evaluating a tree is on a line of its source. -/
lemma line_of_mem_runtimeDiagnostics {source : String} {e : Expr} {rest : List Token}
    {d : Diagnostic} (hreading : reading source = .tree e rest) (h : d ∈ e.runtimeDiagnostics) :
    1 ≤ d.line ∧ d.line ≤ 1 + source.toList.count '\n' := by
  obtain ⟨us, next, rest', -, -, hderives, -⟩ := Expr.derives_of_parse hreading
  rw [Expr.runtimeDiagnostics, Expr.evaluate] at h
  cases heval : e.eval .standard with
  | ok v =>
    rw [heval] at h
    cases h
  | error failure =>
    rw [heval] at h
    rw [List.mem_singleton.mp h]
    cases failure with
    | error err =>
      have hmem := (Expr.blames_of_eval hderives.conforms heval).1
      exact line_of_mem_tokens (mem_tokens_of_mem_operators hreading hmem)
    | tooDeep =>
      -- Nesting is blamed on the outermost operator, or on line one.
      have hline : (Expr.Failure.report e .tooDeep).diagnostic.line =
          (e.outermostOperator?.getD (.endOfInput 1)).line := rfl
      rw [hline]
      cases houter : e.outermostOperator? with
      | none =>
        simp only [Option.getD_none, Token.endOfInput]
        omega
      | some operator =>
        have hmem := Expr.mem_operators_of_outermostOperator? houter
        exact line_of_mem_tokens (mem_tokens_of_mem_operators hreading hmem)

/-- Whatever a run reports is on a line of its source. -/
theorem line_of_mem_reported {stands : Bool} {dumps : Dumps} {source : String} {d : Diagnostic}
    (h : d ∈ (effect stands dumps source).reported) :
    1 ≤ d.line ∧ d.line ≤ 1 + source.toList.count '\n' := by
  unfold effect at h
  split at h
  · exact line_of_mem_staticDiagnostics h
  · split at h
    · cases h
    · next e htree =>
      obtain ⟨rest, hreading⟩ := Reading.tree?_eq_some_iff.mp htree
      unfold Dumps.effect at h
      split at h
      · cases h
      · exact line_of_mem_runtimeDiagnostics hreading h

end Scan

namespace CommandLine

open Session

/-! ## One line -/

/-- The session in which a line is run on its own. -/
def alone (i : Invocation) (line : String) : Session :=
  (i.session.run i.dumps line).1

section

variable (i : Invocation) (line : String)

lemma alone_eq : alone i line = i.session.undergo (Scan.effect false i.dumps line) := by
  rw [alone, run_eq_undergo]
  rfl

lemma output_alone : (alone i line).output = (Scan.effect false i.dumps line).printed := by
  rw [alone_eq]
  exact String.empty_append

lemma text_alone : (alone i line).reporter.text =
    Diagnostic.renderAll i.verbose (Scan.effect false i.dumps line).reported := by
  rw [alone_eq, undergo, Reporter.text_reportAll]
  exact String.empty_append

lemma diagnostics_alone :
    (alone i line).reporter.diagnostics = (Scan.effect false i.dumps line).reported := by
  rw [alone_eq, undergo, Reporter.diagnostics_reportAll]
  rfl

end

namespace Run

/-- A line at the prompt does what it does on its own, if no static error stands and its tree can be
printed where that is asked for. The flags are cleared after it. -/
theorem promptLine_eq {s : Session} {dumps : Dumps} {line : String}
    (h : s.reporter.hadError = false) (hprints : ¬dumps.Unprintable line) :
    promptLine dumps line s =
      ({ reporter := (s.reporter.reportAll (Scan.effect false dumps line).reported).reset
         output := s.output ++ (promptText ++ (Scan.effect false dumps line).printed) },
        .done) := by
  have hask : (ask s).reporter.hadError = false := h
  have hrun := run_eq_undergo (ask s) dumps line
  rw [hask] at hrun
  have hanswer : (Scan.effect false dumps line).answer = .done := by
    have hdone := (answer_done_iff (ask s) dumps line).mpr fun hdeep => hprints hdeep.2
    rwa [hrun] at hdone
  unfold promptLine
  rw [hrun]
  simp only [hanswer]
  simp [undergo, ask, String.append_assoc]

/-- The session after lines at the prompt. -/
def afterLines (dumps : Dumps) (s : Session) (lines : List String) : Session :=
  lines.foldl (fun s line => (promptLine dumps line s).1) s

/-- `Follows dumps s lines last`: the session `last` is what lines, each running on its own, make of
the session `s`. -/
structure Follows (dumps : Dumps) (s : Session) (lines : List String) (last : Session) : Prop where
  verbose_eq : last.reporter.verbose = s.reporter.verbose
  output_eq : last.output =
    s.output ++ String.join
      (lines.map fun line => promptText ++ (Scan.effect false dumps line).printed)
  text_eq : last.reporter.text =
    s.reporter.text ++ String.join (lines.map fun line =>
      Diagnostic.renderAll s.reporter.verbose (Scan.effect false dumps line).reported)
  diagnostics_eq : last.reporter.diagnostics =
    s.reporter.diagnostics ++ lines.flatMap fun line => (Scan.effect false dumps line).reported

lemma Follows.nil (dumps : Dumps) (s : Session) : Follows dumps s [] s where
  verbose_eq := rfl
  output_eq := by simp [String.join]
  text_eq := by simp [String.join]
  diagnostics_eq := by simp

lemma Follows.cons {s : Session} {dumps : Dumps} {line : String} {lines : List String}
    {last : Session} (h : s.reporter.hadError = false) (hprints : ¬dumps.Unprintable line)
    (hlater : Follows dumps (promptLine dumps line s).1 lines last) :
    Follows dumps s (line :: lines) last := by
  rw [promptLine_eq h hprints] at hlater
  have hverbose := hlater.verbose_eq
  have houtput := hlater.output_eq
  have htext := hlater.text_eq
  have hdiagnostics := hlater.diagnostics_eq
  simp only [Reporter.reset, Reporter.verbose_reportAll, Reporter.text_reportAll,
    Reporter.diagnostics_reportAll] at hverbose houtput htext hdiagnostics
  constructor
  · exact hverbose
  · rw [houtput, List.map_cons, String.join_cons, String.append_assoc]
  · rw [htext, List.map_cons, String.join_cons, String.append_assoc]
  · rw [hdiagnostics, List.flatMap_cons, List.append_assoc]

/-- A prompt goes through all its lines, each of which runs on its own. -/
theorem promptLines_eq (dumps : Dumps) (interrupted : Bool) {lines : List String}
    (hprints : ∀ line ∈ lines, ¬dumps.Unprintable line) {s : Session}
    (h : s.reporter.hadError = false) :
    promptLines dumps interrupted s lines =
        ofSession (.exit (if interrupted then exitInterrupted else 0))
          ((ask (afterLines dumps s lines)).printLine "") ∧
      Follows dumps s lines (afterLines dumps s lines) := by
  induction lines generalizing s with
  | nil => exact ⟨rfl, .nil dumps s⟩
  | cons line lines ih =>
    rw [List.forall_mem_cons] at hprints
    have hline := promptLine_eq h hprints.1
    have hafter : afterLines dumps s (line :: lines) =
        afterLines dumps (promptLine dumps line s).1 lines := rfl
    -- The flags are cleared after the line, so the next ones start as this one did.
    have hclear : (promptLine dumps line s).1.reporter.hadError = false := by
      rw [hline]
      rfl
    obtain ⟨hrest, hfollows⟩ := ih hprints.2 hclear
    rw [hafter]
    refine ⟨?_, .cons h hprints.1 hfollows⟩
    rw [promptLines]
    rw [hline] at hrest ⊢
    exact hrest

lemma ofPrompt_eq (i : Invocation) (typed : Typed)
    (hprints : ∀ line ∈ typed.lines, ¬i.dumps.Unprintable line) :
    ofPrompt i typed =
      { ending := .exit (if typed.interrupted then exitInterrupted else 0)
        output := String.join (typed.lines.map fun line => promptText ++ (alone i line).output) ++
          promptText ++ "\n"
        errors := String.join (typed.lines.map fun line => (alone i line).reporter.text) } := by
  obtain ⟨hprompt, hfollows⟩ :=
    promptLines_eq i.dumps typed.interrupted hprints (s := i.session) rfl
  have houtput := hfollows.output_eq
  have htext := hfollows.text_eq
  rw [ofPrompt, hprompt, ofSession]
  simp only [ask, printLine, houtput, htext, output_alone, text_alone]
  simp [Invocation.session]

end Run

/-- Lines at the prompt are independent. If all trees that are asked for can be printed, the prompt
goes through all its lines to the end, prints for each of them a prompt and what it prints on its
own, then a last prompt and a newline, and reports for each what it reports on its own. So it is for
any choice of its lines, in any order and as often as one likes. What has been reported in the
session is what the lines report on their own, and all of it is on line one. -/
theorem prompt_lines_independent (i : Invocation) (typed : Typed)
    (hprints : ∀ line ∈ typed.lines, ¬i.dumps.Unprintable line) :
    Run.ofPrompt i typed =
      { ending := .exit (if typed.interrupted then 130 else 0)
        output := String.join (typed.lines.map fun line => "> " ++ (alone i line).output) ++
          "> " ++ "\n"
        errors := String.join (typed.lines.map fun line => (alone i line).reporter.text) } ∧
    (∀ picks : List (Fin typed.lines.length),
      Run.ofPrompt i { typed with lines := picks.map typed.lines.get } =
        { ending := .exit (if typed.interrupted then 130 else 0)
          output := String.join (picks.map fun k => "> " ++ (alone i (typed.lines.get k)).output) ++
            "> " ++ "\n"
          errors := String.join (picks.map fun k => (alone i (typed.lines.get k)).reporter.text) }) ∧
    Run.ofPrompt i typed =
      .ofSession (.exit (if typed.interrupted then 130 else 0))
        ((Run.ask (Run.afterLines i.dumps i.session typed.lines)).printLine "") ∧
    (Run.afterLines i.dumps i.session typed.lines).reporter.diagnostics =
      typed.lines.flatMap (fun line => (alone i line).reporter.diagnostics) ∧
    ((∀ line ∈ typed.lines, '\n' ∉ line.toList) →
      ∀ d ∈ (Run.afterLines i.dumps i.session typed.lines).reporter.diagnostics, d.line = 1) := by
  obtain ⟨hprompt, hfollows⟩ :=
    Run.promptLines_eq i.dumps typed.interrupted hprints (s := i.session) rfl
  have hdiagnostics := hfollows.diagnostics_eq
  refine ⟨Run.ofPrompt_eq i typed hprints, fun picks => ?_, hprompt, ?_, ?_⟩
  · have hpicked : ∀ line ∈ picks.map typed.lines.get, ¬i.dumps.Unprintable line := by
      intro line hline
      obtain ⟨k, -, rfl⟩ := List.mem_map.mp hline
      exact hprints _ (List.get_mem _ _)
    rw [Run.ofPrompt_eq i _ hpicked, List.map_map, List.map_map]
    rfl
  · simp only [diagnostics_alone]
    exact hdiagnostics
  · intro hlines d hd
    rw [hdiagnostics] at hd
    obtain ⟨line, hline, hd⟩ := List.mem_flatMap.mp hd
    have hrange := Scan.line_of_mem_reported hd
    rw [List.count_eq_zero_of_not_mem (hlines line hline)] at hrange
    omega

/-- A parenthesis alone does not keep the next line from being evaluated, whose tree is printed as
well. -/
theorem prompt_lines_independent_after_error :
    (∀ line ∈ [")", "!nil"], ¬(Invocation.dumps { tree := true }).Unprintable line) ∧
      Run.ofPrompt { tree := true } ⟨[")", "!nil"], true⟩ =
        { ending := .exit 130, output := "> > (! nil)\ntrue\n> \n"
          errors := "[line 1] Error: Expect expression.\n" } := by
  have hstatic : (Scan.staticDiagnostics ")").isEmpty = false := by cbv
  have hreading : Scan.reading "!nil" =
      .tree (.unary ⟨.bang, "!", none, 1⟩ (.literal .nil)) [.endOfInput 1] := by cbv
  have hprints : ∀ line ∈ [")", "!nil"], ¬(Invocation.dumps { tree := true }).Unprintable line := by
    intro line hline
    rcases List.mem_cons.mp hline with rfl | hline
    · rintro ⟨-, hnone, -⟩
      rw [hnone] at hstatic
      cases hstatic
    · cases List.mem_singleton.mp hline
      rintro ⟨-, -, e, rest, htree, hdeep⟩
      cases hreading.symm.trans htree
      exact hdeep rfl
  have hfirst : (alone { tree := true } ")").output = "" := by cbv
  have hsecond : (alone { tree := true } "!nil").output = "(! nil)\ntrue\n" := by cbv
  have herror : (alone { tree := true } ")").reporter.text =
      "[line 1] Error: Expect expression.\n" := by cbv
  have hquiet : (alone { tree := true } "!nil").reporter.text = "" := by cbv
  refine ⟨hprints, ?_⟩
  rw [(prompt_lines_independent { tree := true } ⟨[")", "!nil"], true⟩ hprints).1]
  simp only [List.map_cons, List.map_nil, hfirst, hsecond, herror, hquiet]
  cbv

end CommandLine
end LoxCalc
