import LoxCalc.Proofs.Evaluation
import LoxCalc.Proofs.Outcome
import LoxCalc.Proofs.ParseGrammar

/-!
# Inputs that nest too deeply

Reading, printing and evaluating an expression each have a limit of their own. Where reading or
evaluating exceeds it, a run reports that and returns; where printing does, the run ends without a
report and the session with it. That is the only way in which a run does not return, and it needs a
tree that is asked for.
-/

namespace LoxCalc

/-! ## Room for printing -/

namespace Expr

/-- An expression is printed exactly if there are four frames for each level of its tree. -/
lemma isSome_printAt_iff (limit : Limit) (depth : Nat) (e : Expr) :
    (printAt limit (depth + 1) e).isSome = true ↔ limit.allows (4 * (depth + e.height)) = true := by
  by_cases hallows : limit.allows (4 * (depth + 1)) = true
  · rw [printAt.eq_def, if_pos hallows]
    cases e with
    | literal v => simp [height, hallows]
    | group inner =>
      simp only [Option.isSome_map, height]
      rw [isSome_printAt_iff limit (depth + 1) inner]
      rw [show depth + 1 + inner.height = depth + (inner.height + 1) by omega]
    | unary operator operand =>
      simp only [Option.isSome_map, height]
      rw [isSome_printAt_iff limit (depth + 1) operand]
      rw [show depth + 1 + operand.height = depth + (operand.height + 1) by omega]
    | binary left operator right =>
      have hleft := isSome_printAt_iff limit (depth + 1) left
      have hright := isSome_printAt_iff limit (depth + 1) right
      -- Both operands are printed one level down, so the higher of them decides.
      have hmax : 4 * (depth + (max left.height right.height + 1)) =
          max (4 * (depth + 1 + left.height)) (4 * (depth + 1 + right.height)) := by omega
      simp only [height]
      rw [hmax, Limit.allows_max, ← hleft, ← hright]
      cases printAt limit (depth + 1 + 1) left <;> simp
  · rw [printAt.eq_def, if_neg hallows]
    have hheight := e.height_pos
    simp only [Option.isSome_none, Bool.false_eq_true, false_iff]
    exact fun h => hallows (Limit.allows_mono (by omega) h)

lemma isSome_print?_iff (limit : Limit) (e : Expr) :
    (e.print? limit).isSome = true ↔ limit.allows (4 * e.height) = true := by
  have h := isSome_printAt_iff limit 0 e
  rw [Nat.zero_add e.height] at h
  exact h

end Expr

/-- A tree that is asked for cannot be printed exactly if there are no frames for its height. -/
lemma Dumps.printed?_eq_none_iff (dumps : Dumps) (e : Expr) :
    dumps.printed? e = none ↔
      dumps.tree = true ∧ ¬Limit.standard.allows (4 * e.height) = true := by
  unfold printed?
  cases dumps.tree with
  | false => simp
  | true =>
    simp only [if_true, Option.map_eq_none_iff, true_and]
    rw [← e.isSome_print?_iff, Option.not_isSome_iff_eq_none]

/-- An input has a tree and no static error, and the tree is asked for and too deep to be
printed. -/
def Dumps.Unprintable (dumps : Dumps) (source : String) : Prop :=
  dumps.tree = true ∧ Scan.staticDiagnostics source = [] ∧
    ∃ e rest, Scan.reading source = .tree e rest ∧
      ¬Limit.standard.allows (4 * e.height) = true

/-! ## How a run ends -/

namespace Session

/-- A run returns, unless no static error stands and the tree cannot be printed; then it stops after
the static stages. -/
theorem run_answer (s : Session) (dumps : Dumps) (source : String) :
    (s.reporter.hadError = false ∧ dumps.Unprintable source) ∧
        s.run dumps source = (s.afterStatic dumps source, .unprintable) ∨
      ¬(s.reporter.hadError = false ∧ dumps.Unprintable source) ∧
        (s.run dumps source).2 = .done := by
  have hruns := runs_run s dumps source
  generalize s.run dumps source = ended at hruns ⊢
  obtain ⟨after, answer⟩ := ended
  cases hruns with
  | skipped hstands =>
    refine .inr ⟨?_, rfl⟩
    rintro ⟨hbefore, -, hstatic, -⟩
    exact hstands ⟨hbefore, hstatic⟩
  | unprintable hbefore hstatic hreading hprinted =>
    obtain ⟨hasked, hdeep⟩ := (dumps.printed?_eq_none_iff _).mp hprinted
    exact .inl ⟨⟨hbefore, hasked, hstatic, _, _, hreading, hdeep⟩, rfl⟩
  | evaluated hbefore hstatic hreading hprinted =>
    refine .inr ⟨?_, rfl⟩
    rintro ⟨-, hasked, -, e', rest', hreading', hdeep⟩
    cases hreading.symm.trans hreading'
    rw [(dumps.printed?_eq_none_iff _).mpr ⟨hasked, hdeep⟩] at hprinted
    cases hprinted

lemma answer_unprintable_iff (s : Session) (dumps : Dumps) (source : String) :
    (s.run dumps source).2 = .unprintable ↔
      s.reporter.hadError = false ∧ dumps.Unprintable source := by
  rcases run_answer s dumps source with ⟨hdeep, hrun⟩ | ⟨hprints, hrun⟩
  · rw [hrun]
    exact iff_of_true rfl hdeep
  · rw [hrun]
    exact iff_of_false Answer.noConfusion hprints

lemma answer_done_iff (s : Session) (dumps : Dumps) (source : String) :
    (s.run dumps source).2 = .done ↔
      ¬(s.reporter.hadError = false ∧ dumps.Unprintable source) := by
  rcases run_answer s dumps source with ⟨hdeep, hrun⟩ | ⟨hprints, hrun⟩
  · rw [hrun]
    exact iff_of_false Answer.noConfusion (not_not_intro hdeep)
  · exact iff_of_true hrun hprints

/-- Nesting that is too deep for reading is reported after the lexical errors. -/
lemma diagnostics_run_of_reading (s : Session) (dumps : Dumps) {source : String} {found : Token}
    {rest : List Token} (h : Scan.reading source = .error ⟨.tooDeep, found⟩ rest) :
    (s.run dumps source).1.reporter.diagnostics =
      s.reporter.diagnostics ++ (Scan.ofText source).errors.map LexicalError.diagnostic ++
        [(⟨.tooDeep, found⟩ : SyntaxError).diagnostic] := by
  rw [run_eq, h]
  simp [Reading.tree?, afterStatic, Scan.staticDiagnostics, h, Reading.error?]

/-- Nesting that is too deep for evaluating is reported, at the outermost operator. -/
lemma diagnostics_run_of_eval {s : Session} {dumps : Dumps} {source : String} {e : Expr}
    {rest : List Token} (hbefore : s.reporter.hadError = false)
    (hstatic : Scan.staticDiagnostics source = []) (hreading : Scan.reading source = .tree e rest)
    (hreturns : (s.run dumps source).2 = .done) (heval : e.eval .standard = .error .tooDeep) :
    (s.run dumps source).1.reporter.diagnostics =
      s.reporter.diagnostics ++ [(Expr.Failure.report e .tooDeep).diagnostic] := by
  have hevaluate : e.evaluate .standard = .error (Expr.Failure.report e .tooDeep) := by
    rw [Expr.evaluate, heval]
    rfl
  have hruns := runs_run s dumps source
  generalize s.run dumps source = ended at hruns hreturns ⊢
  obtain ⟨after, answer⟩ := ended
  cases hruns with
  | skipped hstands => exact absurd ⟨hbefore, hstatic⟩ hstands
  | unprintable _ _ _ _ => cases hreturns
  | evaluated _ _ hreading' _ =>
    cases hreading.symm.trans hreading'
    simp only [hevaluate]
    rfl

end Session

/-! ## Prompts -/

namespace CommandLine

open Session

/-- A line at the prompt is run and the flags are cleared, unless its tree cannot be printed. -/
lemma promptLine_cases {s : Session} (h : s.reporter.hadError = false) (dumps : Dumps)
    (line : String) :
    dumps.Unprintable line ∧ (Run.promptLine dumps line s).2 = .unprintable ∨
      ¬dumps.Unprintable line ∧ (Run.promptLine dumps line s).2 = .done ∧
        (Run.promptLine dumps line s).1.reporter.hadError = false := by
  have hask : (Run.ask s).reporter.hadError = false := h
  unfold Run.promptLine
  rcases run_answer (Run.ask s) dumps line with ⟨⟨-, hdeep⟩, hrun⟩ | ⟨hprints, hrun⟩
  · rw [hrun]
    exact .inl ⟨hdeep, rfl⟩
  · simp only [hrun]
    exact .inr ⟨fun hdeep => hprints ⟨hask, hdeep⟩, trivial, rfl⟩

/-- A prompt goes through all its lines exactly if the tree of each can be printed. -/
lemma ending_promptLines_iff (dumps : Dumps) (interrupted : Bool) (lines : List String)
    {s : Session} (h : s.reporter.hadError = false) :
    (Run.promptLines dumps interrupted s lines).ending =
        .exit (if interrupted then exitInterrupted else 0) ↔
      ∀ line ∈ lines, ¬dumps.Unprintable line := by
  induction lines generalizing s with
  | nil => simp [Run.promptLines, Run.ofSession]
  | cons line lines ih =>
    rw [List.forall_mem_cons, Run.promptLines]
    have hline := promptLine_cases h dumps line
    generalize Run.promptLine dumps line s = ended at hline ⊢
    obtain ⟨after, answer⟩ := ended
    rcases hline with ⟨hdeep, hanswer⟩ | ⟨hprints, hanswer, hafter⟩
    · cases hanswer
      exact iff_of_false Ending.noConfusion fun hall => hall.1 hdeep
    · cases hanswer
      rw [and_iff_right hprints]
      -- The flags are cleared after the line, so the next one starts as this one did.
      exact ih hafter

end CommandLine

/-! ## A tree that is read but not printed -/

/-- The operator of a negation on the first line. -/
def minusSign : Token := ⟨.minus, "-", none, 1⟩

/-- The number one as a token of the first line. -/
def numeralOne : Token := ⟨.number, "1", some (.number (Piece.numberValue ['1'] [])), 1⟩

/-- The text of `1` behind a number of minus signs. -/
def negations (n : Nat) : String :=
  String.ofList (List.replicate n '-' ++ ['1'])

/-- The tree of `negations n`. -/
def Expr.negated : Nat → Expr
  | 0 => .literal numeralOne.value
  | n + 1 => .unary minusSign (negated n)

lemma pieces_negations (n : Nat) :
    Piece.ofText (List.replicate n '-' ++ ['1']) =
      List.replicate n (.mark .minus ['-']) ++ [.number ['1'] []] := by
  have hcut : ∀ rest, Piece.cut '-' rest = (.mark .minus ['-'], rest) := fun _ => rfl
  induction n with
  | zero => rw [List.replicate_zero, List.nil_append, Piece.ofText, Piece.ofText.eq_def]; rfl
  | succ n ih => rw [List.replicate_succ, List.cons_append, Piece.ofText, hcut, ih]; rfl

/-- All of it stands on the first line. -/
lemma withLines_negations (n : Nat) :
    Piece.withLines 1 (List.replicate n (.mark .minus ['-']) ++ [.number ['1'] []]) =
      List.replicate n (.mark .minus ['-'], 1) ++ [(.number ['1'] [], 1)] := by
  induction n with
  | zero => rfl
  | succ n ih => exact congrArg ((Piece.mark .minus ['-'], 1) :: ·) ih

lemma ofText_negations (n : Nat) :
    Scan.ofText (negations n) =
      { tokens := List.replicate n minusSign ++ [numeralOne] ++ [.endOfInput 1], errors := []
        line := 1 } := by
  have hcount : (List.replicate n '-' ++ ['1']).count '\n' = 0 := by
    simp [List.count_eq_zero]
  have htoken : Piece.token? 1 (.mark .minus ['-']) = some minusSign := rfl
  have hnumeral : Piece.token? 1 (.number ['1'] []) = some numeralOne := rfl
  rw [Scan.ofText, negations, String.toList_ofList, pieces_negations, withLines_negations, hcount]
  simp [List.filterMap_append, htoken, hnumeral, Piece.error?]

open Grammar in
lemma derives_negated (n : Nat) :
    Derives .unary (List.replicate n minusSign ++ [numeralOne]) (Expr.negated n) := by
  induction n with
  | zero => exact .single (.carried (.inl rfl))
  | succ n ih => exact .prefixed (.inr rfl) ih

lemma readingFrames_negated (n : Nat) : (Expr.negated n).readingFrames = n := by
  induction n with
  | zero => rfl
  | succ n ih => rw [Expr.negated, Expr.readingFrames, ih, Nat.add_comm]

lemma height_negated (n : Nat) : (Expr.negated n).height = n + 1 := by
  induction n with
  | zero => rfl
  | succ n ih => rw [Expr.negated, Expr.height, ih]

/-- There are frames to read up to 980 minus signs. -/
lemma reading_negations {n : Nat} (h : n ≤ 980) :
    Scan.reading (negations n) = .tree (Expr.negated n) [.endOfInput 1] := by
  have hallows : Limit.standard.allows (Expr.negated n).readingFrames = true := by
    rw [readingFrames_negated]
    exact decide_eq_true h
  rw [Scan.reading, ofText_negations]
  exact Expr.parse_of_derives .standard ((derives_negated n).loosen (by decide)) hallows rfl []

lemma staticDiagnostics_negations {n : Nat} (h : n ≤ 980) :
    Scan.staticDiagnostics (negations n) = [] := by
  rw [Scan.staticDiagnostics, reading_negations h, ofText_negations]
  rfl

/-- From 245 to 980 minus signs, the tree is read but cannot be printed. -/
lemma unprintable_negations {n : Nat} (hprint : 245 ≤ n) (hread : n ≤ 980) :
    Dumps.Unprintable { tree := true } (negations n) := by
  refine ⟨rfl, staticDiagnostics_negations hread, _, _, reading_negations hread, ?_⟩
  rw [height_negated, Limit.standard, Limit.allows, decide_eq_true_eq]
  omega

/-- Negations below the last frame are too deep, whatever they negate. -/
lemma evalAt_negated {limit : Limit} {depth n : Nat} (h : ¬limit.allows (3 * (depth + n)) = true) :
    Expr.evalAt limit depth (Expr.negated n) = .error .tooDeep := by
  induction n generalizing depth with
  | zero => exact Expr.evalAt_of_not_allows h _
  | succ n ih =>
    by_cases hallows : limit.allows (3 * depth) = true
    · have hdeeper : ¬limit.allows (3 * (depth + 1 + n)) = true := by
        rw [show depth + 1 + n = depth + (n + 1) by omega]
        exact h
      rw [Expr.negated, Expr.evalAt_unary hallows, ih hdeeper]
      rfl
    · exact Expr.evalAt_of_not_allows hallows _

/-! ## The only way not to return -/

namespace Session

open CommandLine

/-- A run never looks past the end of its tokens, and it returns exactly if it is not asked to print
a tree that is too deep for that. Nesting that is too deep for reading, and nesting that is too deep
for evaluating in a run that returns, is reported. A session at the prompt goes on to the end of its
lines exactly if it is not asked to print a tree that is too deep. -/
theorem run_returns_iff (s : Session) (dumps : Dumps) (source : String) :
    Scan.reading source ≠ .pastEnd ∧
    ((s.run dumps source).2 = .unprintable ↔
      s.reporter.hadError = false ∧ dumps.Unprintable source) ∧
    ((s.run dumps source).2 = .done ↔
      ¬(s.reporter.hadError = false ∧ dumps.Unprintable source)) ∧
    (∀ found rest, Scan.reading source = .error ⟨.tooDeep, found⟩ rest →
      (s.run dumps source).2 = .done ∧
      (s.run dumps source).1.reporter.diagnostics =
        s.reporter.diagnostics ++ (Scan.ofText source).errors.map LexicalError.diagnostic ++
          [(⟨.tooDeep, found⟩ : SyntaxError).diagnostic]) ∧
    (∀ e rest, s.reporter.hadError = false → Scan.staticDiagnostics source = [] →
      Scan.reading source = .tree e rest → (s.run dumps source).2 = .done →
      e.eval .standard = .error .tooDeep →
        (s.run dumps source).1.reporter.diagnostics =
          s.reporter.diagnostics ++ [(Expr.Failure.report e .tooDeep).diagnostic]) ∧
    ∀ (i : Invocation) (typed : Typed),
      (Run.ofPrompt i typed).ending =
          .exit (if typed.interrupted then exitInterrupted else 0) ↔
        ∀ line ∈ typed.lines, ¬i.dumps.Unprintable line := by
  refine ⟨Reader.run_ne_pastEnd _ _ _ rfl [], answer_unprintable_iff s dumps source,
    answer_done_iff s dumps source, fun found rest hreading => ?_,
    fun e rest hbefore hstatic hreading hreturns heval =>
      diagnostics_run_of_eval hbefore hstatic hreading hreturns heval,
    fun i typed => ending_promptLines_iff i.dumps typed.interrupted typed.lines rfl⟩
  refine ⟨(answer_done_iff s dumps source).mpr ?_, diagnostics_run_of_reading s dumps hreading⟩
  rintro ⟨-, -, -, e, rest', htree, -⟩
  cases hreading.symm.trans htree

end Session

/-- Not asked for the tree, the run returns and reports that it is too deep to be evaluated. -/
theorem run_negations_returns :
    Scan.staticDiagnostics (negations 500) = [] ∧
      (Expr.negated 500).eval .standard = .error .tooDeep ∧
      ((Session.fresh false).run {} (negations 500)).2 = .done ∧
      ((Session.fresh false).run {} (negations 500)).1.reporter.diagnostics =
        [(⟨.tooDeep, minusSign⟩ : RuntimeError).diagnostic] := by
  have hstatic : Scan.staticDiagnostics (negations 500) = [] :=
    staticDiagnostics_negations (by omega)
  have heval : (Expr.negated 500).eval .standard = .error .tooDeep :=
    evalAt_negated (by decide)
  obtain ⟨-, -, hdone, -, hreported, -⟩ :=
    Session.run_returns_iff (Session.fresh false) {} (negations 500)
  have hreturns : ((Session.fresh false).run {} (negations 500)).2 = .done := by
    rw [hdone]
    rintro ⟨-, hasked, -⟩
    cases hasked
  exact ⟨hstatic, heval, hreturns,
    hreported _ _ rfl hstatic (reading_negations (by omega)) hreturns heval⟩

/-- Asked for the tree of 500 minus signs, a run reports nothing and does not return. -/
theorem run_negations_unprintable :
    (Session.fresh false).run { tree := true } (negations 500) =
      (Session.fresh false, .unprintable) := by
  have hdeep : Dumps.Unprintable { tree := true } (negations 500) :=
    unprintable_negations (by omega) (by omega)
  rcases Session.run_answer (Session.fresh false) { tree := true } (negations 500) with
    ⟨-, hrun⟩ | ⟨hprints, -⟩
  · rw [hrun, Session.afterStatic_fresh (staticDiagnostics_negations (by omega))]
    rfl
  · exact absurd ⟨rfl, hdeep⟩ hprints

end LoxCalc
