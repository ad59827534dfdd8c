import LoxCalc.Proofs.Effects

/-!
# Settings that only show more

The verbose setting and the dumps of tokens and trees decide how much is written, and nothing else.
Two sessions that do the same steps but for such a setting stay in step: `Session.forall₂_moves`
goes through both at once, so that it remains to compare one step with its counterpart. What a step
does depends on the flag for static errors only, and that flag depends on no such setting.
-/

namespace LoxCalc

/-! ## Moves -/

namespace Session

/-- A text without its first part is the rest. -/
@[simp] lemma since_append (before rest : String) : since before (before ++ rest) = rest := by
  simp [since, ← String.length_toList]

@[simp] lemma output_adjust (s : Session) (x : Step) : (s.adjust x).output = s.output := by
  cases x <;> rfl

@[simp] lemma text_adjust (s : Session) (x : Step) :
    (s.adjust x).reporter.text = s.reporter.text := by
  cases x <;> rfl

@[simp] lemma diagnostics_adjust (s : Session) (x : Step) :
    (s.adjust x).reporter.diagnostics = s.reporter.diagnostics := by
  cases x <;> rfl

/-- The record of a step. -/
def record (s : Session) (x : Step) : Record where
  answer := (s.step x).2
  printed := since s.output (s.step x).1.output
  reported := since s.reporter.text (s.step x).1.reporter.text
  after := (s.step x).1

/-- What is recorded of a step is what it does. -/
lemma record_eq (s : Session) (x : Step) :
    s.record x =
      { answer := (x.effect s.reporter.hadError).answer
        printed := (x.effect s.reporter.hadError).printed
        reported :=
          Diagnostic.renderAll s.reporter.verbose (x.effect s.reporter.hadError).reported
        after := (s.undergo (x.effect s.reporter.hadError)).adjust x } := by
  rw [record, step_eq]
  simp [undergo]

/-- A step of a session with the state before it and the record of it. -/
structure Move where
  before : Session
  step : Step
  record : Record

/-- Does steps in order and keeps each as a move. -/
def moves (s : Session) : List Step → List Move
  | [] => []
  | x :: xs => { before := s, step := x, record := s.record x } :: (s.record x).after.moves xs

/-- The moves of a session have the records of it. -/
lemma map_record_moves (s : Session) (steps : List Step) :
    (s.moves steps).map Move.record = (s.play steps).1 := by
  induction steps generalizing s with
  | nil => rfl
  | cons x xs ih => exact congrArg (s.record x :: ·) (ih (s.step x).1)

/-- Two sessions do their steps side by side: a relation that one step and its counterpart preserve
holds all along, and so does what it says of the two moves. -/
theorem forall₂_moves {R : Session → Session → Prop} {Like : Step → Step → Prop}
    {Agree : Move → Move → Prop}
    (hmove : ∀ {s s' : Session} {x x' : Step}, R s s' → Like x x' →
      Agree ⟨s, x, s.record x⟩ ⟨s', x', s'.record x'⟩ ∧
        R (s.record x).after (s'.record x').after)
    {s s' : Session} (h : R s s') {steps steps' : List Step}
    (hsteps : List.Forall₂ Like steps steps') :
    List.Forall₂ Agree (s.moves steps) (s'.moves steps') := by
  induction hsteps generalizing s s' with
  | nil => exact .nil
  | cons hlike _ ih =>
    obtain ⟨hagree, hafter⟩ := hmove h hlike
    exact .cons hagree (ih hafter)

end Session

/-! ## The verbose setting -/

/-- Two steps that are the same, or that both change the verbose setting. -/
inductive Step.SameButVerbose : Step → Step → Prop where
  | same (x : Step) : SameButVerbose x x
  | setVerbose (verbose verbose' : Bool) :
      SameButVerbose (.setVerbose verbose) (.setVerbose verbose')

lemma Step.SameButVerbose.effect_eq {x x' : Step} (h : x.SameButVerbose x') (stands : Bool) :
    x.effect stands = x'.effect stands := by
  cases h with
  | same => rfl
  | setVerbose => rfl

namespace Session

/-- Two sessions that differ at most in the verbose setting and in the text of what was reported. -/
structure SameButVerbose (s s' : Session) : Prop where
  output_eq : s.output = s'.output
  hadError_eq : s.reporter.hadError = s'.reporter.hadError
  hadRuntimeError_eq : s.reporter.hadRuntimeError = s'.reporter.hadRuntimeError
  diagnostics_eq : s.reporter.diagnostics = s'.reporter.diagnostics

/-- Two moves that answer and print the same and leave sessions that differ at most in the verbose
setting and in texts. Both report the same diagnostics, each as verbosely as it is set to. -/
structure Move.SameButVerbose (m m' : Move) : Prop where
  answer_eq : m.record.answer = m'.record.answer
  printed_eq : m.record.printed = m'.record.printed
  after : m.record.after.SameButVerbose m'.record.after
  reported_eq : ∃ ds : List Diagnostic,
    m.record.after.reporter.diagnostics = m.before.reporter.diagnostics ++ ds ∧
    m.record.reported = Diagnostic.renderAll m.before.reporter.verbose ds ∧
    m'.record.reported = Diagnostic.renderAll m'.before.reporter.verbose ds

section

variable {s s' : Session}

lemma SameButVerbose.undergo (h : s.SameButVerbose s') (f : Effect) :
    (s.undergo f).SameButVerbose (s'.undergo f) := by
  constructor <;> simp [Session.undergo, h.output_eq, h.hadError_eq, h.hadRuntimeError_eq,
    h.diagnostics_eq]

lemma SameButVerbose.adjust (h : s.SameButVerbose s') {x x' : Step} (hx : x.SameButVerbose x') :
    (s.adjust x).SameButVerbose (s'.adjust x') := by
  cases hx with
  | setVerbose verbose verbose' => exact ⟨h.1, h.2, h.3, h.4⟩
  | same =>
    cases x with
    | setVerbose verbose => exact ⟨h.1, h.2, h.3, h.4⟩
    | reset => exact ⟨h.1, rfl, rfl, h.4⟩
    | _ => exact h

/-- The verbose setting has no part in a step but for the text of what is reported. -/
theorem SameButVerbose.move (h : s.SameButVerbose s') {x x' : Step} (hx : x.SameButVerbose x') :
    Move.SameButVerbose ⟨s, x, s.record x⟩ ⟨s', x', s'.record x'⟩ ∧
      (s.record x).after.SameButVerbose (s'.record x').after := by
  -- The flag for static errors is the same in both sessions, so the two steps do the same.
  have heffect : x.effect s.reporter.hadError = x'.effect s'.reporter.hadError := by
    rw [h.hadError_eq]
    exact hx.effect_eq _
  simp only [record_eq, heffect]
  have hafter := (h.undergo (x'.effect s'.reporter.hadError)).adjust hx
  refine ⟨⟨rfl, rfl, hafter, _, ?_, rfl, rfl⟩, hafter⟩
  simp [Session.undergo]

end

end Session

/-! ## Dumps -/

/-- The tree of an input, if it has one, is not too deep to be printed. -/
def Scan.Printable (source : String) : Prop :=
  ∀ e : Expr, (reading source).tree? = some e → (e.print? .standard).isSome = true

/-- What is printed of an input before its value, given whether a static error is pending: a line
for each token and the tree, if they are asked for. -/
def Dumps.shown (dumps : Dumps) (pending : Bool) (source : String) : String :=
  dumps.listing (Scan.ofText source).tokens ++
    if pending then "" else ((Scan.reading source).tree?.bind dumps.printed?).getD ""

/-- A line with a value, or nothing. -/
def Value.LineOrNothing (text : String) : Prop :=
  text = "" ∨ ∃ v : Value, text = v.text ++ "\n"

lemma Expr.lineOrNothing_valueLine (e : Expr) : Value.LineOrNothing e.valueLine := by
  unfold valueLine
  cases e.evaluate .standard with
  | ok v => exact .inr ⟨v, rfl⟩
  | error err => exact .inl rfl

lemma Dumps.isSome_printed?_eq {dumps dumps' : Dumps} {e : Expr}
    (h : dumps.tree = dumps'.tree ∨ (e.print? .standard).isSome = true) :
    (dumps.printed? e).isSome = (dumps'.printed? e).isSome := by
  unfold printed?
  rcases h with h | h
  · rw [h]
  · cases dumps.tree <;> cases dumps'.tree <;> simp [h]

/-- Whether a run is to show the tokens, or a tree that can be printed, changes nothing in it but
what is printed before the value. -/
lemma Scan.effect_sameButDumps {dumps dumps' : Dumps} {source : String}
    (h : dumps.tree = dumps'.tree ∨ Printable source) (stands : Bool) :
    (effect stands dumps source).answer = (effect stands dumps' source).answer ∧
    (effect stands dumps source).reported = (effect stands dumps' source).reported ∧
    ∃ value : String, Value.LineOrNothing value ∧
      (effect stands dumps source).printed =
        dumps.shown (stands || !(staticDiagnostics source).isEmpty) source ++ value ∧
      (effect stands dumps' source).printed =
        dumps'.shown (stands || !(staticDiagnostics source).isEmpty) source ++ value := by
  unfold effect Dumps.shown
  cases hpending : stands || !(staticDiagnostics source).isEmpty with
  | true => exact ⟨rfl, rfl, "", .inl rfl, by simp, by simp⟩
  | false =>
    cases htree : (reading source).tree? with
    | none => exact ⟨rfl, rfl, "", .inl rfl, by simp, by simp⟩
    | some e =>
      -- Either both print the tree, as far as they are asked to, or neither can.
      have hprinted := Dumps.isSome_printed?_eq (h.imp_right fun hprints => hprints e htree)
      unfold Dumps.effect
      cases htext : dumps.printed? e with
      | none =>
        rw [htext, Option.isSome_none, eq_comm, Option.isSome_eq_false_iff,
          Option.isNone_iff_eq_none] at hprinted
        simp only [htext, hprinted]
        exact ⟨rfl, rfl, "", .inl rfl, by simp [htext], by simp [hprinted]⟩
      | some text =>
        rw [htext, Option.isSome_some, eq_comm, Option.isSome_iff_exists] at hprinted
        obtain ⟨text', htext'⟩ := hprinted
        simp only [htext, htext']
        refine ⟨rfl, rfl, e.valueLine, e.lineOrNothing_valueLine, ?_, ?_⟩
        · simp [htext, String.append_assoc]
        · simp [htext', String.append_assoc]

/-- Two steps that are the same, or that both run an input, with or without its tokens and, if it
can be printed, its tree. -/
inductive Step.SameButDumps : Step → Step → Prop where
  | same (x : Step) : SameButDumps x x
  | run (source : String) (dumps dumps' : Dumps)
      (htree : dumps.tree = dumps'.tree ∨ Scan.Printable source) :
      SameButDumps (.run source dumps) (.run source dumps')

/-- What a step prints before the value, given whether a static error is pending after it. -/
def Step.shown (pending : Bool) : Step → String
  | .run source dumps => dumps.shown pending source
  | _ => ""

/-- Evaluating an input prints a line with its value, or nothing. -/
lemma Step.lineOrNothing_printed_interpret (source : String) (reports stands : Bool) :
    Value.LineOrNothing ((Step.interpret source reports).effect stands).printed := by
  rw [effect]
  cases (Scan.reading source).tree? with
  | none => exact .inl rfl
  | some e =>
    cases reports with
    | true => exact e.lineOrNothing_valueLine
    | false =>
      show Value.LineOrNothing e.raisingEffect.printed
      unfold Expr.raisingEffect
      split
      · exact e.lineOrNothing_valueLine
      · exact .inl rfl

namespace Session

/-- Two moves that answer and report the same and leave the same reporter. Both print what is asked
for, then the same line with a value or nothing more. -/
structure Move.SameButDumps (m m' : Move) : Prop where
  answer_eq : m.record.answer = m'.record.answer
  reported_eq : m.record.reported = m'.record.reported
  reporter_eq : m.record.after.reporter = m'.record.after.reporter
  printed_eq : ∃ value : String, Value.LineOrNothing value ∧
    m.record.printed = m.step.shown m.record.after.reporter.hadError ++ value ∧
    m'.record.printed = m'.step.shown m'.record.after.reporter.hadError ++ value

section

variable {s s' : Session}

lemma reporter_adjust (h : s.reporter = s'.reporter) (x : Step) :
    (s.adjust x).reporter = (s'.adjust x).reporter := by
  cases x <;> simp [adjust, h]

/-- A static error is pending after a run exactly if one stood before it or its input has one. -/
lemma hadError_after_run (s : Session) (dumps : Dumps) (source : String) :
    (s.record (.run source dumps)).after.reporter.hadError =
      (s.reporter.hadError || !(Scan.staticDiagnostics source).isEmpty) := by
  have hflag : (s.run dumps source).1.reporter.hadError = false ↔
      s.reporter.hadError = false ∧ Scan.staticDiagnostics source = [] := by
    have hstatic := hadError_afterStatic_eq_false_iff s dumps source
    have hruns := runs_run s dumps source
    generalize s.run dumps source = ended at hruns ⊢
    obtain ⟨after, answer⟩ := ended
    cases hruns with
    | skipped _ => exact hstatic
    | unprintable _ _ _ _ => exact hstatic
    | evaluated hbefore hnone _ _ =>
      -- Evaluation reports nothing static.
      refine iff_of_true ?_ ⟨hbefore, hnone⟩
      refine (congrArg Reporter.hadError (reporter_interpret _ _)).trans ?_
      rw [Reporter.hadError_reportAll, hbefore, Expr.runtimeDiagnostics]
      split <;> rfl
  rw [Bool.eq_iff_iff, ← not_iff_not, Bool.not_eq_true, Bool.not_eq_true]
  refine hflag.trans ?_
  rw [Bool.or_eq_false_iff, Bool.not_eq_false', List.isEmpty_iff]

/-- What a run shows of its input has no part in what it does besides. -/
lemma sameButDumps_run (h : s.reporter = s'.reporter) {source : String} {dumps dumps' : Dumps}
    (htree : dumps.tree = dumps'.tree ∨ Scan.Printable source) :
    Move.SameButDumps ⟨s, .run source dumps, s.record (.run source dumps)⟩
      ⟨s', .run source dumps', s'.record (.run source dumps')⟩ := by
  obtain ⟨hanswer, hreported, value, hvalue, hprinted, hprinted'⟩ :=
    Scan.effect_sameButDumps htree s'.reporter.hadError
  constructor
  · simp only [record_eq, h]
    exact hanswer
  · simp only [record_eq, h]
    exact congrArg _ hreported
  · simp only [record_eq, h]
    show s.reporter.reportAll (Scan.effect s'.reporter.hadError dumps source).reported =
      s'.reporter.reportAll (Scan.effect s'.reporter.hadError dumps' source).reported
    rw [h, hreported]
  · refine ⟨value, hvalue, ?_, ?_⟩
    · rw [hadError_after_run, h, record_eq, h]
      exact hprinted
    · rw [hadError_after_run, record_eq]
      exact hprinted'

/-- A step that shows nothing of an input does the same whatever was shown before it. -/
lemma sameButDumps_same (h : s.reporter = s'.reporter) {x : Step}
    (hshown : ∀ pending, x.shown pending = "")
    (hprinted : Value.LineOrNothing (x.effect s'.reporter.hadError).printed) :
    Move.SameButDumps ⟨s, x, s.record x⟩ ⟨s', x, s'.record x⟩ := by
  have hafter : (s.undergo (x.effect s'.reporter.hadError)).reporter =
      (s'.undergo (x.effect s'.reporter.hadError)).reporter := by
    rw [undergo, undergo, h]
  constructor
  · simp only [record_eq, h]
  · simp only [record_eq, h]
  · simp only [record_eq, h]
    exact reporter_adjust hafter x
  · refine ⟨_, hprinted, ?_, ?_⟩
    · simp only [record_eq, h, hshown, String.empty_append]
    · simp only [record_eq, hshown, String.empty_append]

/-- What is shown of inputs has no part in a step besides. -/
theorem sameButDumps_move (h : s.reporter = s'.reporter) {x x' : Step} (hx : x.SameButDumps x') :
    Move.SameButDumps ⟨s, x, s.record x⟩ ⟨s', x', s'.record x'⟩ ∧
      (s.record x).after.reporter = (s'.record x').after.reporter := by
  suffices hmove : Move.SameButDumps ⟨s, x, s.record x⟩ ⟨s', x', s'.record x'⟩ from
    ⟨hmove, hmove.reporter_eq⟩
  cases hx with
  | run source dumps dumps' htree => exact sameButDumps_run h htree
  | same =>
    cases x with
    | run source dumps => exact sameButDumps_run h (.inl rfl)
    | interpret source reports =>
      exact sameButDumps_same h (fun _ => rfl)
        (Step.lineOrNothing_printed_interpret source reports _)
    | _ => exact sameButDumps_same h (fun _ => rfl) (.inl rfl)

end

end Session

/-! ## Diagnostics -/

namespace Diagnostic

/-- `DetailLine label text line`: of an optional text, `line` is shown under its label, which is
nothing if the text is missing or empty. -/
inductive DetailLine (label : String) : Option String → String → Prop where
  | missing : DetailLine label none ""
  | empty : DetailLine label (some "") ""
  | shown {text : String} :
      text ≠ "" → DetailLine label (some text) ("\n  " ++ label ++ ": " ++ text)

lemma detailLine_detail (label : String) (text : Option String) :
    DetailLine label text (detail label text) := by
  cases text with
  | none => exact .missing
  | some s =>
    by_cases hempty : s = ""
    · subst hempty
      exact .empty
    · have hshown : detail label (some s) = "\n  " ++ label ++ ": " ++ s := by
        simp [detail, hempty]
      rw [hshown]
      exact .shown hempty

end Diagnostic

/-! ## Reporters -/

namespace Reporter

lemma scanTimes_fst (r : Reporter) (source : String) (n : Nat) :
    (r.scanTimes source (n + 1)).1 = Scan.ofText source := by
  induction n generalizing r with
  | zero => rfl
  | succ n ih => exact ih (r.scan source).2

lemma parseTimes_fst (r : Reporter) (tokens : List Token) (n : Nat) :
    (r.parseTimes tokens n).1 = List.replicate n (Expr.parse .standard tokens) := by
  induction n generalizing r with
  | zero => rfl
  | succ n ih => exact congrArg (Expr.parse .standard tokens :: ·) (ih (r.parse tokens).2)

end Reporter

namespace Session

/-- The verbose setting and the dumps show more and change nothing. Two sessions that do the same
steps but for the verbose setting answer and print the same at every step and have the same flags
and diagnostics after it, and where they differ in the text of a diagnostic, the verbose one adds
a line with its code and one with its hint, each if there is one. Two sessions that do the same
steps but for what is shown of the inputs, a tree only if it can be printed, answer and report the
same at every step and have the same reporter after it, and all that they print besides is the same.
Nor does a stage find anything else when there is a reporter. -/
theorem settings_only_observe :
    (∀ (verbose verbose' : Bool) (steps steps' : List Step),
      List.Forall₂ Step.SameButVerbose steps steps' →
      List.Forall₂ Move.SameButVerbose
        ((fresh verbose).moves steps) ((fresh verbose').moves steps')) ∧
    (∀ d : Diagnostic, ∃ codeLine helpLine,
      d.render true = d.render false ++ codeLine ++ helpLine ∧
      Diagnostic.DetailLine "code" d.code codeLine ∧
      Diagnostic.DetailLine "help" d.help helpLine) ∧
    (∀ (verbose : Bool) (steps steps' : List Step),
      List.Forall₂ Step.SameButDumps steps steps' →
      List.Forall₂ Move.SameButDumps
        ((fresh verbose).moves steps) ((fresh verbose).moves steps')) ∧
    (∀ (s : Session) (steps : List Step),
      (s.moves steps).map Move.record = (s.play steps).1) ∧
    (∀ (r : Reporter) (source : String) (n : Nat),
      (r.scanTimes source (n + 1)).1 = Scan.ofText source) ∧
    (∀ (r : Reporter) (tokens : List Token) (n : Nat),
      (r.parseTimes tokens n).1 = List.replicate n (Expr.parse .standard tokens)) := by
  refine ⟨fun verbose verbose' steps steps' hsteps => ?_, fun d => ?_,
    fun verbose steps steps' hsteps => ?_, map_record_moves, Reporter.scanTimes_fst,
    Reporter.parseTimes_fst⟩
  · have hfresh : (fresh verbose).SameButVerbose (fresh verbose') := ⟨rfl, rfl, rfl, rfl⟩
    exact forall₂_moves (fun h hx => h.move hx) hfresh hsteps
  · refine ⟨_, _, ?_, Diagnostic.detailLine_detail "code" d.code,
      Diagnostic.detailLine_detail "help" d.help⟩
    rw [String.append_assoc]
    rfl
  · exact forall₂_moves (R := fun s s' => s.reporter = s'.reporter)
      (fun h hx => sameButDumps_move h hx) rfl hsteps

/-- A parenthesis alone is reported with its code and a hint or without them. The tokens of a
negation and its tree are shown before its value or not. -/
theorem settings_only_observe_negation :
    (List.Forall₂ Step.SameButVerbose
        [.setVerbose true, .run ")" {}] [.setVerbose false, .run ")" {}] ∧
      List.Forall₂ Move.SameButVerbose
        ((fresh false).moves [.setVerbose true, .run ")" {}])
        ((fresh false).moves [.setVerbose false, .run ")" {}])) ∧
    (List.Forall₂ Step.SameButDumps
        [.run "!nil" { tokens := true, tree := true }] [.run "!nil" {}] ∧
      List.Forall₂ Move.SameButDumps
        ((fresh false).moves [.run "!nil" { tokens := true, tree := true }])
        ((fresh false).moves [.run "!nil" {}])) ∧
    ((fresh false).play [.run "!nil" { tokens := true, tree := true }]).1.map Record.printed =
      ["BANG ! \nNIL nil \nEOF  \n(! nil)\ntrue\n"] ∧
    ((fresh false).play [.run "!nil" {}]).1.map Record.printed = ["true\n"] := by
  have hreading : Scan.reading "!nil" =
      .tree (.unary ⟨.bang, "!", none, 1⟩ (.literal .nil)) [.endOfInput 1] := by cbv
  have hprintable : Scan.Printable "!nil" := by
    intro e htree
    rw [hreading] at htree
    cases htree
    rfl
  have hverbose : List.Forall₂ Step.SameButVerbose
      [.setVerbose true, .run ")" {}] [.setVerbose false, .run ")" {}] :=
    .cons (.setVerbose true false) (.cons (.same _) .nil)
  have hdumps : List.Forall₂ Step.SameButDumps
      [.run "!nil" { tokens := true, tree := true }] [.run "!nil" {}] :=
    .cons (.run _ _ _ (.inr hprintable)) .nil
  refine ⟨⟨hverbose, settings_only_observe.1 false false _ _ hverbose⟩,
    ⟨hdumps, settings_only_observe.2.2.1 false _ _ hdumps⟩, ?_, ?_⟩
  · cbv
  · cbv

end Session
end LoxCalc
