import LoxCalc.Proofs.Outcome
import Mathlib

/-!
# What a session remembers

The history of a session is the list of what its reporter was told: diagnostics, changes of the
verbose setting, resets. What each action tells the reporter is said without looking at the
reporter (`Action.events`); whether a run goes on to evaluate depends on the static errors in the
history since the last reset. After any actions, the reporter reflects the history: its flags, its
diagnostics and its text can be read off (`Reflects`).
-/

namespace LoxCalc

/-! ## Histories -/

/-- Something that a reporter is told. -/
inductive Event where
  | reported (d : Diagnostic)
  | madeVerbose (verbose : Bool)
  | reset
  deriving DecidableEq

/-- The diagnostic that is reported, if the event is a report. -/
def Event.diagnostic? : Event → Option Diagnostic
  | .reported d => some d
  | .madeVerbose _ => none
  | .reset => none

namespace History

/-- What was reported since the last reset, or since the start. -/
def sinceReset (h : List Event) : List Diagnostic :=
  (h.rtakeWhile (· ≠ .reset)).filterMap Event.diagnostic?

/-- No static error was reported since the last reset. -/
def Clear (h : List Event) : Prop :=
  ∀ d ∈ sinceReset h, d.phase = .runtime

instance (h : List Event) : Decidable (Clear h) :=
  inferInstanceAs (Decidable (∀ d ∈ sinceReset h, d.phase = .runtime))

/-- The verbose setting after a history that began with the given one. -/
def setting (verbose : Bool) : List Event → Bool
  | [] => verbose
  | .reported _ :: h => setting verbose h
  | .madeVerbose setting' :: h => setting setting' h
  | .reset :: h => setting verbose h

/-- Everything that was reported, in order, with the verbose setting in force at the time. -/
def entries (verbose : Bool) : List Event → List (Diagnostic × Bool)
  | [] => []
  | .reported d :: h => (d, verbose) :: entries verbose h
  | .madeVerbose setting :: h => entries setting h
  | .reset :: h => entries verbose h

/-- The text of what was reported. -/
def written (entries : List (Diagnostic × Bool)) : String :=
  String.join (entries.map fun entry => entry.1.render entry.2 ++ "\n")

end History

open History

/-- The reporter is as the history says that began with the given verbose setting. -/
structure Reporter.Reflects (verbose : Bool) (h : List Event) (r : Reporter) : Prop where
  verbose_eq : r.verbose = setting verbose h
  hadError_iff : r.hadError = true ↔ ∃ d ∈ sinceReset h, d.phase ≠ .runtime
  hadRuntimeError_iff : r.hadRuntimeError = true ↔ ∃ d ∈ sinceReset h, d.phase = .runtime
  diagnostics_eq : r.diagnostics = (entries verbose h).map Prod.fst
  text_eq : r.text = written (entries verbose h)

/-! ## What actions tell the reporter -/

/-- The errors that the scan of an input reports. -/
def Scan.lexicalDiagnostics (source : String) : List Diagnostic :=
  (ofText source).errors.map LexicalError.diagnostic

/-- The errors that the reading of a token list reports. -/
def Reading.diagnostics (r : Reading) : List Diagnostic :=
  r.error?.toList.map SyntaxError.diagnostic

/-- The errors that the evaluation of an expression reports. -/
def Expr.runtimeDiagnostics (e : Expr) : List Diagnostic :=
  match e.evaluate .standard with
  | .ok _ => []
  | .error err => [err.diagnostic]

/-- The errors that the evaluation of an input reports. Where its tree is to be printed first and is
too deep for that, there is no evaluation. -/
def Scan.runtimeDiagnostics (dumps : Dumps) (source : String) : List Diagnostic :=
  match (reading source).tree? with
  | none => []
  | some e => if (dumps.printed? e).isSome then e.runtimeDiagnostics else []

/-- What a step tells the reporter after the given history. -/
def Step.events (past : List Event) : Step → List Event
  | .run source dumps =>
    let static := (Scan.staticDiagnostics source).map Event.reported
    if Clear (past ++ static) then
      static ++ (Scan.runtimeDiagnostics dumps source).map Event.reported
    else static
  | .scan source => (Scan.lexicalDiagnostics source).map Event.reported
  | .parse source => (Scan.staticDiagnostics source).map Event.reported
  | .interpret source reports =>
    if reports then (Scan.runtimeDiagnostics {} source).map Event.reported else []
  | .error line message place => [.reported { message, line, phase := .parser, place }]
  | .runtimeError e => [.reported e.diagnostic]
  | .report d => [.reported d]
  | .setVerbose verbose => [.madeVerbose verbose]
  | .reset => [.reset]

/-- Something to do in a session: a step, or to read tokens or evaluate an expression that need not
come from an input. -/
inductive Action where
  | step (x : Step)
  | read (tokens : List Token)
  | interpret (e : Expr) (report : Bool)

namespace Action

/-- What an action tells the reporter after the given history. -/
def events (past : List Event) : Action → List Event
  | .step x => x.events past
  | .read tokens => (Expr.parse .standard tokens).diagnostics.map Event.reported
  | .interpret e report => if report then e.runtimeDiagnostics.map Event.reported else []

/-- The history of a session after the given actions. -/
def history (actions : List Action) : List Event :=
  actions.foldl (fun past action => past ++ action.events past) []

end Action

namespace Session

/-- Does one action. -/
def act (s : Session) : Action → Session
  | .step x => (s.step x).1
  | .read tokens => { s with reporter := (s.reporter.parse tokens).2 }
  | .interpret e report => if report then s.interpret e else (s.interpretOrRaise e).1

/-- Does actions in order. -/
def actAll (s : Session) (actions : List Action) : Session :=
  actions.foldl act s

end Session

/-! ## A reporter reflects what it is told -/

namespace History

lemma setting_append (verbose : Bool) (h h' : List Event) :
    setting verbose (h ++ h') = setting (setting verbose h) h' := by
  induction h generalizing verbose with
  | nil => rfl
  | cons event h ih => cases event <;> exact ih _

lemma entries_append (verbose : Bool) (h h' : List Event) :
    entries verbose (h ++ h') = entries verbose h ++ entries (setting verbose h) h' := by
  induction h generalizing verbose with
  | nil => rfl
  | cons event h ih =>
    cases event with
    | reported d => exact congrArg ((d, verbose) :: ·) (ih verbose)
    | madeVerbose setting => exact ih setting
    | reset => exact ih verbose

lemma written_append (es es' : List (Diagnostic × Bool)) :
    written (es ++ es') = written es ++ written es' := by
  rw [written, List.map_append, String.join_append]
  rfl

lemma sinceReset_reset (h : List Event) : sinceReset (h ++ [.reset]) = [] := by
  rw [sinceReset, List.rtakeWhile_concat_neg _ _ _ (by simp)]
  rfl

lemma sinceReset_append_singleton {event : Event} (hevent : event ≠ .reset) (h : List Event) :
    sinceReset (h ++ [event]) = sinceReset h ++ event.diagnostic?.toList := by
  rw [sinceReset, List.rtakeWhile_concat_pos _ _ _ (by simpa using hevent), List.filterMap_append]
  cases event <;> rfl

lemma map_fst_entries (verbose : Bool) (h : List Event) :
    (entries verbose h).map Prod.fst = h.filterMap Event.diagnostic? := by
  induction h generalizing verbose with
  | nil => rfl
  | cons event h ih =>
    cases event with
    | reported d => exact congrArg (d :: ·) (ih verbose)
    | madeVerbose setting => exact ih setting
    | reset => exact ih verbose

/-- The history is clear unless some static error stands since the last reset. -/
lemma not_clear_iff (h : List Event) : ¬Clear h ↔ ∃ d ∈ sinceReset h, d.phase ≠ .runtime := by
  simp [Clear]

end History

namespace Reporter

/-- Takes notice of an event. -/
def tell (r : Reporter) : Event → Reporter
  | .reported d => r.report d
  | .madeVerbose verbose => { r with verbose }
  | .reset => r.reset

/-- A fresh reporter reflects a history in which nothing has happened. -/
lemma reflects_nil (verbose : Bool) : Reflects verbose [] { verbose } where
  verbose_eq := rfl
  hadError_iff := by simp [sinceReset]
  hadRuntimeError_iff := by simp [sinceReset]
  diagnostics_eq := rfl
  text_eq := rfl

variable {verbose : Bool} {past : List Event} {r : Reporter}

lemma Reflects.report (h : Reflects verbose past r) (d : Diagnostic) :
    Reflects verbose (past ++ [.reported d]) (r.report d) where
  verbose_eq := by
    rw [setting_append]
    exact h.verbose_eq
  hadError_iff := by
    rw [sinceReset_append_singleton Event.noConfusion]
    simp [Reporter.report, h.hadError_iff, Event.diagnostic?, or_and_right, exists_or]
  hadRuntimeError_iff := by
    rw [sinceReset_append_singleton Event.noConfusion]
    simp [Reporter.report, h.hadRuntimeError_iff, Event.diagnostic?, or_and_right, exists_or]
  diagnostics_eq := by
    rw [entries_append, List.map_append, ← h.diagnostics_eq]
    rfl
  text_eq := by
    rw [entries_append, written_append, ← h.text_eq, ← h.verbose_eq]
    simp [Reporter.report, entries, written, String.append_assoc]

lemma Reflects.reset (h : Reflects verbose past r) :
    Reflects verbose (past ++ [.reset]) r.reset where
  verbose_eq := by
    rw [setting_append]
    exact h.verbose_eq
  hadError_iff := by
    rw [sinceReset_reset]
    simp [Reporter.reset]
  hadRuntimeError_iff := by
    rw [sinceReset_reset]
    simp [Reporter.reset]
  diagnostics_eq := by
    rw [entries_append, entries, entries, List.append_nil]
    exact h.diagnostics_eq
  text_eq := by
    rw [entries_append, entries, entries, List.append_nil]
    exact h.text_eq

lemma Reflects.setVerbose (h : Reflects verbose past r) (setting : Bool) :
    Reflects verbose (past ++ [.madeVerbose setting]) { r with verbose := setting } where
  verbose_eq := by
    rw [setting_append]
    rfl
  hadError_iff := by
    rw [sinceReset_append_singleton Event.noConfusion]
    simpa [Event.diagnostic?] using h.hadError_iff
  hadRuntimeError_iff := by
    rw [sinceReset_append_singleton Event.noConfusion]
    simpa [Event.diagnostic?] using h.hadRuntimeError_iff
  diagnostics_eq := by
    rw [entries_append, entries, entries, List.append_nil]
    exact h.diagnostics_eq
  text_eq := by
    rw [entries_append, entries, entries, List.append_nil]
    exact h.text_eq

/-- A reporter goes on to reflect the history when it is told what happens. -/
theorem Reflects.tellAll (h : Reflects verbose past r) (events : List Event) :
    Reflects verbose (past ++ events) (events.foldl tell r) := by
  induction events generalizing past r with
  | nil => simpa using h
  | cons event events ih =>
    rw [← List.singleton_append, ← List.append_assoc, List.foldl_append]
    apply ih
    cases event with
    | reported d => exact h.report d
    | madeVerbose setting => exact h.setVerbose setting
    | reset => exact h.reset

lemma tellAll_reported (r : Reporter) (ds : List Diagnostic) :
    (ds.map Event.reported).foldl tell r = r.reportAll ds :=
  List.foldl_map

/-- The flag for static errors tells whether the history is clear. -/
lemma Reflects.hadError_eq_false_iff (h : Reflects verbose past r) :
    r.hadError = false ↔ Clear past := by
  rw [← not_iff_not, not_clear_iff, ← h.hadError_iff, Bool.not_eq_false]

end Reporter

/-! ## What an action does to the reporter -/

namespace Session

lemma reporter_interpret (s : Session) (e : Expr) :
    (s.interpret e).reporter = s.reporter.reportAll e.runtimeDiagnostics := by
  unfold interpret Expr.runtimeDiagnostics
  cases e.evaluate .standard with
  | ok v => rfl
  | error err => rfl

lemma reporter_interpretOrRaise (s : Session) (e : Expr) :
    (s.interpretOrRaise e).1.reporter = s.reporter := by
  unfold interpretOrRaise
  cases e.evaluate .standard with
  | ok v => rfl
  | error err => rfl

/-- The history is clear after the static stages of an input exactly if no static error stood before
it and it has none. -/
lemma clear_static_iff {verbose : Bool} {past : List Event} {s : Session}
    (h : s.reporter.Reflects verbose past) (source : String) :
    Clear (past ++ (Scan.staticDiagnostics source).map Event.reported) ↔
      s.reporter.hadError = false ∧ Scan.staticDiagnostics source = [] := by
  have hstatic := h.tellAll ((Scan.staticDiagnostics source).map Event.reported)
  rw [Reporter.tellAll_reported] at hstatic
  rw [← hstatic.hadError_eq_false_iff]
  exact hadError_afterStatic_eq_false_iff s {} source

/-- A run reports its static errors and, if nothing is in the way, the error of the evaluation. -/
lemma reporter_run {verbose : Bool} {past : List Event} {s : Session}
    (h : s.reporter.Reflects verbose past) (dumps : Dumps) (source : String) :
    (s.run dumps source).1.reporter =
      ((Step.run source dumps).events past).foldl Reporter.tell s.reporter := by
  -- The run goes by the flag of the reporter and the events by the history, which come to the same.
  have hclear := clear_static_iff h source
  rw [Step.events]
  have hruns := runs_run s dumps source
  generalize s.run dumps source = ended at hruns ⊢
  obtain ⟨after, answer⟩ := ended
  cases hruns with
  | skipped hstands =>
    rw [if_neg (fun hc => hstands (hclear.mp hc))]
    exact (Reporter.tellAll_reported s.reporter _).symm
  | unprintable hbefore hstatic hreading hprinted =>
    rw [if_pos (hclear.mpr ⟨hbefore, hstatic⟩), Scan.runtimeDiagnostics, hreading]
    simp only [Reading.tree?, hprinted, hstatic]
    rfl
  | evaluated hbefore hstatic hreading hprinted =>
    rw [if_pos (hclear.mpr ⟨hbefore, hstatic⟩), Scan.runtimeDiagnostics, hreading]
    simp only [Reading.tree?, hprinted, hstatic]
    refine (reporter_interpret _ _).trans ?_
    exact (Reporter.tellAll_reported s.reporter _).symm

/-- A step does to a reporter that reflects the history what it tells it. -/
lemma reporter_step {verbose : Bool} {past : List Event} {s : Session}
    (h : s.reporter.Reflects verbose past) (x : Step) :
    (s.step x).1.reporter = (x.events past).foldl Reporter.tell s.reporter := by
  cases x with
  | run source dumps => exact reporter_run h dumps source
  | scan source => exact (Reporter.tellAll_reported s.reporter _).symm
  | parse source =>
    rw [Step.events, Reporter.tellAll_reported, Scan.staticDiagnostics, Reporter.reportAll_append]
    rfl
  | interpret source reports =>
    rw [Step.events, Scan.runtimeDiagnostics]
    show (match (Scan.reading source).tree? with
      | none => (s, Answer.done)
      | some e => if reports then (s.interpret e, .done) else s.interpretOrRaise e).1.reporter = _
    cases (Scan.reading source).tree? with
    | none => cases reports <;> rfl
    | some e =>
      cases reports with
      | false => exact reporter_interpretOrRaise s e
      | true =>
        refine (reporter_interpret s e).trans ?_
        exact (Reporter.tellAll_reported s.reporter _).symm
  | error line message place => rfl
  | runtimeError e => rfl
  | report d => rfl
  | setVerbose verbose => rfl
  | reset => rfl

/-- An action does to a reporter that reflects the history what it tells it. -/
theorem reporter_act {verbose : Bool} {past : List Event} {s : Session}
    (h : s.reporter.Reflects verbose past) (action : Action) :
    (s.act action).reporter = (action.events past).foldl Reporter.tell s.reporter := by
  cases action with
  | step x => exact reporter_step h x
  | read tokens => exact (Reporter.tellAll_reported s.reporter _).symm
  | interpret e report =>
    cases report with
    | false => exact reporter_interpretOrRaise s e
    | true =>
      refine (reporter_interpret s e).trans ?_
      exact (Reporter.tellAll_reported s.reporter _).symm

/-- After one more action, the reporter reflects one more stretch of history. -/
lemma reflects_act {verbose : Bool} {past : List Event} {s : Session}
    (h : s.reporter.Reflects verbose past) (action : Action) :
    (s.act action).reporter.Reflects verbose (past ++ action.events past) := by
  rw [reporter_act h action]
  exact h.tellAll _

/-- After any actions, the reporter reflects their history. -/
theorem reflects_actAll (verbose : Bool) (actions : List Action) :
    ((fresh verbose).actAll actions).reporter.Reflects verbose (Action.history actions) := by
  induction actions using List.reverseRecOn with
  | nil => exact Reporter.reflects_nil verbose
  | append_singleton earlier action ih =>
    rw [actAll, Action.history, List.foldl_append, List.foldl_append]
    exact reflects_act ih action

/-! ## When a run evaluates -/

/-- The evaluation of an input has left its mark: the value at the end of the output, or the error
at the end of the diagnostics. -/
def Evaluated (dumps : Dumps) (source : String) (before after : Session) : Prop :=
  ∃ e rest text, Scan.reading source = .tree e rest ∧ dumps.printed? e = some text ∧
    ((∃ v, e.evaluate .standard = .ok v ∧
        after.output = before.output ++ dumps.listing (Scan.ofText source).tokens ++ text ++
          v.text ++ "\n") ∨
      ∃ err, e.evaluate .standard = .error err ∧
        after.reporter.diagnostics = before.reporter.diagnostics ++ [err.diagnostic])

/-- The input has only been scanned and read. -/
def Skipped (dumps : Dumps) (source : String) (before after : Session) : Prop :=
  after.output = before.output ++ dumps.listing (Scan.ofText source).tokens ∧
    after.reporter.diagnostics = before.reporter.diagnostics ++ Scan.staticDiagnostics source

lemma skipped_afterStatic (s : Session) (dumps : Dumps) (source : String) :
    Skipped dumps source s (s.afterStatic dumps source) :=
  ⟨rfl, Reporter.diagnostics_reportAll s.reporter _⟩

/-- Evaluation leaves a mark that the static stages do not leave. -/
lemma Skipped.not_evaluated {dumps : Dumps} {source : String} {before after : Session}
    (h : Skipped dumps source before after) : ¬Evaluated dumps source before after := by
  obtain ⟨houtput, hdiagnostics⟩ := h
  rintro ⟨e, rest, text, -, -, ⟨v, -, hvalue⟩ | ⟨err, -, herror⟩⟩
  · -- A value adds at least its end of line to the output.
    have hlength := congrArg String.length (houtput.symm.trans hvalue)
    simp only [String.length_append] at hlength
    have hnewline : "\n".length = 1 := by decide
    omega
  · -- The error of an evaluation is no static error.
    have hstatic := List.append_cancel_left (hdiagnostics.symm.trans herror)
    have hmem : err.diagnostic ∈ Scan.staticDiagnostics source := by rw [hstatic]; simp
    exact Scan.phase_of_mem_staticDiagnostics hmem rfl

/-- Evaluation after the printing leaves its mark. -/
lemma evaluated_interpret (s : Session) {dumps : Dumps} {source : String} {e : Expr}
    {rest : List Token} {text : String} (hreading : Scan.reading source = .tree e rest)
    (hprinted : dumps.printed? e = some text) :
    Evaluated dumps source s
      (interpret { s with output := s.output ++ dumps.listing (Scan.ofText source).tokens ++ text }
        e) := by
  refine ⟨e, rest, text, hreading, hprinted, ?_⟩
  rw [interpret]
  cases e.evaluate .standard with
  | ok v => exact .inl ⟨v, rfl, rfl⟩
  | error err => exact .inr ⟨err, rfl, rfl⟩

/-- A run evaluates its tree exactly if no static error stands since the last reset and the tree can
be printed where that is asked for; else the input is only scanned and read. -/
theorem evaluated_run_iff {verbose : Bool} {past : List Event} {s : Session}
    (h : s.reporter.Reflects verbose past) (dumps : Dumps) (source : String) :
    (Evaluated dumps source s (s.run dumps source).1 ↔
      Clear (past ++ (Scan.staticDiagnostics source).map Event.reported) ∧
        ∃ e rest text, Scan.reading source = .tree e rest ∧ dumps.printed? e = some text) ∧
    (Evaluated dumps source s (s.run dumps source).1 ∨
      Skipped dumps source s (s.run dumps source).1) := by
  have hskipped := skipped_afterStatic s dumps source
  rw [clear_static_iff h source]
  have hruns := runs_run s dumps source
  generalize s.run dumps source = ended at hruns ⊢
  obtain ⟨after, answer⟩ := ended
  cases hruns with
  | skipped hstands =>
    exact ⟨iff_of_false hskipped.not_evaluated fun hready => hstands hready.1, .inr hskipped⟩
  | unprintable hbefore hstatic hreading hprinted =>
    refine ⟨iff_of_false hskipped.not_evaluated ?_, .inr hskipped⟩
    rintro ⟨-, e', rest', text, hreading', htext⟩
    cases hreading.symm.trans hreading'
    rw [hprinted] at htext
    cases htext
  | evaluated hbefore hstatic hreading hprinted =>
    have hdone := evaluated_interpret s hreading hprinted
    exact ⟨iff_of_true hdone ⟨⟨hbefore, hstatic⟩, _, _, _, hreading, hprinted⟩, .inl hdone⟩

/-! ## Whole sessions -/

/-- The sessions that are recorded when steps are played are those after each of them. -/
lemma after_play (s : Session) (steps : List Step) (i : Nat) :
    ((s.play steps).1[i]?).map Record.after =
      (steps[i]?).map fun _ => s.actAll ((steps.take (i + 1)).map .step) := by
  induction steps generalizing s i with
  | nil => rfl
  | cons x steps ih =>
    cases i with
    | zero => rfl
    | succ i => exact ih (s.step x).1 i

/-- Over a whole session, whatever is done in it, the reporter reflects the history, and each action
only adds to the diagnostics what it reports. A run evaluates its tree exactly if no static error
has been reported since the last reset, its own included, and the tree can be printed where that is
asked for; else it writes no value and reports no runtime error. Earlier runtime errors do not
matter. -/
theorem reporter_reflects_history (verbose : Bool) (actions : List Action) :
    ((fresh verbose).actAll actions).reporter.Reflects verbose (Action.history actions) ∧
    (∀ action : Action,
      ((fresh verbose).actAll (actions ++ [action])).reporter.diagnostics =
        ((fresh verbose).actAll actions).reporter.diagnostics ++
          (action.events (Action.history actions)).filterMap Event.diagnostic?) ∧
    (∀ (source : String) (dumps : Dumps),
      (Evaluated dumps source ((fresh verbose).actAll actions)
          ((fresh verbose).actAll (actions ++ [.step (.run source dumps)])) ↔
        Clear (Action.history actions ++ (Scan.staticDiagnostics source).map Event.reported) ∧
          ∃ e rest text, Scan.reading source = .tree e rest ∧ dumps.printed? e = some text) ∧
      (Evaluated dumps source ((fresh verbose).actAll actions)
          ((fresh verbose).actAll (actions ++ [.step (.run source dumps)])) ∨
        Skipped dumps source ((fresh verbose).actAll actions)
          ((fresh verbose).actAll (actions ++ [.step (.run source dumps)])))) ∧
    ∀ (steps : List Step) (i : Nat),
      (((fresh verbose).play steps).1[i]?).map Record.after =
        (steps[i]?).map fun _ => (fresh verbose).actAll ((steps.take (i + 1)).map .step) := by
  have hreflects := reflects_actAll verbose actions
  have hact : ∀ action : Action, (fresh verbose).actAll (actions ++ [action]) =
      ((fresh verbose).actAll actions).act action :=
    fun action => List.foldl_append
  refine ⟨hreflects, fun action => ?_, fun source dumps => ?_, after_play (fresh verbose)⟩
  · rw [hact, (reflects_act hreflects action).diagnostics_eq, hreflects.diagnostics_eq,
      map_fst_entries, map_fst_entries, List.filterMap_append]
  · rw [hact]
    exact evaluated_run_iff hreflects dumps source

end Session
end LoxCalc
