import LoxCalc.Proofs.Evaluation
import LoxCalc.Session

/-!
# What interpreting an expression does

Evaluation with a limit is evaluation without one, or it is cut off. A tree that is not higher than
the limit allows is cut off only where there are no frames to raise an error
(`Expr.evalAt_ne_tooDeep`). A value shows that the tree was not higher
(`Expr.allows_height_of_evalAt`), for all of it had to be evaluated; an error shows that there were
the frames to raise it (`Expr.exists_level_of_evalAt`). In between are the trees that are too high
but fail before evaluation gets that far. To interpret an expression then has one effect: its value
is printed, or one runtime error is reported, or raised where nobody reports.

The height of a tree does not tell whether its error can be raised: behind as many minus signs as
leave room for a number, a string is cut off (`Expr.eval_minuses_string_ne_unlimited`).
-/

namespace LoxCalc

namespace Expr

/-! ## Operators and their levels -/

/-- `e.HasOperatorAt t level`: the node of an operator `t` is at that level of `e`. The root is at
level one. -/
inductive HasOperatorAt : Expr → Token → Nat → Prop where
  | unary {t : Token} {operand : Expr} : HasOperatorAt (.unary t operand) t 1
  | binary {left right : Expr} {t : Token} : HasOperatorAt (.binary left t right) t 1
  | inGroup {inner : Expr} {t : Token} {level : Nat} :
      HasOperatorAt inner t level → HasOperatorAt (.group inner) t (level + 1)
  | inOperand {operator t : Token} {operand : Expr} {level : Nat} :
      HasOperatorAt operand t level → HasOperatorAt (.unary operator operand) t (level + 1)
  | inLeft {operator t : Token} {left right : Expr} {level : Nat} :
      HasOperatorAt left t level → HasOperatorAt (.binary left operator right) t (level + 1)
  | inRight {operator t : Token} {left right : Expr} {level : Nat} :
      HasOperatorAt right t level → HasOperatorAt (.binary left operator right) t (level + 1)

/-- Every operator has an operand below it. -/
lemma HasOperatorAt.lt_height {e : Expr} {t : Token} {level : Nat} (h : e.HasOperatorAt t level) :
    level < e.height := by
  induction h with
  | @unary t operand =>
    have hoperand := operand.height_pos
    simp only [height]
    omega
  | @binary left right t =>
    have hleft := left.height_pos
    simp only [height]
    omega
  | inGroup _ ih | inOperand _ ih | inLeft _ ih | inRight _ ih =>
    simp only [height]
    omega

/-- How many frames it takes to raise an error, beyond those of its operator, told from its code:
six if there is an operand that is no number, five for operands that cannot be added, and four for
an operator that is unknown and so has no code. -/
def raisingFrames (err : RuntimeError) : Nat :=
  if err.diagnostic.code = some "R001" ∨ err.diagnostic.code = some "R002" then 6
  else if err.diagnostic.code = some "R003" then 5
  else 4

lemma raisingFrames_le (err : RuntimeError) : raisingFrames err ≤ 6 := by
  unfold raisingFrames
  split_ifs <;> omega

/-- What a prefix operator raises. -/
lemma applyUnary_eq_error {operator : Token} {v : Value} {err : RuntimeError}
    (h : applyUnary operator v = .error err) :
    err.token = operator ∧ err.cause.frames = raisingFrames err := by
  unfold applyUnary at h
  split at h
  · cases h
  · cases v <;> cases h <;> exact ⟨rfl, rfl⟩
  · cases h
    exact ⟨rfl, rfl⟩

/-- What a binary operator raises. -/
lemma applyBinary_eq_error {operator : Token} {v w : Value} {err : RuntimeError}
    (h : applyBinary operator v w = .error err) :
    err.token = operator ∧ err.cause.frames = raisingFrames err := by
  unfold applyBinary at h
  split at h
  · cases h
  · cases h
  · unfold applyPlus at h
    split at h <;> cases h
    exact ⟨rfl, rfl⟩
  · unfold applyArithmetic at h
    split at h
    · cases h
      exact ⟨rfl, rfl⟩
    · split at h <;> cases h
      exact ⟨rfl, rfl⟩

/-! ## Room for evaluating -/

lemma conclude_ne_tooDeep {limit : Limit} {depth : Nat} {result : Except RuntimeError Value}
    (h : ∀ err, result = .error err → limit.allows (3 * depth + err.cause.frames) = true) :
    conclude limit depth result ≠ .error .tooDeep := by
  intro hcut
  cases result with
  | ok v => cases hcut
  | error err =>
    rw [conclude, if_pos (h err rfl)] at hcut
    cases hcut

lemma bind_ne_tooDeep {x : Except Failure Value} {f : Value → Except Failure Value}
    (hx : x ≠ .error .tooDeep) (hf : ∀ v, x = .ok v → f v ≠ .error .tooDeep) :
    x.bind f ≠ .error .tooDeep := by
  cases x with
  | error failure => exact hx
  | ok v => exact hf v rfl

lemma exists_of_bind_eq_ok {x : Except Failure Value} {f : Value → Except Failure Value}
    {w : Value} (h : x.bind f = .ok w) : ∃ v, x = .ok v ∧ f v = .ok w := by
  cases x with
  | error failure => cases h
  | ok v => exact ⟨v, rfl, h⟩

/-- An error comes from the first of two stages or, after a value, from the second. -/
lemma cases_of_bind_eq_error {x : Except Failure Value} {f : Value → Except Failure Value}
    {failure : Failure} (h : x.bind f = .error failure) :
    x = .error failure ∨ ∃ v, x = .ok v ∧ f v = .error failure := by
  cases x with
  | error failure' => exact .inl h
  | ok v => exact .inr ⟨v, rfl, h⟩

/-- What is at some level below a node is at the next level of the whole. -/
lemma allows_below (limit : Limit) (depth level n : Nat) :
    limit.allows (3 * (depth + 1 + level) + n) = limit.allows (3 * (depth + (level + 1)) + n) := by
  rw [Nat.add_assoc, Nat.add_comm 1]

/-- A value is the value without a limit. -/
lemma evalAt_unlimited_of_ok {limit : Limit} {depth : Nat} {e : Expr} {v : Value}
    (h : evalAt limit depth e = .ok v) : evalAt .unlimited depth e = .ok v := by
  rw [← h]
  exact evalAt_of_room (fun _ _ => rfl) (by rw [h]; nofun)

/-- Three frames for each level of the tree are enough, if an error can be raised where it
occurs. -/
theorem evalAt_ne_tooDeep {limit : Limit} {depth : Nat} {e : Expr}
    (h : limit.allows (3 * (depth + e.height)) = true)
    (herror : ∀ err level, evalAt .unlimited (depth + 1) e = .error (.error err) →
      e.HasOperatorAt err.token level →
      limit.allows (3 * (depth + level) + raisingFrames err) = true) :
    evalAt limit (depth + 1) e ≠ .error .tooDeep := by
  have hnow : limit.allows (3 * (depth + 1)) = true := by
    have hheight := e.height_pos
    exact Limit.allows_mono (by omega) h
  -- In each case, an error of an operand is one of the whole, at the next level.
  cases e with
  | literal v =>
    rw [evalAt_literal hnow]
    nofun
  | group inner =>
    rw [evalAt_group hnow]
    apply evalAt_ne_tooDeep (Limit.allows_mono (by simp only [height]; omega) h)
    intro err level hfails hat
    rw [allows_below]
    exact herror err (level + 1) (by rw [evalAt_group rfl, hfails]) hat.inGroup
  | unary operator operand =>
    have hoperand : evalAt limit (depth + 1 + 1) operand ≠ .error .tooDeep := by
      apply evalAt_ne_tooDeep (Limit.allows_mono (by simp only [height]; omega) h)
      intro err level hfails hat
      rw [allows_below]
      exact herror err (level + 1) (by rw [evalAt_unary rfl, hfails]; rfl) hat.inOperand
    rw [evalAt_unary hnow]
    refine bind_ne_tooDeep hoperand fun v hv => conclude_ne_tooDeep fun err hfails => ?_
    obtain ⟨rfl, hframes⟩ := applyUnary_eq_error hfails
    rw [hframes]
    refine herror err 1 ?_ .unary
    rw [evalAt_unary rfl, evalAt_unlimited_of_ok hv]
    exact conclude_eq_error_iff.mpr ⟨hfails, rfl⟩
  | binary left operator right =>
    have hleft : evalAt limit (depth + 1 + 1) left ≠ .error .tooDeep := by
      apply evalAt_ne_tooDeep (Limit.allows_mono (by simp only [height]; omega) h)
      intro err level hfails hat
      rw [allows_below]
      exact herror err (level + 1) (by rw [evalAt_binary rfl, hfails]; rfl) hat.inLeft
    rw [evalAt_binary hnow]
    refine bind_ne_tooDeep hleft fun v hv => ?_
    have hright : evalAt limit (depth + 1 + 1) right ≠ .error .tooDeep := by
      apply evalAt_ne_tooDeep (Limit.allows_mono (by simp only [height]; omega) h)
      intro err level hfails hat
      rw [allows_below]
      refine herror err (level + 1) ?_ hat.inRight
      rw [evalAt_binary rfl, evalAt_unlimited_of_ok hv, hfails]
      rfl
    refine bind_ne_tooDeep hright fun w hw => conclude_ne_tooDeep fun err hfails => ?_
    obtain ⟨rfl, hframes⟩ := applyBinary_eq_error hfails
    rw [hframes]
    refine herror err 1 ?_ .binary
    rw [evalAt_binary rfl, evalAt_unlimited_of_ok hv, evalAt_unlimited_of_ok hw]
    exact conclude_eq_error_iff.mpr ⟨hfails, rfl⟩

lemma allows_of_evalAt_ok {limit : Limit} {depth : Nat} {e : Expr} {v : Value}
    (h : evalAt limit depth e = .ok v) : limit.allows (3 * depth) = true :=
  allows_of_evalAt_ne_tooDeep (Nat.le_refl depth) (by rw [h]; nofun)

/-- A value comes from the whole tree, so there were frames for its height. -/
theorem allows_height_of_evalAt {limit : Limit} {depth : Nat} {e : Expr} {v : Value}
    (h : evalAt limit (depth + 1) e = .ok v) : limit.allows (3 * (depth + e.height)) = true := by
  have hnow := allows_of_evalAt_ok h
  induction e generalizing depth v with
  | literal v => exact hnow
  | group inner ih =>
    rw [evalAt_group hnow] at h
    have hinner := ih h (allows_of_evalAt_ok h)
    exact Limit.allows_mono (by simp only [height]; omega) hinner
  | unary operator operand ih =>
    rw [evalAt_unary hnow] at h
    obtain ⟨u, hu, -⟩ := exists_of_bind_eq_ok h
    have hoperand := ih hu (allows_of_evalAt_ok hu)
    exact Limit.allows_mono (by simp only [height]; omega) hoperand
  | binary left operator right ihleft ihright =>
    rw [evalAt_binary hnow] at h
    obtain ⟨u, hu, h⟩ := exists_of_bind_eq_ok h
    obtain ⟨w, hw, -⟩ := exists_of_bind_eq_ok h
    have hleft := ihleft hu (allows_of_evalAt_ok hu)
    have hright := ihright hw (allows_of_evalAt_ok hw)
    -- The higher of the two operands decides.
    have hboth := (limit.allows_max _ _).mpr ⟨hleft, hright⟩
    exact Limit.allows_mono (by simp only [height]; omega) hboth

/-- An error comes from an operator of the tree, where there were frames to raise it. -/
theorem exists_level_of_evalAt {limit : Limit} {depth : Nat} {e : Expr} {err : RuntimeError}
    (h : evalAt limit (depth + 1) e = .error (.error err)) :
    ∃ level, e.HasOperatorAt err.token level ∧
      limit.allows (3 * (depth + level) + raisingFrames err) = true := by
  have hnow : limit.allows (3 * (depth + 1)) = true :=
    allows_of_evalAt_ne_tooDeep (Nat.le_refl _) (by rw [h]; nofun)
  cases e with
  | literal v =>
    rw [evalAt_literal hnow] at h
    cases h
  | group inner =>
    rw [evalAt_group hnow] at h
    obtain ⟨level, hat, hallows⟩ := exists_level_of_evalAt h
    exact ⟨level + 1, hat.inGroup, by rwa [← allows_below]⟩
  | unary operator operand =>
    rw [evalAt_unary hnow] at h
    rcases cases_of_bind_eq_error h with h | ⟨v, -, h⟩
    · obtain ⟨level, hat, hallows⟩ := exists_level_of_evalAt h
      exact ⟨level + 1, hat.inOperand, by rwa [← allows_below]⟩
    · obtain ⟨hfails, hallows⟩ := conclude_eq_error_iff.mp h
      obtain ⟨rfl, hframes⟩ := applyUnary_eq_error hfails
      exact ⟨1, .unary, by rwa [← hframes]⟩
  | binary left operator right =>
    rw [evalAt_binary hnow] at h
    rcases cases_of_bind_eq_error h with h | ⟨v, -, h⟩
    · obtain ⟨level, hat, hallows⟩ := exists_level_of_evalAt h
      exact ⟨level + 1, hat.inLeft, by rwa [← allows_below]⟩
    · rcases cases_of_bind_eq_error h with h | ⟨w, -, h⟩
      · obtain ⟨level, hat, hallows⟩ := exists_level_of_evalAt h
        exact ⟨level + 1, hat.inRight, by rwa [← allows_below]⟩
      · obtain ⟨hfails, hallows⟩ := conclude_eq_error_iff.mp h
        obtain ⟨rfl, hframes⟩ := applyBinary_eq_error hfails
        exact ⟨1, .binary, by rwa [← hframes]⟩

/-- A limit only cuts evaluation off. -/
lemma eval_eq_unlimited_or_tooDeep (limit : Limit) (e : Expr) :
    e.eval limit = e.eval .unlimited ∨ e.eval limit = .error .tooDeep := by
  by_cases hdeep : e.eval limit = .error .tooDeep
  · exact .inr hdeep
  · exact .inl (evalAt_of_room (fun _ _ => rfl) hdeep).symm

/-- A tree for which there are frames is evaluated as if there were no limit, if an error can be
raised where it occurs. -/
lemma eval_eq_unlimited {limit : Limit} {e : Expr} (h : limit.allows (3 * e.height) = true)
    (herror : ∀ err level, e.eval .unlimited = .error (.error err) →
      e.HasOperatorAt err.token level → limit.allows (3 * level + raisingFrames err) = true) :
    e.eval limit = e.eval .unlimited := by
  have hdeep : e.eval limit ≠ .error .tooDeep := by
    apply evalAt_ne_tooDeep
    · rwa [Nat.zero_add]
    · intro err level hfails hat
      rw [Nat.zero_add]
      exact herror err level hfails hat
  exact (eval_eq_unlimited_or_tooDeep limit e).resolve_right hdeep

/-- A tree that has a value has it under every limit with the frames for it. -/
lemma eval_of_eval_unlimited {limit : Limit} {e : Expr} {v : Value}
    (h : limit.allows (3 * e.height) = true) (hvalue : e.eval .unlimited = .ok v) :
    e.eval limit = .ok v := by
  rw [← hvalue]
  apply eval_eq_unlimited h
  intro err level hfails
  cases hvalue.symm.trans hfails

/-- A tree that has a value but not the frames for it is cut off. -/
lemma eval_eq_tooDeep {limit : Limit} {e : Expr} {v : Value}
    (h : ¬limit.allows (3 * e.height) = true) (hvalue : e.eval .unlimited = .ok v) :
    e.eval limit = .error .tooDeep := by
  refine (eval_eq_unlimited_or_tooDeep limit e).resolve_left ?_
  intro hsame
  have hok : evalAt limit (0 + 1) e = .ok v := hsame.trans hvalue
  have hallows := allows_height_of_evalAt hok
  rw [Nat.zero_add] at hallows
  exact h hallows

/-- A tree that has an error but nowhere the frames to raise it is cut off. -/
lemma eval_eq_tooDeep_of_error {limit : Limit} {e : Expr} {err : RuntimeError}
    (h : ∀ level, e.HasOperatorAt err.token level →
      ¬limit.allows (3 * level + raisingFrames err) = true)
    (hfails : e.eval .unlimited = .error (.error err)) :
    e.eval limit = .error .tooDeep := by
  refine (eval_eq_unlimited_or_tooDeep limit e).resolve_left ?_
  intro hsame
  have herror : evalAt limit (0 + 1) e = .error (.error err) := hsame.trans hfails
  obtain ⟨level, hat, hallows⟩ := exists_level_of_evalAt herror
  rw [Nat.zero_add] at hallows
  exact h level hat hallows

/-! ## The error of an expression -/

/-- `TopLine e line`: below any groups around it, `e` has an operator on the line at its top, or it
is a literal and the line is the first. -/
inductive TopLine : Expr → Int → Prop where
  | unary (n : Nat) (operator : Token) (operand : Expr) :
      TopLine (wrap n (.unary operator operand)) operator.line
  | binary (n : Nat) (left : Expr) (operator : Token) (right : Expr) :
      TopLine (wrap n (.binary left operator right)) operator.line
  | literal (n : Nat) (v : Value) : TopLine (wrap n (.literal v)) 1

lemma TopLine.group {e : Expr} {line : Int} (h : TopLine e line) : TopLine (.group e) line := by
  cases h with
  | unary n operator operand => exact .unary (n + 1) operator operand
  | binary n left operator right => exact .binary (n + 1) left operator right
  | literal n v => exact .literal (n + 1) v

/-- Nesting is blamed on the line at the top. -/
lemma topLine_report (e : Expr) : TopLine e (Failure.report e .tooDeep).diagnostic.line := by
  induction e with
  | literal v => exact .literal 0 v
  | group inner ih => exact ih.group
  | unary operator operand _ => exact .unary 0 operator operand
  | binary left operator right _ _ => exact .binary 0 left operator right

/-- `Raises e err`: the expression `e` has no value because of `err`. An error of the evaluation is
the error itself; that the tree is too deep is an error on the line at its top. -/
inductive Raises (e : Expr) : RuntimeError → Prop where
  | failed {err : RuntimeError} : e.eval .standard = .error (.error err) → Raises e err
  | tooDeep {err : RuntimeError} :
      e.eval .standard = .error .tooDeep → err.diagnostic.code = some "R004" →
      TopLine e err.diagnostic.line → Raises e err

lemma raises_report {e : Expr} {failure : Failure} (h : e.eval .standard = .error failure) :
    Raises e (failure.report e) := by
  cases failure with
  | error err => exact .failed h
  | tooDeep => exact .tooDeep h rfl (topLine_report e)

end Expr

namespace Session

open LoxCalc.Expr

/-! ## The effect -/

/-- A line is printed, and nothing else happens. -/
structure Prints (before : Session) (text : String) (after : Session) : Prop where
  output : after.output = before.output ++ text ++ "\n"
  reporter : after.reporter = before.reporter

/-- A runtime diagnostic is reported, and nothing is printed. -/
structure Reports (before : Session) (d : Diagnostic) (after : Session) : Prop where
  phase : d.phase = .runtime
  output : after.output = before.output
  diagnostics : after.reporter.diagnostics = before.reporter.diagnostics ++ [d]
  hadRuntimeError : after.reporter.hadRuntimeError = true
  hadError : after.reporter.hadError = before.reporter.hadError

lemma prints_printLine (s : Session) (text : String) : Prints s text (s.printLine text) :=
  ⟨rfl, rfl⟩

lemma reports_report (s : Session) (err : RuntimeError) :
    Reports s err.diagnostic { s with reporter := s.reporter.report err.diagnostic } := by
  have hphase : err.diagnostic.phase = .runtime := rfl
  constructor
  · exact hphase
  · rfl
  · rfl
  · simp [Reporter.report, hphase]
  · simp [Reporter.report, hphase]

/-- The limit never changes a value: with any number of frames, evaluation is what it is without a
limit or is cut off. If there are three frames for each level of the tree, a value stays what it is,
and so does an error for which there are the frames to raise it wherever its operator occurs, which
there are with three frames more; if there are not, evaluation is cut off. To interpret an
expression prints its value and leaves the reporter alone, or prints nothing and reports one runtime
error, on the line of its operator; without a reporter the same error is raised. -/
theorem interpret_has_one_effect (e : Expr) :
    (∀ count, e.eval (.frames count) = e.eval .unlimited ∨
      e.eval (.frames count) = .error .tooDeep) ∧
    (∀ count v, 3 * e.height ≤ count → e.eval .unlimited = .ok v →
      e.eval (.frames count) = .ok v) ∧
    (∀ count err, 3 * e.height ≤ count → e.eval .unlimited = .error (.error err) →
      (∀ level, e.HasOperatorAt err.token level → 3 * level + raisingFrames err ≤ count) →
      e.eval (.frames count) = .error (.error err)) ∧
    (∀ count, 3 * e.height + 3 ≤ count → e.eval (.frames count) = e.eval .unlimited) ∧
    (∀ count v, count < 3 * e.height → e.eval .unlimited = .ok v →
      e.eval (.frames count) = .error .tooDeep) ∧
    (∀ count err, e.eval .unlimited = .error (.error err) →
      (∀ level, e.HasOperatorAt err.token level → count < 3 * level + raisingFrames err) →
      e.eval (.frames count) = .error .tooDeep) ∧
    e.eval .unlimited ≠ .error .tooDeep ∧
    ∀ s : Session,
      (∃ v, e.eval .standard = .ok v ∧ Prints s v.text (s.interpret e) ∧
        s.interpretOrRaise e = (s.interpret e, .done)) ∨
      ∃ err, Raises e err ∧ err.diagnostic.line = err.token.line ∧
        Reports s err.diagnostic (s.interpret e) ∧ s.interpretOrRaise e = (s, .raised err) := by
  refine ⟨fun count => eval_eq_unlimited_or_tooDeep _ e, ?_, ?_, ?_, ?_, ?_,
    evalAt_ne_tooDeep rfl (fun _ _ _ _ => rfl), ?_⟩
  · intro count v hle hvalue
    exact eval_of_eval_unlimited ((Limit.allows_frames_iff _ _).mpr hle) hvalue
  · intro count err hle hfails hroom
    rw [← hfails]
    apply eval_eq_unlimited ((Limit.allows_frames_iff _ _).mpr hle)
    intro err' level hfails' hat
    cases hfails.symm.trans hfails'
    exact (Limit.allows_frames_iff _ _).mpr (hroom level hat)
  · intro count hle
    apply eval_eq_unlimited ((Limit.allows_frames_iff _ _).mpr (by omega))
    intro err level _ hat
    -- The lowest operator is one level above the bottom.
    have hlevel := hat.lt_height
    have hframes := raisingFrames_le err
    exact (Limit.allows_frames_iff _ _).mpr (by omega)
  · intro count v hlt hvalue
    apply eval_eq_tooDeep _ hvalue
    rw [Limit.allows_frames_iff]
    omega
  · intro count err hfails hroom
    refine eval_eq_tooDeep_of_error (fun level hat => ?_) hfails
    rw [Limit.allows_frames_iff, Nat.not_le]
    exact hroom level hat
  · intro s
    unfold interpret interpretOrRaise evaluate
    cases hresult : e.eval .standard with
    | ok v => exact .inl ⟨v, rfl, s.prints_printLine v.text, rfl⟩
    | error failure =>
      exact .inr ⟨failure.report e, raises_report hresult, rfl, s.reports_report _, rfl⟩

/-- The tree of `(!nil)`. -/
def groupedNot : Expr :=
  .group (.unary ⟨.bang, "!", none, 1⟩ (.literal .nil))

/-- The tree of `-nil`. -/
def negatedNil : Expr :=
  .unary ⟨.minus, "-", none, 1⟩ (.literal .nil)

/-- The three levels of `(!nil)` take nine frames; with eight, it is cut off before it has a value.
The two levels of `-nil` take six, and three more to raise its error. -/
theorem interpret_has_one_effect_not :
    3 * groupedNot.height ≤ 9 ∧ 8 < 3 * groupedNot.height ∧
      groupedNot.eval (.frames 9) = .ok (.bool true) ∧
      groupedNot.eval (.frames 8) = .error .tooDeep ∧
      Prints {} "true" (Session.interpret {} groupedNot) ∧
      3 * negatedNil.height + 3 ≤ 9 ∧
      negatedNil.eval (.frames 9) = .error (.error ⟨.numberOperand, ⟨.minus, "-", none, 1⟩⟩) ∧
      negatedNil.eval (.frames 8) = .error .tooDeep := by
  obtain ⟨-, henough, -, -, htooFew, -, -, heffect⟩ := interpret_has_one_effect groupedNot
  obtain ⟨-, -, hraised, -, -, hcut, -, -⟩ := interpret_has_one_effect negatedNil
  have hvalue : groupedNot.eval .unlimited = .ok (.bool true) := rfl
  have hfails : negatedNil.eval .unlimited =
      .error (.error ⟨.numberOperand, ⟨.minus, "-", none, 1⟩⟩) := rfl
  -- The operator is at the top, and there only.
  have hlevel : ∀ {t level}, negatedNil.HasOperatorAt t level → level = 1 := by
    intro t level hat
    cases hat with
    | unary => rfl
    | inOperand hat => cases hat
  refine ⟨by decide, by decide, henough 9 _ (by decide) hvalue, htooFew 8 _ (by decide) hvalue, ?_,
    by decide, hraised 9 _ (by decide) hfails ?_, hcut 8 _ hfails ?_⟩
  · rcases heffect {} with ⟨v, hv, hprints, -⟩ | ⟨err, hraises, -⟩
    · have hsame : groupedNot.eval .standard = .ok (.bool true) := rfl
      cases hsame.symm.trans hv
      exact hprints
    · cases hraises with
      | failed h => cases h
      | tooDeep h _ _ => cases h
  · intro level hat
    rw [hlevel hat]
    decide
  · intro level hat
    rw [hlevel hat]
    decide

end Session

/-! ## Errors that the height leaves no room for -/

namespace Expr

/-- An expression behind a number of minus signs. -/
def minuses : Nat → Expr → Expr
  | 0, e => e
  | n + 1, e => .unary ⟨.minus, "-", none, 1⟩ (minuses n e)

lemma height_minuses (n : Nat) (e : Expr) : (minuses n e).height = e.height + n := by
  induction n with
  | zero => rfl
  | succ n ih => rw [minuses, height, ih, Nat.add_assoc]

lemma exists_evalAt_minuses_number (depth n : Nat) (x : Float) :
    ∃ y, evalAt .unlimited depth (minuses n (.literal (.number x))) = .ok (.number y) := by
  induction n generalizing depth with
  | zero => exact ⟨x, evalAt_literal rfl _⟩
  | succ n ih =>
    obtain ⟨y, hy⟩ := ih (depth + 1)
    refine ⟨-y, ?_⟩
    rw [minuses, evalAt_unary rfl, hy]
    rfl

/-- The innermost minus sign rejects a string. -/
lemma evalAt_minuses_string (depth n : Nat) (s : String) :
    evalAt .unlimited depth (minuses (n + 1) (.literal (.string s))) =
      .error (.error ⟨.numberOperand, ⟨.minus, "-", none, 1⟩⟩) := by
  induction n generalizing depth with
  | zero => rfl
  | succ n ih =>
    rw [minuses, evalAt_unary rfl, ih]
    rfl

/-- The innermost minus sign needs the frames to raise its error. -/
lemma evalAt_minuses_string_tooDeep {limit : Limit} {depth n : Nat} (s : String)
    (h : ¬limit.allows (3 * (depth + n) + 6) = true) :
    evalAt limit depth (minuses (n + 1) (.literal (.string s))) = .error .tooDeep := by
  induction n generalizing depth with
  | zero =>
    by_cases hnow : limit.allows (3 * depth) = true
    case neg => exact evalAt_of_not_allows hnow _
    rw [minuses, evalAt_unary hnow]
    by_cases hdeeper : limit.allows (3 * (depth + 1)) = true
    case neg => rw [minuses, evalAt_of_not_allows hdeeper]; rfl
    rw [minuses, evalAt_literal hdeeper]
    exact if_neg h
  | succ n ih =>
    by_cases hnow : limit.allows (3 * depth) = true
    case neg => exact evalAt_of_not_allows hnow _
    have hdeeper : ¬limit.allows (3 * (depth + 1 + n) + 6) = true := by
      rwa [Nat.add_right_comm]
    rw [minuses, evalAt_unary hnow, ih hdeeper]
    rfl

/-- With 996 frames, 331 minus signs before a number have a value, so there are frames for 332
levels. The same before a string are as high and have an error, but are cut off. So no number of
frames tells by the height alone whether evaluation is what it is without a limit. -/
theorem eval_minuses_string_ne_unlimited :
    3 * (minuses 331 (.literal (.number 1))).height = 996 ∧
      (∃ v, (minuses 331 (.literal (.number 1))).eval (.frames 996) = .ok v) ∧
      3 * (minuses 331 (.literal (.string "a"))).height = 996 ∧
      (minuses 331 (.literal (.string "a"))).eval .unlimited =
        .error (.error ⟨.numberOperand, ⟨.minus, "-", none, 1⟩⟩) ∧
      (minuses 331 (.literal (.string "a"))).eval (.frames 996) = .error .tooDeep ∧
      ¬∃ budget,
        (∀ e : Expr, 3 * e.height ≤ budget → e.eval (.frames 996) = e.eval .unlimited) ∧
        ∀ (e : Expr) (v : Value), budget < 3 * e.height → e.eval .unlimited = .ok v →
          e.eval (.frames 996) = .error .tooDeep := by
  have hheight : ∀ v, 3 * (minuses 331 (.literal v)).height = 996 := by
    intro v
    rw [height_minuses, height]
  obtain ⟨x, hvalue⟩ := exists_evalAt_minuses_number 1 331 1
  have hroom : (minuses 331 (.literal (.number 1))).eval (.frames 996) = .ok (.number x) :=
    eval_of_eval_unlimited (by rw [hheight]; rfl) hvalue
  have hfails : (minuses 331 (.literal (.string "a"))).eval .unlimited =
      .error (.error ⟨.numberOperand, ⟨.minus, "-", none, 1⟩⟩) :=
    evalAt_minuses_string 1 330 "a"
  have hcut : (minuses 331 (.literal (.string "a"))).eval (.frames 996) = .error .tooDeep :=
    evalAt_minuses_string_tooDeep "a" (by decide)
  refine ⟨hheight _, ⟨_, hroom⟩, hheight _, hfails, hcut, ?_⟩
  rintro ⟨budget, henough, htooFew⟩
  rcases Nat.lt_or_ge budget 996 with hlt | hle
  · -- Fewer frames would not do for the number.
    rw [htooFew _ _ (by rwa [hheight]) hvalue] at hroom
    cases hroom
  · -- With as many, the string would have its error.
    rw [henough _ (by rwa [hheight]), hfails] at hcut
    cases hcut

end Expr
end LoxCalc
