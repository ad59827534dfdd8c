import LoxCalc.Expr.Eval
import Mathlib.Tactic.Common

/-!
# Steps of evaluation

What evaluation does at each kind of node where there are frames for it, and what follows from a
result that is not too deep: it is the result wherever there are at least as many frames left.
-/

namespace LoxCalc
namespace Expr

variable {limit : Limit} {depth : Nat}

/-! ## The result of an operator -/

/-- An error is raised where there are frames for that. -/
lemma conclude_eq_error_iff {result : Except RuntimeError Value} {err : RuntimeError} :
    conclude limit depth result = .error (.error err) ↔
      result = .error err ∧ limit.allows (3 * depth + err.cause.frames) = true := by
  cases result with
  | ok u => simp [conclude]
  | error err' =>
    simp only [conclude]
    split
    · next hallows =>
      simp only [Except.error.injEq, Failure.error.injEq, iff_self_and]
      rintro rfl
      exact hallows
    · next hallows =>
      simp only [Except.error.injEq, reduceCtorEq, false_iff, not_and]
      rintro rfl
      exact hallows

/-- A result that is not too deep is the result wherever there are at least as many frames left. -/
lemma conclude_of_room {limit limit' : Limit} {depth depth' : Nat}
    {result : Except RuntimeError Value}
    (hroom : ∀ n, limit.allows (3 * depth + n) = true → limit'.allows (3 * depth' + n) = true)
    (h : conclude limit depth result ≠ .error .tooDeep) :
    conclude limit' depth' result = conclude limit depth result := by
  cases result with
  | ok v => rfl
  | error err =>
    simp only [conclude] at h ⊢
    split at h
    · next hallows => rw [if_pos hallows, if_pos (hroom _ hallows)]
    · exact absurd rfl h

/-! ## Nodes -/

lemma height_pos (e : Expr) : 1 ≤ e.height := by
  cases e <;> simp [height]

lemma evalAt_of_not_allows (h : ¬limit.allows (3 * depth) = true) (e : Expr) :
    evalAt limit depth e = .error .tooDeep := by
  rw [evalAt.eq_def, if_neg h]

lemma evalAt_literal (h : limit.allows (3 * depth) = true) (v : Value) :
    evalAt limit depth (.literal v) = .ok v := by
  rw [evalAt.eq_def, if_pos h]

lemma evalAt_group (h : limit.allows (3 * depth) = true) (inner : Expr) :
    evalAt limit depth (.group inner) = evalAt limit (depth + 1) inner := by
  rw [evalAt.eq_def, if_pos h]

lemma evalAt_unary (h : limit.allows (3 * depth) = true) (operator : Token) (operand : Expr) :
    evalAt limit depth (.unary operator operand) =
      (evalAt limit (depth + 1) operand).bind fun v =>
        conclude limit depth (applyUnary operator v) := by
  rw [evalAt.eq_def, if_pos h]

lemma evalAt_binary (h : limit.allows (3 * depth) = true) (left : Expr) (operator : Token)
    (right : Expr) :
    evalAt limit depth (.binary left operator right) =
      (evalAt limit (depth + 1) left).bind fun v =>
        (evalAt limit (depth + 1) right).bind fun w =>
          conclude limit depth (applyBinary operator v w) := by
  rw [evalAt.eq_def, if_pos h]

/-- Where the result is not too deep, there are frames for the node, there and at every shallower
place. -/
lemma allows_of_evalAt_ne_tooDeep {shallower : Nat} {e : Expr} (hle : shallower ≤ depth)
    (h : evalAt limit depth e ≠ .error .tooDeep) : limit.allows (3 * shallower) = true := by
  by_contra hallows
  have hdeeper : ¬limit.allows (3 * depth) = true :=
    fun hdepth => hallows (Limit.allows_mono (by omega) hdepth)
  exact h (evalAt_of_not_allows hdeeper e)

/-! ## Room for a result -/

/-- If two stages keep what is not too deep, so does one after the other. -/
lemma bind_of_room {x x' : Except Failure Value} {f f' : Value → Except Failure Value}
    (hx : x ≠ .error .tooDeep → x' = x)
    (hf : ∀ v, f v ≠ .error .tooDeep → f' v = f v)
    (h : x.bind f ≠ .error .tooDeep) : x'.bind f' = x.bind f := by
  have hne : x ≠ .error .tooDeep := by
    rintro rfl
    exact h rfl
  rw [hx hne]
  cases x with
  | error failure => rfl
  | ok v => exact hf v h

/-- A result that is not too deep is the result wherever there are at least as many frames left. -/
theorem evalAt_of_room {limit limit' : Limit} {depth depth' : Nat} {e : Expr}
    (hroom : ∀ n, limit.allows (3 * depth + n) = true → limit'.allows (3 * depth' + n) = true)
    (h : evalAt limit depth e ≠ .error .tooDeep) :
    evalAt limit' depth' e = evalAt limit depth e := by
  have hallows := allows_of_evalAt_ne_tooDeep (Nat.le_refl depth) h
  have hallows' : limit'.allows (3 * depth') = true := hroom 0 hallows
  -- One level down, there is room on both sides as there was here.
  have hdeeper : ∀ n, limit.allows (3 * (depth + 1) + n) = true →
      limit'.allows (3 * (depth' + 1) + n) = true := by
    intro n hn
    rw [Nat.mul_succ, Nat.add_assoc] at hn ⊢
    exact hroom (3 + n) hn
  cases e with
  | literal v => rw [evalAt_literal hallows, evalAt_literal hallows']
  | group inner =>
    rw [evalAt_group hallows] at h ⊢
    rw [evalAt_group hallows', evalAt_of_room hdeeper h]
  | unary operator operand =>
    rw [evalAt_unary hallows] at h ⊢
    rw [evalAt_unary hallows']
    exact bind_of_room (evalAt_of_room hdeeper) (fun v => conclude_of_room hroom) h
  | binary left operator right =>
    rw [evalAt_binary hallows] at h ⊢
    rw [evalAt_binary hallows']
    exact bind_of_room (evalAt_of_room hdeeper)
      (fun v => bind_of_room (evalAt_of_room hdeeper) fun w => conclude_of_room hroom) h

/-- The value of a part of an expression is its value on its own. -/
lemma eval_of_evalAt {e : Expr} {v : Value} (h : evalAt limit (depth + 1) e = .ok v) :
    e.eval limit = .ok v := by
  have hroom : ∀ n, limit.allows (3 * (depth + 1) + n) = true →
      limit.allows (3 * 1 + n) = true :=
    fun n hn => Limit.allows_mono (by omega) hn
  rw [← h]
  exact evalAt_of_room hroom (by rw [h]; nofun)

end Expr
end LoxCalc
