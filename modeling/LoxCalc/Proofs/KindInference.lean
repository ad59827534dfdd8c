import LoxCalc.Proofs.Evaluation

/-!
# Kinds decide how evaluation ends

An expression of which only the kinds of the literals are known is a `Shape`. Whether an operator
fits its operands, and the kind of what it gives, can be told from their kinds (`unaryKind`,
`binaryKind`), so kinds can be inferred from the shape alone. Evaluation ends as inference does:
with a value of the inferred kind, with the inferred error, or too deep.
-/

namespace LoxCalc

/-- The kinds of value. -/
inductive Value.Kind where
  | nil
  | bool
  | number
  | string
  deriving DecidableEq

/-- The kind of a value. -/
def Value.kind : Value → Value.Kind
  | .nil => .nil
  | .bool _ => .bool
  | .number _ => .number
  | .string _ => .string

namespace Expr

/-- An expression of which only the kinds of the literals are known. -/
inductive Shape where
  | literal (kind : Value.Kind)
  | group (inner : Shape)
  | unary (operator : Token) (operand : Shape)
  | binary (left : Shape) (operator : Token) (right : Shape)

/-- The shape of an expression. -/
def shape : Expr → Shape
  | .literal v => .literal v.kind
  | .group inner => .group inner.shape
  | .unary operator operand => .unary operator operand.shape
  | .binary left operator right => .binary left.shape operator right.shape

/-! ## Operators on kinds -/

/-- The kind that a prefix operator gives. -/
def unaryKind (operator : Token) (k : Value.Kind) : Except RuntimeError Value.Kind :=
  match operator.kind with
  | .bang => .ok .bool
  | .minus => if k = .number then .ok .number else .error ⟨.numberOperand, operator⟩
  | _ => .error ⟨.unknownUnary, operator⟩

/-- The kind that an operator on two numbers gives, if it takes two numbers and nothing else. -/
def arithmeticKind? : Token.Kind → Option Value.Kind
  | .minus | .star | .slash => some .number
  | .greater | .greaterEqual | .less | .lessEqual => some .bool
  | _ => none

/-- The kind that an operator which takes two numbers gives; any other operator is unknown. -/
def arithmeticKind (operator : Token) (k l : Value.Kind) : Except RuntimeError Value.Kind :=
  match arithmeticKind? operator.kind with
  | none => .error ⟨.unknownBinary, operator⟩
  | some result =>
    if k = .number ∧ l = .number then .ok result else .error ⟨.numberOperands, operator⟩

/-- The kind that a binary operator gives. -/
def binaryKind (operator : Token) (k l : Value.Kind) : Except RuntimeError Value.Kind :=
  match operator.kind with
  | .equalEqual => .ok .bool
  | .bangEqual => .ok .bool
  | .plus =>
    if k = l ∧ (k = .number ∨ k = .string) then .ok k else .error ⟨.plusOperands, operator⟩
  | _ => arithmeticKind operator k l

/-- A prefix operator fails or gives a value as its kind table says. -/
lemma map_kind_applyUnary (operator : Token) (v : Value) :
    (applyUnary operator v).map Value.kind = unaryKind operator v.kind := by
  unfold applyUnary unaryKind
  cases operator.kind
  case minus => cases v <;> rfl
  all_goals rfl

/-- What an operator gives on two numbers is of one kind, whatever the numbers. -/
lemma map_kind_arithmetic? (k : Token.Kind) :
    (arithmetic? k).map (fun f x y => (f x y).kind) = (arithmeticKind? k).map fun l _ _ => l := by
  cases k <;> rfl

lemma map_kind_applyArithmetic (operator : Token) (v w : Value) :
    (applyArithmetic operator v w).map Value.kind = arithmeticKind operator v.kind w.kind := by
  have htable := map_kind_arithmetic? operator.kind
  unfold applyArithmetic arithmeticKind
  cases hf : arithmetic? operator.kind with
  | none =>
    have hkind : arithmeticKind? operator.kind = none := by
      rw [hf] at htable
      exact Option.map_eq_none_iff.mp htable.symm
    rw [hkind]
    rfl
  | some f =>
    obtain ⟨result, hkind, hresult⟩ : ∃ result, arithmeticKind? operator.kind = some result ∧
        (fun _ _ => result) = fun x y => (f x y).kind := by
      rw [hf] at htable
      exact Option.map_eq_some_iff.mp htable.symm
    rw [hkind]
    cases v <;> cases w <;> try rfl
    -- Two numbers are the one pair of operands that fits.
    next x y => exact congrArg Except.ok (congrFun (congrFun hresult x) y).symm

/-- A binary operator fails or gives a value as its kind table says. -/
lemma map_kind_applyBinary (operator : Token) (v w : Value) :
    (applyBinary operator v w).map Value.kind = binaryKind operator v.kind w.kind := by
  unfold applyBinary binaryKind
  cases operator.kind
  case plus => cases v <;> cases w <;> rfl
  case equalEqual | bangEqual => rfl
  all_goals exact map_kind_applyArithmetic operator v w

/-! ## Inference -/

/-- Infers the kind of an expression that stands at the given depth. -/
def Shape.inferAt (limit : Limit) (depth : Nat) (s : Shape) : Except Failure Value.Kind :=
  if limit.allows (3 * depth) then
    match s with
    | .literal k => .ok k
    | .group inner => inferAt limit (depth + 1) inner
    | .unary operator operand =>
      (inferAt limit (depth + 1) operand).bind fun k =>
        conclude limit depth (unaryKind operator k)
    | .binary left operator right =>
      (inferAt limit (depth + 1) left).bind fun k =>
        (inferAt limit (depth + 1) right).bind fun l =>
          conclude limit depth (binaryKind operator k l)
  else .error .tooDeep

/-- The kind of the value of any expression of the given shape, or why it has none. -/
def Shape.infer (limit : Limit) (s : Shape) : Except Failure Value.Kind :=
  s.inferAt limit 1

/-- Whether there are frames to raise an error does not depend on values. -/
lemma map_kind_conclude (limit : Limit) (depth : Nat) (result : Except RuntimeError Value) :
    (conclude limit depth result).map Value.kind =
      conclude limit depth (result.map Value.kind) := by
  cases result with
  | ok v => rfl
  | error err =>
    show Except.map Value.kind (if _ then _ else _) = if _ then _ else _
    split <;> rfl

/-- If the kinds of two stages are told from kinds, so is the kind of one after the other. -/
lemma map_kind_bind {f : Value → Except Failure Value}
    {g : Value.Kind → Except Failure Value.Kind} (h : ∀ v, (f v).map Value.kind = g v.kind)
    (x : Except Failure Value) : (x.bind f).map Value.kind = (x.map Value.kind).bind g := by
  cases x with
  | error failure => rfl
  | ok v => exact h v

/-- Evaluation at any depth ends as inference does. -/
theorem map_kind_evalAt (limit : Limit) (depth : Nat) (e : Expr) :
    (evalAt limit depth e).map Value.kind = e.shape.inferAt limit depth := by
  by_cases hallows : limit.allows (3 * depth) = true
  · rw [Shape.inferAt.eq_def, if_pos hallows]
    cases e with
    | literal v => rw [evalAt_literal hallows]; rfl
    | group inner =>
      rw [evalAt_group hallows]
      exact map_kind_evalAt limit (depth + 1) inner
    | unary operator operand =>
      have hoperand := map_kind_evalAt limit (depth + 1) operand
      simp only [shape]
      rw [evalAt_unary hallows, ← hoperand]
      apply map_kind_bind
      intro v
      rw [map_kind_conclude, map_kind_applyUnary]
    | binary left operator right =>
      have hleft := map_kind_evalAt limit (depth + 1) left
      have hright := map_kind_evalAt limit (depth + 1) right
      simp only [shape]
      rw [evalAt_binary hallows, ← hleft, ← hright]
      apply map_kind_bind
      intro v
      apply map_kind_bind
      intro w
      rw [map_kind_conclude, map_kind_applyBinary]
  · rw [evalAt_of_not_allows hallows, Shape.inferAt.eq_def, if_neg hallows]
    rfl

/-- Results of which only the kinds are told, and which agree in that, are both values of one kind
or both the same failure. -/
lemma same_ending {x y : Except Failure Value} (h : x.map Value.kind = y.map Value.kind) :
    (∃ v w, x = .ok v ∧ y = .ok w ∧ v.kind = w.kind) ∨
      (∃ err, x = .error (.error err) ∧ y = .error (.error err)) ∨
      (x = .error .tooDeep ∧ y = .error .tooDeep) := by
  cases x with
  | ok v =>
    cases y with
    | ok w => exact .inl ⟨v, w, rfl, rfl, Except.ok.inj h⟩
    | error failure => cases h
  | error failure =>
    cases y with
    | ok w => cases h
    | error failure' =>
      obtain rfl : failure = failure' := Except.error.inj h
      cases failure with
      | error err => exact .inr (.inl ⟨err, rfl, rfl⟩)
      | tooDeep => exact .inr (.inr ⟨rfl, rfl⟩)

/-- How evaluation ends does not depend on the literals but on their kinds. It gives a value of the
inferred kind, fails as inferred, or nests too deeply; and for expressions of one shape, it does the
same for both, with the same error at the same operator. -/
theorem eval_determined_by_kinds (limit : Limit) :
    (∀ e : Expr, (e.eval limit).map Value.kind = e.shape.infer limit) ∧
    ∀ d e : Expr, d.shape = e.shape →
      (∃ v w, d.eval limit = .ok v ∧ e.eval limit = .ok w ∧ v.kind = w.kind) ∨
      (∃ err, d.eval limit = .error (.error err) ∧ e.eval limit = .error (.error err)) ∨
      (d.eval limit = .error .tooDeep ∧ e.eval limit = .error .tooDeep) := by
  have hinfer : ∀ e : Expr, (e.eval limit).map Value.kind = e.shape.infer limit :=
    fun e => map_kind_evalAt limit 1 e
  refine ⟨hinfer, fun d e hshape => ?_⟩
  have hkinds : (d.eval limit).map Value.kind = (e.eval limit).map Value.kind := by
    rw [hinfer, hinfer, hshape]
  exact same_ending hkinds

/-- The tree of `-(x / y) + s`. -/
def negatedQuotientPlus (x y : Float) (s : String) : Expr :=
  .binary (.unary ⟨.minus, "-", none, 1⟩ (.group
    (.binary (.literal (.number x)) ⟨.slash, "/", none, 1⟩ (.literal (.number y)))))
    ⟨.plus, "+", none, 2⟩ (.literal (.string s))

lemma shape_negatedQuotientPlus (x y x' y' : Float) (s s' : String) :
    (negatedQuotientPlus x y s).shape = (negatedQuotientPlus x' y' s').shape := rfl

/-- An infinity and a number that is none fail alike at the operator above the division. -/
theorem eval_determined_by_kinds_division :
    (negatedQuotientPlus 1 0 "a").shape = (negatedQuotientPlus 0 0 "").shape ∧
      (negatedQuotientPlus 1 0 "a").eval .standard =
        .error (.error ⟨.plusOperands, ⟨.plus, "+", none, 2⟩⟩) ∧
      (negatedQuotientPlus 0 0 "").eval .standard =
        .error (.error ⟨.plusOperands, ⟨.plus, "+", none, 2⟩⟩) := by
  obtain ⟨hinfer, hsame⟩ := eval_determined_by_kinds .standard
  have hkind := hinfer (negatedQuotientPlus 1 0 "a")
  have hfails : (negatedQuotientPlus 1 0 "a").shape.infer .standard =
      .error (.error ⟨.plusOperands, ⟨.plus, "+", none, 2⟩⟩) := rfl
  rw [hfails] at hkind
  have hshape := shape_negatedQuotientPlus 1 0 0 0 "a" ""
  refine ⟨hshape, ?_⟩
  rcases hsame (negatedQuotientPlus 1 0 "a") (negatedQuotientPlus 0 0 "") hshape with
    ⟨v, -, hvalue, -⟩ | ⟨err, hfirst, hsecond⟩ | ⟨hdeep, -⟩
  · rw [hvalue] at hkind
    cases hkind
  · rw [hfirst] at hkind ⊢
    cases hkind
    exact ⟨rfl, hsecond⟩
  · rw [hdeep] at hkind
    cases hkind

end Expr
end LoxCalc
