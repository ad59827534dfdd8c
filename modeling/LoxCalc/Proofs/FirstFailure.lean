import LoxCalc.Proofs.Evaluation
import LoxCalc.Proofs.Grammar

/-!
# Which operator an evaluation fails at

A node fails locally if its operands have values which its operator rejects. An evaluation that does
not nest too deeply fails exactly if some node fails locally, and it fails at the first of them in
the order in which nodes are completed: left operand, right operand, operator.
-/

namespace LoxCalc

lemma Value.isNumber_iff {v : Value} : v.isNumber = true ↔ ∃ x, v = .number x := by
  cases v <;> simp [isNumber]

lemma Value.isString_iff {v : Value} : v.isString = true ↔ ∃ s, v = .string s := by
  cases v <;> simp [isString]

namespace Expr

/-! ## Local failure -/

/-- The nodes of an expression, each after its operands. -/
def postorder : Expr → List Expr
  | .literal v => [.literal v]
  | .group inner => inner.postorder ++ [.group inner]
  | .unary operator operand => operand.postorder ++ [.unary operator operand]
  | .binary left operator right =>
    left.postorder ++ right.postorder ++ [.binary left operator right]

/-- `RejectsOne operator v wording`: a prefix operator does not fit its operand, and the words for
that. -/
inductive RejectsOne (operator : Token) (v : Value) : Wording → Prop where
  | notNumber : operator.kind = .minus → ¬v.isNumber = true →
      RejectsOne operator v
        ⟨"Operand must be a number.", some "R001",
          some ("'" ++ operator.lexeme ++ "' only applies to numbers.")⟩
  | unknown : operator.kind ≠ .bang → operator.kind ≠ .minus →
      RejectsOne operator v ⟨"Unknown unary operator '" ++ operator.lexeme ++ "'.", none, none⟩

/-- `RejectsTwo operator v w wording`: a binary operator does not fit its operands, and the words
for that. -/
inductive RejectsTwo (operator : Token) (v w : Value) : Wording → Prop where
  | notNumbers :
      operator.kind ∈ [.minus, .star, .slash, .greater, .greaterEqual, .less, .lessEqual] →
      ¬(v.isNumber = true ∧ w.isNumber = true) →
      RejectsTwo operator v w
        ⟨"Operands must be numbers.", some "R002",
          some ("Both sides of '" ++ operator.lexeme ++ "' must be numbers.")⟩
  | notAddable : operator.kind = .plus → ¬(v.isNumber = true ∧ w.isNumber = true) →
      ¬(v.isString = true ∧ w.isString = true) →
      RejectsTwo operator v w
        ⟨"Operands must be two numbers or two strings.", some "R003",
          some "'+' adds two numbers or concatenates two strings; there is no implicit conversion."⟩
  | unknown : operator.kind ∉ Token.Kind.binaryOperators →
      RejectsTwo operator v w ⟨"Unknown binary operator '" ++ operator.lexeme ++ "'.", none, none⟩

/-- `node.FailsLocally limit operator wording`: the operands of the node have values, which its
operator rejects. -/
inductive FailsLocally (limit : Limit) : Expr → Token → Wording → Prop where
  | unary {operator : Token} {operand : Expr} {v : Value} {wording : Wording} :
      operand.eval limit = .ok v → RejectsOne operator v wording →
      FailsLocally limit (.unary operator operand) operator wording
  | binary {left right : Expr} {operator : Token} {v w : Value} {wording : Wording} :
      left.eval limit = .ok v → right.eval limit = .ok w → RejectsTwo operator v w wording →
      FailsLocally limit (.binary left operator right) operator wording

/-- No node in the list fails locally. -/
def NoneFails (limit : Limit) (nodes : List Expr) : Prop :=
  ∀ node ∈ nodes, ∀ operator wording, ¬FailsLocally limit node operator wording

/-- The first node in the list that fails locally does so at the given operator. -/
def FirstFails (limit : Limit) (nodes : List Expr) (operator : Token) (wording : Wording) : Prop :=
  ∃ before node after, nodes = before ++ node :: after ∧ NoneFails limit before ∧
    FailsLocally limit node operator wording

/-! ## What an operator rejects -/

/-- An operator gives a value exactly if it does not reject its operands, and else an error at
itself in the words of the rejection. -/
def Settles (operator : Token) (rejects : Wording → Prop) : Except RuntimeError Value → Prop
  | .ok _ => ∀ wording, ¬rejects wording
  | .error err => err.token = operator ∧ rejects (err.cause.wording operator)

theorem settles_applyUnary (operator : Token) (v : Value) :
    Settles operator (RejectsOne operator v) (applyUnary operator v) := by
  unfold applyUnary
  split
  · next hkind =>
    intro wording hrejects
    cases hrejects with
    | notNumber hminus _ => exact absurd (hkind.symm.trans hminus) (by decide)
    | unknown hbang _ => exact hbang hkind
  · next hkind =>
    cases v with
    | number x =>
      intro wording hrejects
      cases hrejects with
      | notNumber _ hnumber => exact hnumber rfl
      | unknown _ hminus => exact hminus hkind
    | nil => exact ⟨rfl, .notNumber hkind nofun⟩
    | bool b => exact ⟨rfl, .notNumber hkind nofun⟩
    | string s => exact ⟨rfl, .notNumber hkind nofun⟩
  · next hbang hminus => exact ⟨rfl, .unknown hbang hminus⟩

/-- Equality takes everything. -/
lemma RejectsTwo.kind_ne {operator : Token} {v w : Value} {wording : Wording}
    (h : RejectsTwo operator v w wording) :
    operator.kind ≠ .equalEqual ∧ operator.kind ≠ .bangEqual := by
  cases h with
  | notNumbers hmem _ => constructor <;> (intro hkind; rw [hkind] at hmem; revert hmem; decide)
  | notAddable hplus _ _ => rw [hplus]; decide
  | unknown hnot => constructor <;> (intro hkind; rw [hkind] at hnot; exact hnot (by decide))

lemma settles_applyPlus {operator : Token} (hkind : operator.kind = .plus) (v w : Value) :
    Settles operator (RejectsTwo operator v w) (applyPlus operator v w) := by
  -- What is added is not rejected, since `+` is neither unknown nor one of the others.
  have hadds : (v.isNumber = true ∧ w.isNumber = true ∨ v.isString = true ∧ w.isString = true) →
      ∀ wording, ¬RejectsTwo operator v w wording := by
    intro hfits wording hrejects
    cases hrejects with
    | notNumbers hmem _ => rw [hkind] at hmem; revert hmem; decide
    | notAddable _ hnumbers hstrings => exact hfits.elim hnumbers hstrings
    | unknown hnot => rw [hkind] at hnot; exact hnot (by decide)
  unfold applyPlus
  split
  · exact hadds (.inl ⟨rfl, rfl⟩)
  · exact hadds (.inr ⟨rfl, rfl⟩)
  · next hnumbers hstrings =>
    refine ⟨rfl, .notAddable hkind ?_ ?_⟩
    · rintro ⟨hv, hw⟩
      obtain ⟨x, rfl⟩ := Value.isNumber_iff.mp hv
      obtain ⟨y, rfl⟩ := Value.isNumber_iff.mp hw
      exact hnumbers x y rfl rfl
    · rintro ⟨hv, hw⟩
      obtain ⟨s, rfl⟩ := Value.isString_iff.mp hv
      obtain ⟨t, rfl⟩ := Value.isString_iff.mp hw
      exact hstrings s t rfl rfl

/-- The operators that take two numbers and nothing else. -/
lemma arithmetic?_isSome_iff (k : Token.Kind) :
    (arithmetic? k).isSome = true ↔
      k ∈ [.minus, .star, .slash, .greater, .greaterEqual, .less, .lessEqual] := by
  cases k <;> decide

/-- Besides these, only equality, its opposite and `+` are binary operators. -/
lemma mem_binaryOperators_iff (k : Token.Kind) :
    k ∈ Token.Kind.binaryOperators ↔
      k = .equalEqual ∨ k = .bangEqual ∨ k = .plus ∨ (arithmetic? k).isSome = true := by
  cases k <;> decide

lemma settles_applyArithmetic {operator : Token} (hequal : operator.kind ≠ .equalEqual)
    (hdiffer : operator.kind ≠ .bangEqual) (hplus : operator.kind ≠ .plus) (v w : Value) :
    Settles operator (RejectsTwo operator v w) (applyArithmetic operator v w) := by
  unfold applyArithmetic
  split
  · next hnone =>
    refine ⟨rfl, .unknown ?_⟩
    rw [mem_binaryOperators_iff, hnone]
    simp [hequal, hdiffer, hplus]
  · next f hf =>
    have hsome : (arithmetic? operator.kind).isSome = true := by rw [hf]; rfl
    split
    · intro wording hrejects
      cases hrejects with
      | notNumbers _ hnumbers => exact hnumbers ⟨rfl, rfl⟩
      | notAddable hkind _ _ => exact hplus hkind
      | unknown hnot => exact hnot ((mem_binaryOperators_iff _).mpr (.inr (.inr (.inr hsome))))
    · next hnumbers =>
      refine ⟨rfl, .notNumbers ((arithmetic?_isSome_iff _).mp hsome) ?_⟩
      rintro ⟨hv, hw⟩
      obtain ⟨x, rfl⟩ := Value.isNumber_iff.mp hv
      obtain ⟨y, rfl⟩ := Value.isNumber_iff.mp hw
      exact hnumbers x y rfl rfl

theorem settles_applyBinary (operator : Token) (v w : Value) :
    Settles operator (RejectsTwo operator v w) (applyBinary operator v w) := by
  unfold applyBinary
  split
  · next hkind => exact fun wording hrejects => hrejects.kind_ne.1 hkind
  · next hkind => exact fun wording hrejects => hrejects.kind_ne.2 hkind
  · next hkind => exact settles_applyPlus hkind v w
  · next hequal hdiffer hplus => exact settles_applyArithmetic hequal hdiffer hplus v w

/-! ## The first failure -/

variable {limit : Limit}

lemma NoneFails.append {nodes others : List Expr} (h : NoneFails limit nodes)
    (hothers : NoneFails limit others) : NoneFails limit (nodes ++ others) := by
  intro node hnode
  rcases List.mem_append.mp hnode with hnode | hnode
  · exact h node hnode
  · exact hothers node hnode

/-- What comes after the first failure does not matter. -/
lemma FirstFails.append {nodes : List Expr} {operator : Token} {wording : Wording}
    (h : FirstFails limit nodes operator wording) (others : List Expr) :
    FirstFails limit (nodes ++ others) operator wording := by
  obtain ⟨before, node, after, rfl, hnone, hfails⟩ := h
  exact ⟨before, node, after ++ others, by simp, hnone, hfails⟩

/-- Nodes that do not fail may come before the first failure. -/
lemma FirstFails.prepend {nodes others : List Expr} {operator : Token} {wording : Wording}
    (h : FirstFails limit nodes operator wording) (hothers : NoneFails limit others) :
    FirstFails limit (others ++ nodes) operator wording := by
  obtain ⟨before, node, after, rfl, hnone, hfails⟩ := h
  exact ⟨others ++ before, node, after, by simp, hothers.append hnone, hfails⟩

/-- The nodes of an expression explain how its evaluation ends: with a value if none of them fails,
with an error if it is that of the first failure. -/
def Explains (limit : Limit) (nodes : List Expr) : Except Failure Value → Prop
  | .ok _ => NoneFails limit nodes
  | .error (.error err) => FirstFails limit nodes err.token (err.cause.wording err.token)
  | .error .tooDeep => True

/-- A failure that is explained already hides what comes after. -/
lemma Explains.append_of_error {nodes : List Expr} {failure : Failure}
    (h : Explains limit nodes (.error failure)) (others : List Expr) :
    Explains limit (nodes ++ others) (.error failure) := by
  cases failure with
  | error err => exact FirstFails.append h others
  | tooDeep => trivial

/-- What has a value does not explain a failure after it. -/
lemma Explains.prepend_of_error {nodes others : List Expr} {failure : Failure}
    (h : Explains limit nodes (.error failure)) (hothers : NoneFails limit others) :
    Explains limit (others ++ nodes) (.error failure) := by
  cases failure with
  | error err => exact FirstFails.prepend h hothers
  | tooDeep => trivial

/-- An operator whose operands have values is explained by its operands, in which nothing fails, and
itself. -/
lemma explains_node {depth : Nat} {node : Expr} {operands : List Expr} {operator : Token}
    {rejects : Wording → Prop} {result : Except RuntimeError Value}
    (hoperands : NoneFails limit operands) (hsettles : Settles operator rejects result)
    (hnode : ∀ operator' wording,
      FailsLocally limit node operator' wording ↔ operator' = operator ∧ rejects wording) :
    Explains limit (operands ++ [node]) (conclude limit depth result) := by
  cases result with
  | ok u =>
    refine NoneFails.append hoperands ?_
    intro other hother operator' wording hfails
    rw [List.mem_singleton.mp hother, hnode] at hfails
    exact hsettles wording hfails.2
  | error err =>
    obtain ⟨rfl, hrejects⟩ := hsettles
    simp only [conclude]
    split
    · exact ⟨operands, node, [], rfl, hoperands, (hnode _ _).mpr ⟨rfl, hrejects⟩⟩
    · trivial

lemma failsLocally_unary {operator operator' : Token} {operand : Expr} {v : Value}
    {wording : Wording} (hoperand : operand.eval limit = .ok v) :
    FailsLocally limit (.unary operator operand) operator' wording ↔
      operator' = operator ∧ RejectsOne operator v wording := by
  constructor
  · intro h
    cases h with
    | unary hvalue hrejects =>
      cases hoperand.symm.trans hvalue
      exact ⟨rfl, hrejects⟩
  · rintro ⟨rfl, hrejects⟩
    exact .unary hoperand hrejects

lemma failsLocally_binary {left right : Expr} {operator operator' : Token} {v w : Value}
    {wording : Wording} (hleft : left.eval limit = .ok v) (hright : right.eval limit = .ok w) :
    FailsLocally limit (.binary left operator right) operator' wording ↔
      operator' = operator ∧ RejectsTwo operator v w wording := by
  constructor
  · intro h
    cases h with
    | binary hv hw hrejects =>
      cases hleft.symm.trans hv
      cases hright.symm.trans hw
      exact ⟨rfl, hrejects⟩
  · rintro ⟨rfl, hrejects⟩
    exact .binary hleft hright hrejects

lemma noneFails_literal (v : Value) : NoneFails limit [.literal v] := by
  intro node hnode operator wording hfails
  rw [List.mem_singleton.mp hnode] at hfails
  cases hfails

lemma noneFails_group (inner : Expr) : NoneFails limit [.group inner] := by
  intro node hnode operator wording hfails
  rw [List.mem_singleton.mp hnode] at hfails
  cases hfails

/-- However deep an expression stands, its nodes explain how its evaluation ends. -/
theorem explains_evalAt (limit : Limit) (depth : Nat) (e : Expr) :
    Explains limit e.postorder (evalAt limit depth e) := by
  by_cases hallows : limit.allows (3 * depth) = true
  case neg => rw [evalAt_of_not_allows hallows]; trivial
  cases e with
  | literal v =>
    rw [evalAt_literal hallows]
    exact noneFails_literal v
  | group inner =>
    have hinner := explains_evalAt limit (depth + 1) inner
    rw [evalAt_group hallows, postorder]
    cases hvalue : evalAt limit (depth + 1) inner with
    | ok v =>
      rw [hvalue] at hinner
      exact NoneFails.append hinner (noneFails_group inner)
    | error failure =>
      rw [hvalue] at hinner
      exact hinner.append_of_error _
  | unary operator operand =>
    have hoperand := explains_evalAt limit (depth + 1) operand
    rw [evalAt_unary hallows, postorder]
    cases hvalue : evalAt limit (depth + 1) operand with
    | ok v =>
      rw [hvalue] at hoperand
      exact explains_node hoperand (settles_applyUnary operator v)
        fun _ _ => failsLocally_unary (eval_of_evalAt hvalue)
    | error failure =>
      rw [hvalue] at hoperand
      exact hoperand.append_of_error _
  | binary left operator right =>
    have hleft := explains_evalAt limit (depth + 1) left
    have hright := explains_evalAt limit (depth + 1) right
    rw [evalAt_binary hallows, postorder]
    cases hv : evalAt limit (depth + 1) left with
    | error failure =>
      -- The right operand is not even evaluated.
      rw [hv] at hleft
      exact (hleft.append_of_error _).append_of_error _
    | ok v =>
      rw [hv] at hleft
      cases hw : evalAt limit (depth + 1) right with
      | error failure =>
        rw [hw] at hright
        exact (hright.prepend_of_error hleft).append_of_error _
      | ok w =>
        rw [hw] at hright
        exact explains_node (NoneFails.append hleft hright) (settles_applyBinary operator v w)
          fun _ _ => failsLocally_binary (eval_of_evalAt hv) (eval_of_evalAt hw)

/-- An evaluation that does not nest too deeply fails exactly if some node fails locally, and then
its error is that of the first such node, with the operator of that node and its line. -/
theorem eval_fails_at_first {limit : Limit} {e : Expr} (h : e.eval limit ≠ .error .tooDeep) :
    ((∃ err, e.eval limit = .error (.error err)) ↔
      ∃ node ∈ e.postorder, ∃ operator wording, FailsLocally limit node operator wording) ∧
    ∀ err, e.eval limit = .error (.error err) →
      ∃ wording, FirstFails limit e.postorder err.token wording ∧
        err.diagnostic = { wording with line := err.token.line, phase := .runtime } := by
  have hexplains : Explains limit e.postorder (e.eval limit) := explains_evalAt limit 1 e
  cases hresult : e.eval limit with
  | ok v =>
    rw [hresult] at hexplains
    refine ⟨⟨?_, ?_⟩, ?_⟩
    · rintro ⟨err, herr⟩
      cases herr
    · rintro ⟨node, hnode, operator, wording, hfails⟩
      exact absurd hfails (hexplains node hnode operator wording)
    · intro err herr
      cases herr
  | error failure =>
    cases failure with
    | tooDeep => exact absurd hresult h
    | error err =>
      rw [hresult] at hexplains
      constructor
      · obtain ⟨before, node, after, hnodes, -, hfails⟩ := hexplains
        exact ⟨fun _ => ⟨node, by simp [hnodes], _, _, hfails⟩, fun _ => ⟨err, rfl⟩⟩
      · intro err' herr
        cases herr
        exact ⟨_, hexplains, rfl⟩

/-- The tree of `(nil == -"a") + (nil * 1)` without its first group, one operator on each line. -/
def threeFaults : Expr :=
  .binary
    (.binary (.literal .nil) ⟨.equalEqual, "==", none, 1⟩
      (.unary ⟨.minus, "-", none, 2⟩ (.literal (.string "a"))))
    ⟨.plus, "+", none, 3⟩
    (.group (.binary (.literal .nil) ⟨.star, "*", none, 4⟩ (.literal (.number 1))))

/-- The prefix operator comes first, though `+` is at the top and `*` fails as well. -/
theorem eval_fails_at_first_negation :
    threeFaults.eval .standard ≠ .error .tooDeep ∧
      (∃ node ∈ threeFaults.postorder, ∃ operator wording,
        FailsLocally .standard node operator wording) ∧
      ∃ wording : Wording, wording.code = some "R001" ∧
        FirstFails .standard threeFaults.postorder ⟨.minus, "-", none, 2⟩ wording := by
  have heval : threeFaults.eval .standard =
      .error (.error ⟨.numberOperand, ⟨.minus, "-", none, 2⟩⟩) := rfl
  have hdeep : threeFaults.eval .standard ≠ .error .tooDeep := by rw [heval]; nofun
  obtain ⟨hfails, hfirst⟩ := eval_fails_at_first hdeep
  obtain ⟨wording, hat, hdiagnostic⟩ := hfirst _ heval
  refine ⟨hdeep, hfails.mp ⟨_, heval⟩, wording, ?_, hat⟩
  exact (congrArg (·.toWording.code) hdiagnostic).symm

end Expr
end LoxCalc
