import LoxCalc.Expr.Print
import LoxCalc.Proofs.Evaluation
import LoxCalc.Proofs.ParseGrammar

/-!
# Writing an expression out and reading it back

An expression is written out with parentheses around every operator (`Expr.unparse`). Read back, it
has a group wherever parentheses were written (`Expr.regroup`), which changes neither its structure
without groups nor its value or error.
-/

namespace LoxCalc
namespace Expr

open Grammar

/-! ## Expressions as tokens -/

/-- The token that a literal is written as. -/
def literalToken (line : Int) (v : Value) : Token :=
  match v with
  | .nil => ⟨.kwNil, literalText v, none, line⟩
  | .bool true => ⟨.kwTrue, literalText v, none, line⟩
  | .bool false => ⟨.kwFalse, literalText v, none, line⟩
  | .number x => ⟨.number, literalText v, some (.number x), line⟩
  | .string s => ⟨.string, literalText v, some (.text s), line⟩

/-- Tokens in parentheses. -/
def parenthesized (line : Int) (us : List Token) : List Token :=
  ⟨.leftParen, "(", none, line⟩ :: us ++ [⟨.rightParen, ")", none, line⟩]

/-- An expression as tokens, with parentheses around every group and around every operator with its
operands. What is not an operator stands on the given line. -/
def unparse (line : Int) : Expr → List Token
  | .literal v => [literalToken line v]
  | .group inner => parenthesized line (inner.unparse line)
  | .unary operator operand => parenthesized line (operator :: operand.unparse line)
  | .binary left operator right =>
    parenthesized line (left.unparse line ++ operator :: right.unparse line)

/-- The operators of an expression are those of the grammar. -/
def Conforms : Expr → Prop
  | .literal _ => True
  | .group inner => inner.Conforms
  | .unary operator operand =>
    (operator.kind = .bang ∨ operator.kind = .minus) ∧ operand.Conforms
  | .binary left operator right =>
    operator.kind ∈ Token.Kind.binaryOperators ∧ left.Conforms ∧ right.Conforms

/-- An expression without its groups. -/
def erase : Expr → Expr
  | .literal v => .literal v
  | .group inner => inner.erase
  | .unary operator operand => .unary operator operand.erase
  | .binary left operator right => .binary left.erase operator right.erase

/-- An expression with a further group around every operator. -/
def regroup : Expr → Expr
  | .literal v => .literal v
  | .group inner => .group inner.regroup
  | .unary operator operand => .group (.unary operator operand.regroup)
  | .binary left operator right => .group (.binary left.regroup operator right.regroup)

/-- Groups around operators are not part of the structure. -/
theorem erase_regroup (e : Expr) : e.regroup.erase = e.erase := by
  induction e with
  | literal v => rfl
  | group inner ih => exact ih
  | unary operator operand ih => rw [regroup, erase, erase, erase, ih]
  | binary left operator right ihleft ihright => rw [regroup, erase, erase, erase, ihleft, ihright]

/-! ## What is written derives -/

lemma derives_literalToken (line : Int) (v : Value) :
    Derives .primary [literalToken line v] (.literal v) := by
  cases v with
  | nil => exact .nil rfl
  | bool b =>
    cases b with
    | false => exact .no rfl
    | true => exact .yes rfl
  | number x => exact .carried (.inl rfl)
  | string s => exact .carried (.inr rfl)

lemma derives_parenthesized (line : Int) {us : List Token} {e : Expr}
    (h : Derives .equality us e) : Derives .primary (parenthesized line us) (.group e) :=
  .group rfl h rfl

/-- What an expression is written as derives the expression with its further groups. -/
theorem derives_unparse (line : Int) {e : Expr} (h : e.Conforms) :
    Derives .primary (e.unparse line) e.regroup := by
  induction e with
  | literal v => exact derives_literalToken line v
  | group inner ih => exact derives_parenthesized line ((ih h).loosen (by decide))
  | unary operator operand ih =>
    have hunary :
        Derives .unary (operator :: operand.unparse line) (.unary operator operand.regroup) :=
      .prefixed h.1 ((ih h.2).loosen (by decide))
    exact derives_parenthesized line (hunary.loosen (by decide))
  | binary left operator right ihleft ihright =>
    obtain ⟨hkind, hleft, hright⟩ := h
    -- The operator belongs to some rule, and primary phrases are phrases of that rule.
    obtain ⟨level, hlevel⟩ : ∃ level, operator.kind.level? = some level := by
      rw [← Option.isSome_iff_exists, Option.isSome_iff_ne_none]
      intro hnone
      exact (level?_eq_none_iff _).mp hnone hkind
    obtain ⟨rule, -, hmem⟩ := Rule.exists_mem_operators hlevel
    have hchain : Derives rule (left.unparse line ++ operator :: right.unparse line)
        (.binary left.regroup operator right.regroup) :=
      .chain ((ihleft hleft).loosen rule.rank_le) hmem
        ((ihright hright).loosen rule.tighter.rank_le)
    exact derives_parenthesized line (hchain.loosen rule.rank_pos)

/-! ## Groups are transparent to evaluation -/

/-- The further groups change neither value nor error, even at a deeper place, unless it becomes too
deep there. -/
theorem evalAt_regroup {limit : Limit} {depth shallower : Nat} {e : Expr} (hle : shallower ≤ depth)
    (h : evalAt limit depth e.regroup ≠ .error .tooDeep) :
    evalAt limit shallower e = evalAt limit depth e.regroup := by
  -- The group around an operator puts it one level deeper than before.
  have hroom : ∀ n, limit.allows (3 * (depth + 1) + n) = true →
      limit.allows (3 * shallower + n) = true :=
    fun n hn => Limit.allows_mono (by omega) hn
  have hdeeper := allows_of_evalAt_ne_tooDeep (Nat.le_refl depth) h
  have hallows := allows_of_evalAt_ne_tooDeep hle h
  cases e with
  | literal v => rw [regroup, evalAt_literal hdeeper, evalAt_literal hallows]
  | group inner =>
    rw [regroup, evalAt_group hdeeper] at h ⊢
    rw [evalAt_group hallows]
    exact evalAt_regroup (by omega) h
  | unary operator operand =>
    rw [regroup, evalAt_group hdeeper] at h ⊢
    have hinner := allows_of_evalAt_ne_tooDeep (Nat.le_refl (depth + 1)) h
    rw [evalAt_unary hinner] at h ⊢
    rw [evalAt_unary hallows]
    exact bind_of_room (evalAt_regroup (by omega)) (fun v => conclude_of_room hroom) h
  | binary left operator right =>
    rw [regroup, evalAt_group hdeeper] at h ⊢
    have hinner := allows_of_evalAt_ne_tooDeep (Nat.le_refl (depth + 1)) h
    rw [evalAt_binary hinner] at h ⊢
    rw [evalAt_binary hallows]
    -- An error on the left hides the right operand, so only a value there bounds its depth.
    exact bind_of_room (evalAt_regroup (by omega))
      (fun v => bind_of_room (evalAt_regroup (by omega)) fun w => conclude_of_room hroom) h

/-! ## Reading back -/

/-- An expression that is written out and read back nests too deeply only if there are no frames for
it. Else it is read to the end, with the same structure, and evaluation gives the same value or the
same error at the same operator, unless that nests too deeply. -/
theorem parse_unparse (limit : Limit) (line last : Int) (e : Expr) (he : e.Conforms) :
    (limit.allows e.regroup.readingFrames = true →
      (parse limit (e.unparse line ++ [.endOfInput last])).isTooDeep = false) ∧
    ((parse limit (e.unparse line ++ [.endOfInput last])).isTooDeep = false →
      parse limit (e.unparse line ++ [.endOfInput last]) = .tree e.regroup [.endOfInput last] ∧
      e.regroup.erase = e.erase ∧
      ∀ limit' : Limit, e.regroup.eval limit' ≠ .error .tooDeep →
        e.regroup.eval limit' = e.eval limit') := by
  have hderives : Derives .equality (e.unparse line) e.regroup :=
    (derives_unparse line he).loosen (by decide)
  have hlevel : (Token.endOfInput last).kind.level? = none := rfl
  constructor
  · intro hallows
    rw [parse_of_derives limit hderives hallows hlevel]
    rfl
  · intro hdeep
    refine ⟨parse_of_derives_of_not_tooDeep hderives hlevel hdeep, erase_regroup e, ?_⟩
    intro limit' heval
    exact (evalAt_regroup (Nat.le_refl 1) heval).symm

/-- The tree of `-("a" * (nil - nil))` if it had no groups: a binary operator under a prefix
operator, and a chain that leans to the right. -/
def ungrouped : Expr :=
  .unary ⟨.minus, "-", none, 1⟩
    (.binary (.literal (.string "a")) ⟨.star, "*", none, 2⟩
      (.binary (.literal .nil) ⟨.minus, "-", none, 3⟩ (.literal .nil)))

/-- Written out, read back and evaluated, the tree still fails at its innermost operator. -/
theorem parse_unparse_ungrouped :
    ungrouped.Conforms ∧
      (parse .standard (ungrouped.unparse 1 ++ [.endOfInput 4])).tree? = some ungrouped.regroup ∧
      ungrouped.regroup.erase = ungrouped ∧
      ungrouped.regroup.eval .standard = .error (.error ⟨.numberOperands, ⟨.minus, "-", none, 3⟩⟩) ∧
      ungrouped.eval .standard = .error (.error ⟨.numberOperands, ⟨.minus, "-", none, 3⟩⟩) := by
  have hconforms : ungrouped.Conforms :=
    ⟨.inr rfl, by decide, trivial, by decide, trivial, trivial⟩
  have heval : ungrouped.regroup.eval .standard =
      .error (.error ⟨.numberOperands, ⟨.minus, "-", none, 3⟩⟩) := by rfl
  obtain ⟨hfits, hread⟩ := parse_unparse .standard 1 4 ungrouped hconforms
  obtain ⟨hparse, herase, hsame⟩ := hread (hfits rfl)
  refine ⟨hconforms, ?_, herase, heval, ?_⟩
  · rw [hparse]
    rfl
  · rw [← hsame .standard (by rw [heval]; nofun), heval]

end Expr
end LoxCalc
