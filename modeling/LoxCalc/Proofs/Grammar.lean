import LoxCalc.Expr.Parse
import Mathlib.Tactic.Common

/-!
# The grammar of expressions

The grammar as a relation between token lists and trees, one rule above the other:

    equality   → comparison (("!=" | "==") comparison)*
    comparison → term ((">" | ">=" | "<" | "<=") term)*
    term       → factor (("-" | "+") factor)*
    factor     → unary (("/" | "*") unary)*
    unary      → ("!" | "-") unary | primary
    primary    → NUMBER | STRING | "true" | "false" | "nil" | "(" equality ")"

Nothing here mentions how a token list is read. The rules are numbered by `Rule.rank`, and
`Rule.mem_operators_iff` ties the numbers to the levels that the reader compares.
-/

namespace LoxCalc

/-- The kinds that stand between two operands. -/
def Token.Kind.binaryOperators : List Token.Kind :=
  [.equalEqual, .bangEqual, .greater, .greaterEqual, .less, .lessEqual, .minus, .plus, .slash,
   .star]

namespace Grammar

/-- The rules of the grammar, the loosest first. -/
inductive Rule where
  | equality | comparison | term | factor | unary | primary

namespace Rule

/-- The place of a rule in the grammar. -/
def rank : Rule → Nat
  | .equality => 1
  | .comparison => 2
  | .term => 3
  | .factor => 4
  | .unary => 5
  | .primary => 6

/-- The rule whose phrases a rule chains; the tightest one has none below it. -/
def tighter : Rule → Rule
  | .equality => .comparison
  | .comparison => .term
  | .term => .factor
  | .factor => .unary
  | .unary | .primary => .primary

/-- The operators that chain the phrases of a rule. -/
def operators : Rule → List Token.Kind
  | .equality => [.bangEqual, .equalEqual]
  | .comparison => [.greater, .greaterEqual, .less, .lessEqual]
  | .term => [.minus, .plus]
  | .factor => [.slash, .star]
  | .unary | .primary => []

end Rule

/-- `Derives rule us e`: by the given rule, the tokens `us` are the expression `e`. -/
inductive Derives : Rule → List Token → Expr → Prop where
  /-- A chain of one phrase is that phrase. -/
  | single {rule : Rule} {us : List Token} {e : Expr} :
      Derives rule.tighter us e → Derives rule us e
  /-- A chain is continued at its right end. -/
  | chain {rule : Rule} {us vs : List Token} {left right : Expr} {operator : Token} :
      Derives rule us left → operator.kind ∈ rule.operators → Derives rule.tighter vs right →
      Derives rule (us ++ operator :: vs) (.binary left operator right)
  /-- A prefix operator stands before a unary phrase. -/
  | prefixed {us : List Token} {e : Expr} {operator : Token} :
      operator.kind = .bang ∨ operator.kind = .minus → Derives .unary us e →
      Derives .unary (operator :: us) (.unary operator e)
  /-- A number or a string is what its token carries. -/
  | carried {t : Token} :
      t.kind = .number ∨ t.kind = .string → Derives .primary [t] (.literal t.value)
  | yes {t : Token} : t.kind = .kwTrue → Derives .primary [t] (.literal (.bool true))
  | no {t : Token} : t.kind = .kwFalse → Derives .primary [t] (.literal (.bool false))
  | nil {t : Token} : t.kind = .kwNil → Derives .primary [t] (.literal .nil)
  /-- Parentheses make a primary phrase of any expression. -/
  | group {us : List Token} {e : Expr} {opening closing : Token} :
      opening.kind = .leftParen → Derives .equality us e → closing.kind = .rightParen →
      Derives .primary (opening :: us ++ [closing]) (.group e)

/-! ## Ranks -/

namespace Rule

lemma rank_pos (rule : Rule) : 1 ≤ rule.rank := by
  cases rule <;> decide

lemma rank_le (rule : Rule) : rule.rank ≤ 6 := by
  cases rule <;> decide

lemma rank_injective {a b : Rule} (h : a.rank = b.rank) : a = b := by
  cases a <;> cases b <;> first | rfl | exact absurd h (by decide)

/-- One rule is one place tighter than the other, until there is no tighter one. -/
lemma rank_tighter {rule : Rule} (h : rule.rank ≤ 5) : rule.tighter.rank = rule.rank + 1 := by
  cases rule
  case primary => exact absurd h (by decide)
  all_goals rfl

/-- The operators of a rule are the kinds whose level is its rank. -/
lemma mem_operators_iff (rule : Rule) (k : Token.Kind) :
    k ∈ rule.operators ↔ k.level? = some rule.rank := by
  cases rule <;> cases k <;> decide

/-- Only the first four rules have operators. -/
lemma rank_le_of_mem_operators {rule : Rule} {k : Token.Kind} (h : k ∈ rule.operators) :
    rule.rank ≤ 4 := by
  cases rule
  case unary => exact absurd h (List.not_mem_nil)
  case primary => exact absurd h (List.not_mem_nil)
  all_goals decide

/-- Every level is the rank of a rule. -/
lemma exists_mem_operators {k : Token.Kind} {level : Nat} (h : k.level? = some level) :
    ∃ rule : Rule, rule.rank = level ∧ k ∈ rule.operators := by
  have hrule : ∃ rule : Rule, rule.rank = level := by
    cases k <;> simp only [Token.Kind.level?, Option.some.injEq, reduceCtorEq] at h <;> subst h
    case bangEqual | equalEqual => exact ⟨.equality, rfl⟩
    case greater | greaterEqual | less | lessEqual => exact ⟨.comparison, rfl⟩
    case minus | plus => exact ⟨.term, rfl⟩
    case slash | star => exact ⟨.factor, rfl⟩
  obtain ⟨rule, rfl⟩ := hrule
  exact ⟨rule, rfl, (mem_operators_iff rule k).mpr h⟩

end Rule

/-- The binary operators are the kinds that have a level. -/
lemma level?_eq_none_iff (k : Token.Kind) :
    k.level? = none ↔ k ∉ Token.Kind.binaryOperators := by
  cases k <;> decide

/-- A phrase of a rule is a phrase of every looser one. -/
lemma Derives.loosen {tight loose : Rule} {us : List Token} {e : Expr}
    (h : Derives tight us e) (hle : loose.rank ≤ tight.rank) : Derives loose us e := by
  -- Induction on how many rules lie between the two.
  generalize hgap : tight.rank - loose.rank = gap
  induction gap generalizing loose with
  | zero =>
    have heq : loose = tight := Rule.rank_injective (by omega)
    exact heq ▸ h
  | succ gap ih =>
    have htight := tight.rank_le
    have hnext : loose.tighter.rank = loose.rank + 1 := Rule.rank_tighter (by omega)
    exact .single (ih (by omega) (by omega))

end Grammar
end LoxCalc
