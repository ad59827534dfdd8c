import LoxCalc.Proofs.FirstFailure
import LoxCalc.Proofs.Lines
import LoxCalc.Proofs.Unparse

/-!
# What is read can be evaluated

Reading and evaluating have a table of operators each. The operators of an expression that is read
are among the tokens taken, in their order (`Derives.operators_sublist`), and they are operators of
the grammar (`Derives.conforms`). An operator of the grammar that fails does so because of its
operands, never because evaluation does not know it (`FailsLocally.blames_of_conforms`). So the
error of an expression that is read stands at one of the tokens taken and, where these come from a
source, on the line that this token begins on.
-/

namespace LoxCalc

namespace Expr

/-- The operators of an expression, in the order in which they are written. -/
def operators : Expr → List Token
  | .literal _ => []
  | .group inner => inner.operators
  | .unary operator operand => operator :: operand.operators
  | .binary left operator right => left.operators ++ operator :: right.operators

lemma mem_operators_of_outermostOperator? {e : Expr} {operator : Token}
    (h : e.outermostOperator? = some operator) : operator ∈ e.operators := by
  induction e with
  | literal v => cases h
  | group inner ih => exact ih h
  | unary operator' operand _ =>
    cases h
    exact List.mem_cons_self
  | binary left operator' right _ _ =>
    cases h
    exact List.mem_append_right _ List.mem_cons_self

end Expr

/-! ## What the grammar derives -/

namespace Grammar

lemma Derives.conforms {rule : Rule} {us : List Token} {e : Expr} (h : Derives rule us e) :
    e.Conforms := by
  induction h with
  | single _ ih => exact ih
  | @chain rule us vs left right operator _ hmem _ ihleft ihright =>
    have hlevel := (rule.mem_operators_iff _).mp hmem
    have hbinary : operator.kind ∈ Token.Kind.binaryOperators := by
      by_contra hnot
      rw [(level?_eq_none_iff _).mpr hnot] at hlevel
      cases hlevel
    exact ⟨hbinary, ihleft, ihright⟩
  | prefixed hkind _ ih => exact ⟨hkind, ih⟩
  | carried _ => trivial
  | yes _ => trivial
  | no _ => trivial
  | nil _ => trivial
  | group _ _ _ ih => exact ih

/-- The operators of a phrase are among its tokens, in the same order. -/
lemma Derives.operators_sublist {rule : Rule} {us : List Token} {e : Expr}
    (h : Derives rule us e) : e.operators.Sublist us := by
  induction h with
  | single _ ih => exact ih
  | chain _ _ _ ihleft ihright => exact ihleft.append (ihright.cons_cons _)
  | prefixed _ _ ih => exact ih.cons_cons _
  | carried _ => exact List.nil_sublist _
  | yes _ => exact List.nil_sublist _
  | no _ => exact List.nil_sublist _
  | nil _ => exact List.nil_sublist _
  | group _ _ _ ih => exact (ih.trans (List.sublist_append_left _ _)).cons _

end Grammar

/-! ## What evaluation rejects -/

namespace Expr

/-- What passes from a node to its operands holds of all nodes of an expression if it holds of the
expression. -/
lemma forall_mem_postorder {P : Expr → Prop} (hgroup : ∀ inner, P (.group inner) → P inner)
    (hunary : ∀ operator operand, P (.unary operator operand) → P operand)
    (hbinary : ∀ left operator right, P (.binary left operator right) → P left ∧ P right)
    {e : Expr} (he : P e) : ∀ node ∈ e.postorder, P node := by
  induction e with
  | literal v => simpa [postorder] using he
  | group inner ih =>
    rw [postorder, List.forall_mem_append]
    exact ⟨ih (hgroup inner he), by simpa using he⟩
  | unary operator operand ih =>
    rw [postorder, List.forall_mem_append]
    exact ⟨ih (hunary operator operand he), by simpa using he⟩
  | binary left operator right ihleft ihright =>
    obtain ⟨hleft, hright⟩ := hbinary left operator right he
    rw [postorder, List.forall_mem_append, List.forall_mem_append]
    exact ⟨⟨ihleft hleft, ihright hright⟩, by simpa using he⟩

lemma conforms_of_mem_postorder {e node : Expr} (he : e.Conforms) (h : node ∈ e.postorder) :
    node.Conforms :=
  forall_mem_postorder (P := Conforms) (fun _ hinner => hinner) (fun _ _ hunary => hunary.2)
    (fun _ _ _ hbinary => hbinary.2) he node h

lemma operators_subset_of_mem_postorder {e node : Expr} (h : node ∈ e.postorder) :
    node.operators ⊆ e.operators := by
  refine forall_mem_postorder (P := fun node => node.operators ⊆ e.operators)
    (fun _ hinner => hinner) (fun _ _ hunary => ?_) (fun _ _ _ hbinary => ?_)
    (List.Subset.refl _) node h
  · exact List.Subset.trans (List.subset_cons_self _ _) hunary
  · exact ⟨List.Subset.trans (List.subset_append_left _ _) hbinary,
      List.Subset.trans (List.subset_cons_self _ _)
        (List.Subset.trans (List.subset_append_right _ _) hbinary)⟩

variable {limit : Limit}

lemma FailsLocally.mem_operators {node : Expr} {operator : Token} {wording : Wording}
    (h : FailsLocally limit node operator wording) : operator ∈ node.operators := by
  cases h with
  | unary _ _ => exact List.mem_cons_self
  | binary _ _ _ => exact List.mem_append_right _ List.mem_cons_self

/-- The code of an error, and the kinds of operator it is raised at. -/
def Blames (code : Option String) (kind : Token.Kind) : Prop :=
  code = some "R001" ∧ kind = .minus ∨
    code = some "R002" ∧
      kind ∈ [.minus, .star, .slash, .greater, .greaterEqual, .less, .lessEqual] ∨
    code = some "R003" ∧ kind = .plus

lemma Blames.code_ne_none {code : Option String} {kind : Token.Kind} (h : Blames code kind) :
    code ≠ none := by
  rcases h with ⟨rfl, -⟩ | ⟨rfl, -⟩ | ⟨rfl, -⟩ <;> nofun

/-- What is blamed is a mark. -/
lemma Blames.kind_ne {code : Option String} {kind : Token.Kind} (h : Blames code kind) :
    kind ≠ .eof ∧ kind ≠ .string := by
  rcases h with ⟨-, rfl⟩ | ⟨-, hmem⟩ | ⟨-, rfl⟩
  · decide
  · constructor <;> (rintro rfl; revert hmem; decide)
  · decide

/-- An operator of the grammar rejects its operands, it is not unknown. -/
lemma FailsLocally.blames_of_conforms {node : Expr} {operator : Token} {wording : Wording}
    (h : FailsLocally limit node operator wording) (hnode : node.Conforms) :
    Blames wording.code operator.kind := by
  cases h with
  | unary _ hrejects =>
    cases hrejects with
    | notNumber hminus _ => exact .inl ⟨rfl, hminus⟩
    | unknown hbang hminus => exact absurd hnode.1 (not_or.mpr ⟨hbang, hminus⟩)
  | binary _ _ hrejects =>
    cases hrejects with
    | notNumbers hmem _ => exact .inr (.inl ⟨rfl, hmem⟩)
    | notAddable hplus _ _ => exact .inr (.inr ⟨rfl, hplus⟩)
    | unknown hnot => exact absurd hnode.1 hnot

/-- An expression with operators of the grammar fails at one of its operators, which rejects its
operands. -/
lemma blames_of_eval {e : Expr} {err : RuntimeError} (he : e.Conforms)
    (h : e.eval limit = .error (.error err)) :
    err.token ∈ e.operators ∧ Blames err.diagnostic.code err.token.kind := by
  have hexplains : Explains limit e.postorder (e.eval limit) := explains_evalAt limit 1 e
  rw [h] at hexplains
  obtain ⟨before, node, after, hnodes, -, hfails⟩ := hexplains
  have hnode : node ∈ e.postorder := by
    rw [hnodes]
    exact List.mem_append_right _ List.mem_cons_self
  exact ⟨operators_subset_of_mem_postorder hnode hfails.mem_operators,
    hfails.blames_of_conforms (conforms_of_mem_postorder he hnode)⟩

/-- The errors at operators that evaluation does not know have no code. -/
lemma cause_ne_unknown {err : RuntimeError} (h : err.diagnostic.code ≠ none) :
    err.cause ≠ .unknownUnary ∧ err.cause ≠ .unknownBinary := by
  obtain ⟨cause, token⟩ := err
  constructor
  · rintro rfl
    exact h rfl
  · rintro rfl
    exact h rfl

/-- Evaluation knows every operator of an expression that is read. If the evaluation does not nest
too deeply, it gives a value or fails with one of three errors, each at a token of the kinds that go
with it, and that token is one of those taken in reading. Where the tokens come from a source, the
error is reported on the line on which its token begins there. -/
theorem eval_parsed {limit limit' : Limit} {tokens rest : List Token} {e : Expr}
    (h : parse limit tokens = .tree e rest) (hdeep : e.eval limit' ≠ .error .tooDeep) :
    (∃ v, e.eval limit' = .ok v) ∨
      ∃ err : RuntimeError, e.eval limit' = .error (.error err) ∧
        err.cause ≠ .unknownUnary ∧ err.cause ≠ .unknownBinary ∧
        Blames err.diagnostic.code err.token.kind ∧
        ∃ i < (parse limit tokens).taken tokens, tokens[i]? = some err.token ∧
          ∀ source, tokens = (Scan.ofText source).tokens →
            ∃ before, Scan.StandsAfter source before i err.token ∧
              err.diagnostic.line = 1 + before.count '\n' := by
  obtain ⟨us, t, rest', rfl, rfl, hderives, -⟩ := derives_of_parse h
  cases hresult : e.eval limit' with
  | ok v => exact .inl ⟨v, rfl⟩
  | error failure =>
    cases failure with
    | tooDeep => exact absurd hresult hdeep
    | error err =>
      obtain ⟨hmem, hblames⟩ := blames_of_eval hderives.conforms hresult
      obtain ⟨hunary, hbinary⟩ := cause_ne_unknown hblames.code_ne_none
      obtain ⟨hend, hstring⟩ := hblames.kind_ne
      obtain ⟨i, hi, hget⟩ := List.getElem_of_mem (hderives.operators_sublist.mem hmem)
      have htoken : (us ++ t :: rest')[i]? = some err.token := by
        rw [List.getElem?_append_left hi, List.getElem?_eq_getElem hi, hget]
      refine .inr ⟨err, rfl, hunary, hbinary, hblames, i, ?_, htoken, ?_⟩
      · rw [h]
        simpa [Reading.taken, Reading.rest] using hi
      · intro source hsource
        rw [hsource] at htoken
        obtain ⟨before, hstands, hline⟩ := Scan.exists_standsAfter htoken hend
        rw [hstands.count_lexeme hstring] at hline
        exact ⟨before, hstands, hline⟩

/-- The source of a sum whose right operand is negated on the third line, below a string of two
lines. -/
def negatedSummand : String := "\"a\nb\" +\n-nil"

/-- The negation is blamed, on the third line. -/
theorem eval_parsed_negatedSummand :
    ∃ e rest,
      parse .standard (Scan.ofText negatedSummand).tokens = .tree e rest ∧
      e.eval .standard ≠ .error .tooDeep ∧
      e.eval .standard = .error (.error ⟨.numberOperand, ⟨.minus, "-", none, 3⟩⟩) ∧
      ∃ i before, Scan.StandsAfter negatedSummand before i ⟨.minus, "-", none, 3⟩ ∧
        before.count '\n' = 2 := by
  have htokens : (Scan.ofText negatedSummand).tokens =
      [⟨.string, "\"a\nb\"", some (.text "a\nb"), 2⟩, ⟨.plus, "+", none, 2⟩,
        ⟨.minus, "-", none, 3⟩, ⟨.kwNil, "nil", none, 3⟩, .endOfInput 3] := by cbv
  have hparse : parse .standard (Scan.ofText negatedSummand).tokens =
      .tree (.binary (.literal (.string "a\nb")) ⟨.plus, "+", none, 2⟩
        (.unary ⟨.minus, "-", none, 3⟩ (.literal .nil))) [.endOfInput 3] := by
    rw [htokens]
    rfl
  have heval : (binary (.literal (.string "a\nb")) ⟨.plus, "+", none, 2⟩
      (.unary ⟨.minus, "-", none, 3⟩ (.literal .nil))).eval .standard =
        .error (.error ⟨.numberOperand, ⟨.minus, "-", none, 3⟩⟩) := rfl
  have hdeep : (binary (.literal (.string "a\nb")) ⟨.plus, "+", none, 2⟩
      (.unary ⟨.minus, "-", none, 3⟩ (.literal .nil))).eval .standard ≠ .error .tooDeep := by
    rw [heval]
    simp
  refine ⟨_, _, hparse, hdeep, heval, ?_⟩
  rcases eval_parsed hparse hdeep with ⟨v, hvalue⟩ | ⟨err, herr, -, -, -, i, -, -, hplace⟩
  · cases hvalue
  · cases herr
    obtain ⟨before, hstands, hline⟩ := hplace negatedSummand rfl
    change (3 : Int) = 1 + before.count '\n' at hline
    exact ⟨i, before, hstands, by omega⟩

end Expr
end LoxCalc
