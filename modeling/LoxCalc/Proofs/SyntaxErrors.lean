import LoxCalc.Proofs.Observers
import LoxCalc.Proofs.ParseGrammar

/-!
# Where syntax errors stand

A syntax error stands at the first token with which the tokens so far cannot begin an expression.
Before that token the reader can still be led to an end: an operand, if one is due, and a closing
parenthesis for each open one (`Reader.exists_completion`), which takes no more frames than are in
use already. The token itself is refused by what was read before it, so nothing that follows can
change the error. Which of the two errors it is depends on the operand: where one is due, no closing
parenthesis helps (`Reader.not_closesUp`), and after one, closing parentheses are all that is
missing (`Reader.closesUp_of_operand`).
-/

namespace LoxCalc

open Grammar

/-- Tokens that become an expression when closing parentheses, one or more, are added to them. -/
def Grammar.ClosesUp (us : List Token) : Prop :=
  ∃ closing : List Token, closing ≠ [] ∧ (∀ t ∈ closing, t.kind = .rightParen) ∧
    ∃ e, Derives .equality (us ++ closing) e

namespace Reader

/-! ## Runs that fail -/

/-- A run that fails, but not because of nesting, has taken all tokens before the one at fault and
refuses that one. -/
theorem run_eq_error {limit : Limit} {r : Reader} {tokens rest : List Token} {err : SyntaxError}
    (h : run limit r tokens = .error err rest) (hdeep : err.cause ≠ .tooDeep) :
    ∃ us after peak r', tokens = us ++ err.token :: after ∧ rest = err.token :: after ∧
      Reads r us peak r' ∧ limit.allows peak = true ∧ r'.step err.token = .refuse err.cause := by
  induction tokens generalizing r with
  | nil => cases h
  | cons t tokens ih =>
    cases hstep : r.step t with
    | finish e =>
      rw [run_finish hstep] at h
      cases h
    | refuse cause =>
      rw [run_refuse hstep] at h
      cases h
      exact ⟨[], tokens, 0, r, rfl, rfl, .done, limit.allows_zero, hstep⟩
    | take next =>
      have htake := (step_eq_take_iff _ _ _).mp hstep
      by_cases hallows : limit.allows next.frames = true
      · rw [run_take htake hallows] at h
        obtain ⟨us, after, peak, r', htokens, hrest, hreads, hpeak, hrefuse⟩ := ih h
        refine ⟨t :: us, after, max next.frames peak, r', ?_, hrest, .next htake hreads, ?_,
          hrefuse⟩
        · rw [htokens, List.cons_append]
        · exact (limit.allows_max _ _).mpr ⟨hallows, hpeak⟩
      · cases tokens with
        | nil =>
          rw [run_take_last htake] at h
          cases h
        | cons found tokens =>
          rw [run_take_tooDeep htake hallows] at h
          cases h
          exact absurd rfl hdeep

/-- The frames in use after a stretch were in use before it or are counted in its peak. -/
lemma Reads.frames_le {r r' : Reader} {us : List Token} {peak : Nat} (h : Reads r us peak r') :
    r'.frames ≤ max r.frames peak := by
  induction h with
  | done => omega
  | next _ _ ih => omega

lemma Reads.reflects {r r' : Reader} {us vs : List Token} {peak : Nat} (h : Reads r vs peak r')
    (hr : Reflects r us) : Reflects r' (us ++ vs) := by
  induction h generalizing us with
  | done => rwa [List.append_nil]
  | next htake _ ih =>
    have hnext := ih (htake.reflects hr)
    rwa [List.append_assoc, List.singleton_append] at hnext

/-! ## Leading a reader to an end -/

/-- A closing parenthesis. -/
def closingParen : Token := ⟨.rightParen, ")", none, 1⟩

/-- An operand of one token. -/
def nilOperand : Token := ⟨.kwNil, "nil", none, 1⟩

/-- Closing a parenthesis leaves no more frames in use. -/
lemma frames_closing_le (waiting before : List Pending) (outer : List (List Pending))
    (operand held : Option Expr) :
    frames ⟨before, outer, operand⟩ ≤ frames ⟨waiting, before :: outer, held⟩ := by
  simp only [frames, List.flatten_cons, List.length_cons, List.countP_append]
  omega

/-- After an operand, one closing parenthesis for each open one leads out of all of them. -/
lemma exists_reads_closing (waiting : List Pending) (outer : List (List Pending)) (held : Expr) :
    ∃ peak waiting' held',
      Reads ⟨waiting, outer, some held⟩ (List.replicate outer.length closingParen) peak
        ⟨waiting', [], some held'⟩ ∧
      peak ≤ frames ⟨waiting, outer, some held⟩ := by
  induction outer generalizing waiting held with
  | nil => exact ⟨0, waiting, held, .done, Nat.zero_le _⟩
  | cons before outer ih =>
    have hclose : Takes ⟨waiting, before :: outer, some held⟩ closingParen _ := .closing rfl
    obtain ⟨peak, waiting', held', hreads, hpeak⟩ :=
      ih before (.group (Pending.applyAll waiting held))
    refine ⟨_, waiting', held', .next hclose hreads, ?_⟩
    have hframes := frames_closing_le waiting before outer
      (some (.group (Pending.applyAll waiting held))) (some held)
    omega

/-- Every reader can be led to the end of an expression without further frames. -/
theorem exists_completion (r : Reader) :
    ∃ us peak waiting held,
      Reads r us peak ⟨waiting, [], some held⟩ ∧ peak ≤ r.frames := by
  obtain ⟨waiting, outer, operand⟩ := r
  cases operand with
  | some held =>
    obtain ⟨peak, waiting', held', hreads, hpeak⟩ := exists_reads_closing waiting outer held
    exact ⟨_, peak, waiting', held', hreads, hpeak⟩
  | none =>
    -- An operand is due: it comes first, and takes no frames.
    have htake : Takes ⟨waiting, outer, none⟩ nilOperand _ := .literal rfl
    obtain ⟨peak, waiting', held', hreads, hpeak⟩ :=
      exists_reads_closing waiting outer (.literal .nil)
    refine ⟨_, _, waiting', held', .next htake hreads, ?_⟩
    rw [frames_operand] at hpeak ⊢
    omega

/-! ## What is missing -/

/-- After an operand inside parentheses, closing them makes an expression of the tokens so far. -/
lemma closesUp_of_operand {r : Reader} {us : List Token} {held : Expr} (hr : Reflects r us)
    (hheld : r.operand = some held) (houter : r.outer ≠ []) : ClosesUp us := by
  obtain ⟨waiting, outer, operand⟩ := r
  cases hheld
  obtain ⟨peak, waiting', held', hreads, -⟩ := exists_reads_closing waiting outer held
  refine ⟨_, ?_, ?_, _, (hreads.reflects hr).derives rfl rfl⟩
  · intro hnone
    apply houter
    simpa using hnone
  · intro t ht
    rw [List.eq_of_mem_replicate ht]
    rfl

/-- Where an operand is due, closing parentheses are of no help. -/
lemma not_closesUp {r : Reader} {us : List Token} {peak : Nat} (hreads : Reads {} us peak r)
    (hoperand : r.operand = none) : ¬ClosesUp us := by
  intro hcloses
  obtain ⟨closing, hne, hparens, e, hderives⟩ := hcloses
  obtain ⟨t, closing, rfl⟩ := List.exists_cons_of_ne_nil hne
  have hkind : t.kind = .rightParen := hparens t List.mem_cons_self
  -- The reader refuses the first parenthesis, but what is derived would be read to its end.
  have hrefuse : r.step t = .refuse .expectedExpression := by
    refine (step_eq_refuse_iff _ _ _).mpr (.inl ⟨hoperand, rfl, ?_, ?_, ?_⟩)
    · simp [Expr.ofToken?, hkind]
    · simp [hkind]
    · simp [hkind]
  have hread := Expr.parse_of_derives .unlimited hderives rfl
    (t := Token.endOfInput 1) rfl []
  rw [Expr.parse, List.append_assoc, hreads.run rfl, List.cons_append, run_refuse hrefuse] at hread
  cases hread

/-- Which error a refusal is depends on whether closing parentheses alone were missing. -/
lemma refuse_cases {r : Reader} {us : List Token} {peak : Nat} {t : Token}
    {cause : SyntaxError.Cause} (hreads : Reads {} us peak r) (hrefuse : r.step t = .refuse cause) :
    cause = .expectedExpression ∧ ¬ClosesUp us ∨ cause = .unclosedGroup ∧ ClosesUp us := by
  rcases (step_eq_refuse_iff _ _ _).mp hrefuse with
    ⟨hoperand, hcause, -⟩ | ⟨⟨held, hheld⟩, hcause, houter, -⟩
  · exact .inl ⟨hcause, not_closesUp hreads hoperand⟩
  · have hreflects : Reflects r us := hreads.reflects reflects_nil
    exact .inr ⟨hcause, closesUp_of_operand hreflects hheld houter⟩

end Reader

namespace Expr

open Reader

/-- What is read within a limit begins an expression that is read to its end within it. -/
lemma exists_parse_of_reads {limit : Limit} {us : List Token} {peak : Nat} {r : Reader}
    (hreads : Reads {} us peak r) (hpeak : limit.allows peak = true) :
    ∃ vs last e, parse limit (us ++ vs ++ [last]) = .tree e [last] := by
  obtain ⟨vs, peak', waiting, held, hreads', hpeak'⟩ := exists_completion r
  -- The frames in use after `us` are counted in its peak, as none were in use before.
  have hframes : r.frames ≤ max 0 peak := hreads.frames_le
  have hallows : limit.allows (max peak peak') = true := by
    refine (limit.allows_max _ _).mpr ⟨hpeak, Limit.allows_mono ?_ hpeak⟩
    omega
  have hfinish : Reader.step ⟨waiting, [], some held⟩ (.endOfInput 1) =
      .finish (Pending.applyAll waiting held) :=
    (step_eq_finish_iff _ _ _).mpr ⟨rfl, rfl, held, rfl, rfl⟩
  refine ⟨vs, .endOfInput 1, Pending.applyAll waiting held, ?_⟩
  rw [parse, (hreads.append hreads').run hallows, run_finish hfinish]

/-- A syntax error that is not about nesting stands at the first token that cannot go on with an
expression. Reading once more adds this error to those found before, and nothing else. The error is
at token `k`, where reading stopped, and on the line of that token. The tokens before it begin some
expression that is read to its end; with the token, every list fails in the same way, whatever
follows. The code tells whether closing parentheses alone were missing. -/
theorem parse_error_earliest {tokens rest : List Token} {err : SyntaxError}
    (h : parse .standard tokens = .error err rest) (hcode : err.diagnostic.code ≠ some "P003") :
    (∀ (r : Reporter) (n : Nat),
      (r.parseTimes tokens (n + 1)).1.filterMap Reading.error? =
        (r.parseTimes tokens n).1.filterMap Reading.error? ++ [err]) ∧
    ∃ k, (parse .standard tokens).taken tokens = k ∧ tokens[k]? = some err.token ∧
      err.diagnostic.line = err.token.line ∧
      (∃ us last e, parse .standard (tokens.take k ++ us ++ [last]) = .tree e [last]) ∧
      (∀ us, parse .standard (tokens.take (k + 1) ++ us) = .error err (err.token :: us)) ∧
      (err.diagnostic.code = some "P002" ↔ ClosesUp (tokens.take k)) ∧
      (err.diagnostic.code = some "P001" ↔ ¬ClosesUp (tokens.take k)) := by
  obtain ⟨cause, found⟩ := err
  have hdeep : cause ≠ .tooDeep := by
    intro hcause
    subst hcause
    exact hcode rfl
  obtain ⟨us, after, peak, r, rfl, rfl, hreads, hpeak, hrefuse⟩ := run_eq_error h hdeep
  have htake : (us ++ found :: after).take us.length = us := List.take_left
  have htake' : (us ++ found :: after).take (us.length + 1) = us ++ [found] := by
    rw [List.take_length_add_append]
    rfl
  constructor
  · intro r n
    have herror : (parse .standard (us ++ found :: after)).error? = some ⟨cause, found⟩ := by
      rw [h]
      rfl
    rw [Reporter.parseTimes_fst, Reporter.parseTimes_fst, List.replicate_succ',
      List.filterMap_append]
    simp [herror]
  · refine ⟨us.length, ?_, ?_, rfl, ?_, ?_, ?_⟩
    · rw [h]
      simp [Reading.taken, Reading.rest]
    · simp
    · rw [htake]
      exact exists_parse_of_reads hreads hpeak
    · intro vs
      rw [htake', List.append_assoc, parse, hreads.run hpeak, List.singleton_append,
        run_refuse hrefuse]
    · rw [htake]
      have hcodes : (SyntaxError.mk .expectedExpression found).diagnostic.code = some "P001" ∧
          (SyntaxError.mk .unclosedGroup found).diagnostic.code = some "P002" := ⟨rfl, rfl⟩
      rcases refuse_cases hreads hrefuse with ⟨hcause, hcloses⟩ | ⟨hcause, hcloses⟩
      · cases hcause
        simp [hcodes.1, hcloses]
      · cases hcause
        simp [hcodes.2, hcloses]

/-- The tokens of `(-nil true`: the second operand stands where the parenthesis must be closed. -/
def unclosedNegation : List Token :=
  [⟨.leftParen, "(", none, 1⟩, ⟨.minus, "-", none, 1⟩, ⟨.kwNil, "nil", none, 1⟩,
   ⟨.kwTrue, "true", none, 2⟩, .endOfInput 2]

/-- The first three tokens lack a parenthesis only, and fail at `true` whatever comes after it. -/
theorem parse_error_earliest_unclosed :
    parse .standard unclosedNegation =
        .error ⟨.unclosedGroup, ⟨.kwTrue, "true", none, 2⟩⟩ (unclosedNegation.drop 3) ∧
      (SyntaxError.mk .unclosedGroup ⟨.kwTrue, "true", none, 2⟩).diagnostic.code ≠ some "P003" ∧
      ClosesUp (unclosedNegation.take 3) ∧
      ∀ us, (parse .standard (unclosedNegation.take 4 ++ us)).tree? = none := by
  have hparse : parse .standard unclosedNegation =
      .error ⟨.unclosedGroup, ⟨.kwTrue, "true", none, 2⟩⟩ (unclosedNegation.drop 3) := rfl
  have hcode : (SyntaxError.mk .unclosedGroup ⟨.kwTrue, "true", none, 2⟩).diagnostic.code ≠
      some "P003" := by decide
  obtain ⟨-, k, htaken, -, -, -, hlater, hcloses, -⟩ := parse_error_earliest hparse hcode
  have hk : k = 3 := by
    rw [← htaken]
    rfl
  subst hk
  refine ⟨hparse, hcode, hcloses.mp rfl, ?_⟩
  intro us
  rw [hlater us]
  rfl

end Expr
end LoxCalc
