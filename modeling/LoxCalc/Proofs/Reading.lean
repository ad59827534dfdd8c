import LoxCalc.Expr.Parse
import Mathlib.Tactic.Common

/-!
# Steps and runs of the reader

`Reader.Takes` lists what taking a token can do, one constructor per case, and `Reader.Reads` chains
such steps over a stretch of tokens, with the most frames in use after any of them. A limit only
decides whether a run goes on: `Reads.run` says that it goes through a stretch for which there are
frames, and `run_eq_unlimited` that a run that does not nest too deeply is the run without a limit.
-/

namespace LoxCalc

/-- Whether a reading ended because of nesting. -/
def Reading.isTooDeep : Reading → Bool
  | .error ⟨.tooDeep, _⟩ _ => true
  | _ => false

lemma Reading.tree?_eq_some_iff {reading : Reading} {e : Expr} :
    reading.tree? = some e ↔ ∃ rest, reading = .tree e rest := by
  cases reading <;> simp [Reading.tree?]

namespace Reader

/-! ## Steps -/

/-- `Takes r t r'`: the reader `r` takes the token `t` and goes on as `r'`. -/
inductive Takes : Reader → Token → Reader → Prop where
  /-- A literal is an operand. -/
  | literal {waiting : List Pending} {outer : List (List Pending)} {t : Token} {e : Expr} :
      Expr.ofToken? t = some e → Takes ⟨waiting, outer, none⟩ t ⟨waiting, outer, some e⟩
  /-- A parenthesis is opened where an operand is due. -/
  | opening {waiting : List Pending} {outer : List (List Pending)} {t : Token} :
      t.kind = .leftParen → Takes ⟨waiting, outer, none⟩ t ⟨[], waiting :: outer, none⟩
  /-- A prefix operator waits. -/
  | prefixed {waiting : List Pending} {outer : List (List Pending)} {t : Token} :
      t.kind = .bang ∨ t.kind = .minus →
      Takes ⟨waiting, outer, none⟩ t ⟨.unary t :: waiting, outer, none⟩
  /-- A binary operator takes what binds at least as tightly for its left operand, and waits. -/
  | chained {waiting : List Pending} {outer : List (List Pending)} {t : Token} {e : Expr}
      {level : Nat} :
      t.kind.level? = some level →
      Takes ⟨waiting, outer, some e⟩ t
        ⟨.binary (Pending.applyAll (waiting.takeWhile (Pending.bindsAt level)) e) t ::
          waiting.dropWhile (Pending.bindsAt level), outer, none⟩
  /-- A parenthesis is closed after an operand. -/
  | closing {waiting before : List Pending} {outer : List (List Pending)} {t : Token} {e : Expr} :
      t.kind = .rightParen →
      Takes ⟨waiting, before :: outer, some e⟩ t
        ⟨before, outer, some (.group (Pending.applyAll waiting e))⟩

lemma isPrefixOperator_iff (k : Token.Kind) :
    k.isPrefixOperator = true ↔ k = .bang ∨ k = .minus := by
  simp [Token.Kind.isPrefixOperator]

/-- The tokens that open something are no literals. -/
lemma ofToken?_eq_none {t : Token}
    (h : t.kind = .leftParen ∨ t.kind = .bang ∨ t.kind = .minus) : Expr.ofToken? t = none := by
  unfold Expr.ofToken?
  rcases h with h | h | h <;> rw [h]

/-- The steps that take a token. -/
theorem step_eq_take_iff (r : Reader) (t : Token) (next : Reader) :
    r.step t = .take next ↔ Takes r t next := by
  obtain ⟨waiting, outer, operand⟩ := r
  constructor
  · intro h
    -- Before an operand a token begins something, after one it goes on with it.
    cases operand with
    | none =>
      simp only [step, begin] at h
      split at h
      · next e he => cases h; exact .literal he
      · split_ifs at h with hparen hprefix
        · cases h; exact .opening hparen
        · cases h; exact .prefixed ((isPrefixOperator_iff _).mp hprefix)
    | some e =>
      simp only [step, resume] at h
      split at h
      · next level hlevel => cases h; exact .chained hlevel
      · cases outer with
        | nil => cases h
        | cons before outer =>
          simp only at h
          split_ifs at h with hparen
          cases h
          exact .closing hparen
  · intro h
    cases h with
    | literal he => simp only [step, begin, he]
    | opening hparen => simp only [step, begin, ofToken?_eq_none (.inl hparen), hparen, if_true]
    | prefixed hprefix =>
      have hnot : t.kind ≠ .leftParen := by
        rcases hprefix with h | h <;> rw [h] <;> decide
      simp only [step, begin, ofToken?_eq_none (.inr hprefix), hnot, if_false,
        (isPrefixOperator_iff _).mpr hprefix, if_true]
    | chained hlevel => simp only [step, resume, hlevel]
    | closing hparen =>
      have hlevel : t.kind.level? = none := by rw [hparen]; rfl
      simp only [step, resume, hlevel]
      rw [if_pos hparen]

/-- The expression ends before a token that is no binary operator, outside all parentheses. -/
theorem step_eq_finish_iff (r : Reader) (t : Token) (whole : Expr) :
    r.step t = .finish whole ↔
      r.outer = [] ∧ t.kind.level? = none ∧
        ∃ e, r.operand = some e ∧ Pending.applyAll r.waiting e = whole := by
  obtain ⟨waiting, outer, operand⟩ := r
  cases operand with
  | none =>
    -- Where an operand is due, no token ends the expression.
    have hne : Reader.begin ⟨waiting, outer, none⟩ t ≠ .finish whole := by
      unfold begin
      split
      · exact Move.noConfusion
      · split_ifs <;> exact Move.noConfusion
    simp [step, hne]
  | some e =>
    simp only [step, resume, Option.some.injEq, exists_eq_left']
    cases hlevel : t.kind.level? with
    | some level => simp
    | none =>
      cases outer with
      | nil => simp
      | cons before outer =>
        simp only [reduceCtorEq, false_and, iff_false]
        split <;> simp

/-- A token is refused where an operand is due that it cannot begin, and after an operand inside
parentheses if it neither goes on with the operand nor closes them. -/
theorem step_eq_refuse_iff (r : Reader) (t : Token) (cause : SyntaxError.Cause) :
    r.step t = .refuse cause ↔
      (r.operand = none ∧ cause = .expectedExpression ∧ Expr.ofToken? t = none ∧
        t.kind ≠ .leftParen ∧ ¬(t.kind = .bang ∨ t.kind = .minus)) ∨
      ((∃ e, r.operand = some e) ∧ cause = .unclosedGroup ∧ r.outer ≠ [] ∧
        t.kind.level? = none ∧ t.kind ≠ .rightParen) := by
  obtain ⟨waiting, outer, operand⟩ := r
  rw [← isPrefixOperator_iff]
  cases operand with
  | none =>
    simp only [step, begin]
    cases Expr.ofToken? t with
    | some e => simp
    | none =>
      by_cases hparen : t.kind = .leftParen
      · simp [hparen]
      · by_cases hprefix : t.kind.isPrefixOperator = true
        · simp [hparen, hprefix]
        · simp [hparen, hprefix, eq_comm (a := cause)]
  | some e =>
    simp only [step, resume]
    cases t.kind.level? with
    | some level => simp
    | none =>
      cases outer with
      | nil => simp
      | cons before outer =>
        by_cases hparen : t.kind = .rightParen
        · simp [hparen]
        · simp [hparen, eq_comm (a := cause)]

/-! ## One step of a run -/

/-- A run goes on after a token for which there are frames. -/
lemma run_take {limit : Limit} {r next : Reader} {t : Token} (h : Takes r t next)
    (hallows : limit.allows next.frames = true) (rest : List Token) :
    run limit r (t :: rest) = run limit next rest := by
  rw [run.eq_def]
  simp only [(step_eq_take_iff _ _ _).mpr h, hallows, if_true]

/-- A run that has no frames for a token fails at the next one. -/
lemma run_take_tooDeep {limit : Limit} {r next : Reader} {t : Token} (h : Takes r t next)
    (hallows : ¬limit.allows next.frames = true) (found : Token) (rest : List Token) :
    run limit r (t :: found :: rest) = .error ⟨.tooDeep, found⟩ (found :: rest) := by
  rw [run.eq_def]
  simp only [(step_eq_take_iff _ _ _).mpr h, if_neg hallows]

/-- Whatever the limit, a run that takes the last token looks past the end. -/
lemma run_take_last {limit : Limit} {r next : Reader} {t : Token} (h : Takes r t next) :
    run limit r [t] = .pastEnd := by
  rw [run.eq_def]
  simp only [(step_eq_take_iff _ _ _).mpr h, run, ite_self]

lemma run_finish {limit : Limit} {r : Reader} {t : Token} {e : Expr} (h : r.step t = .finish e)
    (rest : List Token) : run limit r (t :: rest) = .tree e (t :: rest) := by
  rw [run.eq_def]
  simp only [h]

lemma run_refuse {limit : Limit} {r : Reader} {t : Token} {cause : SyntaxError.Cause}
    (h : r.step t = .refuse cause) (rest : List Token) :
    run limit r (t :: rest) = .error ⟨cause, t⟩ (t :: rest) := by
  rw [run.eq_def]
  simp only [h]

/-! ## Stretches of tokens -/

/-- `Reads r us peak r'`: the reader `r` takes all of `us` and goes on as `r'`; the most frames in
use after one of the tokens are `peak`. -/
inductive Reads : Reader → List Token → Nat → Reader → Prop where
  | done {r : Reader} : Reads r [] 0 r
  | next {r r₁ r₂ : Reader} {t : Token} {us : List Token} {peak : Nat} :
      Takes r t r₁ → Reads r₁ us peak r₂ → Reads r (t :: us) (max r₁.frames peak) r₂

lemma Reads.one {r r' : Reader} {t : Token} (h : Takes r t r') : Reads r [t] r'.frames r' := by
  have hread := Reads.next h .done
  rwa [Nat.max_zero] at hread

lemma Reads.append {r r₁ r₂ : Reader} {us vs : List Token} {p q : Nat}
    (hu : Reads r us p r₁) (hv : Reads r₁ vs q r₂) : Reads r (us ++ vs) (max p q) r₂ := by
  induction hu with
  | done => rwa [Nat.zero_max]
  | next htake _ ih =>
    rw [Nat.max_assoc]
    exact .next htake (ih hv)

/-- A run goes through a stretch for which there are frames. -/
lemma Reads.run {limit : Limit} {r r' : Reader} {us : List Token} {peak : Nat}
    (h : Reads r us peak r') (hallows : limit.allows peak = true) (rest : List Token) :
    Reader.run limit r (us ++ rest) = Reader.run limit r' rest := by
  induction h with
  | done => rfl
  | next htake _ ih =>
    obtain ⟨hnow, hlater⟩ := (limit.allows_max _ _).mp hallows
    rw [List.cons_append, run_take htake hnow]
    exact ih hlater

/-- A run that does not nest too deeply is the run under every limit that allows as much. -/
theorem run_eq_of_room {limit limit' : Limit}
    (hroom : ∀ used, limit.allows used = true → limit'.allows used = true) (r : Reader)
    (tokens : List Token) (h : (run limit r tokens).isTooDeep = false) :
    run limit' r tokens = run limit r tokens := by
  induction tokens generalizing r with
  | nil => rfl
  | cons t rest ih =>
    cases hstep : r.step t with
    | finish e => rw [run_finish hstep, run_finish hstep]
    | refuse cause => rw [run_refuse hstep, run_refuse hstep]
    | take next =>
      have htake := (step_eq_take_iff _ _ _).mp hstep
      by_cases hallows : limit.allows next.frames = true
      · rw [run_take htake hallows] at h ⊢
        rw [run_take htake (hroom _ hallows)]
        exact ih next h
      · -- Only a token that comes next can be blamed; without one, both runs look past the end.
        cases rest with
        | nil => rw [run_take_last htake, run_take_last htake]
        | cons found rest =>
          rw [run_take_tooDeep htake hallows] at h
          exact absurd h (by simp [Reading.isTooDeep])

/-- A run that does not nest too deeply is the run without a limit. -/
theorem run_eq_unlimited (limit : Limit) (r : Reader) (tokens : List Token)
    (h : (run limit r tokens).isTooDeep = false) :
    run limit r tokens = run .unlimited r tokens :=
  (run_eq_of_room (fun _ _ => rfl) r tokens h).symm

/-- The end of the input is never taken. -/
lemma Takes.kind_ne_eof {r next : Reader} {t : Token} (h : Takes r t next) : t.kind ≠ .eof := by
  intro heof
  cases h with
  | literal he => simp [Expr.ofToken?, heof] at he
  | opening hkind => rw [heof] at hkind; cases hkind
  | prefixed hkind => rw [heof] at hkind; rcases hkind with h | h <;> cases h
  | chained hlevel => rw [heof] at hlevel; cases hlevel
  | closing hkind => rw [heof] at hkind; cases hkind

/-- A run never looks past the end of the input. -/
theorem run_ne_pastEnd (limit : Limit) (r : Reader) (us : List Token) {last : Token}
    (hlast : last.kind = .eof) (rest : List Token) :
    run limit r (us ++ last :: rest) ≠ .pastEnd := by
  induction us generalizing r with
  | nil =>
    cases hstep : r.step last with
    | finish e => rw [List.nil_append, run_finish hstep]; exact Reading.noConfusion
    | refuse cause => rw [List.nil_append, run_refuse hstep]; exact Reading.noConfusion
    | take next => exact absurd hlast ((step_eq_take_iff _ _ _).mp hstep).kind_ne_eof
  | cons t us ih =>
    rw [List.cons_append]
    cases hstep : r.step t with
    | finish e => rw [run_finish hstep]; exact Reading.noConfusion
    | refuse cause => rw [run_refuse hstep]; exact Reading.noConfusion
    | take next =>
      have htake := (step_eq_take_iff _ _ _).mp hstep
      by_cases hallows : limit.allows next.frames = true
      · rw [run_take htake hallows]
        exact ih next
      · -- There is a token to blame, the end of the input at the latest.
        obtain ⟨found, others, hrest⟩ : ∃ found others, us ++ last :: rest = found :: others :=
          List.exists_cons_of_ne_nil (by simp)
        rw [hrest, run_take_tooDeep htake hallows]
        exact Reading.noConfusion

/-- The token at fault is one of those to be read. -/
theorem token_mem_of_run_error {limit : Limit} {r : Reader} {tokens rest : List Token}
    {err : SyntaxError} (h : run limit r tokens = .error err rest) : err.token ∈ tokens := by
  induction tokens generalizing r with
  | nil => cases h
  | cons t tokens ih =>
    cases hstep : r.step t with
    | finish e =>
      rw [run_finish hstep] at h
      cases h
    | refuse cause =>
      rw [run_refuse hstep] at h
      cases h
      exact List.mem_cons_self
    | take next =>
      have htake := (step_eq_take_iff _ _ _).mp hstep
      by_cases hallows : limit.allows next.frames = true
      · rw [run_take htake hallows] at h
        exact List.mem_cons_of_mem _ (ih h)
      · cases tokens with
        | nil =>
          rw [run_take_last htake] at h
          cases h
        | cons found tokens =>
          rw [run_take_tooDeep htake hallows] at h
          cases h
          exact List.mem_cons_of_mem _ List.mem_cons_self

end Reader
end LoxCalc
