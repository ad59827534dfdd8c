import LoxCalc.Proofs.ParseGrammar
import LoxCalc.Proofs.SourceLines

/-!
# Reading stops at the end of the input

A run that finds its end within a token list does not see what comes after it
(`Reader.run_append`), and one that does not takes the whole list (`Reader.rest_of_pastEnd`). The
end of the input is never taken, so no run gets past it, and it is there whenever the tokens come
from a source. Each token that is taken becomes an operator or an operand in the same step
(`Reader.exists_takes`), and the expression is put together from these in their order
(`Grammar.Derives.parts_eq`).
-/

namespace LoxCalc

/-! ## Readings of a beginning -/

namespace Reading

/-- A reading of a list that goes on with other tokens. -/
def followedBy (others : List Token) : Reading → Reading
  | .tree e rest => .tree e (rest ++ others)
  | .error err rest => .error err (rest ++ others)
  | .pastEnd => .pastEnd

/-- `SameOutcome a us b vs`: the reading `a` of the tokens `us` and the reading `b` of the tokens
`vs` have the same tree or the same error, or both look past the end, after as many tokens. -/
structure SameOutcome (a : Reading) (us : List Token) (b : Reading) (vs : List Token) : Prop where
  tree : a.tree? = b.tree?
  error : a.error? = b.error?
  taken : a.taken us = b.taken vs

lemma sameOutcome_followedBy {a : Reading} (us others : List Token) (h : a ≠ .pastEnd) :
    SameOutcome (a.followedBy others) (us ++ others) a us := by
  have htaken : ∀ left : List Token,
      (us ++ others).length - (left ++ others).length = us.length - left.length := by
    intro left
    rw [List.length_append, List.length_append, Nat.add_sub_add_right]
  cases a with
  | tree e left => exact ⟨rfl, rfl, htaken left⟩
  | error err left => exact ⟨rfl, rfl, htaken left⟩
  | pastEnd => exact absurd rfl h

end Reading

namespace Reader

variable {limit : Limit} {r : Reader}

/-- A run that does not look past the end of its tokens takes no notice of what follows them. -/
theorem run_append {us : List Token} (h : run limit r us ≠ .pastEnd) (others : List Token) :
    run limit r (us ++ others) = (run limit r us).followedBy others := by
  induction us generalizing r with
  | nil => exact absurd rfl h
  | cons t us ih =>
    rw [List.cons_append]
    cases hstep : r.step t with
    | finish e => rw [run_finish hstep, run_finish hstep]; rfl
    | refuse cause => rw [run_refuse hstep, run_refuse hstep]; rfl
    | take next =>
      have htake := (step_eq_take_iff _ _ _).mp hstep
      by_cases hallows : limit.allows next.frames = true
      · rw [run_take htake hallows] at h
        rw [run_take htake hallows, run_take htake hallows, ih h]
      · -- There is a token to blame, and it is among the first ones.
        cases us with
        | nil => exact absurd (run_take_last htake) h
        | cons found us =>
          rw [List.cons_append, run_take_tooDeep htake hallows, run_take_tooDeep htake hallows]
          rfl

/-- A run ends before some token, and has taken no end of input on its way, or looks past the end
of its tokens. -/
theorem run_cases (limit : Limit) (r : Reader) (us : List Token) :
    run limit r us = .pastEnd ∨
      ∃ before t after, us = before ++ t :: after ∧ (run limit r us).rest = t :: after ∧
        ∀ s ∈ before, s.kind ≠ .eof := by
  induction us generalizing r with
  | nil => exact .inl rfl
  | cons t us ih =>
    cases hstep : r.step t with
    | finish e =>
      rw [run_finish hstep]
      exact .inr ⟨[], t, us, rfl, rfl, List.forall_mem_nil _⟩
    | refuse cause =>
      rw [run_refuse hstep]
      exact .inr ⟨[], t, us, rfl, rfl, List.forall_mem_nil _⟩
    | take next =>
      have htake := (step_eq_take_iff _ _ _).mp hstep
      by_cases hallows : limit.allows next.frames = true
      · rw [run_take htake hallows]
        rcases ih next with hpast | ⟨before, s, after, rfl, hrest, hbefore⟩
        · exact .inl hpast
        · refine .inr ⟨t :: before, s, after, rfl, hrest, ?_⟩
          exact List.forall_mem_cons.mpr ⟨htake.kind_ne_eof, hbefore⟩
      · cases us with
        | nil => exact .inl (run_take_last htake)
        | cons found us =>
          rw [run_take_tooDeep htake hallows]
          exact .inr ⟨[t], found, us, rfl, rfl, by simpa using htake.kind_ne_eof⟩

lemma length_rest_le (limit : Limit) (r : Reader) (us : List Token) :
    (run limit r us).rest.length ≤ us.length := by
  rcases run_cases limit r us with hpast | ⟨before, t, after, hus, hrest, -⟩
  · rw [hpast]
    exact Nat.zero_le _
  · rw [hrest, hus, List.length_append]
    omega

/-- A run that does not look past the end leaves a token. -/
lemma taken_lt {us : List Token} (h : run limit r us ≠ .pastEnd) :
    (run limit r us).taken us < us.length := by
  obtain ⟨before, t, after, hus, hrest, -⟩ := (run_cases limit r us).resolve_left h
  rw [Reading.taken, hrest, hus]
  simp only [List.length_append, List.length_cons]
  omega

/-- A run that looks past the end takes all tokens, and stops there if the end of the input comes
next. -/
theorem rest_of_pastEnd {us : List Token} (h : run limit r us = .pastEnd) {last : Token}
    (hlast : last.kind = .eof) (others : List Token) :
    (run limit r (us ++ last :: others)).rest = last :: others := by
  induction us generalizing r with
  | nil =>
    rw [List.nil_append]
    cases hstep : r.step last with
    | finish e => rw [run_finish hstep]; rfl
    | refuse cause => rw [run_refuse hstep]; rfl
    | take next => exact absurd hlast ((step_eq_take_iff _ _ _).mp hstep).kind_ne_eof
  | cons t us ih =>
    rw [List.cons_append]
    cases hstep : r.step t with
    | finish e => rw [run_finish hstep] at h; cases h
    | refuse cause => rw [run_refuse hstep] at h; cases h
    | take next =>
      have htake := (step_eq_take_iff _ _ _).mp hstep
      by_cases hallows : limit.allows next.frames = true
      · rw [run_take htake hallows] at h ⊢
        exact ih h
      · cases us with
        | nil => rw [List.nil_append, run_take_tooDeep htake hallows]; rfl
        | cons found us => rw [run_take_tooDeep htake hallows] at h; cases h

/-- Every token that a run takes, it takes in a step of its own, after the tokens before it. -/
theorem exists_takes {us : List Token} {n : Nat} (h : n < (run limit r us).taken us) :
    ∃ q t q' peak, us[n]? = some t ∧ Reads r (us.take n) peak q ∧
      run limit r us = run limit q (us.drop n) ∧ Takes q t q' := by
  induction us generalizing r n with
  | nil => cases h
  | cons t us ih =>
    cases hstep : r.step t with
    | finish e => rw [run_finish hstep] at h; simp [Reading.taken, Reading.rest] at h
    | refuse cause => rw [run_refuse hstep] at h; simp [Reading.taken, Reading.rest] at h
    | take next =>
      have htake := (step_eq_take_iff _ _ _).mp hstep
      cases n with
      | zero => exact ⟨r, t, next, 0, rfl, .done, rfl, htake⟩
      | succ n =>
        by_cases hallows : limit.allows next.frames = true
        · rw [run_take htake hallows] at h ⊢
          have hn : n < (run limit next us).taken us := by
            have hle := length_rest_le limit next us
            rw [Reading.taken, List.length_cons] at h
            rw [Reading.taken]
            omega
          obtain ⟨q, s, q', peak, hs, hreads, hrun, hq⟩ := ih hn
          exact ⟨q, s, q', _, hs, .next htake hreads, hrun, hq⟩
        · -- Without frames, one token is taken, the first one.
          cases us with
          | nil =>
            rw [run_take_last htake] at h
            simp [Reading.taken, Reading.rest] at h
          | cons found us =>
            rw [run_take_tooDeep htake hallows] at h
            simp [Reading.taken, Reading.rest] at h

end Reader

/-! ## What is made of the tokens -/

/-- What stands in an expression besides groups: an operator, as a token, or the value of a
literal. -/
inductive Part where
  | operator (t : Token)
  | literal (v : Value)

/-- The operators and literals of an expression, in the order in which they are written. -/
def Expr.parts : Expr → List Part
  | .literal v => [.literal v]
  | .group inner => inner.parts
  | .unary operator operand => .operator operator :: operand.parts
  | .binary left operator right => left.parts ++ .operator operator :: right.parts

/-- What a token contributes to an expression; a parenthesis contributes nothing. -/
def Token.part? (t : Token) : Option Part :=
  match t.kind with
  | .leftParen | .rightParen => none
  | .kwTrue => some (.literal (.bool true))
  | .kwFalse => some (.literal (.bool false))
  | .kwNil => some (.literal .nil)
  | .number | .string => some (.literal t.value)
  | _ => some (.operator t)

namespace Grammar

lemma part?_of_mem_operators {rule : Rule} {t : Token} (h : t.kind ∈ rule.operators) :
    t.part? = some (.operator t) := by
  have hlevel := (rule.mem_operators_iff _).mp h
  unfold Token.part?
  cases hkind : t.kind <;> rw [hkind] at hlevel <;> first | rfl | cases hlevel

/-- A phrase is put together from what its tokens contribute. -/
theorem Derives.parts_eq {rule : Rule} {us : List Token} {e : Expr} (h : Derives rule us e) :
    e.parts = us.filterMap Token.part? := by
  induction h with
  | single _ ih => exact ih
  | chain _ hmem _ ihleft ihright =>
    rw [Expr.parts, ihleft, ihright, List.filterMap_append,
      List.filterMap_cons_some (part?_of_mem_operators hmem)]
  | @prefixed us e operator hkind _ ih =>
    have hpart : operator.part? = some (.operator operator) := by
      rcases hkind with hkind | hkind <;> simp [Token.part?, hkind]
    rw [Expr.parts, ih, List.filterMap_cons_some hpart]
  | @carried t hkind =>
    have hpart : t.part? = some (.literal t.value) := by
      rcases hkind with hkind | hkind <;> simp [Token.part?, hkind]
    rw [List.filterMap_cons_some hpart]
    rfl
  | yes hkind => simp [Expr.parts, Token.part?, hkind]
  | no hkind => simp [Expr.parts, Token.part?, hkind]
  | nil hkind => simp [Expr.parts, Token.part?, hkind]
  | group hopening _ hclosing ih => simp [Expr.parts, Token.part?, hopening, hclosing, ih]

end Grammar

namespace Expr

/-- What was read is put together from the tokens that were taken. -/
lemma parts_of_parse {limit : Limit} {tokens : List Token} {e : Expr}
    (h : (parse limit tokens).tree? = some e) :
    e.parts = (tokens.take ((parse limit tokens).taken tokens)).filterMap Token.part? := by
  obtain ⟨rest, hparse⟩ := Reading.tree?_eq_some_iff.mp h
  obtain ⟨us, t, rest', rfl, rfl, hderives, -⟩ := derives_of_parse hparse
  have htaken : (parse limit (us ++ t :: rest')).taken (us ++ t :: rest') = us.length := by
    rw [hparse]
    simp [Reading.taken, Reading.rest]
  rw [htaken, List.take_left, hderives.parts_eq]

/-- What ends within a list has the same outcome if the list goes on. -/
lemma sameOutcome_append {limit : Limit} {us : List Token} (h : parse limit us ≠ .pastEnd)
    (others : List Token) :
    Reading.SameOutcome (parse limit (us ++ others)) (us ++ others) (parse limit us) us := by
  have hmore := Reading.sameOutcome_followedBy us others h
  rwa [parse, ← Reader.run_append h] at hmore

/-- Reading a list with an end of input at place `k` is reading the list up to there. -/
lemma parse_of_endOfInput (limit : Limit) {tokens : List Token} {k : Nat} {last : Token}
    (hk : tokens[k]? = some last) (hlast : last.kind = .eof) :
    parse limit tokens ≠ .pastEnd ∧ (parse limit tokens).taken tokens ≤ k ∧
      Reading.SameOutcome (parse limit tokens) tokens
        (parse limit (tokens.take (k + 1))) (tokens.take (k + 1)) := by
  have hbeginning : tokens.take (k + 1) = tokens.take k ++ [last] := by
    rw [List.take_add_one, hk]
    rfl
  have hwhole : tokens = tokens.take k ++ last :: tokens.drop (k + 1) := by
    rw [List.append_cons, ← hbeginning, List.take_append_drop]
  have hends : parse limit (tokens.take (k + 1)) ≠ .pastEnd := by
    rw [hbeginning]
    exact Reader.run_ne_pastEnd limit {} _ hlast []
  have hsame : Reading.SameOutcome (parse limit tokens) tokens
      (parse limit (tokens.take (k + 1))) (tokens.take (k + 1)) := by
    have hmore := sameOutcome_append hends (tokens.drop (k + 1))
    rwa [List.take_append_drop] at hmore
  refine ⟨?_, ?_, hsame⟩
  · rw [hwhole]
    exact Reader.run_ne_pastEnd limit {} _ hlast _
  · have htaken : (parse limit (tokens.take (k + 1))).taken _ < (tokens.take (k + 1)).length :=
      Reader.taken_lt hends
    rw [← hsame.taken, List.length_take] at htaken
    omega

/-- Reading a list without an end of input goes wrong exactly if it would stop at the end, were
there one. -/
lemma parse_eq_pastEnd_iff (limit : Limit) (tokens : List Token) {last : Token}
    (hlast : last.kind = .eof) :
    parse limit tokens = .pastEnd ↔
      (parse limit (tokens ++ [last])).taken (tokens ++ [last]) = tokens.length := by
  constructor
  · intro h
    have hrest : (parse limit (tokens ++ [last])).rest = [last] :=
      Reader.rest_of_pastEnd h hlast []
    simp [Reading.taken, hrest]
  · intro htaken
    by_contra hends
    have hlt : (parse limit tokens).taken tokens < tokens.length := Reader.taken_lt hends
    rw [(sameOutcome_append hends [last]).taken] at htaken
    exact absurd htaken (Nat.ne_of_lt hlt)

/-- Reading never gets past an end of the input. With one at place `k`, it does not look past the
end of the list, takes no more than `k` tokens and has the outcome that it has on the list up to
there. Without one, it looks past the end exactly if an end added to the list would be where it
stops, and has the same outcome otherwise. Each token that is taken becomes an operator or an
operand, or opens or closes a group, in the step that takes it, and a tree consists of what the
tokens taken have become. The tokens of a source have one end of input, the last of them, so they
are never looked past. -/
theorem parse_stops_at_endOfInput (limit : Limit) (tokens : List Token) :
    (∀ (k : Nat) (last : Token), tokens[k]? = some last → last.kind = .eof →
      parse limit tokens ≠ .pastEnd ∧ (parse limit tokens).taken tokens ≤ k ∧
        Reading.SameOutcome (parse limit tokens) tokens
          (parse limit (tokens.take (k + 1))) (tokens.take (k + 1))) ∧
    (∀ last : Token, last.kind = .eof →
      (parse limit tokens = .pastEnd ↔
        (parse limit (tokens ++ [last])).taken (tokens ++ [last]) = tokens.length) ∧
      (parse limit tokens ≠ .pastEnd →
        Reading.SameOutcome (parse limit (tokens ++ [last])) (tokens ++ [last])
          (parse limit tokens) tokens)) ∧
    (∀ n, n < (parse limit tokens).taken tokens →
      ∃ r t r' peak, tokens[n]? = some t ∧ Reader.Reads {} (tokens.take n) peak r ∧
        parse limit tokens = r.run limit (tokens.drop n) ∧ Reader.Takes r t r') ∧
    (∀ e, (parse limit tokens).tree? = some e →
      e.parts = (tokens.take ((parse limit tokens).taken tokens)).filterMap Token.part?) ∧
    ∀ source : String,
      (∃ us line, (Scan.ofText source).tokens = us ++ [.endOfInput line] ∧
        ∀ t ∈ us, t.kind ≠ .eof) ∧
      parse limit (Scan.ofText source).tokens ≠ .pastEnd := by
  refine ⟨fun k last hk hlast => parse_of_endOfInput limit hk hlast, fun last hlast => ⟨?_, ?_⟩,
    fun n hn => Reader.exists_takes hn, fun e he => parts_of_parse he, fun source => ⟨?_, ?_⟩⟩
  · exact parse_eq_pastEnd_iff limit tokens hlast
  · intro hends
    exact sameOutcome_append hends [last]
  · exact ⟨_, _, Scan.tokens_ofText source, fun t => Scan.kind_ne_eof_of_mem_readOff⟩
  · rw [Scan.tokens_ofText]
    exact Reader.run_ne_pastEnd limit {} _ rfl []

/-- The tokens of `-true (`, without an end of input. -/
def negatedThenOpened : List Token :=
  [⟨.minus, "-", none, 1⟩, ⟨.kwTrue, "true", none, 1⟩, ⟨.leftParen, "(", none, 1⟩]

/-- Without the parenthesis, reading looks past the end. With it, or with an end of input in its
place, reading stops after both tokens, whatever follows. -/
theorem parse_stops_at_endOfInput_negated :
    parse .standard (negatedThenOpened.take 2) = .pastEnd ∧
    (parse .standard negatedThenOpened).taken negatedThenOpened = 2 ∧
    (parse .standard (negatedThenOpened.take 2 ++ [.endOfInput 1])).taken
      (negatedThenOpened.take 2 ++ [.endOfInput 1]) = 2 ∧
    (parse .standard (negatedThenOpened.take 2 ++ .endOfInput 1 :: negatedThenOpened)).error? =
      none := by
  have hpast : parse .standard (negatedThenOpened.take 2) = .pastEnd := rfl
  have hwithout := (parse_stops_at_endOfInput .standard (negatedThenOpened.take 2)).2.1
    (.endOfInput 1) rfl
  have hwith := (parse_stops_at_endOfInput .standard
    (negatedThenOpened.take 2 ++ .endOfInput 1 :: negatedThenOpened)).1 2 (.endOfInput 1) rfl rfl
  exact ⟨hpast, rfl, hwithout.1.mp hpast, hwith.2.2.error⟩

end Expr
end LoxCalc
