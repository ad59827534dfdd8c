import LoxCalc.Proofs.ParseGrammar

/-!
# Frames for reading

What the limit of the reader does. A run fails for want of frames exactly in a stretch whose peak
the limit does not allow (`Reads.isTooDeep_run`), and the peak of a phrase is `Expr.readingFrames`
of its tree, so an expression is read if and only if there are that many frames
(`Expr.isTooDeep_parse_iff`). Operators between operands use none: a chain needs as many frames as
the operand of it that needs the most (`Expr.lt_readingFrames_chain_iff`). Where a limit is not
exceeded it plays no part, and neither does a larger one (`Reader.run_eq_of_room`).
-/

namespace LoxCalc

open Grammar

/-- The code of the error that a reading ends with. -/
def Reading.errorCode? (reading : Reading) : Option String :=
  reading.error?.bind fun err => err.diagnostic.code

lemma Reading.errorCode?_of_isTooDeep {reading : Reading} (h : reading.isTooDeep = true) :
    reading.errorCode? = some "P003" := by
  unfold isTooDeep at h
  split at h
  · rfl
  · cases h

/-- A stretch with a peak that is not allowed is not gone through, if a token follows it. -/
lemma Reader.Reads.isTooDeep_run {limit : Limit} {r r' : Reader} {us : List Token} {peak : Nat}
    (h : Reads r us peak r') (hpeak : ¬limit.allows peak = true) (found : Token)
    (rest : List Token) : (Reader.run limit r (us ++ found :: rest)).isTooDeep = true := by
  induction h with
  | done => exact absurd limit.allows_zero hpeak
  | @next r r₁ r₂ t us peak htake _ ih =>
    by_cases hnow : limit.allows r₁.frames = true
    · have hlater : ¬limit.allows peak = true := by
        intro hlater
        exact hpeak ((limit.allows_max _ _).mpr ⟨hnow, hlater⟩)
      rw [List.cons_append, run_take htake hnow]
      exact ih hlater
    · -- The token that comes next is blamed, whether it belongs to the stretch or not.
      obtain ⟨next, others, hnext⟩ : ∃ next others, us ++ found :: rest = next :: others :=
        List.exists_cons_of_ne_nil (by simp)
      rw [List.cons_append, hnext, run_take_tooDeep htake hnow]
      rfl

namespace Expr

/-- An expression before a token that is no binary operator nests too deeply for reading exactly if
there are no frames for it. -/
theorem isTooDeep_parse_iff (limit : Limit) {us : List Token} {e : Expr}
    (h : Derives .equality us e) {t : Token} (hlevel : t.kind.level? = none) (rest : List Token) :
    (parse limit (us ++ t :: rest)).isTooDeep = true ↔ ¬limit.allows e.readingFrames = true := by
  constructor
  · intro hdeep hallows
    rw [parse_of_derives limit h hallows hlevel] at hdeep
    cases hdeep
  · intro hallows
    obtain ⟨above, held, hread, -, -⟩ := Reader.readsPhrase_of_derives h [] [] (Nat.le_refl 1)
    have hframes : Reader.frames ⟨[], [], none⟩ = 0 := rfl
    rw [hframes, Nat.zero_add] at hread
    exact hread.isTooDeep_run hallows t rest

/-- Operands with operators between them, grouped from the left. -/
def chain (first : Expr) (links : List (Token × Expr)) : Expr :=
  links.foldl (fun left link => .binary left link.1 link.2) first

/-- However long a chain is, it nests as deeply as one of its operands. -/
lemma lt_readingFrames_chain_iff (count : Nat) (first : Expr) (links : List (Token × Expr)) :
    count < (chain first links).readingFrames ↔
      count < first.readingFrames ∨ ∃ link ∈ links, count < link.2.readingFrames := by
  induction links generalizing first with
  | nil => simp [chain]
  | cons link links ih =>
    have hstep : chain first (link :: links) =
        chain (.binary first link.1 link.2) links := rfl
    have hmax : count < max first.readingFrames link.2.readingFrames ↔
        count < first.readingFrames ∨ count < link.2.readingFrames := by omega
    rw [hstep, ih, readingFrames, hmax]
    simp [or_assoc]

/-- Reading with a number of frames. An expression that some first tokens derive, with no binary
operator after them, is too deep exactly if it needs more frames, and is read otherwise; a chain is
too deep only if one of its operands is. A reading of any tokens that does not end with that error
is the reading without a limit, and the reading with more frames. -/
theorem parse_within_frames (count : Nat) (tokens : List Token) :
    (∀ (n : Nat) (hn : n < tokens.length) (e : Expr), Derives .equality (tokens.take n) e →
      tokens[n].kind ∉ Token.Kind.binaryOperators →
        ((parse (.frames count) tokens).errorCode? = some "P003" ↔ count < e.readingFrames) ∧
        (e.readingFrames ≤ count → parse (.frames count) tokens = .tree e (tokens.drop n)) ∧
        ∀ first links, e = chain first links →
          ((parse (.frames count) tokens).errorCode? = some "P003" ↔
            count < first.readingFrames ∨ ∃ link ∈ links, count < link.2.readingFrames)) ∧
    ((parse (.frames count) tokens).errorCode? ≠ some "P003" →
      parse (.frames count) tokens = parse .unlimited tokens ∧
        ∀ more, count ≤ more → parse (.frames more) tokens = parse (.frames count) tokens) := by
  constructor
  · intro n hn e hderives hkind
    have hlevel : tokens[n].kind.level? = none := (level?_eq_none_iff _).mpr hkind
    have hsplit : tokens = tokens.take n ++ tokens[n] :: tokens.drop (n + 1) := by
      rw [← List.drop_eq_getElem_cons hn, List.take_append_drop]
    have hread : e.readingFrames ≤ count →
        parse (.frames count) tokens = .tree e (tokens.drop n) := by
      intro hle
      have hparse := parse_of_derives (.frames count) hderives
        ((Limit.allows_frames_iff _ _).mpr hle) hlevel (tokens.drop (n + 1))
      rwa [← hsplit, ← List.drop_eq_getElem_cons hn] at hparse
    have hdeep : (parse (.frames count) tokens).errorCode? = some "P003" ↔
        count < e.readingFrames := by
      constructor
      · intro hcode
        by_contra hlt
        rw [hread (by omega)] at hcode
        cases hcode
      · intro hlt
        apply Reading.errorCode?_of_isTooDeep
        rw [hsplit, isTooDeep_parse_iff _ hderives hlevel, Limit.allows_frames_iff]
        omega
    refine ⟨hdeep, hread, ?_⟩
    intro first links he
    rw [hdeep, he]
    exact lt_readingFrames_chain_iff count first links
  · intro hcode
    have hdeep : (parse (.frames count) tokens).isTooDeep = false := by
      rw [← Bool.not_eq_true]
      intro hdeep
      exact hcode (Reading.errorCode?_of_isTooDeep hdeep)
    refine ⟨Reader.run_eq_unlimited _ _ _ hdeep, ?_⟩
    intro more hmore
    apply Reader.run_eq_of_room _ _ _ hdeep
    intro used hused
    rw [Limit.allows_frames_iff] at hused ⊢
    omega

/-- The tokens of `-(nil) - -nil`. -/
def negationsInChain : List Token :=
  [⟨.minus, "-", none, 1⟩, ⟨.leftParen, "(", none, 1⟩, ⟨.kwNil, "nil", none, 1⟩,
   ⟨.rightParen, ")", none, 1⟩, ⟨.minus, "-", none, 1⟩, ⟨.minus, "-", none, 1⟩,
   ⟨.kwNil, "nil", none, 1⟩, .endOfInput 1]

/-- The tree of `-(nil) - -nil`. -/
def negationsInChainTree : Expr :=
  .binary (.unary ⟨.minus, "-", none, 1⟩ (.group (.literal .nil))) ⟨.minus, "-", none, 1⟩
    (.unary ⟨.minus, "-", none, 1⟩ (.literal .nil))

/-- The parenthesis under a prefix operator takes twelve frames: eleven are too few, twelve are
enough, and more change nothing. -/
theorem parse_within_frames_negations :
    Derives .equality (negationsInChain.take 7) negationsInChainTree ∧
      (parse (.frames 11) negationsInChain).errorCode? = some "P003" ∧
      parse (.frames 12) negationsInChain = .tree negationsInChainTree [.endOfInput 1] ∧
      parse (.frames 980) negationsInChain = .tree negationsInChainTree [.endOfInput 1] := by
  have hderives : Derives .equality (negationsInChain.take 7) negationsInChainTree := by
    have hparse : parse .unlimited negationsInChain = .tree negationsInChainTree [.endOfInput 1] :=
      rfl
    obtain ⟨us, t, rest, hus, hrest, h, -⟩ := derives_of_parse hparse
    cases hrest
    have heq : us ++ [Token.endOfInput 1] = negationsInChain.take 7 ++ [.endOfInput 1] := hus.symm
    rwa [← List.append_cancel_right heq]
  have hkind : negationsInChain[7].kind ∉ Token.Kind.binaryOperators := by decide
  obtain ⟨hdeep, -⟩ :=
    (parse_within_frames 11 negationsInChain).1 7 (by decide) _ hderives hkind
  obtain ⟨-, hread, -⟩ :=
    (parse_within_frames 12 negationsInChain).1 7 (by decide) _ hderives hkind
  have henough : parse (.frames 12) negationsInChain =
      .tree negationsInChainTree [.endOfInput 1] := hread (by decide)
  obtain ⟨-, hmore⟩ := (parse_within_frames 12 negationsInChain).2 (by rw [henough]; nofun)
  exact ⟨hderives, hdeep.mpr (by decide), henough, (hmore 980 (by decide)).trans henough⟩

end Expr
end LoxCalc
