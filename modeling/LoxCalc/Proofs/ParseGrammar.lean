import LoxCalc.Proofs.Phrase
import Mathlib.Data.List.TakeWhile

/-!
# Reading is deriving

The other half of the correctness of the reader: whatever it takes is accounted for by the grammar.
The invariant `Reader.Reflects` cuts the tokens taken so far into the parts that brought about each
waiting operator, each open parenthesis and the operand; a step extends the cut, and the step that
ends the expression turns it into a derivation. Together with `readsPhrase_of_derives` this makes
reading an expression the same as deriving it before a token that is no binary operator.
-/

namespace LoxCalc

open Grammar

namespace Pending

/-- `Waits waiting ws`: the tokens `ws` have left the operators `waiting` without their operands.
Each binary operator has a left operand of its own rule, which is tight enough for its place. -/
inductive Waits : List Pending → List Token → Prop where
  | none : Waits [] []
  | unary {waiting : List Pending} {ws : List Token} {operator : Token} :
      Waits waiting ws → operator.kind = .bang ∨ operator.kind = .minus →
      Waits (.unary operator :: waiting) (ws ++ [operator])
  | binary {waiting : List Pending} {ws ls : List Token} {left : Expr} {operator : Token}
      {rule : Rule} :
      Waits waiting ws → slot waiting ≤ rule.rank → Derives rule ls left →
      operator.kind ∈ rule.operators →
      Waits (.binary left operator :: waiting) (ws ++ ls ++ [operator])

lemma slot_binary {waiting : List Pending} {left : Expr} {operator : Token} {rule : Rule}
    (h : operator.kind ∈ rule.operators) :
    slot (.binary left operator :: waiting) = rule.rank + 1 := by
  simp [slot, (rule.mem_operators_iff _).mp h]

lemma bindsAt_binary {left : Expr} {operator : Token} {rule : Rule}
    (h : operator.kind ∈ rule.operators) (level : Nat) :
    bindsAt level (.binary left operator) = decide (level ≤ rule.rank) := by
  simp [bindsAt, (rule.mem_operators_iff _).mp h]

/-- A unary phrase is tight enough for any place. -/
lemma Waits.slot_le {waiting : List Pending} {ws : List Token} (h : Waits waiting ws) :
    slot waiting ≤ 5 := by
  cases h with
  | none => decide
  | unary _ _ => exact Nat.le_refl 5
  | binary _ _ _ hmem =>
    rw [slot_binary hmem]
    have := Rule.rank_le_of_mem_operators hmem
    omega

/-- The loosest operator takes everything that waits. -/
lemma Waits.bindsAt_one {waiting : List Pending} {ws : List Token} (h : Waits waiting ws) :
    ∀ p ∈ waiting, p.bindsAt 1 = true := by
  induction h with
  | none => exact fun p hp => absurd hp List.not_mem_nil
  | unary _ _ ih =>
    intro p hp
    rcases List.mem_cons.mp hp with rfl | hp
    · rfl
    · exact ih p hp
  | @binary _ _ _ _ _ rule _ _ _ hmem ih =>
    intro p hp
    rcases List.mem_cons.mp hp with rfl | hp
    · rw [bindsAt_binary hmem]
      exact decide_eq_true rule.rank_pos
    · exact ih p hp

/-- An operator of rule `loose` that comes after the phrase `vs` finds its left operand: the phrase
with everything that waits and binds at least as tightly. What waits on is what waited before. -/
theorem Waits.reduce {waiting : List Pending} {ws : List Token} (h : Waits waiting ws)
    (loose : Rule) {rule : Rule} {vs : List Token} {e : Expr} (hphrase : Derives rule vs e)
    (hslot : slot waiting ≤ rule.rank) (hle : loose.rank ≤ rule.rank) (hloose : loose.rank ≤ 4) :
    ∃ ws' ls, ws ++ vs = ws' ++ ls ∧
      Waits (waiting.dropWhile (bindsAt loose.rank)) ws' ∧
      slot (waiting.dropWhile (bindsAt loose.rank)) ≤ loose.rank ∧
      Derives loose ls (applyAll (waiting.takeWhile (bindsAt loose.rank)) e) := by
  induction h generalizing rule vs e with
  | none => exact ⟨[], vs, rfl, .none, loose.rank_pos, hphrase.loosen hle⟩
  | @unary waiting ws operator hwaits hkind ih =>
    -- The prefix operator always takes the phrase, which makes a unary phrase of the two.
    have hunary : Derives .unary (operator :: vs) (.unary operator e) :=
      .prefixed hkind (hphrase.loosen hslot)
    have hbinds : bindsAt loose.rank (.unary operator) = true := rfl
    rw [List.append_assoc, List.singleton_append, List.dropWhile_cons_of_pos hbinds,
      List.takeWhile_cons_of_pos hbinds]
    exact ih hunary hwaits.slot_le (Nat.le_succ_of_le hloose)
  | @binary waiting ws ls left operator own hwaits hown hleft hmem ih =>
    have hown4 := Rule.rank_le_of_mem_operators hmem
    rw [slot_binary hmem] at hslot
    by_cases hbinds : loose.rank ≤ own.rank
    · -- The waiting operator binds at least as tightly: it takes the phrase.
      have hright : Derives own.tighter vs e :=
        hphrase.loosen (by rw [Rule.rank_tighter (by omega)]; exact hslot)
      have hbinds' : bindsAt loose.rank (.binary left operator) = true := by
        rw [bindsAt_binary hmem, decide_eq_true hbinds]
      rw [List.append_assoc, List.append_assoc, List.singleton_append,
        List.dropWhile_cons_of_pos hbinds', List.takeWhile_cons_of_pos hbinds']
      exact ih (.chain hleft hmem hright) hown hbinds
    · -- It binds less tightly: the phrase alone is the left operand, and it waits on.
      have hbinds' : ¬bindsAt loose.rank (.binary left operator) = true := by
        rw [bindsAt_binary hmem, decide_eq_true_eq]
        exact hbinds
      rw [List.dropWhile_cons_of_neg hbinds', List.takeWhile_cons_of_neg hbinds']
      refine ⟨ws ++ ls ++ [operator], vs, rfl, .binary hwaits hown hleft hmem, ?_,
        hphrase.loosen hle⟩
      rw [slot_binary hmem]
      omega

/-- A phrase with everything that waits for it is an expression. -/
lemma Waits.derives {waiting : List Pending} {ws vs : List Token} {e : Expr}
    (h : Waits waiting ws) (hphrase : Derives .primary vs e) :
    Derives .equality (ws ++ vs) (applyAll waiting e) := by
  have hslot : slot waiting ≤ Rule.primary.rank := Nat.le_succ_of_le h.slot_le
  obtain ⟨ws', ls, heq, hwaits, -, hderives⟩ :=
    h.reduce .equality hphrase hslot (by decide) (by decide)
  -- An equality operator would take everything, so nothing is left waiting.
  have hall : ∀ p ∈ waiting, bindsAt Rule.equality.rank p = true := h.bindsAt_one
  have hdrop : waiting.dropWhile (bindsAt Rule.equality.rank) = [] :=
    List.dropWhile_eq_nil_iff.mpr hall
  have htake : waiting.takeWhile (bindsAt Rule.equality.rank) = waiting :=
    List.takeWhile_eq_self_iff.mpr hall
  rw [hdrop] at hwaits
  rw [htake] at hderives
  cases hwaits
  rwa [heq, List.nil_append]

end Pending

namespace Reader

open Pending

/-- `Encloses outer os`: the tokens `os` have opened the parentheses around a reader, with what
waits before each of them. -/
inductive Encloses : List (List Pending) → List Token → Prop where
  | none : Encloses [] []
  | opening {outer : List (List Pending)} {waiting : List Pending} {os ws : List Token}
      {opening : Token} :
      Encloses outer os → Waits waiting ws → opening.kind = .leftParen →
      Encloses (waiting :: outer) (os ++ ws ++ [opening])

/-- The tokens of the operand read last. -/
def Holds : Option Expr → List Token → Prop
  | none, vs => vs = []
  | some e, vs => Derives .primary vs e

/-- `Reflects r us`: the reader `r` is what the tokens `us` lead to by the grammar. -/
def Reflects (r : Reader) (us : List Token) : Prop :=
  ∃ os ws vs, us = os ++ ws ++ vs ∧ Encloses r.outer os ∧ Waits r.waiting ws ∧ Holds r.operand vs

lemma reflects_nil : Reflects {} [] :=
  ⟨[], [], [], rfl, .none, .none, rfl⟩

/-- A token that is an operand by itself is a primary phrase. -/
lemma derives_ofToken? {t : Token} {e : Expr} (h : Expr.ofToken? t = some e) :
    Derives .primary [t] e := by
  unfold Expr.ofToken? at h
  split at h <;> cases h
  case h_1 hkind => exact .no hkind
  case h_2 hkind => exact .yes hkind
  case h_3 hkind => exact .nil hkind
  case h_4 hkind => exact .carried (.inl hkind)
  case h_5 hkind => exact .carried (.inr hkind)

/-- Taking a token keeps the reader accounted for. -/
theorem Takes.reflects {r r' : Reader} {t : Token} {us : List Token} (h : Takes r t r')
    (hr : Reflects r us) : Reflects r' (us ++ [t]) := by
  obtain ⟨os, ws, vs, rfl, houter, hwaits, hholds⟩ := hr
  cases h with
  | literal he =>
    -- As long as an operand is due, the cut ends with what waits.
    have hvs : vs = [] := hholds
    subst hvs
    exact ⟨os, ws, [t], by simp, houter, hwaits, derives_ofToken? he⟩
  | opening hparen =>
    have hvs : vs = [] := hholds
    subst hvs
    exact ⟨os ++ ws ++ [t], [], [], by simp, .opening houter hwaits hparen, .none, rfl⟩
  | prefixed hkind =>
    have hvs : vs = [] := hholds
    subst hvs
    exact ⟨os, ws ++ [t], [], by simp, houter, .unary hwaits hkind, rfl⟩
  | @chained waiting outer _ e level hlevel =>
    obtain ⟨rule, rfl, hmem⟩ := Rule.exists_mem_operators hlevel
    have hrank := Rule.rank_le_of_mem_operators hmem
    obtain ⟨ws', ls, heq, hwaits', hslot, hleft⟩ :=
      hwaits.reduce rule hholds (Nat.le_succ_of_le hwaits.slot_le)
        (Nat.le_trans hrank (by decide)) hrank
    refine ⟨os, ws' ++ ls ++ [t], [], ?_, houter, .binary hwaits' hslot hleft hmem, rfl⟩
    rw [List.append_assoc os, heq]
    simp
  | @closing waiting before outer _ e hparen =>
    -- The innermost opening parenthesis is the last one of `os`, so the group goes from there.
    have hwhole := hwaits.derives hholds
    cases houter with
    | @opening _ _ os' ws' opening houter' hwaits' hopening =>
      refine ⟨os', ws', opening :: (ws ++ vs) ++ [t], ?_, houter', hwaits', ?_⟩
      · simp
      · exact .group hopening hwhole hparen

/-- Outside all parentheses, what waits and the operand read last are an expression. -/
lemma Reflects.derives {r : Reader} {us : List Token} {held : Expr} (h : Reflects r us)
    (houter : r.outer = []) (hheld : r.operand = some held) :
    Derives .equality us (applyAll r.waiting held) := by
  obtain ⟨os, ws, vs, rfl, hencloses, hwaits, hholds⟩ := h
  -- No parenthesis is open, so all tokens belong to what waits and to the operand.
  rw [houter] at hencloses
  cases hencloses
  rw [hheld] at hholds
  simpa using hwaits.derives hholds

/-- A run that ends with a tree has derived it from the tokens taken, and stopped at a token that is
no binary operator. -/
theorem run_eq_tree {limit : Limit} {tokens rest : List Token} {e : Expr} {r : Reader}
    {us : List Token} (hr : Reflects r us) (h : run limit r tokens = .tree e rest) :
    ∃ vs t rest', tokens = vs ++ t :: rest' ∧ rest = t :: rest' ∧ Derives .equality (us ++ vs) e ∧
      t.kind.level? = none := by
  induction tokens generalizing r us with
  | nil => exact absurd h (by simp [run])
  | cons t tokens ih =>
    cases hstep : r.step t with
    | refuse cause =>
      rw [run_refuse hstep] at h
      exact absurd h (by simp)
    | finish whole =>
      rw [run_finish hstep] at h
      cases h
      obtain ⟨houter, hlevel, held, hheld, happly⟩ := (step_eq_finish_iff _ _ _).mp hstep
      refine ⟨[], t, tokens, rfl, rfl, ?_, hlevel⟩
      rw [← happly, List.append_nil]
      exact hr.derives houter hheld
    | take next =>
      have htake := (step_eq_take_iff _ _ _).mp hstep
      by_cases hallows : limit.allows next.frames = true
      · rw [run_take htake hallows] at h
        obtain ⟨vs, t', rest', rfl, hrest, hderives, hlevel⟩ := ih (htake.reflects hr) h
        refine ⟨t :: vs, t', rest', rfl, hrest, ?_, hlevel⟩
        rwa [List.append_assoc, List.singleton_append] at hderives
      · -- Without frames the run has no tree.
        cases tokens with
        | nil =>
          rw [run_take_last htake] at h
          exact absurd h (by simp)
        | cons found tokens =>
          rw [run_take_tooDeep htake hallows] at h
          exact absurd h (by simp)

end Reader

namespace Expr

/-- An expression that the grammar derives is read up to the token after it, if that is no binary
operator and there are frames. -/
theorem parse_of_derives (limit : Limit) {us : List Token} {e : Expr}
    (h : Derives .equality us e) (hallows : limit.allows e.readingFrames = true) {t : Token}
    (hlevel : t.kind.level? = none) (rest : List Token) :
    parse limit (us ++ t :: rest) = .tree e (t :: rest) := by
  obtain ⟨above, held, hread, happly, -⟩ :=
    Reader.readsPhrase_of_derives h [] [] (Nat.le_refl 1)
  have hframes : Reader.frames ⟨[], [], none⟩ = 0 := rfl
  rw [hframes, Nat.zero_add, List.append_nil] at hread
  have hfinish : Reader.step ⟨above, [], some held⟩ t = .finish e :=
    (Reader.step_eq_finish_iff _ _ _).mpr ⟨rfl, hlevel, held, rfl, happly⟩
  rw [parse, hread.run hallows, Reader.run_finish hfinish]

/-- An expression that the grammar derives is read up to a token that is no binary operator, if
reading does not nest too deeply. -/
theorem parse_of_derives_of_not_tooDeep {limit : Limit} {us : List Token} {e : Expr}
    (h : Derives .equality us e) {t : Token} (hlevel : t.kind.level? = none) {rest : List Token}
    (hdeep : (parse limit (us ++ t :: rest)).isTooDeep = false) :
    parse limit (us ++ t :: rest) = .tree e (t :: rest) := by
  rw [parse, Reader.run_eq_unlimited limit _ _ hdeep]
  exact parse_of_derives .unlimited h rfl hlevel rest

/-- The tree that is read is derived from the tokens that are taken. -/
theorem derives_of_parse {limit : Limit} {tokens rest : List Token} {e : Expr}
    (h : parse limit tokens = .tree e rest) :
    ∃ us t rest', tokens = us ++ t :: rest' ∧ rest = t :: rest' ∧ Derives .equality us e ∧
      t.kind.level? = none :=
  Reader.run_eq_tree Reader.reflects_nil h

/-- The grammar is unambiguous. -/
theorem derives_unique {us : List Token} {e₁ e₂ : Expr} (h₁ : Derives .equality us e₁)
    (h₂ : Derives .equality us e₂) : e₁ = e₂ := by
  -- Both trees are what is read before the end of the input.
  have hlevel : (Token.endOfInput 1).kind.level? = none := rfl
  have hread₁ := parse_of_derives .unlimited h₁ rfl hlevel []
  have hread₂ := parse_of_derives .unlimited h₂ rfl hlevel []
  rw [hread₁] at hread₂
  cases hread₂
  rfl

/-- Reading that does not nest too deeply gives exactly the trees of the grammar: the tree `e` after
`n` tokens if and only if these derive it and no binary operator comes next. No prefix of a token
list derives two trees. -/
theorem parse_eq_tree_iff_derives (limit : Limit) (tokens : List Token) :
    (∀ (n : Nat) (hn : n < tokens.length) (e : Expr), (parse limit tokens).isTooDeep = false →
      (((parse limit tokens).tree? = some e ∧ (parse limit tokens).taken tokens = n) ↔
        Derives .equality (tokens.take n) e ∧ tokens[n].kind ∉ Token.Kind.binaryOperators)) ∧
    ∀ (n : Nat) (e₁ e₂ : Expr), Derives .equality (tokens.take n) e₁ →
      Derives .equality (tokens.take n) e₂ → e₁ = e₂ := by
  refine ⟨?_, fun n e₁ e₂ => derives_unique⟩
  intro n hn e hdeep
  rw [← level?_eq_none_iff]
  constructor
  · -- What was taken is the beginning of length `n`, and the next token ended it.
    rintro ⟨htree, htaken⟩
    obtain ⟨rest, hparse⟩ := Reading.tree?_eq_some_iff.mp htree
    obtain ⟨us, t, rest', rfl, rfl, hderives, hlevel⟩ := derives_of_parse hparse
    have hlength : us.length = n := by
      rw [← htaken, hparse]
      simp [Reading.taken, Reading.rest]
    subst hlength
    simpa using ⟨hderives, hlevel⟩
  · -- The beginning is read as a phrase, up to the token at `n`.
    rintro ⟨hderives, hlevel⟩
    have hsplit : tokens = tokens.take n ++ tokens[n] :: tokens.drop (n + 1) := by
      rw [← List.drop_eq_getElem_cons hn, List.take_append_drop]
    have hparse : parse limit tokens = .tree e (tokens[n] :: tokens.drop (n + 1)) := by
      rw [hsplit] at hdeep
      have hread := parse_of_derives_of_not_tooDeep hderives hlevel hdeep
      rwa [← hsplit] at hread
    rw [hparse]
    refine ⟨rfl, ?_⟩
    simp only [Reading.taken, Reading.rest, List.length_cons, List.length_drop]
    omega

/-- The tokens of `nil - true - nil`, the second operator on a second line. -/
def minusChain : List Token :=
  [⟨.kwNil, "nil", none, 1⟩, ⟨.minus, "-", none, 1⟩, ⟨.kwTrue, "true", none, 1⟩,
   ⟨.minus, "-", none, 2⟩, ⟨.kwNil, "nil", none, 2⟩, .endOfInput 2]

/-- The chain leans to the left, and no other tree is derived from it. -/
theorem derives_minusChain :
    (parse .standard minusChain).isTooDeep = false ∧
      Derives .equality (minusChain.take 5)
        (.binary (.binary (.literal .nil) ⟨.minus, "-", none, 1⟩ (.literal (.bool true)))
          ⟨.minus, "-", none, 2⟩ (.literal .nil)) ∧
      ∀ e, Derives .equality (minusChain.take 5) e →
        e = .binary (.binary (.literal .nil) ⟨.minus, "-", none, 1⟩ (.literal (.bool true)))
          ⟨.minus, "-", none, 2⟩ (.literal .nil) := by
  have hiff := parse_eq_tree_iff_derives .standard minusChain
  have hderives := (hiff.1 5 (by decide) _ rfl).mp ⟨rfl, rfl⟩
  exact ⟨rfl, hderives.1, fun e he => hiff.2 5 _ _ he hderives.1⟩

end Expr
end LoxCalc
