import LoxCalc.Recovery
import Mathlib.Order.Bounds.Defs
import Mathlib.Tactic.Common

/-!
# The nearest statement boundary

Which positions are boundaries is said without the search (`Recovery.IsBoundary`). The search looks
at one position after another and goes on exactly where there is none
(`Recovery.boundaryFrom?_eq_ite`), so it stops at the least boundary; it fails only if it has to
look at a place in front of the list. Resuming again and again therefore moves on from boundary to
boundary until the last position.
-/

namespace LoxCalc
namespace Recovery

/-- `Stands tokens position t`: the token `t` stands at the position, which is counted from the
start of the list or, below zero, from its end. -/
def Stands (tokens : List Token) (position : Int) (t : Token) : Prop :=
  ∃ i : Nat, tokens[i]? = some t ∧ (position = i ∨ position = i - tokens.length)

/-- `IsBoundary tokens position`: reading may resume at the position. -/
inductive IsBoundary (tokens : List Token) (position : Int) : Prop where
  /-- Nothing but the last token is left. -/
  | last : tokens.length - 1 ≤ position → IsBoundary tokens position
  | endOfInput {here : Token} :
      Stands tokens position here → here.kind = .eof → IsBoundary tokens position
  | afterSemicolon {before : Token} :
      Stands tokens (position - 1) before → before.kind = .semicolon → IsBoundary tokens position
  | statement {here : Token} :
      Stands tokens position here →
      here.kind ∈ [Token.Kind.kwClass, .kwFun, .kwVar, .kwFor, .kwIf, .kwWhile, .kwPrint,
        .kwReturn] →
      IsBoundary tokens position

/-! ## Positions -/

lemma tokenAt?_eq_some_iff (tokens : List Token) (position : Int) (t : Token) :
    tokenAt? tokens position = some t ↔ Stands tokens position t := by
  unfold tokenAt?
  constructor
  · intro h
    split_ifs at h with hstart hend
    · exact ⟨_, h, .inl (by omega)⟩
    · exact ⟨_, h, .inr (by omega)⟩
  · rintro ⟨i, hi, hposition⟩
    have hlt : i < tokens.length := (List.getElem?_eq_some_iff.mp hi).1
    rcases hposition with rfl | rfl
    · rw [if_pos (by omega)]
      exact hi
    · have hindex : (tokens.length + ((i : Int) - tokens.length)).toNat = i := by omega
      rw [if_neg (by omega), if_pos (by omega), hindex]
      exact hi

/-- Some token stands at each position from the negative length up to the length. -/
lemma exists_stands (tokens : List Token) (position : Int) (hlow : -tokens.length ≤ position)
    (hhigh : position < tokens.length) : ∃ t, Stands tokens position t := by
  by_cases hstart : 0 ≤ position
  · have hlt : position.toNat < tokens.length := by omega
    exact ⟨tokens[position.toNat], _, List.getElem?_eq_getElem hlt, .inl (by omega)⟩
  · have hlt : (tokens.length + position).toNat < tokens.length := by omega
    exact ⟨tokens[(tokens.length + position).toNat], _, List.getElem?_eq_getElem hlt,
      .inr (by omega)⟩

lemma tokenAt?_eq_none {tokens : List Token} {position : Int} (h : position < -tokens.length) :
    tokenAt? tokens position = none := by
  unfold tokenAt?
  rw [if_neg (by omega), if_neg (by omega)]

/-- The first token stands at the negative length. -/
lemma stands_first (first : Token) (rest : List Token) :
    Stands (first :: rest) (-(first :: rest).length) first :=
  ⟨0, rfl, .inr (by omega)⟩

/-- One token at most stands at a position. -/
lemma Stands.unique {tokens : List Token} {position : Int} {s t : Token}
    (hs : Stands tokens position s) (ht : Stands tokens position t) : s = t := by
  rw [← tokenAt?_eq_some_iff] at hs ht
  exact Option.some.inj (hs.symm.trans ht)

/-! ## The search -/

/-- What makes a position a boundary, as the search tests it. -/
lemma isBoundary_iff {tokens : List Token} {position : Int} {here before : Token}
    (hhere : Stands tokens position here) (hbefore : Stands tokens (position - 1) before) :
    IsBoundary tokens position ↔
      tokens.length - 1 ≤ position ∨ here.kind = .eof ∨ before.kind = .semicolon ∨
        here.kind.startsStatement = true := by
  have hstarts : here.kind.startsStatement = true ↔
      here.kind ∈ [Token.Kind.kwClass, .kwFun, .kwVar, .kwFor, .kwIf, .kwWhile, .kwPrint,
        .kwReturn] := List.contains_iff_mem
  rw [hstarts]
  constructor
  · intro h
    cases h with
    | last hlast => exact .inl hlast
    | endOfInput ht hkind => exact .inr (.inl (hhere.unique ht ▸ hkind))
    | afterSemicolon ht hkind => exact .inr (.inr (.inl (hbefore.unique ht ▸ hkind)))
    | statement ht hkind => exact .inr (.inr (.inr (hhere.unique ht ▸ hkind)))
  · rintro (hlast | hkind | hkind | hkind)
    · exact .last hlast
    · exact .endOfInput hhere hkind
    · exact .afterSemicolon hbefore hkind
    · exact .statement hhere hkind

open Classical in
/-- Where it can look at a token and at the one before it, the search stops at a boundary and goes
on elsewhere. -/
theorem boundaryFrom?_eq_ite {tokens : List Token} {position : Int}
    (hlow : -tokens.length < position) :
    boundaryFrom? tokens (tokens.length - 1) position =
      if IsBoundary tokens position then some position
      else boundaryFrom? tokens (tokens.length - 1) (position + 1) := by
  rw [boundaryFrom?]
  by_cases hlast : position < tokens.length - 1
  · obtain ⟨here, hhere⟩ := exists_stands tokens position (by omega) (by omega)
    obtain ⟨before, hbefore⟩ := exists_stands tokens (position - 1) (by omega) (by omega)
    have hnot : ¬((tokens.length : Int) - 1 ≤ position) := by omega
    rw [if_pos hlast, (tokenAt?_eq_some_iff _ _ _).mpr hhere, isBoundary_iff hhere hbefore,
      (tokenAt?_eq_some_iff _ _ _).mpr hbefore]
    simp only [Option.bind_some, hnot, false_or]
    by_cases heof : here.kind = .eof
    · simp only [heof, if_true, true_or]
    · simp only [heof, if_false, false_or]
  · rw [if_neg hlast, if_pos (.last (by omega))]

/-- Unless it starts in front of the list, the search finds the least boundary that is not before
its start. -/
theorem exists_least_boundaryFrom? {tokens : List Token} {position : Int}
    (hlow : -tokens.length < position) :
    ∃ r, boundaryFrom? tokens (tokens.length - 1) position = some r ∧
      IsLeast {r | position ≤ r ∧ IsBoundary tokens r} r := by
  -- The induction is on how far the last position is.
  generalize hdistance : (tokens.length - 1 - position).toNat = distance
  induction distance generalizing position with
  | zero =>
    have hboundary : IsBoundary tokens position := .last (by omega)
    rw [boundaryFrom?_eq_ite hlow, if_pos hboundary]
    exact ⟨position, rfl, ⟨Int.le_refl _, hboundary⟩, fun r hr => hr.1⟩
  | succ distance ih =>
    rw [boundaryFrom?_eq_ite hlow]
    by_cases hboundary : IsBoundary tokens position
    · rw [if_pos hboundary]
      exact ⟨position, rfl, ⟨Int.le_refl _, hboundary⟩, fun r hr => hr.1⟩
    · have hnext : -tokens.length < position + 1 := by omega
      obtain ⟨r, hfound, ⟨hle, hr⟩, hleast⟩ := ih hnext (by omega)
      rw [if_neg hboundary]
      refine ⟨r, hfound, ⟨by omega, hr⟩, ?_⟩
      rintro s ⟨hs, hsboundary⟩
      -- The start itself is no boundary, so the search from the next position misses none.
      have hne : s ≠ position := fun heq => hboundary (heq ▸ hsboundary)
      exact hleast ⟨by omega, hsboundary⟩

/-- `LooksOutside first rest position`: to resume after an error at the position, a place in front
of the list `first :: rest` has to be looked at. -/
def LooksOutside (first : Token) (rest : List Token) (position : Int) : Prop :=
  position + 1 < -(rest.length + 1) ∨ position + 1 = -(rest.length + 1) ∧ first.kind ≠ .eof

section

variable {first : Token} {rest : List Token} {position : Int}

lemma resume?_of_le (h : rest.length ≤ position) :
    resume? (first :: rest) position = some (rest.length : Int) := by
  have hlast : ((first :: rest).length : Int) - 1 = rest.length := by simp
  simp only [resume?, hlast, if_pos h]

lemma resume?_of_lt (h : position < rest.length) :
    resume? (first :: rest) position =
      boundaryFrom? (first :: rest) ((first :: rest).length - 1) (position + 1) := by
  have hlast : ¬((first :: rest).length : Int) - 1 ≤ position := by
    rw [List.length_cons]
    omega
  simp only [resume?, if_neg hlast]

/-- In front of the first token, the search looks at that token, if at any. -/
lemma boundaryFrom?_of_le (hlow : position ≤ -(rest.length + 1)) :
    boundaryFrom? (first :: rest) ((first :: rest).length - 1) position =
      if position = -(rest.length + 1) ∧ first.kind = .eof then some position else none := by
  have hlength : ((first :: rest).length : Int) = rest.length + 1 := by simp
  have hbefore : tokenAt? (first :: rest) (position - 1) = none := tokenAt?_eq_none (by omega)
  rw [boundaryFrom?, if_pos (by omega), hbefore]
  by_cases hedge : position = -(rest.length + 1)
  · have hfirst : tokenAt? (first :: rest) position = some first := by
      rw [hedge, ← hlength]
      exact (tokenAt?_eq_some_iff _ _ _).mpr (stands_first first rest)
    rw [hfirst]
    simp [hedge]
  · have hnone : tokenAt? (first :: rest) position = none := tokenAt?_eq_none (by omega)
    rw [hnone, if_neg fun h => hedge h.1]
    rfl

/-- Resuming fails if it has to look in front of the list. -/
lemma resume?_of_looksOutside (h : LooksOutside first rest position) :
    resume? (first :: rest) position = none := by
  have hlow : position + 1 ≤ -(rest.length + 1) := by
    rcases h with hfront | ⟨hedge, -⟩ <;> omega
  rw [resume?_of_lt (by omega), boundaryFrom?_of_le hlow, if_neg]
  rintro ⟨hedge, hkind⟩
  rcases h with hfront | ⟨-, hne⟩
  · omega
  · exact hne hkind

/-- Otherwise reading resumes at the least boundary behind the error. -/
lemma exists_least_resume? (h : position < rest.length)
    (hinside : ¬LooksOutside first rest position) :
    ∃ r, resume? (first :: rest) position = some r ∧
      IsLeast {r | position < r ∧ IsBoundary (first :: rest) r} r := by
  have hlength : ((first :: rest).length : Int) = rest.length + 1 := by simp
  have hbehind : {r | position < r ∧ IsBoundary (first :: rest) r} =
      {r | position + 1 ≤ r ∧ IsBoundary (first :: rest) r} := rfl
  rw [resume?_of_lt h, hbehind]
  by_cases hlow : -((first :: rest).length : Int) < position + 1
  · exact exists_least_boundaryFrom? hlow
  · -- The search starts at the first token, counted from the end, and that is the end of input.
    rw [LooksOutside, not_or, not_and, not_not] at hinside
    have hedge : position + 1 = -(rest.length + 1) := by omega
    have hkind : first.kind = .eof := hinside.2 hedge
    have hstands : Stands (first :: rest) (position + 1) first := by
      rw [hedge, ← hlength]
      exact stands_first first rest
    rw [boundaryFrom?_of_le (by omega), if_pos ⟨hedge, hkind⟩]
    exact ⟨_, rfl, ⟨Int.le_refl _, .endOfInput hstands hkind⟩, fun r hr => hr.1⟩

lemma not_looksOutside (first : Token) (rest : List Token) (h : 0 ≤ position) :
    ¬LooksOutside first rest position := by
  rw [LooksOutside]
  omega

/-- From a position inside the list, reading resumes behind it and not behind the last token. -/
lemma exists_resume?_of_nonneg (first : Token) {rest : List Token} (hstart : 0 ≤ position)
    (h : position < rest.length) :
    ∃ r, resume? (first :: rest) position = some r ∧ position < r ∧ r ≤ rest.length ∧
      ∀ s, position < s → IsBoundary (first :: rest) s → r ≤ s := by
  obtain ⟨r, hresume, ⟨hlt, -⟩, hleast⟩ :=
    exists_least_resume? h (not_looksOutside first rest hstart)
  refine ⟨r, hresume, hlt, ?_, fun s hs hboundary => hleast ⟨hs, hboundary⟩⟩
  exact hleast ⟨h, .last (by rw [List.length_cons]; omega)⟩

end

/-! ## Resuming repeatedly -/

/-- Later errors are resumed from later positions. -/
lemma resume?_mono {first : Token} {rest : List Token} {p q : Int} (hp : 0 ≤ p) (hpq : p ≤ q) :
    ∃ r s, resume? (first :: rest) p = some r ∧ resume? (first :: rest) q = some s ∧ r ≤ s := by
  by_cases hqlast : rest.length ≤ q
  · by_cases hplast : rest.length ≤ p
    · exact ⟨_, _, resume?_of_le hplast, resume?_of_le hqlast, Int.le_refl _⟩
    · have hlt : p < rest.length := by omega
      obtain ⟨r, hr, -, hle, -⟩ := exists_resume?_of_nonneg first hp hlt
      exact ⟨_, _, hr, resume?_of_le hqlast, hle⟩
  · have hqlt : q < rest.length := by omega
    obtain ⟨r, hr, -, -, hleast⟩ := exists_resume?_of_nonneg first hp (Int.lt_of_le_of_lt hpq hqlt)
    obtain ⟨s, hs, ⟨hlt, hboundary⟩, -⟩ :=
      exists_least_resume? hqlt (not_looksOutside first rest (Int.le_trans hp hpq))
    -- The boundary behind the later error is behind the earlier one, too.
    exact ⟨r, s, hr, hs, hleast s (by omega) hboundary⟩

/-- Resumes a number of times, each time from where the last one led. -/
def resumeTimes? (tokens : List Token) : Nat → Int → Option Int
  | 0, position => some position
  | n + 1, position => (resume? tokens position).bind (resumeTimes? tokens n)

/-- Every time brings the last position nearer, and it is not left again. -/
lemma resumeTimes?_eq_last {first : Token} {rest : List Token} {n : Nat} {position : Int}
    (hstart : 0 ≤ position) (hle : position ≤ rest.length) (hn : rest.length - position ≤ n) :
    resumeTimes? (first :: rest) n position = some (rest.length : Int) := by
  induction n generalizing position with
  | zero =>
    have hlast : position = rest.length := by omega
    rw [hlast]
    rfl
  | succ n ih =>
    by_cases hlast : rest.length ≤ position
    · rw [resumeTimes?, resume?_of_le hlast]
      exact ih (by omega) (Int.le_refl _) (by omega)
    · have hbefore : position < rest.length := by omega
      obtain ⟨r, hr, hlt, hrle, -⟩ := exists_resume?_of_nonneg first hstart hbefore
      rw [resumeTimes?, hr]
      exact ih (by omega) hrle (by omega)

/-- Reading resumes at the nearest boundary. From the last position on that is the last position.
Before it, resuming fails exactly if it has to look in front of the list, and else leads to the
least boundary behind the error. So from inside the list it leads further, but not too far, later
errors lead to later positions, and each position leads to the last one in as many times as there
are tokens between them. -/
theorem resumes_at_nearest_boundary (first : Token) (rest : List Token) :
    (∀ p : Int, rest.length ≤ p → resume? (first :: rest) p = some (rest.length : Int)) ∧
    (∀ p : Int, p < rest.length →
      (LooksOutside first rest p → resume? (first :: rest) p = none) ∧
      (¬LooksOutside first rest p → ∃ r, resume? (first :: rest) p = some r ∧
        IsLeast {r | p < r ∧ IsBoundary (first :: rest) r} r)) ∧
    (∀ p : Int, 0 ≤ p → p < rest.length →
      ∃ r, resume? (first :: rest) p = some r ∧ p < r ∧ r ≤ rest.length) ∧
    (∀ p q : Int, 0 ≤ p → p ≤ q →
      ∃ r s, resume? (first :: rest) p = some r ∧ resume? (first :: rest) q = some s ∧ r ≤ s) ∧
    ∀ p : Int, 0 ≤ p → p ≤ rest.length → ∀ n : Nat, rest.length - p ≤ n →
      resumeTimes? (first :: rest) n p = some (rest.length : Int) := by
  refine ⟨fun p => resume?_of_le, fun p hp => ⟨resume?_of_looksOutside, exists_least_resume? hp⟩,
    fun p hstart hp => ?_, fun p q => resume?_mono,
    fun p hstart hp n => resumeTimes?_eq_last hstart hp⟩
  obtain ⟨r, hr, hlt, hle, -⟩ := exists_resume?_of_nonneg first hstart hp
  exact ⟨r, hr, hlt, hle⟩

/-- The tokens of `nil ; nil print nil`, without an end of input. -/
def semicolonAndPrint : List Token :=
  [⟨.kwNil, "nil", none, 1⟩, ⟨.semicolon, ";", none, 1⟩, ⟨.kwNil, "nil", none, 1⟩,
   ⟨.kwPrint, "print", none, 1⟩, ⟨.kwNil, "nil", none, 1⟩]

/-- After an error at the first token, reading resumes behind the semicolon, and from there two more
times lead to the last token. In front of the list it cannot resume. -/
theorem resumes_at_nearest_boundary_semicolon :
    resume? semicolonAndPrint 0 = some 2 ∧
    IsLeast {r | (0 : Int) < r ∧ IsBoundary semicolonAndPrint r} 2 ∧
    resume? semicolonAndPrint (-6) = none ∧ resumeTimes? semicolonAndPrint 2 2 = some 4 := by
  obtain ⟨-, hbefore, -, -, htimes⟩ := resumes_at_nearest_boundary
    ⟨.kwNil, "nil", none, 1⟩ semicolonAndPrint.tail
  have hresume : resume? semicolonAndPrint 0 = some 2 := by
    simp +decide [resume?, boundaryFrom?, tokenAt?, semicolonAndPrint]
  obtain ⟨r, hr, hleast⟩ := (hbefore 0 (by decide)).2 (by unfold LooksOutside; decide)
  have hr2 : some r = some 2 := hr.symm.trans hresume
  cases hr2
  refine ⟨hresume, hleast, (hbefore (-6) (by decide)).1 (.inr (by decide)), ?_⟩
  exact htimes 2 (by decide) (by decide) 2 (by decide)

end Recovery
end LoxCalc
