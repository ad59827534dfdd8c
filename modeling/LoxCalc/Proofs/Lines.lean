import LoxCalc.Proofs.MaximalMunch

/-!
# Lines

Where the pieces of a source stand. The line of a piece counts the newlines up to its end
(`Piece.mem_withLines_iff`), so every token stands at a place in the cut of its source and on the
line of that place (`Scan.exists_standsAfter`).
-/

namespace LoxCalc

namespace Piece

/-! ## The lines of pieces -/

/-- Pieces go on below the lines that end in the pieces before them. -/
lemma withLines_append (line : Nat) (ps qs : List Piece) :
    withLines line (ps ++ qs) =
      withLines line ps ++ withLines (line + (ps.flatMap text).count '\n') qs := by
  induction ps generalizing line with
  | nil => rfl
  | cons p ps ih =>
    have hline : line + p.newlines + (ps.flatMap text).count '\n' =
        line + ((p :: ps).flatMap text).count '\n' := by
      rw [List.flatMap_cons, List.count_append, newlines]
      omega
    rw [List.cons_append, withLines, withLines, ih, hline, List.cons_append]

/-- The line of a piece counts the newlines up to its end. -/
theorem mem_withLines_iff {line : Nat} {pieces : List Piece} {p : Piece} {n : Nat} :
    (p, n) ∈ withLines line pieces ↔
      ∃ earlier later, pieces = earlier ++ p :: later ∧
        n = line + ((earlier ++ [p]).flatMap text).count '\n' := by
  constructor
  · intro h
    induction pieces generalizing line with
    | nil => cases h
    | cons q pieces ih =>
      rcases List.mem_cons.mp h with h | h
      · cases h
        exact ⟨[], pieces, rfl, by simp [newlines]⟩
      · obtain ⟨earlier, later, rfl, rfl⟩ := ih h
        refine ⟨q :: earlier, later, rfl, ?_⟩
        rw [List.cons_append, List.flatMap_cons, List.count_append, newlines]
        omega
  · rintro ⟨earlier, later, rfl, rfl⟩
    rw [withLines_append, withLines, List.flatMap_append, List.flatMap_singleton,
      List.count_append, ← Nat.add_assoc]
    exact List.mem_append_right _ List.mem_cons_self

/-- What each piece gives rise to on its line, the first piece starting on the given line. -/
def readOff {α : Type} (f : Int → Piece → Option α) (line : Nat) (pieces : List Piece) : List α :=
  (withLines line pieces).filterMap fun located => f located.2 located.1

section

variable {α : Type} {f : Int → Piece → Option α}

lemma readOff_append (line : Nat) (ps qs : List Piece) :
    readOff f line (ps ++ qs) =
      readOff f line ps ++ readOff f (line + (ps.flatMap text).count '\n') qs := by
  rw [readOff, withLines_append, List.filterMap_append]
  rfl

lemma readOff_cons (line : Nat) (p : Piece) (pieces : List Piece) :
    readOff f line (p :: pieces) =
      (f (line + p.newlines : Nat) p).toList ++ readOff f (line + p.newlines) pieces := by
  rw [readOff, withLines, List.filterMap_cons]
  cases f (line + p.newlines : Nat) p <;> rfl

/-- What is read off in place `i` comes from a piece before which `i` things are read off. -/
lemma exists_split_of_getElem?_readOff {line i : Nat} {pieces : List Piece} {a : α}
    (h : (readOff f line pieces)[i]? = some a) :
    ∃ earlier p later, pieces = earlier ++ p :: later ∧
      f (line + ((earlier ++ [p]).flatMap text).count '\n' : Nat) p = some a ∧
      (readOff f line earlier).length = i := by
  induction pieces generalizing line i with
  | nil => cases h
  | cons q pieces ih =>
    rw [readOff_cons] at h
    by_cases hfirst : i < (f (line + q.newlines : Nat) q).toList.length
    · -- The first piece gives rise to one thing at most, in place zero.
      obtain ⟨b, hb⟩ : ∃ b, f (line + q.newlines : Nat) q = some b := by
        cases hq : f (line + q.newlines : Nat) q with
        | none => rw [hq] at hfirst; cases hfirst
        | some b => exact ⟨b, rfl⟩
      rw [hb] at h hfirst
      obtain rfl : i = 0 := Nat.lt_one_iff.mp hfirst
      refine ⟨[], q, pieces, rfl, ?_, rfl⟩
      rw [List.nil_append, List.flatMap_singleton, ← newlines, hb]
      exact h
    · rw [List.getElem?_append_right (Nat.le_of_not_lt hfirst)] at h
      obtain ⟨earlier, p, later, rfl, hp, hlength⟩ := ih h
      refine ⟨q :: earlier, p, later, rfl, ?_, ?_⟩
      · rw [List.cons_append, List.flatMap_cons, List.count_append, ← Nat.add_assoc]
        exact hp
      · rw [readOff_cons, List.length_append, hlength]
        omega

end

end Piece

/-! ## The places of tokens -/

namespace Lexical

/-- Only strings hold newlines. -/
lemma Matches.newline_not_mem {text after : List Char} {kind : Token.Kind}
    {literal : Option Literal} (h : Matches text after (.token kind literal))
    (hkind : kind ≠ .string) : '\n' ∉ text := by
  have hdigit : ¬IsDigit '\n' := by unfold IsDigit; decide
  have hletter : ¬IsLetter '\n' := by unfold IsLetter; decide
  have hdigits : ∀ digits : List Char, (∀ d ∈ digits, IsDigit d) → '\n' ∉ digits :=
    fun digits hall hmem => hdigit (hall _ hmem)
  have hword : ∀ cs : List Char, (∀ d ∈ cs, IsLetter d ∨ IsDigit d) → '\n' ∉ cs :=
    fun cs hall hmem => (hall _ hmem).elim hletter hdigit
  cases h with
  | mark hmem =>
    intro hnewline
    cases List.mem_singleton.mp hnewline
    revert hmem
    simp
  | alone hmem =>
    intro hnewline
    cases List.mem_singleton.mp hnewline
    revert hmem
    simp
  | joined hmem =>
    intro hnewline
    rcases List.mem_cons.mp hnewline with rfl | hequal
    · revert hmem
      simp
    · cases List.mem_singleton.mp hequal
  | slash => decide
  | string _ => exact absurd rfl hkind
  | whole hc hall =>
    exact hdigits _ (List.forall_mem_cons.mpr ⟨hc, hall⟩)
  | @decimal c d digits fraction _ hc hall hd hfraction =>
    have hwhole := hdigits (c :: digits) (List.forall_mem_cons.mpr ⟨hc, hall⟩)
    have hafter := hdigits (d :: fraction) (List.forall_mem_cons.mpr ⟨hd, hfraction⟩)
    intro hnewline
    rw [← List.cons_append, List.mem_append] at hnewline
    rcases hnewline with hnewline | hnewline
    · exact hwhole hnewline
    · rcases List.mem_cons.mp hnewline with hpoint | hnewline
      · cases hpoint
      · exact hafter hnewline
  | keyword hc hall _ =>
    exact hword _ (List.forall_mem_cons.mpr ⟨.inl hc, hall⟩)
  | identifier hc hall _ =>
    exact hword _ (List.forall_mem_cons.mpr ⟨.inl hc, hall⟩)

/-- A piece that is a token is matched by a rule. -/
lemma Cuts.matches_of_mem {source text : List Char} {pieces : List (List Char × Role)}
    {kind : Token.Kind} {literal : Option Literal} (h : Cuts source pieces)
    (hmem : (text, .token kind literal) ∈ pieces) :
    ∃ after, Matches text after (.token kind literal) := by
  induction h with
  | done => cases hmem
  | longest hmatch _ _ ih =>
    rcases List.mem_cons.mp hmem with hfirst | hlater
    · cases hfirst
      exact ⟨_, hmatch⟩
    · exact ih hlater
  | stray _ _ ih =>
    rcases List.mem_cons.mp hmem with hfirst | hlater
    · cases hfirst
    · exact ih hlater

end Lexical

namespace Scan

open Lexical

lemma tokens_ofText (source : String) :
    (ofText source).tokens =
      Piece.readOff Piece.token? 1 (Piece.ofText source.toList) ++
        [.endOfInput (1 + source.toList.count '\n')] := rfl

lemma errors_ofText (source : String) :
    (ofText source).errors = Piece.readOff Piece.error? 1 (Piece.ofText source.toList) := rfl

/-- `StandsAfter source before i t`: by the lexical rules, the token `t` is cut off the source where
the text `before` ends, and `i` tokens are cut off before it. -/
def StandsAfter (source : String) (before : List Char) (i : Nat) (t : Token) : Prop :=
  ∃ earlier later,
    Cuts source.toList (earlier ++ (t.lexeme.toList, .token t.kind t.literal) :: later) ∧
      earlier.flatMap (·.1) = before ∧ (earlier.filterMap token?).length = i

/-- A token that comes from a piece has its text and its role. -/
lemma role_of_token? {line : Int} {p : Piece} {t : Token} (h : p.token? line = some t) :
    p.text = t.lexeme.toList ∧ p.role = .token t.kind t.literal ∧ t.line = line := by
  cases p <;> cases h <;> exact ⟨String.toList_ofList.symm, rfl, rfl⟩

/-- Every token but the end of the input stands somewhere in the source, on the line that its last
character is on. -/
theorem exists_standsAfter {source : String} {i : Nat} {t : Token}
    (h : (ofText source).tokens[i]? = some t) (hkind : t.kind ≠ .eof) :
    ∃ before, StandsAfter source before i t ∧
      t.line = 1 + (before ++ t.lexeme.toList).count '\n' := by
  rw [tokens_ofText] at h
  by_cases hi : i < (Piece.readOff Piece.token? 1 (Piece.ofText source.toList)).length
  · rw [List.getElem?_append_left hi] at h
    obtain ⟨earlier, p, later, hpieces, hp, hlength⟩ := Piece.exists_split_of_getElem?_readOff h
    obtain ⟨htext, hrole, hline⟩ := role_of_token? hp
    -- As many tokens are read off the earlier pieces as there are among their outlines.
    have hcount := Piece.filterMap_withLines (fun located => located.1.token? located.2) _ _
      (fun q line => Piece.token?_eq line q) earlier 1
    refine ⟨earlier.flatMap Piece.text, ⟨earlier.map fun q => (q.text, q.role),
      later.map fun q => (q.text, q.role), ?_, List.flatMap_map _ _ _, ?_⟩, ?_⟩
    · have hcuts := Piece.cuts_outline source.toList
      rwa [Piece.outline, hpieces, List.map_append, List.map_cons, htext, hrole] at hcuts
    · rw [← hcount, List.length_map]
      exact hlength
    · rw [hline, ← htext, List.flatMap_append, List.flatMap_singleton]
      rfl
  · -- Only the end of the input comes after what is read off the pieces.
    rw [List.getElem?_append_right (Nat.le_of_not_lt hi)] at h
    have hlast := List.mem_of_getElem? h
    rw [List.mem_singleton] at hlast
    exact absurd (hlast ▸ rfl) hkind

/-- What is read off a source comes from a line of it. -/
lemma exists_line_of_mem_readOff {α : Type} {f : Int → Piece → Option α} {cs : List Char} {a : α}
    (h : a ∈ Piece.readOff f 1 (Piece.ofText cs)) :
    ∃ (p : Piece) (line : Nat), f line p = some a ∧ 1 ≤ line ∧ line ≤ 1 + cs.count '\n' := by
  obtain ⟨⟨p, line⟩, hlocated, hf⟩ := List.mem_filterMap.mp h
  obtain ⟨earlier, later, hpieces, hline⟩ := Piece.mem_withLines_iff.mp hlocated
  have hcount : cs.count '\n' = ((earlier ++ [p]).flatMap Piece.text).count '\n' +
      (later.flatMap Piece.text).count '\n' := by
    conv_lhs => rw [← Piece.flatMap_text_ofText cs, hpieces, List.append_cons, List.flatMap_append,
      List.count_append]
  exact ⟨p, line, hf, by omega, by omega⟩

lemma line_of_mem_tokens {source : String} {t : Token} (h : t ∈ (ofText source).tokens) :
    1 ≤ t.line ∧ t.line ≤ 1 + source.toList.count '\n' := by
  rw [tokens_ofText, List.mem_append, List.mem_singleton] at h
  rcases h with h | rfl
  · obtain ⟨p, line, hp, hpos, hle⟩ := exists_line_of_mem_readOff h
    rw [(role_of_token? hp).2.2]
    omega
  · simp only [Token.endOfInput]
    omega

lemma line_of_mem_errors {source : String} {err : LexicalError} (h : err ∈ (ofText source).errors) :
    1 ≤ err.line ∧ err.line ≤ 1 + source.toList.count '\n' := by
  rw [errors_ofText] at h
  obtain ⟨p, line, hp, hpos, hle⟩ := exists_line_of_mem_readOff h
  have hline : err.line = line := by cases p <;> cases hp <;> rfl
  omega

/-- A token that is no string stands on the line that it begins on. -/
lemma StandsAfter.count_lexeme {source : String} {before : List Char} {i : Nat} {t : Token}
    (h : StandsAfter source before i t) (hkind : t.kind ≠ .string) :
    (before ++ t.lexeme.toList).count '\n' = before.count '\n' := by
  obtain ⟨earlier, later, hcuts, -, -⟩ := h
  obtain ⟨after, hmatch⟩ := hcuts.matches_of_mem (List.mem_append_right _ List.mem_cons_self)
  rw [List.count_append, List.count_eq_zero_of_not_mem (hmatch.newline_not_mem hkind),
    Nat.add_zero]

end Scan
end LoxCalc
