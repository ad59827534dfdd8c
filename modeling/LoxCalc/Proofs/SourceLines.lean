import LoxCalc.Proofs.Lines
import LoxCalc.Proofs.PieceEnds

/-!
# The lines of a source

Every line that a scan gives is a line of the source, counted by the newlines before it
(`Scan.lines_count_newlines`). A token is on the line of its last character, an unexpected character
on its own line, and an unterminated string, which takes the rest of the source, on the last line.
-/

namespace LoxCalc

@[simp] lemma LexicalError.code_unexpected (text : String) (line : Int) :
    (LexicalError.mk (.unexpected text) line).diagnostic.code = some "L001" := rfl

namespace Piece

/-! ## Lines go down the source -/

lemma le_of_mem_withLines {line : Nat} {pieces : List Piece} {located : Piece × Nat}
    (h : located ∈ withLines line pieces) : line ≤ located.2 := by
  obtain ⟨earlier, later, -, hline⟩ := mem_withLines_iff.mp h
  omega

lemma pairwise_withLines (line : Nat) (pieces : List Piece) :
    (withLines line pieces).Pairwise fun first second => first.2 ≤ second.2 := by
  induction pieces generalizing line with
  | nil => exact .nil
  | cons p pieces ih =>
    rw [withLines, List.pairwise_cons]
    exact ⟨fun located hmem => le_of_mem_withLines hmem, ih _⟩

/-! ## What the pieces of a source give rise to -/

/-- What is read off a source comes from a piece that ends where it was cut off. -/
lemma exists_endsBefore_of_mem_readOff {α : Type} {f : Int → Piece → Option α} {line : Nat}
    {cs : List Char} {a : α} (h : a ∈ readOff f line (ofText cs)) :
    ∃ (p : Piece) (after : List Char) (own : Int), p.EndsBefore after ∧ f own p = some a := by
  obtain ⟨⟨p, own⟩, hlocated, hf⟩ := List.mem_filterMap.mp h
  obtain ⟨earlier, later, hpieces, -⟩ := mem_withLines_iff.mp hlocated
  exact ⟨p, _, own, endsBefore_of_ofText hpieces, hf⟩

lemma token?_of_layout (line : Int) (p : Piece) (h : p.role = .layout) : p.token? line = none := by
  cases p with
  | blank _ => rfl
  | newline => rfl
  | comment _ => rfl
  | _ => cases h

lemma error?_of_layout (line : Int) (p : Piece) (h : p.role = .layout) : p.error? line = none := by
  cases p with
  | unclosed _ => cases h
  | stray _ => cases h
  | _ => rfl

/-- No piece is the end of the input. -/
lemma EndsBefore.kind_ne_eof {p : Piece} {after : List Char} (h : p.EndsBefore after) {line : Int}
    {t : Token} (ht : p.token? line = some t) : t.kind ≠ .eof := by
  have hmarks : ∀ m ∈ Token.Kind.marks, m.2 ≠ .eof := by decide
  have hjoining : ∀ m ∈ Token.Kind.joining, m.2.1 ≠ .eof ∧ m.2.2 ≠ .eof := by decide
  have hreserved : ∀ m ∈ Token.Kind.reserved, m.2 ≠ .eof := by decide
  cases h <;> cases ht
  case mark.refl hc => exact hmarks _ (mem_of_lookup hc)
  case joined.refl hc => exact (hjoining _ (mem_of_lookup hc)).1
  case alone.refl hc _ => exact (hjoining _ (mem_of_lookup hc)).2
  case word.refl c cs hc hcs hafter =>
    show Token.Kind.ofWord _ ≠ _
    unfold Token.Kind.ofWord
    cases hlookup : Token.Kind.reserved.lookup (String.ofList (text (.word (c :: cs)))) with
    | none => exact nofun
    | some kind => exact hreserved _ (mem_of_lookup hlookup)
  all_goals exact nofun

lemma ne_newline_of_fitsNowhere {c : Char} (h : fitsNowhere c = true) : c ≠ '\n' := by
  intro heq
  rw [heq] at h
  exact absurd h (by decide)

lemma newlines_stray {c : Char} (h : fitsNowhere c = true) : (stray c).newlines = 0 := by
  have hne := (ne_newline_of_fitsNowhere h).symm
  show [c].count '\n' = 0
  exact List.count_eq_zero_of_not_mem fun hmem => hne (List.mem_singleton.mp hmem)

/-- An error is that of a stray character, or of a string with nothing after it. -/
lemma EndsBefore.error_cases {p : Piece} {later : List Char} (h : p.EndsBefore later) {line : Int}
    {err : LexicalError} (herr : p.error? line = some err) :
    (∃ c, p = .stray c ∧ err = ⟨.unexpected (String.singleton c), line⟩) ∨
      later = [] ∧ err = ⟨.unterminatedString, line⟩ := by
  cases h <;> cases herr
  case unclosed.refl => exact .inr ⟨rfl, rfl⟩
  case stray.refl c _ => exact .inl ⟨c, rfl, rfl⟩

end Piece

/-- The pieces of a cut make up the source. -/
lemma Lexical.Cuts.flatMap_text {source : List Char} {pieces : List (List Char × Role)}
    (h : Cuts source pieces) : pieces.flatMap (·.1) = source := by
  rw [Piece.eq_outline_of_cuts h, Piece.outline, List.flatMap_map]
  exact Piece.flatMap_text_ofText source

namespace Scan

open Lexical

/-- `FlagsAfter source before i c`: by the lexical rules, nothing starts with the character `c` that
stands where the text `before` ends, and `i` errors are cut off before it. -/
def FlagsAfter (source : String) (before : List Char) (i : Nat) (c : Char) : Prop :=
  ∃ earlier later,
    Cuts source.toList (earlier ++ ([c], .unexpected c) :: later) ∧
      earlier.flatMap (·.1) = before ∧ (earlier.filterMap error?).length = i

lemma StandsAfter.exists_after {source : String} {before : List Char} {i : Nat} {t : Token}
    (h : StandsAfter source before i t) :
    ∃ after, source.toList = before ++ t.lexeme.toList ++ after := by
  obtain ⟨earlier, later, hcuts, hbefore, -⟩ := h
  refine ⟨later.flatMap (·.1), ?_⟩
  rw [← hcuts.flatMap_text, List.flatMap_append, List.flatMap_cons, hbefore, List.append_assoc]

lemma FlagsAfter.exists_after {source : String} {before : List Char} {i : Nat} {c : Char}
    (h : FlagsAfter source before i c) : ∃ after, source.toList = before ++ c :: after := by
  obtain ⟨earlier, later, hcuts, hbefore, -⟩ := h
  refine ⟨later.flatMap (·.1), ?_⟩
  rw [← hcuts.flatMap_text, List.flatMap_append, List.flatMap_cons, hbefore]
  rfl

/-- A piece with the role of an unexpected character is a stray one. -/
lemma eq_stray_of_role {p : Piece} {c : Char} (h : p.role = .unexpected c) : p = .stray c := by
  cases p <;> cases h
  rfl

/-- The characters that the rules flag are the stray pieces. -/
theorem flagsAfter_iff {source : String} {before : List Char} {i : Nat} {c : Char} :
    FlagsAfter source before i c ↔
      ∃ earlier later, Piece.ofText source.toList = earlier ++ .stray c :: later ∧
        earlier.flatMap Piece.text = before ∧
        (Piece.readOff Piece.error? 1 earlier).length = i := by
  -- As many errors are read off pieces as there are among their outlines.
  have hcount : ∀ pieces : List Piece, (Piece.readOff Piece.error? 1 pieces).length =
      ((pieces.map fun q => (q.text, q.role)).filterMap error?).length := by
    intro pieces
    rw [← Piece.filterMap_withLines (fun located => located.1.error? located.2) _ _
      (fun q line => Piece.error?_eq line q) pieces 1, List.length_map]
    rfl
  constructor
  · intro h
    obtain ⟨earlier, later, hcuts, hbefore, hi⟩ := h
    have houtline := Piece.eq_outline_of_cuts hcuts
    obtain ⟨ps, qs, hpieces, rfl, hqs⟩ := List.map_eq_append_iff.mp houtline.symm
    obtain ⟨p, rest, rfl, hp, -⟩ := List.map_eq_cons_iff.mp hqs
    rw [eq_stray_of_role (Prod.mk.inj hp).2] at hpieces
    rw [List.flatMap_map] at hbefore
    exact ⟨ps, rest, hpieces, hbefore, (hcount ps).trans hi⟩
  · intro h
    obtain ⟨earlier, later, hpieces, hbefore, hi⟩ := h
    have hcuts := Piece.cuts_outline source.toList
    rw [Piece.outline, hpieces, List.map_append, List.map_cons] at hcuts
    exact ⟨_, _, hcuts, (List.flatMap_map _ _ _).trans hbefore, (hcount earlier).symm.trans hi⟩

/-- The newlines up to the end of a stray character are those before it. -/
lemma count_newlines_stray {source : List Char} {earlier later : List Piece} {c : Char}
    (h : Piece.ofText source = earlier ++ .stray c :: later) :
    ((earlier ++ [Piece.stray c]).flatMap Piece.text).count '\n' =
      (earlier.flatMap Piece.text).count '\n' := by
  have hown : (Piece.stray c).newlines = 0 := by
    cases Piece.endsBefore_of_ofText h with
    | stray hc => exact Piece.newlines_stray hc
  rw [List.flatMap_append, List.count_append, List.flatMap_singleton, ← Piece.newlines, hown,
    Nat.add_zero]

/-- Every error is that of a character where the rules flag one, on its line, or of an unterminated
string, on the last line. -/
theorem exists_flagsAfter {source : String} {i : Nat} {err : LexicalError}
    (h : (ofText source).errors[i]? = some err) :
    (∃ before c, FlagsAfter source before i c ∧
        err = ⟨.unexpected (String.singleton c), 1 + before.count '\n'⟩) ∨
      err = ⟨.unterminatedString, 1 + source.toList.count '\n'⟩ := by
  rw [errors_ofText] at h
  obtain ⟨earlier, p, later, hpieces, hp, hlength⟩ := Piece.exists_split_of_getElem?_readOff h
  rcases (Piece.endsBefore_of_ofText hpieces).error_cases hp with ⟨c, rfl, herr⟩ | ⟨hlast, herr⟩
  · left
    refine ⟨_, c, flagsAfter_iff.mpr ⟨earlier, later, hpieces, rfl, hlength⟩, ?_⟩
    rw [herr, count_newlines_stray hpieces, Int.natCast_add]
    rfl
  · right
    have hsource := Piece.flatMap_text_ofText source.toList
    rw [hpieces, List.append_cons, List.flatMap_append, hlast, List.append_nil] at hsource
    rw [herr, hsource, Int.natCast_add]
    rfl

/-- The errors of unexpected characters are those of the characters that the rules flag. -/
theorem getElem?_errors_eq_unexpected_iff {source : String} {i : Nat} {c : Char} {line : Int} :
    (ofText source).errors[i]? = some ⟨.unexpected (String.singleton c), line⟩ ↔
      ∃ before, FlagsAfter source before i c ∧ line = 1 + before.count '\n' := by
  constructor
  · intro h
    rcases exists_flagsAfter h with ⟨before, d, hflags, heq⟩ | heq
    · obtain ⟨hcause, hline⟩ := LexicalError.mk.inj heq
      have hd : c = d := String.singleton_inj.mp (LexicalError.Cause.unexpected.inj hcause)
      exact ⟨before, hd ▸ hflags, hline⟩
    · cases heq
  · intro h
    obtain ⟨before, hflags, rfl⟩ := h
    obtain ⟨earlier, later, hpieces, rfl, rfl⟩ := flagsAfter_iff.mp hflags
    have hline := count_newlines_stray hpieces
    rw [List.flatMap_append, List.count_append, List.flatMap_singleton, ← Piece.newlines] at hline
    rw [errors_ofText, hpieces, Piece.readOff_append, List.getElem?_append_right (Nat.le_refl _),
      Nat.sub_self, Piece.readOff_cons, Nat.add_assoc, hline, Int.natCast_add]
    rfl

lemma kind_ne_eof_of_mem_readOff {cs : List Char} {t : Token}
    (h : t ∈ Piece.readOff Piece.token? 1 (Piece.ofText cs)) : t.kind ≠ .eof := by
  obtain ⟨p, after, line, hp, ht⟩ := Piece.exists_endsBefore_of_mem_readOff h
  exact hp.kind_ne_eof ht

/-- The lines of tokens never go back. -/
lemma pairwise_lines (source : String) :
    ((ofText source).tokens.map Token.line).Pairwise (· ≤ ·) := by
  rw [List.pairwise_map, tokens_ofText, List.pairwise_append]
  refine ⟨?_, List.pairwise_singleton _ _, ?_⟩
  · apply (Piece.pairwise_withLines 1 (Piece.ofText source.toList)).filterMap
    intro first second hle s hs t ht
    have hfirst := (role_of_token? hs).2.2
    have hsecond := (role_of_token? ht).2.2
    omega
  · intro s hs t ht
    have hle := (line_of_mem_tokens (List.mem_append_left _ hs)).2
    rw [List.mem_singleton.mp ht]
    exact hle

/-- Lines count newlines. The `i`-th token, unless it is the end of the input, stands somewhere in
the source, and its line is one more than the number of newlines up to the end of its text. The
`i`-th error is that of an unexpected character, and its line is one more than the number of
newlines before that character, or it is that of an unterminated string and is on the last line. The
last token is the only end of the input; its line and that of the scan count all newlines. From one
token to the next, lines never decrease. -/
theorem lines_count_newlines (source : String) :
    (∀ (i : Nat) (t : Token), (ofText source).tokens[i]? = some t → t.kind ≠ .eof →
      ∃ before after, StandsAfter source before i t ∧
        source.toList = before ++ t.lexeme.toList ++ after ∧
        t.line = 1 + (before ++ t.lexeme.toList).count '\n') ∧
    (∀ (i : Nat) (err : LexicalError), (ofText source).errors[i]? = some err →
      (err.diagnostic.code = some "L001" ∧
        ∃ before c after, FlagsAfter source before i c ∧ source.toList = before ++ c :: after ∧
          err.cause = .unexpected (String.singleton c) ∧ err.line = 1 + before.count '\n') ∨
      (err.diagnostic.code = some "L002" ∧ err.line = 1 + source.toList.count '\n')) ∧
    (∃ tokens, (ofText source).tokens = tokens ++ [.endOfInput (1 + source.toList.count '\n')] ∧
      ∀ t ∈ tokens, t.kind ≠ .eof) ∧
    (ofText source).line = 1 + source.toList.count '\n' ∧
    ((ofText source).tokens.map Token.line).Pairwise (· ≤ ·) := by
  refine ⟨?_, ?_, ⟨_, tokens_ofText source, fun t => kind_ne_eof_of_mem_readOff⟩, rfl,
    pairwise_lines source⟩
  · intro i t ht hkind
    obtain ⟨before, hstands, hline⟩ := exists_standsAfter ht hkind
    obtain ⟨after, hafter⟩ := hstands.exists_after
    exact ⟨before, after, hstands, hafter, hline⟩
  · intro i err herr
    rcases exists_flagsAfter herr with ⟨before, c, hflags, rfl⟩ | rfl
    · obtain ⟨after, hafter⟩ := hflags.exists_after
      exact .inl ⟨rfl, before, c, after, hflags, hafter, rfl, rfl⟩
    · exact .inr ⟨rfl, rfl⟩

end Scan
end LoxCalc
