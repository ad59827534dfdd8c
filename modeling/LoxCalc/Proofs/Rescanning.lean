import LoxCalc.Proofs.PrintedTree
import LoxCalc.Proofs.SourceLines

/-!
# Scanning tokens again

The tokens of a source, written out with white space between them, are scanned as the same tokens
again, whatever the white space (`Scan.scan_writtenOut`). A piece that is a token ends before white
space and before the end of the text, wherever it was cut off (`Piece.EndsBefore.before_space`).
-/

namespace LoxCalc

namespace Lexical

/-- White space: spaces, carriage returns, tabs and newlines. -/
def IsSpace (cs : List Char) : Prop :=
  ∀ c ∈ cs, c ∈ [' ', '\r', '\t', '\n']

/-- `SetOut lexemes text`: the text is the lexemes one after another, each followed by white space,
of which there may be none after the last. -/
inductive SetOut : List String → List Char → Prop where
  | nil : SetOut [] []
  | cons {lexeme : String} {lexemes : List String} {gap text : List Char} :
      IsSpace gap → (lexemes ≠ [] → gap ≠ []) → SetOut lexemes text →
      SetOut (lexeme :: lexemes) (lexeme.toList ++ (gap ++ text))

/-- `WrittenOut lexemes text`: the text is the lexemes one after another with white space between
any two of them and, if there is any, before the first and after the last. -/
def WrittenOut (lexemes : List String) (text : String) : Prop :=
  ∃ lead body, IsSpace lead ∧ SetOut lexemes body ∧ text.toList = lead ++ body

end Lexical

/-- A token that is read off a piece of some text. -/
def Token.IsCut (t : Token) : Prop :=
  ∃ (p : Piece) (after : List Char) (line : Int), p.EndsBefore after ∧ p.token? line = some t

namespace Piece

open Lexical

/-! ## White space -/

/-- The piece that a character of white space is. -/
def space (c : Char) : Piece :=
  if c = '\n' then .newline else .blank c

lemma text_space (c : Char) : (space c).text = [c] := by
  unfold space
  split
  · next hc => rw [hc]; rfl
  · rfl

lemma flatMap_text_space (cs : List Char) : (cs.map space).flatMap text = cs := by
  rw [List.flatMap_map]
  simp only [text_space]
  exact List.flatMap_singleton' cs

lemma endsBefore_space {c : Char} (hc : c ∈ [' ', '\r', '\t', '\n']) (after : List Char) :
    (space c).EndsBefore after := by
  have hcases : c = ' ' ∨ c = '\r' ∨ c = '\t' ∨ c = '\n' := by simpa using hc
  rcases hcases with rfl | rfl | rfl | rfl
  · exact .blank rfl
  · exact .blank rfl
  · exact .blank rfl
  · exact .newline

/-- White space before pieces is cut off character by character. -/
lemma Consecutive.space_append {gap : List Char} {pieces : List Piece} (hgap : IsSpace gap)
    (h : Consecutive pieces) : Consecutive (gap.map space ++ pieces) := by
  induction gap with
  | nil => exact h
  | cons c gap ih =>
    obtain ⟨hc, hgap⟩ := List.forall_mem_cons.mp hgap
    exact ⟨endsBefore_space hc _, ih hgap⟩

lemma role_space (c : Char) : (space c).role = .layout := by
  unfold space
  split <;> rfl

/-- White space only moves down what is read off after it. -/
lemma readOff_space_append {α : Type} {f : Int → Piece → Option α}
    (hlayout : ∀ line p, p.role = .layout → f line p = none) (line : Nat) (gap : List Char)
    (pieces : List Piece) :
    readOff f line (gap.map space ++ pieces) = readOff f (line + gap.count '\n') pieces := by
  have hgap : readOff f line (gap.map space) = [] := by
    induction gap generalizing line with
    | nil => rfl
    | cons c gap ih =>
      rw [List.map_cons, readOff_cons, hlayout _ _ (role_space c), ih]
      rfl
  rw [readOff_append, hgap, flatMap_text_space, List.nil_append]

/-! ## Tokens before white space -/

/-- The text is empty or starts with white space. -/
def SpaceNext (cs : List Char) : Prop :=
  ∀ c ∈ cs.head?, c ∈ [' ', '\r', '\t', '\n']

/-- White space and the end of the text end what they are no part of. -/
lemma SpaceNext.goesOn_eq_false {p : Char → Bool} {after : List Char} (h : SpaceNext after)
    (hp : [' ', '\r', '\t', '\n'].any p = false) : goesOn p after = false := by
  cases after with
  | nil => rfl
  | cons c cs => exact Bool.eq_false_iff.mpr (List.any_eq_false.mp hp c (h c rfl))

/-- A piece that is a token ends before white space and before the end of the text. -/
theorem EndsBefore.before_space {p : Piece} {after after' : List Char} (h : p.EndsBefore after)
    {line : Int} {t : Token} (ht : p.token? line = some t) (hafter : SpaceNext after') :
    p.EndsBefore after' := by
  cases h with
  | mark hc => exact .mark hc
  | joined hc => exact .joined hc
  | alone hc _ => exact .alone hc (hafter.goesOn_eq_false rfl)
  | slash _ => exact .slash (hafter.goesOn_eq_false rfl)
  | string hbody => exact .string hbody
  | whole hc hdigits _ _ =>
    refine .whole hc hdigits (hafter.goesOn_eq_false rfl) ?_
    intro tail htail
    rw [htail] at hafter
    exact absurd (hafter '.' rfl) (by decide)
  | decimal hc hdigits hd hfraction _ =>
    exact .decimal hc hdigits hd hfraction (hafter.goesOn_eq_false rfl)
  | word hc hcs _ => exact .word hc hcs (hafter.goesOn_eq_false rfl)
  | blank _ => cases ht
  | newline => cases ht
  | comment _ _ => cases ht
  | unclosed _ => cases ht
  | stray _ => cases ht

/-- A lexeme is set out before white space or the end of the text. -/
lemma spaceNext_of_setOut {lexemes : List String} {gap text : List Char} (hgap : IsSpace gap)
    (hsep : lexemes ≠ [] → gap ≠ []) (htext : SetOut lexemes text) : SpaceNext (gap ++ text) := by
  intro c hc
  cases gap with
  | cons d gap =>
    cases hc
    exact hgap c List.mem_cons_self
  | nil =>
    cases htext with
    | nil => cases hc
    | cons _ _ _ => exact absurd rfl (hsep (List.cons_ne_nil _ _))

/-! ## The pieces of what is written out -/

/-- `Gives pieces ts`: nothing but the given tokens is read off the pieces, on whatever lines. -/
def Gives (pieces : List Piece) (ts : List Token) : Prop :=
  ∀ line, readOff error? line pieces = [] ∧
    List.Forall₂ Token.SameButLine (readOff token? line pieces) ts

lemma Gives.space_append {pieces : List Piece} {ts : List Token} (h : Gives pieces ts)
    (gap : List Char) : Gives (gap.map space ++ pieces) ts := by
  intro line
  rw [readOff_space_append error?_of_layout, readOff_space_append token?_of_layout]
  exact h _

/-- A piece of a token gives this token on any line. -/
lemma sameButLine_token? {p : Piece} {line : Int} {t : Token} (h : p.token? line = some t)
    (line' : Int) : ∃ t', p.token? line' = some t' ∧ t'.SameButLine t := by
  cases p <;> cases h <;> exact ⟨_, rfl, rfl, rfl, rfl⟩

lemma error?_eq_none {p : Piece} {line : Int} {t : Token} (h : p.token? line = some t)
    (line' : Int) : p.error? line' = none := by
  cases p <;> cases h <;> rfl

lemma Gives.cons {p : Piece} {pieces : List Piece} {line : Int} {t : Token} {ts : List Token}
    (hp : p.token? line = some t) (h : Gives pieces ts) : Gives (p :: pieces) (t :: ts) := by
  intro first
  obtain ⟨t', ht', hsame⟩ := sameButLine_token? hp (first + p.newlines : Nat)
  obtain ⟨herrors, htokens⟩ := h (first + p.newlines)
  rw [readOff_cons, readOff_cons, error?_eq_none hp, ht', herrors]
  exact ⟨rfl, .cons hsame htokens⟩

/-- Tokens that are set out are cut off again. -/
theorem exists_pieces_of_setOut {ts : List Token} {body : List Char} (hts : ∀ t ∈ ts, t.IsCut)
    (h : SetOut (ts.map Token.lexeme) body) :
    ∃ pieces, Consecutive pieces ∧ pieces.flatMap text = body ∧ Gives pieces ts := by
  induction ts generalizing body with
  | nil =>
    cases h
    exact ⟨[], trivial, rfl, fun line => ⟨rfl, .nil⟩⟩
  | cons t ts ih =>
    cases h with
    | @cons _ _ gap rest hgap hsep hrest =>
      obtain ⟨⟨p, after, line, hp, ht⟩, hts⟩ := List.forall_mem_cons.mp hts
      obtain ⟨pieces, hconsecutive, hpieces, hgives⟩ := ih hts hrest
      have htext : (gap.map space ++ pieces).flatMap text = gap ++ rest := by
        rw [List.flatMap_append, flatMap_text_space, hpieces]
      refine ⟨p :: (gap.map space ++ pieces), ⟨?_, hconsecutive.space_append hgap⟩, ?_,
        (hgives.space_append gap).cons ht⟩
      · rw [htext]
        exact hp.before_space ht (spaceNext_of_setOut hgap hsep hrest)
      · rw [List.flatMap_cons, htext, (Scan.role_of_token? ht).1]

end Piece

namespace Scan

open Lexical

lemma isCut_of_mem_tokens {source : String} {t : Token}
    (h : t ∈ (ofText source).tokens.dropLast) : t.IsCut := by
  rw [tokens_ofText, List.dropLast_concat] at h
  exact Piece.exists_endsBefore_of_mem_readOff h

/-- The tokens of a source can be written out and scanned again. A text in which the lexemes of the
source, that of the end of the input left out, stand one after another with white space between them
has no lexical errors, and its tokens are those of the source up to their lines. -/
theorem scan_writtenOut (source text : String)
    (h : WrittenOut ((ofText source).tokens.dropLast.map Token.lexeme) text) :
    (ofText text).errors = [] ∧
      List.Forall₂ Token.SameButLine (ofText text).tokens (ofText source).tokens ∧
      ∃ line, (ofText text).tokens.getLast? = some (.endOfInput line) := by
  obtain ⟨lead, body, hlead, hbody, htext⟩ := h
  obtain ⟨pieces, hconsecutive, hpieces, hgives⟩ :=
    Piece.exists_pieces_of_setOut (fun t => isCut_of_mem_tokens) hbody
  have hcut : Piece.ofText text.toList = lead.map Piece.space ++ pieces := by
    rw [Piece.ofText_eq_iff, List.flatMap_append, Piece.flatMap_text_space, hpieces, htext]
    exact ⟨hconsecutive.space_append hlead, rfl⟩
  obtain ⟨herrors, htokens⟩ := hgives.space_append lead 1
  refine ⟨?_, ?_, 1 + text.toList.count '\n', ?_⟩
  · rw [errors_ofText, hcut, herrors]
  · rw [tokens_ofText, tokens_ofText, hcut]
    rw [tokens_ofText, List.dropLast_concat] at htokens
    exact List.rel_append htokens (.cons ⟨rfl, rfl, rfl⟩ .nil)
  · rw [tokens_ofText]
    exact List.getLast?_concat

/-- A string over two lines between marks, a number before a point and a character that is no token;
then the tokens with blanks and a line ending between them. -/
theorem scan_writtenOut_mixed :
    WrittenOut ((ofText "!\"a\nb\"=1.5.@").tokens.dropLast.map Token.lexeme)
        "\t! \"a\nb\" =\r\n1.5 ." ∧
      (ofText "\t! \"a\nb\" =\r\n1.5 .").errors = [] ∧
      List.Forall₂ Token.SameButLine (ofText "\t! \"a\nb\" =\r\n1.5 .").tokens
        (ofText "!\"a\nb\"=1.5.@").tokens := by
  have hpieces : Piece.ofText "!\"a\nb\"=1.5.@".toList =
      [.mark .bang ['!'], .string ['a', '\n', 'b'], .mark .equal ['='], .number ['1'] ['5'],
        .mark .dot ['.'], .stray '@'] := by
    cbv
  have hlexemes : (ofText "!\"a\nb\"=1.5.@").tokens.dropLast.map Token.lexeme =
      ["!", "\"a\nb\"", "=", "1.5", "."] := by
    rw [tokens_ofText, List.dropLast_concat, hpieces]
    rfl
  have hsep : ∀ (lexemes : List String) (c : Char) (cs : List Char), lexemes ≠ [] → c :: cs ≠ [] :=
    fun _ c cs _ => List.cons_ne_nil c cs
  have hspace : IsSpace [' '] := by simp [IsSpace]
  have hreturn : IsSpace ['\r', '\n'] := by simp [IsSpace]
  have hnone : IsSpace [] := by simp [IsSpace]
  have hset : SetOut ["!", "\"a\nb\"", "=", "1.5", "."]
      ("!".toList ++ ([' '] ++ ("\"a\nb\"".toList ++ ([' '] ++ ("=".toList ++ (['\r', '\n'] ++
        ("1.5".toList ++ ([' '] ++ (".".toList ++ ([] ++ [])))))))))) :=
    .cons hspace (hsep _ _ _) <| .cons hspace (hsep _ _ _) <| .cons hreturn (hsep _ _ _) <|
      .cons hspace (hsep _ _ _) <| .cons hnone (fun h => absurd rfl h) .nil
  have hwritten : WrittenOut ((ofText "!\"a\nb\"=1.5.@").tokens.dropLast.map Token.lexeme)
      "\t! \"a\nb\" =\r\n1.5 ." := by
    rw [hlexemes]
    exact ⟨['\t'], _, by simp [IsSpace], hset, rfl⟩
  obtain ⟨herrors, htokens, -⟩ := scan_writtenOut _ _ hwritten
  exact ⟨hwritten, herrors, htokens⟩

end Scan
end LoxCalc
