import LoxCalc.Proofs.Lines

/-!
# Scanning line by line

No piece reaches over the end of a line except a string: a source whose strings are all closed is
cut the same way when a newline and more text follow it (`Piece.ofText_append_newline`), and
scanning goes on after the newline as it would at the start, only further down.
-/

namespace LoxCalc

/-- A token moved down by a number of lines. -/
def Token.movedDown (lines : Int) (t : Token) : Token :=
  { t with line := t.line + lines }

/-- A lexical error moved down by a number of lines. -/
def LexicalError.movedDown (lines : Int) (e : LexicalError) : LexicalError :=
  { e with line := e.line + lines }

namespace Piece

/-! ## Moving down -/

lemma withLines_add (lines line : Nat) (pieces : List Piece) :
    withLines (line + lines) pieces =
      (withLines line pieces).map fun located => (located.1, located.2 + lines) := by
  induction pieces generalizing line with
  | nil => rfl
  | cons p pieces ih =>
    have hline : line + lines + p.newlines = line + p.newlines + lines := by omega
    rw [withLines, withLines, hline, ih, List.map_cons]

section

variable {α : Type} {f : Int → Piece → Option α}

/-- Something that moves down with its piece is read off pieces further down. -/
lemma readOff_add {move : α → α} {lines : Nat}
    (hmove : ∀ line p, f (line + lines) p = (f line p).map move) (line : Nat)
    (pieces : List Piece) :
    readOff f (line + lines) pieces = (readOff f line pieces).map move := by
  rw [readOff, readOff, withLines_add, List.filterMap_map, List.map_filterMap]
  congr 1
  funext located
  exact hmove located.2 located.1

/-- After a newline that itself gives rise to nothing, pieces are read off as at the start, moved
down by the line before it. -/
lemma readOff_append_newline {move : Int → α → α}
    (hmove : ∀ (lines line : Int) p, f (line + lines) p = (f line p).map (move lines))
    (hnewline : ∀ line, f line .newline = none) (ps qs : List Piece) :
    readOff f 1 (ps ++ .newline :: qs) =
      readOff f 1 ps ++ (readOff f 1 qs).map (move (1 + (ps.flatMap text).count '\n')) := by
  have hline : 1 + (ps.flatMap text).count '\n' + newline.newlines =
      1 + (1 + (ps.flatMap text).count '\n') := Nat.add_comm _ 1
  have hbelow : readOff f (1 + (ps.flatMap text).count '\n') (.newline :: qs) =
      readOff f (1 + (1 + (ps.flatMap text).count '\n')) qs := by
    rw [readOff, withLines, List.filterMap_cons, hnewline, hline]
    rfl
  rw [readOff_append, hbelow, readOff_add (hmove _), Int.natCast_add]
  rfl

end

lemma token?_add (lines line : Int) (p : Piece) :
    p.token? (line + lines) = (p.token? line).map (Token.movedDown lines) := by
  cases p <;> rfl

lemma error?_add (lines line : Int) (p : Piece) :
    p.error? (line + lines) = (p.error? line).map (LexicalError.movedDown lines) := by
  cases p <;> rfl

/-! ## Cutting before a newline

A piece that ends before a newline does not depend on what follows it. -/

section

variable {p : Char → Bool} {stop : Char}

/-- A run of characters ends where one comes that does not belong to it. -/
lemma takeWhile_append_cons_of_neg (hstop : p stop = false) (cs after : List Char) :
    (cs ++ stop :: after).takeWhile p = cs.takeWhile p := by
  rw [List.takeWhile_append, List.takeWhile_cons_of_neg (by simp [hstop]), List.append_nil]
  split
  · next hall => exact (List.takeWhile_prefix p).eq_of_length hall |>.symm
  · rfl

lemma dropWhile_append_cons_of_neg (hstop : p stop = false) (cs after : List Char) :
    (cs ++ stop :: after).dropWhile p = cs.dropWhile p ++ stop :: after := by
  rw [List.dropWhile_append, List.dropWhile_cons_of_neg (by simp [hstop])]
  split
  · next hempty => rw [List.isEmpty_iff.mp hempty, List.nil_append]
  · rfl

end

/-- What is cut off, with more text left behind it. -/
def followedBy (after : List Char) (found : Piece × List Char) : Piece × List Char :=
  (found.1, found.2 ++ after)

/-- A mark is only joined with a `=` right behind it. -/
lemma cutMark?_append {stop : Char} (hstop : stop ≠ '=') (c : Char) (rest after : List Char) :
    cutMark? c (rest ++ stop :: after) =
      (cutMark? c rest).map (followedBy (stop :: after)) := by
  unfold cutMark?
  cases Token.Kind.marks.lookup c with
  | some kind => rfl
  | none =>
    cases Token.Kind.joining.lookup c with
    | none => rfl
    | some kinds =>
      cases rest with
      | nil => simp [followedBy, hstop]
      | cons d rest =>
        by_cases hd : d = '='
        · subst hd
          rfl
        · simp [followedBy, hd]

/-- A comment ends before the newline. -/
lemma cutSlash_append_newline (rest after : List Char) :
    cutSlash (rest ++ '\n' :: after) = followedBy ('\n' :: after) (cutSlash rest) := by
  unfold cutSlash
  cases rest with
  | nil => rfl
  | cons d rest =>
    by_cases hd : d = '/'
    · subst hd
      simp only [List.cons_append, followedBy]
      rw [takeWhile_append_cons_of_neg (p := (· != '\n')) rfl,
        dropWhile_append_cons_of_neg (p := (· != '\n')) rfl]
    · simp [followedBy, hd]

/-- A string that is closed does not depend on what follows. -/
lemma cutString_append {rest : List Char} (h : ∀ body, (cutString rest).1 ≠ .unclosed body)
    (after : List Char) : cutString (rest ++ after) = followedBy after (cutString rest) := by
  unfold cutString at h ⊢
  rw [List.dropWhile_append, List.takeWhile_append]
  cases hdrop : rest.dropWhile (· != '"') with
  | nil =>
    rw [hdrop] at h
    exact absurd rfl (h _)
  | cons q closed =>
    -- The text after the body is not empty, so the body is not all of the text.
    have hshort : (rest.takeWhile (· != '"')).length ≠ rest.length := by
      have hsplit := congrArg List.length
        (List.takeWhile_append_dropWhile (p := (· != '"')) (l := rest))
      rw [hdrop, List.length_append, List.length_cons] at hsplit
      omega
    simp [followedBy, hshort]

/-- A number is not continued by what is neither a digit nor a point. -/
lemma cutNumber_append {stop : Char} (hdigit : stop.isDigit = false) (hpoint : stop ≠ '.')
    (c : Char) (rest after : List Char) :
    cutNumber c (rest ++ stop :: after) = followedBy (stop :: after) (cutNumber c rest) := by
  unfold cutNumber
  rw [takeWhile_append_cons_of_neg hdigit, dropWhile_append_cons_of_neg hdigit]
  cases rest.dropWhile Char.isDigit with
  | nil => simp [followedBy, hpoint]
  | cons d ds =>
    by_cases hd : d = '.'
    · subst hd
      cases ds with
      | nil => simp [followedBy, hdigit]
      | cons e es =>
        simp only [List.cons_append]
        split
        · simp only [followedBy]
          rw [takeWhile_append_cons_of_neg hdigit, dropWhile_append_cons_of_neg hdigit]
        · rfl
    · simp [followedBy, hd]

/-- The first piece does not reach over a newline that follows the text, unless it is a string
without its closing quote. -/
theorem cut_append_newline {c : Char} {rest : List Char}
    (h : ∀ body, (cut c rest).1 ≠ .unclosed body) (after : List Char) :
    cut c (rest ++ '\n' :: after) = followedBy ('\n' :: after) (cut c rest) := by
  unfold cut at h ⊢
  rw [cutMark?_append (by decide)]
  cases hmark : cutMark? c rest with
  | some found => rfl
  | none =>
    simp only [hmark, Option.map_none] at h ⊢
    split_ifs at h ⊢ with hslash hblank hnewline hquote hdigit hword
    · exact cutSlash_append_newline rest after
    · rfl
    · rfl
    · exact cutString_append h _
    · exact cutNumber_append (by decide) (by decide) c rest after
    · have hstop : continuesWord '\n' = false := by decide
      rw [takeWhile_append_cons_of_neg hstop, dropWhile_append_cons_of_neg hstop]
      rfl
    · rfl

/-- A source whose strings are all closed is cut the same way when a newline and more text follow,
and what follows is cut as it would be on its own. -/
theorem ofText_append_newline {source : List Char}
    (h : ∀ body, Piece.unclosed body ∉ ofText source) (after : List Char) :
    ofText (source ++ '\n' :: after) = ofText source ++ .newline :: ofText after := by
  fun_induction ofText source with
  | case1 =>
    rw [List.nil_append, ofText]
    rfl
  | case2 c rest ih =>
    have hfirst : ∀ body, (cut c rest).1 ≠ .unclosed body :=
      fun body heq => h body (heq ▸ List.mem_cons_self)
    have hlater : ∀ body, Piece.unclosed body ∉ ofText (cut c rest).2 :=
      fun body hmem => h body (List.mem_cons_of_mem _ hmem)
    rw [List.cons_append, ofText, cut_append_newline hfirst, List.cons_append]
    exact congrArg _ (ih hlater)

end Piece

namespace Scan

/-- A source that is scanned without an unterminated string has no unclosed piece. -/
lemma unclosed_not_mem {source : String}
    (h : ∀ err ∈ (ofText source).errors, err.cause ≠ .unterminatedString) (body : List Char) :
    Piece.unclosed body ∉ Piece.ofText source.toList := by
  intro hmem
  obtain ⟨earlier, later, hpieces⟩ := List.append_of_mem hmem
  have hlocated := Piece.mem_withLines_iff.mpr ⟨earlier, later, hpieces, Eq.refl (1 + _)⟩
  exact h _ (List.mem_filterMap.mpr ⟨_, hlocated, rfl⟩) rfl

/-- Scanning is done line by line. A source without an unterminated string, a newline and any text
after it have the tokens of the source up to its end and then those of the text, moved down by the
line on which the source ends; and they have the errors of both, moved down in the same way and
reported in the same words. -/
theorem scan_append_newline (source after : String)
    (h : ∀ err ∈ (ofText source).errors, err.cause ≠ .unterminatedString) :
    ∃ (tokens : List Token) (last : Int),
      (ofText source).tokens = tokens ++ [.endOfInput last] ∧
      (ofText (source ++ "\n" ++ after)).tokens =
        tokens ++ (ofText after).tokens.map (Token.movedDown last) ∧
      (ofText (source ++ "\n" ++ after)).errors =
        (ofText source).errors ++ (ofText after).errors.map (LexicalError.movedDown last) ∧
      (ofText (source ++ "\n" ++ after)).errors.map LexicalError.diagnostic =
        (ofText source).errors.map LexicalError.diagnostic ++
          ((ofText after).errors.map LexicalError.diagnostic).map
            (fun d => { d with line := d.line + last }) := by
  have hchars : (source ++ "\n" ++ after).toList = source.toList ++ '\n' :: after.toList := by
    simp
  have hpieces := Piece.ofText_append_newline (unclosed_not_mem h) after.toList
  have hcount : ((Piece.ofText source.toList).flatMap Piece.text).count '\n' =
      source.toList.count '\n' := by
    rw [Piece.flatMap_text_ofText]
  have hlast : (1 : Int) + (source.toList ++ '\n' :: after.toList).count '\n' =
      1 + after.toList.count '\n' + (1 + source.toList.count '\n') := by
    rw [List.count_append, List.count_cons_self]
    omega
  have herrors : (ofText (source ++ "\n" ++ after)).errors =
      (ofText source).errors ++
        (ofText after).errors.map (LexicalError.movedDown (1 + source.toList.count '\n')) := by
    rw [errors_ofText, errors_ofText, errors_ofText, hchars, hpieces,
      Piece.readOff_append_newline Piece.error?_add fun _ => rfl, hcount]
  refine ⟨_, _, tokens_ofText source, ?_, herrors, ?_⟩
  · rw [tokens_ofText, tokens_ofText, hchars, hpieces, hlast,
      Piece.readOff_append_newline Piece.token?_add fun _ => rfl, hcount, List.map_append,
      List.append_assoc]
    rfl
  · rw [herrors, List.map_append, List.map_map, List.map_map]
    rfl

/-- A string over two lines, a stray character and a `!`; then a `=` on the third line, which does
not join the `!` on the second, and a string that is not closed. -/
theorem scan_append_newline_join :
    (∀ err ∈ (ofText "\"a\nb\" @ !").errors, err.cause ≠ .unterminatedString) ∧
      (ofText ("\"a\nb\" @ !" ++ "\n" ++ "= \"")).tokens =
        [⟨.string, "\"a\nb\"", some (.text "a\nb"), 2⟩, ⟨.bang, "!", none, 2⟩,
          ⟨.equal, "=", none, 3⟩, .endOfInput 3] ∧
      (ofText ("\"a\nb\" @ !" ++ "\n" ++ "= \"")).errors =
        [⟨.unexpected "@", 2⟩, ⟨.unterminatedString, 3⟩] := by
  have hfirst : (ofText "\"a\nb\" @ !").tokens =
      [⟨.string, "\"a\nb\"", some (.text "a\nb"), 2⟩, ⟨.bang, "!", none, 2⟩] ++
        [.endOfInput 2] := by cbv
  have hstray : (ofText "\"a\nb\" @ !").errors = [⟨.unexpected "@", 2⟩] := by cbv
  have hsecond : (ofText "= \"").tokens = [⟨.equal, "=", none, 1⟩, .endOfInput 1] := by cbv
  have hunclosed : (ofText "= \"").errors = [⟨.unterminatedString, 1⟩] := by cbv
  have hclosed : ∀ err ∈ (ofText "\"a\nb\" @ !").errors, err.cause ≠ .unterminatedString := by
    rw [hstray]
    simp
  obtain ⟨tokens, last, hown, htokens, herrors, -⟩ :=
    scan_append_newline "\"a\nb\" @ !" "= \"" hclosed
  obtain ⟨rfl, hlast⟩ := List.append_inj' (hown.symm.trans hfirst) rfl
  obtain rfl : last = 2 := congrArg Token.line (List.singleton_inj.mp hlast)
  rw [hsecond] at htokens
  rw [hstray, hunclosed] at herrors
  exact ⟨hclosed, htokens, herrors⟩

end Scan
end LoxCalc
