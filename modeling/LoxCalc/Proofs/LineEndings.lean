import LoxCalc.Proofs.SourceLines

/-!
# Line endings

A carriage return before each newline of a source changes nothing but the strings that hold newlines
(`Scan.scan_crlf`). Between pieces it is a blank, and at the end of a comment it is the last
character of the comment (`Piece.crlfAll`); no piece ends elsewhere because of it
(`Piece.EndsBefore.crlf`).
-/

namespace LoxCalc

/-! ## Carriage returns before newlines -/

namespace Text

/-- The text with a carriage return before each newline. -/
def crlf (cs : List Char) : List Char :=
  cs.flatMap fun c => if c = '\n' then ['\r', '\n'] else [c]

@[simp] lemma crlf_nil : crlf [] = [] := rfl

@[simp] lemma crlf_newline (cs : List Char) : crlf ('\n' :: cs) = '\r' :: '\n' :: crlf cs := rfl

lemma crlf_cons_of_ne {c : Char} (hc : c ≠ '\n') (cs : List Char) :
    crlf (c :: cs) = c :: crlf cs := by
  rw [crlf, List.flatMap_cons, if_neg hc]
  rfl

lemma crlf_append (cs ds : List Char) : crlf (cs ++ ds) = crlf cs ++ crlf ds :=
  List.flatMap_append

lemma crlf_of_not_mem {cs : List Char} (h : '\n' ∉ cs) : crlf cs = cs := by
  induction cs with
  | nil => rfl
  | cons c cs ih =>
    rw [List.mem_cons, not_or] at h
    rw [crlf_cons_of_ne (Ne.symm h.1), ih h.2]

lemma count_newlines_crlf (cs : List Char) : (crlf cs).count '\n' = cs.count '\n' := by
  induction cs with
  | nil => rfl
  | cons c cs ih =>
    by_cases hc : c = '\n'
    · rw [hc, crlf_newline, List.count_cons_of_ne (by decide), List.count_cons_self,
        List.count_cons_self, ih]
    · rw [crlf_cons_of_ne hc, List.count_cons_of_ne hc, List.count_cons_of_ne hc, ih]

/-- No character comes in but carriage returns. -/
lemma mem_of_mem_crlf {c : Char} {cs : List Char} (h : c ∈ crlf cs) (hc : c ≠ '\r') : c ∈ cs := by
  obtain ⟨d, hd, hmem⟩ := List.mem_flatMap.mp h
  by_cases hnewline : d = '\n'
  · rw [if_pos hnewline] at hmem
    have hcases : c = '\r' ∨ c = '\n' := by simpa using hmem
    rw [hcases.resolve_left hc, ← hnewline]
    exact hd
  · rw [if_neg hnewline, List.mem_singleton] at hmem
    rw [hmem]
    exact hd

/-- What starts with anything but a carriage return started with it before. -/
lemma exists_of_crlf_eq_cons {c : Char} {cs ds : List Char} (h : crlf cs = c :: ds)
    (hc : c ≠ '\r') : ∃ es, cs = c :: es ∧ ds = crlf es := by
  cases cs with
  | nil => cases h
  | cons d es =>
    by_cases hd : d = '\n'
    · rw [hd, crlf_newline] at h
      exact absurd (List.cons.inj h).1.symm hc
    · rw [crlf_cons_of_ne hd] at h
      obtain ⟨heq, htail⟩ := List.cons.inj h
      exact ⟨es, by rw [heq], htail.symm⟩

end Text

/-- The source with a carriage return before each newline. -/
def crlf (source : String) : String :=
  String.ofList (Text.crlf source.toList)

lemma toList_crlf (source : String) : (crlf source).toList = Text.crlf source.toList :=
  String.toList_ofList

lemma crlf_ofList (cs : List Char) : crlf (String.ofList cs) = String.ofList (Text.crlf cs) := by
  rw [crlf, String.toList_ofList]

/-- A literal with a carriage return before each newline. -/
def Literal.crlf : Literal → Literal
  | .number x => .number x
  | .text s => .text (LoxCalc.crlf s)

/-- A token with a carriage return before each newline of its lexeme and its literal. -/
def Token.crlf (t : Token) : Token :=
  { t with lexeme := LoxCalc.crlf t.lexeme, literal := t.literal.map Literal.crlf }

namespace Piece

/-! ## Pieces with carriage returns -/

/-- Whether newlines may stand in a piece. -/
def spansLines : Piece → Bool
  | .newline | .string _ | .unclosed _ => true
  | _ => false

/-- A run of characters of a class without newlines has none. -/
private lemma newline_not_mem_of_class {p : Char → Bool} (hp : p '\n' = false) {cs : List Char}
    (h : ∀ c ∈ cs, p c = true) : '\n' ∉ cs := by
  intro hmem
  rw [h _ hmem] at hp
  cases hp

private lemma ne_newline_of_lookup {α : Type} {table : List (Char × α)}
    (htable : table.lookup '\n' = none) {c : Char} {a : α} (h : table.lookup c = some a) :
    '\n' ≠ c := by
  intro heq
  rw [← heq, htable] at h
  cases h

lemma EndsBefore.newline_not_mem {p : Piece} {after : List Char} (h : p.EndsBefore after)
    (hp : p.spansLines = false) : '\n' ∉ p.text := by
  have hdigits : ∀ cs : List Char, (∀ c ∈ cs, c.isDigit = true) → '\n' ∉ cs :=
    fun cs => newline_not_mem_of_class rfl
  cases h with
  | mark hc => simpa [text] using ne_newline_of_lookup rfl hc
  | joined hc => simpa [text] using ne_newline_of_lookup rfl hc
  | alone hc _ => simpa [text] using ne_newline_of_lookup rfl hc
  | slash _ => decide
  | blank hc => exact newline_not_mem_of_class (p := isBlank) rfl (by simpa [text] using hc)
  | comment hbody _ => simpa [text] using hbody
  | whole hc hcs _ _ => exact hdigits _ (List.forall_mem_cons.mpr ⟨hc, hcs⟩)
  | @decimal c d digits fraction _ hc hcs hd hds _ =>
    have hwhole := hdigits (c :: digits) (List.forall_mem_cons.mpr ⟨hc, hcs⟩)
    have hfraction := hdigits (d :: fraction) (List.forall_mem_cons.mpr ⟨hd, hds⟩)
    intro hmem
    rcases List.mem_append.mp hmem with hmem | hmem
    · exact hwhole hmem
    · exact hfraction ((List.mem_cons.mp hmem).resolve_left (by decide))
  | word hc hcs _ =>
    refine newline_not_mem_of_class (p := continuesWord) rfl (List.forall_mem_cons.mpr ⟨?_, hcs⟩)
    rw [continuesWord, hc, Bool.true_or]
  | stray hc =>
    show '\n' ∉ [_]
    rw [List.mem_singleton]
    exact (ne_newline_of_fitsNowhere hc).symm
  | newline => cases hp
  | string _ => cases hp
  | unclosed _ => cases hp

/-- A piece with a carriage return before each newline in its string. -/
def crlf : Piece → Piece
  | .string body => .string (Text.crlf body)
  | .unclosed body => .unclosed (Text.crlf body)
  | p => p

/-- Pieces with a carriage return before each newline: the one at the end of a comment goes into the
comment. -/
def crlfAll : List Piece → List Piece
  | [] => []
  | .comment body :: .newline :: ps => .comment (body ++ ['\r']) :: .newline :: crlfAll ps
  | .newline :: ps => .blank '\r' :: .newline :: crlfAll ps
  | p :: ps => p.crlf :: crlfAll ps

lemma crlf_of_not_spansLines {p : Piece} (h : p.spansLines = false) : p.crlf = p := by
  cases p with
  | newline => cases h
  | string _ => cases h
  | unclosed _ => cases h
  | _ => rfl

lemma EndsBefore.text_crlf {p : Piece} {after : List Char} (h : p.EndsBefore after)
    (hp : p ≠ .newline) : p.crlf.text = Text.crlf p.text := by
  cases hspans : p.spansLines with
  | false => rw [crlf_of_not_spansLines hspans, Text.crlf_of_not_mem (h.newline_not_mem hspans)]
  | true =>
    cases p with
    | string body =>
      show '"' :: (Text.crlf body ++ ['"']) = Text.crlf ('"' :: (body ++ ['"']))
      rw [Text.crlf_cons_of_ne (by decide), Text.crlf_append]
      rfl
    | unclosed body => exact (Text.crlf_cons_of_ne (by decide) body).symm
    | newline => exact absurd rfl hp
    | _ => cases hspans

/-- The pieces with carriage returns make up the text with carriage returns. -/
theorem Consecutive.flatMap_text_crlfAll {pieces : List Piece} (h : Consecutive pieces) :
    (crlfAll pieces).flatMap text = Text.crlf (pieces.flatMap text) := by
  fun_induction crlfAll pieces with
  | case1 => rfl
  | case2 body ps ih =>
    have hcomment : Text.crlf (Piece.comment body).text = (Piece.comment body).text :=
      Text.crlf_of_not_mem (h.1.newline_not_mem rfl)
    rw [List.flatMap_cons, List.flatMap_cons, List.flatMap_cons, List.flatMap_cons,
      Text.crlf_append, Text.crlf_append, hcomment, ih h.2.2]
    simp [text]
  | case3 ps ih =>
    rw [List.flatMap_cons, List.flatMap_cons, List.flatMap_cons, Text.crlf_append, ih h.2]
    rfl
  | case4 p ps _ hp ih =>
    rw [List.flatMap_cons, List.flatMap_cons, Text.crlf_append, ih h.2, h.1.text_crlf hp]

/-! ## They end where they did -/

lemma goesOn_crlf {p : Char → Bool} {cs : List Char} (hp : p '\r' = false)
    (h : goesOn p cs = false) : goesOn p (Text.crlf cs) = false := by
  cases cs with
  | nil => rfl
  | cons c cs =>
    by_cases hc : c = '\n'
    · rw [hc]
      exact hp
    · rw [Text.crlf_cons_of_ne hc]
      exact h

lemma quote_not_mem_crlf {body : List Char} (h : '"' ∉ body) : '"' ∉ Text.crlf body :=
  fun hmem => h (Text.mem_of_mem_crlf hmem (by decide))

/-- A piece other than a comment ends before carriage returns as it does before newlines. -/
theorem EndsBefore.crlf {p : Piece} {after : List Char} (h : p.EndsBefore after)
    (hp : ∀ body, p ≠ .comment body) : p.crlf.EndsBefore (Text.crlf after) := by
  cases h with
  | mark hc => exact .mark hc
  | joined hc => exact .joined hc
  | alone hc hends => exact .alone hc (goesOn_crlf rfl hends)
  | slash hends => exact .slash (goesOn_crlf rfl hends)
  | blank hc => exact .blank hc
  | newline => exact .newline
  | comment _ _ => exact absurd rfl (hp _)
  | string hbody => exact .string (quote_not_mem_crlf hbody)
  | unclosed hbody => exact .unclosed (quote_not_mem_crlf hbody)
  | whole hc hdigits hends hpoint =>
    refine .whole hc hdigits (goesOn_crlf rfl hends) ?_
    intro tail htail
    obtain ⟨es, hafter, rfl⟩ := Text.exists_of_crlf_eq_cons htail (by decide)
    exact goesOn_crlf rfl (hpoint es hafter)
  | decimal hc hdigits hd hfraction hends =>
    exact .decimal hc hdigits hd hfraction (goesOn_crlf rfl hends)
  | word hc hcs hends => exact .word hc hcs (goesOn_crlf rfl hends)
  | stray hc => exact .stray hc

/-- Only a newline starts with one. -/
lemma EndsBefore.eq_newline {p : Piece} {after cs : List Char} (h : p.EndsBefore after)
    (htext : p.text = '\n' :: cs) : p = .newline := by
  obtain ⟨c, ds, heq, hcut⟩ := h.cut_eq
  rw [htext] at heq
  obtain ⟨rfl, -⟩ := List.cons.inj heq
  exact (Prod.mk.inj hcut).1.symm

/-- A comment that is not followed by a newline is the last piece. -/
lemma Consecutive.eq_nil_of_comment {body : List Char} {pieces : List Piece}
    (h : Consecutive (.comment body :: pieces)) (hnext : ∀ ps, pieces ≠ .newline :: ps) :
    pieces = [] := by
  cases pieces with
  | nil => rfl
  | cons p ps =>
    obtain ⟨c, cs, htext, -⟩ := h.2.1.cut_eq
    cases h.1 with
    | comment _ hends =>
      rw [List.flatMap_cons, htext] at hends
      have hc : c = '\n' := by simpa [goesOn] using hends
      rw [hc] at htext
      exact absurd (by rw [h.2.1.eq_newline htext]) (hnext ps)

theorem Consecutive.crlfAll {pieces : List Piece} (h : Consecutive pieces) :
    Consecutive (crlfAll pieces) := by
  fun_induction Piece.crlfAll pieces with
  | case1 => trivial
  | case2 body ps ih =>
    refine ⟨?_, .newline, ih h.2.2⟩
    cases h.1 with
    | comment hbody _ => exact .comment (by simpa using hbody) rfl
  | case3 ps ih => exact ⟨.blank rfl, .newline, ih h.2⟩
  | case4 p ps hcomment hp ih =>
    refine ⟨?_, ih h.2⟩
    rw [h.2.flatMap_text_crlfAll]
    by_cases hp' : ∀ body, p ≠ .comment body
    · exact h.1.crlf hp'
    · obtain ⟨body, rfl⟩ := not_forall_not.mp hp'
      obtain rfl := h.eq_nil_of_comment fun qs heq => hcomment body qs rfl heq
      exact h.1

/-! ## What is read off -/

lemma newlines_crlf (p : Piece) : p.crlf.newlines = p.newlines := by
  cases p with
  | string body =>
    show ('"' :: (Text.crlf body ++ ['"'])).count '\n' = ('"' :: (body ++ ['"'])).count '\n'
    rw [List.count_cons, List.count_cons, List.count_append, List.count_append,
      Text.count_newlines_crlf]
  | unclosed body =>
    show ('"' :: Text.crlf body).count '\n' = ('"' :: body).count '\n'
    rw [List.count_cons, List.count_cons, Text.count_newlines_crlf]
  | _ => rfl

/-- What is read off pieces changes as it does for each of them, if nothing is read off layout. -/
theorem Consecutive.readOff_crlfAll {α : Type} {f : Int → Piece → Option α} {change : α → α}
    {pieces : List Piece} (h : Consecutive pieces)
    (hlayout : ∀ line p, p.role = .layout → f line p = none)
    (hf : ∀ line p after, EndsBefore p after → f line p.crlf = (f line p).map change)
    (line : Nat) :
    readOff f line (Piece.crlfAll pieces) = (readOff f line pieces).map change := by
  fun_induction Piece.crlfAll pieces generalizing line with
  | case1 => rfl
  | case2 body ps ih =>
    have hnewlines : (comment (body ++ ['\r'])).newlines = (comment body).newlines := by
      simp [newlines, text]
    simp only [readOff_cons, hlayout _ (.comment _) rfl, hlayout _ .newline rfl, hnewlines,
      Option.toList_none, List.nil_append, ih h.2.2]
  | case3 ps ih =>
    have hnewlines : (blank '\r').newlines = 0 := rfl
    simp only [readOff_cons, hlayout _ (.blank _) rfl, hlayout _ .newline rfl, hnewlines,
      Nat.add_zero, Option.toList_none, List.nil_append, ih h.2]
  | case4 p ps _ _ ih =>
    rw [readOff_cons, readOff_cons, newlines_crlf, hf _ p _ h.1, ih h.2, List.map_append]
    cases f (line + p.newlines : Nat) p <;> rfl

/-- A token without newlines stays as it is. -/
lemma crlf_eq_self_of_token? {p : Piece} {line : Int} {t : Token} (ht : p.token? line = some t)
    (hnewline : '\n' ∉ p.text) : t.crlf = t := by
  have hlexeme : LoxCalc.crlf t.lexeme = t.lexeme := by
    rw [(Scan.role_of_token? ht).1] at hnewline
    rw [LoxCalc.crlf, Text.crlf_of_not_mem hnewline, String.ofList_toList]
  have hliteral : t.literal.map Literal.crlf = t.literal := by
    cases p with
    | string body =>
      cases ht
      have hbody : '\n' ∉ body := fun hmem =>
        hnewline (List.mem_cons_of_mem _ (List.mem_append_left _ hmem))
      show some (Literal.text (LoxCalc.crlf (String.ofList body))) = _
      rw [crlf_ofList, Text.crlf_of_not_mem hbody]
    | mark => cases ht; rfl
    | number => cases ht; rfl
    | word => cases ht; rfl
    | _ => cases ht
  rw [Token.crlf, hlexeme, hliteral]

lemma EndsBefore.token?_crlf {p : Piece} {after : List Char} (h : p.EndsBefore after)
    (line : Int) : p.crlf.token? line = (p.token? line).map Token.crlf := by
  cases hspans : p.spansLines with
  | false =>
    rw [crlf_of_not_spansLines hspans]
    cases ht : p.token? line with
    | none => rfl
    | some t =>
      rw [Option.map_some, crlf_eq_self_of_token? ht (h.newline_not_mem hspans)]
  | true =>
    cases p with
    | string body =>
      have htext : (Piece.string (Text.crlf body)).text = Text.crlf (Piece.string body).text :=
        h.text_crlf nofun
      show some (Token.mk _ (String.ofList (Piece.string (Text.crlf body)).text) _ _) = _
      rw [htext, ← crlf_ofList, ← crlf_ofList]
      rfl
    | newline => rfl
    | unclosed body => rfl
    | _ => cases hspans

lemma error?_crlf (line : Int) (p : Piece) : p.crlf.error? line = p.error? line := by
  cases p <;> rfl

end Piece

namespace Scan

/-- The pieces of a source with carriage returns. -/
theorem ofText_crlf (source : String) :
    Piece.ofText (crlf source).toList = Piece.crlfAll (Piece.ofText source.toList) := by
  have hconsecutive := Piece.consecutive_ofText source.toList
  rw [Piece.ofText_eq_iff, hconsecutive.flatMap_text_crlfAll, Piece.flatMap_text_ofText,
    toList_crlf]
  exact ⟨hconsecutive.crlfAll, rfl⟩

/-- A carriage return changes no token but the strings that hold newlines. -/
lemma crlf_eq_self_or {source : String} {t : Token} (h : t ∈ (ofText source).tokens) :
    t.crlf = t ∨ t.kind = .string ∧ '\n' ∈ t.lexeme.toList := by
  rw [tokens_ofText, List.mem_append, List.mem_singleton] at h
  rcases h with h | rfl
  · obtain ⟨p, after, line, hp, ht⟩ := Piece.exists_endsBefore_of_mem_readOff h
    by_cases hnewline : '\n' ∈ p.text
    · right
      refine ⟨?_, (role_of_token? ht).1 ▸ hnewline⟩
      cases p with
      | string body => cases ht; rfl
      | newline => cases ht
      | unclosed body => cases ht
      | _ => exact absurd hnewline (hp.newline_not_mem rfl)
    · exact .inl (Piece.crlf_eq_self_of_token? ht hnewline)
  · exact .inl rfl

/-- Carriage returns before newlines do not matter. A source with them has the tokens of the source,
with them in the lexemes and strings, on the same lines; these are other tokens only where a string
holds a newline. The errors, and so the words they are reported in, and the last line are the
same. -/
theorem scan_crlf (source : String) :
    (ofText (crlf source)).tokens = (ofText source).tokens.map Token.crlf ∧
    (∀ t ∈ (ofText source).tokens, t.crlf = t ∨ t.kind = .string ∧ '\n' ∈ t.lexeme.toList) ∧
    (ofText (crlf source)).errors = (ofText source).errors ∧
    (ofText (crlf source)).line = (ofText source).line := by
  have hconsecutive := Piece.consecutive_ofText source.toList
  have hlast : (crlf source).toList.count '\n' = source.toList.count '\n' := by
    rw [toList_crlf, Text.count_newlines_crlf]
  have htokens : (ofText (crlf source)).tokens = (ofText source).tokens.map Token.crlf := by
    rw [tokens_ofText, tokens_ofText, ofText_crlf, hlast,
      hconsecutive.readOff_crlfAll Piece.token?_of_layout
        fun line p after hp => hp.token?_crlf line,
      List.map_append]
    rfl
  have herrors : (ofText (crlf source)).errors = (ofText source).errors := by
    rw [errors_ofText, errors_ofText, ofText_crlf,
      hconsecutive.readOff_crlfAll Piece.error?_of_layout
        fun line p after _ => (Piece.error?_crlf line p).trans Option.map_id'.symm,
      List.map_id']
  refine ⟨htokens, fun t => crlf_eq_self_or, herrors, ?_⟩
  show (1 : Int) + _ = 1 + _
  rw [hlast]

end Scan
end LoxCalc
