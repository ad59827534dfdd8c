import LoxCalc.Proofs.MaximalMunch

/-!
# Where pieces end

A piece ends where the text after it does not go on with it (`Piece.EndsBefore`). This determines
the cut of a text: its pieces are the ones that make it up and of which each ends before the next
(`Piece.ofText_eq_iff`). What a change of a text does to its pieces is therefore seen from the
characters that follow each of them, without cutting the new text.
-/

namespace LoxCalc
namespace Piece

/-- Whether a text goes on with a character of a class. -/
def goesOn (p : Char → Bool) (cs : List Char) : Bool :=
  cs.head?.any p

/-- Whether a character starts no piece of another sort. -/
def fitsNowhere (c : Char) : Bool :=
  (Token.Kind.marks.lookup c).isNone && (Token.Kind.joining.lookup c).isNone && c != '/' &&
    !isBlank c && c != '\n' && c != '"' && !c.isDigit && !startsWord c

/-- `EndsBefore p after`: the piece `p` is made as the rule for its first character says, and the
text `after` does not go on with it. -/
inductive EndsBefore : Piece → List Char → Prop where
  | mark {c : Char} {kind : Token.Kind} {after : List Char} :
      Token.Kind.marks.lookup c = some kind → EndsBefore (.mark kind [c]) after
  | joined {c : Char} {joined alone : Token.Kind} {after : List Char} :
      Token.Kind.joining.lookup c = some (joined, alone) → EndsBefore (.mark joined [c, '=']) after
  | alone {c : Char} {joined alone : Token.Kind} {after : List Char} :
      Token.Kind.joining.lookup c = some (joined, alone) → goesOn (· == '=') after = false →
      EndsBefore (.mark alone [c]) after
  | slash {after : List Char} :
      goesOn (· == '/') after = false → EndsBefore (.mark .slash ['/']) after
  | blank {c : Char} {after : List Char} : isBlank c = true → EndsBefore (.blank c) after
  | newline {after : List Char} : EndsBefore .newline after
  | comment {body after : List Char} :
      '\n' ∉ body → goesOn (· != '\n') after = false → EndsBefore (.comment body) after
  | string {body after : List Char} : '"' ∉ body → EndsBefore (.string body) after
  | unclosed {body : List Char} : '"' ∉ body → EndsBefore (.unclosed body) []
  | whole {c : Char} {digits after : List Char} :
      c.isDigit = true → (∀ d ∈ digits, d.isDigit = true) → goesOn Char.isDigit after = false →
      (∀ tail, after = '.' :: tail → goesOn Char.isDigit tail = false) →
      EndsBefore (.number (c :: digits) []) after
  | decimal {c d : Char} {digits fraction after : List Char} :
      c.isDigit = true → (∀ d ∈ digits, d.isDigit = true) → d.isDigit = true →
      (∀ d ∈ fraction, d.isDigit = true) → goesOn Char.isDigit after = false →
      EndsBefore (.number (c :: digits) (d :: fraction)) after
  | word {c : Char} {cs after : List Char} :
      startsWord c = true → (∀ d ∈ cs, continuesWord d = true) →
      goesOn continuesWord after = false → EndsBefore (.word (c :: cs)) after
  | stray {c : Char} {after : List Char} : fitsNowhere c = true → EndsBefore (.stray c) after

/-! ## A run of characters -/

section

variable {p : Char → Bool} {cs after : List Char}

lemma goesOn_dropWhile (p : Char → Bool) (cs : List Char) : goesOn p (cs.dropWhile p) = false := by
  have hhead := List.head?_dropWhile_not p cs
  unfold goesOn
  cases hdrop : (cs.dropWhile p).head? with
  | none => rfl
  | some d =>
    rw [hdrop] at hhead
    simpa using hhead

/-- A run of characters is cut off where the text does not go on with it. -/
lemma takeWhile_append_of_goesOn (hcs : ∀ c ∈ cs, p c = true) (hafter : goesOn p after = false) :
    (cs ++ after).takeWhile p = cs := by
  rw [List.takeWhile_append_of_pos hcs]
  cases after with
  | nil => simp
  | cons d ds => rw [List.takeWhile_cons_of_neg (by simpa [goesOn] using hafter), List.append_nil]

lemma dropWhile_append_of_goesOn (hcs : ∀ c ∈ cs, p c = true) (hafter : goesOn p after = false) :
    (cs ++ after).dropWhile p = after := by
  rw [List.dropWhile_append_of_pos hcs]
  cases after with
  | nil => rfl
  | cons d ds => exact List.dropWhile_cons_of_neg (by simpa [goesOn] using hafter)

end

/-! ## A piece is cut off where it ends -/

lemma marks_lookup_of_joining {c : Char} {kinds : Token.Kind × Token.Kind}
    (h : Token.Kind.joining.lookup c = some kinds) : Token.Kind.marks.lookup c = none := by
  have hkeys : Token.Kind.joining.all (fun m => (Token.Kind.marks.lookup m.1).isNone) = true := by
    decide
  exact Option.isNone_iff_eq_none.mp (List.all_eq_true.mp hkeys _ (mem_of_lookup h))

lemma cut_alone {c : Char} {joined alone : Token.Kind} {after : List Char}
    (h : Token.Kind.joining.lookup c = some (joined, alone))
    (hafter : goesOn (· == '=') after = false) : cut c after = (.mark alone [c], after) := by
  unfold cut cutMark?
  rw [marks_lookup_of_joining h, h]
  cases after with
  | nil => rfl
  | cons d ds =>
    have hd : d ≠ '=' := by simpa [goesOn] using hafter
    simp [hd]

lemma cut_slash {after : List Char} (hafter : goesOn (· == '/') after = false) :
    cut '/' after = (.mark .slash ['/'], after) := by
  show cutSlash after = _
  cases after with
  | nil => rfl
  | cons d ds =>
    have hd : d ≠ '/' := by simpa [goesOn] using hafter
    simp [cutSlash, hd]

lemma cut_comment {body after : List Char} (hbody : '\n' ∉ body)
    (hafter : goesOn (· != '\n') after = false) :
    cut '/' ('/' :: (body ++ after)) = (.comment body, after) := by
  have hall := ne_of_not_mem hbody
  show (Piece.comment ((body ++ after).takeWhile (· != '\n')),
    (body ++ after).dropWhile (· != '\n')) = _
  rw [takeWhile_append_of_goesOn hall hafter, dropWhile_append_of_goesOn hall hafter]

lemma cut_whole {c : Char} {digits after : List Char} (hc : c.isDigit = true)
    (hdigits : ∀ d ∈ digits, d.isDigit = true) (hafter : goesOn Char.isDigit after = false)
    (hpoint : ∀ tail, after = '.' :: tail → goesOn Char.isDigit tail = false) :
    cut c (digits ++ after) = (.number (c :: digits) [], after) := by
  rw [cut_isDigit hc, cutNumber, takeWhile_append_of_goesOn hdigits hafter,
    dropWhile_append_of_goesOn hdigits hafter]
  split
  · next d tail =>
    have hd : d.isDigit = false := hpoint _ rfl
    simp [hd]
  · rfl

lemma cut_decimal {c d : Char} {digits fraction after : List Char} (hc : c.isDigit = true)
    (hdigits : ∀ d ∈ digits, d.isDigit = true) (hd : d.isDigit = true)
    (hfraction : ∀ d ∈ fraction, d.isDigit = true) (hafter : goesOn Char.isDigit after = false) :
    cut c (digits ++ '.' :: d :: (fraction ++ after)) =
      (.number (c :: digits) (d :: fraction), after) := by
  have hpoint : goesOn Char.isDigit ('.' :: d :: (fraction ++ after)) = false := rfl
  rw [cut_isDigit hc, cutNumber, takeWhile_append_of_goesOn hdigits hpoint,
    dropWhile_append_of_goesOn hdigits hpoint]
  simp only [hd, if_true]
  rw [takeWhile_append_of_goesOn hfraction hafter, dropWhile_append_of_goesOn hfraction hafter]

lemma cut_word {c : Char} {cs after : List Char} (hc : startsWord c = true)
    (hcs : ∀ d ∈ cs, continuesWord d = true) (hafter : goesOn continuesWord after = false) :
    cut c (cs ++ after) = (.word (c :: cs), after) := by
  rw [cut_startsWord hc, takeWhile_append_of_goesOn hcs hafter,
    dropWhile_append_of_goesOn hcs hafter]

lemma cut_fitsNowhere {c : Char} (hc : fitsNowhere c = true) (after : List Char) :
    cut c after = (.stray c, after) := by
  simp only [fitsNowhere, Bool.and_eq_true, Option.isNone_iff_eq_none, bne_iff_ne, ne_eq,
    Bool.not_eq_true'] at hc
  simp [cut, cutMark?, hc]

/-- A piece that ends before a text is cut off in front of it. -/
theorem EndsBefore.cut_eq {p : Piece} {after : List Char} (h : p.EndsBefore after) :
    ∃ c cs, p.text = c :: cs ∧ cut c (cs ++ after) = (p, after) := by
  cases h with
  | mark hc => exact ⟨_, _, rfl, by simp [cut, cutMark?, hc]⟩
  | joined hc => exact ⟨_, _, rfl, by simp [cut, cutMark?, marks_lookup_of_joining hc, hc]⟩
  | alone hc hafter => exact ⟨_, _, rfl, cut_alone hc hafter⟩
  | slash hafter => exact ⟨_, _, rfl, cut_slash hafter⟩
  | @blank c _ hc =>
    refine ⟨_, _, rfl, ?_⟩
    have hcases : c = ' ' ∨ c = '\r' ∨ c = '\t' := by simpa [isBlank, or_assoc] using hc
    rcases hcases with rfl | rfl | rfl <;> rfl
  | newline => exact ⟨_, _, rfl, rfl⟩
  | comment hbody hafter => exact ⟨_, _, rfl, cut_comment hbody hafter⟩
  | string hbody =>
    refine ⟨_, _, rfl, ?_⟩
    rw [List.append_assoc]
    exact cut_string hbody _
  | unclosed hbody =>
    refine ⟨_, _, rfl, ?_⟩
    rw [List.append_nil]
    exact cut_unclosed hbody
  | whole hc hdigits hafter hpoint => exact ⟨_, _, rfl, cut_whole hc hdigits hafter hpoint⟩
  | decimal hc hdigits hd hfraction hafter =>
    refine ⟨_, _, List.cons_append, ?_⟩
    rw [List.append_assoc]
    exact cut_decimal hc hdigits hd hfraction hafter
  | word hc hcs hafter => exact ⟨_, _, rfl, cut_word hc hcs hafter⟩
  | stray hc => exact ⟨_, _, rfl, cut_fitsNowhere hc _⟩

lemma EndsBefore.text_ne_nil {p : Piece} {after : List Char} (h : p.EndsBefore after) :
    p.text ≠ [] := by
  obtain ⟨c, cs, htext, -⟩ := h.cut_eq
  rw [htext]
  exact List.cons_ne_nil c cs

/-! ## What is cut off ends there -/

lemma endsBefore_cutMark? {c : Char} {rest : List Char} {found : Piece × List Char}
    (h : cutMark? c rest = some found) : found.1.EndsBefore found.2 := by
  unfold cutMark? at h
  split at h
  · next hkind =>
    cases h
    exact .mark hkind
  · next hkinds =>
    split at h
    · cases h
      exact .joined hkinds
    · next hrest =>
      cases h
      refine .alone hkinds ?_
      cases rest with
      | nil => rfl
      | cons d ds =>
        have hd : d ≠ '=' := fun heq => hrest ds (heq ▸ rfl)
        simpa [goesOn] using hd
  · cases h

lemma endsBefore_cutSlash (rest : List Char) :
    (cutSlash rest).1.EndsBefore (cutSlash rest).2 := by
  unfold cutSlash
  split
  · exact .comment (not_mem_takeWhile_ne '\n' _) (goesOn_dropWhile _ _)
  · next hrest =>
    refine .slash ?_
    cases rest with
    | nil => rfl
    | cons d ds =>
      have hd : d ≠ '/' := fun heq => hrest ds (heq ▸ rfl)
      simpa [goesOn] using hd

lemma endsBefore_cutString (rest : List Char) :
    (cutString rest).1.EndsBefore (cutString rest).2 := by
  have hbody := not_mem_takeWhile_ne '"' rest
  unfold cutString
  split
  · exact .unclosed hbody
  · exact .string hbody

lemma endsBefore_cutNumber {c : Char} (hc : c.isDigit = true) (rest : List Char) :
    (cutNumber c rest).1.EndsBefore (cutNumber c rest).2 := by
  have hdigits : ∀ cs : List Char, ∀ d ∈ cs.takeWhile Char.isDigit, d.isDigit = true :=
    fun cs d hd => List.mem_takeWhile_imp hd
  have hafter := goesOn_dropWhile Char.isDigit rest
  unfold cutNumber
  split
  · next d after heq =>
    rw [heq] at hafter
    split
    · next hd => exact .decimal hc (hdigits rest) hd (hdigits after) (goesOn_dropWhile _ _)
    · next hd =>
      refine .whole hc (hdigits rest) hafter ?_
      intro tail htail
      cases htail
      simpa [goesOn] using hd
  · next hrest =>
    refine .whole hc (hdigits rest) hafter ?_
    intro tail htail
    -- A point with a character after it is the case before, so nothing follows the point.
    cases tail with
    | nil => rfl
    | cons d ds => exact absurd htail (hrest d ds)

/-- The first piece of a text ends before what is left after it. -/
theorem endsBefore_cut (c : Char) (rest : List Char) :
    (cut c rest).1.EndsBefore (cut c rest).2 := by
  unfold cut
  split
  · next h => exact endsBefore_cutMark? h
  · next hmark =>
    split_ifs with hslash hblank hnewline hquote hdigit hword
    · exact endsBefore_cutSlash rest
    · exact .blank hblank
    · exact .newline
    · exact endsBefore_cutString rest
    · exact endsBefore_cutNumber hdigit rest
    · exact .word hword (fun d hd => List.mem_takeWhile_imp hd) (goesOn_dropWhile _ _)
    · refine .stray ?_
      have hmarks : Token.Kind.marks.lookup c = none ∧ Token.Kind.joining.lookup c = none := by
        unfold cutMark? at hmark
        split at hmark
        · cases hmark
        · split at hmark <;> cases hmark
        · next hm hj => exact ⟨hm, hj⟩
      simp [fitsNowhere, hmarks, hslash, hblank, hnewline, hquote, hdigit, hword]

/-! ## The pieces of a text -/

/-- Each of the pieces ends before the text of those that come after it. -/
def Consecutive : List Piece → Prop
  | [] => True
  | p :: ps => p.EndsBefore (ps.flatMap text) ∧ Consecutive ps

theorem consecutive_ofText (source : List Char) : Consecutive (ofText source) := by
  fun_induction ofText source with
  | case1 => trivial
  | case2 c rest ih =>
    refine ⟨?_, ih⟩
    rw [flatMap_text_ofText]
    exact endsBefore_cut c rest

lemma Consecutive.endsBefore {earlier later : List Piece} {p : Piece}
    (h : Consecutive (earlier ++ p :: later)) : p.EndsBefore (later.flatMap text) := by
  induction earlier with
  | nil => exact h.1
  | cons q earlier ih => exact ih h.2

lemma Consecutive.eq_nil {pieces : List Piece} (h : Consecutive pieces)
    (htext : pieces.flatMap text = []) : pieces = [] := by
  cases pieces with
  | nil => rfl
  | cons p ps =>
    rw [List.flatMap_cons, List.append_eq_nil_iff] at htext
    exact absurd htext.1 h.1.text_ne_nil

/-- A piece of a source ends before the text of the pieces that come after it. -/
lemma endsBefore_of_ofText {source : List Char} {earlier later : List Piece} {p : Piece}
    (h : ofText source = earlier ++ p :: later) : p.EndsBefore (later.flatMap text) := by
  have hconsecutive := consecutive_ofText source
  rw [h] at hconsecutive
  exact hconsecutive.endsBefore

/-- Pieces of which each ends before the next are cut off one by one. -/
theorem Consecutive.ofText_flatMap {pieces : List Piece} (h : Consecutive pieces) :
    ofText (pieces.flatMap text) = pieces := by
  induction pieces with
  | nil => rw [List.flatMap_nil, ofText]
  | cons p ps ih =>
    obtain ⟨hp, hps⟩ := h
    obtain ⟨c, cs, htext, hcut⟩ := hp.cut_eq
    rw [List.flatMap_cons, htext, List.cons_append, ofText, hcut, ih hps]

/-- The pieces of a text are those that make it up and of which each ends before the next. -/
theorem ofText_eq_iff {source : List Char} {pieces : List Piece} :
    ofText source = pieces ↔ Consecutive pieces ∧ pieces.flatMap text = source := by
  constructor
  · intro h
    rw [← h]
    exact ⟨consecutive_ofText source, flatMap_text_ofText source⟩
  · intro h
    rw [← h.2]
    exact h.1.ofText_flatMap

end Piece
end LoxCalc
