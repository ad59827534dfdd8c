import LoxCalc.Token.Kind

/-!
# Pieces of source text

Source text is cut from left to right into pieces, each as long as the rule for its first
character allows: a mark, a blank, a newline, a comment, a string, a number, a word, or a character
that fits nowhere. A string that is never closed takes the rest of the text. No character is lost:
the texts of the pieces, one after another, are the source.
-/

namespace LoxCalc

/-- A piece of source text. -/
inductive Piece where
  /-- Punctuation or an operator. -/
  | mark (kind : Token.Kind) (text : List Char)
  /-- A space, carriage return or tab. -/
  | blank (c : Char)
  | newline
  /-- Two slashes and what follows them on the line. -/
  | comment (body : List Char)
  /-- What stands between two quotes. -/
  | string (body : List Char)
  /-- What follows a quote that is the last one. -/
  | unclosed (body : List Char)
  /-- Digits and, if there is a fraction, a point and its digits. -/
  | number (whole fraction : List Char)
  /-- Letters, digits and underscores, the first no digit. -/
  | word (text : List Char)
  /-- A character that starts no piece of another sort. -/
  | stray (c : Char)
  deriving DecidableEq

namespace Piece

/-- The text a piece was cut from. -/
def text : Piece → List Char
  | .mark _ text => text
  | .blank c => [c]
  | .newline => ['\n']
  | .comment body => '/' :: '/' :: body
  | .string body => '"' :: (body ++ ['"'])
  | .unclosed body => '"' :: body
  | .number whole fraction => if fraction.isEmpty then whole else whole ++ '.' :: fraction
  | .word text => text
  | .stray c => [c]

/-- The blanks that do not end a line. -/
def isBlank (c : Char) : Bool :=
  c == ' ' || c == '\r' || c == '\t'

/-- The characters a word starts with: the letters of the English alphabet and `_`. -/
def startsWord (c : Char) : Bool :=
  c.isAlpha || c == '_'

/-- The characters a word goes on with. -/
def continuesWord (c : Char) : Bool :=
  startsWord c || c.isDigit

/-- The string whose opening quote stands before the text, and what is left after it. -/
def cutString (rest : List Char) : Piece × List Char :=
  let body := rest.takeWhile (· != '"')
  match rest.dropWhile (· != '"') with
  | [] => (.unclosed body, [])
  | _ :: after => (.string body, after)

/-- The number that starts with the digit `c`, and what is left after it. A point belongs to the
number only if a digit follows. -/
def cutNumber (c : Char) (rest : List Char) : Piece × List Char :=
  let whole := c :: rest.takeWhile Char.isDigit
  match rest.dropWhile Char.isDigit with
  | '.' :: d :: after =>
    if d.isDigit then
      (.number whole (d :: after.takeWhile Char.isDigit), after.dropWhile Char.isDigit)
    else (.number whole [], '.' :: d :: after)
  | after => (.number whole [], after)

/-- The mark that starts with `c`, alone or joined with a following `=`, and what is left after
it. -/
def cutMark? (c : Char) (rest : List Char) : Option (Piece × List Char) :=
  match Token.Kind.marks.lookup c, Token.Kind.joining.lookup c with
  | some kind, _ => some (.mark kind [c], rest)
  | none, some (joined, alone) =>
    match rest with
    | '=' :: after => some (.mark joined [c, '='], after)
    | _ => some (.mark alone [c], rest)
  | none, none => none

/-- The division sign, or the comment that starts with it, and what is left after it. -/
def cutSlash (rest : List Char) : Piece × List Char :=
  match rest with
  | '/' :: after => (.comment (after.takeWhile (· != '\n')), after.dropWhile (· != '\n'))
  | _ => (.mark .slash ['/'], rest)

/-- The first piece of the text `c :: rest`, and what is left after it. -/
def cut (c : Char) (rest : List Char) : Piece × List Char :=
  match cutMark? c rest with
  | some found => found
  | none =>
    if c = '/' then cutSlash rest
    else if isBlank c then (.blank c, rest)
    else if c = '\n' then (.newline, rest)
    else if c = '"' then cutString rest
    else if c.isDigit then cutNumber c rest
    else if startsWord c then
      (.word (c :: rest.takeWhile continuesWord), rest.dropWhile continuesWord)
    else (.stray c, rest)

theorem length_dropWhile_le (p : Char → Bool) (cs : List Char) :
    (cs.dropWhile p).length ≤ cs.length :=
  (List.dropWhile_suffix p).length_le

theorem length_cutString_le (rest : List Char) : (cutString rest).2.length ≤ rest.length := by
  have h := length_dropWhile_le (· != '"') rest
  unfold cutString
  split
  · exact Nat.zero_le _
  · next heq => rw [heq] at h; exact Nat.le_of_succ_le h

theorem length_cutNumber_le (c : Char) (rest : List Char) :
    (cutNumber c rest).2.length ≤ rest.length := by
  have h := length_dropWhile_le Char.isDigit rest
  unfold cutNumber
  split
  · next d after heq =>
    rw [heq] at h
    split
    · have hafter := length_dropWhile_le Char.isDigit after
      simp only [List.length_cons] at h
      show (after.dropWhile Char.isDigit).length ≤ rest.length
      omega
    · exact h
  · exact h

theorem length_cutSlash_le (rest : List Char) : (cutSlash rest).2.length ≤ rest.length := by
  unfold cutSlash
  split
  · next after => exact Nat.le_succ_of_le (length_dropWhile_le _ after)
  · exact Nat.le_refl _

theorem length_cutMark?_le {c : Char} {rest : List Char} {found : Piece × List Char}
    (h : cutMark? c rest = some found) : found.2.length ≤ rest.length := by
  unfold cutMark? at h
  split at h
  · cases h; exact Nat.le_refl _
  · split at h
    · cases h; exact Nat.le_succ _
    · cases h; exact Nat.le_refl _
  · cases h

/-- What is left after the first piece is shorter than the text. -/
theorem length_cut_le (c : Char) (rest : List Char) : (cut c rest).2.length ≤ rest.length := by
  unfold cut
  split
  · next h => exact length_cutMark?_le h
  · split
    · exact length_cutSlash_le rest
    split
    · exact Nat.le_refl _
    split
    · exact Nat.le_refl _
    split
    · exact length_cutString_le rest
    split
    · exact length_cutNumber_le c rest
    split
    · exact length_dropWhile_le _ rest
    · exact Nat.le_refl _

/-- All pieces of a text, in order. -/
def ofText : List Char → List Piece
  | [] => []
  | c :: rest => (cut c rest).1 :: ofText (cut c rest).2
termination_by source => source.length
decreasing_by exact Nat.lt_succ_of_le (length_cut_le c rest)

/-! ## No character is lost -/

theorem text_cutString (rest : List Char) :
    (cutString rest).1.text ++ (cutString rest).2 = '"' :: rest := by
  have h := List.takeWhile_append_dropWhile (p := (· != '"')) (l := rest)
  unfold cutString
  split
  · next heq => rw [heq, List.append_nil] at h; simp [text, h]
  · next q after heq =>
    -- The dropped part starts with the quote that ended the body.
    have hq : q = '"' := by
      have hhead := List.head?_dropWhile_not (· != '"') rest
      rw [heq] at hhead
      simpa using hhead
    rw [heq, hq] at h
    simp [text, h]

theorem text_cutNumber (c : Char) (rest : List Char) :
    (cutNumber c rest).1.text ++ (cutNumber c rest).2 = c :: rest := by
  have h := List.takeWhile_append_dropWhile (p := Char.isDigit) (l := rest)
  unfold cutNumber
  split
  · next d after heq =>
    rw [heq] at h
    split
    · have hafter := List.takeWhile_append_dropWhile (p := Char.isDigit) (l := after)
      simp [text, hafter, h]
    · simp [text, h]
  · simp [text, h]

theorem text_cutSlash (rest : List Char) :
    (cutSlash rest).1.text ++ (cutSlash rest).2 = '/' :: rest := by
  unfold cutSlash
  split
  · simp [text, List.takeWhile_append_dropWhile]
  · simp [text]

theorem text_cutMark? {c : Char} {rest : List Char} {found : Piece × List Char}
    (h : cutMark? c rest = some found) : found.1.text ++ found.2 = c :: rest := by
  unfold cutMark? at h
  split at h
  · cases h; simp [text]
  · split at h <;> cases h <;> simp [text]
  · cases h

/-- The first piece and what is left after it make up the text. -/
theorem text_cut (c : Char) (rest : List Char) :
    (cut c rest).1.text ++ (cut c rest).2 = c :: rest := by
  unfold cut
  split
  · next h => exact text_cutMark? h
  · split
    · next hc => rw [hc]; exact text_cutSlash rest
    split
    · simp [text]
    split
    · next hc => simp [text, hc]
    split
    · next hc => rw [hc]; exact text_cutString rest
    split
    · exact text_cutNumber c rest
    split
    · simp [text, List.takeWhile_append_dropWhile]
    · simp [text]

/-- The pieces of a text, one after another, are the text. -/
theorem flatMap_text_ofText (source : List Char) : (ofText source).flatMap text = source := by
  fun_induction ofText source with
  | case1 => rfl
  | case2 c rest ih => rw [List.flatMap_cons, ih, text_cut]

end Piece
end LoxCalc
