import LoxCalc.Token.Scan
import Mathlib

/-!
# Maximal munch

The lexical rules as a relation between a text and what it stands for (`Lexical.Matches`), and the
cutting of a source by them (`Lexical.Cuts`): each piece is the longest beginning of what is left
that a rule matches, and a character that begins no such text is a piece by itself. There is one
such cut of every source, and the tokens and errors of a scan are read off it, piece by piece.

The rules are given by their characters alone: marks and reserved words are spelled out, each with
its kind, and nothing is looked up in the tables of the scanner. The pieces of the scanner come in
twice: what it cuts off is matched by a rule (`matches_cut`), and nothing that a rule matches is
longer (`covers_of_matches`).
-/

namespace LoxCalc
namespace Lexical

/-! ## The rules -/

/-- What a piece of source stands for. -/
inductive Role where
  | token (kind : Token.Kind) (literal : Option Literal)
  /-- White space, or a comment. -/
  | layout
  /-- A string without its closing quote. -/
  | unterminated
  /-- A character that starts nothing. -/
  | unexpected (c : Char)

/-- The decimal digits. -/
def IsDigit (c : Char) : Prop :=
  '0' ≤ c ∧ c ≤ '9'

/-- The letters of the English alphabet, and `_`. -/
def IsLetter (c : Char) : Prop :=
  ('A' ≤ c ∧ c ≤ 'Z') ∨ ('a' ≤ c ∧ c ≤ 'z') ∨ c = '_'

/-- The reserved words, each with the kind of its token. -/
def reservedWords : List (String × Token.Kind) :=
  [("and", .kwAnd), ("class", .kwClass), ("else", .kwElse), ("false", .kwFalse),
   ("for", .kwFor), ("fun", .kwFun), ("if", .kwIf), ("nil", .kwNil),
   ("or", .kwOr), ("print", .kwPrint), ("return", .kwReturn), ("super", .kwSuper),
   ("this", .kwThis), ("true", .kwTrue), ("var", .kwVar), ("while", .kwWhile)]

/-- `Matches text after role`: one of the rules matches `text` with `after` following it. Only an
unclosed string depends on what follows. -/
inductive Matches : List Char → List Char → Role → Prop where
  | mark {c : Char} {kind : Token.Kind} {after : List Char} :
      (c, kind) ∈ [('(', .leftParen), (')', .rightParen), ('{', .leftBrace), ('}', .rightBrace),
        (',', .comma), ('.', .dot), ('-', .minus), ('+', .plus), (';', .semicolon),
        ('*', Token.Kind.star)] →
      Matches [c] after (.token kind none)
  | alone {c : Char} {kind : Token.Kind} {after : List Char} :
      (c, kind) ∈ [('!', .bang), ('=', .equal), ('<', .less), ('>', Token.Kind.greater)] →
      Matches [c] after (.token kind none)
  | joined {c : Char} {kind : Token.Kind} {after : List Char} :
      (c, kind) ∈ [('!', .bangEqual), ('=', .equalEqual), ('<', .lessEqual),
        ('>', Token.Kind.greaterEqual)] →
      Matches [c, '='] after (.token kind none)
  | slash {after : List Char} : Matches ['/'] after (.token .slash none)
  | comment {body after : List Char} :
      '\n' ∉ body → Matches ('/' :: '/' :: body) after .layout
  | space {c : Char} {after : List Char} :
      c ∈ [' ', '\r', '\t', '\n'] → Matches [c] after .layout
  | string {body after : List Char} :
      '"' ∉ body →
      Matches ('"' :: (body ++ ['"'])) after (.token .string (some (.text (String.ofList body))))
  | unclosed {body : List Char} :
      '"' ∉ body → Matches ('"' :: body) [] .unterminated
  | whole {c : Char} {digits after : List Char} :
      IsDigit c → (∀ d ∈ digits, IsDigit d) →
      Matches (c :: digits) after
        (.token .number (some (.number (Piece.numberValue (c :: digits) []))))
  | decimal {c d : Char} {digits fraction after : List Char} :
      IsDigit c → (∀ d ∈ digits, IsDigit d) → IsDigit d → (∀ d ∈ fraction, IsDigit d) →
      Matches (c :: (digits ++ '.' :: d :: fraction)) after
        (.token .number (some (.number (Piece.numberValue (c :: digits) (d :: fraction)))))
  | keyword {c : Char} {cs after : List Char} {kind : Token.Kind} :
      IsLetter c → (∀ d ∈ cs, IsLetter d ∨ IsDigit d) →
      (String.ofList (c :: cs), kind) ∈ reservedWords →
      Matches (c :: cs) after (.token kind none)
  | identifier {c : Char} {cs after : List Char} :
      IsLetter c → (∀ d ∈ cs, IsLetter d ∨ IsDigit d) →
      (∀ kind, (String.ofList (c :: cs), kind) ∉ reservedWords) →
      Matches (c :: cs) after (.token .identifier none)

/-- `Cuts source pieces`: cutting off the longest text that a rule matches, or one character if none
matches, leads through the source piece by piece. -/
inductive Cuts : List Char → List (List Char × Role) → Prop where
  | done : Cuts [] []
  | longest {text after : List Char} {role : Role} {pieces : List (List Char × Role)} :
      Matches text after role →
      (∀ text' after' role', text' ++ after' = text ++ after → Matches text' after' role' →
        text'.length ≤ text.length) →
      Cuts after pieces → Cuts (text ++ after) ((text, role) :: pieces)
  | stray {c : Char} {after : List Char} {pieces : List (List Char × Role)} :
      (∀ text' after' role', text' ++ after' = c :: after → ¬Matches text' after' role') →
      Cuts after pieces → Cuts (c :: after) (([c], .unexpected c) :: pieces)

/-- The kind, text and literal of the token that a piece is, if it is one. -/
def token? : List Char × Role → Option (Token.Kind × String × Option Literal)
  | (text, .token kind literal) => some (kind, String.ofList text, literal)
  | _ => none

/-- The error that a piece is, if it is one. -/
def error? : List Char × Role → Option LexicalError.Cause
  | (_, .unexpected c) => some (.unexpected (String.singleton c))
  | (_, .unterminated) => some .unterminatedString
  | _ => none

/-! ## Characters -/

lemma isDigit_iff (c : Char) : c.isDigit = true ↔ IsDigit c := by
  simp [Char.isDigit, IsDigit, Char.le_def]

lemma startsWord_iff (c : Char) : Piece.startsWord c = true ↔ IsLetter c := by
  simp [Piece.startsWord, IsLetter, Char.isAlpha, Char.isUpper, Char.isLower, Char.le_def, or_assoc]

lemma continuesWord_iff (c : Char) : Piece.continuesWord c = true ↔ IsLetter c ∨ IsDigit c := by
  rw [Piece.continuesWord, Bool.or_eq_true, startsWord_iff, isDigit_iff]

end Lexical

namespace Piece

open Lexical

/-! ## The first piece, by its first character -/

/-- A table has no entry for a character of a class that holds none of its keys. -/
private lemma lookup_eq_none {α : Type} {p : Char → Bool} {table : List (Char × α)}
    (h : table.any (fun m => p m.1) = false) {c : Char} (hc : p c = true) :
    table.lookup c = none := by
  rw [List.lookup_eq_none_iff]
  intro m hm
  rw [bne_iff_ne]
  rintro rfl
  exact List.any_eq_false.mp h m hm hc

lemma mem_of_lookup {α β : Type} [BEq α] [LawfulBEq α] {table : List (α × β)} {a : α}
    {b : β} (h : table.lookup a = some b) : (a, b) ∈ table := by
  obtain ⟨before, after, rfl, -⟩ := List.lookup_eq_some_iff.mp h
  simp

/-- A character of a class without marks, blanks, slashes and quotes starts a number, a word or
nothing. -/
lemma cut_eq_of_class (p : Char → Bool) (hmarks : Token.Kind.marks.any (fun m => p m.1) = false)
    (hjoining : Token.Kind.joining.any (fun m => p m.1) = false)
    (hothers : ['/', ' ', '\r', '\t', '\n', '"'].any p = false) {c : Char} (hc : p c = true)
    (rest : List Char) :
    cut c rest =
      if c.isDigit then cutNumber c rest
      else if startsWord c then
        (.word (c :: rest.takeWhile continuesWord), rest.dropWhile continuesWord)
      else (.stray c, rest) := by
  have hne : ∀ d ∈ ['/', ' ', '\r', '\t', '\n', '"'], c ≠ d := by
    rintro d hd rfl
    exact List.any_eq_false.mp hothers _ hd hc
  simp only [List.forall_mem_cons] at hne
  obtain ⟨hslash, hspace, hreturn, htab, hnewline, hquote, -⟩ := hne
  have hmark : cutMark? c rest = none := by
    simp only [cutMark?, lookup_eq_none hmarks hc, lookup_eq_none hjoining hc]
  simp [cut, hmark, isBlank, hslash, hspace, hreturn, htab, hnewline, hquote]

lemma cut_isDigit {c : Char} (hc : c.isDigit = true) (rest : List Char) :
    cut c rest = cutNumber c rest := by
  rw [cut_eq_of_class Char.isDigit (by decide) (by decide) (by decide) hc, if_pos hc]

lemma cut_startsWord {c : Char} (hc : startsWord c = true) (rest : List Char) :
    cut c rest = (.word (c :: rest.takeWhile continuesWord), rest.dropWhile continuesWord) := by
  have hdigit : ¬c.isDigit = true := by
    -- The code points of the digits come before those of the letters.
    rw [isDigit_iff]
    rw [startsWord_iff] at hc
    simp only [IsLetter, IsDigit, Char.le_def, UInt32.le_iff_toNat_le] at hc ⊢
    rcases hc with h | h | rfl
    · change 65 ≤ c.val.toNat ∧ _ at h
      change ¬(_ ∧ c.val.toNat ≤ 57)
      omega
    · change 97 ≤ c.val.toNat ∧ _ at h
      change ¬(_ ∧ c.val.toNat ≤ 57)
      omega
    · decide
  rw [cut_eq_of_class startsWord (by decide) (by decide) (by decide) hc, if_neg hdigit, if_pos hc]

/-! ## What is cut off is matched by a rule -/

/-- What a piece stands for. -/
def role : Piece → Role
  | .mark kind _ => .token kind none
  | .blank _ | .newline | .comment _ => .layout
  | .string body => .token .string (some (.text (String.ofList body)))
  | .unclosed _ => .unterminated
  | .number whole fraction => .token .number (some (.number (numberValue whole fraction)))
  | .word text => .token (Token.Kind.ofWord (String.ofList text)) none
  | .stray c => .unexpected c

lemma not_mem_takeWhile_ne (c : Char) (cs : List Char) : c ∉ cs.takeWhile (· != c) := by
  intro h
  exact absurd (List.mem_takeWhile_imp h) (by simp)

private lemma isDigit_of_mem_takeWhile {d : Char} {cs : List Char}
    (h : d ∈ cs.takeWhile Char.isDigit) : IsDigit d :=
  (isDigit_iff d).mp (List.mem_takeWhile_imp h)

lemma matches_cutMark? {c : Char} {rest : List Char} {found : Piece × List Char}
    (h : cutMark? c rest = some found) : Matches found.1.text found.2 found.1.role := by
  unfold cutMark? at h
  split at h
  · next kind hkind =>
    cases h
    have hmem := mem_of_lookup hkind
    refine .mark ?_
    simp only [Token.Kind.marks, List.mem_cons] at hmem ⊢
    tauto
  · next joined alone _ hkinds =>
    have hmem := mem_of_lookup hkinds
    simp only [Token.Kind.joining, List.mem_cons, Prod.mk.injEq, List.not_mem_nil, or_false] at hmem
    split at h
    · cases h
      refine .joined ?_
      rcases hmem with ⟨rfl, rfl, rfl⟩ | ⟨rfl, rfl, rfl⟩ | ⟨rfl, rfl, rfl⟩ | ⟨rfl, rfl, rfl⟩ <;>
        simp
    · cases h
      refine .alone ?_
      rcases hmem with ⟨rfl, rfl, rfl⟩ | ⟨rfl, rfl, rfl⟩ | ⟨rfl, rfl, rfl⟩ | ⟨rfl, rfl, rfl⟩ <;>
        simp
  · cases h

lemma matches_cutSlash (rest : List Char) :
    Matches (cutSlash rest).1.text (cutSlash rest).2 (cutSlash rest).1.role := by
  unfold cutSlash
  split
  · exact .comment (not_mem_takeWhile_ne '\n' _)
  · exact .slash

lemma matches_cutString (rest : List Char) :
    Matches (cutString rest).1.text (cutString rest).2 (cutString rest).1.role := by
  have hbody := not_mem_takeWhile_ne '"' rest
  unfold cutString
  split
  · exact .unclosed hbody
  · exact .string hbody

lemma matches_cutNumber {c : Char} (hc : c.isDigit = true) (rest : List Char) :
    Matches (cutNumber c rest).1.text (cutNumber c rest).2 (cutNumber c rest).1.role := by
  have hc' := (isDigit_iff c).mp hc
  unfold cutNumber
  split
  · next d after heq =>
    -- A point belongs to the number only if a digit follows.
    split
    · next hd =>
      exact .decimal hc' (fun _ => isDigit_of_mem_takeWhile) ((isDigit_iff d).mp hd)
        (fun _ => isDigit_of_mem_takeWhile)
    · exact .whole hc' fun _ => isDigit_of_mem_takeWhile
  · exact .whole hc' fun _ => isDigit_of_mem_takeWhile

/-- The scanner reserves the words of the rules, for the same kinds. -/
lemma reserved_eq : Token.Kind.reserved = reservedWords := rfl

/-- A word is matched as the reserved word that it is, or as an identifier. -/
lemma matches_word {c : Char} {cs : List Char} (hc : IsLetter c)
    (hcs : ∀ d ∈ cs, IsLetter d ∨ IsDigit d) (after : List Char) :
    Matches (c :: cs) after (.token (Token.Kind.ofWord (String.ofList (c :: cs))) none) := by
  rw [Token.Kind.ofWord, reserved_eq]
  cases hlookup : reservedWords.lookup (String.ofList (c :: cs)) with
  | some kind => exact .keyword hc hcs (mem_of_lookup hlookup)
  | none =>
    refine .identifier hc hcs fun kind hmem => ?_
    have hne := List.lookup_eq_none_iff.mp hlookup _ hmem
    simp at hne

/-- The piece cut off is matched by a rule, unless it is a stray character. -/
theorem matches_cut (c : Char) (rest : List Char) :
    cut c rest = (.stray c, rest) ∨
      Matches (cut c rest).1.text (cut c rest).2 (cut c rest).1.role := by
  unfold cut
  split
  · next h => exact .inr (matches_cutMark? h)
  · split_ifs with hslash hblank hnewline hquote hdigit hword
    · exact .inr (matches_cutSlash rest)
    · refine .inr (.space ?_)
      simp only [isBlank, Bool.or_eq_true, beq_iff_eq] at hblank
      simp only [List.mem_cons]
      tauto
    · exact .inr (.space (by simp))
    · exact .inr (matches_cutString rest)
    · exact .inr (matches_cutNumber hdigit rest)
    · refine .inr (matches_word ((startsWord_iff c).mp hword) (fun d hd => ?_) _)
      exact (continuesWord_iff d).mp (List.mem_takeWhile_imp hd)
    · exact .inl rfl

/-! ## Nothing longer is matched -/

/-- `Covers p text role`: the piece `p` is at least as long as `text`, and if it is as long, it has
the same role. -/
def Covers (p : Piece) (text : List Char) (role : Role) : Prop :=
  text.length ≤ p.text.length ∧ (text.length = p.text.length → role = p.role)

lemma Covers.same {p : Piece} {text : List Char} {role : Role} (htext : p.text = text)
    (hrole : p.role = role) : Covers p text role := by
  subst htext
  subst hrole
  exact ⟨Nat.le_refl _, fun _ => rfl⟩

lemma Covers.longer {p : Piece} {text : List Char} {role : Role}
    (h : text.length < p.text.length) : Covers p text role :=
  ⟨Nat.le_of_lt h, fun heq => absurd heq (Nat.ne_of_lt h)⟩

lemma ne_of_not_mem {c : Char} {body : List Char} (hbody : c ∉ body) :
    ∀ d ∈ body, (d != c) = true := by
  intro d hd
  rw [bne_iff_ne]
  rintro rfl
  exact hbody hd

/-- A run of characters that is cut off holds every shorter one. -/
private lemma takeWhile_append_cases {p : Char → Bool} {cs : List Char} (hcs : ∀ d ∈ cs, p d = true)
    (after : List Char) :
    (cs ++ after).takeWhile p = cs ∨ cs.length < ((cs ++ after).takeWhile p).length := by
  rw [List.takeWhile_append_of_pos hcs, List.length_append]
  cases after.takeWhile p with
  | nil => exact .inl (List.append_nil cs)
  | cons d ds => exact .inr (Nat.lt_add_of_pos_right (Nat.succ_pos _))

lemma covers_joining {c : Char} {joined alone : Token.Kind}
    (hmark : Token.Kind.marks.lookup c = none)
    (hkinds : Token.Kind.joining.lookup c = some (joined, alone)) (rest : List Char) :
    Covers (cut c rest).1 [c] (.token alone none) := by
  unfold cut cutMark?
  simp only [hmark, hkinds]
  split
  · next found heq =>
    split at heq
    · cases heq
      exact .longer (Nat.lt_succ_self 1)
    · cases heq
      exact .same rfl rfl
  · next heq => split at heq <;> cases heq

lemma covers_slash (rest : List Char) : Covers (cut '/' rest).1 ['/'] (.token .slash none) := by
  show Covers (cutSlash rest).1 _ _
  unfold cutSlash
  split
  · next after =>
    refine .longer ?_
    simp [text]
  · exact .same rfl rfl

lemma covers_comment {body : List Char} (hbody : '\n' ∉ body) (after : List Char) :
    Covers (cut '/' ('/' :: (body ++ after))).1 ('/' :: '/' :: body) .layout := by
  show Covers (.comment ((body ++ after).takeWhile (· != '\n'))) _ _
  rcases takeWhile_append_cases (ne_of_not_mem hbody) after with h | h
  · exact .same (by rw [h]; rfl) rfl
  · exact .longer (by simpa [text] using h)

lemma cut_string {body : List Char} (hbody : '"' ∉ body) (after : List Char) :
    cut '"' (body ++ '"' :: after) = (.string body, after) := by
  show cutString _ = _
  have hall := ne_of_not_mem hbody
  unfold cutString
  rw [List.takeWhile_append_of_pos hall, List.dropWhile_append_of_pos hall]
  simp

lemma cut_unclosed {body : List Char} (hbody : '"' ∉ body) :
    cut '"' body = (.unclosed body, []) := by
  show cutString _ = _
  have hall := ne_of_not_mem hbody
  unfold cutString
  rw [List.dropWhile_eq_nil_iff.mpr hall, List.takeWhile_eq_self_iff.mpr hall]

/-- A number has all digits that follow, and a fraction only if it starts with a digit. -/
lemma cutNumber_cases (c : Char) (rest : List Char) :
    (cutNumber c rest).1 = .number (c :: rest.takeWhile Char.isDigit) [] ∨
      ∃ d fraction,
        (cutNumber c rest).1 = .number (c :: rest.takeWhile Char.isDigit) (d :: fraction) := by
  unfold cutNumber
  split
  · split_ifs
    · exact .inr ⟨_, _, rfl⟩
    · exact .inl rfl
  · exact .inl rfl

lemma covers_whole {c : Char} {digits : List Char} (hc : IsDigit c)
    (hdigits : ∀ d ∈ digits, IsDigit d) (after : List Char) :
    Covers (cut c (digits ++ after)).1 (c :: digits)
      (.token .number (some (.number (numberValue (c :: digits) [])))) := by
  have hall : ∀ d ∈ digits, d.isDigit = true := fun d hd => (isDigit_iff d).mpr (hdigits d hd)
  have hrun := takeWhile_append_cases hall after
  rw [cut_isDigit ((isDigit_iff c).mpr hc)]
  rcases cutNumber_cases c (digits ++ after) with h | ⟨d, fraction, h⟩
  · rw [h]
    rcases hrun with hrun | hrun
    · rw [hrun]
      exact .same rfl rfl
    · exact .longer (by simpa [text] using hrun)
  · -- A fraction makes the piece longer still.
    rw [h]
    refine .longer ?_
    have hle : digits.length ≤ ((digits ++ after).takeWhile Char.isDigit).length := by
      rcases hrun with hrun | hrun
      · rw [hrun]
      · exact Nat.le_of_lt hrun
    simp only [text, List.isEmpty_cons, Bool.false_eq_true, if_false, List.length_append,
      List.length_cons]
    omega

lemma covers_decimal {c d : Char} {digits fraction : List Char} (hc : IsDigit c)
    (hdigits : ∀ d ∈ digits, IsDigit d) (hd : IsDigit d) (hfraction : ∀ d ∈ fraction, IsDigit d)
    (after : List Char) :
    Covers (cut c (digits ++ '.' :: d :: (fraction ++ after))).1
      (c :: (digits ++ '.' :: d :: fraction))
      (.token .number (some (.number (numberValue (c :: digits) (d :: fraction))))) := by
  have hall : ∀ d ∈ digits, d.isDigit = true := fun d hd => (isDigit_iff d).mpr (hdigits d hd)
  have hall' : ∀ d ∈ fraction, d.isDigit = true := fun d hd => (isDigit_iff d).mpr (hfraction d hd)
  have hpoint : ¬ '.'.isDigit = true := by decide
  have hcut : (cutNumber c (digits ++ '.' :: d :: (fraction ++ after))).1 =
      .number (c :: digits) (d :: (fraction ++ after).takeWhile Char.isDigit) := by
    unfold cutNumber
    rw [List.takeWhile_append_of_pos hall, List.dropWhile_append_of_pos hall,
      List.takeWhile_cons_of_neg hpoint, List.dropWhile_cons_of_neg hpoint, List.append_nil]
    simp only [(isDigit_iff d).mpr hd, if_true]
  rw [cut_isDigit ((isDigit_iff c).mpr hc), hcut]
  rcases takeWhile_append_cases hall' after with h | h
  · rw [h]
    exact .same rfl rfl
  · exact .longer (by simpa [text] using h)

lemma covers_word {c : Char} {cs : List Char} (hc : IsLetter c)
    (hcs : ∀ d ∈ cs, IsLetter d ∨ IsDigit d) (after : List Char) :
    Covers (cut c (cs ++ after)).1 (c :: cs)
      (.token (Token.Kind.ofWord (String.ofList (c :: cs))) none) := by
  have hall : ∀ d ∈ cs, continuesWord d = true := fun d hd => (continuesWord_iff d).mpr (hcs d hd)
  rw [cut_startsWord ((startsWord_iff c).mpr hc)]
  rcases takeWhile_append_cases hall after with h | h
  · rw [h]
    exact .same rfl rfl
  · exact .longer (by simpa [text] using h)

/-- The reserved words have one kind each. -/
lemma ofWord_of_mem {word : String} {kind : Token.Kind} (h : (word, kind) ∈ reservedWords) :
    Token.Kind.ofWord word = kind := by
  simp only [reservedWords, List.mem_cons, Prod.mk.injEq, List.not_mem_nil, or_false] at h
  rcases h with ⟨rfl, rfl⟩ | ⟨rfl, rfl⟩ | ⟨rfl, rfl⟩ | ⟨rfl, rfl⟩ | ⟨rfl, rfl⟩ | ⟨rfl, rfl⟩ |
    ⟨rfl, rfl⟩ | ⟨rfl, rfl⟩ | ⟨rfl, rfl⟩ | ⟨rfl, rfl⟩ | ⟨rfl, rfl⟩ | ⟨rfl, rfl⟩ | ⟨rfl, rfl⟩ |
    ⟨rfl, rfl⟩ | ⟨rfl, rfl⟩ | ⟨rfl, rfl⟩ <;> rfl

lemma ofWord_of_not_mem {word : String} (h : ∀ kind, (word, kind) ∉ reservedWords) :
    Token.Kind.ofWord word = .identifier := by
  have hlookup : Token.Kind.reserved.lookup word = none := by
    rw [reserved_eq, List.lookup_eq_none_iff]
    rintro ⟨other, kind⟩ hmem
    rw [bne_iff_ne]
    rintro rfl
    exact h kind hmem
  simp only [Token.Kind.ofWord, hlookup, Option.getD_none]

/-- Whatever a rule matches at the beginning of a source, the piece cut off covers. -/
theorem covers_of_matches {text after : List Char} {role : Role} (h : Matches text after role)
    {c : Char} {rest : List Char} (heq : text ++ after = c :: rest) :
    Covers (cut c rest).1 text role := by
  cases h with
  | mark hmem =>
    cases heq
    simp only [List.mem_cons, Prod.mk.injEq, List.not_mem_nil, or_false] at hmem
    rcases hmem with ⟨rfl, rfl⟩ | ⟨rfl, rfl⟩ | ⟨rfl, rfl⟩ | ⟨rfl, rfl⟩ | ⟨rfl, rfl⟩ | ⟨rfl, rfl⟩ |
      ⟨rfl, rfl⟩ | ⟨rfl, rfl⟩ | ⟨rfl, rfl⟩ | ⟨rfl, rfl⟩ <;> exact .same rfl rfl
  | alone hmem =>
    cases heq
    simp only [List.mem_cons, Prod.mk.injEq, List.not_mem_nil, or_false] at hmem
    rcases hmem with ⟨rfl, rfl⟩ | ⟨rfl, rfl⟩ | ⟨rfl, rfl⟩ | ⟨rfl, rfl⟩ <;>
      exact covers_joining rfl rfl after
  | joined hmem =>
    cases heq
    simp only [List.mem_cons, Prod.mk.injEq, List.not_mem_nil, or_false] at hmem
    rcases hmem with ⟨rfl, rfl⟩ | ⟨rfl, rfl⟩ | ⟨rfl, rfl⟩ | ⟨rfl, rfl⟩ <;> exact .same rfl rfl
  | slash =>
    cases heq
    exact covers_slash after
  | comment hbody =>
    cases heq
    exact covers_comment hbody after
  | space hmem =>
    cases heq
    simp only [List.mem_cons, List.not_mem_nil, or_false] at hmem
    rcases hmem with rfl | rfl | rfl | rfl <;> exact .same rfl rfl
  | string hbody =>
    rw [List.cons_append, List.append_assoc, List.singleton_append] at heq
    obtain ⟨rfl, rfl⟩ := List.cons.inj heq
    rw [cut_string hbody]
    exact .same rfl rfl
  | unclosed hbody =>
    -- Nothing follows, so there is no quote left that could close the string.
    rw [List.append_nil] at heq
    obtain ⟨rfl, rfl⟩ := List.cons.inj heq
    rw [cut_unclosed hbody]
    exact .same rfl rfl
  | whole hc hdigits =>
    cases heq
    exact covers_whole hc hdigits after
  | decimal hc hdigits hd hfraction =>
    rw [List.cons_append, List.append_assoc, List.cons_append, List.cons_append] at heq
    obtain ⟨rfl, rfl⟩ := List.cons.inj heq
    exact covers_decimal hc hdigits hd hfraction after
  | keyword hc hcs hmem =>
    cases heq
    rw [← ofWord_of_mem hmem]
    exact covers_word hc hcs after
  | identifier hc hcs hnot =>
    cases heq
    rw [← ofWord_of_not_mem hnot]
    exact covers_word hc hcs after

/-! ## The cut of a source -/

lemma ne_nil_of_matches {text after : List Char} {role : Role} (h : Matches text after role) :
    text ≠ [] := by
  cases h <;> exact List.cons_ne_nil _ _

/-- Where a stray character is cut off, no rule matches. -/
lemma not_matches_of_stray {c : Char} {rest : List Char} (h : cut c rest = (.stray c, rest))
    {text after : List Char} {role : Role} (heq : text ++ after = c :: rest) :
    ¬Matches text after role := by
  intro hmatch
  -- A match would be as long as the stray character and have its role, which no rule gives.
  have hcovers := covers_of_matches hmatch heq
  rw [h] at hcovers
  obtain ⟨hle, hrole⟩ := hcovers
  have hpos := List.length_pos_iff.mpr (ne_nil_of_matches hmatch)
  have hunexpected : role = .unexpected c := hrole (Nat.le_antisymm hle hpos)
  subst hunexpected
  cases hmatch

/-- The pieces of a source as texts with roles. -/
def outline (source : List Char) : List (List Char × Role) :=
  (ofText source).map fun p => (p.text, p.role)

lemma outline_cons (c : Char) (rest : List Char) :
    outline (c :: rest) = ((cut c rest).1.text, (cut c rest).1.role) :: outline (cut c rest).2 := by
  rw [outline, ofText, List.map_cons]
  rfl

/-- A source is cut as the rules say. -/
theorem cuts_outline (source : List Char) : Cuts source (outline source) := by
  fun_induction ofText source with
  | case1 =>
    rw [outline, ofText, List.map_nil]
    exact .done
  | case2 c rest ih =>
    -- By induction, what is left after the first piece is cut as the rules say.
    rw [outline_cons]
    rcases matches_cut c rest with hstray | hmatch
    · rw [hstray] at ih ⊢
      exact .stray (fun _ _ _ heq => not_matches_of_stray hstray heq) ih
    · -- Any other match begins the same text, so the piece cut off covers it.
      have hcut := text_cut c rest
      have hlongest := Cuts.longest hmatch (fun text' after' role' heq hmatch' =>
        (covers_of_matches hmatch' (heq.trans hcut)).1) ih
      rwa [hcut] at hlongest

/-- There is no other cut. -/
theorem eq_outline_of_cuts {source : List Char} {pieces : List (List Char × Role)}
    (h : Cuts source pieces) : pieces = outline source := by
  induction h with
  | done => rw [outline, ofText, List.map_nil]
  | @longest text after role pieces hmatch hlongest _ ih =>
    obtain ⟨c, cs, rfl⟩ := List.exists_cons_of_ne_nil (ne_nil_of_matches hmatch)
    rw [List.cons_append]
    have hcut := text_cut c (cs ++ after)
    rcases matches_cut c (cs ++ after) with hstray | hmatch'
    · exact absurd hmatch (not_matches_of_stray hstray rfl)
    · -- The two longest texts are equally long, so they are the same.
      obtain ⟨hle, hrole⟩ := covers_of_matches hmatch (List.cons_append)
      have hlength : (c :: cs).length = (cut c (cs ++ after)).1.text.length :=
        Nat.le_antisymm hle (hlongest _ _ _ hcut hmatch')
      obtain ⟨htext, hafter⟩ := List.append_inj hcut hlength.symm
      rw [outline_cons, htext, hafter, ← hrole hlength, ih]
  | @stray c after pieces hnone _ ih =>
    rcases matches_cut c after with hstray | hmatch
    · rw [outline_cons, hstray, ih]
      rfl
    · -- A piece that a rule matches would be a match where there is none.
      exact absurd hmatch (hnone _ _ _ (text_cut c after))

lemma ne_nil_of_cuts {source : List Char} {pieces : List (List Char × Role)}
    (h : Cuts source pieces) : ∀ p ∈ pieces, p.1 ≠ [] := by
  induction h with
  | done => exact fun p hp => absurd hp List.not_mem_nil
  | longest hmatch _ _ ih => exact List.forall_mem_cons.mpr ⟨ne_nil_of_matches hmatch, ih⟩
  | stray _ _ ih => exact List.forall_mem_cons.mpr ⟨List.cons_ne_nil _ _, ih⟩

/-! ## The scan -/

lemma token?_eq (line : Int) (p : Piece) :
    (p.token? line).map (fun t => (t.kind, t.lexeme, t.literal)) =
      Lexical.token? (p.text, p.role) := by
  cases p <;> rfl

lemma error?_eq (line : Int) (p : Piece) :
    (p.error? line).map LexicalError.cause = Lexical.error? (p.text, p.role) := by
  cases p <;> rfl

/-- Reading something off each piece does not depend on the lines, if it does so for none. -/
lemma filterMap_withLines {α β : Type} (f : Piece × Nat → Option α) (g : α → β)
    (h : List Char × Role → Option β) (heq : ∀ p line, (f (p, line)).map g = h (p.text, p.role))
    (pieces : List Piece) (line : Nat) :
    ((withLines line pieces).filterMap f).map g =
      (pieces.map fun p => (p.text, p.role)).filterMap h := by
  rw [List.map_filterMap]
  induction pieces generalizing line with
  | nil => rfl
  | cons p ps ih =>
    rw [withLines, List.map_cons, List.filterMap_cons, List.filterMap_cons, heq, ih]

end Piece

namespace Scan

open Lexical

/-- Scanning is maximal munch. A source has exactly one cut by the lexical rules, whose pieces are
not empty and together are the source. The tokens are those of the pieces that are tokens, in order,
and the end of the input; the errors are those of the pieces that are errors. -/
theorem ofText_maximal_munch (source : String) :
    ∃ pieces : List (List Char × Role),
      Cuts source.toList pieces ∧ (∀ other, Cuts source.toList other → other = pieces) ∧
      pieces.flatMap (·.1) = source.toList ∧ (∀ p ∈ pieces, p.1 ≠ []) ∧
      (ofText source).tokens.map (fun t => (t.kind, t.lexeme, t.literal)) =
        pieces.filterMap token? ++ [(.eof, "", none)] ∧
      (ofText source).errors.map LexicalError.cause = pieces.filterMap error? := by
  refine ⟨Piece.outline source.toList, Piece.cuts_outline _, fun _ => Piece.eq_outline_of_cuts, ?_,
    ?_, ?_, ?_⟩
  · rw [Piece.outline, List.flatMap_map]
    exact Piece.flatMap_text_ofText source.toList
  · exact Piece.ne_nil_of_cuts (Piece.cuts_outline _)
  · rw [ofText, List.map_append]
    exact congrArg (· ++ _)
      (Piece.filterMap_withLines _ _ _ (fun p line => Piece.token?_eq line p) _ 1)
  · exact Piece.filterMap_withLines _ _ _ (fun p line => Piece.error?_eq line p) _ 1

end Scan
end LoxCalc
