import LoxCalc.Proofs.SourceLines

/-!
# Stray characters

An unexpected character is skipped: a source with a space for each of them has the same tokens, and
the same errors but for theirs (`Scan.scan_blankFlagged`). A stray character and a space end the
same pieces, so when one takes the place of the other, every other piece still ends where it did
(`Piece.EndsBefore.blankStray`).
-/

namespace LoxCalc

namespace Piece

/-! ## Spaces for stray characters -/

/-- A piece, or a space if it is a stray character. -/
def blankStray : Piece → Piece
  | .stray _ => .blank ' '
  | p => p

/-- `Blanks c d`: where `c` stood, `d` stands after stray characters have given way to spaces. -/
def Blanks (c d : Char) : Prop :=
  d = c ∨ fitsNowhere c = true ∧ d = ' '

lemma EndsBefore.forall₂_blanks {p : Piece} {after : List Char} (h : p.EndsBefore after) :
    List.Forall₂ Blanks p.text p.blankStray.text := by
  cases h with
  | stray hc => exact .cons (.inr ⟨hc, rfl⟩) .nil
  | _ => exact List.forall₂_same.mpr fun c _ => .inl rfl

lemma Consecutive.forall₂_blanks {pieces : List Piece} (h : Consecutive pieces) :
    List.Forall₂ Blanks (pieces.flatMap text) ((pieces.map blankStray).flatMap text) := by
  induction pieces with
  | nil => exact .nil
  | cons p pieces ih =>
    rw [List.map_cons, List.flatMap_cons, List.flatMap_cons]
    exact List.rel_append h.1.forall₂_blanks (ih h.2)

lemma count_newlines_of_blanks {cs ds : List Char} (h : List.Forall₂ Blanks cs ds) :
    ds.count '\n' = cs.count '\n' := by
  induction h with
  | nil => rfl
  | @cons c d cs ds hd _ ih =>
    rcases hd with rfl | ⟨hstray, rfl⟩
    · rw [List.count_cons, List.count_cons, ih]
    · rw [List.count_cons_of_ne (by decide),
        List.count_cons_of_ne (ne_newline_of_fitsNowhere hstray), ih]

/-- A text that does not go on with a class still does not when stray characters give way to spaces,
if a space ends the class wherever a stray character does. -/
lemma goesOn_of_blanks {p : Char → Bool} {cs ds : List Char} (h : List.Forall₂ Blanks cs ds)
    (hspace : ∀ c, fitsNowhere c = true → p c = false → p ' ' = false)
    (hcs : goesOn p cs = false) : goesOn p ds = false := by
  cases h with
  | nil => rfl
  | @cons c d cs ds hd _ =>
    have hc : p c = false := hcs
    show p d = false
    rcases hd with heq | ⟨hstray, heq⟩
    · rw [heq, hc]
    · rw [heq, hspace c hstray hc]

/-- A piece still ends where it did when stray characters after it give way to spaces. -/
theorem EndsBefore.blankStray {p : Piece} {after after' : List Char} (h : p.EndsBefore after)
    (hafter : List.Forall₂ Blanks after after') : p.blankStray.EndsBefore after' := by
  have hspace : ∀ q : Char → Bool, q ' ' = false → goesOn q after = false →
      goesOn q after' = false :=
    fun q hq => goesOn_of_blanks hafter fun _ _ _ => hq
  cases h with
  | mark hc => exact .mark hc
  | joined hc => exact .joined hc
  | alone hc hends => exact .alone hc (hspace _ rfl hends)
  | slash hends => exact .slash (hspace _ rfl hends)
  | blank hc => exact .blank hc
  | newline => exact .newline
  | comment hbody hends =>
    -- A space does not end a comment, but no stray character does so either.
    refine .comment hbody (goesOn_of_blanks hafter (fun c hc hnewline => ?_) hends)
    exact absurd (by simpa using hnewline) (ne_newline_of_fitsNowhere hc)
  | string hbody => exact .string hbody
  | unclosed hbody =>
    cases hafter
    exact .unclosed hbody
  | whole hc hdigits hends hpoint =>
    refine .whole hc hdigits (hspace _ rfl hends) ?_
    intro tail htail
    subst htail
    cases hafter with
    | @cons d _ ds _ hd htail =>
      -- The point was a point before, so what followed it was no digit.
      have hd : d = '.' := by
        rcases hd with heq | ⟨-, heq⟩
        · exact heq.symm
        · exact absurd heq (by decide)
      subst hd
      exact goesOn_of_blanks htail (fun _ _ _ => rfl) (hpoint ds rfl)
  | decimal hc hdigits hd hfraction hends =>
    exact .decimal hc hdigits hd hfraction (hspace _ rfl hends)
  | word hc hcs hends => exact .word hc hcs (hspace _ rfl hends)
  | stray _ => exact .blank rfl

theorem Consecutive.map_blankStray {pieces : List Piece} (h : Consecutive pieces) :
    Consecutive (pieces.map Piece.blankStray) := by
  induction pieces with
  | nil => trivial
  | cons p pieces ih => exact ⟨h.1.blankStray h.2.forall₂_blanks, ih h.2⟩

/-! ## What is read off -/

/-- Pieces that are replaced one by one, each by one with as many newlines, are read off where they
stood. -/
lemma readOff_map {α : Type} {f g : Int → Piece → Option α} {change : Piece → Piece}
    {pieces : List Piece}
    (h : ∀ p ∈ pieces, (change p).newlines = p.newlines ∧ ∀ line, f line (change p) = g line p)
    (line : Nat) : readOff f line (pieces.map change) = readOff g line pieces := by
  induction pieces generalizing line with
  | nil => rfl
  | cons p pieces ih =>
    obtain ⟨⟨hnewlines, hp⟩, hpieces⟩ := List.forall_mem_cons.mp h
    rw [List.map_cons, readOff_cons, readOff_cons, hnewlines, hp, ih hpieces]

lemma newlines_blankStray {p : Piece} {after : List Char} (h : p.EndsBefore after) :
    p.blankStray.newlines = p.newlines := by
  cases h with
  | stray hc => exact (newlines_stray hc).symm
  | _ => rfl

lemma token?_blankStray (line : Int) (p : Piece) : p.blankStray.token? line = p.token? line := by
  cases p <;> rfl

lemma error?_blankStray (line : Int) (p : Piece) :
    p.blankStray.error? line =
      (p.error? line).filter fun err => err.diagnostic.code != some "L001" := by
  cases p <;> rfl

/-- There is one unterminated string at most, since nothing comes after it. -/
lemma Consecutive.length_errors_le {pieces : List Piece} (h : Consecutive pieces) (line : Nat) :
    ((readOff error? line pieces).filter
      fun err => err.diagnostic.code != some "L001").length ≤ 1 := by
  induction pieces generalizing line with
  | nil => exact Nat.zero_le 1
  | cons p pieces ih =>
    rw [readOff_cons, List.filter_append, List.length_append]
    cases herr : p.error? (line + p.newlines : Nat) with
    | none => simpa using ih h.2 (line + p.newlines)
    | some err =>
      rcases h.1.error_cases herr with ⟨c, -, rfl⟩ | ⟨hlast, rfl⟩
      · simpa using ih h.2 (line + p.newlines)
      · rw [h.2.eq_nil hlast]
        exact Nat.le_refl 1

/-! ## The positions of stray characters -/

/-- Whether a piece is a stray character. -/
def isStray : Piece → Bool
  | .stray _ => true
  | _ => false

/-- Whether the piece that holds the character in position `k` is a stray one. -/
def isStrayAt : List Piece → Nat → Bool
  | [], _ => false
  | p :: ps, k =>
    if k < p.text.length then p.isStray else isStrayAt ps (k - p.text.length)

lemma isStrayAt_cons_of_lt {p : Piece} {ps : List Piece} {k : Nat} (h : k < p.text.length) :
    isStrayAt (p :: ps) k = p.isStray := by
  rw [isStrayAt, if_pos h]

lemma isStrayAt_cons_add (p : Piece) (ps : List Piece) (k : Nat) :
    isStrayAt (p :: ps) (k + p.text.length) = isStrayAt ps k := by
  rw [isStrayAt, if_neg (by omega), Nat.add_sub_cancel]

theorem isStrayAt_iff {pieces : List Piece} {k : Nat} :
    isStrayAt pieces k = true ↔
      ∃ earlier c later, pieces = earlier ++ .stray c :: later ∧
        (earlier.flatMap text).length = k := by
  constructor
  · intro h
    induction pieces generalizing k with
    | nil => cases h
    | cons p pieces ih =>
      by_cases hk : k < p.text.length
      · rw [isStrayAt_cons_of_lt hk] at h
        cases p <;> cases h
        obtain rfl : k = 0 := Nat.lt_one_iff.mp hk
        exact ⟨[], _, pieces, rfl, rfl⟩
      · rw [isStrayAt, if_neg hk] at h
        obtain ⟨earlier, c, later, rfl, hlength⟩ := ih h
        refine ⟨p :: earlier, c, later, rfl, ?_⟩
        rw [List.flatMap_cons, List.length_append, hlength]
        omega
  · intro h
    obtain ⟨earlier, c, later, rfl, rfl⟩ := h
    induction earlier with
    | nil => rfl
    | cons p earlier ih =>
      rw [List.cons_append, List.flatMap_cons, List.length_append, Nat.add_comm,
        isStrayAt_cons_add]
      exact ih

/-- Replacing the characters in the positions of stray ones by spaces replaces the pieces. -/
theorem mapIdx_isStrayAt (pieces : List Piece) :
    (pieces.flatMap text).mapIdx (fun k c => if isStrayAt pieces k then ' ' else c) =
      (pieces.map blankStray).flatMap text := by
  induction pieces with
  | nil => rfl
  | cons p pieces ih =>
    have hfirst : p.text.mapIdx (fun k c => if isStrayAt (p :: pieces) k then ' ' else c) =
        p.blankStray.text := by
      have hp : p.text.mapIdx (fun k c => if isStrayAt (p :: pieces) k then ' ' else c) =
          p.text.map fun c => if p.isStray then ' ' else c := by
        apply List.ext_getElem
        · simp
        · intro k hk hk'
          rw [List.getElem_mapIdx, List.getElem_map, isStrayAt_cons_of_lt (by simpa using hk)]
      rw [hp]
      cases p with
      | stray c => rfl
      | _ => exact List.map_id' _
    rw [List.flatMap_cons, List.mapIdx_append, hfirst, List.map_cons, List.flatMap_cons, ← ih]
    simp only [isStrayAt_cons_add]

end Piece

namespace Scan

/-- `Flagged source k`: scanning the source flags the character in position `k`. -/
def Flagged (source : String) (k : Nat) : Prop :=
  ∃ before i c, FlagsAfter source before i c ∧ before.length = k

lemma isStrayAt_ofText_iff {source : String} {k : Nat} :
    Piece.isStrayAt (Piece.ofText source.toList) k = true ↔ Flagged source k := by
  rw [Piece.isStrayAt_iff]
  constructor
  · intro h
    obtain ⟨earlier, c, later, hpieces, hlength⟩ := h
    exact ⟨_, _, c, flagsAfter_iff.mpr ⟨earlier, later, hpieces, rfl, rfl⟩, hlength⟩
  · intro h
    obtain ⟨before, i, c, hflags, hlength⟩ := h
    obtain ⟨earlier, later, hpieces, hbefore, -⟩ := flagsAfter_iff.mp hflags
    exact ⟨earlier, c, later, hpieces, hbefore ▸ hlength⟩

instance (source : String) (k : Nat) : Decidable (Flagged source k) :=
  decidable_of_iff _ isStrayAt_ofText_iff

/-- The source with a space in place of each character that scanning it flags. -/
def blankFlagged (source : String) : String :=
  String.ofList (source.toList.mapIdx fun k c => if Flagged source k then ' ' else c)

lemma toList_blankFlagged (source : String) :
    (blankFlagged source).toList =
      ((Piece.ofText source.toList).map Piece.blankStray).flatMap Piece.text := by
  rw [← Piece.mapIdx_isStrayAt, Piece.flatMap_text_ofText, blankFlagged, String.toList_ofList]
  simp only [isStrayAt_ofText_iff]

/-- The pieces of the source with spaces are those of the source, with spaces for stray ones. -/
theorem ofText_blankFlagged (source : String) :
    Piece.ofText (blankFlagged source).toList =
      (Piece.ofText source.toList).map Piece.blankStray := by
  rw [toList_blankFlagged]
  exact (Piece.consecutive_ofText source.toList).map_blankStray.ofText_flatMap

lemma count_newlines_blankFlagged (source : String) :
    (blankFlagged source).toList.count '\n' = source.toList.count '\n' := by
  have hblanks := (Piece.consecutive_ofText source.toList).forall₂_blanks
  rw [← toList_blankFlagged, Piece.flatMap_text_ofText] at hblanks
  exact Piece.count_newlines_of_blanks hblanks

/-- A character that starts nothing is skipped. Its error is at the place where the lexical rules
flag it. The source with a space for each such character has the same tokens on the same lines, and
the same errors but for those of the characters: an unterminated string at most. -/
theorem scan_blankFlagged (source : String) :
    (∀ (i : Nat) (c : Char) (line : Int),
      (ofText source).errors[i]? = some ⟨.unexpected (String.singleton c), line⟩ ↔
        ∃ before, FlagsAfter source before i c ∧ line = 1 + before.count '\n') ∧
    (ofText (blankFlagged source)).tokens = (ofText source).tokens ∧
    (ofText (blankFlagged source)).errors =
      (ofText source).errors.filter (fun err => err.diagnostic.code != some "L001") ∧
    (ofText (blankFlagged source)).errors.length ≤ 1 ∧
    ∀ err ∈ (ofText (blankFlagged source)).errors, err.cause = .unterminatedString := by
  have hpieces : ∀ p ∈ Piece.ofText source.toList, p.blankStray.newlines = p.newlines := by
    intro p hp
    obtain ⟨earlier, later, hsplit⟩ := List.append_of_mem hp
    exact Piece.newlines_blankStray (Piece.endsBefore_of_ofText hsplit)
  have htokens : (ofText (blankFlagged source)).tokens = (ofText source).tokens := by
    rw [tokens_ofText, tokens_ofText, ofText_blankFlagged, count_newlines_blankFlagged,
      Piece.readOff_map fun p hp => ⟨hpieces p hp, fun line => Piece.token?_blankStray line p⟩]
  have herrors : (ofText (blankFlagged source)).errors =
      (ofText source).errors.filter (fun err => err.diagnostic.code != some "L001") := by
    rw [errors_ofText, errors_ofText, ofText_blankFlagged,
      Piece.readOff_map fun p hp => ⟨hpieces p hp, fun line => Piece.error?_blankStray line p⟩]
    exact List.filter_filterMap.symm
  refine ⟨fun i c line => getElem?_errors_eq_unexpected_iff, htokens, herrors, ?_, ?_⟩
  · rw [herrors]
    exact (Piece.consecutive_ofText source.toList).length_errors_le 1
  · intro err hmem
    rw [herrors, List.mem_filter] at hmem
    obtain ⟨i, hget⟩ := List.mem_iff_getElem?.mp hmem.1
    rcases exists_flagsAfter hget with ⟨before, c, -, rfl⟩ | rfl
    · exact absurd hmem.2 (by simp)
    · rfl

end Scan
end LoxCalc
