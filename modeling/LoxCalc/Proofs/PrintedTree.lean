import LoxCalc.Expr.Print
import LoxCalc.Proofs.KnownOperators
import LoxCalc.Proofs.NumberBits

/-!
# The printed text determines the tree

Expressions that are read from sources are printed alike exactly if they are the same up to the
lines of their operators (`Expr.printed_eq_iff_sameButLines`). Strings are printed as they are, so
this needs two facts about sources: the strings in them hold no quotes, and the numbers in them are
numbers (`Grammar.Derives.isWritten`). Given these, the text of an expression tells where it ends
and what it is of, whatever operand or parenthesis follows it (`Expr.IsWritten.unique_reading`).
-/

namespace LoxCalc

/-! ## What sources hold -/

namespace Token

namespace Kind

/-- The kinds that stand before an operand or between two. -/
def operators : List Kind :=
  .bang :: binaryOperators

/-- How an operator is written. -/
def spelling : Kind → List Char
  | .minus => ['-']
  | .plus => ['+']
  | .slash => ['/']
  | .star => ['*']
  | .bang => ['!']
  | .bangEqual => ['!', '=']
  | .equalEqual => ['=', '=']
  | .greater => ['>']
  | .greaterEqual => ['>', '=']
  | .less => ['<']
  | .lessEqual => ['<', '=']
  | _ => []

lemma spelling_injective : ∀ a ∈ operators, ∀ b ∈ operators, a.spelling = b.spelling → a = b := by
  decide

lemma space_not_mem_spelling : ∀ k ∈ operators, ' ' ∉ k.spelling := by
  decide

end Kind

/-- An operator of the grammar in its spelling. -/
structure IsOperator (t : Token) : Prop where
  kind : t.kind ∈ Kind.operators
  lexeme : t.lexeme.toList = t.kind.spelling
  literal : t.literal = none

/-- Tokens that differ in their lines at most. -/
structure SameButLine (s t : Token) : Prop where
  kind : s.kind = t.kind
  lexeme : s.lexeme = t.lexeme
  literal : s.literal = t.literal

/-- An operator is known by its spelling. -/
lemma IsOperator.sameButLine {s t : Token} (hs : s.IsOperator) (ht : t.IsOperator)
    (h : s.lexeme.toList = t.lexeme.toList) : s.SameButLine t := by
  refine ⟨?_, String.toList_inj.mp h, hs.literal.trans ht.literal.symm⟩
  apply Kind.spelling_injective _ hs.kind _ ht.kind
  rw [← hs.lexeme, ← ht.lexeme, h]

lemma IsOperator.space_not_mem {t : Token} (h : t.IsOperator) : ' ' ∉ t.lexeme.toList := by
  rw [h.lexeme]
  exact Kind.space_not_mem_spelling _ h.kind

end Token

/-- Values that literals of a source can have. -/
def Value.IsWritten : Value → Prop
  | .string s => '"' ∉ s.toList
  | .number x => x.isNaN = false
  | .bool _ | .nil => True

namespace Lexical

open Token.Kind (operators spelling binaryOperators)

/-- An operator is spelled as its kind is, and carries nothing. -/
lemma Matches.spelled {text after : List Char} {kind : Token.Kind} {literal : Option Literal}
    (h : Matches text after (.token kind literal)) (hkind : kind ∈ operators) :
    text = kind.spelling ∧ literal = none := by
  cases h with
  | mark hmem =>
    exact ⟨(by decide : ∀ m ∈ _, m.2 ∈ operators → [m.1] = m.2.spelling) _ hmem hkind, rfl⟩
  | alone hmem =>
    exact ⟨(by decide : ∀ m ∈ _, m.2 ∈ operators → [m.1] = m.2.spelling) _ hmem hkind, rfl⟩
  | joined hmem =>
    exact ⟨(by decide : ∀ m ∈ _, m.2 ∈ operators → [m.1, '='] = m.2.spelling) _ hmem hkind, rfl⟩
  | slash => exact ⟨rfl, rfl⟩
  | string _ => exact absurd hkind (by decide)
  | whole _ _ => exact absurd hkind (by decide)
  | decimal _ _ _ _ => exact absurd hkind (by decide)
  | keyword _ _ hmem =>
    have hreserved : ∀ m ∈ Token.Kind.reserved, m.2 ∉ operators := by decide
    exact absurd hkind (hreserved _ hmem)
  | identifier _ _ _ => exact absurd hkind (by decide)

/-- The numbers of a source are numbers, and its strings hold no quotes. -/
lemma Matches.isWritten {text after : List Char} {kind : Token.Kind} {literal : Literal}
    (h : Matches text after (.token kind (some literal))) : literal.value.IsWritten := by
  cases h with
  | @string body _ hbody =>
    show '"' ∉ (String.ofList body).toList
    rwa [String.toList_ofList]
  | whole _ _ => exact Binary64.isNaN_nearest _ _
  | decimal _ _ _ _ => exact Binary64.isNaN_nearest _ _

end Lexical

namespace Expr

/-- Expressions that can be read from a source. -/
def IsWritten : Expr → Prop
  | .literal v => v.IsWritten
  | .group inner => inner.IsWritten
  | .unary operator operand => operator.IsOperator ∧ operand.IsWritten
  | .binary left operator right => left.IsWritten ∧ operator.IsOperator ∧ right.IsWritten

end Expr

namespace Scan

/-- A token but the end of the input is matched by a lexical rule. -/
lemma matches_of_mem_tokens {source : String} {t : Token} (h : t ∈ (ofText source).tokens)
    (hkind : t.kind ≠ .eof) :
    ∃ after, Lexical.Matches t.lexeme.toList after (.token t.kind t.literal) := by
  obtain ⟨i, hi, hget⟩ := List.getElem_of_mem h
  have hget? : (ofText source).tokens[i]? = some t := by
    rw [List.getElem?_eq_getElem hi, hget]
  obtain ⟨before, ⟨earlier, later, hcuts, -, -⟩, -⟩ := exists_standsAfter hget? hkind
  exact hcuts.matches_of_mem (List.mem_append_right _ List.mem_cons_self)

lemma isOperator_of_mem_tokens {source : String} {t : Token} (h : t ∈ (ofText source).tokens)
    (hkind : t.kind ∈ Token.Kind.operators) : t.IsOperator := by
  have hend : t.kind ≠ .eof := by
    intro hend
    rw [hend] at hkind
    exact absurd hkind (by decide)
  obtain ⟨after, hmatch⟩ := matches_of_mem_tokens h hend
  have hspelled := hmatch.spelled hkind
  exact ⟨hkind, hspelled.1, hspelled.2⟩

lemma isWritten_of_mem_tokens {source : String} {t : Token} (h : t ∈ (ofText source).tokens)
    (hkind : t.kind ≠ .eof) : t.value.IsWritten := by
  obtain ⟨after, hmatch⟩ := matches_of_mem_tokens h hkind
  unfold Token.value
  cases hliteral : t.literal with
  | none => trivial
  | some literal =>
    rw [hliteral] at hmatch
    exact hmatch.isWritten

end Scan

namespace Grammar

lemma Rule.operators_subset (rule : Rule) : rule.operators ⊆ Token.Kind.operators := by
  cases rule <;> decide

/-- What is derived from tokens of a source is written in it. -/
theorem Derives.isWritten {source : String} {rule : Rule} {us : List Token} {e : Expr}
    (h : Derives rule us e) (hus : us ⊆ (Scan.ofText source).tokens) : e.IsWritten := by
  induction h with
  | single _ ih => exact ih hus
  | @chain rule us vs left right operator _ hmem _ ihleft ihright =>
    rw [List.append_subset, List.cons_subset] at hus
    have hoperator := Scan.isOperator_of_mem_tokens hus.2.1 (rule.operators_subset hmem)
    exact ⟨ihleft hus.1, hoperator, ihright hus.2.2⟩
  | @prefixed us e operator hkind _ ih =>
    rw [List.cons_subset] at hus
    have hmem : operator.kind ∈ Token.Kind.operators := by
      rcases hkind with hkind | hkind <;> rw [hkind] <;> decide
    exact ⟨Scan.isOperator_of_mem_tokens hus.1 hmem, ih hus.2⟩
  | @carried t hkind =>
    have hend : t.kind ≠ .eof := by
      rcases hkind with hkind | hkind <;> rw [hkind] <;> decide
    exact Scan.isWritten_of_mem_tokens (hus List.mem_cons_self) hend
  | yes _ => trivial
  | no _ => trivial
  | nil _ => trivial
  | group _ _ _ ih =>
    rw [List.append_subset, List.cons_subset] at hus
    exact ih hus.1.2

end Grammar

namespace Expr

/-- What is read from a source is written in it. -/
lemma isWritten_of_parse {limit : Limit} {source : String} {e : Expr}
    (h : (parse limit (Scan.ofText source).tokens).tree? = some e) : e.IsWritten := by
  obtain ⟨rest, hparse⟩ := Reading.tree?_eq_some_iff.mp h
  obtain ⟨us, t, rest', htokens, -, hderives, -⟩ := derives_of_parse hparse
  have hus : us ⊆ (Scan.ofText source).tokens := by
    rw [htokens]
    exact List.subset_append_left _ _
  exact hderives.isWritten hus

end Expr

/-! ## Values that are no strings -/

namespace Value

lemma eq_string_or_plain (v : Value) : (∃ s, v = .string s) ∨ v.isString = false := by
  cases v with
  | string s => exact .inl ⟨s, rfl⟩
  | _ => exact .inr rfl

lemma isNumeric_text {v : Value} (hv : v.IsWritten) (hplain : v.isString = false) :
    ∀ c ∈ v.text.toList, Decimal.isNumeric c = true := by
  cases v with
  | nil => simp [text, Decimal.isNumeric, Char.isAlphanum, Char.isAlpha, Char.isLower]
  | bool b =>
    cases b <;> simp [text, Decimal.isNumeric, Char.isAlphanum, Char.isAlpha, Char.isLower]
  | number x => exact NumberStyle.isNumeric_text hv
  | string s => cases hplain

/-- No number begins like one of the words for other values. -/
lemma number_text_ne {x : Float} (hx : x.isNaN = false) {word : String}
    (hword : word.toList.head? ∈ [some 'n', some 't', some 'f']) :
    NumberStyle.value.text x ≠ word := by
  intro heq
  obtain ⟨c, cs, htext, hc, -⟩ := NumberStyle.exists_head_text hx
  rw [← heq, htext] at hword
  simp only [List.head?_cons, List.mem_cons, Option.some.injEq, List.not_mem_nil, or_false] at hword
  rcases hword with rfl | rfl | rfl <;> exact absurd hc (by decide)

/-- Values that have the same text are the same, unless they are strings. -/
lemma text_injective {v w : Value} (hv : v.IsWritten) (hw : w.IsWritten)
    (hplain : v.isString = false) (hplain' : w.isString = false) (h : v.text = w.text) :
    v = w := by
  cases v with
  | nil =>
    cases w with
    | nil => rfl
    | bool b => exact absurd h (by cases b <;> decide)
    | number y => exact absurd h.symm (number_text_ne hw (by decide))
    | string s => cases hplain'
  | bool a =>
    cases w with
    | nil => exact absurd h (by cases a <;> decide)
    | bool b =>
      have htruth : ∀ a b : Bool, (bool a).text = (bool b).text → a = b := by decide
      exact congrArg Value.bool (htruth a b h)
    | number y => exact absurd h.symm (number_text_ne hw (by cases a <;> decide))
    | string s => cases hplain'
  | number x =>
    cases w with
    | nil => exact absurd h (number_text_ne hv (by decide))
    | bool b => exact absurd h (number_text_ne hv (by cases b <;> decide))
    | number y => exact congrArg Value.number (NumberStyle.text_injective hv hw h)
    | string s => cases hplain'
  | string s => cases hplain

end Value

namespace Expr

/-! ## Texts -/

/-- Expressions that differ in the lines of their operators at most. -/
inductive SameButLines : Expr → Expr → Prop where
  | literal (v : Value) : SameButLines (.literal v) (.literal v)
  | group {e e' : Expr} : SameButLines e e' → SameButLines (.group e) (.group e')
  | unary {o o' : Token} {e e' : Expr} :
      o.SameButLine o' → SameButLines e e' → SameButLines (.unary o e) (.unary o' e')
  | binary {o o' : Token} {l l' r r' : Expr} :
      SameButLines l l' → o.SameButLine o' → SameButLines r r' →
      SameButLines (.binary l o r) (.binary l' o' r')

/-- A word and what follows it, in parentheses. -/
def enclosed (word body : List Char) : List Char :=
  '(' :: (word ++ ' ' :: (body ++ [')']))

/-- The characters of the text of an expression. -/
def letters : Expr → List Char
  | .literal v => (literalText v).toList
  | .group inner => enclosed ['g', 'r', 'o', 'u', 'p'] inner.letters
  | .unary operator operand => enclosed operator.lexeme.toList operand.letters
  | .binary left operator right =>
    enclosed operator.lexeme.toList (left.letters ++ ' ' :: right.letters)

/-- Printing gives these characters, at any depth that the limit leaves room for. -/
theorem toList_printAt {limit : Limit} {depth : Nat} {e : Expr} {text : String}
    (h : e.printAt limit depth = some text) : text.toList = e.letters := by
  fun_induction printAt limit depth e generalizing text with
  | case1 depth _ v =>
    cases h
    rfl
  | case2 depth _ inner ih =>
    obtain ⟨s, hs, rfl⟩ := Option.map_eq_some_iff.mp h
    simp [letters, enclosed, ih hs]
  | case3 depth _ operator operand ih =>
    obtain ⟨s, hs, rfl⟩ := Option.map_eq_some_iff.mp h
    simp [letters, enclosed, ih hs]
  | case4 depth _ left operator right ihleft ihright =>
    obtain ⟨s, hs, hright⟩ := Option.bind_eq_some_iff.mp h
    obtain ⟨t, ht, rfl⟩ := Option.map_eq_some_iff.mp hright
    simp [letters, enclosed, ihleft hs, ihright ht]
  | case5 depth _ _ => cases h

/-- Lines are not printed. -/
lemma SameButLines.letters_eq {e e' : Expr} (h : e.SameButLines e') : e.letters = e'.letters := by
  induction h with
  | literal v => rfl
  | group _ ih => rw [letters, letters, ih]
  | unary ho _ ih => rw [letters, letters, ih, ho.lexeme]
  | binary _ ho _ ihleft ihright => rw [letters, letters, ihleft, ihright, ho.lexeme]

/-! ## Where a text ends -/

/-- What follows an operand in a text: nothing, or a character that ends it. -/
def Follows (rest : List Char) : Prop :=
  ∀ c ∈ rest.head?, c = ' ' ∨ c = ')'

/-- A run of characters of a class is known from a text in which it is not continued. -/
lemma append_inj_of_class {p : Char → Bool} {cs ds r s : List Char} (hcs : ∀ c ∈ cs, p c = true)
    (hds : ∀ c ∈ ds, p c = true) (hr : ∀ c ∈ r.head?, p c = false)
    (hs : ∀ c ∈ s.head?, p c = false) (h : cs ++ r = ds ++ s) : cs = ds ∧ r = s := by
  have hstop : ∀ t : List Char, (∀ c ∈ t.head?, p c = false) → t.takeWhile p = [] := by
    intro t ht
    cases t with
    | nil => rfl
    | cons c t => exact List.takeWhile_cons_of_neg (by simp [ht c rfl])
  have hrun := congrArg (List.takeWhile p) h
  rw [List.takeWhile_append_of_pos hcs, List.takeWhile_append_of_pos hds, hstop r hr, hstop s hs,
    List.append_nil, List.append_nil] at hrun
  rw [hrun] at h
  exact ⟨hrun, List.append_cancel_left h⟩

/-- Likewise a run up to the first character of a kind. -/
lemma append_inj_of_stop {stop : Char} {cs ds r s : List Char} (hcs : stop ∉ cs) (hds : stop ∉ ds)
    (h : cs ++ stop :: r = ds ++ stop :: s) : cs = ds ∧ r = s := by
  have hclass : ∀ run : List Char, stop ∉ run → ∀ c ∈ run, (c != stop) = true := by
    intro run hrun c hc
    rw [bne_iff_ne]
    intro heq
    exact hrun (heq ▸ hc)
  obtain ⟨hrun, hrest⟩ := append_inj_of_class (p := (· != stop)) (hclass cs hcs) (hclass ds hds)
    (by simp) (by simp) h
  exact ⟨hrun, (List.cons.inj hrest).2⟩

/-! ## Literals -/

lemma literalText_append_string (s : String) (rest : List Char) :
    (literalText (.string s)).toList ++ rest = '"' :: (s.toList ++ '"' :: rest) := by
  simp [literalText]

lemma literalText_of_plain {v : Value} (h : v.isString = false) : literalText v = v.text := by
  cases v with
  | string s => cases h
  | _ => rfl

/-- A literal that is no string begins with a character of a number. -/
lemma isNumeric_of_plain {v : Value} (hv : v.IsWritten) (hplain : v.isString = false) {c : Char}
    {r cs : List Char} (h : (literalText v).toList ++ r = c :: cs) :
    Decimal.isNumeric c = true := by
  have hne : v.text.toList ≠ [] := by
    cases v with
    | nil => simp [Value.text]
    | bool b => cases b <;> simp [Value.text]
    | number x =>
      obtain ⟨d, ds, htext, -, -⟩ := NumberStyle.exists_head_text hv
      simp [Value.text, htext]
    | string s => cases hplain
  rw [literalText_of_plain hplain] at h
  obtain ⟨d, ds, htext⟩ := List.exists_cons_of_ne_nil hne
  rw [htext] at h
  have hc : d = c := (List.cons.inj h).1
  have hd := Value.isNumeric_text hv hplain d (by simp [htext])
  exact hc ▸ hd

lemma not_isNumeric_of_follows {rest : List Char} (h : Follows rest) :
    ∀ c ∈ rest.head?, Decimal.isNumeric c = false := by
  intro c hc
  rcases h c hc with rfl | rfl <;> rfl

/-- The text of a literal tells where it ends and what it is of. -/
lemma literal_unique_reading {v w : Value} (hv : v.IsWritten) (hw : w.IsWritten)
    {r s : List Char} (hr : Follows r) (hs : Follows s)
    (h : (literalText v).toList ++ r = (literalText w).toList ++ s) : v = w ∧ r = s := by
  rcases v.eq_string_or_plain with ⟨a, rfl⟩ | hplain
  · rw [literalText_append_string] at h
    rcases w.eq_string_or_plain with ⟨b, rfl⟩ | hplain'
    · rw [literalText_append_string] at h
      obtain ⟨htext, hrest⟩ := append_inj_of_stop hv hw (List.cons.inj h).2
      exact ⟨congrArg Value.string (String.toList_inj.mp htext), hrest⟩
    · exact absurd (isNumeric_of_plain hw hplain' h.symm) (by decide)
  · rcases w.eq_string_or_plain with ⟨b, rfl⟩ | hplain'
    · rw [literalText_append_string] at h
      exact absurd (isNumeric_of_plain hv hplain h) (by decide)
    · rw [literalText_of_plain hplain, literalText_of_plain hplain'] at h
      have hstop := not_isNumeric_of_follows hr
      have hstop' := not_isNumeric_of_follows hs
      obtain ⟨htext, hrest⟩ := append_inj_of_class (Value.isNumeric_text hv hplain)
        (Value.isNumeric_text hw hplain') hstop hstop' h
      exact ⟨Value.text_injective hv hw hplain hplain' (String.toList_inj.mp htext), hrest⟩

/-- No literal begins like what is in parentheses. -/
lemma literal_ne_enclosed {v : Value} (hv : v.IsWritten) {r word body s : List Char} :
    (literalText v).toList ++ r ≠ enclosed word body ++ s := by
  intro h
  rcases v.eq_string_or_plain with ⟨a, rfl⟩ | hplain
  · rw [literalText_append_string] at h
    exact absurd (List.cons.inj h).1 (by decide)
  · exact absurd (isNumeric_of_plain hv hplain h) (by decide)

/-! ## Trees -/

lemma enclosed_append (word body rest : List Char) :
    enclosed word body ++ rest = '(' :: (word ++ ' ' :: (body ++ ')' :: rest)) := by
  simp [enclosed]

lemma enclosed_inj {word word' body body' r s : List Char} (hword : ' ' ∉ word)
    (hword' : ' ' ∉ word') (h : enclosed word body ++ r = enclosed word' body' ++ s) :
    word = word' ∧ body ++ ')' :: r = body' ++ ')' :: s := by
  rw [enclosed_append, enclosed_append] at h
  exact append_inj_of_stop hword hword' (List.cons.inj h).2

lemma follows_space (rest : List Char) : Follows (' ' :: rest) := by
  simp [Follows]

lemma follows_closing (rest : List Char) : Follows (')' :: rest) := by
  simp [Follows]

lemma space_not_mem_group : ' ' ∉ ['g', 'r', 'o', 'u', 'p'] := by
  decide

/-- No operator is spelled like the word that groups are printed with. -/
lemma ne_group_of_isOperator {t : Token} (h : t.IsOperator) :
    t.lexeme.toList ≠ ['g', 'r', 'o', 'u', 'p'] := by
  rw [h.lexeme]
  exact (by decide : ∀ k ∈ Token.Kind.operators, k.spelling ≠ ['g', 'r', 'o', 'u', 'p']) _ h.kind

/-- The text of an expression tells where it ends and what it is of. -/
theorem IsWritten.unique_reading {e e' : Expr} (he : e.IsWritten) (he' : e'.IsWritten)
    {r s : List Char} (hr : Follows r) (hs : Follows s) (h : e.letters ++ r = e'.letters ++ s) :
    e.SameButLines e' ∧ r = s := by
  induction e generalizing e' r s with
  | literal v =>
    cases e' with
    | literal w =>
      obtain ⟨rfl, hrest⟩ := literal_unique_reading he he' hr hs h
      exact ⟨.literal v, hrest⟩
    | group inner' => exact absurd h (literal_ne_enclosed he)
    | unary operator' operand' => exact absurd h (literal_ne_enclosed he)
    | binary left' operator' right' => exact absurd h (literal_ne_enclosed he)
  | group inner ih =>
    cases e' with
    | literal w => exact absurd h.symm (literal_ne_enclosed he')
    | group inner' =>
      obtain ⟨-, hbody⟩ := enclosed_inj space_not_mem_group space_not_mem_group h
      have hwritten : inner'.IsWritten := he'
      obtain ⟨hinner, hrest⟩ := ih he hwritten (follows_closing r) (follows_closing s) hbody
      exact ⟨.group hinner, (List.cons.inj hrest).2⟩
    | unary operator' operand' =>
      obtain ⟨hword, -⟩ := enclosed_inj space_not_mem_group he'.1.space_not_mem h
      exact absurd hword.symm (ne_group_of_isOperator he'.1)
    | binary left' operator' right' =>
      obtain ⟨hword, -⟩ := enclosed_inj space_not_mem_group he'.2.1.space_not_mem h
      exact absurd hword.symm (ne_group_of_isOperator he'.2.1)
  | unary operator operand ih =>
    cases e' with
    | literal w => exact absurd h.symm (literal_ne_enclosed he')
    | group inner' =>
      obtain ⟨hword, -⟩ := enclosed_inj he.1.space_not_mem space_not_mem_group h
      exact absurd hword (ne_group_of_isOperator he.1)
    | unary operator' operand' =>
      obtain ⟨hword, hbody⟩ := enclosed_inj he.1.space_not_mem he'.1.space_not_mem h
      obtain ⟨hoperand, hrest⟩ := ih he.2 he'.2 (follows_closing r) (follows_closing s) hbody
      exact ⟨.unary (he.1.sameButLine he'.1 hword) hoperand, (List.cons.inj hrest).2⟩
    | binary left' operator' right' =>
      obtain ⟨-, hbody⟩ := enclosed_inj he.1.space_not_mem he'.2.1.space_not_mem h
      rw [List.append_assoc] at hbody
      -- The first operand is the same, but a space follows it in one text only.
      obtain ⟨-, hrest⟩ := ih he.2 he'.1 (follows_closing r) (follows_space _) hbody
      cases hrest
  | binary left operator right ihleft ihright =>
    cases e' with
    | literal w => exact absurd h.symm (literal_ne_enclosed he')
    | group inner' =>
      obtain ⟨hword, -⟩ := enclosed_inj he.2.1.space_not_mem space_not_mem_group h
      exact absurd hword (ne_group_of_isOperator he.2.1)
    | unary operator' operand' =>
      obtain ⟨-, hbody⟩ := enclosed_inj he.2.1.space_not_mem he'.1.space_not_mem h
      rw [List.append_assoc] at hbody
      obtain ⟨-, hrest⟩ := ihleft he.1 he'.2 (follows_space _) (follows_closing s) hbody
      cases hrest
    | binary left' operator' right' =>
      obtain ⟨hword, hbody⟩ := enclosed_inj he.2.1.space_not_mem he'.2.1.space_not_mem h
      rw [List.append_assoc, List.append_assoc] at hbody
      obtain ⟨hleft, hmiddle⟩ := ihleft he.1 he'.1 (follows_space _) (follows_space _) hbody
      obtain ⟨hright, hrest⟩ := ihright he.2.2 he'.2.2 (follows_closing r) (follows_closing s)
        (List.cons.inj hmiddle).2
      exact ⟨.binary hleft (he.2.1.sameButLine he'.2.1 hword) hright, (List.cons.inj hrest).2⟩

/-- Of two sources, the trees that are read have the same text if and only if they are the same tree
up to the lines of their operators. -/
theorem printed_eq_iff_sameButLines {limit limit' : Limit} {source source' : String} {e e' : Expr}
    {text text' : String} (hparse : (parse limit (Scan.ofText source).tokens).tree? = some e)
    (hparse' : (parse limit (Scan.ofText source').tokens).tree? = some e')
    (hprint : e.print? limit' = some text) (hprint' : e'.print? limit' = some text') :
    text = text' ↔ e.SameButLines e' := by
  have hletters : text.toList = e.letters := toList_printAt hprint
  have hletters' : text'.toList = e'.letters := toList_printAt hprint'
  rw [← String.toList_inj, hletters, hletters']
  constructor
  · intro h
    have hends : Follows [] := by simp [Follows]
    have he := isWritten_of_parse hparse
    have he' := isWritten_of_parse hparse'
    exact (he.unique_reading he' hends hends (congrArg (· ++ []) h)).1
  · exact SameButLines.letters_eq

/-- A comparison with its operators on given lines. Its right side looks like the end of a text. -/
def comparison (bang minus equal : Int) : Expr :=
  .binary (.unary ⟨.bang, "!", none, bang⟩ (.group (.unary ⟨.minus, "-", none, minus⟩
    (.literal .nil)))) ⟨.equalEqual, "==", none, equal⟩ (.literal (.string " nil)"))

/-- Read from one line or from three, it is printed alike. -/
theorem printed_eq_iff_sameButLines_comparison :
    (parse .standard (Scan.ofText "!(-nil) == \" nil)\"").tokens).tree? =
        some (comparison 1 1 1) ∧
      (parse .standard (Scan.ofText "!\n(-nil) // nil\n == \" nil)\"").tokens).tree? =
        some (comparison 1 2 3) ∧
      (comparison 1 1 1).print? .standard = some "(== (! (group (- nil))) \" nil)\")" ∧
      (comparison 1 2 3).print? .standard = some "(== (! (group (- nil))) \" nil)\")" ∧
      (comparison 1 1 1).SameButLines (comparison 1 2 3) := by
  have htokens : (Scan.ofText "!(-nil) == \" nil)\"").tokens =
      [⟨.bang, "!", none, 1⟩, ⟨.leftParen, "(", none, 1⟩, ⟨.minus, "-", none, 1⟩,
        ⟨.kwNil, "nil", none, 1⟩, ⟨.rightParen, ")", none, 1⟩, ⟨.equalEqual, "==", none, 1⟩,
        ⟨.string, "\" nil)\"", some (.text " nil)"), 1⟩, .endOfInput 1] := by cbv
  have htokens' : (Scan.ofText "!\n(-nil) // nil\n == \" nil)\"").tokens =
      [⟨.bang, "!", none, 1⟩, ⟨.leftParen, "(", none, 2⟩, ⟨.minus, "-", none, 2⟩,
        ⟨.kwNil, "nil", none, 2⟩, ⟨.rightParen, ")", none, 2⟩, ⟨.equalEqual, "==", none, 3⟩,
        ⟨.string, "\" nil)\"", some (.text " nil)"), 3⟩, .endOfInput 3] := by cbv
  have hparse : (parse .standard (Scan.ofText "!(-nil) == \" nil)\"").tokens).tree? =
      some (comparison 1 1 1) := by
    rw [htokens]
    rfl
  have hparse' : (parse .standard (Scan.ofText "!\n(-nil) // nil\n == \" nil)\"").tokens).tree? =
      some (comparison 1 2 3) := by
    rw [htokens']
    rfl
  have hprint : ∀ bang minus equal, (comparison bang minus equal).print? .standard =
      some "(== (! (group (- nil))) \" nil)\")" := by
    intro bang minus equal
    rfl
  exact ⟨hparse, hparse', hprint 1 1 1, hprint 1 2 3,
    (printed_eq_iff_sameButLines hparse hparse' (hprint 1 1 1) (hprint 1 2 3)).mp rfl⟩

end Expr
end LoxCalc
