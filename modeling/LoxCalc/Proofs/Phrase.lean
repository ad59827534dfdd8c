import LoxCalc.Proofs.Grammar
import LoxCalc.Proofs.Reading

/-!
# Phrases are read

What the grammar derives, the reader takes. A phrase is read on top of operators that already wait,
so the statement is about any of them: as long as the phrase is tight enough for the place where it
stands (`Pending.slot`), reading it touches nothing that waited before, and what it leaves above
makes up its tree. `Expr.readingFrames` is the exact number of frames this takes.
-/

namespace LoxCalc

/-- The frames that reading an expression uses, beyond those in use before it. -/
def Expr.readingFrames : Expr → Nat
  | .literal _ => 0
  | .group inner => 11 + inner.readingFrames
  | .unary _ operand => 1 + operand.readingFrames
  | .binary left _ right => max left.readingFrames right.readingFrames

namespace Pending

/-- The rank of the loosest phrase that can be the operand of what waits. -/
def slot : List Pending → Nat
  | [] => 1
  | .unary _ :: _ => 5
  | .binary _ operator :: _ => operator.kind.level?.getD 0 + 1

@[simp] lemma applyAll_nil (e : Expr) : applyAll [] e = e := rfl

@[simp] lemma applyAll_append (above below : List Pending) (e : Expr) :
    applyAll (above ++ below) e = applyAll below (applyAll above e) :=
  List.foldl_append

/-- What binds at a level binds at every looser one. -/
lemma bindsAt_mono {p : Pending} {a b : Nat} (hab : a ≤ b) (h : p.bindsAt b = true) :
    p.bindsAt a = true := by
  cases p with
  | unary operator => rfl
  | binary left operator =>
    simp only [bindsAt, decide_eq_true_eq] at h ⊢
    omega

/-- A phrase that fits its place leaves what waits there alone: no operator of its rank takes it. -/
lemma bindsAt_eq_false {p : Pending} {waiting : List Pending} {rank : Nat}
    (hslot : slot (p :: waiting) ≤ rank) (hrank : rank ≤ 4) : p.bindsAt rank = false := by
  cases p with
  | unary operator => simp only [slot] at hslot; omega
  | binary left operator =>
    simp only [slot] at hslot
    simp only [bindsAt, decide_eq_false_iff_not]
    omega

/-- An operator takes exactly what was read above its own place. -/
lemma takeWhile_dropWhile_bindsAt {above waiting : List Pending} {rank : Nat}
    (habove : ∀ p ∈ above, p.bindsAt rank = true) (hslot : slot waiting ≤ rank) (hrank : rank ≤ 4) :
    (above ++ waiting).takeWhile (bindsAt rank) = above ∧
      (above ++ waiting).dropWhile (bindsAt rank) = waiting := by
  rw [List.takeWhile_append_of_pos habove, List.dropWhile_append_of_pos habove]
  cases waiting with
  | nil => simp
  | cons p waiting =>
    have hp := bindsAt_eq_false hslot hrank
    simp [hp]

end Pending

namespace Reader

/-! ## Frames -/

lemma frames_operand (waiting : List Pending) (outer : List (List Pending))
    (operand : Option Expr) :
    frames ⟨waiting, outer, operand⟩ = frames ⟨waiting, outer, none⟩ := rfl

lemma frames_opening (waiting : List Pending) (outer : List (List Pending)) :
    frames ⟨[], waiting :: outer, none⟩ = frames ⟨waiting, outer, none⟩ + 11 := by
  simp only [frames, List.length_cons, List.flatten_cons, List.nil_append]
  omega

lemma frames_unary (operator : Token) (waiting : List Pending) (outer : List (List Pending)) :
    frames ⟨.unary operator :: waiting, outer, none⟩ = frames ⟨waiting, outer, none⟩ + 1 := by
  simp only [frames, List.flatten_cons, List.cons_append, List.countP_cons, Pending.isUnary,
    if_true]
  omega

lemma frames_binary (left : Expr) (operator : Token) (waiting : List Pending)
    (outer : List (List Pending)) :
    frames ⟨.binary left operator :: waiting, outer, none⟩ = frames ⟨waiting, outer, none⟩ := by
  simp [frames, Pending.isUnary]

/-! ## Phrases -/

/-- `ReadsPhrase rank us e`: wherever a phrase of the rank may stand, the tokens `us` are taken;
they leave operators that bind at the rank and an operand, which together are `e`. -/
def ReadsPhrase (rank : Nat) (us : List Token) (e : Expr) : Prop :=
  ∀ (waiting : List Pending) (outer : List (List Pending)), Pending.slot waiting ≤ rank →
    ∃ (above : List Pending) (held : Expr),
      Reads ⟨waiting, outer, none⟩ us (frames ⟨waiting, outer, none⟩ + e.readingFrames)
        ⟨above ++ waiting, outer, some held⟩ ∧
      Pending.applyAll above held = e ∧ ∀ p ∈ above, p.bindsAt rank = true

lemma ReadsPhrase.loosen {tight loose : Nat} {us : List Token} {e : Expr}
    (h : ReadsPhrase tight us e) (hle : loose ≤ tight) : ReadsPhrase loose us e := by
  intro waiting outer hslot
  obtain ⟨above, held, hread, happly, hbinds⟩ := h waiting outer (by omega)
  exact ⟨above, held, hread, happly, fun p hp => Pending.bindsAt_mono hle (hbinds p hp)⟩

lemma ReadsPhrase.literal {t : Token} {v : Value} (h : Expr.ofToken? t = some (.literal v))
    (rank : Nat) : ReadsPhrase rank [t] (.literal v) := by
  intro waiting outer _
  exact ⟨[], .literal v, .one (.literal h), rfl, fun p hp => absurd hp List.not_mem_nil⟩

lemma ReadsPhrase.prefixed {operator : Token} {us : List Token} {e : Expr}
    (hkind : operator.kind = .bang ∨ operator.kind = .minus) (h : ReadsPhrase 5 us e) :
    ReadsPhrase 5 (operator :: us) (.unary operator e) := by
  intro waiting outer _
  obtain ⟨above, held, hread, happly, hbinds⟩ :=
    h (.unary operator :: waiting) outer (Nat.le_refl 5)
  refine ⟨above ++ [.unary operator], held, ?_, ?_, ?_⟩
  · -- The operator waits while its operand is read, one frame below the operand's own.
    have hall := Reads.next (.prefixed hkind) hread
    rw [frames_unary] at hall
    rw [List.append_assoc, List.singleton_append, Expr.readingFrames]
    convert hall using 1
    omega
  · rw [Pending.applyAll_append, happly]
    rfl
  · intro p hp
    rcases List.mem_append.mp hp with hp | hp
    · exact hbinds p hp
    · rw [List.mem_singleton.mp hp]
      rfl

lemma ReadsPhrase.chain {rank : Nat} {operator : Token} {us vs : List Token} {left right : Expr}
    (hlevel : operator.kind.level? = some rank) (hrank : rank ≤ 4)
    (hleft : ReadsPhrase rank us left) (hright : ReadsPhrase (rank + 1) vs right) :
    ReadsPhrase rank (us ++ operator :: vs) (.binary left operator right) := by
  intro waiting outer hslot
  obtain ⟨above, held, hread, happly, hbinds⟩ := hleft waiting outer hslot
  -- The operator takes what the left phrase has left above, and nothing below.
  obtain ⟨htake, hdrop⟩ := Pending.takeWhile_dropWhile_bindsAt hbinds hslot hrank
  have hoperator : Takes ⟨above ++ waiting, outer, some held⟩ operator _ := .chained hlevel
  rw [htake, hdrop, happly] at hoperator
  have hslot' : Pending.slot (.binary left operator :: waiting) ≤ rank + 1 := by
    simp [Pending.slot, hlevel]
  obtain ⟨above', held', hread', happly', hbinds'⟩ :=
    hright (.binary left operator :: waiting) outer hslot'
  refine ⟨above' ++ [.binary left operator], held', ?_, ?_, ?_⟩
  · have hall := hread.append (.next hoperator hread')
    rw [frames_binary] at hall
    rw [List.append_assoc, List.singleton_append, Expr.readingFrames]
    convert hall using 1
    omega
  · rw [Pending.applyAll_append, happly']
    rfl
  · intro p hp
    rcases List.mem_append.mp hp with hp | hp
    · exact Pending.bindsAt_mono (Nat.le_succ rank) (hbinds' p hp)
    · rw [List.mem_singleton.mp hp]
      simp [Pending.bindsAt, hlevel]

lemma ReadsPhrase.group {opening closing : Token} {us : List Token} {e : Expr}
    (hopening : opening.kind = .leftParen) (h : ReadsPhrase 1 us e)
    (hclosing : closing.kind = .rightParen) (rank : Nat) :
    ReadsPhrase rank (opening :: us ++ [closing]) (.group e) := by
  intro waiting outer _
  -- Inside the parentheses nothing waits yet, so any expression can stand there.
  obtain ⟨above, held, hread, happly, -⟩ := h [] (waiting :: outer) (Nat.le_refl 1)
  rw [List.append_nil] at hread
  have hclose : Takes ⟨above, waiting :: outer, some held⟩ closing _ := .closing hclosing
  rw [happly] at hclose
  refine ⟨[], .group e, ?_, rfl, fun p hp => absurd hp List.not_mem_nil⟩
  have hall := Reads.next (.opening hopening) (hread.append (.one hclose))
  rw [frames_operand waiting, frames_opening] at hall
  rw [List.cons_append, List.nil_append, Expr.readingFrames]
  convert hall using 1
  omega

/-- What the grammar derives, the reader takes. -/
theorem readsPhrase_of_derives {rule : Grammar.Rule} {us : List Token} {e : Expr}
    (h : Grammar.Derives rule us e) : ReadsPhrase rule.rank us e := by
  induction h with
  | @single rule us e _ ih =>
    refine ih.loosen ?_
    cases rule <;> decide
  | @chain rule us vs left right operator _ hmem _ ihleft ihright =>
    have hrank := Grammar.Rule.rank_le_of_mem_operators hmem
    rw [Grammar.Rule.rank_tighter (by omega)] at ihright
    exact .chain ((rule.mem_operators_iff _).mp hmem) hrank ihleft ihright
  | prefixed hkind _ ih => exact .prefixed hkind ih
  | carried hkind =>
    refine .literal ?_ _
    rcases hkind with h | h <;> simp only [Expr.ofToken?, h]
  | yes hkind => exact .literal (by simp only [Expr.ofToken?, hkind]) _
  | no hkind => exact .literal (by simp only [Expr.ofToken?, hkind]) _
  | nil hkind => exact .literal (by simp only [Expr.ofToken?, hkind]) _
  | group hopening _ hclosing ih => exact .group hopening ih hclosing _

end Reader
end LoxCalc
