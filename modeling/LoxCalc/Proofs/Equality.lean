import LoxCalc.Proofs.Interpreting
import LoxCalc.Proofs.KindInference
import LoxCalc.Proofs.NumberBits

/-!
# Equality of values

Values are equal if they are the same or two zeros (`Value.equals_iff`), for there is one value
only that is a number and yet none, whatever bits it was made of. So equality is an equivalence that
keeps to the kinds of values. What the equality operators say about expressions follows, as a limit
can only cut a comparison off, and both comparisons of the same expressions alike
(`Expr.eval_equal`).
-/

namespace LoxCalc

open Binary64 (NaNBits ZeroBits magnitude)

/-! ## Numbers -/

/-- Numbers are the same if they are one number or both zero. -/
lemma sameNumber_iff (x y : Float) :
    sameNumber x y = true ↔ x = y ∨ magnitude x = 0 ∧ magnitude y = 0 := by
  have hnan : x.isNaN = true → y.isNaN = true → x = y := by
    simp only [Float.isNaN_eq_decide_eq_nan, decide_eq_true_eq]
    intro hx hy
    rw [hx, hy]
  rw [sameNumber, Bool.or_eq_true, Bool.and_eq_true, Binary64.beq_iff]
  constructor
  · rintro (⟨hx, hy⟩ | ⟨-, -, hsame⟩)
    · exact .inl (hnan hx hy)
    · exact hsame
  · rintro (rfl | ⟨hx, hy⟩)
    · cases hx : x.isNaN with
      | true => exact .inl ⟨rfl, rfl⟩
      | false => exact .inr ⟨rfl, rfl, .inl rfl⟩
    · exact .inr ⟨Binary64.isNaN_of_magnitude_eq_zero hx, Binary64.isNaN_of_magnitude_eq_zero hy,
        .inr ⟨hx, hy⟩⟩

/-! ## Values -/

namespace Value

/-- Values are equal if they are the same or two zeros. -/
theorem equals_iff (v w : Value) :
    v.equals w = true ↔
      v = w ∨ ∃ x y, v = .number x ∧ w = .number y ∧ magnitude x = 0 ∧ magnitude y = 0 := by
  cases v <;> cases w <;> simp [equals, sameNumber_iff]

theorem equals_equivalence : Equivalence fun v w : Value => v.equals w = true := by
  constructor
  · intro v
    exact (equals_iff v v).mpr (.inl rfl)
  · intro v w h
    rcases (equals_iff v w).mp h with rfl | ⟨x, y, hv, hw, hx, hy⟩
    · exact h
    · exact (equals_iff w v).mpr (.inr ⟨y, x, hw, hv, hy, hx⟩)
  · intro u v w huv hvw
    rcases (equals_iff u v).mp huv with rfl | ⟨x, y, rfl, rfl, hx, -⟩
    · exact hvw
    · rcases (equals_iff _ w).mp hvw with rfl | ⟨-, z, -, rfl, -, hz⟩
      · exact huv
      · exact (equals_iff _ _).mpr (.inr ⟨x, z, rfl, rfl, hx, hz⟩)

lemma equals_comm (v w : Value) : v.equals w = w.equals v :=
  Bool.eq_iff_iff.mpr ⟨equals_equivalence.symm, equals_equivalence.symm⟩

lemma equals_of_kind_ne {v w : Value} (h : v.kind ≠ w.kind) : v.equals w = false := by
  rw [Bool.eq_false_iff, ne_eq, equals_iff]
  rintro (rfl | ⟨x, y, rfl, rfl, -⟩)
  · exact h rfl
  · exact h rfl

end Value

/-! ## Expressions -/

namespace Expr

variable {l m r : Expr} {u v w : Value}

/-- An expression with a value has it under every limit that leaves room for its height. -/
lemma eval_of_value (limit : Limit) (h : l.eval .unlimited = .ok u) :
    l.eval limit = if limit.allows (3 * l.height) then .ok u else .error .tooDeep := by
  split
  · next hallows => exact eval_of_eval_unlimited hallows h
  · next hallows => exact eval_eq_tooDeep hallows h

/-- Where there is no limit, an operator gets the values that its operands have on their own. -/
lemma eval_binary (hl : l.eval .unlimited = .ok u) (hm : m.eval .unlimited = .ok v)
    (operator : Token) :
    (Expr.binary l operator m).eval .unlimited =
      conclude .unlimited 1 (applyBinary operator u v) := by
  have hdeeper : ∀ {e : Expr} {x : Value}, e.eval .unlimited = .ok x →
      evalAt .unlimited 2 e = .ok x := by
    intro e x h
    rw [← h]
    exact evalAt_of_room (fun _ _ => rfl) (by rw [← eval, h]; nofun)
  rw [eval, evalAt_binary rfl, hdeeper hl, hdeeper hm]
  rfl

/-- What an equality operator says: whether the values are equal, if there is room. -/
lemma eval_equal (limit : Limit) (hl : l.eval .unlimited = .ok u) (hm : m.eval .unlimited = .ok v)
    {eq : Token} (heq : eq.kind = .equalEqual) :
    (Expr.binary l eq m).eval limit =
      if limit.allows (3 * (max l.height m.height + 1)) then .ok (.bool (u.equals v))
      else .error .tooDeep := by
  apply eval_of_value
  rw [eval_binary hl hm, applyBinary, heq]
  rfl

lemma eval_notEqual (limit : Limit) (hl : l.eval .unlimited = .ok u)
    (hm : m.eval .unlimited = .ok v) {ne : Token} (hne : ne.kind = .bangEqual) :
    (Expr.binary l ne m).eval limit =
      if limit.allows (3 * (max l.height m.height + 1)) then .ok (.bool !(u.equals v))
      else .error .tooDeep := by
  apply eval_of_value
  rw [eval_binary hl hm, applyBinary, hne]
  rfl

/-- What it means that a comparison holds. -/
lemma eval_equal_eq_true_iff (limit : Limit) (hl : l.eval .unlimited = .ok u)
    (hm : m.eval .unlimited = .ok v) {eq : Token} (heq : eq.kind = .equalEqual) :
    (Expr.binary l eq m).eval limit = .ok (.bool true) ↔
      limit.allows (3 * (max l.height m.height + 1)) = true ∧ u.equals v = true := by
  rw [eval_equal limit hl hm heq]
  split
  · next hallows => simp [hallows]
  · next hallows => simp [hallows]

/-- Equality is an equivalence that keeps to the kinds of values. Numbers are equal if their bits
stand for no number, are the same, or are both those of zeros. So for expressions that have values,
each is equal to itself, to compare them the other way round gives the same, equality is passed on,
and inequality says the opposite; a comparison for which there is no room is cut off. -/
theorem equality_laws :
    (Equivalence fun v w : Value => v.equals w = true) ∧
    (∀ v w : Value, v.kind ≠ w.kind → v.equals w = false) ∧
    (∀ a b : UInt64, Value.equals (.number (.ofBits a)) (.number (.ofBits b)) = true ↔
      NaNBits a ∧ NaNBits b ∨ ¬NaNBits a ∧ a = b ∨ ZeroBits a ∧ ZeroBits b) ∧
    ∀ (limit : Limit) (l m r : Expr) (u v w : Value) (eq eq' eq'' ne : Token),
      l.eval .unlimited = .ok u → m.eval .unlimited = .ok v → r.eval .unlimited = .ok w →
      eq.kind = .equalEqual → eq'.kind = .equalEqual → eq''.kind = .equalEqual →
      ne.kind = .bangEqual →
      (Expr.binary l eq l).eval limit =
        (if limit.allows (3 * (l.height + 1)) then .ok (.bool true) else .error .tooDeep) ∧
      (Expr.binary l eq m).eval limit = (Expr.binary m eq' l).eval limit ∧
      ((Expr.binary l eq m).eval limit = .ok (.bool true) →
        (Expr.binary m eq' r).eval limit = .ok (.bool true) →
        (Expr.binary l eq'' r).eval limit = .ok (.bool true)) ∧
      (limit.allows (3 * (max l.height m.height + 1)) = true →
        ∃ b, (Expr.binary l eq m).eval limit = .ok (.bool b) ∧
          (Expr.binary l ne m).eval limit = .ok (.bool !b)) := by
  refine ⟨Value.equals_equivalence, fun v w => Value.equals_of_kind_ne, fun a b => ?_, ?_⟩
  · show sameNumber _ _ = true ↔ _
    rw [sameNumber_iff, Binary64.ofBits_eq_iff, Binary64.magnitude_ofBits_eq_zero_iff,
      Binary64.magnitude_ofBits_eq_zero_iff, or_assoc]
  · intro limit l m r u v w eq eq' eq'' ne hl hm hr heq heq' heq'' hne
    refine ⟨?_, ?_, ?_, ?_⟩
    · rw [eval_equal limit hl hl heq, Nat.max_self, Value.equals_equivalence.refl u]
    · rw [eval_equal limit hl hm heq, eval_equal limit hm hl heq', Nat.max_comm,
        Value.equals_comm]
    · rw [eval_equal_eq_true_iff limit hl hm heq, eval_equal_eq_true_iff limit hm hr heq',
        eval_equal_eq_true_iff limit hl hr heq'']
      rintro ⟨hroom, huv⟩ ⟨hroom', hvw⟩
      -- The third comparison is no higher than the higher of the other two.
      have hboth := (limit.allows_max _ _).mpr ⟨hroom, hroom'⟩
      exact ⟨Limit.allows_mono (by omega) hboth, Value.equals_equivalence.trans huv hvw⟩
    · intro hroom
      refine ⟨u.equals v, ?_, ?_⟩
      · rw [eval_equal limit hl hm heq, if_pos hroom]
      · rw [eval_notEqual limit hl hm hne, if_pos hroom]

/-- The tree of `!x`. -/
def negationOf (x : Value) : Expr :=
  .unary ⟨.bang, "!", none, 1⟩ (.literal x)

/-- What is no number is equal to itself with other bits, a zero to the other zero, and `!0` to
`!1`. -/
theorem equality_laws_zeros :
    Value.equals (.number (.ofBits 0x7FF0000000000001)) (.number (.ofBits 0xFFF8000000000000)) =
      true ∧
    Value.equals (.number (.ofBits 0)) (.number (.ofBits 0x8000000000000000)) = true ∧
    (Expr.binary (negationOf (.number 0)) ⟨.equalEqual, "==", none, 1⟩
      (negationOf (.number 1))).eval .standard = .ok (.bool true) ∧
    (Expr.binary (negationOf (.number 0)) ⟨.bangEqual, "!=", none, 2⟩
      (negationOf (.number 1))).eval .standard = .ok (.bool false) := by
  obtain ⟨-, -, hbits, htrees⟩ := equality_laws
  have hnan : NaNBits 0x7FF0000000000001 ∧ NaNBits 0xFFF8000000000000 := by
    unfold NaNBits
    decide
  have hzero : ZeroBits 0 ∧ ZeroBits 0x8000000000000000 := by
    unfold ZeroBits
    decide
  have hequal : (Expr.binary (negationOf (.number 0)) ⟨.equalEqual, "==", none, 1⟩
      (negationOf (.number 1))).eval .standard = .ok (.bool true) := rfl
  obtain ⟨-, -, -, hopposite⟩ := htrees .standard (negationOf (.number 0)) (negationOf (.number 1))
    (.literal .nil) _ _ _ ⟨.equalEqual, "==", none, 1⟩ ⟨.equalEqual, "==", none, 1⟩
    ⟨.equalEqual, "==", none, 1⟩ ⟨.bangEqual, "!=", none, 2⟩ rfl rfl rfl rfl rfl rfl rfl
  obtain ⟨b, hb, hnot⟩ := hopposite (by decide)
  cases hequal.symm.trans hb
  exact ⟨(hbits _ _).mpr (.inl hnan), (hbits _ _).mpr (.inr (.inr hzero)), hequal, hnot⟩

end Expr
end LoxCalc
