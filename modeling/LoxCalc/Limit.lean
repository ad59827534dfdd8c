/-!
# Nesting limits

Reading, printing and evaluating an expression each use up a number of frames for every level they
descend. A limit says how many frames there are.
-/

namespace LoxCalc

/-- How many frames may be in use at once. -/
inductive Limit where
  | frames (count : Nat)
  | unlimited
  deriving DecidableEq

namespace Limit

/-- Whether a limit leaves room for that many frames. -/
def allows : Limit → Nat → Bool
  | .frames count, used => used ≤ count
  | .unlimited, _ => true

theorem allows_frames_iff (count used : Nat) :
    (frames count).allows used = true ↔ used ≤ count :=
  decide_eq_true_iff

theorem allows_zero (limit : Limit) : limit.allows 0 = true := by
  cases limit with
  | frames count => exact decide_eq_true (Nat.zero_le count)
  | unlimited => rfl

theorem allows_max (limit : Limit) (a b : Nat) :
    limit.allows (max a b) = true ↔ limit.allows a = true ∧ limit.allows b = true := by
  cases limit with
  | frames count => simp only [allows, decide_eq_true_eq]; omega
  | unlimited => simp only [allows, and_self]

/-- A limit that leaves room for some frames leaves room for fewer. -/
theorem allows_mono {limit : Limit} {a b : Nat} (hab : a ≤ b) (hb : limit.allows b = true) :
    limit.allows a = true := by
  rw [← Nat.max_eq_right hab] at hb
  exact ((limit.allows_max a b).mp hb).1

/-- The limit of the program. -/
def standard : Limit := .frames 980

end Limit
end LoxCalc
