import Mathlib.Algebra.Group.Basic

/-!
# Check digits over a group

A string of digits is weighed by the product of its digits, each mapped into a
group by its position. When every map is injective, one wrong digit changes the
product (`weight_replace_ne`); when two neighbouring maps are anti-symmetric, so
do two neighbouring digits that changed places (`weight_swap_ne`).
-/

namespace GF

variable {α G : Type*} [Group G] (w : Nat → α → G)

/-- The product of the digits, the first at position `k`. -/
def weight (k : Nat) : List α → G
  | [] => 1
  | a :: l => w k a * weight (k + 1) l

theorem weight_append (k : Nat) (l l' : List α) :
    weight w k (l ++ l') = weight w k l * weight w (k + l.length) l' := by
  induction l generalizing k with
  | nil => rw [List.nil_append, weight, one_mul, List.length_nil, Nat.add_zero]
  | cons a l ih =>
    rw [List.cons_append, weight, weight, ih, mul_assoc, List.length_cons, Nat.add_assoc, Nat.add_comm 1]

variable {w}

theorem weight_replace_ne (hw : ∀ k, Function.Injective (w k)) {x y : α} (h : x ≠ y) (k : Nat) (before after : List α) :
    weight w k (before ++ x :: after) ≠ weight w k (before ++ y :: after) := by
  intro heq
  rw [weight_append, weight_append] at heq
  exact h (hw _ (mul_right_cancel (mul_left_cancel heq)))

theorem weight_swap_ne (hw : ∀ k x y, x ≠ y → w k x * w (k + 1) y ≠ w k y * w (k + 1) x) {x y : α} (h : x ≠ y)
    (k : Nat) (before after : List α) :
    weight w k (before ++ x :: y :: after) ≠ weight w k (before ++ y :: x :: after) := by
  intro heq
  rw [weight_append, weight_append] at heq
  have hpair := mul_left_cancel heq
  rw [weight, weight, weight, weight, ← mul_assoc, ← mul_assoc] at hpair
  exact hw _ x y h (mul_right_cancel hpair)

end GF
