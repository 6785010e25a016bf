import GoFabric.Impl.Transition
import Mathlib.Data.Int.ModEq

/-!
# Where a transition is to end

The distances that lead from one hue to another in a direction, and the points that a
way between two bounds may end at.
-/

namespace GF.Spec.Transition

open GF.Impl.Transition

/-- A distance from `c` to `t`, of those from `lo` on. -/
def Reaches (maxHue c t lo n : ℤ) : Prop := lo ≤ n ∧ n ≤ lo + maxHue ∧ n ≡ t - c [ZMOD maxHue + 1]

/-- `d` is the only distance of those from `lo` on. -/
def IsWay (maxHue c t lo : ℤ) (d : ℚ) : Prop :=
  ∃ n : ℤ, d = n ∧ Reaches maxHue c t lo n ∧ ∀ m, Reaches maxHue c t lo m → m = n

/-- The distance in a direction leads from `c` to `t`. -/
def Leads (maxHue c t : ℤ) (direction : HueDirection) : Prop :=
  let d := hueDistance c t direction maxHue
  match direction with
  | .up => IsWay maxHue c t 1 d
  | .down => IsWay maxHue c t (-(maxHue + 1)) d
  | _ => IsWay maxHue c t 1 d ∨ IsWay maxHue c t (-(maxHue + 1)) d

/-- How far `t` is up from `c`. -/
def wayUp (maxHue c t : ℤ) : ℤ := if c < t then t - c else maxHue + t + 1 - c

/-- The distance in a direction is the way up. -/
def goesUp (maxHue c t : ℤ) : HueDirection → Bool
  | .up => true
  | .shortest => 2 * wayUp maxHue c t ≤ maxHue
  | .longest => maxHue < 2 * wayUp maxHue c t
  | _ => false

/-- The points of a wheel where the bounds coincide. -/
def SamePoint (lower upper a b : ℚ) : Prop := a = b ∨ a = lower ∧ b = upper ∨ a = upper ∧ b = lower

/-- Where the distance from `a` to `b` leads in the direction of `rate`. -/
def arrival (a b rate lower upper : ℚ) : ℚ :=
  let d := directionalDistance a b rate lower upper
  addWithOverflow a (if rate > 0 then d else -d) lower upper

/-- The values from `lower` to `upper`, of which sums are exact. -/
structure Between (lower upper a : ℤ) : Prop where
  least : -2 ^ 51 < lower
  most : upper < 2 ^ 51
  ge : lower ≤ a
  le : a ≤ upper

end GF.Spec.Transition
