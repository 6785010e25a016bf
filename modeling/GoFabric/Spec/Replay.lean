import GoFabric.Framework.Machine
import Mathlib.Algebra.Ring.Int.Defs

/-!
# What a replay window is for

Without rollover, the reference keeps every counter it ever accepted, the first one
first. A counter is fresh when nothing was accepted yet, when it is above all accepted
ones, or when it is one of the 32 below the largest, above the first one ever
accepted and not accepted before.

With rollover, the reference keeps positions in an unbounded counter space: a counter
stands for the position nearest to the largest accepted one (`position`), and is
decided in the same way.
-/

namespace GF.Spec.Replay

/-- The largest of the counters, 0 when there is none. -/
def maxOf (seen : List (BitVec 32)) : Nat := (seen.map BitVec.toNat).foldr max 0

/-- Whether the reference accepts `c` after it accepted `seen`. -/
def Fresh (seen : List (BitVec 32)) (c : BitVec 32) : Prop :=
  seen = [] ∨ maxOf seen < c.toNat ∨
    (((maxOf seen : Int) - 32 ≤ c.toNat ∧ c.toNat < maxOf seen) ∧
      (∀ first ∈ seen.head?, first.toNat < c.toNat) ∧ c ∉ seen)
deriving Decidable

/-- The reference as a machine over the list of accepted counters. -/
def reference : Machine (List (BitVec 32)) (BitVec 32) Bool where
  step seen c := if Fresh seen c then (true, seen ++ [c]) else (false, seen)

theorem reference_step (seen : List (BitVec 32)) (c : BitVec 32) :
    reference.step seen c = if Fresh seen c then (true, seen ++ [c]) else (false, seen) := rfl

/-- The state of the reference is what it accepted. -/
theorem final_reference (seen cs : List (BitVec 32)) :
    reference.final seen cs = seen ++ reference.accepted seen cs := by
  induction cs generalizing seen with
  | nil => simp only [Machine.final, Machine.accepted, List.append_nil]
  | cons c cs ih =>
    simp only [Machine.final, Machine.accepted, ih, reference_step]
    split <;> simp

/-- The position that the counter stands for when the largest accepted one is `m`. -/
def position (m : Int) (c : BitVec 32) : Int := m - 2 ^ 31 + ((c.toNat : Int) - (m - 2 ^ 31)) % 2 ^ 32

/-- The reference with rollover, once it has accepted a counter: the first accepted
position, the largest and all of them. -/
structure Unwrapped where
  first : Int
  max : Int
  accepted : List Int

/-- Whether the reference accepts the position. -/
def Unwrapped.Fresh (u : Unwrapped) (x : Int) : Prop :=
  u.max < x ∨ (u.max - 32 ≤ x ∧ x < u.max ∧ u.first < x ∧ x ∉ u.accepted)
deriving Decidable

/-- The reference after it has accepted the position. -/
def Unwrapped.add (u : Unwrapped) (x : Int) : Unwrapped :=
  { u with max := if u.max < x then x else u.max, accepted := u.accepted ++ [x] }

/-- The reference with rollover as a machine. -/
def unwrapped : Machine (Option Unwrapped) (BitVec 32) Bool where
  step
  | none, c => (true, some { first := c.toNat, max := c.toNat, accepted := [(c.toNat : Int)] })
  | some u, c =>
    if u.Fresh (position u.max c) then (true, some (u.add (position u.max c))) else (false, some u)

end GF.Spec.Replay
