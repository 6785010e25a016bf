import GoFabric.Framework.Ledger
import GoFabric.Impl.Groups.Counter
import Mathlib.Algebra.Ring.Nat

/-!
# Positions of the group data counter

The counter wraps after 2^32 values. Its position does not: it goes up by one
with each call of `next`, and a restart takes it to the position of the mark in
the store, so that it is the value plus a multiple of 2^32. `Traced` is a node
with the positions of its counter, of the mark that it reserved and of the mark
in the store, and a log of what it handed out.
-/

namespace GF.Spec.GroupCounter

open GF.Impl.Groups

/-- A value that was handed out, with the mark in the store at that moment. -/
structure Handed where
  position : Nat
  value : BitVec 32
  stored : Option Nat
  ceiling : Nat
deriving DecidableEq

/-- A node and its positions: of the counter, of the mark it reserved and of
the mark in the store. `failures` counts the calls of `next` in a row that
returned an error. -/
structure Traced where
  node : Node
  position : Nat
  mark : Nat
  ceiling : Nat
  failures : Nat
  log : List Handed
deriving DecidableEq

/-- A node whose store holds `stored`, before the first start. -/
def Traced.init (stored : Option Nat) : Traced :=
  { node := { stored := stored, counter := none }, position := 0, mark := 0, ceiling := stored.getD 0, failures := 0,
    log := [] }

/-- The position of a mark that is written from `position`; a mark is not
behind the counter. -/
def markPosition (position mark : Nat) : Nat := position + (mark - position % 2 ^ 32)

/-- Where a start takes the counter from: the mark in the store, or the random
start. -/
def startPosition (t : Traced) (random : Option (BitVec 32)) : Nat :=
  match t.node.stored with
  | some _ => t.ceiling
  | none => (random.getD 0).toNat

/-- The position of the mark in the store after a step at `position`. -/
def ceilingAfter (t : Traced) (position : Nat) (written : Option Nat) : Nat :=
  match written with
  | some mark => markPosition position mark
  | none => t.ceiling

/-- A step of the node, with its positions. -/
def Traced.step (t : Traced) (e : CounterEvent) : Option Traced := do
  let (node, effect) ← t.node.step e
  match e with
  | .start _ random _ =>
    let position := startPosition t random
    let ceiling := ceilingAfter t position effect.written
    pure { t with node := node, position := position, mark := ceiling, ceiling := ceiling, failures := 0 }
  | .next _ =>
    let position := t.position + 1
    let ceiling := ceilingAfter t position effect.written
    match effect.handed with
    | some v =>
      let mark := if effect.written.isSome then ceiling else t.mark
      pure { node := node, position := position, mark := mark, ceiling := ceiling, failures := 0,
             log := t.log ++ [{ position := position, value := v, stored := node.stored, ceiling := ceiling }] }
    | none => pure { t with node := node, position := position, ceiling := ceiling, failures := t.failures + 1 }
  | .crash => pure { t with node := node, failures := 0 }

/-- Nodes with their positions. -/
def tracedSystem : System Traced CounterEvent := { step := Traced.step }

/-- The calls of `next` that failed in a row are too few for the counter to
come round to the window below its mark. -/
def FewFailures (t : Traced) : Prop := t.failures < 2 ^ 32 - 1001
deriving Decidable

/-- A value that was handed out is its position modulo 2^32, and a mark above
it was in the store; the last value before the wrap is its own mark. -/
def Covered (h : Handed) : Prop :=
  h.value.toNat = h.position % 2 ^ 32 ∧ ∃ m, h.stored = some m ∧ m = h.ceiling % 2 ^ 32 ∧
    h.value.toNat ≤ m ∧ h.position ≤ h.ceiling ∧
    (h.value.toNat ≠ maxCounterValue → h.value.toNat < m ∧ h.position < h.ceiling)

/-- The positions handed out, below the mark in the store. -/
def Traced.ledger (t : Traced) : Ledger := { issued := t.log.map Handed.position, ceiling := t.ceiling }

end GF.Spec.GroupCounter
