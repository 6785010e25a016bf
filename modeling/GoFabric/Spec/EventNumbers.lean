import GoFabric.Framework.Ledger
import GoFabric.Impl.Im.EventLog
import Mathlib.Algebra.Ring.Nat

/-!
# Event numbers over a node's life

`Traced` is a node with the numbers that its event logs assigned, over all of
its restarts, each with the ceiling that the store had at that moment. The
numbers and the ceiling are a ledger.
-/

namespace GF.Spec.EventNumbers

open GF.Impl.Im

variable {α : Type}

/-- A number that was assigned, and the ceiling that `persistFn` had stored by
then. -/
structure Assigned where
  number : BitVec 64
  ceiling : Option (BitVec 64)

/-- The number is not above the ceiling. -/
def Assigned.Covered (a : Assigned) : Prop := ∃ c, a.ceiling = some c ∧ a.number.toNat ≤ c.toNat

/-- A node and the numbers it assigned, the latest last. -/
structure Traced (α : Type) where
  node : LogNode α
  assigned : List Assigned

/-- A node that starts with `stored` in its store. -/
def Traced.boot (stored : Option (BitVec 64)) (epoch : BitVec 64) : Traced α :=
  { node := .boot stored epoch, assigned := [] }

/-- What a call that arrived at `call` has just assigned. -/
def assignedBy (stored : Option (BitVec 64)) : LogCall α → List Assigned
  | .appended rec => [{ number := rec.number, ceiling := stored }]
  | _ => []

/-- What a step to `n'` assigned. -/
def assignedIn (n n' : LogNode α) : LogEvent α → List Assigned
  | .step i _ => (n'.calls[i]?.map (assignedBy n.stored)).getD []
  | _ => []

/-- A step of the node, with the number that it assigned. -/
def Traced.step (t : Traced α) (e : LogEvent α) : Option (Traced α) :=
  (t.node.step e).map fun n => { node := n, assigned := t.assigned ++ assignedIn t.node n e }

/-- Nodes with the numbers they assigned. -/
def tracedSystem (α : Type) : System (Traced α) (LogEvent α) := { step := Traced.step }

/-- The numbers of a log have not run out: there is a next one, and the ceiling
that it needs, if it needs one, does not wrap. -/
def HasRoom (l : EventLog α) : Prop :=
  l.next.toNat + 1 < 2 ^ 64 ∧ (l.needsCeiling = true → l.next.toNat + 1 + l.persistEpoch.toNat < 2 ^ 64)
deriving Decidable

/-- The numbers of the node have not run out. -/
def Room (t : Traced α) : Prop := HasRoom t.node.log
deriving Decidable

/-- The ceiling in the store, as a number. -/
def ceilingOf (stored : Option (BitVec 64)) : Nat := (stored.getD 0).toNat

/-- The numbers assigned, below the ceiling in the store. -/
def Traced.ledger (t : Traced α) : Ledger :=
  { issued := t.assigned.map fun a => a.number.toNat, ceiling := ceilingOf t.node.stored }

end GF.Spec.EventNumbers
