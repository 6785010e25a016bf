import GoFabric.Impl.JointFabric.Lists

/-!
# What list ids are for

A removal names an entry by its list id. The ids stay apart while there is room for those that
are drawn.
-/

namespace GF.Spec.ListIds

open GF.Impl.JointFabric

/-- The list ids that a new one is drawn above. -/
def listIDs (t : Tables) : List (BitVec 16) := t.bindings.map (·.listId) ++ t.acls.map (·.listID)

/-- There are `n` list ids above those of the tables. -/
def Room (t : Tables) (n : Nat) : Prop := n ≤ 65536 ∧ ∀ id ∈ listIDs t, id.toNat + n < 65536

instance (t : Tables) (n : Nat) : Decidable (Room t n) :=
  have : Decidable (∀ id ∈ listIDs t, id.toNat + n < 65536) := List.decidableBAll _ _
  inferInstanceAs (Decidable (_ ∧ _))

end GF.Spec.ListIds
