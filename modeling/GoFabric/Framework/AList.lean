import Mathlib.Data.List.AList

/-!
# Maps as association lists

What is found under a key after an entry was added or removed.
-/

namespace GF

variable {α β : Type} [DecidableEq α] {l : AList fun _ : α => β} {a k : α} {b v : β}

theorem lookup_insert_some : (l.insert a b).lookup k = some v ↔ k = a ∧ b = v ∨ k ≠ a ∧ l.lookup k = some v := by
  obtain rfl | hk := eq_or_ne k a
  · simp
  · simp [hk, AList.lookup_insert_ne hk]

theorem lookup_erase_some : (l.erase a).lookup k = some v ↔ k ≠ a ∧ l.lookup k = some v := by
  obtain rfl | hk := eq_or_ne k a
  · simp
  · simp [hk, AList.lookup_erase_ne hk]

end GF
