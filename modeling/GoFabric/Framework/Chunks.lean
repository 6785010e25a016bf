import Mathlib.Data.List.Basic

/-!
# Loops that read a list chunk by chunk

A loop over a list that looks at the element at its position and what follows,
produces an item, and moves on by one element and as many more as it read.
`chunks step l` is the items of such a loop; it has the equations of the loop
(`chunks_cons`) and its induction (`chunk_induction`).
-/

namespace GF

variable {α β : Type _}

/-- The items of at most `fuel` turns of the loop. -/
def chunksFuel (step : α → List α → β × Nat) : Nat → List α → List β
  | 0, _ => []
  | _ + 1, [] => []
  | fuel + 1, a :: l => (step a l).1 :: chunksFuel step fuel (l.drop (step a l).2)

/-- The items of the loop: at `a`, with `l` behind it, `step a l` is the item
and how many elements of `l` belong to it. -/
def chunks (step : α → List α → β × Nat) (l : List α) : List β := chunksFuel step l.length l

theorem chunksFuel_eq (step : α → List α → β × Nat) {fuel : Nat} {l : List α} (h : l.length ≤ fuel) :
    chunksFuel step fuel l = chunks step l := by
  induction fuel using Nat.strongRecOn generalizing l with
  | ind fuel ih =>
    cases l with
    | nil => cases fuel <;> rfl
    | cons a l =>
      cases fuel with
      | zero => exact absurd h (by simp)
      | succ fuel =>
        have hl : l.length ≤ fuel := Nat.le_of_succ_le_succ h
        have hd : (l.drop (step a l).2).length ≤ l.length := by rw [List.length_drop]; omega
        unfold chunks
        rw [chunksFuel, ih fuel (Nat.lt_succ_self fuel) (Nat.le_trans hd hl)]
        congr 1
        by_cases hlt : l.length = fuel
        · rw [hlt, ih fuel (Nat.lt_succ_self fuel) (Nat.le_trans hd hl)]
        · exact (ih l.length (by omega) hd).symm

theorem chunks_cons (step : α → List α → β × Nat) (a : α) (l : List α) :
    chunks step (a :: l) = (step a l).1 :: chunks step (l.drop (step a l).2) := by
  have hd : (l.drop (step a l).2).length ≤ l.length := by rw [List.length_drop]; omega
  rw [← chunksFuel_eq step hd]
  rfl

/-- Induction along the loop. -/
theorem chunk_induction (width : α → List α → Nat) {P : List α → Prop} (nil : P [])
    (cons : ∀ a l, P (l.drop (width a l)) → P (a :: l)) (l : List α) : P l := by
  have h : ∀ n (l : List α), l.length ≤ n → P l := by
    intro n
    induction n with
    | zero => intro l hl; rw [List.length_eq_zero_iff.mp (Nat.le_zero.mp hl)]; exact nil
    | succ n ih =>
      intro l hl
      cases l with
      | nil => exact nil
      | cons a l =>
        refine cons a l (ih _ ?_)
        rw [List.length_drop]
        have : l.length ≤ n := Nat.le_of_succ_le_succ hl
        omega
  exact h l.length l (Nat.le_refl _)

end GF
