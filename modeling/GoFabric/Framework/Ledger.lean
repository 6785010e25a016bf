import Mathlib.Data.List.Pairwise

/-!
# Numbers that are issued below a stored ceiling

A ledger is the numbers issued so far and a ceiling that survives a crash. A
number is issued when it is larger than all before it and not above the
ceiling, and the ceiling rises, or settles on one that still covers the numbers
issued. Then the numbers increase along every run (`Ledger.Sound.reaches`),
whatever is lost between two of its steps, as long as the ceiling is kept and
the next number is taken from above it.
-/

namespace GF

/-- The numbers issued, the latest last, and the ceiling. -/
structure Ledger where
  issued : List Nat
  ceiling : Nat

namespace Ledger

/-- A number is issued, or the ceiling moves. -/
inductive Step (l : Ledger) : Ledger → Prop
  | issue (n : Nat) (above : ∀ m ∈ l.issued, m < n) (below : n ≤ l.ceiling) :
      Step l { l with issued := l.issued ++ [n] }
  | raise (c : Nat) (up : l.ceiling ≤ c) : Step l { l with ceiling := c }
  | settle (c : Nat) (covers : ∀ m ∈ l.issued, m ≤ c) : Step l { l with ceiling := c }

/-- Steps, one after the other. -/
def Reaches : Ledger → Ledger → Prop := Relation.ReflTransGen Step

/-- The numbers increase, and none is above the ceiling. -/
structure Sound (l : Ledger) : Prop where
  increasing : l.issued.Pairwise (· < ·)
  below : ∀ n ∈ l.issued, n ≤ l.ceiling

theorem Sound.step {l l' : Ledger} (h : Sound l) (hs : Step l l') : Sound l' := by
  cases hs with
  | issue n above below =>
    constructor
    · rw [List.pairwise_append]
      refine ⟨h.increasing, List.pairwise_singleton _ _, ?_⟩
      intro m hm k hk
      rw [List.mem_singleton.1 hk]
      exact above m hm
    · intro m hm
      obtain hm | hm := List.mem_append.1 hm
      · exact h.below m hm
      · rw [List.mem_singleton.1 hm]
        exact below
  | raise c up => exact ⟨h.increasing, fun n hn => Nat.le_trans (h.below n hn) up⟩
  | settle c covers => exact ⟨h.increasing, covers⟩

theorem Sound.reaches {l l' : Ledger} (h : Sound l) (hr : Reaches l l') : Sound l' := by
  induction hr with
  | refl => exact h
  | tail _ hs ih => exact ih.step hs

/-- The ceiling rises, and then a number is issued. -/
theorem reaches_issue {l : Ledger} {n c : Nat} (hup : l.ceiling ≤ c) (above : ∀ m ∈ l.issued, m < n) (below : n ≤ c) :
    Reaches l { issued := l.issued ++ [n], ceiling := c } :=
  .tail (.single (.raise c hup)) (Step.issue n above below)

end Ledger

end GF
