import Mathlib.Data.List.Basic

/-!
# Deterministic machines and their runs

A machine takes an input and its state to an output and the next state.
`outputs` is what it answers to a list of inputs, `final` the state it is
left in. Two machines answer every list of inputs alike when a relation
between their states is kept by every step and the related steps answer
alike (`Sim.outputs_eq`); inputs that leave the state as it is can be
deleted without changing the other answers (`outputs_filter`).
-/

namespace GF

/-- A machine: one input and the state to the output and the next state. -/
structure Machine (σ ι ο : Type _) where
  step : σ → ι → ο × σ

namespace Machine

variable {σ τ ι ο : Type _} (M : Machine σ ι ο) (N : Machine τ ι ο)

/-- What the machine answers to each of the inputs, from the state `s`. -/
def outputs : σ → List ι → List ο
  | _, [] => []
  | s, i :: is => (M.step s i).1 :: outputs (M.step s i).2 is

/-- The state after the inputs. -/
def final : σ → List ι → σ
  | s, [] => s
  | s, i :: is => final (M.step s i).2 is

/-- The inputs a machine with verdicts for outputs answers with `true`. -/
def accepted (M : Machine σ ι Bool) : σ → List ι → List ι
  | _, [] => []
  | s, i :: is => if (M.step s i).1 then i :: accepted M (M.step s i).2 is else accepted M (M.step s i).2 is

theorem accepted_cons_of_true {M : Machine σ ι Bool} {s : σ} {i : ι} (h : (M.step s i).1 = true) (is : List ι) :
    M.accepted s (i :: is) = i :: M.accepted (M.step s i).2 is := by
  rw [accepted, if_pos h]

theorem accepted_cons_of_false {M : Machine σ ι Bool} {s : σ} {i : ι} (h : (M.step s i).1 = false) (is : List ι) :
    M.accepted s (i :: is) = M.accepted (M.step s i).2 is := by
  rw [accepted, if_neg (by rw [h]; exact Bool.false_ne_true)]

/-- What every step keeps, every run keeps. -/
theorem final_of_step {P : σ → Prop} (hstep : ∀ s i, P s → P (M.step s i).2) {s : σ} (h : P s) (is : List ι) :
    P (M.final s is) := by
  induction is generalizing s with
  | nil => exact h
  | cons i is ih => exact ih (hstep s i h)

variable {M N} {s : σ} {t : τ} {i : ι} {P : σ → Prop} {R : σ → τ → Prop}

/-- A simulation: related states answer every input alike and stay
related. -/
def Sim (M : Machine σ ι ο) (N : Machine τ ι ο) (R : σ → τ → Prop) : Prop :=
  ∀ s t i, R s t → (M.step s i).1 = (N.step t i).1 ∧ R (M.step s i).2 (N.step t i).2

theorem Sim.outputs_eq (h : Sim M N R) (hst : R s t) (is : List ι) : M.outputs s is = N.outputs t is := by
  induction is generalizing s t with
  | nil => rfl
  | cons i is ih =>
    obtain ⟨ho, hn⟩ := h s t i hst
    simp only [outputs, ho, ih hn]

theorem Sim.final (h : Sim M N R) (hst : R s t) (is : List ι) : R (M.final s is) (N.final t is) := by
  induction is generalizing s t with
  | nil => exact hst
  | cons i is ih => exact ih (h s t i hst).2

theorem Sim.accepted_eq {M : Machine σ ι Bool} {N : Machine τ ι Bool} (h : Sim M N R) (hst : R s t) (is : List ι) :
    M.accepted s is = N.accepted t is := by
  induction is generalizing s t with
  | nil => rfl
  | cons i is ih =>
    obtain ⟨ho, hn⟩ := h s t i hst
    simp only [accepted, ho, ih hn]

/-- Deleting inputs that leave the state as it is: the answers to the inputs
that stay are the ones they get in the whole run. -/
theorem outputs_filter {keep : ι → Bool} (hP : ∀ s i, P s → P (M.step s i).2)
    (hdrop : ∀ s i, P s → keep i = false → (M.step s i).2 = s) (hs : P s) (is : List ι) :
    M.outputs s (is.filter keep) =
      ((is.zip (M.outputs s is)).filter fun p => keep p.1).map Prod.snd := by
  induction is generalizing s with
  | nil => rfl
  | cons i is ih =>
    cases hk : keep i with
    | true =>
      simp [hk, outputs, ih (hP s i hs)]
    | false =>
      have he := hdrop s i hs hk
      simp [hk, outputs, he, ih hs]

end Machine

end GF
