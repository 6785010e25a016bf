import Mathlib.Data.List.Basic

/-!
# Lossless channels

A relation says what an item does to the state of the party that takes it.
The items on their way through a channel that loses nothing and keeps their
order lead from what the receiver has taken to what the sender has put in
(`Path`): sending appends an item (`Path.snoc`), receiving takes the first
one off (`Path.cons_iff`), and what holds from state to state over one item
holds over all that are on their way (`Path.lift`).
-/

namespace GF

variable {σ α : Type _} {R : σ → α → σ → Prop} {s t u : σ} {a : α} {l : List α}

/-- The items of `l` lead from `s` to `t`. -/
def Path (R : σ → α → σ → Prop) : σ → List α → σ → Prop
  | s, [], t => s = t
  | s, a :: l, t => ∃ u, R s a u ∧ Path R u l t

namespace Path

theorem cons_iff : Path R s (a :: l) t ↔ ∃ u, R s a u ∧ Path R u l t := Iff.rfl

/-- One more item is sent. -/
theorem snoc (h : Path R s l t) (ha : R t a u) : Path R s (l ++ [a]) u := by
  induction l generalizing s with
  | nil =>
    obtain rfl : s = t := h
    exact ⟨u, ha, rfl⟩
  | cons b l ih =>
    obtain ⟨v, hb, h⟩ := h
    exact ⟨v, hb, ih h⟩

/-- What every item keeps between the states, a path keeps. -/
theorem lift {P : σ → σ → Prop} (hrefl : ∀ s, P s s) (hcons : ∀ s a t u, R s a t → P t u → P s u)
    (h : Path R s l t) : P s t := by
  induction l generalizing s with
  | nil =>
    obtain rfl : s = t := h
    exact hrefl s
  | cons a l ih =>
    obtain ⟨u, ha, h⟩ := h
    exact hcons s a u t ha (ih h)

end Path

end GF
