import Mathlib.Logic.Basic

/-!
# Computations that can fail

How a result of a sequence of steps came about: what each of them returned.
-/

namespace GF

variable {ε α β : Type} {x : Except ε α} {f : α → Except ε β}

theorem except_bind_eq_ok {b : β} : (x >>= f) = .ok b ↔ ∃ a, x = .ok a ∧ f a = .ok b := by
  constructor
  · intro h
    cases x with
    | error e => cases h
    | ok a => exact ⟨a, rfl, h⟩
  · rintro ⟨a, rfl, h⟩
    exact h

theorem except_bind_ok {a : α} (h : x = .ok a) : (x >>= f) = f a := by
  subst h
  rfl

/-- A check that passes, before the rest. -/
theorem ite_error_eq_ok {c : Prop} [Decidable c] {e : ε} {a : α} :
    (if c then .error e else x) = .ok a ↔ ¬c ∧ x = .ok a := by
  by_cases hc : c <;> simp [hc]

/-- A check that passes, in a row of checks. -/
theorem ite_some_eq_none {c : Prop} [Decidable c] {e : ε} {o : Option ε} :
    (if c then some e else o) = none ↔ ¬c ∧ o = none := by
  by_cases hc : c <;> simp [hc]

theorem mapError_eq_ok {ε' : Type} {g : ε → ε'} {a : α} : x.mapError g = .ok a ↔ x = .ok a := by
  cases x with
  | error e => exact ⟨nofun, nofun⟩
  | ok b =>
    constructor
    · intro h
      exact congrArg Except.ok (Except.ok.inj h)
    · intro h
      exact congrArg Except.ok (Except.ok.inj h)

/-! ## With a panic

A step may also end the run for good: then there is neither a result nor an
error. -/

theorem exceptT_bind_eq_pure {x : ExceptT ε Option α} {f : α → ExceptT ε Option β} {b : β} :
    (x >>= f) = (pure b : ExceptT ε Option β) ↔ ∃ a, x = (pure a : ExceptT ε Option α) ∧ f a = pure b := by
  constructor
  · intro h
    match x, h with
    | some (.ok a), h => exact ⟨a, rfl, h⟩
    | some (.error e), h => cases h
    | none, h => cases h
  · rintro ⟨a, rfl, h⟩
    exact h

theorem exceptT_lift_eq_pure {x : Option α} {a : α} :
    (ExceptT.lift x : ExceptT ε Option α) = pure a ↔ x = some a := by
  cases x with
  | none => exact ⟨nofun, nofun⟩
  | some b =>
    constructor
    · intro h
      exact congrArg some (Except.ok.inj (Option.some.inj h))
    · intro h
      exact congrArg (some ∘ Except.ok) (Option.some.inj h)

/-- What every step of a loop keeps, the loop keeps. -/
theorem foldlM_induction {σ : Type} {step : σ → α → ExceptT ε Option σ} (P : σ → Prop) {items : List α}
    (hstep : ∀ a ∈ items, ∀ s s', P s → step s a = pure s' → P s') {s s' : σ} (hs : P s)
    (h : items.foldlM step s = (pure s' : ExceptT ε Option σ)) : P s' := by
  induction items generalizing s with
  | nil =>
    cases h
    exact hs
  | cons a items ih =>
    obtain ⟨ha, hrest⟩ := List.forall_mem_cons.mp hstep
    obtain ⟨s1, h1, h2⟩ := exceptT_bind_eq_pure.mp h
    exact ih hrest (ha s s1 hs h1) h2

end GF
