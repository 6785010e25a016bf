import Mathlib.Data.List.Basic

/-!
# Transition systems and their runs

A system takes a state and an event to the next state, or to nothing when the
event cannot happen there. The events of a list are one interleaving of
whatever takes part; what every step keeps holds along every run
(`run_invariant`), what the steps of some events keep along every run of
those (`run_invariant_of`), what the steps from some states keep along every
run that visits no others (`run_invariant_along`), and what some steps keep
along every run of those (`run_invariant_meets`).
-/

namespace GF

open Option

/-- A step that is guarded. -/
theorem ite_none_eq_some {α : Type _} {c : Prop} [Decidable c] {a b : α} :
    (if c then some a else none) = some b ↔ c ∧ a = b := by
  rw [ite_none_right_eq_some, some.injEq]

/-- A transition system: which state an event leads to, if it can happen. -/
structure System (σ ε : Type _) where
  step : σ → ε → Option σ

namespace System

variable {σ ε : Type _} (S : System σ ε)

/-- The state after the events, in order. -/
def run : σ → List ε → Option σ
  | s, [] => some s
  | s, e :: es => (S.step s e).bind fun s' => run s' es

/-- Every state that the run visits satisfies `Q`. -/
def Along (Q : σ → Prop) : σ → List ε → Prop
  | s, [] => Q s
  | s, e :: es => Q s ∧ ∀ t ∈ S.step s e, Along Q t es

instance decidableAlong (Q : σ → Prop) [DecidablePred Q] : ∀ s es, Decidable (S.Along Q s es)
  | s, [] => inferInstanceAs (Decidable (Q s))
  | s, e :: es =>
    have : DecidablePred fun t => S.Along Q t es := fun t => decidableAlong Q t es
    inferInstanceAs (Decidable (Q s ∧ ∀ t ∈ S.step s e, S.Along Q t es))

/-- Some state that the run visits satisfies `Q`. -/
def Visits (Q : σ → Prop) : σ → List ε → Prop
  | s, [] => Q s
  | s, e :: es => Q s ∨ ∃ t ∈ S.step s e, Visits Q t es

instance decidableVisits (Q : σ → Prop) [DecidablePred Q] : ∀ s es, Decidable (S.Visits Q s es)
  | s, [] => inferInstanceAs (Decidable (Q s))
  | s, e :: es =>
    have : DecidablePred fun t => S.Visits Q t es := fun t => decidableVisits Q t es
    inferInstanceAs (Decidable (Q s ∨ ∃ t ∈ S.step s e, S.Visits Q t es))

/-- Every step of the run meets `Q`: the event, in the state before it. -/
def Meets (Q : σ → ε → Prop) : σ → List ε → Prop
  | _, [] => True
  | s, e :: es => Q s e ∧ ∀ t ∈ S.step s e, Meets Q t es

instance decidableMeets (Q : σ → ε → Prop) [∀ s e, Decidable (Q s e)] : ∀ s es, Decidable (S.Meets Q s es)
  | _, [] => inferInstanceAs (Decidable True)
  | s, e :: es =>
    have : DecidablePred fun t => S.Meets Q t es := fun t => decidableMeets Q t es
    inferInstanceAs (Decidable (Q s e ∧ ∀ t ∈ S.step s e, S.Meets Q t es))

variable {S} {s s' t : σ} {e : ε} {es fs : List ε} {P Q : σ → Prop} {ok : ε → Prop}

theorem run_cons : S.run s (e :: es) = some s' ↔ ∃ t, S.step s e = some t ∧ S.run t es = some s' := by
  simp only [run, bind_eq_some_iff]

theorem run_append (s : σ) (es fs : List ε) : S.run s (es ++ fs) = (S.run s es).bind fun t => S.run t fs := by
  induction es generalizing s with
  | nil => rfl
  | cons e es ih =>
    simp only [run, bind_assoc]
    exact congrArg _ (funext ih)

theorem run_append_of (h : S.run s es = some t) : S.run s (es ++ fs) = S.run t fs := by
  rw [run_append, h, bind_some]

theorem meets_of_forall (hok : ∀ e ∈ es, ok e) (s : σ) : S.Meets (fun _ e => ok e) s es := by
  induction es generalizing s with
  | nil => trivial
  | cons e es ih =>
    exact ⟨hok e List.mem_cons_self, fun t _ => ih (fun f hf => hok f (List.mem_cons_of_mem e hf)) t⟩

/-- What the steps that meet `Q` keep, every run of such steps keeps. -/
theorem run_invariant_meets {Q : σ → ε → Prop} (hstep : ∀ s e s', Q s e → P s → S.step s e = some s' → P s')
    {s s' : σ} (hq : S.Meets Q s es) (hs : P s) (h : S.run s es = some s') : P s' := by
  induction es generalizing s with
  | nil => exact some.inj h ▸ hs
  | cons e es ih =>
    obtain ⟨t, ht, h⟩ := run_cons.1 h
    exact ih (hq.2 t ht) (hstep s e t hq.1 hs ht) h

/-- What the steps of the events `ok` keep, every run of such events keeps. -/
theorem run_invariant_of (hstep : ∀ s e s', ok e → P s → S.step s e = some s' → P s') {s s' : σ} (hok : ∀ e ∈ es, ok e)
    (hs : P s) (h : S.run s es = some s') : P s' :=
  run_invariant_meets hstep (meets_of_forall hok s) hs h

/-- What every step keeps, every run keeps. -/
theorem run_invariant (hstep : ∀ s e s', P s → S.step s e = some s' → P s') {s s' : σ} (hs : P s)
    (h : S.run s es = some s') : P s' :=
  run_invariant_of (fun s e s' (_ : True) => hstep s e s') (fun _ _ => trivial) hs h

/-- What the steps from the states `Q` keep, every run through such states
keeps. -/
theorem run_invariant_along (hstep : ∀ s e s', Q s → P s → S.step s e = some s' → P s') {s s' : σ}
    (hq : S.Along Q s es) (hs : P s) (h : S.run s es = some s') : P s' := by
  induction es generalizing s with
  | nil => exact some.inj h ▸ hs
  | cons e es ih =>
    obtain ⟨t, ht, h⟩ := run_cons.1 h
    exact ih (hq.2 t ht) (hstep s e t hq.1 hs ht) h

/-- Where every step takes a measure down, a run is no longer than the measure of its
first state. -/
theorem length_le_of_measure {μ : σ → Nat} (hstep : ∀ s e s', ok e → P s → S.step s e = some s' → P s' ∧ μ s' < μ s)
    (hok : ∀ e ∈ es, ok e) (hs : P s) (h : S.run s es = some s') : es.length ≤ μ s := by
  induction es generalizing s with
  | nil => exact Nat.zero_le _
  | cons e es ih =>
    obtain ⟨t, ht, h⟩ := run_cons.1 h
    obtain ⟨hPt, hlt⟩ := hstep s e t (hok e List.mem_cons_self) hs ht
    have hlen := ih (fun f hf => hok f (List.mem_cons_of_mem e hf)) hPt h
    rw [List.length_cons]
    omega

/-- The first state of a run is visited. -/
theorem Visits.start (h : Q s) (es : List ε) : S.Visits Q s es := by
  cases es with
  | nil => exact h
  | cons e es => exact .inl h

/-- What a run visits from its second state on, it visits. -/
theorem Visits.step (ht : S.step s e = some t) (h : S.Visits Q t es) : S.Visits Q s (e :: es) :=
  .inr ⟨t, ht, h⟩

/-- The last state of a run is visited. -/
theorem Visits.last (ht : S.run s es = some t) (h : Q t) : S.Visits Q s es := by
  induction es generalizing s with
  | nil => exact (some.inj ht).symm ▸ h
  | cons e es ih =>
    obtain ⟨u, hu, ht⟩ := run_cons.1 ht
    exact (ih ht).step hu

theorem meets_append {Q : σ → ε → Prop} (ht : S.run s es = some t) :
    S.Meets Q s (es ++ fs) ↔ S.Meets Q s es ∧ S.Meets Q t fs := by
  induction es generalizing s with
  | nil => simp only [List.nil_append, Meets, true_and, some.inj ht]
  | cons e es ih =>
    obtain ⟨u, hu, ht⟩ := run_cons.1 ht
    simp only [List.cons_append, Meets, hu, mem_some_iff, forall_eq', ih ht, and_assoc]

end System

end GF
