import GoFabric.Spec.Commissioning

/-!
# The cumulative limit of the fail-safe

`ArmFailSafe` sets a cumulative deadline when none is set and caps the expiry by
it, so what it opens, and it alone extends, ends within the cumulative maximum.
`ArmFailSafeFor` neither sets a deadline nor is capped by one: the limit needs
that it stays within the maximum by itself, and that `ArmFailSafe` extends
nothing it opened.
-/

namespace GF.Proof.Commissioning

open Impl.Commissioning Spec.Commissioning

variable {s : Clocked} {now : Int} {g : GeneralCommissioning} {cs : List Callback}

/-- The cumulative deadline is within the limit too. -/
structure Bounded (s : Clocked) : Prop where
  opened : s.opened ≤ s.now
  armed : s.Limited
  started : s.g.failSafeCumulativeStarted = true → s.g.failSafeCumulativeDeadline ≤ s.limit

section

variable (h : Bounded s) (hnow : s.now ≤ now)
include h hnow

/-- A call that changes nothing. -/
theorem Bounded.same : Bounded (s.after now (s.g, [])) where
  opened := h.opened.trans hnow
  armed := h.armed
  started := h.started

/-- A call that ends the context. -/
theorem Bounded.ended
    (harmed : g.failSafeArmed = false) (hstarted : g.failSafeCumulativeStarted = false)
    (hcs : cs.contains .failSafeArmed = false) : Bounded (s.after now (g, cs)) where
  opened := by
    simp only [Clocked.after, hcs]
    exact h.opened.trans hnow
  armed ha := by simp [Clocked.after, harmed] at ha
  started hs := by simp [Clocked.after, hstarted] at hs

/-- The limit only moves on. -/
theorem Bounded.limit_le
    (hmax : g.cumulativeFailSafeMaxSec = s.g.cumulativeFailSafeMaxSec) : s.limit ≤ (s.after now (g, cs)).limit := by
  have hopened := h.opened
  simp only [Clocked.limit, Clocked.after, hmax]
  split <;> omega

/-- A call that arms the fail-safe. -/
theorem Bounded.arms
    (harmed : g.failSafeExpiresAt ≤ (s.after now (g, cs)).limit)
    (hstarted : g.failSafeCumulativeStarted = true → g.failSafeCumulativeDeadline ≤ (s.after now (g, cs)).limit) :
    Bounded (s.after now (g, cs)) where
  opened := by
    have hopened := h.opened
    simp only [Clocked.after]
    split <;> omega
  armed _ := harmed
  started := hstarted

theorem Bounded.armFailSafe
    (hwithin : s.Within (now, .armFailSafe sessFabric expiry breadcrumb windowOpen)) :
    Bounded (s.after now (s.g.armFailSafe now sessFabric expiry breadcrumb windowOpen).2) := by
  unfold GeneralCommissioning.armFailSafe
  split
  · exact h.same hnow
  split
  · exact h.same hnow
  split
  · exact h.ended hnow rfl rfl (by cases s.g.failSafeArmed <;> rfl)
  split
  · exact h.same hnow
  · next hzero _ =>
    have hfresh := hwithin.resolve_left hzero
    extract_lets deadline expiresAt
    -- the deadline is the one already set, or the call opens the context
    refine (fun hle : deadline ≤ _ => h.arms hnow ((min_le_right _ _).trans hle) fun _ => hle) ?_
    cases hc : s.g.failSafeCumulativeStarted with
    | true =>
      have hset : deadline = s.g.failSafeCumulativeDeadline := by simp [deadline, hc]
      exact hset.le.trans ((h.started hc).trans (h.limit_le hnow rfl))
    | false =>
      have hnone : s.g.failSafeArmed = false := by simpa [hc] using hfresh
      simp [Clocked.limit, Clocked.after, hnone, deadline, hc]

theorem Bounded.armFailSafeFor
    (hwithin : s.Within (now, .armFailSafeFor seconds fabricIndex)) :
    Bounded (s.after now (s.g.armFailSafeFor now seconds fabricIndex)) := by
  unfold GeneralCommissioning.armFailSafeFor
  split
  · exact h.ended hnow rfl rfl rfl
  · next hzero =>
    have hasked := hwithin.resolve_left hzero
    refine h.arms hnow ?_ fun hs => (h.started hs).trans (h.limit_le hnow rfl)
    cases hf : s.g.inForce now <;> simpa [Clocked.limit, Clocked.after, hf] using hasked
end

theorem Bounded.step {s' : Clocked} {e : Int × FailSafeCall} (hwithin : s.Within e) (h : Bounded s)
    (hstep : clocked.step s e = some s') : Bounded s' := by
  obtain ⟨hnow, rfl⟩ := ite_none_eq_some.1 hstep
  obtain ⟨now, call⟩ := e
  cases call with
  | armFailSafe => exact h.armFailSafe hnow hwithin
  | armFailSafeFor => exact h.armFailSafeFor hnow hwithin
  | commissioningComplete =>
    simp only [FailSafeCall.result, GeneralCommissioning.commissioningComplete]
    split_ifs <;> first | exact h.same hnow | exact h.ended hnow rfl rfl rfl
  | expireFailSafe =>
    simp only [FailSafeCall.result, GeneralCommissioning.expireFailSafe]
    split
    · exact h.same hnow
    · exact h.ended hnow rfl rfl rfl
  | watchFailSafeExpiry =>
    simp only [FailSafeCall.result, GeneralCommissioning.watchFailSafeExpiry]
    split
    · exact h.ended hnow rfl rfl rfl
    · exact h.same hnow

/-- In every run whose steps are within the limit, the fail-safe expires within
the cumulative maximum of the call that opened the context. -/
theorem fail_safe_limited (maxSec : BitVec 16) (now : Int) (events : List (Int × FailSafeCall)) (s : Clocked)
    (hwithin : clocked.Meets Clocked.Within (.start maxSec now) events)
    (hrun : clocked.run (.start maxSec now) events = some s) : s.Limited := by
  have hstart : Bounded (.start maxSec now) := ⟨le_rfl, nofun, nofun⟩
  have hbounded : Bounded s := System.run_invariant_meets (fun _ _ _ => Bounded.step) hwithin hstart hrun
  exact hbounded.armed

/-- Two calls of `ArmFailSafe`: the second is capped. -/
theorem fail_safe_limited_extended :
    ∃ s, clocked.run (.start 900 0) [(0, .armFailSafe 0 60 0 false), (59 * second, .armFailSafe 0 900 0 false)] =
        some s ∧ s.opened = 0 ∧ s.g.failSafeExpiresAt = 900 * second ∧ s.Limited := by
  have hwithin : clocked.Meets Clocked.Within (.start 900 0)
      [(0, .armFailSafe 0 60 0 false), (59 * second, .armFailSafe 0 900 0 false)] := by decide
  exact ⟨_, rfl, rfl, rfl, fail_safe_limited 900 0 _ _ hwithin rfl⟩

/-- The fail-safe that a PASE session arms for 60 s, which `ArmFailSafe` extends
just before it expires. -/
theorem fail_safe_extended_past_limit :
    ∃ s, clocked.run (.start 900 0)
        [(0, .armFailSafeFor GeneralCommissioning.paseSessionAutoArmSeconds 0),
          (59 * second, .armFailSafe 0 900 0 false)] = some s ∧
      s.opened = 0 ∧ s.g.failSafeArmed = true ∧ s.g.failSafeExpiresAt = 959 * second ∧ ¬s.Limited := by
  refine ⟨_, rfl, rfl, rfl, rfl, ?_⟩
  intro h
  have hpast : ¬959 * second ≤ 0 + 900 * second := by decide
  exact hpast (h rfl)

end GF.Proof.Commissioning
