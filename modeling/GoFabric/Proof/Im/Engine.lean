import GoFabric.Spec.EventReports
import Mathlib.Data.List.Chain

/-!
# Keep-alives are not postponed

`lastReport` moves when a drain passes its gates, before it is known whether there is anything to
send. Where the source has an event for the subscription whenever owed events are due
(`Serves`), a tick that moves `lastReport` hands over a report (`dueReport_cases`), so that the
time since the latest report stays below the send interval (`Paced`).
-/

namespace GF.Proof.Im

open GF.Impl.Im GF.Spec.EventReports Option
open GF.Impl.Im.Wire (EventReport)

variable {α : Type} {s : Subscription} {t : Tick α}

theorem sendInterval_pos (s : Subscription) : 0 < s.sendInterval := by
  simp only [Subscription.sendInterval, second]
  split_ifs <;> omega

/-! ## Drains -/

theorem drainSource_cases (s : Subscription) (now : Int) (src : Option (EventSource α)) (force : Bool) :
    (¬ EventsDue s now force ∧ s.drainSource now src force = ([], s)) ∨
      (EventsDue s now force ∧ (s.drainSource now src force).2.lastReport = now ∧
        (s.drainSource now src force).2.sendInterval = s.sendInterval ∧
        ∀ query ∈ src, ∀ rec ∈ query s.eventsMin, s.selectsEvent (recordPath rec) = true →
          (s.drainSource now src force).1.isEmpty = false) := by
  unfold Subscription.drainSource
  split
  · rename_i h
    exact .inl ⟨by rintro ⟨hc, hp, -⟩; simp [hc, hp] at h, rfl⟩
  rename_i hopen
  dsimp only
  split
  · rename_i h
    refine .inl ⟨?_, rfl⟩
    rintro ⟨-, -, hu | ⟨h0 | hle, -⟩⟩
    · simp [hu] at h
    · exact h.2.1 h0
    · omega
  rename_i hfloor
  split
  · rename_i h
    refine .inl ⟨?_, rfl⟩
    rintro ⟨-, -, hu | ⟨-, hle⟩⟩
    · simp [hu] at h
    · omega
  rename_i hdefer
  refine .inr ⟨?_, ?_⟩
  · simp only [not_or, Bool.not_eq_true, Bool.not_eq_false'] at hopen
    refine ⟨hopen.1, hopen.2, ?_⟩
    by_cases hu : (s.eventsUrgent || force) = true
    · exact .inl hu
    · simp only [hu, Bool.not_false, true_and] at hfloor hdefer
      exact .inr (by omega)
  · cases src with
    | none => exact ⟨rfl, rfl, nofun⟩
    | some query =>
      dsimp only
      cases hlast : (query s.eventsMin).getLast? with
      | none =>
        refine ⟨rfl, rfl, ?_⟩
        intro query' hq rec hrec
        cases hq
        rw [List.getLast?_eq_none_iff.1 hlast] at hrec
        cases hrec
      | some last =>
        refine ⟨rfl, rfl, ?_⟩
        intro query' hq rec hrec hsel
        cases hq
        rw [List.isEmpty_eq_false_iff_exists_mem]
        exact ⟨eventReport rec, List.mem_map_of_mem (List.mem_filter.2 ⟨hrec, hsel⟩)⟩

theorem drainDirty_cases (s : Subscription) (dirty : List ConcreteAttributePath) (now : Int) (force : Bool) :
    s.drainDirty dirty now force = ([], s, dirty) ∨
      dirty.isEmpty = false ∧ s.drainDirty dirty now force = (dirty, { s with lastReport := now }, []) := by
  unfold Subscription.drainDirty
  split
  · exact .inl rfl
  rename_i hne
  split
  · exact .inl rfl
  split
  · exact .inl rfl
  · simp only [not_or, Bool.not_eq_true] at hne
    exact .inr ⟨hne.2, rfl⟩

/-- A report is due at the time that `lastReport` moves to; where none is, `lastReport` stays, and
the send interval has not passed. -/
theorem dueReport_cases (h : Serves s t false) (dirty : List ConcreteAttributePath) :
    (dueReport s dirty t).2.1.sendInterval = s.sendInterval ∧
      ((∃ r, (dueReport s dirty t).1 = some r) ∧ (dueReport s dirty t).2.1.lastReport = t.now ∨
        (dueReport s dirty t).1 = none ∧ (dueReport s dirty t).2.1.lastReport = s.lastReport ∧
          t.now - s.lastReport < s.sendInterval) := by
  obtain ⟨hreporter, hserves⟩ := h
  unfold dueReport
  obtain ⟨-, hdrain⟩ | ⟨hdue, hlast, hsend, hsome⟩ := drainSource_cases s t.now t.source false
  · simp only [hdrain, List.isEmpty_nil, Bool.not_true, Bool.false_eq_true, if_false, hreporter]
    obtain hdirty | ⟨hne, hdirty⟩ := drainDirty_cases s dirty t.now false
    · simp only [hdirty, List.isEmpty_nil, Bool.not_true, Bool.false_eq_true, if_false]
      split_ifs with helapsed
      · exact ⟨rfl, .inl ⟨⟨_, rfl⟩, rfl⟩⟩
      · simp only [Subscription.heartbeatIntervalElapsed, decide_eq_true_eq] at helapsed
        exact ⟨rfl, .inr ⟨rfl, rfl, by omega⟩⟩
    · simp only [hdirty, hne, Bool.not_false, if_true]
      exact ⟨rfl, .inl ⟨⟨_, rfl⟩, trivial⟩⟩
  · obtain ⟨hevents, query, hquery, rec, hrec, hsel⟩ := hserves hdue
    simp only [hsome query hquery rec hrec hsel, hevents]
    exact ⟨hsend, .inl ⟨⟨_, rfl⟩, hlast⟩⟩

/-! ## Runs -/

/-- The latest report was handed over at `lastReport`, less than the send interval `send` before
the latest tick; the reports are at most `send + d` apart. -/
structure Paced (send d : Int) (w : Engine α) : Prop where
  interval : w.sub.sendInterval = send
  unprimed : w.priming = true → w.handed = []
  latest : ∀ r ∈ w.handed.head?, w.sub.lastReport = r.1 ∧ w.tickedAt - r.1 < send
  apart : w.handed.IsChain fun r r' => r.1 - r'.1 ≤ send + d

variable {send d : Int} {w w' : Engine α}

/-- What moves neither `lastReport` nor the send interval and reports nothing, at a tick before the
send interval has passed or between the ticks. -/
theorem Paced.keep (h : Paced send d w) {dirty : List ConcreteAttributePath} {reporting : Bool} {at' : Int}
    (hlast : s.lastReport = w.sub.lastReport) (hsend : s.sendInterval = w.sub.sendInterval)
    (hat : at' = w.tickedAt ∨ at' - w.sub.lastReport < w.sub.sendInterval) :
    Paced send d { w with sub := s, pendingDirty := dirty, reporting, tickedAt := at' } where
  interval := hsend.trans h.interval
  unprimed := h.unprimed
  latest r hr := by
    obtain ⟨hr1, hr2⟩ := h.latest r hr
    have hint := h.interval
    exact ⟨hlast.trans hr1, by show at' - r.1 < send; omega⟩
  apart := h.apart

theorem Paced.hand (h : Paced send d w) (dirty : List ConcreteAttributePath) (reporting : Bool) {at' now : Int}
    (r : Report α) (hlast : s.lastReport = now) (hsend : s.sendInterval = w.sub.sendInterval)
    (hprimed : w.priming = false) (hnow : now ≤ w.tickedAt + d) (hat : at' ≤ now) :
    Paced send d { w with
      sub := s, pendingDirty := dirty, reporting, tickedAt := at', handed := (now, r) :: w.handed } where
  interval := hsend.trans h.interval
  unprimed hp := by simp [hprimed] at hp
  latest r' hr' := by
    have hpos := sendInterval_pos w.sub
    rw [h.interval] at hpos
    obtain rfl : (now, r) = r' := by simpa using hr'
    exact ⟨hlast, by show at' - now < send; omega⟩
  apart := by
    refine List.isChain_cons.2 ⟨fun r' hr' => ?_, h.apart⟩
    have hlatest := (h.latest r' hr').2
    show now - r'.1 ≤ send + d
    omega

theorem Paced.tick (h : Paced send d w) (hq : Visited d w t false) : Paced send d (w.tick t) := by
  by_cases hskip : w.sub.closed = true ∨ w.priming = true ∨ w.reporting = true
  · rw [Engine.tick, if_pos hskip]
    exact h
  rw [Engine.tick, if_neg hskip]
  obtain ⟨⟨-, hlate⟩, hserves⟩ := hq.resolve_left hskip
  simp only [not_or, Bool.not_eq_true] at hskip
  obtain ⟨hsend, ⟨⟨r, hr⟩, hlast⟩ | ⟨hnone, hlast, hbelow⟩⟩ := dueReport_cases hserves w.pendingDirty
  · simp only [hr]
    exact h.hand _ _ r hlast hsend hskip.2.1 hlate (Int.le_refl _)
  · simp only [hnone]
    exact h.keep hlast hsend (.inr hbelow)

theorem tick_reports (hq : Visited d w t false) (hmoved : w.sub.lastReport < (w.tick t).sub.lastReport) :
    ∃ r, (w.tick t).handed = (t.now, r) :: w.handed := by
  by_cases hskip : w.sub.closed = true ∨ w.priming = true ∨ w.reporting = true
  · rw [Engine.tick, if_pos hskip] at hmoved
    omega
  rw [Engine.tick, if_neg hskip] at hmoved ⊢
  obtain ⟨-, ⟨⟨r, hr⟩, -⟩ | ⟨-, hlast, -⟩⟩ := dueReport_cases (hq.resolve_left hskip).2 w.pendingDirty
  · exact ⟨r, by simp only [hr]; rfl⟩
  · exact absurd hmoved (by simp only [hlast]; omega)

/-- A flush hands over what is owed, the events before the attributes. -/
theorem Paced.flush (h : Paced send d w) (hq : Visited d w t true) : Paced send d (w.flush t) := by
  by_cases hskip : w.sub.closed = true ∨ w.priming = true ∨ w.reporting = true
  · rw [Engine.flush, if_pos hskip]
    exact h
  rw [Engine.flush, if_neg hskip]
  obtain ⟨⟨hle, hlate⟩, hreporter, hserves⟩ := hq.resolve_left hskip
  simp only [not_or, Bool.not_eq_true] at hskip
  obtain ⟨-, hdrain⟩ | ⟨hdue, hlast, hsend, hsome⟩ := drainSource_cases w.sub t.now t.source true
  · obtain hdirty | ⟨hne, hdirty⟩ := drainDirty_cases w.sub w.pendingDirty t.now true
    · simp only [hdrain, hdirty]
      exact h.keep rfl rfl (.inl rfl)
    · simp only [hdrain, hdirty, hne, hreporter]
      exact h.hand _ _ (.attributes w.pendingDirty) rfl rfl hskip.2.1 hlate hle
  · obtain ⟨hevents, query, hquery, rec, hrec, hsel⟩ := hserves hdue
    have hown := h.hand w.pendingDirty true (.events (w.sub.drainSource t.now t.source true).1) hlast hsend hskip.2.1
      hlate hle
    obtain hdirty | ⟨hne, hdirty⟩ :=
      drainDirty_cases (w.sub.drainSource t.now t.source true).2 w.pendingDirty t.now true
    · simp only [hdirty, hsome query hquery rec hrec hsel, hevents]
      exact hown
    · simp only [hdirty, hne, hreporter, hsome query hquery rec hrec hsel, hevents]
      exact hown.hand _ _ (.attributes w.pendingDirty) rfl rfl hskip.2.1 hlate hle

theorem onEventFired_paced (s : Subscription) (ev : EventFiring) :
    (s.onEventFired ev).lastReport = s.lastReport ∧ (s.onEventFired ev).sendInterval = s.sendInterval := by
  unfold Subscription.onEventFired Subscription.queueEvent
  split_ifs <;> exact ⟨rfl, rfl⟩

theorem requeueEvents_paced (s : Subscription) (n : BitVec 64) :
    (s.requeueEvents n).lastReport = s.lastReport ∧ (s.requeueEvents n).sendInterval = s.sendInterval := by
  simp only [Subscription.requeueEvents]
  split_ifs <;> exact ⟨rfl, rfl⟩

theorem Paced.step (h : Paced send d w) {e : EngineEvent α} (hq : InTime d w e)
    (hstep : (engine α).step w e = some w') : Paced send d w' := by
  cases e with
  | tick t => exact some.inj hstep ▸ h.tick hq
  | flush t => exact some.inj hstep ▸ h.flush hq
  | reported =>
    obtain ⟨-, rfl⟩ := ite_none_eq_some.1 hstep
    exact h.keep rfl rfl (.inl rfl)
  | endPriming now =>
    obtain ⟨hp, rfl⟩ := ite_none_eq_some.1 hstep
    have hnone := h.unprimed hp
    exact ⟨h.interval, nofun, fun r hr => by simp [hnone] at hr, h.apart⟩
  | fired ev =>
    obtain ⟨hlast, hsend⟩ := onEventFired_paced w.sub ev
    exact some.inj hstep ▸ h.keep hlast hsend (.inl rfl)
  | requeue n =>
    obtain ⟨hlast, hsend⟩ := requeueEvents_paced w.sub n
    exact some.inj hstep ▸ h.keep hlast hsend (.inl rfl)
  | changed path | defer now delay | close => exact some.inj hstep ▸ h.keep rfl rfl (.inl rfl)

/-- In every run whose ticks and flushes are in time and served, a tick that moves `lastReport`
hands over a report, and two successive reports are at most the send interval and `d` apart. -/
theorem keep_alive_not_postponed {es : List (EngineEvent α)} (hnew : w.handed = [])
    (hmeets : (engine α).Meets (InTime d) w es) (hrun : (engine α).run w es = some w') :
    (∀ es₁ t es₂ w₁, es = es₁ ++ .tick t :: es₂ → (engine α).run w es₁ = some w₁ →
      w₁.sub.lastReport < (w₁.tick t).sub.lastReport → ∃ r, (w₁.tick t).handed = (t.now, r) :: w₁.handed) ∧
    w'.handed.IsChain fun r r' => r.1 - r'.1 ≤ w.sub.sendInterval + d := by
  constructor
  · rintro es₁ t es₂ w₁ rfl hrun1 hmoved
    exact tick_reports ((System.meets_append hrun1).1 hmeets).2.1 hmoved
  · have hpaced : Paced w.sub.sendInterval d w :=
      ⟨rfl, fun _ => hnew, fun r hr => by simp [hnew] at hr, hnew ▸ .nil⟩
    exact (System.run_invariant_meets (fun w e w' hq h => h.step hq) hmeets hpaced hrun).apart

/-- A subscription to every event, with a send interval of 48 seconds. -/
def everyEvent : Engine Unit where
  sub :=
    { minIntervalFloor := 1, maxIntervalCeiling := 60, eventPaths := [{}], lastReport := 52 * second }
  tickedAt := 53 * second

/-- A tick after so many seconds, with the records of the source. -/
def tickAt (n : Nat) (records : List (EventRecord Unit)) : EngineEvent Unit :=
  .tick { now := n * second, source := some fun _ => records }

/-- An event fires between two keep-alives. -/
def firedBetween (records : List (EventRecord Unit)) : List (EngineEvent Unit) :=
  [tickAt 100 [], .reported,
    .fired { path := { hasEndpoint := true, hasCluster := true, hasEvent := true }, number := 7, priority := .info },
    tickAt 147 records, .reported, tickAt 194 [], tickAt 241 []]

def firedRecord : EventRecord Unit :=
  { number := 7, priority := .info, epochMS := 0, endpoint := 0, cluster := 0, eventID := 0, payload := () }

theorem keep_alive_not_postponed_fired :
    ∃ w', (engine Unit).run everyEvent (firedBetween [firedRecord]) = some w' ∧ w'.handed.length = 3 ∧
      w'.handed.IsChain fun r r' => r.1 - r'.1 ≤ 48 * second + 47 * second := by
  have hsend : everyEvent.sub.sendInterval = 48 * second := by decide
  have hmeets : (engine Unit).Meets (InTime (47 * second)) everyEvent (firedBetween [firedRecord]) := by decide
  refine ⟨_, rfl, rfl, ?_⟩
  rw [← hsend]
  exact (keep_alive_not_postponed rfl hmeets rfl).2

/-- Without a record of the event, the tick at 147 seconds moves `lastReport` and reports nothing. The
next report comes 141 seconds after the one before. -/
theorem keep_alive_postponed :
    ∃ w w', (engine Unit).run everyEvent ((firedBetween []).take 3) = some w ∧
      (engine Unit).step w (tickAt 147 []) = some w' ∧ w.sub.lastReport < w'.sub.lastReport ∧
      w'.handed.length = w.handed.length ∧
      ∃ w'', (engine Unit).run w' [tickAt 194 [], tickAt 241 []] = some w'' ∧
        w''.handed.map (·.1) = [241 * second, 100 * second] ∧ w''.sub.sendInterval = 48 * second := by
  refine ⟨_, _, rfl, rfl, ?_, ?_, _, rfl, ?_, ?_⟩ <;> decide

end GF.Proof.Im
