import GoFabric.Proof.Im.ReadEvents
import GoFabric.Spec.EventDelivery

/-!
# No event is lost on the way to a subscriber

What a subscription owes is all that the log has from `eventsMin` on. Above
`eventsReported` nothing is in a report that counts as sent, so that events owed
from there on are reported once; a report that is requeued takes both marks back
to before its first event (`Tracked`).
-/

namespace GF.Proof.Im

open GF.Impl.Im GF.Spec.EventDelivery List
open GF.Impl.Im.Wire (EventReport)

variable {α : Type} {l log : EventLog α} {rec last : EventRecord α} {w : Subscriber α} {s : Subscription}
  {n n' : Node α}

/-! ## The log -/

theorem map_fst_dropPass (p : EventPriority) (limit i : Nat) (toDrop : Int) (l : List (EventRecord α × Bool)) :
    (dropPass p limit i toDrop l).1.map Prod.fst = l.map Prod.fst := by
  induction l generalizing i toDrop with
  | nil => rfl
  | cons m l ih =>
    simp only [dropPass]
    split
    all_goals simp only [map_cons, ih]

theorem harvest_sublist (buf : BufferConfig) (occurrences : List (EventRecord α)) :
    (harvest buf occurrences).Sublist occurrences := by
  simp only [harvest]
  split
  · exact List.Sublist.refl _
  · refine (filter_sublist.map Prod.fst).trans ?_
    rw [map_fst_dropPass, map_fst_dropPass, map_fst_dropPass, map_map]
    exact (map_id _).symm ▸ List.Sublist.refl _

/-- A log that evicts nothing has the record at its end. -/
theorem assign_occurrences {time : BitVec 64}
    (h : (l.assign rec time).2.occurrences.length = l.occurrences.length + 1) :
    (l.assign rec time).2.occurrences = l.occurrences ++ [(l.assign rec time).1] := by
  apply (harvest_sublist l.buf _).eq_of_length
  rw [length_append]
  exact h

theorem ascending_append {l' : EventLog α} (hl : Ascending l) (hnew : l.next < rec.number)
    (hocc : l'.occurrences = l.occurrences ++ [rec]) (hnext : l'.next = rec.number) : Ascending l' := by
  constructor
  · rw [hocc, map_append, pairwise_append]
    refine ⟨hl.numbers, pairwise_singleton _ _, ?_⟩
    intro n hn m hm
    obtain ⟨old, hold, rfl⟩ := mem_map.1 hn
    have := hl.latest old hold
    rw [mem_singleton.1 hm]
    bv_omega
  · intro old hold
    rw [hnext]
    rw [hocc] at hold
    obtain hold | hold := mem_append.1 hold
    · have := hl.latest old hold
      bv_omega
    · rw [mem_singleton.1 hold]
      exact BitVec.le_refl _

/-- Nothing that a query from `minNumber` on finds has a number above the last
one found. -/
theorem le_last_of_query (hl : Ascending l) {minNumber : BitVec 64}
    (hlast : (l.query 0xFFFF 0xFFFFFFFF 0xFFFFFFFF minNumber).getLast? = some last)
    (hrec : rec ∈ l.query 0xFFFF 0xFFFFFFFF 0xFFFFFFFF minNumber) : rec.number ≤ last.number := by
  obtain ⟨records, hsplit⟩ := List.getLast?_eq_some_iff.1 hlast
  have hsorted : ((records ++ [last]).map EventRecord.number).Pairwise (· < ·) := by
    rw [← hsplit]
    exact hl.numbers.sublist (filter_sublist.map _)
  rw [map_append, pairwise_append] at hsorted
  rw [hsplit] at hrec
  obtain hrec | hrec := mem_append.1 hrec
  · exact BitVec.le_of_lt (hsorted.2.2 _ (mem_map_of_mem hrec) _ mem_cons_self)
  · rw [mem_singleton.1 hrec]
    exact BitVec.le_refl _

/-! ## A subscriber -/

/-- The two marks: what is owed is above what was reported, and what was
reported is in the log. -/
structure Marks (log : EventLog α) (s : Subscription) : Prop where
  owed_above : s.eventsPending = true → s.eventsHaveReported = true → s.eventsReported < s.eventsMin
  reported_le : s.eventsHaveReported = true → s.eventsReported ≤ log.next

/-- The number is not above what was reported. -/
def Reported (s : Subscription) (n : BitVec 64) : Prop := s.eventsHaveReported = true ∧ n ≤ s.eventsReported

/-- A subscriber whose marks cover the records that fired: each was sent or is owed. -/
structure Tracked (log : EventLog α) (w : Subscriber α) : Prop where
  marks : Marks log w.sub
  logged : ∀ rec ∈ w.fired, rec ∈ log.occurrences ∧ w.sub.selectsEvent (recordPath rec) = true
  no_loss : ∀ rec ∈ w.fired,
    (∃ d ∈ w.drained, d.requeued = false ∧ eventReport rec ∈ d.report) ∨ Owed w.sub rec.number
  reported : ∀ d ∈ w.drained, d.requeued = false → ∀ n ∈ d.numbers, Reported w.sub n
  separated : w.drained.Pairwise fun d d' => d.requeued = false → ∀ n ∈ d.numbers, ∀ m ∈ d'.numbers, n < m
  ordered : ∀ d ∈ w.drained, d.numbers.Pairwise (· < ·)

theorem Tracked.delivers (h : Tracked log w) : Delivers w where
  no_loss := h.no_loss
  no_duplicate := h.separated.imp fun hlt hsent n hn hm => BitVec.lt_irrefl n (hlt hsent n hn n hm)
  ordered := h.ordered

theorem tracked_new (log : EventLog α) (hpending : s.eventsPending = false)
    (hreported : s.eventsHaveReported = false) : Tracked log { sub := s } where
  marks := ⟨fun h => by simp [hpending] at h, fun h => by simp [hreported] at h⟩
  logged := nofun
  no_loss := nofun
  reported := nofun
  separated := .nil
  ordered := nofun

/-- What a call leaves alone that changes neither the marks nor the paths. -/
theorem Tracked.frame (h : Tracked log w) (hpaths : s.eventPaths = w.sub.eventPaths)
    (hpending : s.eventsPending = w.sub.eventsPending) (hmin : s.eventsMin = w.sub.eventsMin)
    (hreported : s.eventsReported = w.sub.eventsReported) (hhave : s.eventsHaveReported = w.sub.eventsHaveReported) :
    Tracked log { w with sub := s } where
  marks := by
    refine ⟨?_, ?_⟩
    · rw [hpending, hhave, hreported, hmin]
      exact h.marks.owed_above
    · rw [hhave, hreported]
      exact h.marks.reported_le
  logged rec hrec := by
    simp only [Subscription.selectsEvent, hpaths]
    exact h.logged rec hrec
  no_loss rec hrec := by
    simp only [Owed, hpending, hmin]
    exact h.no_loss rec hrec
  reported d hd hsent n hn := by
    simp only [Reported, hhave, hreported]
    exact h.reported d hd hsent n hn
  separated := h.separated
  ordered := h.ordered

/-! ## Firing -/

theorem onEventFired_firing (s : Subscription) (rec : EventRecord α) :
    s.onEventFired (firing rec) =
      if s.selectsEvent (recordPath rec) then s.queueEvent rec.number rec.priority else s := rfl

/-- An event with a new number is owed by the subscription. -/
theorem queueEvent_new (hm : Marks log s) (hopen : s.closed = false) {number : BitVec 64} (hnew : log.next < number)
    (priority : EventPriority) :
    s.queueEvent number priority =
      { s with
        eventsMin := if !s.eventsPending ∨ number < s.eventsMin then number else s.eventsMin
        eventsPending := true
        eventsUrgent := s.eventsUrgent || priority == .critical } := by
  have hunreported : ¬(s.eventsHaveReported = true ∧ number ≤ s.eventsReported) := by
    rintro ⟨hhave, hle⟩
    have := hm.reported_le hhave
    bv_omega
  simp [Subscription.queueEvent, hopen, if_neg hunreported]

theorem Tracked.fire {log' : EventLog α} (h : Tracked log w) (hnew : log.next < rec.number)
    (hocc : log'.occurrences = log.occurrences ++ [rec]) (hnext : log'.next = rec.number) :
    Tracked log' (w.fire rec) := by
  have hgrown : ∀ old, old ∈ log.occurrences → old ∈ log'.occurrences := fun old hold => by
    rw [hocc]
    exact mem_append_left _ hold
  have hmarks : Marks log' w.sub :=
    ⟨h.marks.owed_above, fun hhave => by
      have := h.marks.reported_le hhave
      bv_omega⟩
  -- a subscription that is closed or selects nothing stays as it is
  have hquiet : w.fire rec = w → Tracked log' (w.fire rec) := fun he => by
    rw [he]
    exact ⟨hmarks, fun old hold => ⟨hgrown _ (h.logged old hold).1, (h.logged old hold).2⟩, h.no_loss, h.reported,
      h.separated, h.ordered⟩
  cases hsel : w.sub.selectsEvent (recordPath rec) with
  | false =>
    apply hquiet
    simp [Subscriber.fire, onEventFired_firing, hsel]
  | true =>
    cases hclosed : w.sub.closed with
    | true =>
      apply hquiet
      simp [Subscriber.fire, onEventFired_firing, hclosed, Subscription.queueEvent]
    | false =>
      simp only [Subscriber.fire, onEventFired_firing, hsel, hclosed, queueEvent_new h.marks hclosed hnew, if_true]
      exact {
        marks := ⟨fun _ hhave => by
          have hle := h.marks.reported_le hhave
          have hab := h.marks.owed_above
          simp only at hhave ⊢
          split_ifs with hmin
          · bv_omega
          · simp only [not_or, Bool.not_eq_true', Bool.not_eq_false] at hmin
            exact hab hmin.1 hhave, hmarks.reported_le⟩
        logged old hold := by
          obtain hold | hold := mem_append.1 hold
          · exact ⟨hgrown _ (h.logged old hold).1, (h.logged old hold).2⟩
          · rw [mem_singleton.1 hold, hocc]
            exact ⟨mem_append_right _ mem_cons_self, hsel⟩
        no_loss old hold := by
          obtain hold | hold := mem_append.1 hold
          · obtain hsent | ⟨hpending, hmin⟩ := h.no_loss old hold
            · exact .inl hsent
            · refine .inr ⟨rfl, ?_⟩
              simp only [hpending, Bool.not_true, Bool.false_eq_true, false_or]
              split <;> bv_omega
          · rw [mem_singleton.1 hold]
            refine .inr ⟨rfl, ?_⟩
            split <;> bv_omega
        reported := h.reported
        separated := h.separated
        ordered := h.ordered }

/-! ## Draining -/

/-- What a drain does: nothing, or it takes all that is owed from the log. -/
theorem drainEvents_cases (s : Subscription) (now : Int) (log : EventLog α) (force : Bool) :
    s.drainEvents now (some log) force = ([], s) ∨
      s.eventsPending = true ∧
        (((log.query 0xFFFF 0xFFFFFFFF 0xFFFFFFFF s.eventsMin).getLast? = none ∧
            s.drainEvents now (some log) force =
              ([], { s with eventsPending := false, eventsUrgent := false, lastReport := now })) ∨
          ∃ last, (log.query 0xFFFF 0xFFFFFFFF 0xFFFFFFFF s.eventsMin).getLast? = some last ∧
            s.drainEvents now (some log) force =
              (((log.query 0xFFFF 0xFFFFFFFF 0xFFFFFFFF s.eventsMin).filter fun rec =>
                  s.selectsEvent (recordPath rec)).map eventReport,
                { s with
                  eventsPending := false, eventsUrgent := false, lastReport := now
                  eventsReported := last.number, eventsHaveReported := true })) := by
  simp only [Subscription.drainEvents, Subscription.drainSource, Option.map_some]
  split
  · exact .inl rfl
  rename_i howing
  have hpending : s.eventsPending = true := by
    cases hp : s.eventsPending with
    | true => rfl
    | false => simp [hp] at howing
  split
  · exact .inl rfl
  split
  · exact .inl rfl
  refine .inr ⟨hpending, ?_⟩
  cases hlast : (log.query 0xFFFF 0xFFFFFFFF 0xFFFFFFFF s.eventsMin).getLast? with
  | none => exact .inl ⟨rfl, rfl⟩
  | some last => exact .inr ⟨last, rfl, rfl⟩

/-- The subscriber after a drain that took the marks to `s` and handed out the
events of `records` that it selects. -/
theorem Tracked.handOut (h : Tracked log w) (hl : Ascending log) (hpending : w.sub.eventsPending = true)
    (hlast : (log.query 0xFFFF 0xFFFFFFFF 0xFFFFFFFF w.sub.eventsMin).getLast? = some last)
    {report : List (EventReport α)}
    (hreport : report = ((log.query 0xFFFF 0xFFFFFFFF 0xFFFFFFFF w.sub.eventsMin).filter fun rec =>
      w.sub.selectsEvent (recordPath rec)).map eventReport) (now : Int) :
    Tracked log { w with
      sub := { w.sub with
        eventsPending := false, eventsUrgent := false, lastReport := now
        eventsReported := last.number, eventsHaveReported := true }
      drained := if report.isEmpty then w.drained else w.drained ++ [{ report := report }] } := by
  have hlogged := mem_query_all.1 (mem_of_getLast? hlast)
  -- a number of the report is that of a record that was found
  have hfound : ∀ n ∈ report.map EventReport.number,
      ∃ rec ∈ log.query 0xFFFF 0xFFFFFFFF 0xFFFFFFFF w.sub.eventsMin, rec.number = n := by
    intro n hn
    rw [hreport, map_map] at hn
    obtain ⟨rec, hrec, rfl⟩ := mem_map.1 hn
    exact ⟨rec, (mem_filter.1 hrec).1, rfl⟩
  have hold : ∀ d ∈ w.drained, d.requeued = false → ∀ n ∈ d.numbers, n ≤ last.number := by
    intro d hd hsent n hn
    obtain ⟨hhave, hle⟩ := h.reported d hd hsent n hn
    have := h.marks.owed_above hpending hhave
    bv_omega
  have hmem : ∀ d, d ∈ (if report.isEmpty then w.drained else w.drained ++ [{ report := report }]) →
      d ∈ w.drained ∨ d = { report := report } := by
    intro d hd
    split at hd
    · exact .inl hd
    · obtain hd | hd := mem_append.1 hd
      · exact .inl hd
      · exact .inr (mem_singleton.1 hd)
  refine ⟨⟨nofun, fun _ => hl.latest last hlogged.1⟩, h.logged, ?_, ?_, ?_, ?_⟩
  · intro rec hrec
    refine .inl ?_
    obtain ⟨d, hd, hsent, hin⟩ | ⟨-, hmin⟩ := h.no_loss rec hrec
    · refine ⟨d, ?_, hsent, hin⟩
      show d ∈ ite _ _ _
      split
      · exact hd
      · exact mem_append_left _ hd
    · have hin : eventReport rec ∈ report := by
        rw [hreport]
        exact mem_map_of_mem (mem_filter.2 ⟨mem_query_all.2 ⟨(h.logged rec hrec).1, hmin⟩, (h.logged rec hrec).2⟩)
      have hne : report.isEmpty = false := by
        cases report with
        | nil => cases hin
        | cons => rfl
      refine ⟨{ report := report }, ?_, rfl, hin⟩
      show _ ∈ ite _ _ _
      rw [hne]
      exact mem_append_right _ mem_cons_self
  · intro d hd hsent n hn
    refine ⟨rfl, ?_⟩
    obtain hd | rfl := hmem d hd
    · exact hold d hd hsent n hn
    · obtain ⟨rec, hrec, rfl⟩ := hfound n hn
      exact le_last_of_query hl hlast hrec
  · show (ite _ _ _ : List (Drained α)).Pairwise _
    split
    · exact h.separated
    rw [pairwise_append]
    refine ⟨h.separated, pairwise_singleton _ _, ?_⟩
    intro d hd d' hd' hsent n hn m hm
    rw [mem_singleton.1 hd'] at hm
    obtain ⟨rec, hrec, rfl⟩ := hfound m hm
    obtain ⟨hhave, hle⟩ := h.reported d hd hsent n hn
    have := h.marks.owed_above hpending hhave
    have := (mem_query_all.1 hrec).2
    bv_omega
  · intro d hd
    obtain hd | rfl := hmem d hd
    · exact h.ordered d hd
    · rw [Drained.numbers, hreport, map_map]
      exact hl.numbers.sublist ((filter_sublist.trans filter_sublist).map _)

theorem Tracked.drain (h : Tracked log w) (hl : Ascending log) (now : Int) (force : Bool) :
    Tracked log (w.drain log now force) := by
  obtain he | ⟨hpending, ⟨hnone, he⟩ | ⟨last, hlast, he⟩⟩ := drainEvents_cases w.sub now log force
  · simp only [Subscriber.drain, he]
    exact h
  · -- nothing in the log: then nothing fired is owed
    simp only [Subscriber.drain, he]
    refine ⟨⟨nofun, h.marks.reported_le⟩, h.logged, ?_, h.reported, h.separated, h.ordered⟩
    intro rec hrec
    obtain hsent | ⟨-, hmin⟩ := h.no_loss rec hrec
    · exact .inl hsent
    · have hfound := mem_query_all.2 ⟨(h.logged rec hrec).1, hmin⟩
      rw [List.getLast?_eq_none_iff.1 hnone] at hfound
      cases hfound
  · simp only [Subscriber.drain, he]
    exact h.handOut hl hpending hlast rfl now

/-! ## Requeueing -/

/-- Requeueing from a reported number takes both marks back to before it. -/
theorem requeueEvents_reported (hm : Marks log s) (hopen : s.closed = false) {f : BitVec 64} (hf : Reported s f) :
    s.requeueEvents f =
      if f = 0 then { s with eventsMin := f, eventsPending := true, eventsHaveReported := false }
      else { s with eventsMin := f, eventsPending := true, eventsReported := f - 1 } := by
  have hmin : (!s.eventsPending) = true ∨ f < s.eventsMin := by
    cases hp : s.eventsPending with
    | false => exact .inl rfl
    | true =>
      have := hm.owed_above hp hf.1
      have := hf.2
      exact .inr (by bv_omega)
  have hge : s.eventsHaveReported = true ∧ s.eventsReported ≥ f := hf
  simp only [Subscription.requeueEvents, hopen, Bool.false_eq_true, if_false, if_pos hmin, if_pos hge]

/-- The subscriber whose latest report, `last`, is requeued. -/
theorem Tracked.takeBack (h : Tracked log w) (hopen : w.sub.closed = false) {sent : List (Drained α)}
    {first : EventReport α} {rest : List (EventReport α)}
    (hsplit : w.drained = sent ++ [{ report := first :: rest }]) :
    Tracked log { w with
      sub := w.sub.requeueEvents first.number
      drained := sent ++ [{ report := first :: rest, requeued := true }] } := by
  have hlast : ({ report := first :: rest } : Drained α) ∈ w.drained := by
    rw [hsplit]
    exact mem_append_right _ mem_cons_self
  have hfirst : Reported w.sub first.number := h.reported _ hlast rfl _ mem_cons_self
  have hsent : ∀ d ∈ sent, d ∈ w.drained := fun d hd => hsplit ▸ mem_append_left _ hd
  have hseparated := h.separated
  rw [hsplit, pairwise_append] at hseparated
  have hbefore : ∀ d ∈ sent, d.requeued = false → ∀ n ∈ d.numbers, n < first.number := fun d hd hs n hn =>
    hseparated.2.2 d hd _ mem_cons_self hs n hn _ mem_cons_self
  have hfrom : ∀ n ∈ (first :: rest).map EventReport.number, first.number ≤ n := by
    intro n hn
    have hsorted : (first.number :: rest.map EventReport.number).Pairwise (· < ·) := h.ordered _ hlast
    obtain rfl | hn := mem_cons.1 hn
    · exact BitVec.le_refl _
    · exact BitVec.le_of_lt ((pairwise_cons.1 hsorted).1 n hn)
  have hmarks := requeueEvents_reported h.marks hopen hfirst
  generalize w.sub.requeueEvents first.number = s at hmarks
  have howes : ∀ n, first.number ≤ n → Owed s n := by
    intro n hn
    rw [hmarks]
    split
    all_goals exact ⟨rfl, hn⟩
  refine ⟨⟨?_, ?_⟩, ?_, ?_, ?_, ?_, ?_⟩
  · rw [hmarks]
    split
    · exact nofun
    · intro _ _
      show first.number - 1 < first.number
      bv_omega
  · have hle := h.marks.reported_le hfirst.1
    have hfle := hfirst.2
    rw [hmarks]
    split
    · exact nofun
    · intro _
      show first.number - 1 ≤ log.next
      bv_omega
  · intro rec hrec
    refine ⟨(h.logged rec hrec).1, ?_⟩
    rw [hmarks]
    split
    all_goals exact (h.logged rec hrec).2
  · intro rec hrec
    obtain ⟨d, hd, hs, hin⟩ | ⟨hpending, hmin⟩ := h.no_loss rec hrec
    · rw [hsplit] at hd
      obtain hd | hd := mem_append.1 hd
      · exact .inl ⟨d, mem_append_left _ hd, hs, hin⟩
      · obtain rfl := mem_singleton.1 hd
        exact .inr (howes _ (hfrom _ (mem_map_of_mem hin)))
    · have := h.marks.owed_above hpending hfirst.1
      have := hfirst.2
      exact .inr (howes _ (by bv_omega))
  · intro d hd hs n hn
    obtain hd | hd := mem_append.1 hd
    · have hlt := hbefore d hd hs n hn
      rw [hmarks, if_neg (by bv_omega)]
      refine ⟨hfirst.1, ?_⟩
      show n ≤ first.number - 1
      bv_omega
    · rw [mem_singleton.1 hd] at hs
      cases hs
  · rw [pairwise_append]
    refine ⟨hseparated.1, pairwise_singleton _ _, ?_⟩
    intro d hd d' hd'
    rw [mem_singleton.1 hd']
    exact hseparated.2.2 d hd { report := first :: rest } mem_cons_self
  · intro d hd
    obtain hd | hd := mem_append.1 hd
    · exact h.ordered d (hsent d hd)
    · rw [mem_singleton.1 hd]
      exact h.ordered { report := first :: rest } hlast

theorem Tracked.requeue {w' : Subscriber α} (h : Tracked log w) (hr : w.requeue = some w') : Tracked log w' := by
  simp only [Subscriber.requeue] at hr
  split at hr
  · rename_i first rest hlast
    obtain rfl := Option.some.inj hr
    obtain ⟨sent, hsplit⟩ := List.getLast?_eq_some_iff.1 hlast
    have hdrop : w.drained.dropLast = sent := by rw [hsplit, dropLast_concat]
    rw [hdrop]
    cases hclosed : w.sub.closed with
    | true =>
      simp only [Subscription.requeueEvents, hclosed, Bool.not_true, ← hsplit]
      exact h
    | false => exact h.takeBack hclosed hsplit
  · cases hr

/-! ## Runs -/

/-- The log is in order, and every subscriber is tracked. -/
structure DeliveryInv (n : Node α) : Prop where
  ascending : Ascending n.log
  tracked : ∀ w ∈ n.subscribers, Tracked n.log w

theorem DeliveryInv.at (h : DeliveryInv n) {i : Nat} {f : Subscriber α → Option (Subscriber α)}
    (hf : ∀ w w', Tracked n.log w → f w = some w' → Tracked n.log w') (hs : n.at i f = some n') :
    DeliveryInv n' := by
  simp only [Node.at, Option.bind_eq_bind, Option.pure_def, Option.bind_eq_some_iff, Option.some.injEq] at hs
  obtain ⟨w, hw, w', hw', rfl⟩ := hs
  refine ⟨h.ascending, ?_⟩
  intro v hv
  obtain hv | rfl := mem_or_eq_of_mem_set hv
  · exact h.tracked v hv
  · exact hf w _ (h.tracked w (mem_of_getElem? hw)) hw'

theorem DeliveryInv.step {c : Call α} (h : DeliveryInv n) (hs : n.step c = some n') : DeliveryInv n' := by
  cases c with
  | subscribe sub =>
    simp only [Node.step] at hs
    split at hs
    · cases hs
    rename_i hfresh
    simp only [not_or, Bool.not_eq_true] at hfresh
    obtain rfl := Option.some.inj hs
    refine ⟨h.ascending, ?_⟩
    intro w hw
    obtain hw | hw := mem_append.1 hw
    · exact h.tracked w hw
    · rw [mem_singleton.1 hw]
      exact tracked_new n.log hfresh.1 hfresh.2
  | fire rec time =>
    simp only [Node.step] at hs
    split at hs
    · rename_i hfire
      obtain rfl := Option.some.inj hs
      have hocc := assign_occurrences hfire.2
      refine ⟨ascending_append h.ascending hfire.1 hocc rfl, ?_⟩
      intro w hw
      obtain ⟨v, hv, rfl⟩ := mem_map.1 hw
      exact (h.tracked v hv).fire hfire.1 hocc rfl
    · cases hs
  | drain i now force =>
    refine h.at (fun w w' hw hw' => ?_) hs
    obtain rfl := Option.some.inj hw'
    exact hw.drain h.ascending now force
  | requeue i => exact h.at (fun w w' hw hw' => hw.requeue hw') hs
  | close i | touch i lastReport deferredUntil =>
    refine h.at (fun w w' hw hw' => ?_) hs
    obtain rfl := Option.some.inj hw'
    exact hw.frame rfl rfl rfl rfl rfl

/-- However firings, drains and requeued reports interleave, no subscriber loses
an event, gets one twice or gets them out of order. -/
theorem subscriptions_lose_no_event (log : EventLog α) (hlog : Ascending log) (calls : List (Call α)) (n : Node α)
    (hrun : (delivery α).run { log := log, subscribers := [] } calls = some n) : ∀ w ∈ n.subscribers, Delivers w := by
  have hinv : DeliveryInv n :=
    System.run_invariant (fun n c n' hi hs => hi.step hs) ⟨hlog, fun _ hw => absurd hw not_mem_nil⟩ hrun
  intro w hw
  exact (hinv.tracked w hw).delivers

def sampleSubscription : Subscription :=
  { minIntervalFloor := 1, maxIntervalCeiling := 60, eventPaths := [{ cluster := 6, hasCluster := true }] }

def sampleRecord (cluster : BitVec 32) : EventRecord Nat :=
  { number := 0, priority := .info, endpoint := 1, cluster := cluster, eventID := 0, epochMS := 0, payload := 5 }

/-- A report that cannot be sent, while the next event is fired. -/
def sampleCalls : List (Call Nat) :=
  [.subscribe sampleSubscription, .fire (sampleRecord 6) 10, .fire (sampleRecord 8) 11, .drain 0 (5 * second) false,
    .fire (sampleRecord 6) 12, .requeue 0, .drain 0 (7 * second) false]

theorem subscriptions_lose_no_event_requeued :
    ∃ n, (delivery Nat).run { log := newEventLog, subscribers := [] } sampleCalls = some n ∧
      n.subscribers.map (fun w => w.drained.map Drained.numbers) = [[[1], [1, 3]]] ∧
      ∀ w ∈ n.subscribers, Delivers w := by
  have hrun : ((delivery Nat).run { log := newEventLog, subscribers := [] } sampleCalls).isSome = true := by
    decide +kernel
  obtain ⟨n, hn⟩ := Option.isSome_iff_exists.1 hrun
  refine ⟨n, hn, ?_, subscriptions_lose_no_event newEventLog ⟨.nil, nofun⟩ sampleCalls n hn⟩
  have hdrained : ((delivery Nat).run { log := newEventLog, subscribers := [] } sampleCalls).map
      (fun n => n.subscribers.map fun w => w.drained.map Drained.numbers) = some [[[1], [1, 3]]] := by
    decide +kernel
  rw [hn] at hdrained
  exact Option.some.inj hdrained

end GF.Proof.Im
