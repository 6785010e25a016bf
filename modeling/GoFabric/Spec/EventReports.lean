import GoFabric.Impl.Im.Engine
import GoFabric.Impl.Im.ReadEvents

/-!
# What a peer is to get of events, and when

A read and a subscription report what the paths of the request match (`OneMeaning`), and
the engine visits a subscription in time and with an event wherever it owes one (`InTime`).
-/

namespace GF.Spec.EventReports

open GF.Impl.Im
open GF.Impl.Im.Wire (ConcreteEventPath EventMinimumNumber)

variable {α : Type}

/-- The path with each field that states the largest number as a wildcard. -/
def widened (p : ConcreteEventPath) : ConcreteEventPath :=
  { p with
    hasEndpoint := p.hasEndpoint && p.endpoint != 0xFFFF
    hasCluster := p.hasCluster && p.cluster != 0xFFFFFFFF
    hasEvent := p.hasEvent && p.event != 0xFFFFFFFF }

/-- A read of the paths reports the buffered records from the minimum on that one of
the paths matches, each once and by ascending number, and so the records that a
subscription to the paths reports when it owes from the minimum on. -/
def OneMeaning (paths : List ConcreteEventPath) (log : EventLog α) (filters : List EventMinimumNumber) : Prop :=
  (buildEventReports paths (some log) filters).Pairwise (·.number < ·.number) ∧
    (∀ ev, ev ∈ buildEventReports paths (some log) filters ↔
      ∃ rec ∈ log.occurrences, ev = eventReport rec ∧ minEventNumberFromFilters filters ≤ rec.number ∧
        ∃ p ∈ paths, eventPathMatches p (recordPath rec) = true) ∧
    ∀ (s : Subscription) (now : Int), s.closed = false → s.eventsPending = true → s.eventPaths = paths →
      s.eventsMin = minEventNumberFromFilters filters →
        ∀ ev, ev ∈ (s.drainEvents now (some log) true).1 ↔ ev ∈ buildEventReports paths (some log) filters

/-- No buffered record from the minimum on is met only by a path that states the largest
number of a field. -/
def LargestCovered (paths : List ConcreteEventPath) (log : EventLog α) (filters : List EventMinimumNumber) : Prop :=
  ∀ rec ∈ log.occurrences, minEventNumberFromFilters filters ≤ rec.number →
    ∀ p ∈ paths, eventPathMatches (widened p) (recordPath rec) = true →
      ∃ q ∈ paths, eventPathMatches q (recordPath rec) = true

/-- Owed events are due: the gates in front of a drain let it pass. -/
def EventsDue (s : Subscription) (now : Int) (force : Bool) : Prop :=
  s.closed = false ∧ s.eventsPending = true ∧ ((s.eventsUrgent || force) = true ∨
    (s.lastReport = 0 ∨ s.minIntervalFloor.toNat * second ≤ now - s.lastReport) ∧ s.deferredUntil ≤ now)
deriving Decidable

/-- The reporter is set, and when owed events are due, then the reporter of events is set too and
the source has one for the subscription. -/
def Serves (s : Subscription) (t : Tick α) (force : Bool) : Prop :=
  t.reporter = true ∧ (EventsDue s t.now force → t.eventReporter = true ∧
    ∃ query ∈ t.source, ∃ rec ∈ query s.eventsMin, s.selectsEvent (recordPath rec) = true)
deriving Decidable

/-- The subscription is skipped, or it is visited within `d` of the latest tick, and served. -/
def Visited (d : Int) (w : Engine α) (t : Tick α) (force : Bool) : Prop :=
  (w.sub.closed = true ∨ w.priming = true ∨ w.reporting = true) ∨
    (w.tickedAt ≤ t.now ∧ t.now ≤ w.tickedAt + d) ∧ Serves w.sub t force
deriving Decidable

/-- Ticks and flushes are in time and served. -/
def InTime (d : Int) (w : Engine α) : EngineEvent α → Prop
  | .tick t => Visited d w t false
  | .flush t => Visited d w t true
  | _ => True

instance (d : Int) (w : Engine α) (e : EngineEvent α) : Decidable (InTime d w e) := by
  cases e <;> unfold InTime <;> infer_instance

end GF.Spec.EventReports
