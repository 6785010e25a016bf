import GoFabric.Impl.Im.Wire

/-!
# Subscriptions (`im/subscription/subscription.go`, `im/subscription/manager.go`)

What a subscription owes of the events, and how the manager tells it of an
event. The calls on a subscription exclude each other by its mutex. A time is in
nanoseconds since Go's zero time, a duration in nanoseconds.
-/

namespace GF.Impl.Im

open GF.Impl.Im.Wire (ConcreteEventPath EventReport)

def second : Int := 1000000000

def millisecond : Int := 1000000

/-- `Subscription`, with the fields of the event path. -/
structure Subscription where
  minIntervalFloor : BitVec 16
  maxIntervalCeiling : BitVec 16
  eventPaths : List ConcreteEventPath
  sendIntervalOverride : Int := 0
  lastReport : Int := 0
  deferredUntil : Int := 0
  eventsPending : Bool := false
  eventsMin : BitVec 64 := 0
  eventsUrgent : Bool := false
  eventsReported : BitVec 64 := 0
  eventsHaveReported : Bool := false
  closed : Bool := false

/-! ## Owed events -/

/-- `Matches`. -/
def eventPathMatches (p other : ConcreteEventPath) : Bool :=
  if p.hasEndpoint ∧ p.endpoint ≠ other.endpoint then false
  else if p.hasCluster ∧ p.cluster ≠ other.cluster then false
  else if p.hasEvent ∧ p.event ≠ other.event then false
  else true

namespace Subscription

variable (s : Subscription)

def selectsEvent (path : ConcreteEventPath) : Bool := s.eventPaths.any (eventPathMatches · path)

/-- `queueEvent`, without its result, which no caller reads. -/
def queueEvent (number : BitVec 64) (priority : EventPriority) : Subscription :=
  if s.closed then s
  else if s.eventsHaveReported ∧ number ≤ s.eventsReported then s
  else
    { s with
      eventsMin := if !s.eventsPending ∨ number < s.eventsMin then number else s.eventsMin
      eventsPending := true
      eventsUrgent := s.eventsUrgent || priority == .critical }

def requeueEvents (fromNumber : BitVec 64) : Subscription :=
  if s.closed then s
  else
    let s := { s with
      eventsMin := if !s.eventsPending ∨ fromNumber < s.eventsMin then fromNumber else s.eventsMin
      eventsPending := true }
    if s.eventsHaveReported ∧ s.eventsReported ≥ fromNumber then
      if fromNumber = 0 then { s with eventsHaveReported := false }
      else { s with eventsReported := fromNumber - 1 }
    else s

/-- `Close`, on the fields of the event path. -/
def close : Subscription := { s with closed := true }

end Subscription

variable {α : Type}

/-- The path of a record. -/
def recordPath (rec : EventRecord α) : ConcreteEventPath :=
  { hasEndpoint := true, hasCluster := true, hasEvent := true, endpoint := rec.endpoint, cluster := rec.cluster,
    event := rec.eventID }

/-- The entry of a report for a record. -/
def eventReport (rec : EventRecord α) : EventReport α :=
  { path := recordPath rec, number := rec.number, priority := rec.priority, timestamp := rec.epochMS
    data := { value := some rec.payload } }

/-- `EventSource`, as a drain asks it: the records from a number on. -/
abbrev EventSource (α : Type) := BitVec 64 → List (EventRecord α)

/-- `drainEvents` of any source: the report, empty when there is none, and the
subscription left. -/
def Subscription.drainSource (s : Subscription) (now : Int) (src : Option (EventSource α)) (force : Bool) :
    List (EventReport α) × Subscription :=
  if s.closed ∨ !s.eventsPending then ([], s)
  else
    let urgent := s.eventsUrgent || force
    if !urgent ∧ s.lastReport ≠ 0 ∧ now - s.lastReport < s.minIntervalFloor.toNat * second then ([], s)
    else if !urgent ∧ now < s.deferredUntil then ([], s)
    else
      let minNumber := s.eventsMin
      let s := { s with eventsPending := false, eventsUrgent := false, lastReport := now }
      match src with
      | none => ([], s)
      | some query =>
        match (query minNumber).getLast? with
        | none => ([], s)
        | some last =>
          let s := { s with eventsReported := last.number, eventsHaveReported := true }
          (((query minNumber).filter fun rec => s.selectsEvent (recordPath rec)).map eventReport, s)

/-- `drainEvents` of the event log. -/
def Subscription.drainEvents (s : Subscription) (now : Int) (src : Option (EventLog α)) (force : Bool) :
    List (EventReport α) × Subscription :=
  s.drainSource now (src.map fun log => log.query 0xFFFF 0xFFFFFFFF 0xFFFFFFFF) force

/-! ## Fan-out -/

structure EventFiring where
  path : ConcreteEventPath
  number : BitVec 64
  priority : EventPriority

/-- `OnEventFired`, for one of the manager's subscriptions. -/
def Subscription.onEventFired (s : Subscription) (ev : EventFiring) : Subscription :=
  if !ev.path.hasEndpoint ∨ !ev.path.hasCluster ∨ !ev.path.hasEvent then s
  else if s.selectsEvent ev.path then s.queueEvent ev.number ev.priority
  else s

/-- What `recordAndFanOut` of `bridge/subscribe.go` tells the subscriptions of a
record. -/
def firing (rec : EventRecord α) : EventFiring :=
  { path := recordPath rec, number := rec.number, priority := rec.priority }

end GF.Impl.Im
