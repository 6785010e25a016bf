import GoFabric.Impl.Im.Subscription

/-!
# The report engine (`im/subscription/engine.go`)

One subscription of the manager under the ticks of the engine. A report that a tick starts is on
the wire until its goroutine is done, and until then the ticks skip the subscription. The reports
that were handed to a reporter are kept with their times, the latest first.
-/

namespace GF.Impl.Im

open GF.Impl.Im.Wire (ConcreteEventPath EventReport)

variable {α : Type}

def maxSendInterval : Int := 120 * second

def deferSendSlack : Int := 50 * millisecond

namespace Subscription

/-- `sendIntervalLocked`. Below two minutes, four fifths of whole seconds are exact in a `float64`. -/
def sendInterval (s : Subscription) : Int :=
  if s.sendIntervalOverride > 0 then s.sendIntervalOverride
  else
    let maxInt := s.maxIntervalCeiling.toNat * second
    let floor := s.minIntervalFloor.toNat * second
    if maxInt ≤ 0 then 30 * second
    else
      let send := if maxInt / 2 < 60 * second then max floor (maxInt * 4 / 5) else maxInt / 2
      let send := if send > maxSendInterval then maxSendInterval else send
      let send := if send < floor then floor else send
      if send < second then second else send

def heartbeatIntervalElapsed (s : Subscription) (now : Int) : Bool :=
  s.lastReport = 0 ∨ now - s.lastReport ≥ s.sendInterval

def deferReports (s : Subscription) (now delay : Int) : Subscription :=
  let due := s.lastReport + (s.sendInterval - deferSendSlack)
  let limit := if s.lastReport ≠ 0 ∧ due < now + delay then due else now + delay
  { s with
    deferredUntil := if s.deferredUntil > now ∧ s.deferredUntil < limit then s.deferredUntil else limit }

/-- `drainDirty` of the marked paths: those it hands out, and what is left. -/
def drainDirty (s : Subscription) (pendingDirty : List ConcreteAttributePath) (now : Int) (force : Bool) :
    List ConcreteAttributePath × Subscription × List ConcreteAttributePath :=
  if s.closed ∨ pendingDirty.isEmpty then ([], s, pendingDirty)
  else if !force ∧ s.lastReport ≠ 0 ∧ now - s.lastReport < s.minIntervalFloor.toNat * second then ([], s, pendingDirty)
  else if !force ∧ now < s.deferredUntil then ([], s, pendingDirty)
  else (pendingDirty, { s with lastReport := now }, [])

end Subscription

/-- What a reporter is called with; a keep-alive has no paths. -/
inductive Report (α : Type)
  | events (reports : List (EventReport α))
  | attributes (paths : List ConcreteAttributePath)

/-- A tick: its time, the event source, and whether the reporters are set. -/
structure Tick (α : Type) where
  now : Int
  source : Option (EventSource α)
  reporter : Bool := true
  eventReporter : Bool := true

/-- `dueReport`, with the subscription and the paths left. -/
def dueReport (sub : Subscription) (pendingDirty : List ConcreteAttributePath) (t : Tick α) :
    Option (Report α) × Subscription × List ConcreteAttributePath :=
  let (events, sub) := sub.drainSource t.now t.source false
  if !events.isEmpty then (if t.eventReporter then some (.events events) else none, sub, pendingDirty)
  else
    let (dirty, sub, pendingDirty) := sub.drainDirty pendingDirty t.now false
    if !dirty.isEmpty then (if t.reporter then some (.attributes dirty) else none, sub, pendingDirty)
    else if sub.heartbeatIntervalElapsed t.now then
      (if t.reporter then some (.attributes []) else none, { sub with lastReport := t.now }, pendingDirty)
    else (none, sub, pendingDirty)

/-- A subscription under the engine. -/
structure Engine (α : Type) where
  sub : Subscription
  pendingDirty : List ConcreteAttributePath := []
  priming : Bool := false
  reporting : Bool := false
  tickedAt : Int
  handed : List (Int × Report α) := []

/-- `tick`, for the one subscription. -/
def Engine.tick (w : Engine α) (t : Tick α) : Engine α :=
  if w.sub.closed ∨ w.priming ∨ w.reporting then w
  else
    let (report, sub, pendingDirty) := dueReport w.sub w.pendingDirty t
    { w with
      sub, pendingDirty, reporting := report.isSome, tickedAt := t.now
      handed := (report.map fun r => (t.now, r)).toList ++ w.handed }

/-- `FlushFabric`, for the one subscription: what it owes goes out at once. A flush gives up on a
subscription whose report stays on the wire. -/
def Engine.flush (w : Engine α) (t : Tick α) : Engine α :=
  if w.sub.closed ∨ w.priming ∨ w.reporting then w
  else
    let (events, sub) := w.sub.drainSource t.now t.source true
    let (dirty, sub, pendingDirty) := sub.drainDirty w.pendingDirty t.now true
    let reports := (if !dirty.isEmpty ∧ t.reporter then [.attributes dirty] else []) ++
      if !events.isEmpty ∧ t.eventReporter then [.events events] else []
    { w with
      sub, pendingDirty, reporting := !reports.isEmpty
      handed := reports.map (fun r => (t.now, r)) ++ w.handed }

/-- What happens to the subscription. -/
inductive EngineEvent (α : Type)
  | tick (t : Tick α)
  | flush (t : Tick α)
  /-- The goroutine of a report is done. -/
  | reported
  | endPriming (now : Int)
  /-- `OnEventFired` -/
  | fired (ev : EventFiring)
  /-- `RequeueEvents` -/
  | requeue (fromNumber : BitVec 64)
  /-- `markDirty`, of a change or of a report that was not sent -/
  | changed (path : ConcreteAttributePath)
  /-- `DeferReports` -/
  | defer (now delay : Int)
  | close

def Engine.step (w : Engine α) : EngineEvent α → Option (Engine α)
  | .tick t => some (w.tick t)
  | .flush t => some (w.flush t)
  | .reported => if w.reporting then some { w with reporting := false } else none
  | .endPriming now =>
    if w.priming then some { w with priming := false, sub := { w.sub with lastReport := now } } else none
  | .fired ev => some { w with sub := w.sub.onEventFired ev }
  | .requeue fromNumber => some { w with sub := w.sub.requeueEvents fromNumber }
  | .changed path =>
    some { w with
      pendingDirty := if w.sub.closed ∨ w.pendingDirty.contains path then w.pendingDirty else w.pendingDirty ++ [path] }
  | .defer now delay => some { w with sub := w.sub.deferReports now delay }
  | .close => some { w with sub := w.sub.close, pendingDirty := [] }

def engine (α : Type) : System (Engine α) (EngineEvent α) := { step := Engine.step }

end GF.Impl.Im
