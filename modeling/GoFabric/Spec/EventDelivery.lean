import GoFabric.Impl.Im.Subscription

/-!
# Events on their way to the subscribers

A node is its event log and its subscriptions, each with what was fired for it
while it was open and with the reports it was drained of. The events of a run are
the calls, in any order.
-/

namespace GF.Spec.EventDelivery

open GF.Impl.Im
open GF.Impl.Im.Wire (EventReport)

variable {α : Type}

/-- A report that a drain handed out, and whether its events were owed again
because it was not sent. -/
structure Drained (α : Type) where
  report : List (EventReport α)
  requeued : Bool := false

/-- A subscription, the events fired for it and its reports, the latest last. -/
structure Subscriber (α : Type) where
  sub : Subscription
  fired : List (EventRecord α) := []
  drained : List (Drained α) := []

structure Node (α : Type) where
  log : EventLog α
  subscribers : List (Subscriber α)

/-- What happens at a node. -/
inductive Call (α : Type)
  /-- A subscription that owes nothing is made. -/
  | subscribe (sub : Subscription)
  /-- `recordAndFanOut` -/
  | fire (rec : EventRecord α) (time : BitVec 64)
  /-- `drainEvents` of subscription `i` -/
  | drain (i : Nat) (now : Int) (force : Bool)
  /-- `RequeueEvents` of subscription `i`, because its latest report was not sent -/
  | requeue (i : Nat)
  /-- `Close` of subscription `i` -/
  | close (i : Nat)
  /-- Another call on subscription `i`, of the attribute path or of the cadence -/
  | touch (i : Nat) (lastReport deferredUntil : Int)

/-- An event is fired for a subscriber: one of its paths matches it, and it is
open. -/
def Subscriber.fire (w : Subscriber α) (rec : EventRecord α) : Subscriber α :=
  { w with
    sub := w.sub.onEventFired (firing rec)
    fired := if !w.sub.closed ∧ w.sub.selectsEvent (recordPath rec) then w.fired ++ [rec] else w.fired }

/-- A drain; it hands out no report when there are no events. -/
def Subscriber.drain (w : Subscriber α) (log : EventLog α) (now : Int) (force : Bool) : Subscriber α :=
  let (report, sub) := w.sub.drainEvents now (some log) force
  { w with sub := sub, drained := if report.isEmpty then w.drained else w.drained ++ [{ report := report }] }

/-- The latest report, if it has not been requeued, is requeued from its first
number on. A closed subscription requeues nothing. -/
def Subscriber.requeue (w : Subscriber α) : Option (Subscriber α) :=
  match w.drained.getLast? with
  | some { report := first :: rest, requeued := false } =>
    some { w with
      sub := w.sub.requeueEvents first.number
      drained := w.drained.dropLast ++ [{ report := first :: rest, requeued := !w.sub.closed }] }
  | _ => none

/-- A call at a subscription. -/
def Node.at (n : Node α) (i : Nat) (f : Subscriber α → Option (Subscriber α)) : Option (Node α) := do
  let w ← n.subscribers[i]?
  let w' ← f w
  pure { n with subscribers := n.subscribers.set i w' }

/-- A call. An event is fired with a number above those before it, and the log
evicts nothing for it. -/
def Node.step (n : Node α) : Call α → Option (Node α)
  | .subscribe sub =>
    if sub.eventsPending ∨ sub.eventsHaveReported then none
    else some { n with subscribers := n.subscribers ++ [{ sub := sub }] }
  | .fire rec time =>
    let (stamped, log) := n.log.assign rec time
    if n.log.next < stamped.number ∧ log.occurrences.length = n.log.occurrences.length + 1 then
      some { log := log, subscribers := n.subscribers.map (·.fire stamped) }
    else none
  | .drain i now force => n.at i fun w => some (w.drain n.log now force)
  | .requeue i => n.at i Subscriber.requeue
  | .close i => n.at i fun w => some { w with sub := w.sub.close }
  | .touch i lastReport deferredUntil =>
    n.at i fun w => some { w with sub := { w.sub with lastReport := lastReport, deferredUntil := deferredUntil } }

/-- Nodes and the calls on them. -/
def delivery (α : Type) : System (Node α) (Call α) := { step := Node.step }

/-- The numbers of the log ascend, up to the latest one. -/
structure Ascending (l : EventLog α) : Prop where
  numbers : (l.occurrences.map EventRecord.number).Pairwise (· < ·)
  latest : ∀ rec ∈ l.occurrences, rec.number ≤ l.next

/-! ## What a subscriber can rely on -/

/-- The numbers of a report. -/
def Drained.numbers (d : Drained α) : List (BitVec 64) := d.report.map EventReport.number

/-- The subscription owes the event of this number. -/
def Owed (s : Subscription) (number : BitVec 64) : Prop := s.eventsPending = true ∧ s.eventsMin ≤ number

/-- No event is lost, none is reported twice, and the reports are in order. -/
structure Delivers (w : Subscriber α) : Prop where
  no_loss : ∀ rec ∈ w.fired,
    (∃ d ∈ w.drained, d.requeued = false ∧ eventReport rec ∈ d.report) ∨ Owed w.sub rec.number
  no_duplicate : w.drained.Pairwise fun d d' => d.requeued = false → ∀ n ∈ d.numbers, n ∉ d'.numbers
  ordered : ∀ d ∈ w.drained, d.numbers.Pairwise (· < ·)

end GF.Spec.EventDelivery
