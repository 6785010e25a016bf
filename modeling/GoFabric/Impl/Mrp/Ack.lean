import GoFabric.Framework.Machine
import Mathlib.Data.List.AList

/-!
# Owed acknowledgements (`transport/mrp/ack.go`)

One obligation per exchange is pending. One that a newer message's displaces is not
dropped: the next `Due` returns it. A time is in nanoseconds since Go's zero time, a
duration in nanoseconds. Every method is one critical section.
-/

namespace GF.Impl.Mrp

structure ExchangeKey where
  sessionID : BitVec 16
  exchangeID : BitVec 16
  initiator : Bool
deriving DecidableEq

structure AckObligation where
  ackCounter : BitVec 32
  sessionID : BitVec 16
  exchangeID : BitVec 16
  initiator : Bool
  dueAt : Int
deriving DecidableEq

/-- The exchange of an obligation. -/
def AckObligation.key (o : AckObligation) : ExchangeKey :=
  { sessionID := o.sessionID, exchangeID := o.exchangeID, initiator := o.initiator }

/-- `AckTracker`, without its mutex. -/
structure AckTracker where
  pending : AList fun _ : ExchangeKey => AckObligation
  displaced : List AckObligation
  delay : Int

def newAckTracker (delay : Int) : AckTracker :=
  { pending := ∅, displaced := [], delay := if delay < 0 then 0 else delay }

namespace AckTracker

def owe (t : AckTracker) (ackCounter : BitVec 32) (key : ExchangeKey) (now : Int) : AckTracker :=
  let obl : AckObligation :=
    { ackCounter := ackCounter, sessionID := key.sessionID, exchangeID := key.exchangeID, initiator := key.initiator
      dueAt := now + t.delay }
  match t.pending.lookup key with
  | some prev =>
    if prev.ackCounter = ackCounter then t
    else
      { t with displaced := t.displaced ++ [{ prev with dueAt := 0 }], pending := t.pending.insert key obl }
  | none => { t with pending := t.pending.insert key obl }

def discharge (t : AckTracker) (key : ExchangeKey) : Bool × AckTracker :=
  match t.pending.lookup key with
  | none => (false, t)
  | some _ => (true, { t with pending := t.pending.erase key })

def lookupAndDischarge (t : AckTracker) (key : ExchangeKey) : Option (BitVec 32) × AckTracker :=
  match t.pending.lookup key with
  | none => (none, t)
  | some obl => (some obl.ackCounter, { t with pending := t.pending.erase key })

def expediteDue (t : AckTracker) (key : ExchangeKey) : Bool × AckTracker :=
  match t.pending.lookup key with
  | none => (false, t)
  | some obl => (true, { t with pending := t.pending.insert key { obl with dueAt := 0 } })

/-- `Due`. Go's order over `pending` is unspecified; here it is that of the table. -/
def due (t : AckTracker) (now : Int) : List AckObligation × AckTracker :=
  let r := t.pending.entries.foldl
    (fun (acc : List AckObligation × AList fun _ : ExchangeKey => AckObligation) e =>
      if now < e.2.dueAt then acc else (acc.1 ++ [e.2], acc.2.erase e.1))
    (t.displaced, t.pending)
  (r.1, { t with pending := r.2, displaced := [] })

end AckTracker

/-- A call of one of the methods. -/
inductive AckCall
  | owe (ackCounter : BitVec 32) (key : ExchangeKey) (now : Int)
  | discharge (key : ExchangeKey)
  | lookupAndDischarge (key : ExchangeKey)
  | expediteDue (key : ExchangeKey)
  | due (now : Int)

/-- What a call returns. -/
inductive AckAnswer
  | nothing
  | existed (b : Bool)
  | counter (c : Option (BitVec 32))
  | obligations (l : List AckObligation)
deriving DecidableEq

/-- A tracker as a machine. -/
def ackMachine : Machine AckTracker AckCall AckAnswer where
  step t
    | .owe c key now => (.nothing, t.owe c key now)
    | .discharge key => (.existed (t.discharge key).1, (t.discharge key).2)
    | .lookupAndDischarge key => (.counter (t.lookupAndDischarge key).1, (t.lookupAndDischarge key).2)
    | .expediteDue key => (.existed (t.expediteDue key).1, (t.expediteDue key).2)
    | .due now => (.obligations (t.due now).1, (t.due now).2)

end GF.Impl.Mrp
