import GoFabric.Impl.Mrp.Ack

/-!
# What becomes of owed acknowledgements

`Account` is a tracker with all that its callers saw: the obligations that calls of `Owe`
began, and the ones that each of the other calls took out. An `Owe` of the counter that is
already pending begins none.
-/

namespace GF.Spec.Acks

open GF.Impl.Mrp

/-- An exchange and a counter to acknowledge on it. -/
abbrev Owed := ExchangeKey × BitVec 32

/-- A tracker, and what became of the obligations of its run. -/
structure Account where
  tracker : AckTracker
  begun : List Owed
  collected : List Owed
  lookedUp : List Owed
  discharged : List Owed

/-- The account of a new tracker. -/
def Account.new (delay : Int) : Account :=
  { tracker := newAckTracker delay, begun := [], collected := [], lookedUp := [], discharged := [] }

/-- What is owed on the exchange. -/
def pendingOn (t : AckTracker) (key : ExchangeKey) : Option Owed :=
  (t.pending.lookup key).map fun obl => (key, obl.ackCounter)

/-- What a table has pending. -/
def owedIn (p : AList fun _ : ExchangeKey => AckObligation) : List Owed :=
  p.entries.map fun e => (e.1, e.2.ackCounter)

/-- What an obligation is about. -/
def owedOf (obl : AckObligation) : Owed := (obl.key, obl.ackCounter)

/-- A call, with what it returns. What `Discharge` removed is what was pending. -/
def Account.step (a : Account) (call : AckCall) : Account :=
  let r := ackMachine.step a.tracker call
  let a' := { a with tracker := r.2 }
  match call, r.1 with
  | .owe c key _, _ => if pendingOn a.tracker key = some (key, c) then a' else { a' with begun := (key, c) :: a.begun }
  | .discharge key, .existed true => { a' with discharged := (pendingOn a.tracker key).toList ++ a.discharged }
  | .lookupAndDischarge key, .counter (some c) => { a' with lookedUp := (key, c) :: a.lookedUp }
  | .due _, .obligations l => { a' with collected := l.map owedOf ++ a.collected }
  | _, _ => a'

/-- The account after a run of calls. -/
def Account.run (a : Account) (calls : List AckCall) : Account := calls.foldl Account.step a

end GF.Spec.Acks
