import GoFabric.Framework.System

/-!
# The group data counter (`groups/counter.go`)

A write to the store reports success, and is durable then, or it fails, and the
process may crash in it; a write that failed or was cut off may be durable all
the same. The near-rollover warning is a log line and left out.
-/

namespace GF.Impl.Groups

def groupDataCounterReserve : Nat := 1000
def maxCounterValue : Nat := 0xFFFFFFFF

/-- The errors of the counter, with what their texts report. -/
inductive CounterError
  | load
  | invalidValue (stored : Nat)
  | seed
  | persist

/-- How a call ends: it returns a value or an error, or the process dies in
it. -/
inductive Outcome (α : Type)
  | ok (a : α)
  | error (e : CounterError)
  | crashed

/-- What becomes of `SetMetadataCounter`. -/
inductive Write
  | ok
  | failed (durable : Bool)
  | crashed (durable : Bool)

/-- The value is in the store after it. -/
def Write.durable : Write → Bool
  | .ok => true
  | .failed durable | .crashed durable => durable

structure DataCounter where
  value : Nat
  reserved : Nat
deriving DecidableEq

/-- `reserveAhead`: how it ends, and the mark it put in the store. -/
def DataCounter.reserveAhead (c : DataCounter) (w : Write) : Outcome DataCounter × Option Nat :=
  let reserved := min (c.value + groupDataCounterReserve) maxCounterValue
  let written := if w.durable then some reserved else none
  match w with
  | .ok => (.ok { c with reserved := reserved }, written)
  | .failed _ => (.error .persist, written)
  | .crashed _ => (.crashed, written)

/-- `newDataCounter`, on what the store holds; `load` tells whether it could be
read, and `random` is the random start. -/
def newDataCounter (stored : Option Nat) (load : Bool) (random : Option (BitVec 32)) (w : Write) :
    Outcome DataCounter × Option Nat :=
  if ¬load then (.error .load, none)
  else
    match stored with
    | some v =>
      if v > maxCounterValue then (.error (.invalidValue v), none)
      else DataCounter.reserveAhead { value := v, reserved := 0 } w
    | none =>
      match random with
      | none => (.error .seed, none)
      | some start => DataCounter.reserveAhead { value := start.toNat, reserved := 0 } w

/-- `next`: how it ends, the counter after it, and the mark it put in the
store. -/
def DataCounter.next (c : DataCounter) (w : Write) : Outcome (BitVec 32) × DataCounter × Option Nat :=
  let value := if c.value + 1 > maxCounterValue then 0 else c.value + 1
  let c := { c with value := value }
  if c.value ≥ c.reserved ∨ c.value + groupDataCounterReserve < c.reserved then
    match c.reserveAhead w with
    | (.ok c, written) => (.ok (BitVec.ofNat 32 c.value), c, written)
    | (.error e, written) => (.error e, c, written)
    | (.crashed, written) => (.crashed, c, written)
  else (.ok (BitVec.ofNat 32 c.value), c, none)

/-! ## A node over its crashes -/

/-- What the store holds, and the counter in memory. -/
structure Node where
  stored : Option Nat
  counter : Option DataCounter
deriving DecidableEq

/-- What happens to the counter. -/
inductive CounterEvent
  | start (load : Bool) (random : Option (BitVec 32)) (w : Write)
  | next (w : Write)
  | crash

/-- What a step did: the value it handed out, and the mark it stored. -/
structure Effect where
  handed : Option (BitVec 32) := none
  written : Option Nat := none

/-- The store after a call that wrote `written`. -/
def afterWrite (stored written : Option Nat) : Option Nat := written.or stored

/-- A step of the node. The counter is created once (`groupDataCounter`), again
after a creation that failed, and again after a crash. -/
def Node.step (n : Node) : CounterEvent → Option (Node × Effect)
  | .start load random w =>
    match n.counter with
    | some _ => none
    | none =>
      match newDataCounter n.stored load random w with
      | (.ok c, written) =>
        some ({ stored := afterWrite n.stored written, counter := some c }, { written := written })
      | (_, written) => some ({ stored := afterWrite n.stored written, counter := none }, { written := written })
  | .next w =>
    match n.counter with
    | none => none
    | some c =>
      match c.next w with
      | (.ok v, c, written) =>
        some ({ stored := afterWrite n.stored written, counter := some c }, { handed := some v, written := written })
      | (.error _, c, written) =>
        some ({ stored := afterWrite n.stored written, counter := some c }, { written := written })
      | (.crashed, _, written) =>
        some ({ stored := afterWrite n.stored written, counter := none }, { written := written })
  | .crash => some ({ n with counter := none }, {})

end GF.Impl.Groups
