import GoFabric.Impl.Im.Write

/-!
# Write interactions that share their holds (`im/write.go`)

Any number of transactions on one table of held attributes. Each critical section of
`WriteHolds.mu` is one step: the test for BUSY, the hold and the release are three. A
transaction handles one message at a time, as the fields of it that no mutex guards need;
which attributes a message writes is up to the run.
-/

namespace GF.Impl.Im

/-- Where a transaction is in `HandleWriteRequest`; `more` is whether its message announces
more. -/
inductive WritePhase
  | idle
  | handling (more : Bool)
  /-- `heldByOther` said no. -/
  | tested (more : Bool) (k : WriteHoldKey)
  /-- The write of the attribute is under way, behind `hold`. -/
  | dispatching (more : Bool) (k : WriteHoldKey)
  /-- A wildcard path reached the attribute, behind `heldByOther` alone. -/
  | expanding (more : Bool) (k : WriteHoldKey)
deriving DecidableEq

/-- The table and the transactions on it; `done` are those that have handled their final
message or were released. -/
structure Writers where
  holds : WriteHolds
  tx : Nat → WriteTransaction
  phase : Nat → WritePhase
  done : Nat → Bool

/-- A step of transaction `i`. -/
inductive WritersEvent
  | message (i : Nat) (more : Bool)
  | test (i : Nat) (k : WriteHoldKey)
  | expand (i : Nat) (k : WriteHoldKey)
  | hold (i : Nat)
  /-- The write of the attribute was made, or refused behind the hold. -/
  | written (i : Nat)
  | finish (i : Nat)
  | release (i : Nat)

namespace Writers

/-- No transaction has begun. -/
def new : Writers :=
  { holds := fun _ => none, tx := fun i => newWriteTransaction i true, phase := fun _ => .idle, done := fun _ => true }

/-- What transaction `i` finds in a critical section. -/
def view (s : Writers) (i : Nat) : WriteState Unit :=
  { world := { state := (), holds := s.holds }, tx := s.tx i, lastWritten := none, responses := [], log := [] }

/-- Transaction `i` leaves a critical section for `p`. -/
def put (s : Writers) (i : Nat) (t : WriteState Unit) (p : WritePhase) (done : Bool) : Writers :=
  { holds := t.world.holds, tx := Function.update s.tx i t.tx, phase := Function.update s.phase i p
    done := Function.update s.done i done }

def step (s : Writers) : WritersEvent → Option Writers
  | .message i more =>
    match s.phase i with
    | .idle => some (s.put i (s.view i) (.handling more) false)
    | _ => none
  | .test i k =>
    match s.phase i with
    | .handling more => some (if (s.view i).heldByOther k then s else s.put i (s.view i) (.tested more k) false)
    | _ => none
  | .expand i k =>
    match s.phase i with
    | .handling more => some (if (s.view i).heldByOther k then s else s.put i (s.view i) (.expanding more k) false)
    | _ => none
  | .hold i =>
    match s.phase i with
    | .tested more k =>
      let t := (s.view i).hold k more
      some (s.put i { t with tx := { t.tx with lastQueued := some k } } (.dispatching more k) false)
    | _ => none
  | .written i =>
    match s.phase i with
    | .dispatching more _ | .expanding more _ => some (s.put i (s.view i) (.handling more) false)
    | _ => none
  | .finish i =>
    match s.phase i with
    | .handling more =>
      some (s.put i ((s.view i).releaseHolds (if more then (s.tx i).lastQueued else none)) .idle (!more))
    | _ => none
  | .release i => some (s.put i ((s.view i).releaseHolds none) (s.phase i) true)

end Writers

/-- Write interactions and their steps. -/
def writers : System Writers WritersEvent where
  step := Writers.step

end GF.Impl.Im
