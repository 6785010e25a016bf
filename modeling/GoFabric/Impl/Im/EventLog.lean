import GoFabric.Framework.System
import Mathlib.Data.Int.Notation

/-!
# The event log (`im/eventlog.go`)

Calls on a log interleave by its two mutexes: what a call does under `mu` is
one step, and `ceilingMu` is held across the call of `persistFn`. A process can
crash at any point; the next one seeds its log from the store (`node/node.go`).
-/

namespace GF.Impl.Im

/-- `EventPriority`, a byte with three named values. -/
abbrev EventPriority := BitVec 8

def EventPriority.debug : EventPriority := 0
def EventPriority.info : EventPriority := 1
def EventPriority.critical : EventPriority := 2

/-- `EventRecord`, with payloads of type `α`. -/
structure EventRecord (α : Type) where
  number : BitVec 64
  priority : EventPriority
  endpoint : BitVec 16
  cluster : BitVec 32
  eventID : BitVec 32
  epochMS : BitVec 64
  payload : α

/-! ## The buffer -/

structure BufferConfig where
  minEventAllowance : Int
  maxEventAllowance : Int
  minInfoAllowance : Int
  minDebugAllowance : Int

def defaultBufferConfig : BufferConfig :=
  { minEventAllowance := 2000, maxEventAllowance := 2200, minInfoAllowance := 400, minDebugAllowance := 200 }

def BufferConfig.normalized (c : BufferConfig) : BufferConfig :=
  let min := if c.minEventAllowance ≤ 0 then defaultBufferConfig.minEventAllowance else c.minEventAllowance
  { minEventAllowance := min
    maxEventAllowance := if c.maxEventAllowance ≤ min then min + max 1 (min.tdiv 10) else c.maxEventAllowance
    minInfoAllowance := if c.minInfoAllowance < 0 then 0 else c.minInfoAllowance
    minDebugAllowance := if c.minDebugAllowance < 0 then 0 else c.minDebugAllowance }

variable {α : Type}

/-- `protectedFrom[p]`: where the `floor` most recent records of a class
begin. -/
def protectedFrom (occurrences : List (EventRecord α)) (p : EventPriority) (floor : Int) : Nat :=
  (occurrences.zipIdx.reverse.foldl
    (fun (counted, start) (rec, i) =>
      if rec.priority = p ∧ counted < floor then (counted + 1, i) else (counted, start))
    ((0 : Int), occurrences.length)).2

/-- The pass of `harvestLocked` over one class: the records before `limit` are
marked while there are records to drop. -/
def dropPass (p : EventPriority) (limit : Nat) :
    Nat → Int → List (EventRecord α × Bool) → List (EventRecord α × Bool) × Int
  | _, toDrop, [] => ([], toDrop)
  | i, toDrop, (rec, drop) :: rest =>
    if i < limit ∧ 0 < toDrop ∧ rec.priority = p ∧ ¬drop then
      let r := dropPass p limit (i + 1) (toDrop - 1) rest
      ((rec, true) :: r.1, r.2)
    else
      let r := dropPass p limit (i + 1) toDrop rest
      ((rec, drop) :: r.1, r.2)

/-- `harvestLocked`, on the buffered records. -/
def harvest (buf : BufferConfig) (occurrences : List (EventRecord α)) : List (EventRecord α) :=
  let n := occurrences.length
  let toDrop := (n : Int) - buf.minEventAllowance
  if n ≤ buf.maxEventAllowance ∨ toDrop ≤ 0 then occurrences
  else
    let marked := occurrences.map fun rec => (rec, false)
    let r := dropPass .debug (protectedFrom occurrences .debug buf.minDebugAllowance) 0 toDrop marked
    let r := dropPass .info (protectedFrom occurrences .info buf.minInfoAllowance) 0 r.2 r.1
    let r := dropPass .critical n 0 r.2 r.1
    (r.1.filter fun m => !m.2).map Prod.fst

/-! ## The log -/

/-- `EventLog`, but for its mutexes and its clock. -/
structure EventLog (α : Type) where
  next : BitVec 64
  occurrences : List (EventRecord α)
  buf : BufferConfig
  persistCeiling : BitVec 64
  persistEpoch : BitVec 64
  persistFn : Bool

def newEventLog : EventLog α :=
  { next := 0, occurrences := [], buf := defaultBufferConfig.normalized, persistCeiling := 0, persistEpoch := 0,
    persistFn := false }

def EventLog.seedNumber (l : EventLog α) (base : BitVec 64) : EventLog α :=
  if base > l.next then { l with next := base } else l

/-- `SetCounterPersistence`, with a function that is not nil. -/
def EventLog.setCounterPersistence (l : EventLog α) (epoch : BitVec 64) : EventLog α :=
  { l with persistFn := true, persistEpoch := if epoch = 0 then 0x10000 else epoch, persistCeiling := l.next }

/-- The condition of the loop of `AppendRecord`: the next number needs a
ceiling. -/
def EventLog.needsCeiling (l : EventLog α) : Bool := l.persistFn && decide (l.next + 1 ≥ l.persistCeiling)

/-- `AppendRecord` behind its loop, at the time `now`: the record as stamped,
and the log. -/
def EventLog.assign (l : EventLog α) (rec : EventRecord α) (now : BitVec 64) : EventRecord α × EventLog α :=
  let stamped := { rec with number := l.next + 1, epochMS := if rec.epochMS = 0 then now else rec.epochMS }
  (stamped, { l with next := l.next + 1, occurrences := harvest l.buf (l.occurrences ++ [stamped]) })

def matchRecord (rec : EventRecord α) (endpoint : BitVec 16) (cluster eventID : BitVec 32) (minNumber : BitVec 64) :
    Bool :=
  if rec.number < minNumber then false
  else if endpoint ≠ 0xFFFF ∧ rec.endpoint ≠ endpoint then false
  else if cluster ≠ 0xFFFFFFFF ∧ rec.cluster ≠ cluster then false
  else if eventID ≠ 0xFFFFFFFF ∧ rec.eventID ≠ eventID then false
  else true

def EventLog.query (l : EventLog α) (endpoint : BitVec 16) (cluster eventID : BitVec 32) (minNumber : BitVec 64) :
    List (EventRecord α) :=
  l.occurrences.filter fun rec => matchRecord rec endpoint cluster eventID minNumber

/-! ## Calls -/

/-- Where a call stands. From `raiseCheck` to `raiseStore`, and from `dropClear`
to `dropPersist`, it holds `ceilingMu`. -/
inductive LogCall (α : Type)
  -- AppendRecord
  | check (rec : EventRecord α)
  | raiseLock (rec : EventRecord α)
  | raiseCheck (rec : EventRecord α)
  | raisePersist (rec : EventRecord α) (ceiling : BitVec 64)
  | raiseStore (rec : EventRecord α) (ceiling : BitVec 64)
  | appended (rec : EventRecord α)
  -- DropBuffered
  | dropLock
  | dropClear
  | dropPersist (ceiling : BitVec 64)
  | dropped

/-- What a step of a call does to the process: the log, `ceilingMu`, where the
call stands now, and the ceiling that a call of `persistFn` stored. -/
structure LogStep (α : Type) where
  log : EventLog α
  ceilingMu : Option Nat
  call : LogCall α
  persisted : Option (BitVec 64) := none

/-- The next step of call `i`; `none` while it waits for `ceilingMu`. -/
def LogCall.step (l : EventLog α) (ceilingMu : Option Nat) (i : Nat) (now : BitVec 64) :
    LogCall α → Option (LogStep α)
  | .check rec =>
    if l.needsCeiling then some { log := l, ceilingMu := ceilingMu, call := .raiseLock rec }
    else some { log := (l.assign rec now).2, ceilingMu := ceilingMu, call := .appended (l.assign rec now).1 }
  | .raiseLock rec =>
    match ceilingMu with
    | some _ => none
    | none => some { log := l, ceilingMu := some i, call := .raiseCheck rec }
  | .raiseCheck rec =>
    if ¬l.needsCeiling then some { log := l, ceilingMu := none, call := .check rec }
    else some { log := l, ceilingMu := ceilingMu, call := .raisePersist rec (l.next + 1 + l.persistEpoch) }
  | .raisePersist rec ceiling =>
    some { log := l, ceilingMu := ceilingMu, call := .raiseStore rec ceiling, persisted := some ceiling }
  | .raiseStore rec ceiling =>
    some { log := if ceiling > l.persistCeiling then { l with persistCeiling := ceiling } else l
           ceilingMu := none, call := .check rec }
  | .dropLock =>
    match ceilingMu with
    | some _ => none
    | none => some { log := l, ceilingMu := some i, call := .dropClear }
  | .dropClear =>
    if l.persistFn then
      some { log := { l with persistCeiling := l.next, occurrences := [] }, ceilingMu := ceilingMu
             call := .dropPersist l.next }
    else some { log := { l with occurrences := [] }, ceilingMu := none, call := .dropped }
  | .dropPersist ceiling =>
    some { log := l, ceilingMu := none, call := .dropped, persisted := some ceiling }
  | .appended _ | .dropped => none

/-- The ceiling that a call is passing to `persistFn`. -/
def LogCall.persisting : LogCall α → Option (BitVec 64)
  | .raisePersist _ ceiling | .dropPersist ceiling => some ceiling
  | _ => none

/-! ## A node over its crashes -/

/-- The process with its log, and the ceiling in the store. -/
structure LogNode (α : Type) where
  log : EventLog α
  ceilingMu : Option Nat
  calls : List (LogCall α)
  stored : Option (BitVec 64)

/-- The log of a process that starts: seeded from the store, with counter
persistence. -/
def bootLog (stored : Option (BitVec 64)) (epoch : BitVec 64) : EventLog α :=
  match stored with
  | some ceiling => (newEventLog.seedNumber ceiling).setCounterPersistence epoch
  | none => newEventLog.setCounterPersistence epoch

/-- A process that starts. -/
def LogNode.boot (stored : Option (BitVec 64)) (epoch : BitVec 64) : LogNode α :=
  { log := bootLog stored epoch, ceilingMu := none, calls := [], stored := stored }

/-- What happens to the log. -/
inductive LogEvent (α : Type)
  | appendRecord (rec : EventRecord α)
  | dropBuffered
  | seedNumber (base : BitVec 64)
  | step (i : Nat) (now : BitVec 64)
  /-- The process dies and the next one starts. Of the calls of `persistFn` that
  have not returned, that of `written` has reached the store. -/
  | crash (written : Option Nat) (epoch : BitVec 64)

/-- A call is made, or one of the calls takes its next step, or the process
dies and starts again. -/
def LogNode.step (n : LogNode α) : LogEvent α → Option (LogNode α)
  | .appendRecord rec => some { n with calls := n.calls ++ [.check rec] }
  | .dropBuffered => some { n with calls := n.calls ++ [.dropLock] }
  | .seedNumber base => some { n with log := n.log.seedNumber base }
  | .step i now => do
    let call ← n.calls[i]?
    let s ← call.step n.log n.ceilingMu i now
    pure { log := s.log, ceilingMu := s.ceilingMu, calls := n.calls.set i s.call,
           stored := s.persisted.or n.stored }
  | .crash written epoch =>
    let late := do (← n.calls[← written]?).persisting
    some (.boot (late.or n.stored) epoch)

end GF.Impl.Im
