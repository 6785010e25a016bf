import GoFabric.Impl.Im.Wire

/-!
# Writing attributes (`im/write.go`)

`HandleWriteRequest` for the messages of one write interaction. A dispatcher
is any code: every call to it may change the world, which holds its own
state and the table of held attributes that all interactions share. The calls
that matter to authorization are logged in the order they are made.
-/

namespace GF.Impl.Im

open Wire

structure WriteResult where
  path : ConcreteAttributePath
  status : StatusCode
  clusterStatus : BitVec 8
  hasClusterStatus : Bool

structure AttributeStatus where
  path : ConcreteAttributePath
  status : StatusIB

structure WriteHoldKey where
  endpoint : BitVec 16
  cluster : BitVec 32
  attributeID : BitVec 32
deriving DecidableEq

/-- The key of the attribute that a path names. -/
def ConcreteAttributePath.holdKey (p : ConcreteAttributePath) : WriteHoldKey :=
  { endpoint := p.endpoint, cluster := p.cluster, attributeID := p.attributeID }

/-- `WriteHolds`: which transaction holds an attribute. -/
abbrev WriteHolds := WriteHoldKey → Option Nat

/-- What a dispatcher call may change. -/
structure World (σ : Type) where
  state : σ
  holds : WriteHolds

/-- A run of `WriteAuthorized`: it ends with its results, or asks its
`authorize` argument about a location and goes on with the answer, each time
in some world. -/
inductive AuthorizedWrite (σ : Type)
  | done (results : List WriteResult) (w : World σ)
  | ask (w : World σ) (endpoint : BitVec 16) (cluster attributeID : BitVec 32)
      (next : StatusCode → World σ → AuthorizedWrite σ)

/-- What `HandleWriteRequest` uses of a dispatcher; an interface it does not
implement is `none`. -/
structure WriteDispatcher (σ O : Type) where
  read : ConcreteAttributePath → World σ → List (ReadResult O) × World σ
  write : ConcreteAttributePath → AttributeValue O → World σ → List WriteResult × World σ
  checkACL : Option (BitVec 8 → BitVec 64 → List (BitVec 32) → BitVec 16 → BitVec 32 → BitVec 8 → World σ →
    StatusCode × World σ)
  minWritePrivilege : Option (BitVec 16 → BitVec 32 → BitVec 32 → World σ → BitVec 8 × World σ)
  writeAuthorized : Option (ConcreteAttributePath → AttributeValue O → World σ → AuthorizedWrite σ)
  currentDataVersion : Option (BitVec 16 → BitVec 32 → World σ → Option (BitVec 32) × World σ)

/-- The request's context: its subject, whether it runs in a timed interaction
(if that is known), and the schema's answers on writability and timed
writes. -/
structure WriteContext where
  subject : Subject
  timed : Option Bool
  attributeWritable : BitVec 32 → BitVec 32 → Option Bool
  isTimedWrite : BitVec 32 → BitVec 32 → Bool

/-- A call on the dispatcher, with its answer. -/
inductive WriteEvent
  | minWritePrivilege (endpoint : BitVec 16) (cluster attributeID : BitVec 32) (privilege : BitVec 8)
  | checkACL (endpoint : BitVec 16) (cluster : BitVec 32) (privilege : BitVec 8) (status : StatusCode)
  | write (path : ConcreteAttributePath) (results : List WriteResult)
  | writeAuthorized (path : ConcreteAttributePath) (results : List WriteResult)

/-- `WriteTransaction`; `usesHolds` when it takes part in holds. -/
structure WriteTransaction where
  id : Nat
  lastWritten : Option ConcreteAttributePath
  usesHolds : Bool
  held : List WriteHoldKey
  lastQueued : Option WriteHoldKey

/-- `NewWriteTransaction`, or the zero value without holds. -/
def newWriteTransaction (id : Nat) (usesHolds : Bool) : WriteTransaction :=
  { id := id, lastWritten := none, usesHolds := usesHolds, held := [], lastQueued := none }

/-- Where the handling of a message stands: the world, the transaction, the
local `lastWritten`, the answers and the calls so far. -/
structure WriteState (σ : Type) where
  world : World σ
  tx : WriteTransaction
  lastWritten : Option ConcreteAttributePath
  responses : List AttributeStatus
  log : List WriteEvent

variable {σ O : Type}

namespace WriteState

variable (s : WriteState σ) (ctx : WriteContext) (d : WriteDispatcher σ O)

def respond (p : ConcreteAttributePath) (status : StatusCode) : WriteState σ :=
  { s with responses := s.responses ++ [{ path := p, status := StatusIB.of status }] }

def heldByOther (k : WriteHoldKey) : Bool :=
  s.tx.usesHolds && match s.world.holds k with
    | some holder => holder != s.tx.id
    | none => false

def hold (k : WriteHoldKey) (more : Bool) : WriteState σ :=
  if !s.tx.usesHolds then s
  else if !more ∧ s.tx.held.length = 0 then s
  else
    { s with
      tx := { s.tx with held := if k ∈ s.tx.held then s.tx.held else s.tx.held ++ [k] }
      world := { s.world with holds := fun k' => if k' = k then some s.tx.id else s.world.holds k' } }

def holdUnlessBusy (p : ConcreteAttributePath) (more : Bool) : Bool × WriteState σ :=
  if s.heldByOther p.holdKey then (false, s)
  else
    let s := s.hold p.holdKey more
    (true, { s with tx := { s.tx with lastQueued := some p.holdKey } })

def releaseHolds (keep : Option WriteHoldKey) : WriteState σ :=
  if !s.tx.usesHolds then s
  else
    let released := s.tx.held.filter fun k => keep != some k
    { s with
      tx := { s.tx with held := s.tx.held.filter fun k => keep == some k }
      world := { s.world with
        holds := fun k => if k ∈ released ∧ s.world.holds k = some s.tx.id then none else s.world.holds k } }

/-- `writePrivilege`, inside `HandleWriteRequest`. -/
def writePrivilege (endpoint : BitVec 16) (cluster attributeID : BitVec 32) : BitVec 8 × WriteState σ :=
  match d.minWritePrivilege with
  | some minWritePrivilege =>
    let (privilege, w) := minWritePrivilege endpoint cluster attributeID s.world
    (privilege, { s with world := w, log := s.log ++ [.minWritePrivilege endpoint cluster attributeID privilege] })
  | none => (3, s)

/-- The ACL check of a location: `writePrivilege`, then `checkSubjectACL`. -/
def checkLocation (endpoint : BitVec 16) (cluster attributeID : BitVec 32) : StatusCode × WriteState σ :=
  match d.checkACL with
  | none => (.success, s)
  | some checkACL =>
    let (privilege, s) := s.writePrivilege d endpoint cluster attributeID
    if ctx.subject.fabricIndex = 0 then (.unsupportedAccess, s)
    else
      let (status, w) :=
        checkACL ctx.subject.fabricIndex ctx.subject.nodeID ctx.subject.cats endpoint cluster privilege s.world
      (status, { s with world := w, log := s.log ++ [.checkACL endpoint cluster privilege status] })

/-- `authorizeWildcard`, inside `HandleWriteRequest`. -/
def authorizeWildcard (endpoint : BitVec 16) (cluster attributeID : BitVec 32) : StatusCode × WriteState σ :=
  if s.heldByOther { endpoint := endpoint, cluster := cluster, attributeID := attributeID } then
    (.busy, s)
  else if ctx.subject.pase then (.success, s)
  else s.checkLocation ctx d endpoint cluster attributeID

/-- A run of `WriteAuthorized` with `authorizeWildcard`. -/
def runAuthorized : WriteState σ → AuthorizedWrite σ → List WriteResult × WriteState σ
  | s, .done results w => (results, { s with world := w })
  | s, .ask w endpoint cluster attributeID next =>
    let (status, s') := { s with world := w }.authorizeWildcard ctx d endpoint cluster attributeID
    runAuthorized s' (next status s'.world)

/-- The answers that `HandleWriteRequest` makes of the results of a write. -/
def respondResults (results : List WriteResult) : WriteState σ :=
  { s with responses := s.responses ++ results.map fun res =>
      { path := res.path
        status :=
          { status := if res.hasClusterStatus ∧ res.status ≠ .success then .failure
              else res.status
            clusterStatus := res.clusterStatus, hasClusterStatus := res.hasClusterStatus } } }

/-- `Dispatcher.Write`, logged. -/
def callWrite (w : AttributeWrite O) : List WriteResult × WriteState σ :=
  let (results, world) := d.write w.path w.value s.world
  (results, { s with world := world, log := s.log ++ [.write w.path results] })

end WriteState

variable (ctx : WriteContext)

def allSucceeded (results : List WriteResult) : Bool := results.all fun r => r.status == .success

def versionCheckApplies (d : WriteDispatcher σ O) (p : ConcreteAttributePath) (w : World σ) : Bool × World σ :=
  if ctx.attributeWritable p.cluster p.attributeID = some false then (false, w)
  else if ctx.timed = some false ∧ ctx.isTimedWrite p.cluster p.attributeID then (false, w)
  else
    let (results, w) := d.read p w
    (results.all fun r => r.status != .unsupportedEndpoint && r.status != .unsupportedCluster &&
      r.status != .unsupportedAttribute, w)

/-- The data version check of a write: whether it is answered
`DataVersionMismatch`. -/
def versionMismatch (d : WriteDispatcher σ O) (w : AttributeWrite O) (world : World σ) : Bool × World σ :=
  match d.currentDataVersion with
  | none => (false, world)
  | some currentDataVersion =>
    if w.hasDataVersion ∧ w.dataVersion ≠ 0 ∧ w.path.hasEndpoint then
      match currentDataVersion w.path.endpoint w.path.cluster world with
      | (some current, world) =>
        if current ≠ 0 ∧ current ≠ w.dataVersion then versionCheckApplies ctx d w.path world
        else (false, world)
      | (none, world) => (false, world)
    else (false, world)

/-- The dispatch of a write that passed its checks, with what it leaves in
`lastWritten`. -/
def WriteState.dispatch (d : WriteDispatcher σ O) (s : WriteState σ) (w : AttributeWrite O) : WriteState σ :=
  if w.path.hasEndpoint then
    let (results, s) := s.callWrite d w
    let lastWritten := if results.length > 0 ∧ allSucceeded results then some w.path else none
    { s with lastWritten := lastWritten }.respondResults results
  else
    match d.writeAuthorized with
    | some writeAuthorized =>
      let (results, s) := s.runAuthorized ctx d (writeAuthorized w.path w.value s.world)
      { s with lastWritten := none, log := s.log ++ [WriteEvent.writeAuthorized w.path results] }.respondResults results
    | none =>
      if d.checkACL.isNone ∨ ctx.subject.pase then
        let (results, s) := s.callWrite d w
        { s with lastWritten := none }.respondResults results
      else s.respond w.path .unsupportedAccess

/-- A round of the loop from the data version check on. -/
def WriteState.versionedWrite (d : WriteDispatcher σ O) (s : WriteState σ) (w : AttributeWrite O) : WriteState σ :=
  let version := versionMismatch ctx d w s.world
  let s := { s with world := version.2 }
  if version.1 then s.respond w.path .dataVersionMismatch else s.dispatch ctx d w

/-- A round of the loop from the ACL gate on: an attribute that was written
last is not checked again. -/
def WriteState.gatedWrite (d : WriteDispatcher σ O) (s : WriteState σ) (w : AttributeWrite O) : WriteState σ :=
  let sameAsLast : Bool := w.path.hasEndpoint && s.lastWritten.any fun last => last.holdKey == w.path.holdKey
  let s := if sameAsLast then s else { s with lastWritten := none }
  let gate :=
    if !ctx.subject.pase ∧ w.path.hasEndpoint ∧ !sameAsLast then
      s.checkLocation ctx d w.path.endpoint w.path.cluster w.path.attributeID
    else (.success, s)
  if !gate.1.isSuccess then gate.2.respond w.path gate.1 else gate.2.versionedWrite ctx d w

/-- One round of the loop of `HandleWriteRequest`. -/
def handleWrite (d : WriteDispatcher σ O) (more : Bool) (s : WriteState σ) (w : AttributeWrite O) : WriteState σ :=
  if !w.path.hasCluster ∨ !w.path.hasAttribute then s.respond w.path .invalidAction
  else
    let accepted := if w.path.hasEndpoint then s.holdUnlessBusy w.path more else (true, s)
    if !accepted.1 then accepted.2.respond w.path .busy else accepted.2.gatedWrite ctx d w

/-- `HandleWriteRequest`, from the world and the transaction the message
finds; the log goes on from the messages before it. -/
def handleWriteRequest (d : WriteDispatcher σ O) (world : World σ) (tx : WriteTransaction)
    (log : List WriteEvent) (req : WriteRequest O) : WriteState σ :=
  let s : WriteState σ :=
    { world := world, tx := tx, lastWritten := tx.lastWritten, responses := [], log := log }
  let s := req.writes.foldl (handleWrite ctx d req.moreChunkedMessages) s
  let s := s.releaseHolds (if req.moreChunkedMessages then s.tx.lastQueued else none)
  { s with tx := { s.tx with lastWritten := s.lastWritten } }

/-- The messages of one interaction, in order. Before each of them the world
may change in any way: the state, the holds of others. -/
def runInteraction (ctx : WriteContext) (d : WriteDispatcher σ O) :
    World σ → WriteTransaction → List WriteEvent → List ((World σ → World σ) × WriteRequest O) → List WriteEvent
  | _, _, log, [] => log
  | world, tx, log, (env, req) :: msgs =>
    let s := handleWriteRequest ctx d (env world) tx log req
    runInteraction ctx d s.world s.tx s.log msgs

end GF.Impl.Im
