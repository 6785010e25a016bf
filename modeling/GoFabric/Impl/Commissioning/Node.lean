import GoFabric.Framework.System
import GoFabric.Impl.Commissioning.FailSafe

/-!
# Commissioning attempts, one critical section at a time

A node is its two clusters, its store and the calls that are under way. A call
takes one step for each critical section and one for what it does to the store
between two of them. Beside the node stands what the attempts were: a fail-safe
context is opened by an arm from the disarmed state, and it is completed or
abandoned; the contexts are numbered, and so are the fabrics that `AddNOC`
installs. No step of the code reads any of that.
-/

namespace GF.Impl.Commissioning

/-- `AddNOCRequest`, with its session, and whether its certificates are good. -/
structure AddNOCRequest where
  accessing : FabricIndex
  sessionID : BitVec 16
  noc : List Byte
  icac : List Byte
  ipk : List Byte
  nodeID : BitVec 64
  caseAdminSubject : BitVec 64
  valid : Bool

/-- `UpdateNOCRequest`, with its session, and whether its certificates are
good. -/
structure UpdateNOCRequest where
  sessionFabric : FabricIndex
  noc : List Byte
  icac : List Byte
  nodeID : BitVec 64
  valid : Bool

/-- The identity that `AddNOC` installs. -/
def AddNOCRequest.identity (req : AddNOCRequest) (priv : List Byte) : IdentityRecord :=
  { noc := req.noc, icac := req.icac, privateKey := priv, ipk := req.ipk }

/-- The identity that `UpdateNOC` installs in place of `existing`. -/
def UpdateNOCRequest.identity (req : UpdateNOCRequest) (priv : List Byte) (existing : IdentityRecord) : IdentityRecord :=
  { noc := req.noc, icac := req.icac, privateKey := priv, ipk := existing.ipk }

/-! ## Calls -/

/-- What a call does next. `context` is the fail-safe context that a call of
`OperationalCredentials` found in force. -/
inductive Call
  -- GeneralCommissioning
  | armFailSafe (sessFabric : FabricIndex) (expiry : BitVec 16) (breadcrumb : BitVec 64) (windowOpen : Bool)
  | armFailSafeFor (seconds : BitVec 32) (fabricIndex : FabricIndex)
  | autoArm
  | expireFailSafe
  | commissioningComplete (sessFabric : FabricIndex) (pase : Bool) (terms : CommissioningError) (committed : Bool)
  | watching (expiresAt : Int)
  -- the callbacks
  | failSafeArmed
  | commissioned
  | failSafeExpired
  | restoring (context : Nat) (update : Option NocUpdateRevert) (install : FabricIndex)
  | removing (install : FabricIndex)
  | notifying (install : FabricIndex)
  -- AddNOC
  | addNOC (req : AddNOCRequest)
  | addNOCArmed (req : AddNOCRequest) (nocInvoked : Bool)
  | addNOCPending (context : Nat) (req : AddNOCRequest)
  | addNOCAdd (context : Nat) (req : AddNOCRequest) (priv : List Byte)
  | addNOCRecord (context : Nat) (req : AddNOCRequest) (priv : List Byte) (idx : FabricIndex)
  | addNOCIdentity (context : Nat) (req : AddNOCRequest) (priv : List Byte) (idx : FabricIndex)
  | addNOCDone (idx : FabricIndex)
  | addNOCRearm (idx : FabricIndex)
  -- UpdateNOC
  | updateNOC (req : UpdateNOCRequest)
  | updateNOCArmed (req : UpdateNOCRequest) (priv : Option (List Byte)) (forUpdate nocInvoked rootSet : Bool)
  | updateNOCFabric (context : Nat) (req : UpdateNOCRequest) (priv : List Byte)
  | updateNOCCurrent (context : Nat) (req : UpdateNOCRequest) (priv : List Byte)
  | updateNOCRead (context : Nat) (req : UpdateNOCRequest) (priv : List Byte) (idx : FabricIndex)
  | updateNOCPending (context : Nat) (req : UpdateNOCRequest) (priv : List Byte) (r : NocUpdateRevert)
  | updateNOCRecord (context : Nat) (req : UpdateNOCRequest) (priv : List Byte) (r : NocUpdateRevert)
  | updateNOCWrite (context : Nat) (req : UpdateNOCRequest) (priv : List Byte) (r : NocUpdateRevert)
  | updateNOCDone
  | returned

/-- A callback, as a call of its own. -/
def Call.ofCallback : Callback → Call
  | .failSafeArmed => .failSafeArmed
  | .failSafeExpired => .failSafeExpired
  | .commissioned => .commissioned
  | .watch expiresAt => .watching expiresAt

/-! ## The node -/

/-- How a fail-safe context ended. -/
inductive Outcome
  | completed
  | abandoned
deriving DecidableEq

/-- An identity of an installed fabric, that was replaced in a context or put
back because of it. -/
structure Identified where
  context : Nat
  install : Nat
  identity : IdentityRecord
deriving DecidableEq

structure Node where
  g : GeneralCommissioning
  o : OperationalCredentials
  store : Store
  now : Int
  calls : List Call
  /-- How the contexts ended, in order; the next one, if the fail-safe is armed,
  is the one in force. -/
  outcomes : List Outcome := []
  /-- The context of each fabric that was installed. -/
  installs : List Nat := []
  /-- Which of the installs the fabric of an index is. -/
  installOf : FabricIndex → Nat := fun _ => 0
  /-- The installs that were removed again. -/
  removed : List Nat := []
  /-- The context of `pendingUpdateRevert`. -/
  revertContext : Nat := 0
  /-- The identities that `UpdateNOC` replaced, the first one of each context. -/
  replaced : List Identified := []
  /-- The identities that were put back. -/
  restored : List Identified := []

/-- What the next step of a call makes of the node, what the call does after it,
and the callbacks that it starts. -/
structure Step where
  node : Node
  next : Call := .returned
  callbacks : List Callback := []

namespace Node

/-- The context in force, if the fail-safe is armed. -/
def context (n : Node) : Nat := n.outcomes.length

/-- The context is in force. -/
def Open (n : Node) (context : Nat) : Prop := n.g.failSafeArmed = true ∧ context = n.context
deriving Decidable

/-- The node whose context in force, if there is one, ends. -/
def ended (n : Node) (outcome : Outcome) : Node :=
  if n.g.failSafeArmed then { n with outcomes := n.outcomes ++ [outcome] } else n

/-- The next step of a call; `idx` is the index that the store gives to a new
fabric. -/
def next (n : Node) (idx : FabricIndex) : Call → Option Step
  | .armFailSafe sessFabric expiry breadcrumb windowOpen =>
    let r := n.g.armFailSafe n.now sessFabric expiry breadcrumb windowOpen
    some { node := { (if r.2.1.failSafeArmed then n else n.ended .abandoned) with g := r.2.1 }, callbacks := r.2.2 }
  | .armFailSafeFor seconds fabricIndex =>
    let r := n.g.armFailSafeFor n.now seconds fabricIndex
    some { node := { (if n.g.inForce n.now ∧ seconds ≠ 0 then n else n.ended .abandoned) with g := r.1 }
           callbacks := r.2 }
  | .autoArm =>
    if n.g.inForce n.now then some { node := n }
    else some { node := n, next := .armFailSafeFor GeneralCommissioning.paseSessionAutoArmSeconds 0 }
  | .expireFailSafe =>
    let r := n.g.expireFailSafe
    some { node := { n.ended .abandoned with g := r.1 }, callbacks := r.2 }
  | .commissioningComplete sessFabric pase terms committed =>
    let r := n.g.commissioningComplete sessFabric pase terms committed
    some { node := { (if r.2.1.failSafeArmed then n else n.ended .completed) with g := r.2.1 }, callbacks := r.2.2 }
  | .watching expiresAt =>
    if n.now < expiresAt then none
    else
      let r := n.g.watchFailSafeExpiry n.now
      some { node := { (if r.1.failSafeArmed then n else n.ended .abandoned) with g := r.1 }, callbacks := r.2 }
  | .failSafeArmed | .commissioned => some { node := { n with o := n.o.clearPendingState } }
  | .failSafeExpired =>
    let r := n.o.onFailSafeExpiry
    some { node := { n with o := r.2.2 }, next := .restoring n.revertContext r.2.1 r.1 }
  | .restoring context update install =>
    some
      { node :=
          match update with
          | none => n
          | some r =>
            { n with
              store := revertUpdateNOC n.store r
              restored :=
                if (n.store r.fabricIndex).isSome then
                  n.restored ++ [{ context := context, install := n.installOf r.fabricIndex, identity := r.identity }]
                else n.restored }
        next := if install = 0 then .returned else .removing install }
  | .removing install =>
    some
      { node :=
          { n with
            store := revertAddNOC n.store install
            removed := if (n.store install).isSome then n.removed ++ [n.installOf install] else n.removed }
        next := .notifying install }
  | .notifying install => some { node := { n with o := n.o.notifyFabricRemoved install } }
  | .addNOC req => some { node := n, next := .addNOCArmed req n.o.nocWasInvoked }
  | .addNOCArmed req nocInvoked =>
    if !n.g.failSafeArmedFor n.now req.accessing ∨ nocInvoked then some { node := n }
    else some { node := n, next := .addNOCPending n.context req }
  | .addNOCPending context req =>
    match n.o.pendingPrivKey, n.o.pendingTrustRoot with
    | some priv, some _ =>
      if (n.o.pendingCSRSessionID ≠ 0 ∧ req.sessionID ≠ n.o.pendingCSRSessionID) ∨ n.o.pendingCSRForUpdate ∨ !req.valid
      then some { node := n }
      else some { node := n, next := .addNOCAdd context req priv }
    | _, _ => some { node := n }
  | .addNOCAdd context req priv =>
    if idx = 0 ∨ idx = 255 ∨ (n.store idx).isSome then none
    else
      some
        { node :=
            { n with
              store := n.store.put idx (some { nodeID := req.nodeID })
              installs := n.installs ++ [context]
              installOf := fun i => if i = idx then n.installs.length else n.installOf i }
          next := .addNOCRecord context req priv idx }
  | .addNOCRecord context req priv idx =>
    some { node := { n with o := { n.o with pendingInstallFabricIndex := idx } }
           next := .addNOCIdentity context req priv idx }
  | .addNOCIdentity _ req priv idx =>
    match n.store.upsertIdentity idx (req.identity priv) with
    | none => some { node := { n with store := revertAddNOC n.store idx } }
    | some store =>
      some
        { node :=
            { n with
              store := store.put idx ((store idx).map fun row => { row with adminSubject := some req.caseAdminSubject }) }
          next := .addNOCDone idx }
  | .addNOCDone idx => some { node := { n with o := n.o.nocAdded idx }, next := .addNOCRearm idx }
  | .addNOCRearm idx => some { node := { n with g := n.g.setCurrentFabric idx } }
  | .updateNOC req =>
    some { node := n, next := .updateNOCArmed req n.o.pendingPrivKey n.o.pendingCSRForUpdate n.o.nocWasInvoked
             n.o.pendingTrustRoot.isSome }
  | .updateNOCArmed req priv forUpdate nocInvoked rootSet =>
    match priv with
    | none => some { node := n }
    | some priv =>
      if !(n.g.failSafeFabric n.now).2 ∨ nocInvoked ∨ !forUpdate ∨ rootSet then some { node := n }
      else some { node := n, next := .updateNOCFabric n.context req priv }
  | .updateNOCFabric context req priv =>
    if (n.g.failSafeFabric n.now).1 ≠ req.sessionFabric then some { node := n }
    else if req.sessionFabric = 0 then some { node := n, next := .updateNOCCurrent context req priv }
    else some { node := n, next := .updateNOCRead context req priv req.sessionFabric }
  | .updateNOCCurrent context req priv =>
    if n.o.currentFabric = 0 then some { node := n }
    else some { node := n, next := .updateNOCRead context req priv n.o.currentFabric }
  | .updateNOCRead context req priv idx =>
    match n.store idx with
    | none => some { node := n }
    | some row =>
      match row.identity with
      | none => some { node := n }
      | some existing =>
        if !req.valid then some { node := n }
        else
          some { node := n
                 next := .updateNOCPending context req priv
                   { fabricIndex := idx, identity := existing, nodeID := row.nodeID } }
  | .updateNOCPending context req priv r =>
    if n.o.pendingUpdateRevert.isNone then some { node := n, next := .updateNOCRecord context req priv r }
    else some { node := n, next := .updateNOCWrite context req priv r }
  | .updateNOCRecord context req priv r =>
    some
      { node :=
          if n.o.pendingUpdateRevert.isNone then
            { n with o := { n.o with pendingUpdateRevert := some r }, revertContext := context }
          else n
        next := .updateNOCWrite context req priv r }
  | .updateNOCWrite context req priv r =>
    match n.store r.fabricIndex with
    | none => some { node := n }
    | some row =>
      some
        { node :=
            { n with
              store := n.store.put r.fabricIndex
                (some { row with identity := some (req.identity priv r.identity), nodeID := req.nodeID })
              replaced :=
                if n.replaced.any (fun e => e.context == context && e.install == n.installOf r.fabricIndex) then
                  n.replaced
                else n.replaced ++ (row.identity.map fun identity =>
                  { context := context, install := n.installOf r.fabricIndex, identity := identity }).toList }
          next := .updateNOCDone }
  | .updateNOCDone => some { node := { n with o := n.o.nocUpdated } }
  | .returned => none

end Node

/-! ## Runs -/

/-- What happens to a node. -/
inductive Event
  /-- A command or a host's call arrives. -/
  | call (c : Call)
  /-- Call `i` takes its next step. -/
  | step (i : Nat) (idx : FabricIndex)
  /-- The context of a watcher is cancelled. -/
  | cancel (i : Nat)
  /-- Time passes. -/
  | tick (now : Int)
  /-- `CSRRequest` stores its key. -/
  | csrRequest (priv : List Byte) (sessionID : BitVec 16) (forUpdate : Bool)
  /-- `AddTrustedRootCertificate` stores its root. -/
  | addTrustedRootCertificate (root : List Byte)
  /-- The dispatcher stamps the fabric of a request. -/
  | setCurrentFabric (idx : FabricIndex)

/-- The calls that others make: the rest are made by the calls themselves. -/
def Call.Arrives : Call → Bool
  | .armFailSafe .. | .armFailSafeFor .. | .autoArm | .expireFailSafe | .commissioningComplete .. | .addNOC _
  | .updateNOC _ => true
  | _ => false

/-- The node after the step of call `i`. -/
def Node.stepped (i : Nat) (s : Step) : Node :=
  { s.node with calls := s.node.calls.set i s.next ++ s.callbacks.map Call.ofCallback }

/-- One event. -/
def Node.step (n : Node) : Event → Option Node
  | .call c => if c.Arrives then some { n with calls := n.calls ++ [c] } else none
  | .step i idx => do
    let c ← n.calls[i]?
    let s ← n.next idx c
    pure (Node.stepped i s)
  | .cancel i => do
    match ← n.calls[i]? with
    | .watching _ => some { n with calls := n.calls.set i .returned }
    | _ => none
  | .tick now => if n.now ≤ now then some { n with now := now } else none
  | .csrRequest priv sessionID forUpdate => some { n with o := n.o.csrRequest priv sessionID forUpdate }
  | .addTrustedRootCertificate root => some { n with o := n.o.addTrustedRootCertificate root }
  | .setCurrentFabric idx => some { n with o := { n.o with currentFabric := idx } }

/-- A commissionable node and the events at it. -/
def commissioning : System Node Event := { step := Node.step }

/-- A node that starts with the fabrics of its store. They count as installed in
a completed context, the one of number 0. -/
def Node.start (cumulativeFailSafeMaxSec : BitVec 16) (store : Store) (now : Int) : Node :=
  { g :=
      { breadcrumb := 0, failSafeArmed := false, failSafeExpiresAt := 0, failSafeFabricIndex := 0
        failSafeCumulativeStarted := false, failSafeCumulativeDeadline := 0
        cumulativeFailSafeMaxSec := cumulativeFailSafeMaxSec }
    o := {}, store := store, now := now, calls := [], outcomes := [.completed], installs := List.replicate 256 0
    installOf := BitVec.toNat }

end GF.Impl.Commissioning
