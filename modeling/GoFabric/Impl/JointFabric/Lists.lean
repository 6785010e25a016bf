import GoFabric.Framework.System

/-!
# The binding and ACL lists of the joint fabric datastore (`cluster/jointfabric`)

Each change of the two lists that `update` runs under the lock is one step: the operations, the
commits of their pushes, and the steps of a refresh, with whatever the port answers. So are the
changes of the nodes and endpoints that the operations ask for first.
-/

namespace GF.Impl.JointFabric

open Except (ok error)

inductive State
  | pending | committed | deletePending | commitFailed
deriving DecidableEq

structure StatusEntry where
  state : State
  failureCode : BitVec 8 := 0
deriving DecidableEq

structure BindingTarget where
  node : Option (BitVec 64) := none
  group : Option (BitVec 16) := none
  endpoint : Option (BitVec 16) := none
  cluster : Option (BitVec 32) := none
deriving DecidableEq

structure EndpointBindingEntry where
  nodeId : BitVec 64
  endpointId : BitVec 16
  listId : BitVec 16
  binding : BindingTarget
  statusEntry : StatusEntry
deriving DecidableEq

structure AccessControlTarget where
  cluster : Option (BitVec 32)
  endpoint : Option (BitVec 16)
  deviceType : Option (BitVec 32)
deriving DecidableEq

/-- A null list of subjects or targets is read as an empty one. -/
structure AccessControlEntry where
  privilege : BitVec 8
  authMode : BitVec 8
  subjects : List (BitVec 64) := []
  targets : List AccessControlTarget := []
deriving DecidableEq

structure AclEntry where
  nodeID : BitVec 64
  listID : BitVec 16
  entry : AccessControlEntry
  statusEntry : StatusEntry

/-- The tables, and whether the datastore has a `DatastoreSync`. -/
structure Tables where
  sync : Bool := true
  nodes : List (BitVec 64) := []
  endpoints : List (BitVec 64 × BitVec 16) := []
  bindings : List EndpointBindingEntry := []
  acls : List AclEntry := []

inductive Err
  | noSync | constraintError | noMemory | notFound

/-- One above the highest list id, as the loops find it in 16 bits. -/
def Tables.nextListIDLocked (t : Tables) : BitVec 16 :=
  (t.bindings.map (·.listId) ++ t.acls.map (·.listID)).foldl (fun next id => if next ≤ id then id + 1 else next) 0

/-- The states whose entries a merge drops once the node no longer has them; a pushed list ends
the two others. -/
def StatusEntry.settled (s : StatusEntry) : Bool := s.state = .committed || s.state = .deletePending

/-- A failure that a retry would not cure. -/
def StatusEntry.permanent (s : StatusEntry) : Bool :=
  s.state = .commitFailed && (s.failureCode == 135 || s.failureCode == 137)

def EndpointBindingEntry.set (e : EndpointBindingEntry) (state : State) : EndpointBindingEntry :=
  { e with statusEntry := { e.statusEntry with state } }

def AclEntry.set (a : AclEntry) (state : State) : AclEntry := { a with statusEntry := { a.statusEntry with state } }

/-- The binding of the endpoint with the list id. -/
def bindingKey (nodeID : BitVec 64) (endpointID listID : BitVec 16) (e : EndpointBindingEntry) : Bool :=
  e.nodeId == nodeID && e.endpointId == endpointID && e.listId == listID

/-- A binding of the endpoint whose target matches in each of its parts. -/
def bindingMatches (nodeID : BitVec 64) (b : BitVec 16 × BindingTarget) (e : EndpointBindingEntry) : Bool :=
  e.nodeId == nodeID && e.endpointId == b.1 && e.binding == b.2

/-- The ACL entry of the node with the list id. -/
def aclKey (nodeID : BitVec 64) (listID : BitVec 16) (a : AclEntry) : Bool := a.nodeID == nodeID && a.listID == listID

namespace Tables

variable (t : Tables) (nodeID : BitVec 64) (endpointID listID : BitVec 16)

/-! ## Nodes and endpoints -/

def addPendingNodeLocked : Except Err Tables :=
  if 256 ≤ t.nodes.length then error .noMemory
  else if t.nodes.contains nodeID then error .constraintError
  else ok { t with nodes := t.nodes ++ [nodeID] }

def removeNode : Except Err Tables :=
  if t.nodes.contains nodeID then ok { t with nodes := t.nodes.erase nodeID } else error .constraintError

/-- The endpoints that a refresh fetched. -/
def refreshEndpointsLocked (ids : List (BitVec 16)) : Tables :=
  let all := ids.foldl (fun l id => if l.contains (nodeID, id) then l else l ++ [(nodeID, id)]) t.endpoints
  { t with endpoints := all.filter fun e => !(e.1 == nodeID && !ids.contains e.2) }

/-- A sync, and the node in the datastore. -/
def checkNode : Except Err Unit :=
  if !t.sync then error .noSync else if t.nodes.contains nodeID then ok () else error .constraintError

/-- A sync, and `hasEndpointLocked`. -/
def checkEndpoint : Except Err Unit :=
  if !t.sync then error .noSync else if t.endpoints.contains (nodeID, endpointID) then ok () else error .constraintError

/-! ## Bindings -/

def addBindingLocked (binding : BindingTarget) : Except Err Tables := do
  t.checkEndpoint nodeID endpointID
  if t.bindings.any (bindingMatches nodeID (endpointID, binding)) then ok t
  else if 16 ≤ t.bindings.length then error .noMemory
  else ok { t with bindings := t.bindings ++ [⟨nodeID, endpointID, t.nextListIDLocked, binding, { state := .pending }⟩] }

/-- The first entry of the key goes into the state, if there is one (`IndexFunc`, `markCommitted`). -/
def setBinding (state : State) : Tables :=
  { t with bindings := t.bindings.modify (t.bindings.findIdx (bindingKey nodeID endpointID listID)) (·.set state) }

def removeBindingLocked : Except Err Tables := do
  t.checkEndpoint nodeID endpointID
  if t.bindings.any (bindingKey nodeID endpointID listID) then ok (t.setBinding nodeID endpointID listID .deletePending)
  else error .notFound

/-- The commit of a pushed removal. -/
def eraseBinding : Tables := { t with bindings := t.bindings.filter fun e => !bindingKey nodeID endpointID listID e }

/-- One fetched binding: the endpoint that it names and its target. -/
def mergeBinding (b : BitVec 16 × BindingTarget) : Tables :=
  if t.bindings.any (bindingMatches nodeID b) then t
  else { t with bindings := t.bindings ++ [⟨nodeID, b.1, t.nextListIDLocked, b.2, { state := .committed }⟩] }

def mergeBindingsLocked (ep : BitVec 16) (bindings : List (BitVec 16 × BindingTarget)) : Tables :=
  let t := bindings.foldl (fun t b => t.mergeBinding nodeID b) t
  { t with bindings := t.bindings.filter fun e =>
      !(e.nodeId == nodeID && e.endpointId == ep && e.statusEntry.settled && !bindings.contains (e.endpointId, e.binding)) }

/-- `syncBindingsOfNode` before its push. -/
def dropFailedBindings : Tables :=
  { t with bindings := t.bindings.filter fun e => !(e.nodeId == nodeID && e.statusEntry.permanent) }

/-- An entry after the push of `list`, as the port left it. -/
def bindingPushed (list : List EndpointBindingEntry) (e : EndpointBindingEntry) : EndpointBindingEntry :=
  if e.nodeId == nodeID && !e.statusEntry.settled then
    match list.find? fun b => b.endpointId == e.endpointId && b.binding == e.binding with
    | none => e
    | some b => { e with statusEntry := if b.statusEntry.state = .commitFailed then b.statusEntry
        else { state := .committed } }
  else e

/-- `syncBindingsOfNode` after its push. -/
def bindingsPushed (list : List EndpointBindingEntry) : Tables :=
  { t with bindings := (t.bindings.map (bindingPushed nodeID list)).filter fun e =>
      !(e.nodeId == nodeID && e.statusEntry.state = .deletePending) }

/-! ## Access control -/

def addACLLocked (entry : AccessControlEntry) : Except Err Tables := do
  t.checkNode nodeID
  if t.acls.any fun a => a.nodeID == nodeID && a.entry == entry then ok t
  else if 64 ≤ t.acls.length then error .noMemory
  else ok { t with acls := t.acls ++ [⟨nodeID, t.nextListIDLocked, entry, { state := .pending }⟩] }

def setACL (state : State) : Tables :=
  { t with acls := t.acls.modify (t.acls.findIdx (aclKey nodeID listID)) (·.set state) }

def removeACLLocked : Except Err Tables := do
  t.checkNode nodeID
  if t.acls.any (aclKey nodeID listID) then ok (t.setACL nodeID listID .deletePending) else error .notFound

def eraseACL : Tables := { t with acls := t.acls.filter fun a => !aclKey nodeID listID a }

/-- What a changed CAT or permission of the group does to the entries whose subjects name it. -/
def updateGroupLocked (groupID : BitVec 16) (permission : BitVec 8) : Tables :=
  { t with acls := t.acls.map fun a =>
      if a.entry.subjects.contains (groupID.setWidth 64) then
        { a with entry := { a.entry with privilege := permission } }.set .pending
      else a }

def mergeACL (acls : List AclEntry) (a : BitVec 16 × AccessControlEntry) : List AclEntry :=
  if acls.any (aclKey nodeID a.1) then acls else acls ++ [⟨nodeID, a.1, a.2, { state := .committed }⟩]

def mergeACLsLocked (acls : List (BitVec 16 × AccessControlEntry)) : Tables :=
  { t with acls := (acls.foldl (mergeACL nodeID) t.acls).filter fun e =>
      !(e.nodeID == nodeID && e.statusEntry.settled && !acls.any (·.1 == e.listID)) }

/-- `syncACLsOfNode` before its push. -/
def dropFailedACLs : Tables :=
  { t with acls := t.acls.filter fun e => !(e.nodeID == nodeID && e.statusEntry.permanent) }

/-- `syncACLsOfNode` after its push of the entries `ids`. -/
def aclsPushed (ids : List (BitVec 16)) : Tables :=
  { t with acls := (t.acls.map fun e =>
      if e.nodeID == nodeID && !e.statusEntry.settled && ids.contains e.listID then e.set .committed else e).filter fun e =>
      !(e.nodeID == nodeID && e.statusEntry.state = .deletePending) }

end Tables

/-! ## Runs -/

inductive Event
  | addPendingNode (nodeID : BitVec 64)
  | removeNode (nodeID : BitVec 64)
  | refreshEndpoints (nodeID : BitVec 64) (ids : List (BitVec 16))
  | addBinding (nodeID : BitVec 64) (endpointID : BitVec 16) (binding : BindingTarget)
  | removeBinding (nodeID : BitVec 64) (endpointID listID : BitVec 16)
  | commitBinding (nodeID : BitVec 64) (endpointID listID : BitVec 16)
  | eraseBinding (nodeID : BitVec 64) (endpointID listID : BitVec 16)
  | mergeBindings (nodeID : BitVec 64) (ep : BitVec 16) (bindings : List (BitVec 16 × BindingTarget))
  | dropFailedBindings (nodeID : BitVec 64)
  | bindingsPushed (nodeID : BitVec 64) (list : List EndpointBindingEntry)
  | addACL (nodeID : BitVec 64) (entry : AccessControlEntry)
  | removeACL (nodeID : BitVec 64) (listID : BitVec 16)
  | commitACL (nodeID : BitVec 64) (listID : BitVec 16)
  | eraseACL (nodeID : BitVec 64) (listID : BitVec 16)
  | updateGroup (groupID : BitVec 16) (permission : BitVec 8)
  | mergeACLs (nodeID : BitVec 64) (acls : List (BitVec 16 × AccessControlEntry))
  | dropFailedACLs (nodeID : BitVec 64)
  | aclsPushed (nodeID : BitVec 64) (ids : List (BitVec 16))
  /-- The removal of the anchor fabric. -/
  | wipe

/-- The tables after a step; an operation that fails leaves them. -/
def Tables.after (t : Tables) : Event → Tables
  | .addPendingNode n => (t.addPendingNodeLocked n).toOption.getD t
  | .removeNode n => (t.removeNode n).toOption.getD t
  | .refreshEndpoints n ids => t.refreshEndpointsLocked n ids
  | .addBinding n ep b => (t.addBindingLocked n ep b).toOption.getD t
  | .removeBinding n ep id => (t.removeBindingLocked n ep id).toOption.getD t
  | .commitBinding n ep id => t.setBinding n ep id .committed
  | .eraseBinding n ep id => t.eraseBinding n ep id
  | .mergeBindings n ep bindings => t.mergeBindingsLocked n ep bindings
  | .dropFailedBindings n => t.dropFailedBindings n
  | .bindingsPushed n list => t.bindingsPushed n list
  | .addACL n entry => (t.addACLLocked n entry).toOption.getD t
  | .removeACL n id => (t.removeACLLocked n id).toOption.getD t
  | .commitACL n id => t.setACL n id .committed
  | .eraseACL n id => t.eraseACL n id
  | .updateGroup groupID permission => t.updateGroupLocked groupID permission
  | .mergeACLs n acls => t.mergeACLsLocked n acls
  | .dropFailedACLs n => t.dropFailedACLs n
  | .aclsPushed n ids => t.aclsPushed n ids
  | .wipe => { sync := t.sync }

end GF.Impl.JointFabric
