import GoFabric.Impl.Endpoint.Types
import GoFabric.Impl.Im.Status

/-!
# The access control check (`endpoint/dispatcher.go`, `store/acl.go`)

`CheckACL` with its subject, target and group rules. The stored entries, the
auxiliary entries and the Auxiliary feature bit of the root's AccessControl
server are what the dispatcher reads; a source that cannot be read is `none`.
-/

namespace GF.Impl.Endpoints

open GF.Impl.Im (StatusCode)

/-- `Privilege`, a byte with five named values. -/
abbrev Privilege := BitVec 8

namespace Privilege

def view : Privilege := 1
def proxyView : Privilege := 2
def operate : Privilege := 3
def manage : Privilege := 4
def administer : Privilege := 5

end Privilege

/-- `AuthMode`, a byte with three named values. -/
abbrev AuthMode := BitVec 8

namespace AuthMode

def pase : AuthMode := 1
def case : AuthMode := 2
def group : AuthMode := 3

end AuthMode

/-- `ACLTarget`: a field that is absent matches anything. -/
structure ACLTarget where
  cluster : Option (BitVec 32)
  endpoint : Option (BitVec 16)
  deviceType : Option (BitVec 32)
deriving DecidableEq

structure ACLEntry where
  id : Nat := 0
  fabricIndex : BitVec 8 := 0
  privilege : Privilege
  authMode : AuthMode
  subjects : List (BitVec 64) := []
  targets : List ACLTarget := []
  position : BitVec 16 := 0

def kMinCASEAuthTag : BitVec 64 := 0xFFFFFFFD00000000
def kMaxCASEAuthTag : BitVec 64 := 0xFFFFFFFDFFFFFFFF
def kMaskCASEAuthTag : BitVec 64 := 0x00000000FFFFFFFF
def kCATIdentifierMask : BitVec 32 := 0xFFFF0000
def kCATVersionMask : BitVec 32 := 0x0000FFFF

def isCASEAuthTagSubject (s : BitVec 64) : Bool := decide (kMinCASEAuthTag ≤ s) && decide (s ≤ kMaxCASEAuthTag)

/-- The identifier of a CAT, as `matchesCATSubject` unpacks it. -/
def catID (cat : BitVec 32) : BitVec 16 := (((cat &&& kCATIdentifierMask) >>> 16) &&& 0xFFFF#32).setWidth 16

/-- The version of a CAT. -/
def catVersion (cat : BitVec 32) : BitVec 16 := ((cat &&& kCATVersionMask) &&& 0xFFFF#32).setWidth 16

def matchesCATSubject (entryCAT : BitVec 32) : List (BitVec 32) → Bool
  | [] => false
  | sub :: subs =>
    if sub = 0 then matchesCATSubject entryCAT subs
    else if catID sub ≠ catID entryCAT then matchesCATSubject entryCAT subs
    else if catVersion sub = 0 then matchesCATSubject entryCAT subs
    else if catVersion entryCAT ≤ catVersion sub then true
    else matchesCATSubject entryCAT subs

/-- The loop of `aclSubjectMatches`. -/
def subjectListed (subjectNodeID : BitVec 64) (subjectCATs : List (BitVec 32)) : List (BitVec 64) → Bool
  | [] => false
  | s :: ss =>
    if isCASEAuthTagSubject s then
      if matchesCATSubject ((s &&& kMaskCASEAuthTag).setWidth 32) subjectCATs then true
      else subjectListed subjectNodeID subjectCATs ss
    else if subjectNodeID ≠ 0 ∧ s = subjectNodeID then true
    else subjectListed subjectNodeID subjectCATs ss

def aclSubjectMatches (subjects : List (BitVec 64)) (subjectNodeID : BitVec 64)
    (subjectCATs : List (BitVec 32)) : Bool :=
  if subjects.length = 0 then true else subjectListed subjectNodeID subjectCATs subjects

def endpointHasDeviceType (ep : Option Endpoint) (deviceType : BitVec 32) : Bool :=
  match ep with
  | none => false
  | some ep =>
    if ep.isRoot then deviceType == deviceTypeRootNode
    else if ep.isAggregator then deviceType == deviceTypeAggregator
    else if ep.part then deviceType == ep.deviceType.setWidth 32
    else deviceType == ep.deviceType.setWidth 32 || deviceType == matterDeviceTypeBridgedNode

/-- The loop of `aclTargetMatches`. -/
def targetListed (ep : Option Endpoint) (endpoint : BitVec 16) (clusterID : BitVec 32) :
    List ACLTarget → Bool
  | [] => false
  | t :: ts =>
    if t.cluster.any (· != clusterID) then targetListed ep endpoint clusterID ts
    else if t.endpoint.any (· != endpoint) then targetListed ep endpoint clusterID ts
    else if t.deviceType.any (!endpointHasDeviceType ep ·) then targetListed ep endpoint clusterID ts
    else true

def aclTargetMatches (targets : List ACLTarget) (ep : Option Endpoint) (endpoint : BitVec 16)
    (clusterID : BitVec 32) : Bool :=
  if targets.length = 0 then true else targetListed ep endpoint clusterID targets

def privilegeRank (p : Privilege) : Nat :=
  if p = Privilege.administer then 4
  else if p = Privilege.manage then 3
  else if p = Privilege.operate then 2
  else if p = Privilege.view ∨ p = Privilege.proxyView then 1
  else 0

/-- `GroupSubject`, as far as the check reads it. -/
structure GroupSubject where
  groupID : BitVec 16
  hasValidMapping : Bool

def checkGroupACL (entries : List ACLEntry) (group : GroupSubject) (ep : Option Endpoint)
    (endpoint : BitVec 16) (clusterID : BitVec 32) (requiredPrivilege : Privilege) (auxEnabled : Bool) :
    StatusCode :=
  if !group.hasValidMapping then .unsupportedAccess
  else
    let best := entries.foldl (fun best e =>
      if e.authMode ≠ AuthMode.group then best
      else if e.subjects.length > 0 ∧ group.groupID.setWidth 64 ∉ e.subjects then best
      else if auxEnabled ∧ e.targets.length = 0 ∧ endpoint = 0 then best
      else if !aclTargetMatches e.targets ep endpoint clusterID then best
      else if e.privilege > best then e.privilege
      else best) (0 : Privilege)
    if best = Privilege.administer then .unsupportedAccess
    else if privilegeRank best ≥ privilegeRank requiredPrivilege then .success
    else .unsupportedAccess

/-- What the check reads from the request's context. -/
structure AclContext where
  isPASE : Bool
  groupSubject : Option GroupSubject

def fabricIndexUnresolvable : BitVec 8 := 255

/-- `TopologyDispatcher`, as far as the check reads it. -/
structure AclDispatcher where
  acl : Option (BitVec 8 → Option (List ACLEntry))
  aux : Option (BitVec 8 → Option (List ACLEntry))
  auxiliaryAdvertised : Bool
  topology : Option Topology

/-- The loop of `CheckACL`: the highest privilege of the entries that
apply. -/
def bestPrivilege (entries : List ACLEntry) (subjectNodeID : BitVec 64) (subjectCATs : List (BitVec 32))
    (ep : Option Endpoint) (endpoint : BitVec 16) (clusterID : BitVec 32) : Privilege :=
  entries.foldl (fun best e =>
    if e.authMode ≠ AuthMode.case then best
    else if !aclSubjectMatches e.subjects subjectNodeID subjectCATs then best
    else if !aclTargetMatches e.targets ep endpoint clusterID then best
    else if e.privilege > best then e.privilege
    else best) 0

def AclDispatcher.checkACL (d : AclDispatcher) (ctx : AclContext) (fabricIndex : BitVec 8)
    (subjectNodeID : BitVec 64) (subjectCATs : List (BitVec 32)) (endpoint : BitVec 16)
    (clusterID : BitVec 32) (requiredPrivilege : Privilege) : StatusCode :=
  if ctx.isPASE then .success
  else if fabricIndex = 0 ∨ fabricIndex = fabricIndexUnresolvable then .unsupportedAccess
  else
    match d.acl with
    | none => .unsupportedAccess
    | some listACL =>
      match listACL fabricIndex with
      | none => .unsupportedAccess
      | some entries =>
        let ep := d.topology.bind (·.findByID endpoint)
        match ctx.groupSubject with
        | some group =>
          let auxEnabled := d.aux.isSome || d.auxiliaryAdvertised
          match d.aux with
          | none => checkGroupACL entries group ep endpoint clusterID requiredPrivilege auxEnabled
          | some auxiliaryACL =>
            match auxiliaryACL fabricIndex with
            | none => .unsupportedAccess
            | some aux => checkGroupACL (entries ++ aux) group ep endpoint clusterID requiredPrivilege auxEnabled
        | none =>
          if privilegeRank (bestPrivilege entries subjectNodeID subjectCATs ep endpoint clusterID) ≥
              privilegeRank requiredPrivilege then
            .success
          else .unsupportedAccess

end GF.Impl.Endpoints
