import GoFabric.Impl.Endpoint.Types
import GoFabric.Impl.Im.Write

/-!
# Dispatching a write to the topology (`endpoint/dispatcher.go`)

`WriteAuthorized` resolves the endpoints, cluster servers and attributes of a
path and writes the value to each. A cluster server acts on the state of its
own endpoint; what it is handed is recorded in order.
-/

namespace GF.Impl.Endpoints

open GF.Impl.Im

/-- The error of a server's `MatterWrite`, by the type that `classifyError`
finds in its chain. -/
inductive WriteError
  | host (status : StatusCode) (clusterStatus : Option (BitVec 8))
  | clusterStatus (status : StatusCode) (clusterStatus : BitVec 8)
  | statusCode (status : StatusCode)
  | other

/-- `classifyError`: status, cluster status, whether there is one. -/
def classifyError : Option WriteError → StatusCode × BitVec 8 × Bool
  | none => (.success, 0, false)
  | some (.host status clusterStatus) =>
    if status = .success then (.failure, 0, false)
    else
      match clusterStatus with
      | some cs => (status, cs, true)
      | none => (status, 0, false)
  | some (.clusterStatus status cs) => (status, cs, true)
  | some (.statusCode status) => (status, 0, false)
  | some .other => (.failure, 0, false)

/-- A cluster server over the state `S` of its endpoint. A read is `none` when
the attribute is not served and `some none` for nil; `matterReadFiltered` is
there for a `FabricScopedReader`, `matterAttributes` for a
`ClusterAttributeLister`. AttributeList is fixed, so what `MatterRead` answers
for it is not a function of the state: `some none` is an answer that is no
plain list of ids. -/
structure ClusterServer (S O : Type) where
  matterClusterID : BitVec 32
  matterAttributes : Option (List (BitVec 32))
  matterReportable : List (BitVec 32)
  attributeList : Option (Option (List (BitVec 32)))
  matterRead : S → BitVec 32 → Option (Option (Any O))
  matterReadFiltered : Option (S → BitVec 32 → Option (Option (Any O)))
  matterWrite : S → Bool → BitVec 32 → Option (Any O) → Option WriteError × S

/-- `TopologyDispatcher`, as far as a write reads it, with the schema's
answers on writability and timed writes. Endpoints have distinct numbers. -/
structure TopologyDispatcher (S O : Type) where
  topology : Topology
  unique : (topology.map Endpoint.id).Nodup
  clusterServers : Endpoint → List (ClusterServer S O)
  attributeWritable : BitVec 32 → BitVec 32 → Option Bool
  isTimedWrite : BitVec 32 → BitVec 32 → Bool

abbrev WriteAuthorizer := BitVec 16 → BitVec 32 → BitVec 32 → StatusCode

/-- The status of the access gate; without an authorizer there is none. -/
def authorizeStatus (authorize : Option WriteAuthorizer) (endpoint : BitVec 16) (cluster attrID : BitVec 32) :
    StatusCode :=
  match authorize with
  | some authorize => authorize endpoint cluster attrID
  | none => .success

/-- What a cluster server was handed: the endpoint, the attribute, the value,
and the mark of a list append. -/
structure Handed (O : Type) where
  endpoint : BitVec 16
  attributeID : BitVec 32
  value : Option (Any O)
  listAppend : Bool
deriving DecidableEq

/-- The variables of `WriteAuthorized`'s loop. -/
structure WriteLoop (S O : Type) where
  world : BitVec 16 → S
  value : AttributeValue (Any O)
  results : List WriteResult
  handed : List (Handed O)

def isGlobalAttribute (id : BitVec 32) : Bool := decide (0xFFF8#32 ≤ id) && decide (id ≤ 0xFFFD#32)

section

variable {S O : Type} (d : TopologyDispatcher S O) (srv : ClusterServer S O)

/-- The global attributes every server is taken to have; EventList is left
out. -/
def globalAttributes : List (BitVec 32) := [0xFFF8, 0xFFF9, 0xFFFB, 0xFFFC, 0xFFFD]

/-- The ids of `extra` that are not yet in `out`, behind `out`, sorted. -/
def mergeAttributes (out extra : List (BitVec 32)) : List (BitVec 32) :=
  (extra.foldl (fun out id => if out.contains id then out else out ++ [id]) out).mergeSort fun a b => a.ule b

/-- `synthesizeGlobalRead` for AttributeList. -/
def synthesizeAttributeList : List (BitVec 32) :=
  mergeAttributes globalAttributes (srv.matterAttributes.getD srv.matterReportable)

def attributeListed (attrID : BitVec 32) : Bool :=
  match srv.attributeList, srv.matterAttributes with
  | some (some ids), _ => ids.contains attrID
  | some none, _ => true
  | none, none => true
  | none, some _ => (synthesizeAttributeList srv).contains attrID

def TopologyDispatcher.resolveEndpoints (path : ConcreteAttributePath) : List Endpoint :=
  if path.hasEndpoint then (d.topology.findByID path.endpoint).toList
  else
    (d.topology.findByID 0).toList ++ (d.topology.findByID 1).toList ++
      d.topology.filter fun ep => !ep.isRoot && !ep.isAggregator

def TopologyDispatcher.serversFor (ep : Endpoint) (path : ConcreteAttributePath) : List (ClusterServer S O) :=
  if !path.hasCluster then d.clusterServers ep
  else ((d.clusterServers ep).find? fun srv => srv.matterClusterID == path.cluster).toList

def attributesFor (path : ConcreteAttributePath) : List (BitVec 32) :=
  if path.hasAttribute then [path.attributeID]
  else
    let extra := srv.matterAttributes.getD srv.matterReportable
    if extra.length = 0 then globalAttributes else mergeAttributes globalAttributes extra

/-- The list that `appendListValue` appends to. -/
def currentValue (s : S) (attrID : BitVec 32) : Option (Option (Any O)) :=
  match srv.matterReadFiltered with
  | some read => read s attrID
  | none => srv.matterRead s attrID

/-- `appendListValue`; `none` is its `ConstraintError`. -/
def appendListValue (s : S) (attrID : BitVec 32) (value : AttributeValue (Any O)) : Option (AttributeValue (Any O)) :=
  match currentValue srv s attrID, value.value with
  | some (some (.slice type items)), some (.slice itemType [item]) =>
    if type = itemType then some { value := some (.slice type (items ++ [item])), isNull := false } else none
  | _, _ => none

/-- `writeOne`, with the state and the record of what was handed over. -/
def WriteLoop.writeOne (st : WriteLoop S O) (srv : ClusterServer S O) (path : ConcreteAttributePath)
    (listAppend : Bool) : WriteLoop S O :=
  let v := if st.value.isNull then none else st.value.value
  let (err, s) := srv.matterWrite (st.world path.endpoint) listAppend path.attributeID v
  let (status, cs, hasCS) := classifyError err
  { st with
    world := fun e => if e = path.endpoint then s else st.world e
    results := st.results ++ [{ path := path, status := status, clusterStatus := cs, hasClusterStatus := hasCS }]
    handed := st.handed ++
      [{ endpoint := path.endpoint, attributeID := path.attributeID, value := v, listAppend := listAppend }] }

/-- A result with a status alone. -/
def WriteLoop.answer (st : WriteLoop S O) (path : ConcreteAttributePath) (status : StatusCode) : WriteLoop S O :=
  { st with results := st.results ++ [{ path := path, status := status, clusterStatus := 0, hasClusterStatus := false }] }

/-- The end of the innermost loop body of `WriteAuthorized`, behind its
checks. -/
def WriteLoop.apply (st : WriteLoop S O) (srv : ClusterServer S O) (aPath : ConcreteAttributePath) : WriteLoop S O :=
  if aPath.listAppend then
    match appendListValue srv (st.world aPath.endpoint) aPath.attributeID st.value with
    | none => st.answer aPath .constraintError
    | some merged => { st with value := merged }.writeOne srv aPath true
  else st.writeOne srv aPath false

/-- `path` resolved at an attribute of a server of an endpoint. -/
def resolvedPath (path : ConcreteAttributePath) (endpoint : BitVec 16) (cluster attrID : BitVec 32) :
    ConcreteAttributePath :=
  { path with
    endpoint := endpoint, hasEndpoint := true, cluster := cluster, hasCluster := true,
    attributeID := attrID, hasAttribute := true }

/-- The innermost loop body of `WriteAuthorized`, for one attribute of a
server. -/
def TopologyDispatcher.writeAttribute (timed : Option Bool)
    (authorize : Option WriteAuthorizer) (path : ConcreteAttributePath) (ep : Endpoint)
    (srv : ClusterServer S O) (st : WriteLoop S O) (attrID : BitVec 32) : WriteLoop S O :=
  let aPath := resolvedPath path ep.id srv.matterClusterID attrID
  if isGlobalAttribute attrID then
    if path.hasEndpoint ∧ path.hasAttribute then st.answer aPath .unsupportedWrite else st
  else if path.hasAttribute ∧ !attributeListed srv attrID then
    if path.hasEndpoint then st.answer aPath .unsupportedAttribute else st
  else if d.attributeWritable srv.matterClusterID attrID = some false then
    if path.hasEndpoint ∧ path.hasAttribute then st.answer aPath .unsupportedWrite else st
  else
    let status := authorizeStatus authorize ep.id srv.matterClusterID attrID
    if !status.isSuccess then
      if path.hasEndpoint then st.answer aPath status else st
    else if timed = some false ∧ d.isTimedWrite srv.matterClusterID attrID then
      if path.hasEndpoint ∧ path.hasAttribute then st.answer aPath .needsTimedInteraction else st
    else st.apply srv aPath

/-- The loop body of `WriteAuthorized` for one endpoint. -/
def TopologyDispatcher.writeEndpoint (timed : Option Bool)
    (authorize : Option WriteAuthorizer) (path : ConcreteAttributePath) (st : WriteLoop S O) (ep : Endpoint) :
    WriteLoop S O :=
  let servers := d.serversFor ep path
  if servers.length = 0 then
    if !path.hasEndpoint then st
    else st.answer { path with endpoint := ep.id, hasEndpoint := true } .unsupportedCluster
  else
    servers.foldl (fun st srv =>
      (attributesFor srv path).foldl (d.writeAttribute timed authorize path ep srv) st) st

def TopologyDispatcher.writeAuthorized (timed : Option Bool) (world : BitVec 16 → S)
    (path : ConcreteAttributePath) (value : AttributeValue (Any O)) (authorize : Option WriteAuthorizer) :
    WriteLoop S O :=
  let endpoints := d.resolveEndpoints path
  let st : WriteLoop S O := { world := world, value := value, results := [], handed := [] }
  if endpoints.length = 0 then st.answer path .unsupportedEndpoint
  else endpoints.foldl (d.writeEndpoint timed authorize path) st

end

end GF.Impl.Endpoints
