import GoFabric.Impl.Im.Wire

/-!
# Reading attributes (`im/read.go`, `im/wildcard_path_flags.go`)

`HandleReadRequest` over a dispatcher: the paths of the request, without
repeats, are expanded by the dispatcher; wildcard path flags, the ACL gate and
the data version filters are applied to each result in turn.
-/

namespace GF.Impl.Im

open Wire

variable {O : Type}

/-- What `HandleReadRequest` uses of a dispatcher; an interface it does not
implement is `none`. -/
structure ReadDispatcher (O : Type) where
  read : ConcreteAttributePath → List (ReadResult O)
  checkACL : Option CheckACL
  minReadPrivilege : Option (BitVec 16 → BitVec 32 → BitVec 32 → BitVec 8)

structure ElementQualities where
  diagnosticsCluster : BitVec 32 → Bool
  attributeFixed : BitVec 32 → BitVec 32 → Bool

/-- The request's context: its subject, the model qualities attached to it,
and the schema's Changes Omitted quality. -/
structure ReadContext where
  subject : Subject
  qualities : Option ElementQualities
  attributeChangesOmitted : BitVec 32 → BitVec 32 → Bool

def wildcardSkipRootNode : BitVec 32 := 1#32 <<< 0
def wildcardSkipGlobalAttributes : BitVec 32 := 1#32 <<< 1
def wildcardSkipAttributeList : BitVec 32 := 1#32 <<< 2
def wildcardSkipCommandLists : BitVec 32 := 1#32 <<< 4
def wildcardSkipCustomElements : BitVec 32 := 1#32 <<< 5
def wildcardSkipFixedAttributes : BitVec 32 := 1#32 <<< 6
def wildcardSkipChangesOmittedAttributes : BitVec 32 := 1#32 <<< 7
def wildcardSkipDiagnosticsClusters : BitVec 32 := 1#32 <<< 8

def globalGeneratedCommandList : BitVec 32 := 0xFFF8
def globalAcceptedCommandList : BitVec 32 := 0xFFF9
def globalAttributeList : BitVec 32 := 0xFFFB
def globalFeatureMap : BitVec 32 := 0xFFFC
def globalClusterRevision : BitVec 32 := 0xFFFD

def basicInformationCluster : BitVec 32 := 0x0028
def basicInfoConfigurationVersionAttr : BitVec 32 := 0x0018

variable (ctx : ReadContext) (d : ReadDispatcher O)

/-- The loop of `currentConfigurationVersion`: a failed read ends it, a value
of another type or out of range is passed over. -/
def configurationVersionIn : List (ReadResult O) → Option (BitVec 32)
  | [] => none
  | r :: rs =>
    if r.status ≠ StatusCode.success then none
    else
      match r.value.value with
      | some (.uint32 v) => some v
      | some (.uint64 v) => if v.toNat ≤ 0xFFFFFFFF then some (v.setWidth 32) else configurationVersionIn rs
      | some (.int v) => if 0 ≤ v ∧ v ≤ 0xFFFFFFFF then some (BitVec.ofInt 32 v) else configurationVersionIn rs
      | _ => configurationVersionIn rs

def currentConfigurationVersion : Option (BitVec 32) :=
  configurationVersionIn (d.read
    { endpoint := 0, cluster := basicInformationCluster, attributeID := basicInfoConfigurationVersionAttr,
      hasEndpoint := true, hasCluster := true, hasAttribute := true })

def effectiveWildcardPathFlags (path : ConcreteAttributePath) : BitVec 32 :=
  if path.wildcardPathFlags = 0 ∨ path.concrete then 0
  else if path.hasWildcardFilterConfigurationVersion ∧
      path.wildcardFilterConfigurationVersion ≠ 0xFFFFFFFF#32 then
    match currentConfigurationVersion d with
    | some current =>
      if path.wildcardFilterConfigurationVersion < current then 0 else path.wildcardPathFlags
    | none => path.wildcardPathFlags
  else path.wildcardPathFlags

def attributeWildcardFlags (cluster attributeID : BitVec 32) : BitVec 32 :=
  let flags : BitVec 32 :=
    if attributeID = globalGeneratedCommandList ∨ attributeID = globalAcceptedCommandList then
      wildcardSkipGlobalAttributes ||| wildcardSkipCommandLists
    else if attributeID = globalAttributeList then wildcardSkipGlobalAttributes ||| wildcardSkipAttributeList
    else 0
  let flags := if attributeID &&& 0xFFFF0000#32 ≠ 0 then flags ||| wildcardSkipCustomElements else flags
  let fixed : Bool :=
    if attributeID ∈ [globalGeneratedCommandList, globalAcceptedCommandList, globalAttributeList, globalFeatureMap,
        globalClusterRevision] then true
    else ctx.qualities.any fun q => q.attributeFixed cluster attributeID
  let flags := if fixed then flags ||| wildcardSkipFixedAttributes else flags
  if ctx.attributeChangesOmitted cluster attributeID then flags ||| wildcardSkipChangesOmittedAttributes else flags

def wildcardPathSkipped (p : ConcreteAttributePath) (flags : BitVec 32) : Bool :=
  if p.endpoint = 0 ∧ flags &&& wildcardSkipRootNode ≠ 0 then true
  else if p.cluster &&& 0xFFFF0000#32 ≠ 0 ∧ flags &&& wildcardSkipCustomElements ≠ 0 then true
  else if flags &&& wildcardSkipDiagnosticsClusters ≠ 0 ∧ ctx.qualities.any (·.diagnosticsCluster p.cluster) then true
  else decide (flags &&& attributeWildcardFlags ctx p.cluster p.attributeID ≠ 0)

def applyWildcardPathFlags (path : ConcreteAttributePath) (results : List (ReadResult O)) : List (ReadResult O) :=
  let flags := effectiveWildcardPathFlags d path
  if flags = 0 then results else results.filter fun r => !wildcardPathSkipped ctx r.path flags

def matchDataVersionFilter (filters : List DataVersionFilter) (endpoint : BitVec 16) (cluster : BitVec 32) :
    Option (BitVec 32) :=
  (filters.find? fun f => f.endpoint == endpoint && f.cluster == cluster).map DataVersionFilter.dataVersion

/-- `DedupAttributePaths`: the first of equal paths. -/
def dedupAttributePaths (paths : List ConcreteAttributePath) : List ConcreteAttributePath :=
  if paths.length < 2 then paths
  else
    let out := paths.foldl (fun out p => if p ∈ out then out else out ++ [p]) []
    if out.length = paths.length then paths else out

/-- `readPrivilege`, inside `HandleReadRequest`. -/
def readPrivilege (p : ConcreteAttributePath) : BitVec 8 :=
  match d.minReadPrivilege with
  | some minReadPrivilege => minReadPrivilege p.endpoint p.cluster p.attributeID
  | none => 1

/-- The status of the ACL gate for a resolved path; success when the gate is
not active. -/
def readGate (p : ConcreteAttributePath) : StatusCode :=
  match d.checkACL with
  | some c =>
    if ctx.subject.pase then StatusCode.success
    else checkSubjectACL c ctx.subject p.endpoint p.cluster (readPrivilege d p)
  | none => StatusCode.success

/-- What one result of an expansion adds to the report. -/
def reportResult (req : ReadRequest) (path : ConcreteAttributePath)
    (r : ReadResult O) : Option (AttributeReport (Any O)) :=
  let status := readGate ctx d r.path
  if !status.isSuccess then
    if path.concrete then
      some { path := r.path, status := StatusIB.of status, isStatus := true }
    else none
  else
    let fresh : Bool := r.status == StatusCode.success &&
      match matchDataVersionFilter req.dataVersionFilters r.path.endpoint r.path.cluster with
      | some cached => cached == r.dataVersion && decide (1 < r.dataVersion)
      | none => false
    if fresh then none
    else if r.status ≠ StatusCode.success then
      some { path := r.path, status := StatusIB.of r.status, isStatus := true, dataVersion := r.dataVersion }
    else some { path := r.path, value := r.value, dataVersion := r.dataVersion }

def handleReadRequest (req : ReadRequest) : ReportData (Any O) :=
  let reports := (dedupAttributePaths req.attributeRequests).flatMap fun path =>
    (applyWildcardPathFlags ctx d path (d.read path)).filterMap (reportResult ctx d req path)
  { reports := reports, suppressResponse := true }

end GF.Impl.Im
