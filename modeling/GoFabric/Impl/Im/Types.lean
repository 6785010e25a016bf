import GoFabric.Impl.Im.Status

/-!
# Interaction Model data (`im/path.go`, `im/dispatcher.go`, `im/read.go`)

Attribute values are Go values of any type: `Any` tells apart the types the
modelled code looks for, and leaves the others to its parameter.
-/

namespace GF.Impl.Im

/-- A Go value: the integer types `currentConfigurationVersion` switches on,
a slice of a slice type, or any other value. -/
inductive Any (O : Type)
  | uint32 (v : BitVec 32)
  | uint64 (v : BitVec 64)
  | int (v : Int)
  | slice (type : Nat) (items : List O)
  | other (v : O)
deriving DecidableEq

/-- `ConcreteAttributePath`: a field whose flag is not set is a wildcard. -/
structure ConcreteAttributePath where
  node : BitVec 64 := 0
  endpoint : BitVec 16 := 0
  cluster : BitVec 32 := 0
  attributeID : BitVec 32 := 0
  listIndex : BitVec 16 := 0
  hasNode : Bool := false
  hasEndpoint : Bool := false
  hasCluster : Bool := false
  hasAttribute : Bool := false
  hasListIndex : Bool := false
  listAppend : Bool := false
  wildcardPathFlags : BitVec 32 := 0
  wildcardFilterConfigurationVersion : BitVec 32 := 0
  hasWildcardFilterConfigurationVersion : Bool := false
deriving DecidableEq

/-- All three of endpoint, cluster and attribute are named. -/
def ConcreteAttributePath.concrete (p : ConcreteAttributePath) : Bool :=
  p.hasEndpoint && p.hasCluster && p.hasAttribute

/-- `AttributeValue`; a nil value is `none`. -/
structure AttributeValue (V : Type) where
  value : Option V := none
  isNull : Bool := false
deriving DecidableEq

structure StatusIB where
  status : StatusCode
  clusterStatus : BitVec 8
  hasClusterStatus : Bool
deriving DecidableEq

/-- A `StatusIB` with a status alone. -/
def StatusIB.of (s : StatusCode) : StatusIB := { status := s, clusterStatus := 0, hasClusterStatus := false }

structure ReadResult (O : Type) where
  path : ConcreteAttributePath
  value : AttributeValue (Any O)
  status : StatusCode
  dataVersion : BitVec 32

structure DataVersionFilter where
  endpoint : BitVec 16
  cluster : BitVec 32
  dataVersion : BitVec 32
deriving DecidableEq

/-- What the context of a request says about its session. -/
structure Subject where
  fabricIndex : BitVec 8
  nodeID : BitVec 64
  cats : List (BitVec 32)
  pase : Bool

/-- The `CheckACL` of an `ACLChecker`: fabric, node id, CATs, endpoint,
cluster, privilege. -/
abbrev CheckACL := BitVec 8 → BitVec 64 → List (BitVec 32) → BitVec 16 → BitVec 32 → BitVec 8 → StatusCode

def checkSubjectACL (c : CheckACL) (s : Subject) (endpoint : BitVec 16) (clusterID : BitVec 32)
    (privilege : BitVec 8) : StatusCode :=
  if s.fabricIndex = 0 then StatusCode.unsupportedAccess
  else c s.fabricIndex s.nodeID s.cats endpoint clusterID privilege

end GF.Impl.Im
