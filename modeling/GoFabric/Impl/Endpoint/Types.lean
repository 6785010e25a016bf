import Mathlib.Init

/-!
# Endpoints and the topology (`endpoint/types.go`, `endpoint/helpers.go`)
-/

namespace GF.Impl.Endpoints

def deviceTypeRootNode : BitVec 32 := 0x0016
def deviceTypeAggregator : BitVec 32 := 0x000E
def matterDeviceTypeBridgedNode : BitVec 32 := 0x0013

/-- `Endpoint`: its number, its role and its device types. -/
structure Endpoint where
  id : BitVec 16
  aggregator : Bool
  part : Bool
  deviceType : BitVec 16
  deviceTypes : List (BitVec 16)
deriving DecidableEq

def Endpoint.isRoot (e : Endpoint) : Bool := e.id == 0

def Endpoint.isAggregator (e : Endpoint) : Bool := e.aggregator

/-- `Topology`: its endpoints, in order. -/
abbrev Topology := List Endpoint

def Topology.findByID (t : Topology) (id : BitVec 16) : Option Endpoint := t.find? fun ep => ep.id == id

end GF.Impl.Endpoints
