import GoFabric.Impl.Im.Subscription

/-!
# Persisted subscriptions (`im/subscription/persistence.go`)

The record of a subscription and its JSON shape. Encoding a shape as JSON and
decoding it is the library's; `T` is what it encodes to.
-/

namespace GF.Impl.Im

open GF.Impl.Im.Wire (ConcreteEventPath)

/-- `PeerSubscription`. The send interval is a number of nanoseconds. -/
structure PeerSubscription where
  subscriptionID : BitVec 32
  fabricIndex : BitVec 8
  peerNodeID : BitVec 64
  attributeRequests : List ConcreteAttributePath
  eventRequests : List ConcreteEventPath
  isFabricFiltered : Bool
  minIntervalFloor : BitVec 16
  maxIntervalCeiling : BitVec 16
  maxInterval : BitVec 16
  sendInterval : Int
deriving DecidableEq

/-! ## The JSON shape -/

structure PeerAddressWire where
  fabricIndex : BitVec 8
  nodeID : BitVec 64

structure AttributePathWire where
  nodeID : Option (BitVec 64)
  endpointID : Option (BitVec 16)
  clusterID : Option (BitVec 32)
  attributeID : Option (BitVec 32)
  listIndex : Option (BitVec 16)

structure EventPathWire where
  nodeID : Option (BitVec 64)
  endpointID : Option (BitVec 16)
  clusterID : Option (BitVec 32)
  eventID : Option (BitVec 32)
  isUrgent : Bool

structure PeerSubscriptionWire where
  version : Int
  subscriptionID : BitVec 32
  peerAddress : PeerAddressWire
  attributeRequests : List AttributePathWire
  eventRequests : List EventPathWire
  isFabricFiltered : Bool
  minIntervalFloor : Int
  maxIntervalCeil : Int
  maxInterval : Int
  sendInterval : Int

def peerSubscriptionWireVersion : Int := 1

def ptrIf {T : Type} (has : Bool) (v : T) : Option T := if !has then none else some v

def valOf {n : Nat} : Option (BitVec n) → BitVec n × Bool
  | none => (0, false)
  | some v => (v, true)

def msPerSecond : Int := 1000

/-- The shape of an attribute path. -/
def attributePathWire (a : ConcreteAttributePath) : AttributePathWire :=
  { nodeID := ptrIf a.hasNode a.node
    endpointID := ptrIf a.hasEndpoint a.endpoint
    clusterID := ptrIf a.hasCluster a.cluster
    attributeID := ptrIf a.hasAttribute a.attributeID
    listIndex := ptrIf a.hasListIndex a.listIndex }

/-- The shape of an event path. -/
def eventPathWire (e : ConcreteEventPath) : EventPathWire :=
  { nodeID := ptrIf e.hasNode e.node
    endpointID := ptrIf e.hasEndpoint e.endpoint
    clusterID := ptrIf e.hasCluster e.cluster
    eventID := ptrIf e.hasEvent e.event
    isUrgent := e.isUrgent }

/-- The shape that `MarshalPeerSubscription` encodes. -/
def peerSubscriptionWire (p : PeerSubscription) : PeerSubscriptionWire :=
  { version := peerSubscriptionWireVersion
    subscriptionID := p.subscriptionID
    peerAddress := { fabricIndex := p.fabricIndex, nodeID := p.peerNodeID }
    isFabricFiltered := p.isFabricFiltered
    minIntervalFloor := p.minIntervalFloor.toNat * msPerSecond
    maxIntervalCeil := p.maxIntervalCeiling.toNat * msPerSecond
    maxInterval := p.maxInterval.toNat * msPerSecond
    sendInterval := p.sendInterval.tdiv millisecond
    attributeRequests := p.attributeRequests.map attributePathWire
    eventRequests := p.eventRequests.map eventPathWire }

/-- The attribute path of a shape. -/
def attributePathOf (a : AttributePathWire) : ConcreteAttributePath :=
  { node := (valOf a.nodeID).1, hasNode := (valOf a.nodeID).2
    endpoint := (valOf a.endpointID).1, hasEndpoint := (valOf a.endpointID).2
    cluster := (valOf a.clusterID).1, hasCluster := (valOf a.clusterID).2
    attributeID := (valOf a.attributeID).1, hasAttribute := (valOf a.attributeID).2
    listIndex := (valOf a.listIndex).1, hasListIndex := (valOf a.listIndex).2 }

/-- The event path of a shape. -/
def eventPathOf (e : EventPathWire) : ConcreteEventPath :=
  { node := (valOf e.nodeID).1, hasNode := (valOf e.nodeID).2
    endpoint := (valOf e.endpointID).1, hasEndpoint := (valOf e.endpointID).2
    cluster := (valOf e.clusterID).1, hasCluster := (valOf e.clusterID).2
    event := (valOf e.eventID).1, hasEvent := (valOf e.eventID).2
    isUrgent := e.isUrgent }

/-! ## Encoding and decoding -/

/-- What `UnmarshalPeerSubscription` refuses. -/
inductive PersistError (E : Type)
  /-- `subscription: decode persisted subscription` -/
  | decode (err : E)
  /-- `subscription: persisted subscription version … unsupported` -/
  | version (v : Int)
  /-- `subscription: persisted … out of range` -/
  | outOfRange (field : String) (ms : Int)

def secondsOf {E : Type} (field : String) (ms : Int) : Except (PersistError E) (BitVec 16) :=
  if ms < 0 ∨ ms.tdiv msPerSecond > 0xFFFF then .error (.outOfRange field ms)
  else .ok (BitVec.ofInt 16 (ms.tdiv msPerSecond))

variable {T E : Type}

/-- `json.Marshal` and `json.Unmarshal` of the shape. -/
structure JsonCodec (T E : Type) where
  marshal : PeerSubscriptionWire → Except E T
  unmarshal : T → Except E PeerSubscriptionWire

def marshalPeerSubscription (json : JsonCodec T E) (p : PeerSubscription) : Except E T :=
  json.marshal (peerSubscriptionWire p)

def unmarshalPeerSubscription (json : JsonCodec T E) (b : T) : Except (PersistError E) PeerSubscription := do
  let w ← (json.unmarshal b).mapError .decode
  if w.version ≠ peerSubscriptionWireVersion then .error (.version w.version)
  else
    let minIntervalFloor ← secondsOf "minIntervalFloor" w.minIntervalFloor
    let maxIntervalCeiling ← secondsOf "maxIntervalCeiling" w.maxIntervalCeil
    let maxInterval ← secondsOf "maxInterval" w.maxInterval
    .ok
      { subscriptionID := w.subscriptionID
        fabricIndex := w.peerAddress.fabricIndex
        peerNodeID := w.peerAddress.nodeID
        isFabricFiltered := w.isFabricFiltered
        sendInterval := w.sendInterval * millisecond
        minIntervalFloor := minIntervalFloor
        maxIntervalCeiling := maxIntervalCeiling
        maxInterval := maxInterval
        attributeRequests := w.attributeRequests.map attributePathOf
        eventRequests := w.eventRequests.map eventPathOf }

end GF.Impl.Im
