import GoFabric.Impl.Im.EventLog
import GoFabric.Impl.Im.Types

/-!
# Interaction Model messages (`im/path.go`, `im/read.go`, `im/subscribe.go`, `im/write.go`, `im/invoke.go`,
`im/timed.go`, `im/event_report.go`)

The in-memory forms of the messages, with every field that is on the wire.
Attribute values and command fields are Go values of any types `V` and `F`;
a nil slice is the empty list.
-/

namespace GF.Impl.Im.Wire

/-! ## Paths and filters -/

structure ConcreteEventPath where
  node : BitVec 64 := 0
  endpoint : BitVec 16 := 0
  cluster : BitVec 32 := 0
  event : BitVec 32 := 0
  hasNode : Bool := false
  hasEndpoint : Bool := false
  hasCluster : Bool := false
  hasEvent : Bool := false
  isUrgent : Bool := false
deriving DecidableEq

structure ConcreteCommandPath where
  endpoint : BitVec 16 := 0
  cluster : BitVec 32 := 0
  command : BitVec 32 := 0
  hasEndpoint : Bool := false
  hasCluster : Bool := false
  hasCommand : Bool := false
deriving DecidableEq

structure EventMinimumNumber where
  nodeID : BitVec 64 := 0
  hasNodeID : Bool := false
  eventMin : BitVec 64 := 0
deriving DecidableEq

/-! ## Requests -/

structure ReadRequest where
  attributeRequests : List ConcreteAttributePath := []
  eventRequests : List ConcreteEventPath := []
  eventFilters : List EventMinimumNumber := []
  fabricFiltered : Bool := false
  dataVersionFilters : List DataVersionFilter := []
deriving DecidableEq

structure SubscribeRequest where
  keepSubscriptions : Bool := false
  minIntervalFloor : BitVec 16 := 0
  maxIntervalCeiling : BitVec 16 := 0
  attributeRequests : List ConcreteAttributePath := []
  eventRequests : List ConcreteEventPath := []
  eventFilters : List EventMinimumNumber := []
  fabricFiltered : Bool := false
  dataVersionFilters : List DataVersionFilter := []

structure AttributeWrite (V : Type) where
  path : ConcreteAttributePath := {}
  value : AttributeValue V := {}
  dataVersion : BitVec 32 := 0
  hasDataVersion : Bool := false

structure WriteRequest (V : Type) where
  suppressResponse : Bool := false
  timedRequest : Bool := false
  writes : List (AttributeWrite V) := []
  moreChunkedMessages : Bool := false

structure DelayReportData where
  delayMinMs : BitVec 16 := 0
  delayJitterWindowMs : BitVec 16 := 0
deriving DecidableEq

/-- `CommandInvocation`; nil fields are `none`. -/
structure CommandInvocation (F : Type) where
  path : ConcreteCommandPath := {}
  fields : Option F := none
  commandRef : BitVec 16 := 0
  hasCommandRef : Bool := false
  decodeStatus : StatusCode := StatusCode.success
deriving DecidableEq

structure InvokeRequest (F : Type) where
  suppressResponse : Bool := false
  timedRequest : Bool := false
  invokes : List (CommandInvocation F) := []
  delayReportData : Option DelayReportData := none
  interactionModelRevision : BitVec 8 := 0
deriving DecidableEq

structure TimedRequest where
  timeoutMs : BitVec 16 := 0

/-! ## Reports -/

structure AttributeReport (V : Type) where
  path : ConcreteAttributePath := {}
  status : StatusIB := StatusIB.of StatusCode.success
  value : AttributeValue V := {}
  isStatus : Bool := false
  dataVersion : BitVec 32 := 0
  hasDataVersion : Bool := false
  tagCompression : Bool := false

structure ReceivedEventData where
  hasEpochTimestamp : Bool := false
  systemTimestamp : BitVec 64 := 0
  hasSystemTimestamp : Bool := false
  deltaEpochTimestamp : BitVec 64 := 0
  hasDeltaEpochTimestamp : Bool := false
  deltaSystemTimestamp : BitVec 64 := 0
  hasDeltaSystemTimestamp : Bool := false
  hasData : Bool := false
deriving DecidableEq

structure EventReport (V : Type) where
  path : ConcreteEventPath := {}
  number : BitVec 64 := 0
  priority : EventPriority := EventPriority.debug
  timestamp : BitVec 64 := 0
  data : AttributeValue V := {}
  status : StatusIB := StatusIB.of StatusCode.success
  isStatus : Bool := false
  received : Option ReceivedEventData := none
deriving DecidableEq

structure ReportData (V : Type) where
  subscriptionID : BitVec 32 := 0
  hasSubscription : Bool := false
  reports : List (AttributeReport V) := []
  eventReports : List (EventReport V) := []
  moreChunkedMessages : Bool := false
  suppressResponse : Bool := false

end GF.Impl.Im.Wire
