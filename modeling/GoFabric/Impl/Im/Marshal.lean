import GoFabric.Impl.Im.Wire
import GoFabric.Impl.Tlv.Encode

/-!
# Encoding Interaction Model messages (`im/path.go`, `im/read.go`, `im/subscribe.go`, `im/write.go`,
`im/client.go`, `im/invoke_client.go`, `im/status.go`, `im/event_report.go`)

The errors of `EndContainer` are dropped, as the source drops them; a method
of the encoder that panics makes the whole `none`.
-/

namespace GF.Impl.Im.Wire

open GF.Impl.Tlv

/-- A field that is written only when `c` holds. -/
def putIf (c : Bool) (put : Encoder → Option Encoder) (enc : Encoder) : Option Encoder :=
  if c then put enc else some enc

/-- A number field at the width it needs. -/
def putField {w : Nat} (enc : Encoder) (tag : BitVec 8) (v : BitVec w) : Option Encoder :=
  enc.putUint (contextTag tag) (v.setWidth 64)

/-- The loop that writes the members of an array. -/
def putAll {α : Type} (put : Encoder → α → Option Encoder) (enc : Encoder) (items : List α) : Option Encoder :=
  items.foldlM put enc

/-! ## Tags -/

def tagInteractionModelRevision : BitVec 8 := 0xFF

def matterInteractionModelRevision : BitVec 8 := 12

def tagReadReqAttributeRequests : BitVec 8 := 0
def tagReadReqEventRequests : BitVec 8 := 1
def tagReadReqEventFilters : BitVec 8 := 2
def tagReadReqFabricFiltered : BitVec 8 := 3
def tagReadReqDataVersionFilters : BitVec 8 := 4

def tagSubReqKeepSubscriptions : BitVec 8 := 0
def tagSubReqMinIntervalFloor : BitVec 8 := 1
def tagSubReqMaxIntervalCeiling : BitVec 8 := 2
def tagSubReqAttributeRequests : BitVec 8 := 3
def tagSubReqEventRequests : BitVec 8 := 4
def tagSubReqEventFilters : BitVec 8 := 5
def tagSubReqFabricFiltered : BitVec 8 := 7
def tagSubReqDataVersionFilters : BitVec 8 := 8

def tagWriteReqSuppressResponse : BitVec 8 := 0
def tagWriteReqTimedRequest : BitVec 8 := 1
def tagWriteReqWriteRequests : BitVec 8 := 2
def tagWriteReqMoreChunked : BitVec 8 := 3

def tagInvokeReqSuppressResponse : BitVec 8 := 0
def tagInvokeReqTimedRequest : BitVec 8 := 1
def tagInvokeReqInvokeRequests : BitVec 8 := 2
def tagInvokeReqDelayReportData : BitVec 8 := 3

def tagTimedReqTimeout : BitVec 8 := 0

def tagReportSubscriptionID : BitVec 8 := 0
def tagReportAttributeReports : BitVec 8 := 1
def tagReportEventReports : BitVec 8 := 2
def tagReportMoreChunkedMessages : BitVec 8 := 3
def tagReportSuppressResponse : BitVec 8 := 4

def tagAttributeReportStatus : BitVec 8 := 0
def tagAttributeReportData : BitVec 8 := 1
def tagAttributeDataDataVersion : BitVec 8 := 0
def tagAttributeDataPath : BitVec 8 := 1
def tagAttributeDataValue : BitVec 8 := 2
def tagAttributeStatusPath : BitVec 8 := 0
def tagAttributeStatusStatus : BitVec 8 := 1

def tagAttrPathNode : BitVec 8 := 1
def tagAttrPathEndpoint : BitVec 8 := 2
def tagAttrPathCluster : BitVec 8 := 3
def tagAttrPathAttribute : BitVec 8 := 4
def tagAttrPathListIndex : BitVec 8 := 5
def tagAttrPathWildcardPathFlags : BitVec 8 := 6
def tagAttrPathWildcardFilterCfgVer : BitVec 8 := 7

def tagCmdPathEndpoint : BitVec 8 := 0
def tagCmdPathCluster : BitVec 8 := 1
def tagCmdPathCommand : BitVec 8 := 2

def tagCmdDataPath : BitVec 8 := 0
def tagCmdDataFields : BitVec 8 := 1
def tagCmdDataRef : BitVec 8 := 2

def tagEventPathNode : BitVec 8 := 0
def tagEventPathEndpoint : BitVec 8 := 1
def tagEventPathCluster : BitVec 8 := 2
def tagEventPathEvent : BitVec 8 := 3
def tagEventPathIsUrgent : BitVec 8 := 4

def tagEventFilterNodeID : BitVec 8 := 0
def tagEventFilterEventMin : BitVec 8 := 1

def tagEventReportStatus : BitVec 8 := 0
def tagEventReportData : BitVec 8 := 1
def tagEventDataPath : BitVec 8 := 0
def tagEventDataNumber : BitVec 8 := 1
def tagEventDataPriority : BitVec 8 := 2
def tagEventDataEpochTimestamp : BitVec 8 := 3
def tagEventDataData : BitVec 8 := 7
def tagEventStatusPath : BitVec 8 := 0

def tagStatusIBStatus : BitVec 8 := 0
def tagStatusIBClusterStatus : BitVec 8 := 1

/-! ## Paths and filters -/

/-- `ConcreteAttributePath.MarshalTLV`. -/
def marshalAttributePath (p : ConcreteAttributePath) (enc : Encoder) (tag : Tag) : Option Encoder := do
  let enc ← enc.startList tag
  let enc ← putIf p.hasNode (putField · tagAttrPathNode p.node) enc
  let enc ← putIf p.hasEndpoint (putField · tagAttrPathEndpoint p.endpoint) enc
  let enc ← putIf p.hasCluster (putField · tagAttrPathCluster p.cluster) enc
  let enc ← putIf p.hasAttribute (putField · tagAttrPathAttribute p.attributeID) enc
  let enc ← putIf p.listAppend (·.putNull (contextTag tagAttrPathListIndex)) enc
  let enc ← putIf (!p.listAppend && p.hasListIndex) (putField · tagAttrPathListIndex p.listIndex) enc
  let enc ← putIf (p.wildcardPathFlags != 0) (putField · tagAttrPathWildcardPathFlags p.wildcardPathFlags) enc
  let enc ← putIf p.hasWildcardFilterConfigurationVersion
    (putField · tagAttrPathWildcardFilterCfgVer p.wildcardFilterConfigurationVersion) enc
  pure enc.endContainer.2

def ConcreteEventPath.marshalTLV (p : ConcreteEventPath) (enc : Encoder) (tag : Tag) : Option Encoder := do
  let enc ← enc.startList tag
  let enc ← putIf p.hasNode (putField · tagEventPathNode p.node) enc
  let enc ← putIf p.hasEndpoint (putField · tagEventPathEndpoint p.endpoint) enc
  let enc ← putIf p.hasCluster (putField · tagEventPathCluster p.cluster) enc
  let enc ← putIf p.hasEvent (putField · tagEventPathEvent p.event) enc
  let enc ← putIf p.isUrgent (·.putBool (contextTag tagEventPathIsUrgent) true) enc
  pure enc.endContainer.2

def ConcreteCommandPath.marshalTLV (p : ConcreteCommandPath) (enc : Encoder) (tag : Tag) : Option Encoder := do
  let enc ← enc.startList tag
  let enc ← putIf p.hasEndpoint (putField · tagCmdPathEndpoint p.endpoint) enc
  let enc ← putField enc tagCmdPathCluster p.cluster
  let enc ← putField enc tagCmdPathCommand p.command
  pure enc.endContainer.2

/-- An array at a context tag, nothing for an empty list. -/
def marshalList {α : Type} (put : Encoder → α → Option Encoder) (enc : Encoder) (tag : BitVec 8) (items : List α) :
    Option Encoder :=
  if items.isEmpty then some enc
  else do
    let enc ← enc.startArray (contextTag tag)
    let enc ← putAll put enc items
    pure enc.endContainer.2

def marshalAttributePaths (enc : Encoder) (tag : BitVec 8) (paths : List ConcreteAttributePath) : Option Encoder :=
  marshalList (fun enc p => marshalAttributePath p enc anonymousTag) enc tag paths

def marshalEventPaths (enc : Encoder) (tag : BitVec 8) (paths : List ConcreteEventPath) : Option Encoder :=
  marshalList (fun enc p => p.marshalTLV enc anonymousTag) enc tag paths

/-- The body of the loop of `marshalEventFilters`. -/
def marshalEventFilter (enc : Encoder) (f : EventMinimumNumber) : Option Encoder := do
  let enc ← enc.startStruct anonymousTag
  let enc ← putIf f.hasNodeID (putField · tagEventFilterNodeID f.nodeID) enc
  let enc ← putField enc tagEventFilterEventMin f.eventMin
  pure enc.endContainer.2

def marshalEventFilters (enc : Encoder) (tag : BitVec 8) (filters : List EventMinimumNumber) : Option Encoder :=
  marshalList marshalEventFilter enc tag filters

def marshalDataVersionFilter (enc : Encoder) (f : DataVersionFilter) : Option Encoder := do
  let enc ← enc.startStruct anonymousTag
  let enc ← enc.startList (contextTag 0)
  let enc ← putField enc 1 f.endpoint
  let enc ← putField enc 2 f.cluster
  let enc := enc.endContainer.2
  let enc ← putField enc 1 f.dataVersion
  pure enc.endContainer.2

def marshalDataVersionFilters (enc : Encoder) (tag : BitVec 8) (filters : List DataVersionFilter) : Option Encoder :=
  marshalList marshalDataVersionFilter enc tag filters

/-- `StatusIB.MarshalTLV`. -/
def marshalStatusIB (s : StatusIB) (enc : Encoder) (tag : Tag) : Option Encoder := do
  let enc ← enc.startStruct tag
  let enc ← putField enc tagStatusIBStatus s.status
  let enc ← putIf s.hasClusterStatus (putField · tagStatusIBClusterStatus s.clusterStatus) enc
  pure enc.endContainer.2

/-! ## Requests -/

/-- The last two calls of a message: the revision of the Interaction Model and
the end of the structure. -/
def putRevision (enc : Encoder) (revision : BitVec 8) : Option Encoder := do
  let enc ← putField enc tagInteractionModelRevision revision
  pure enc.endContainer.2

def ReadRequest.marshalTLV (r : ReadRequest) (enc : Encoder) : Option Encoder := do
  let enc ← enc.startStruct anonymousTag
  let enc ← marshalAttributePaths enc tagReadReqAttributeRequests r.attributeRequests
  let enc ← marshalEventPaths enc tagReadReqEventRequests r.eventRequests
  let enc ← marshalEventFilters enc tagReadReqEventFilters r.eventFilters
  let enc ← enc.putBool (contextTag tagReadReqFabricFiltered) r.fabricFiltered
  let enc ← marshalDataVersionFilters enc tagReadReqDataVersionFilters r.dataVersionFilters
  putRevision enc matterInteractionModelRevision

def SubscribeRequest.marshalTLV (r : SubscribeRequest) (enc : Encoder) : Option Encoder := do
  let enc ← enc.startStruct anonymousTag
  let enc ← enc.putBool (contextTag tagSubReqKeepSubscriptions) r.keepSubscriptions
  let enc ← putField enc tagSubReqMinIntervalFloor r.minIntervalFloor
  let enc ← putField enc tagSubReqMaxIntervalCeiling r.maxIntervalCeiling
  let enc ← marshalAttributePaths enc tagSubReqAttributeRequests r.attributeRequests
  let enc ← marshalEventPaths enc tagSubReqEventRequests r.eventRequests
  let enc ← marshalEventFilters enc tagSubReqEventFilters r.eventFilters
  let enc ← enc.putBool (contextTag tagSubReqFabricFiltered) r.fabricFiltered
  let enc ← marshalDataVersionFilters enc tagSubReqDataVersionFilters r.dataVersionFilters
  putRevision enc matterInteractionModelRevision

abbrev AttributeValueWriter (V : Type) := Encoder → Tag → AttributeValue V → Option Encoder

section

variable {V : Type} (valueWriter : AttributeValueWriter V)

/-- The body of the loop of `WriteRequest.MarshalTLV`. -/
def marshalAttributeData (enc : Encoder) (a : AttributeWrite V) : Option Encoder := do
  let enc ← enc.startStruct anonymousTag
  let enc ← putIf a.hasDataVersion (putField · tagAttributeDataDataVersion a.dataVersion) enc
  let enc ← marshalAttributePath a.path enc (contextTag tagAttributeDataPath)
  let enc ← valueWriter enc (contextTag tagAttributeDataValue) a.value
  pure enc.endContainer.2

def WriteRequest.marshalTLV (r : WriteRequest V) (enc : Encoder) : Option Encoder := do
  let enc ← enc.startStruct anonymousTag
  let enc ← putIf r.suppressResponse (·.putBool (contextTag tagWriteReqSuppressResponse) true) enc
  let enc ← enc.putBool (contextTag tagWriteReqTimedRequest) r.timedRequest
  let enc ← enc.startArray (contextTag tagWriteReqWriteRequests)
  let enc ← putAll (marshalAttributeData valueWriter) enc r.writes
  let enc := enc.endContainer.2
  let enc ← enc.putBool (contextTag tagWriteReqMoreChunked) r.moreChunkedMessages
  putRevision enc matterInteractionModelRevision

end

/-- `CommandFieldsWriter`; nil fields are `none`. -/
abbrev CommandFieldsWriter (F : Type) := Encoder → Tag → Option F → Option Encoder

section

variable {F : Type} (fieldsWriter : CommandFieldsWriter F)

/-- The body of the loop of `MarshalInvokeRequestTLV`. -/
def marshalCommandData (enc : Encoder) (inv : CommandInvocation F) : Option Encoder := do
  let enc ← enc.startStruct anonymousTag
  let enc ← inv.path.marshalTLV enc (contextTag tagCmdDataPath)
  let enc ← fieldsWriter enc (contextTag tagCmdDataFields) inv.fields
  let enc ← putIf inv.hasCommandRef (putField · tagCmdDataRef inv.commandRef) enc
  pure enc.endContainer.2

/-- The `DelayReportData` of `MarshalInvokeRequestTLV`. -/
def marshalDelayReportData (enc : Encoder) : Option DelayReportData → Option Encoder
  | none => some enc
  | some d => do
    let enc ← enc.startStruct (contextTag tagInvokeReqDelayReportData)
    let enc ← putField enc 0 d.delayMinMs
    let enc ← putField enc 1 d.delayJitterWindowMs
    pure enc.endContainer.2

def marshalInvokeRequestTLV (enc : Encoder) (req : InvokeRequest F) : Option Encoder := do
  let enc ← enc.startStruct anonymousTag
  let enc ← enc.putBool (contextTag tagInvokeReqSuppressResponse) req.suppressResponse
  let enc ← enc.putBool (contextTag tagInvokeReqTimedRequest) req.timedRequest
  let enc ← enc.startArray (contextTag tagInvokeReqInvokeRequests)
  let enc ← putAll (marshalCommandData fieldsWriter) enc req.invokes
  let enc := enc.endContainer.2
  let enc ← marshalDelayReportData enc req.delayReportData
  putRevision enc (if req.interactionModelRevision = 0 then matterInteractionModelRevision
    else req.interactionModelRevision)

end

/-! ## Reports -/

section

variable {V : Type} (valueWriter : AttributeValueWriter V)

/-- The status that `AttributeReport.marshal` and `EventReport.marshal` write:
a path, written by `putPath`, and a status. -/
def marshalReportStatus (putPath : Encoder → Tag → Option Encoder) (status : StatusIB) (tag : BitVec 8)
    (enc : Encoder) : Option Encoder := do
  let enc ← enc.startStruct (contextTag tag)
  let enc ← putPath enc (contextTag tagAttributeStatusPath)
  let enc ← marshalStatusIB status enc (contextTag tagAttributeStatusStatus)
  pure enc.endContainer.2

/-- The data of `AttributeReport.marshal`. -/
def marshalReportData (enc : Encoder) (rep : AttributeReport V) : Option Encoder := do
  let enc ← enc.startStruct (contextTag tagAttributeReportData)
  let enc ← enc.putUint32 (contextTag tagAttributeDataDataVersion) (if rep.dataVersion = 0 then 1 else rep.dataVersion)
  let enc ← marshalAttributePath rep.path enc (contextTag tagAttributeDataPath)
  let enc ← valueWriter enc (contextTag tagAttributeDataValue) rep.value
  pure enc.endContainer.2

/-- `AttributeReport.marshal`. -/
def marshalAttributeReport (enc : Encoder) (rep : AttributeReport V) : Option Encoder := do
  let enc ← enc.startStruct anonymousTag
  let enc ← putIf rep.isStatus
    (marshalReportStatus (marshalAttributePath rep.path) rep.status tagAttributeReportStatus) enc
  let enc ← putIf (!rep.isStatus) (marshalReportData valueWriter · rep) enc
  pure enc.endContainer.2

/-- The data of `EventReport.marshal`. -/
def marshalEventData (enc : Encoder) (rep : EventReport V) : Option Encoder := do
  let enc ← enc.startStruct (contextTag tagEventReportData)
  let enc ← ({ rep.path with isUrgent := false } : ConcreteEventPath).marshalTLV enc (contextTag tagEventDataPath)
  let enc ← enc.putUint64 (contextTag tagEventDataNumber) rep.number
  let enc ← putField enc tagEventDataPriority rep.priority
  let enc ← enc.putUint64 (contextTag tagEventDataEpochTimestamp) rep.timestamp
  let enc ← putIf (!rep.data.isNull && rep.data.value.isSome)
    (valueWriter · (contextTag tagEventDataData) rep.data) enc
  pure enc.endContainer.2

/-- `EventReport.marshal`. -/
def marshalEventReport (enc : Encoder) (rep : EventReport V) : Option Encoder := do
  let enc ← enc.startStruct anonymousTag
  let enc ← putIf rep.isStatus (marshalReportStatus rep.path.marshalTLV rep.status tagEventReportStatus) enc
  let enc ← putIf (!rep.isStatus) (marshalEventData valueWriter · rep) enc
  pure enc.endContainer.2

/-- `ReportData.MarshalTLV`, up to its flags. -/
def ReportData.marshalReports (r : ReportData V) (enc : Encoder) : Option Encoder := do
  let enc ← enc.startStruct anonymousTag
  let enc ← putIf r.hasSubscription (·.putUint32 (contextTag tagReportSubscriptionID) r.subscriptionID) enc
  let enc ← enc.startArray (contextTag tagReportAttributeReports)
  let enc ← putAll (marshalAttributeReport valueWriter) enc r.reports
  let enc := enc.endContainer.2
  marshalList (marshalEventReport valueWriter) enc tagReportEventReports r.eventReports

/-- The rest of `ReportData.MarshalTLV`. -/
def ReportData.marshalFlags (r : ReportData V) (enc : Encoder) : Option Encoder := do
  let enc ← putIf r.moreChunkedMessages (·.putBool (contextTag tagReportMoreChunkedMessages) true) enc
  let enc ← enc.putBool (contextTag tagReportSuppressResponse) r.suppressResponse
  putRevision enc matterInteractionModelRevision

def ReportData.marshalTLV (r : ReportData V) (enc : Encoder) : Option Encoder := do
  let enc ← r.marshalReports valueWriter enc
  r.marshalFlags enc

end

end GF.Impl.Im.Wire
