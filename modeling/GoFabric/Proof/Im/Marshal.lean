import GoFabric.Proof.Tlv.Emit

/-!
# The bytes of Interaction Model messages

What each encoder of paths, filters and statuses appends, as a function of the
value it is given.
-/

namespace GF.Proof.Im

open GF.Impl.Tlv GF.Impl.Im.Wire GF.Proof.Tlv
open GF.Impl.Im (StatusIB ConcreteAttributePath DataVersionFilter)

def fieldWire {w : Nat} (tag : BitVec 8) (v : BitVec w) : List Byte := uintWire (contextTag tag) (v.setWidth 64)

/-- The bytes of a field that is written only when `c` holds. -/
def optWire (c : Bool) (bs : List Byte) : List Byte := if c then bs else []

theorem appends_field {w : Nat} {tag : BitVec 8} {v : BitVec w} : Appends (putField · tag v) (fieldWire tag v) :=
  appends_putField tag v

theorem appends_optField {w : Nat} {c : Bool} {tag : BitVec 8} {v : BitVec w} :
    Appends (putIf c (putField · tag v)) (optWire c (fieldWire tag v)) :=
  appends_putIf fun _ => appends_field

/-! ## Paths -/

def attributePathFields (p : ConcreteAttributePath) : List Byte :=
  optWire p.hasNode (fieldWire tagAttrPathNode p.node) ++
  (optWire p.hasEndpoint (fieldWire tagAttrPathEndpoint p.endpoint) ++
  (optWire p.hasCluster (fieldWire tagAttrPathCluster p.cluster) ++
  (optWire p.hasAttribute (fieldWire tagAttrPathAttribute p.attributeID) ++
  (optWire p.listAppend (headWire .null (contextTag tagAttrPathListIndex)) ++
  (optWire (!p.listAppend && p.hasListIndex) (fieldWire tagAttrPathListIndex p.listIndex) ++
  (optWire (p.wildcardPathFlags != 0) (fieldWire tagAttrPathWildcardPathFlags p.wildcardPathFlags) ++
  (optWire p.hasWildcardFilterConfigurationVersion
    (fieldWire tagAttrPathWildcardFilterCfgVer p.wildcardFilterConfigurationVersion))))))))

theorem appends_attributePath (p : ConcreteAttributePath) (tag : Tag) :
    Appends (marshalAttributePath p · tag) (containerWire .list tag (attributePathFields p)) :=
  appends_container _ (by decide) <|
    finishes_bind appends_optField <| finishes_bind appends_optField <|
    finishes_bind appends_optField <| finishes_bind appends_optField <|
    finishes_bind (appends_putIf fun _ => appends_putNull _) <| finishes_bind appends_optField <|
    finishes_bind appends_optField <| finishes_last appends_optField

def eventPathFields (p : ConcreteEventPath) : List Byte :=
  optWire p.hasNode (fieldWire tagEventPathNode p.node) ++
  (optWire p.hasEndpoint (fieldWire tagEventPathEndpoint p.endpoint) ++
  (optWire p.hasCluster (fieldWire tagEventPathCluster p.cluster) ++
  (optWire p.hasEvent (fieldWire tagEventPathEvent p.event) ++
  (optWire p.isUrgent (headWire (boolType true) (contextTag tagEventPathIsUrgent))))))

theorem appends_eventPath (p : ConcreteEventPath) (tag : Tag) :
    Appends (p.marshalTLV · tag) (containerWire .list tag (eventPathFields p)) :=
  appends_container _ (by decide) <|
    finishes_bind appends_optField <| finishes_bind appends_optField <|
    finishes_bind appends_optField <| finishes_bind appends_optField <|
    finishes_last (appends_putIf fun _ => appends_putBool _ _)

/-! ## Statuses -/

def statusFields (s : StatusIB) : List Byte :=
  fieldWire tagStatusIBStatus s.status ++
    (optWire s.hasClusterStatus (fieldWire tagStatusIBClusterStatus s.clusterStatus))

theorem appends_status (s : StatusIB) (tag : Tag) :
    Appends (marshalStatusIB s · tag) (containerWire .struct tag (statusFields s)) :=
  appends_container _ (by decide) <| finishes_bind appends_field <|
    finishes_last appends_optField

/-- The bytes of the status of a report, for the bytes of its path. -/
def reportStatusWire (tag : BitVec 8) (path : List Byte) (s : StatusIB) : List Byte :=
  containerWire .struct (contextTag tag)
    (path ++ (containerWire .struct (contextTag tagAttributeStatusStatus) (statusFields s)))

theorem appends_reportStatus {putPath : Encoder → Tag → Option Encoder} {path : List Byte} (tag : BitVec 8)
    (s : StatusIB) (hpath : Appends (putPath · (contextTag tagAttributeStatusPath)) path) :
    Appends (marshalReportStatus putPath s tag) (reportStatusWire tag path s) :=
  appends_container _ (by decide) <| finishes_bind hpath <| finishes_last (appends_status _ _)

section Reports

variable {V : Type} (valueWriter : AttributeValueWriter V)

/-- The bytes of the data of an attribute's report, for the bytes of its
value. -/
def attributeDataReportWire (rep : AttributeReport V) (value : List Byte) : List Byte :=
  containerWire .struct (contextTag tagAttributeReportData)
    (headWire .unsignedInt4 (contextTag tagAttributeDataDataVersion) ++
        leBytes 4 (if rep.dataVersion = 0 then 1 else rep.dataVersion).toNat ++
      (containerWire .list (contextTag tagAttributeDataPath) (attributePathFields rep.path) ++ (value)))

/-- The bytes of an attribute's report, for the bytes of its value. -/
def attributeReportWire (rep : AttributeReport V) (value : List Byte) : List Byte :=
  containerWire .struct anonymousTag
    (optWire rep.isStatus (reportStatusWire tagAttributeReportStatus
        (containerWire .list (contextTag tagAttributeStatusPath) (attributePathFields rep.path)) rep.status) ++
      (optWire (!rep.isStatus) (attributeDataReportWire rep value)))

theorem appendsAny_attributeReport {rep : AttributeReport V} {value : List Byte}
    (hv : rep.isStatus = false → Appends (valueWriter · (contextTag tagAttributeDataValue) rep.value) value) :
    AppendsAny (marshalAttributeReport valueWriter · rep) (attributeReportWire rep value) := by
  refine appendsAny_container _ (by decide) (by decide) ?_
  refine finishes_bind (appends_putIf fun _ => appends_reportStatus _ _ (appends_attributePath _ _)) ?_
  refine finishes_last (appends_putIf fun hs => ?_)
  exact appends_container _ (by decide) <| finishes_bind (appends_putNumber _ _ _) <|
    finishes_bind (appends_attributePath _ _) <| finishes_last (hv (by simpa using hs))

/-- The bytes of the data of an event's report, for the bytes of its value. -/
def eventDataReportWire (rep : EventReport V) (value : List Byte) : List Byte :=
  containerWire .struct (contextTag tagEventReportData)
    (containerWire .list (contextTag tagEventDataPath) (eventPathFields { rep.path with isUrgent := false }) ++
      (uintWire (contextTag tagEventDataNumber) rep.number ++
        (fieldWire tagEventDataPriority rep.priority ++
          (uintWire (contextTag tagEventDataEpochTimestamp) rep.timestamp ++
            (optWire (!rep.data.isNull && rep.data.value.isSome) value)))))

/-- The bytes of an event's report, for the bytes of its value. -/
def eventReportWire (rep : EventReport V) (value : List Byte) : List Byte :=
  containerWire .struct anonymousTag
    (optWire rep.isStatus (reportStatusWire tagEventReportStatus
        (containerWire .list (contextTag tagEventStatusPath) (eventPathFields rep.path)) rep.status) ++
      (optWire (!rep.isStatus) (eventDataReportWire rep value)))

theorem appendsAny_eventReport {rep : EventReport V} {value : List Byte}
    (hv : rep.isStatus = false → (!rep.data.isNull && rep.data.value.isSome) = true →
      Appends (valueWriter · (contextTag tagEventDataData) rep.data) value) :
    AppendsAny (marshalEventReport valueWriter · rep) (eventReportWire rep value) := by
  refine appendsAny_container _ (by decide) (by decide) ?_
  refine finishes_bind (appends_putIf fun _ => appends_reportStatus _ _ (appends_eventPath _ _)) ?_
  refine finishes_last (appends_putIf fun hs => ?_)
  exact appends_container _ (by decide) <| finishes_bind (appends_eventPath _ _) <|
    finishes_bind (appends_putUint _ _) <| finishes_bind appends_field <|
    finishes_bind (appends_putUint _ _) <|
    finishes_last (appends_putIf (hv (by simpa using hs)))

/-- The flags, the revision and the end of a report. -/
def flagsWire (more suppress : Bool) : List Byte :=
  optWire more (headWire (boolType true) (contextTag tagReportMoreChunkedMessages)) ++
    (headWire (boolType suppress) (contextTag tagReportSuppressResponse) ++
      fieldWire tagInteractionModelRevision matterInteractionModelRevision)

theorem finishes_flags (rd : ReportData V) :
    Finishes rd.marshalFlags (flagsWire rd.moreChunkedMessages rd.suppressResponse) :=
  finishes_bind (appends_putIf fun _ => appends_putBool _ _) <| finishes_bind (appends_putBool _ _) <|
    finishes_last appends_field

/-- The bytes of a report, for the bytes of its entries. -/
def reportDataWire (rd : ReportData V) (report : AttributeReport V → List Byte) (event : EventReport V → List Byte) :
    List Byte :=
  containerWire .struct anonymousTag
    (optWire rd.hasSubscription
        (headWire .unsignedInt4 (contextTag tagReportSubscriptionID) ++ leBytes 4 rd.subscriptionID.toNat) ++
      (containerWire .array (contextTag tagReportAttributeReports) (rd.reports.flatMap report) ++
        (listWire tagReportEventReports event rd.eventReports ++
          flagsWire rd.moreChunkedMessages rd.suppressResponse)))

theorem appendsAny_reportData {rd : ReportData V} (report : AttributeReport V → List Byte)
    (event : EventReport V → List Byte)
    (hreport : ∀ rep ∈ rd.reports, AppendsAny (marshalAttributeReport valueWriter · rep) (report rep))
    (hevent : ∀ ev ∈ rd.eventReports, AppendsAny (marshalEventReport valueWriter · ev) (event ev)) :
    AppendsAny (rd.marshalTLV valueWriter) (reportDataWire rd report event) := by
  have h := appendsAny_container (t := .struct) anonymousTag (by decide) (by decide) <|
    finishes_bind (appends_putIf (c := rd.hasSubscription) fun _ =>
      appends_putNumber .unsignedInt4 (contextTag tagReportSubscriptionID) rd.subscriptionID) <|
    finishes_bind (appends_array (contextTag tagReportAttributeReports)
      (finishesAny_last (appendsAny_putAll hreport))) <|
    finishes_bind (appends_marshalList tagReportEventReports hevent) (finishes_flags rd)
  intro e
  refine Eq.trans ?_ (h e)
  simp only [ReportData.marshalTLV, ReportData.marshalReports, Encoder.startStruct, Encoder.startArray,
    Encoder.putUint32, bind_assoc, pure_bind]

end Reports

end GF.Proof.Im
