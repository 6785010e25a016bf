import GoFabric.Framework.Brackets
import GoFabric.Impl.Im.Marshal
import GoFabric.Impl.Tlv.Decode

/-!
# Decoding Interaction Model requests (`im/read.go`, `im/subscribe.go`, `im/write.go`, `im/invoke.go`,
`im/timed.go`, `im/event_filter.go`, `im/event_report.go`, `im/field.go`)

The decoders call nothing of a `tlv.Decoder` but `Next`. They are parsers of the
elements that `Next` returns; `DecodeError.next` stands for the error that it
returns after them (`elements`). Errors keep the sentinel they wrap and the text
they report.
-/

namespace GF.Impl.Im.Wire

open GF.Impl.Tlv

/-! ## Elements -/

/-- The calls of `Next` on a buffer: the elements it returns, and the error
after them. An element takes at least one byte. -/
def elementsFrom : Nat → Decoder → List Element × TlvError
  | 0, _ => ([], .eof)
  | fuel + 1, d =>
    match Decoder.next d with
    | (.ok el, d') => (el :: (elementsFrom fuel d').1, (elementsFrom fuel d').2)
    | (.error e, _) => ([], e)

/-- The elements of a buffer, and the error after them. -/
def elements (data : List Byte) : List Element × TlvError := elementsFrom (data.length + 1) (Decoder.new data)

/-- Containers are brackets. -/
def containers : Brackets Element where
  opens := (·.isContainer)
  closes := (·.isEndContainer)

/-! ## Errors -/

/-- The sentinel errors of the decoders. -/
inductive ErrorClass
  | invalidPath
  | invalidReadRequest
  | invalidSubscribeRequest
  | invalidWriteRequest
  | invalidInvokeRequest
  | invalidTimedRequest

/-- The `Reason` of a `FieldError`. -/
inductive FieldReason
  | wrongType (type : ElementType) (want : String)
  | exceeds (v max : Nat)
  | text (s : String)

/-- The errors of the decoders; `E` are those of the readers plugged in. -/
inductive DecodeError (E : Type)
  | next
  | wrap (sentinel : ErrorClass) (what : String) (cause : DecodeError E)
  | text (sentinel : ErrorClass) (msg : String)
  | got (sentinel : ErrorClass) (msg : String) (type : ElementType)
  | field (status : StatusCode) (tag : BitVec 8) (reason : FieldReason)
  | missingField (tag : BitVec 8) (name : String)
  | status (msg : String) (status : StatusCode)
  | reader (e : E)

/-- What a decoder does with the elements ahead. -/
abbrev Decode (E α : Type) := Parser Element (DecodeError E) α

variable {E V F α β : Type}

/-! ## Fields -/

/-- The number of a context tag, as the decoders look at it. -/
def fieldTag (el : Element) : BitVec 8 := el.tag.number.setWidth 8

/-- The types of the unsigned integers. -/
def isUnsigned (el : Element) : Bool :=
  el.type == .unsignedInt1 || el.type == .unsignedInt2 || el.type == .unsignedInt4 || el.type == .unsignedInt8

/-- The types of the booleans. -/
def isBool (el : Element) : Bool := el.type == .boolFalse || el.type == .boolTrue

def boolField (el : Element) : Except (DecodeError E) Bool :=
  if isBool el then .ok el.bool
  else .error (.field .invalidAction (fieldTag el) (.wrongType el.type "a boolean"))

/-- `uintField`, of an integer type of `w` bits: `uint16Field`, `uint32Field` and
`uint64Field`. -/
def uintField (w : Nat) (el : Element) : Except (DecodeError E) (BitVec w) :=
  if isUnsigned el then
    if 2 ^ w ≤ el.uint.toNat then
      .error (.field .constraintError (fieldTag el) (.exceeds el.uint.toNat (2 ^ w - 1)))
    else .ok (el.uint.setWidth w)
  else .error (.field .invalidAction (fieldTag el) (.wrongType el.type "an unsigned integer"))

/-- A field read from its element alone. -/
def setField (r : Except (DecodeError E) α) (f : α → β) : Decode E β := Parser.ofExcept (r.map f)

def skipContainer : Decode E Unit := containers.skip .next

/-- `skipField`, and the same in place: a container is drained. -/
def skipField (el : Element) (s : α) : Decode E α :=
  if el.isContainer then do
    skipContainer
    pure s
  else pure s

/-- A container of type `t` is decoded, anything else is left to `other`. -/
def ifContainer (t : ElementType) (el : Element) (other p : Decode E α) : Decode E α :=
  if el.isContainer && el.type == t then p else other

/-- A container of type `t` is decoded, anything else is refused. -/
def inContainer (t : ElementType) (el : Element) (refused : DecodeError E) (p : Decode E α) : Decode E α :=
  ifContainer t el (Parser.fail refused) p

/-- A loop over the members of an open container. -/
def fieldLoop {σ : Type} (eof : DecodeError E) (finish : σ → Except (DecodeError E) α)
    (member : Element → σ → Decode E σ) : Loop Element (DecodeError E) σ α where
  eof := eof
  closes := (·.isEndContainer)
  finish := finish
  member := member

/-- The loop over the members of an array: those of type `t` are items, the
others are left to `other`. -/
def itemLoop (t : ElementType) (other : Element → List α → Decode E (List α)) (item : Decode E α) :
    Loop Element (DecodeError E) (List α) (List α) :=
  fieldLoop .next .ok fun el items =>
    ifContainer t el (other el items) do
      let a ← item
      pure (items ++ [a])

/-- The element of a member of the wrong type is refused. -/
def refuse (e : Element → DecodeError E) (el : Element) (_ : α) : Decode E α := Parser.fail (e el)

/-! ## Paths -/

def readAttributePathField (el : Element) (p : ConcreteAttributePath) : Decode E ConcreteAttributePath :=
  if el.tag.kind ≠ .context then skipField el p
  else if fieldTag el = tagAttrPathNode then
    setField (uintField 64 el) fun v => { p with node := v, hasNode := true }
  else if fieldTag el = tagAttrPathEndpoint then
    setField (uintField 16 el) fun v => { p with endpoint := v, hasEndpoint := true }
  else if fieldTag el = tagAttrPathCluster then
    setField (uintField 32 el) fun v => { p with cluster := v, hasCluster := true }
  else if fieldTag el = tagAttrPathAttribute then
    setField (uintField 32 el) fun v => { p with attributeID := v, hasAttribute := true }
  else if fieldTag el = tagAttrPathListIndex then
    if el.isNull then pure { p with hasListIndex := true, listAppend := true }
    else setField (uintField 16 el) fun v => { p with listIndex := v, hasListIndex := true }
  else if fieldTag el = tagAttrPathWildcardPathFlags then
    setField (uintField 32 el) fun v => { p with wildcardPathFlags := v }
  else if fieldTag el = tagAttrPathWildcardFilterCfgVer then
    setField (uintField 32 el) fun v =>
      { p with wildcardFilterConfigurationVersion := v, hasWildcardFilterConfigurationVersion := true }
  else skipField el p

/-- `readAttributePathFields`. -/
def attributePathLoop : Loop Element (DecodeError E) ConcreteAttributePath ConcreteAttributePath :=
  fieldLoop (.wrap .invalidPath "" .next) .ok fun el p =>
    (readAttributePathField el p).mapError (.wrap .invalidPath "")

def readAttributePathFields : Decode E ConcreteAttributePath := attributePathLoop.parser {}

/-- `readPathArray`. -/
def pathArrayLoop : Loop Element (DecodeError E) (List ConcreteAttributePath) (List ConcreteAttributePath) :=
  itemLoop .list (refuse fun el => .got .invalidPath "AttributePathIB not list" el.type) readAttributePathFields

def readPathArray : Decode E (List ConcreteAttributePath) := pathArrayLoop.parser []

/-- One field of `readEventPathFields`. -/
def readEventPathField (el : Element) (p : ConcreteEventPath) : Decode E ConcreteEventPath :=
  if el.tag.kind ≠ .context then skipField el p
  else if fieldTag el = tagEventPathNode then
    setField (uintField 64 el) fun v => { p with node := v, hasNode := true }
  else if fieldTag el = tagEventPathEndpoint then
    setField (uintField 16 el) fun v => { p with endpoint := v, hasEndpoint := true }
  else if fieldTag el = tagEventPathCluster then
    setField (uintField 32 el) fun v => { p with cluster := v, hasCluster := true }
  else if fieldTag el = tagEventPathEvent then
    setField (uintField 32 el) fun v => { p with event := v, hasEvent := true }
  else if fieldTag el = tagEventPathIsUrgent then pure { p with isUrgent := el.bool }
  else skipField el p

/-- `readEventPathFields`. -/
def eventPathLoop : Loop Element (DecodeError E) ConcreteEventPath ConcreteEventPath :=
  fieldLoop (.wrap .invalidPath "" .next) .ok fun el p => (readEventPathField el p).mapError (.wrap .invalidPath "")

def readEventPathFields : Decode E ConcreteEventPath := eventPathLoop.parser {}

/-- `readEventPathArray`. -/
def eventPathArrayLoop : Loop Element (DecodeError E) (List ConcreteEventPath) (List ConcreteEventPath) :=
  itemLoop .list (refuse fun el => .got .invalidPath "EventPathIB not list" el.type) readEventPathFields

def readEventPathArray : Decode E (List ConcreteEventPath) := eventPathArrayLoop.parser []

/-- One field of `readCommandPathFields`. -/
def readCommandPathField (el : Element) (p : ConcreteCommandPath) : Decode E ConcreteCommandPath :=
  if el.tag.kind ≠ .context then skipField el p
  else if fieldTag el = tagCmdPathEndpoint then
    setField (uintField 16 el) fun v => { p with endpoint := v, hasEndpoint := true }
  else if fieldTag el = tagCmdPathCluster then
    setField (uintField 32 el) fun v => { p with cluster := v, hasCluster := true }
  else if fieldTag el = tagCmdPathCommand then
    setField (uintField 32 el) fun v => { p with command := v, hasCommand := true }
  else skipField el p

/-- `readCommandPathFields`. -/
def commandPathLoop : Loop Element (DecodeError E) ConcreteCommandPath ConcreteCommandPath :=
  fieldLoop .next
    (fun p => if p.hasCluster && p.hasCommand then .ok p else .error (.text .invalidPath "missing cluster/command"))
    fun el p => (readCommandPathField el p).mapError (.wrap .invalidPath "")

def readCommandPathFields : Decode E ConcreteCommandPath := commandPathLoop.parser {}

/-! ## Filters -/

/-- What a loop has read, and which of the fields it has to see it has seen. -/
structure Seen (α : Type) where
  value : α
  seen : List (BitVec 8)

/-- `v` in place of the value. -/
def Seen.set (s : Seen α) (v : α) : Seen α := { s with value := v }

/-- `v` in place of the value, and the field `tag` is seen. -/
def Seen.mark (s : Seen α) (tag : BitVec 8) (v : α) : Seen α := { value := v, seen := tag :: s.seen }

/-- The value once all fields in the list are seen; the first that is not is
reported. -/
def Seen.require (s : Seen α) (wrap : DecodeError E → DecodeError E) :
    List (BitVec 8 × String) → Except (DecodeError E) α
  | [] => .ok s.value
  | (tag, name) :: fields => if s.seen.contains tag then s.require wrap fields else .error (wrap (.missingField tag name))

/-- One field of `readClusterPathFields`. -/
def readClusterPathField (el : Element) (s : Seen (BitVec 16 × BitVec 32)) :
    Decode E (Seen (BitVec 16 × BitVec 32)) :=
  if el.tag.kind ≠ .context then skipField el s
  else if fieldTag el = 1 then setField (uintField 16 el) fun v => s.mark 1 (v, s.value.2)
  else if fieldTag el = 2 then setField (uintField 32 el) fun v => s.mark 2 (s.value.1, v)
  else skipField el s

/-- `readClusterPathFields`. -/
def clusterPathLoop : Loop Element (DecodeError E) (Seen (BitVec 16 × BitVec 32)) (BitVec 16 × BitVec 32) :=
  fieldLoop .next (·.require id [(1, "ClusterPathIB.Endpoint"), (2, "ClusterPathIB.Cluster")]) readClusterPathField

def readClusterPathFields : Decode E (BitVec 16 × BitVec 32) := clusterPathLoop.parser ⟨(0, 0), []⟩

/-- One field of `readDataVersionFilterFields`. -/
def readDataVersionFilterField (el : Element) (s : Seen DataVersionFilter) : Decode E (Seen DataVersionFilter) :=
  if el.tag.kind ≠ .context then skipField el s
  else if fieldTag el = 0 then
    inContainer .list el (.field .invalidAction 0 (.text "ClusterPathIB not a list")) do
      let path ← readClusterPathFields
      pure (s.mark 0 { s.value with endpoint := path.1, cluster := path.2 })
  else if fieldTag el = 1 then setField (uintField 32 el) fun v => s.mark 1 { s.value with dataVersion := v }
  else skipField el s

/-- `readDataVersionFilterFields`. -/
def dataVersionFilterLoop : Loop Element (DecodeError E) (Seen DataVersionFilter) DataVersionFilter :=
  fieldLoop .next (·.require id [(0, "DataVersionFilterIB.Path"), (1, "DataVersionFilterIB.DataVersion")])
    readDataVersionFilterField

def readDataVersionFilterFields : Decode E DataVersionFilter := dataVersionFilterLoop.parser ⟨⟨0, 0, 0⟩, []⟩

/-- `readDataVersionFilterArray`: a member that is not a structure is passed
over, and a container is not drained. -/
def dataVersionFilterArrayLoop : Loop Element (DecodeError E) (List DataVersionFilter) (List DataVersionFilter) :=
  itemLoop .struct (fun _ filters => pure filters) readDataVersionFilterFields

def readDataVersionFilterArray : Decode E (List DataVersionFilter) := dataVersionFilterArrayLoop.parser []

/-- One field of `readEventFilterFields`. -/
def readEventFilterField (el : Element) (s : Seen EventMinimumNumber) : Decode E (Seen EventMinimumNumber) :=
  if el.tag.kind ≠ .context then skipField el s
  else if fieldTag el = tagEventFilterNodeID then
    setField (uintField 64 el) fun v => s.set { s.value with nodeID := v, hasNodeID := true }
  else if fieldTag el = tagEventFilterEventMin then
    setField (uintField 64 el) fun v => s.mark tagEventFilterEventMin { s.value with eventMin := v }
  else skipField el s

/-- `readEventFilterFields`. -/
def eventFilterLoop : Loop Element (DecodeError E) (Seen EventMinimumNumber) EventMinimumNumber :=
  fieldLoop .next (·.require id [(tagEventFilterEventMin, "EventFilterIB.EventMin")]) readEventFilterField

def readEventFilterFields : Decode E EventMinimumNumber := eventFilterLoop.parser ⟨{}, []⟩

/-- `readEventFilterArray`: a member that is not a structure is skipped. -/
def eventFilterArrayLoop : Loop Element (DecodeError E) (List EventMinimumNumber) (List EventMinimumNumber) :=
  itemLoop .struct skipField readEventFilterFields

def readEventFilterArray : Decode E (List EventMinimumNumber) := eventFilterArrayLoop.parser []

/-! ## Messages -/

/-- The opening of a message, and what follows. -/
def openStruct (sentinel : ErrorClass) (body : Decode E α) : Decode E α := do
  let el ← Parser.next .next
  inContainer .struct el (.got sentinel "expected struct" el.type) body

/-- One field of `UnmarshalReadRequestTLV`. -/
def readRequestField (el : Element) (s : Seen ReadRequest) : Decode E (Seen ReadRequest) :=
  if el.tag.kind ≠ .context then pure s
  else if fieldTag el = tagReadReqAttributeRequests then
    inContainer .array el (.text .invalidReadRequest "AttributeRequests not array") do
      let paths ← readPathArray
      pure (s.set { s.value with attributeRequests := paths })
  else if fieldTag el = tagReadReqEventRequests then
    inContainer .array el (.text .invalidReadRequest "EventRequests not array") do
      let paths ← readEventPathArray
      pure (s.set { s.value with eventRequests := paths })
  else if fieldTag el = tagReadReqEventFilters then
    ifContainer .array el (skipField el s) do
      let filters ← readEventFilterArray
      pure (s.set { s.value with eventFilters := filters })
  else if fieldTag el = tagReadReqFabricFiltered then
    (setField (boolField el) fun v =>
      s.mark tagReadReqFabricFiltered { s.value with fabricFiltered := v }).mapError (.wrap .invalidReadRequest "")
  else if fieldTag el = tagReadReqDataVersionFilters then
    inContainer .array el (.text .invalidReadRequest "DataVersionFilters not array") do
      let filters ← readDataVersionFilterArray
      pure (s.set { s.value with dataVersionFilters := filters })
  else skipField el s

def readRequestLoop : Loop Element (DecodeError E) (Seen ReadRequest) ReadRequest :=
  fieldLoop (.wrap .invalidReadRequest "" .next)
    (·.require (.wrap .invalidReadRequest "") [(tagReadReqFabricFiltered, "IsFabricFiltered")]) readRequestField

def unmarshalReadRequestTLV : Decode E ReadRequest :=
  openStruct .invalidReadRequest (readRequestLoop.parser ⟨{}, []⟩)

/-- One field of `UnmarshalSubscribeRequestTLV`. -/
def subscribeRequestField (el : Element) (s : Seen SubscribeRequest) : Decode E (Seen SubscribeRequest) :=
  if el.tag.kind ≠ .context then pure s
  else if fieldTag el = tagSubReqKeepSubscriptions then
    (setField (boolField el) fun v =>
      s.mark tagSubReqKeepSubscriptions { s.value with keepSubscriptions := v }).mapError
        (.wrap .invalidSubscribeRequest "")
  else if fieldTag el = tagSubReqMinIntervalFloor then
    (setField (uintField 16 el) fun v =>
      s.mark tagSubReqMinIntervalFloor { s.value with minIntervalFloor := v }).mapError
        (.wrap .invalidSubscribeRequest "")
  else if fieldTag el = tagSubReqMaxIntervalCeiling then
    (setField (uintField 16 el) fun v =>
      s.mark tagSubReqMaxIntervalCeiling { s.value with maxIntervalCeiling := v }).mapError
        (.wrap .invalidSubscribeRequest "")
  else if fieldTag el = tagSubReqAttributeRequests then
    inContainer .array el (.text .invalidSubscribeRequest "AttributeRequests not array") do
      let paths ← readPathArray
      pure (s.set { s.value with attributeRequests := paths })
  else if fieldTag el = tagSubReqEventRequests then
    inContainer .array el (.text .invalidSubscribeRequest "EventRequests not array") do
      let paths ← readEventPathArray
      pure (s.set { s.value with eventRequests := paths })
  else if fieldTag el = tagSubReqEventFilters then
    ifContainer .array el (skipField el s) do
      let filters ← readEventFilterArray
      pure (s.set { s.value with eventFilters := filters })
  else if fieldTag el = tagSubReqFabricFiltered then
    (setField (boolField el) fun v =>
      s.mark tagSubReqFabricFiltered { s.value with fabricFiltered := v }).mapError (.wrap .invalidSubscribeRequest "")
  else if fieldTag el = tagSubReqDataVersionFilters then
    inContainer .array el (.text .invalidSubscribeRequest "DataVersionFilters not array") do
      let filters ← readDataVersionFilterArray
      pure (s.set { s.value with dataVersionFilters := filters })
  else skipField el s

def subscribeRequestLoop : Loop Element (DecodeError E) (Seen SubscribeRequest) SubscribeRequest :=
  fieldLoop (.wrap .invalidSubscribeRequest "" .next)
    (·.require (.wrap .invalidSubscribeRequest "") [(tagSubReqKeepSubscriptions, "KeepSubscriptions"),
      (tagSubReqMinIntervalFloor, "MinIntervalFloor"), (tagSubReqMaxIntervalCeiling, "MaxIntervalCeiling"),
      (tagSubReqFabricFiltered, "IsFabricFiltered")])
    subscribeRequestField

def unmarshalSubscribeRequestTLV : Decode E SubscribeRequest :=
  openStruct .invalidSubscribeRequest (subscribeRequestLoop.parser ⟨{}, []⟩)

/-- `AttributeValueReader`: the path, the value's first element, and what it
reads behind that. -/
abbrev AttributeValueReader (E V : Type) := ConcreteAttributePath → Element → Parser Element E (AttributeValue V)

section

variable (valueReader : Option (AttributeValueReader E V))

/-- One field of `readAttributeData`: neither a foreign nor an unknown field is
drained. -/
def attributeDataField (el : Element) (w : AttributeWrite V) : Decode E (AttributeWrite V) :=
  if el.tag.kind ≠ .context then pure w
  else if fieldTag el = tagAttributeDataDataVersion then
    (setField (uintField 32 el) fun v => { w with dataVersion := v, hasDataVersion := true }).mapError
      (.wrap .invalidWriteRequest "DataVersion")
  else if fieldTag el = tagAttributeDataPath then
    inContainer .list el (.text .invalidWriteRequest "path not list") do
      let p ← readAttributePathFields
      pure { w with path := p }
  else if fieldTag el = tagAttributeDataValue then
    match valueReader with
    | none => (skipField el w).mapError (.wrap .invalidWriteRequest "drain value")
    | some read => do
      let v ← (read w.path el).mapError (.wrap .invalidWriteRequest "value" ∘ .reader)
      pure { w with value := v }
  else pure w

/-- `readAttributeData`. -/
def attributeDataLoop : Loop Element (DecodeError E) (AttributeWrite V) (AttributeWrite V) :=
  fieldLoop .next .ok (attributeDataField valueReader)

def readAttributeData : Decode E (AttributeWrite V) := (attributeDataLoop valueReader).parser {}

/-- `readAttributeWrites`. -/
def attributeWritesLoop : Loop Element (DecodeError E) (List (AttributeWrite V)) (List (AttributeWrite V)) :=
  itemLoop .struct (refuse fun _ => .text .invalidWriteRequest "AttributeDataIB not struct")
    (readAttributeData valueReader)

def readAttributeWrites : Decode E (List (AttributeWrite V)) := (attributeWritesLoop valueReader).parser []

/-- One field of `UnmarshalWriteRequestTLV`. -/
def writeRequestField (el : Element) (req : WriteRequest V) : Decode E (WriteRequest V) :=
  if el.tag.kind ≠ .context then pure req
  else if fieldTag el = tagWriteReqSuppressResponse then
    if isBool el then pure { req with suppressResponse := el.bool }
    else Parser.fail (.text .invalidWriteRequest "SuppressResponse not a boolean")
  else if fieldTag el = tagWriteReqTimedRequest then pure { req with timedRequest := el.bool }
  else if fieldTag el = tagWriteReqMoreChunked then pure { req with moreChunkedMessages := el.bool }
  else if fieldTag el = tagWriteReqWriteRequests then
    inContainer .array el (.text .invalidWriteRequest "WriteRequests not array") do
      let ws ← readAttributeWrites valueReader
      pure { req with writes := ws }
  else skipField el req

def writeRequestLoop : Loop Element (DecodeError E) (WriteRequest V) (WriteRequest V) :=
  fieldLoop (.wrap .invalidWriteRequest "" .next) .ok (writeRequestField valueReader)

def unmarshalWriteRequestTLV : Decode E (WriteRequest V) :=
  openStruct .invalidWriteRequest ((writeRequestLoop valueReader).parser {})

end

/-- The value of one field of `readDelayReportData`. -/
def delayReportValue (el : Element) (d : DelayReportData) : Except (DecodeError E) DelayReportData :=
  if el.tag.kind ≠ .context ∨ 1 < el.tag.number.toNat then .ok d
  else if !isUnsigned el then
    .error (.status "im: invalid InvokeRequest: DelayReportData field is not an unsigned integer"
      .invalidAction)
  else if 0xFFFF < el.uint.toNat then
    .error (.status "im: invalid InvokeRequest: DelayReportData field exceeds uint16" .constraintError)
  else if el.tag.number = 0 then .ok { d with delayMinMs := el.uint.setWidth 16 }
  else .ok { d with delayJitterWindowMs := el.uint.setWidth 16 }

/-- One field of `readDelayReportData`. -/
def delayReportDataField (el : Element) (d : DelayReportData) : Decode E DelayReportData := do
  skipField el ()
  Parser.ofExcept (delayReportValue el d)

def delayReportDataLoop : Loop Element (DecodeError E) DelayReportData DelayReportData :=
  fieldLoop (.wrap .invalidInvokeRequest "DelayReportData" .next) .ok delayReportDataField

def readDelayReportData (el : Element) : Decode E DelayReportData :=
  inContainer .struct el (.status "im: invalid InvokeRequest: DelayReportData not a structure" .invalidAction)
    (delayReportDataLoop.parser {})

/-- The error of a `CommandFieldsReader`: its status, if it is a
`StatusCodeError`, and whether it says that the container is consumed. -/
structure FieldsReject (E : Type) where
  err : E
  status : Option StatusCode
  fieldsContainerConsumed : Bool

/-- `CommandFieldsReader`: an error, too, leaves the decoder somewhere. -/
abbrev CommandFieldsReader (E F : Type) :=
  ConcreteCommandPath → Element → Parser Element Empty (Except (FieldsReject E) (Option F))

section

variable (fieldsReader : Option (CommandFieldsReader E F))

/-- `readCommandFields`, on what the reader returned. -/
def afterFields (el : Element) (inv : CommandInvocation F) :
    Except (FieldsReject E) (Option F) → Decode E (CommandInvocation F)
  | .ok f => pure { inv with fields := f }
  | .error r =>
    match r.status with
    | none => Parser.fail (.wrap .invalidInvokeRequest "fields" (.reader r.err))
    | some status =>
      if status.isSuccess then Parser.fail (.wrap .invalidInvokeRequest "fields" (.reader r.err))
      else if el.isContainer && !r.fieldsContainerConsumed then
        (do skipContainer
            pure { inv with fields := none, decodeStatus := status } : Decode E (CommandInvocation F)).mapError
          (.wrap .invalidInvokeRequest "fields")
      else pure { inv with fields := none, decodeStatus := status }

def readCommandFields (el : Element) (inv : CommandInvocation F) : Decode E (CommandInvocation F) :=
  match fieldsReader with
  | none => (skipField el inv).mapError (.wrap .invalidInvokeRequest "skip fields")
  | some read =>
    if el.isContainer && el.type == .struct then do
      let r ← (read inv.path el).mapError Empty.elim
      afterFields el inv r
    else
      (skipField el { inv with fields := none, decodeStatus := .invalidCommand }).mapError
        (.wrap .invalidInvokeRequest "fields")

/-- One field of `readCommandInvocation`: neither a foreign nor an unknown field
is drained. -/
def commandInvocationField (el : Element) (inv : CommandInvocation F) : Decode E (CommandInvocation F) :=
  if el.tag.kind ≠ .context then pure inv
  else if fieldTag el = tagCmdDataPath then
    inContainer .list el (.text .invalidInvokeRequest "CommandPathIB not list") do
      let p ← readCommandPathFields
      pure { inv with path := p }
  else if fieldTag el = tagCmdDataFields then readCommandFields fieldsReader el inv
  else if fieldTag el = tagCmdDataRef then
    (setField (uintField 16 el) fun v => { inv with commandRef := v, hasCommandRef := true }).mapError
      (.wrap .invalidInvokeRequest "CommandRef")
  else pure inv

/-- `readCommandInvocation`. -/
def commandInvocationLoop : Loop Element (DecodeError E) (CommandInvocation F) (CommandInvocation F) :=
  fieldLoop .next .ok (commandInvocationField fieldsReader)

def readCommandInvocation : Decode E (CommandInvocation F) := (commandInvocationLoop fieldsReader).parser {}

/-- `readCommandData`. -/
def commandDataLoop : Loop Element (DecodeError E) (List (CommandInvocation F)) (List (CommandInvocation F)) :=
  itemLoop .struct (refuse fun _ => .text .invalidInvokeRequest "CommandDataIB not struct")
    (readCommandInvocation fieldsReader)

def readCommandData : Decode E (List (CommandInvocation F)) := (commandDataLoop fieldsReader).parser []

/-- One field of `UnmarshalInvokeRequestTLV`. -/
def invokeRequestField (el : Element) (req : InvokeRequest F) : Decode E (InvokeRequest F) :=
  if el.tag.kind ≠ .context then pure req
  else if fieldTag el = tagInvokeReqSuppressResponse then
    if isBool el then pure { req with suppressResponse := el.bool }
    else Parser.fail (.text .invalidInvokeRequest "SuppressResponse not a boolean")
  else if fieldTag el = tagInvokeReqTimedRequest then pure { req with timedRequest := el.bool }
  else if fieldTag el = tagInvokeReqInvokeRequests then
    inContainer .array el (.text .invalidInvokeRequest "InvokeRequests not array") do
      let invokes ← readCommandData fieldsReader
      pure { req with invokes := invokes }
  else if fieldTag el = tagInvokeReqDelayReportData then do
    let d ← readDelayReportData el
    pure { req with delayReportData := some d }
  else if fieldTag el = tagInteractionModelRevision then
    if isUnsigned el && decide (el.uint.toNat ≤ 0xFF) then
      pure { req with interactionModelRevision := el.uint.setWidth 8 }
    else pure req
  else skipField el req

def invokeRequestLoop : Loop Element (DecodeError E) (InvokeRequest F) (InvokeRequest F) :=
  fieldLoop (.wrap .invalidInvokeRequest "" .next) .ok (invokeRequestField fieldsReader)

def unmarshalInvokeRequestTLV : Decode E (InvokeRequest F) :=
  openStruct .invalidInvokeRequest ((invokeRequestLoop fieldsReader).parser {})

end

/-- One field of `UnmarshalTimedRequestTLV`: neither a foreign nor an unknown
field is drained. -/
def timedRequestField (el : Element) (s : Seen TimedRequest) : Decode E (Seen TimedRequest) :=
  if el.tag.kind ≠ .context then pure s
  else if fieldTag el = tagTimedReqTimeout then
    (setField (uintField 16 el) fun v => s.mark tagTimedReqTimeout { timeoutMs := v }).mapError
      (.wrap .invalidTimedRequest "")
  else pure s

def timedRequestLoop : Loop Element (DecodeError E) (Seen TimedRequest) TimedRequest :=
  fieldLoop (.wrap .invalidTimedRequest "" .next)
    (·.require (.wrap .invalidTimedRequest "") [(tagTimedReqTimeout, "Timeout")]) timedRequestField

def unmarshalTimedRequestTLV : Decode E TimedRequest := do
  let el ← Parser.next (.wrap .invalidTimedRequest "top" .next)
  if el.type ≠ .struct then Parser.fail (.text .invalidTimedRequest "top must be Structure")
  else timedRequestLoop.parser ⟨{}, []⟩

end GF.Impl.Im.Wire
