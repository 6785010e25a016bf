import GoFabric.Impl.Im.Unmarshal

/-!
# Unknown fields of a request

The places of a request where a field may stand are the blocks of its grammar:
the outer structure, and the information blocks inside it. A block reads some
context tags (`knows`), enters the containers that are blocks themselves
(`child`), and consumes others as a whole (`drains`). An element that a block
does not know may be added to it (`Inserted`) wherever the elements before it
are such that the decoder is still in step with the containers (`InStep`).
-/

namespace GF.Spec.UnknownFields

open GF.Impl.Tlv GF.Impl.Im.Wire
open GF.Impl.Im (ConcreteAttributePath DataVersionFilter)

/-- The blocks of the requests. -/
inductive Block
  | readRequest | subscribeRequest | writeRequest | invokeRequest | timedRequest
  | attributePaths | attributePath | eventPaths | eventPath | eventFilters | eventFilter
  | dataVersionFilters | dataVersionFilter | clusterPath
  | attributeWrites | attributeData | commandData | commandInvocation | commandPath | delayReportData
deriving DecidableEq

/-- `el` is a field with this context tag. -/
def isField (el : Element) (tag : BitVec 8) : Bool := el.tag.kind == .context && fieldTag el == tag

/-- `el` opens a container of type `t`. -/
def opens (t : ElementType) (el : Element) : Bool := el.isContainer && el.type == t

namespace Block

/-- The blocks inside a block: the tag of a field, or `none` for a member of an
array, and the type of the container. -/
@[simp] def children : Block → List (Option (BitVec 8) × ElementType × Block)
  | .readRequest =>
    [(some tagReadReqAttributeRequests, .array, .attributePaths), (some tagReadReqEventRequests, .array, .eventPaths),
      (some tagReadReqEventFilters, .array, .eventFilters),
      (some tagReadReqDataVersionFilters, .array, .dataVersionFilters)]
  | .subscribeRequest =>
    [(some tagSubReqAttributeRequests, .array, .attributePaths), (some tagSubReqEventRequests, .array, .eventPaths),
      (some tagSubReqEventFilters, .array, .eventFilters),
      (some tagSubReqDataVersionFilters, .array, .dataVersionFilters)]
  | .writeRequest => [(some tagWriteReqWriteRequests, .array, .attributeWrites)]
  | .invokeRequest =>
    [(some tagInvokeReqInvokeRequests, .array, .commandData),
      (some tagInvokeReqDelayReportData, .struct, .delayReportData)]
  | .attributePaths => [(none, .list, .attributePath)]
  | .eventPaths => [(none, .list, .eventPath)]
  | .eventFilters => [(none, .struct, .eventFilter)]
  | .dataVersionFilters => [(none, .struct, .dataVersionFilter)]
  | .dataVersionFilter => [(some 0, .list, .clusterPath)]
  | .attributeWrites => [(none, .struct, .attributeData)]
  | .attributeData => [(some tagAttributeDataPath, .list, .attributePath)]
  | .commandData => [(none, .struct, .commandInvocation)]
  | .commandInvocation => [(some tagCmdDataPath, .list, .commandPath)]
  | .timedRequest | .attributePath | .eventPath | .eventFilter | .clusterPath | .commandPath | .delayReportData => []

/-- The block that a container opens inside a block. -/
def child (b : Block) (el : Element) : Option Block :=
  ((b.children.filter (·.1.all (isField el))).find? (opens ·.2.1 el)).map (·.2.2)

/-- The context tags that a block reads. -/
def knownTags : Block → List (BitVec 8)
  | .readRequest => [0, 1, 2, 3, 4]
  | .subscribeRequest => [0, 1, 2, 3, 4, 5, 7, 8]
  | .writeRequest => [0, 1, 2, 3]
  | .invokeRequest => [0, 1, 2, 3, 0xFF]
  | .timedRequest => [0, 0xFF]
  | .attributePath => [1, 2, 3, 4, 5, 6, 7]
  | .eventPath => [0, 1, 2, 3, 4]
  | .eventFilter => [0, 1]
  | .dataVersionFilter => [0, 1]
  | .clusterPath => [1, 2]
  | .attributeData => [0, 1, 2]
  | .commandInvocation => [0, 1, 2]
  | .commandPath => [0, 1, 2]
  | .delayReportData => [0, 1]
  | .attributePaths | .eventPaths | .eventFilters | .dataVersionFilters | .attributeWrites | .commandData => []

/-- The block reads the field. -/
def knows (b : Block) (el : Element) : Bool := b.knownTags.any (isField el)

/-- A block that fields may be added to: not an array. -/
def hasFields : Block → Bool
  | .attributePaths | .eventPaths | .eventFilters | .dataVersionFilters | .attributeWrites | .commandData => false
  | _ => true

/-- The block consumes a container that it does not enter as a whole, or refuses
it. -/
@[simp] def drains (b : Block) (el : Element) : Bool :=
  match b with
  | .readRequest | .subscribeRequest => el.tag.kind == .context
  | .writeRequest =>
    el.tag.kind == .context && !isField el tagWriteReqTimedRequest && !isField el tagWriteReqMoreChunked
  | .invokeRequest =>
    el.tag.kind == .context && !isField el tagInvokeReqTimedRequest && !isField el tagInteractionModelRevision
  | .timedRequest => isField el tagTimedReqTimeout
  | .attributeData | .commandInvocation => b.knows el
  | .eventPath => !isField el tagEventPathIsUrgent
  | .dataVersionFilters => false
  | _ => true

end Block

/-- Complete elements of a block after which its decoder is in step: each is a
scalar, or a container that the block drains, or one that it enters and stays in
step in. -/
inductive InStep : Block → List Element → Prop
  | nil {b} : InStep b []
  | scalar {b el rest} : el.isContainer = false → el.isEndContainer = false → InStep b rest → InStep b (el :: rest)
  | drained {b el inner c rest} : el.isContainer = true → el.isEndContainer = false →
      b.child el = none → b.drains el = true → containers.Closes 0 inner → c.isContainer = false →
      c.isEndContainer = true → InStep b rest → InStep b (el :: (inner ++ c :: rest))
  | entered {b b' el inner c rest} : el.isEndContainer = false → b.child el = some b' → InStep b' inner →
      c.isContainer = false → c.isEndContainer = true → InStep b rest → InStep b (el :: (inner ++ c :: rest))

/-- `x` is added to a block `target`, somewhere in the block `b`; what follows is
arbitrary. -/
inductive Inserted (x : List Element) (target : Block) : Block → List Element → List Element → Prop
  | here {before after} : InStep target before → Inserted x target target (before ++ after) (before ++ (x ++ after))
  | within {b b' el before after after'} : InStep b before → el.isEndContainer = false → b.child el = some b' →
      Inserted x target b' after after' → Inserted x target b (before ++ el :: after) (before ++ el :: after')

/-- `x` is one complete element that starts with `el`. -/
inductive Complete : Element → List Element → Prop
  | scalar {el} : el.isContainer = false → el.isEndContainer = false → Complete el [el]
  | container {el inner c} : el.isContainer = true → el.isEndContainer = false → containers.Closes 0 inner →
      c.isContainer = false → c.isEndContainer = true → Complete el (el :: (inner ++ [c]))

/-! ## Decoders -/

/-- The requests. -/
inductive Request
  | read | subscribe | write | invoke | timed

/-- The outer structure of a request. -/
def Request.block : Request → Block
  | .read => .readRequest
  | .subscribe => .subscribeRequest
  | .write => .writeRequest
  | .invoke => .invokeRequest
  | .timed => .timedRequest

/-- The blocks of a request that fields may be added to: the outer structure and
the information blocks inside it. -/
def Request.blocks : Request → List Block
  | .read => [.readRequest, .attributePath, .eventPath, .eventFilter, .dataVersionFilter, .clusterPath]
  | .subscribe => [.subscribeRequest, .attributePath, .eventPath, .eventFilter, .dataVersionFilter, .clusterPath]
  | .write => [.writeRequest, .attributeData, .attributePath]
  | .invoke => [.invokeRequest, .commandInvocation, .commandPath, .delayReportData]
  | .timed => [.timedRequest]

/-- What a block decodes to. -/
abbrev Block.Result (V F : Type) : Block → Type
  | .readRequest => ReadRequest
  | .subscribeRequest => SubscribeRequest
  | .writeRequest => WriteRequest V
  | .invokeRequest => InvokeRequest F
  | .timedRequest => TimedRequest
  | .attributePaths => List ConcreteAttributePath
  | .attributePath => ConcreteAttributePath
  | .eventPaths => List ConcreteEventPath
  | .eventPath => ConcreteEventPath
  | .eventFilters => List EventMinimumNumber
  | .eventFilter => EventMinimumNumber
  | .dataVersionFilters => List DataVersionFilter
  | .dataVersionFilter => DataVersionFilter
  | .clusterPath => BitVec 16 × BitVec 32
  | .attributeWrites => List (AttributeWrite V)
  | .attributeData => AttributeWrite V
  | .commandData => List (CommandInvocation F)
  | .commandInvocation => CommandInvocation F
  | .commandPath => ConcreteCommandPath
  | .delayReportData => DelayReportData

variable {E V F : Type}

/-- The decoders of the requests. -/
def Request.unmarshal (valueReader : Option (AttributeValueReader E V)) (fieldsReader : Option (CommandFieldsReader E F)) :
    (k : Request) → Decode E (k.block.Result V F)
  | .read => unmarshalReadRequestTLV
  | .subscribe => unmarshalSubscribeRequestTLV
  | .write => unmarshalWriteRequestTLV valueReader
  | .invoke => unmarshalInvokeRequestTLV fieldsReader
  | .timed => unmarshalTimedRequestTLV

/-- What a request's bytes decode to. -/
def Request.decode (valueReader : Option (AttributeValueReader E V)) (fieldsReader : Option (CommandFieldsReader E F))
    (k : Request) (data : List Byte) : Except (DecodeError E) (k.block.Result V F) :=
  ((k.unmarshal valueReader fieldsReader).run (elements data).1).map Prod.fst

/-- Adding `x` to a block of a request changes no message that is accepted. -/
def Ignored (valueReader : Option (AttributeValueReader E V)) (fieldsReader : Option (CommandFieldsReader E F))
    (k : Request) (b : Block) (x : List Element) : Prop :=
  ∀ data data' o r r', (elements data).1 = o :: r → (elements data').1 = o :: r' → Inserted x b k.block r r' →
    ∀ v, k.decode valueReader fieldsReader data = .ok v → k.decode valueReader fieldsReader data' = .ok v

/-- The contract of `AttributeValueReader`: a reader takes the elements of its
value and no others, and looks at nothing behind them. -/
def ReadsValue (read : AttributeValueReader E V) : Prop :=
  ∀ path el, (el.isContainer = false → Decides (read path el) []) ∧
    (el.isContainer = true → ∀ inner c, containers.Closes 0 inner → c.isContainer = false → c.isEndContainer = true →
      Decides (read path el) (inner ++ [c]))

/-- The contract of `CommandFieldsReader`: a reader takes the elements of the
fields and no others; on a typed error it may stop between two fields, unless it
says that the container is consumed, and on another error anywhere. -/
def ReadsFields (read : CommandFieldsReader E F) : Prop :=
  ∀ path el inner c, containers.Closes 0 inner → c.isContainer = false → c.isEndContainer = true →
    (∃ r, (∀ reject, r = .error reject → reject.fieldsContainerConsumed = true) ∧
      Answers (read path el) (inner ++ [c]) (.ok r)) ∨
    ∃ reject : FieldsReject E,
      (reject.fieldsContainerConsumed = false ∧ ∃ left, containers.Closes 0 left ∧
        ∀ rest, (read path el).run (inner ++ [c] ++ rest) = .ok (.error reject, left ++ [c] ++ rest)) ∨
      (reject.status.all (·.isSuccess) = true ∧
        ∀ rest, ∃ left, (read path el).run (inner ++ [c] ++ rest) = .ok (.error reject, left))

end GF.Spec.UnknownFields
