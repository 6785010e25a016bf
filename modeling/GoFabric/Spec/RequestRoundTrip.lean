import GoFabric.Spec.Tlv
import GoFabric.Spec.UnknownFields

/-!
# Requests that survive the wire

A request is sent by its marshaller and read by the decoder of the same message
(`RoundTrips`). A has-flag that is not set guards a zero (`guards`), because its
field is not on the wire. The values of attributes and the fields of commands
are written and read by code that is plugged in; of it only that the reader
takes the one element that the writer wrote, and returns what was written
(`InvertsValue`, `InvertsFields`).
-/

namespace GF.Spec.RequestRoundTrip

open GF.Impl.Tlv GF.Impl.Im.Wire GF.Spec.Tlv
open GF.Impl.Im (StatusCode ConcreteAttributePath AttributeValue)

/-- A field without its has-flag is zero. -/
def guards {w : Nat} (has : Bool) (v : BitVec w) : Bool := has || v == 0

/-- The has-flags of an attribute path guard zeros, and an append has a list
index. -/
def attributePathGuarded (p : ConcreteAttributePath) : Bool :=
  guards p.hasNode p.node && guards p.hasEndpoint p.endpoint && guards p.hasCluster p.cluster &&
    guards p.hasAttribute p.attributeID && guards p.hasListIndex p.listIndex &&
    guards p.hasWildcardFilterConfigurationVersion p.wildcardFilterConfigurationVersion &&
    (!p.listAppend || p.hasListIndex)

/-- An append has no index: it is null on the wire. -/
def appendsAtNull (p : ConcreteAttributePath) : Bool := !p.listAppend || p.listIndex == 0

def eventPathGuarded (p : ConcreteEventPath) : Bool :=
  guards p.hasNode p.node && guards p.hasEndpoint p.endpoint && guards p.hasCluster p.cluster &&
    guards p.hasEvent p.event

def eventFilterGuarded (f : EventMinimumNumber) : Bool := guards f.hasNodeID f.nodeID

def commandPathGuarded (p : ConcreteCommandPath) : Bool :=
  guards p.hasEndpoint p.endpoint && guards p.hasCluster p.cluster && guards p.hasCommand p.command

section

variable {E V F : Type}

/-- The has-flags of a request guard zeros. -/
def readGuarded (r : ReadRequest) : Bool :=
  r.attributeRequests.all attributePathGuarded && r.eventRequests.all eventPathGuarded &&
    r.eventFilters.all eventFilterGuarded

def subscribeGuarded (r : SubscribeRequest) : Bool :=
  r.attributeRequests.all attributePathGuarded && r.eventRequests.all eventPathGuarded &&
    r.eventFilters.all eventFilterGuarded

def writeGuarded (r : WriteRequest V) : Bool :=
  r.writes.all fun w => attributePathGuarded w.path && guards w.hasDataVersion w.dataVersion

def invokeGuarded (r : InvokeRequest F) : Bool :=
  r.invokes.all fun inv => commandPathGuarded inv.path && guards inv.hasCommandRef inv.commandRef

/-- A command as a client sends it: its path names cluster and command, and no
status is decoded yet. -/
def commandSent (inv : CommandInvocation F) : Bool :=
  inv.path.hasCluster && inv.path.hasCommand && inv.decodeStatus == StatusCode.success

/-- `put` writes the elements `els` where a field may stand. -/
def WritesElements (put : Encoder → Option Encoder) (els : List Element) : Prop :=
  ∃ bs, (∀ e, e.containerStack.head? ≠ some .array → put e = some (e.append bs)) ∧ Spells bs els

/-- The reader returns the value that the writer wrote, and takes its element. -/
def InvertsValue (writer : AttributeValueWriter V) (read : AttributeValueReader E V) (path : ConcreteAttributePath)
    (v : AttributeValue V) : Prop :=
  ∃ el inner, el.tag = contextTag tagAttributeDataValue ∧ el.isEndContainer = false ∧
    WritesElements (writer · (contextTag tagAttributeDataValue) v) (el :: inner) ∧
    Answers (read path el) inner (.ok v)

/-- The same for the fields of a command, whatever the type of their element. -/
def InvertsFields (writer : CommandFieldsWriter F) (read : CommandFieldsReader E F) (path : ConcreteCommandPath)
    (f : Option F) (el : Element) : Prop :=
  el.tag = contextTag tagCmdDataFields ∧ el.isEndContainer = false ∧ ∃ inner,
    WritesElements (writer · (contextTag tagCmdDataFields) f) (el :: inner) ∧
    Answers (read path el) inner (.ok (.ok f))

/-- What `put` writes to a new encoder is decoded to `v`. -/
def RoundTrips {α ε : Type} (put : Encoder → Option Encoder) (decode : List Byte → Except ε α) (v : α) : Prop :=
  ∃ enc bs, put Encoder.new = some enc ∧ enc.bytes = .ok bs ∧ decode bs = .ok v

end

end GF.Spec.RequestRoundTrip
