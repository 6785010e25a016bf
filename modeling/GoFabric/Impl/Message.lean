import GoFabric.Framework.Bytes

/-!
# The message header (`transport/message/message.go`)

The unencrypted header of a frame, the protocol header inside the encrypted
part, and their wire forms. A header that came off the wire keeps the bytes it
was read from (`raw`), which are what is authenticated.
-/

namespace GF.Impl.Message

def msgFlagVersionMask : Byte := 0xF0
def msgFlagVersion0 : Byte := 0x00
def msgFlagSourcePres : Byte := 0x04
def msgFlagDSizMask : Byte := 0x03

def secFlagSessionTypeMask : Byte := 0x03
def secFlagControl : Byte := 0x40
def secFlagPrivacy : Byte := 0x80
def secFlagExtensions : Byte := 0x20

/-- `DestSize`, a byte with three named values. -/
abbrev DestSize := BitVec 8

def DestSize.none : DestSize := 0b00
def DestSize.nodeID : DestSize := 0b01
def DestSize.group : DestSize := 0b10

/-- `SessionType`, a byte with two named values. -/
abbrev SessionType := BitVec 8

def SessionType.unsecured : SessionType := 0
def SessionType.group : SessionType := 1

structure Header where
  sessionID : BitVec 16
  messageCounter : BitVec 32
  hasSourceNodeID : Bool
  sourceNodeID : BitVec 64
  destSize : DestSize
  destNodeID : BitVec 64
  destGroupID : BitVec 16
  sessionType : SessionType
  privacy : Bool
  control : Bool
  hasExtension : Bool
  messageExtension : List Byte
  raw : List Byte
deriving DecidableEq

/-- The zero value of `Header`. -/
def Header.zero : Header :=
  { sessionID := 0, messageCounter := 0, hasSourceNodeID := false, sourceNodeID := 0, destSize := 0,
    destNodeID := 0, destGroupID := 0, sessionType := 0, privacy := false, control := false,
    hasExtension := false, messageExtension := [], raw := [] }

/-- The field that a buffer ends in, in the text of `ErrTruncated`. -/
inductive Field
  | sourceNodeID | destNodeID | destGroup
  | vendorID | protocolID | ackCounter
deriving DecidableEq

/-- The extension block that an error is about. -/
inductive Extension
  | message | secured
deriving DecidableEq

/-- The errors of the codec, with what their texts report. -/
inductive MessageError
  | headerTruncated (need got : Nat)
  | protocolHeaderTruncated (need got : Nat)
  | fieldTruncated (field : Field)
  | lengthPrefixTruncated (what : Extension)
  | unsupportedVersion (flags : Byte)
  | reservedDestSize (destSize : DestSize)
  | unsupportedSessionType (sessionType : SessionType)
  | controlMessage
  | unicastGroupDestination
  | noDestinationGroup
  | noSourceNode
  | unsecuredNodeIDs
  | extensionLength (what : Extension) (claims remaining : Nat)
  | groupHeader
  | encodeExtensions
deriving DecidableEq

def appendExtension (buf ext : List Byte) : List Byte := buf ++ leBytes 2 ext.length ++ ext

variable (h : Header)

def Header.securityFlags : Byte :=
  let secFlags := h.sessionType &&& secFlagSessionTypeMask
  let secFlags := if h.privacy then secFlags ||| secFlagPrivacy else secFlags
  let secFlags := if h.control then secFlags ||| secFlagControl else secFlags
  if h.hasExtension then secFlags ||| secFlagExtensions else secFlags

def Header.marshal : List Byte :=
  let flags := msgFlagVersion0
  let flags := if h.hasSourceNodeID then flags ||| msgFlagSourcePres else flags
  let flags := flags ||| (h.destSize &&& msgFlagDSizMask)
  let buf := [flags] ++ leBytes 2 h.sessionID.toNat ++ [h.securityFlags] ++ leBytes 4 h.messageCounter.toNat
  let buf := if h.hasSourceNodeID then buf ++ leBytes 8 h.sourceNodeID.toNat else buf
  let buf :=
    if h.destSize = .nodeID then buf ++ leBytes 8 h.destNodeID.toNat
    else if h.destSize = .group then buf ++ leBytes 2 h.destGroupID.toNat
    else buf
  if h.hasExtension then appendExtension buf h.messageExtension else buf

def Header.nonceSecurityFlags : Byte :=
  match h.raw[3]? with
  | some b => b
  | none => h.securityFlags

def Header.aad : List Byte := if h.raw.length > 0 then h.raw else h.marshal

/-! ## Decoding -/

/-- `readExtension`: the extension, and how many bytes it took. -/
def readExtension (buf : List Byte) (what : Extension) : Except MessageError (List Byte × Nat) :=
  if buf.length < 2 then .error (.lengthPrefixTruncated what)
  else
    let n := leNat (buf.take 2)
    if n > buf.length - 2 then .error (.extensionLength what n (buf.length - 2))
    else .ok ((buf.drop 2).take n, 2 + n)

/-- A little-endian number of `n` bytes at `pos`, behind its bounds check. -/
def readUint (field : Field) (n : Nat) (buf : List Byte) (pos : Nat) : Except MessageError (BitVec (8 * n)) :=
  if buf.length < pos + n then .error (.fieldTruncated field)
  else .ok (BitVec.ofNat (8 * n) (leNat ((buf.drop pos).take n)))

/-- The flags, the session and the counter that a header starts with. -/
def fixedHeader (buf : List Byte) : Header :=
  let flags := buf.getD 0 0
  let secFlags := buf.getD 3 0
  { Header.zero with
    sessionID := BitVec.ofNat 16 (leNat ((buf.drop 1).take 2))
    messageCounter := BitVec.ofNat 32 (leNat ((buf.drop 4).take 4))
    hasSourceNodeID := flags &&& msgFlagSourcePres != 0
    destSize := flags &&& msgFlagDSizMask
    sessionType := secFlags &&& secFlagSessionTypeMask
    privacy := secFlags &&& secFlagPrivacy != 0
    hasExtension := secFlags &&& secFlagExtensions != 0 }

/-- What `UnmarshalHeader` refuses in the fixed part, in its order. -/
def headerError (buf : List Byte) : Option MessageError :=
  let flags := buf.getD 0 0
  let h := fixedHeader buf
  if flags &&& msgFlagVersionMask ≠ msgFlagVersion0 then some (.unsupportedVersion flags)
  else if h.sessionType ≠ .unsecured ∧ h.sessionType ≠ .group then
    some (.unsupportedSessionType h.sessionType)
  else if buf.getD 3 0 &&& secFlagControl ≠ 0 then some .controlMessage
  else if h.sessionType = .unsecured ∧ h.destSize = .group then some .unicastGroupDestination
  else if h.sessionType = .unsecured ∧ h.sessionID = 0 ∧
      h.hasSourceNodeID = decide (h.destSize = .nodeID) then some .unsecuredNodeIDs
  else if h.sessionType = .group ∧ h.destSize ≠ .group then some .noDestinationGroup
  else if h.sessionType = .group ∧ ¬h.hasSourceNodeID then some .noSourceNode
  else none

/-- The source node id at `pos`, and the position behind it. -/
def readSource (buf : List Byte) (pos : Nat) : Except MessageError (Header × Nat) :=
  if h.hasSourceNodeID then do
    let v ← readUint .sourceNodeID 8 buf pos
    pure ({ h with sourceNodeID := v }, pos + 8)
  else .ok (h, pos)

/-- The destination at `pos`, and the position behind it. -/
def readDest (buf : List Byte) (pos : Nat) : Except MessageError (Header × Nat) :=
  if h.destSize = .none then .ok (h, pos)
  else if h.destSize = .nodeID then do
    let v ← readUint .destNodeID 8 buf pos
    pure ({ h with destNodeID := v }, pos + 8)
  else if h.destSize = .group then do
    let v ← readUint .destGroup 2 buf pos
    pure ({ h with destGroupID := v }, pos + 2)
  else .error (.reservedDestSize h.destSize)

/-- The message extensions at `pos`, and the position behind them. -/
def readMessageExtension (buf : List Byte) (pos : Nat) : Except MessageError (Header × Nat) :=
  if h.hasExtension then do
    let r ← readExtension (buf.drop pos) .message
    pure ({ h with messageExtension := r.1 }, pos + r.2)
  else .ok (h, pos)

/-- The fields that the flags announce, at `pos`, and the position behind
them. -/
def readAnnounced (buf : List Byte) (pos : Nat) : Except MessageError (Header × Nat) := do
  let r ← readSource h buf pos
  let r ← readDest r.1 buf r.2
  readMessageExtension r.1 buf r.2

/-- `UnmarshalHeader`: the header, and how many bytes it took. -/
def unmarshalHeader (buf : List Byte) : Except MessageError (Header × Nat) :=
  if buf.length < 8 then .error (.headerTruncated 8 buf.length)
  else
    match headerError buf with
    | some e => .error e
    | none => do
      let r ← readAnnounced (fixedHeader buf) buf 8
      pure ({ r.1 with raw := buf.take r.2 }, r.2)

/-! ## The protocol header -/

def exchFlagInitiator : Byte := 0x01
def exchFlagAck : Byte := 0x02
def exchFlagReliability : Byte := 0x04
def exchFlagSecuredExt : Byte := 0x08
def exchFlagVendor : Byte := 0x10

structure ProtocolHeader where
  initiator : Bool := false
  needsAck : Bool := false
  hasAck : Bool := false
  hasSecuredExt : Bool := false
  hasVendorID : Bool := false
  opcode : BitVec 8 := 0
  exchangeID : BitVec 16 := 0
  protocolID : BitVec 16 := 0
  vendorID : BitVec 16 := 0
  ackCounter : BitVec 32 := 0
  securedExtension : List Byte := []

/-- The exchange flags that `Marshal` writes. -/
def ProtocolHeader.flags (h : ProtocolHeader) : Byte :=
  (if h.initiator then exchFlagInitiator else 0) ||| (if h.hasAck then exchFlagAck else 0) |||
    (if h.needsAck then exchFlagReliability else 0) ||| (if h.hasSecuredExt then exchFlagSecuredExt else 0) |||
    (if h.hasVendorID then exchFlagVendor else 0)

def ProtocolHeader.marshal (h : ProtocolHeader) : List Byte :=
  let buf := [h.flags, h.opcode] ++ leBytes 2 h.exchangeID.toNat
  let buf := if h.hasVendorID then buf ++ leBytes 2 h.vendorID.toNat else buf
  let buf := buf ++ leBytes 2 h.protocolID.toNat
  let buf := if h.hasAck then buf ++ leBytes 4 h.ackCounter.toNat else buf
  if h.hasSecuredExt then appendExtension buf h.securedExtension else buf

/-- The flags, the opcode and the exchange that a protocol header starts
with. -/
def fixedProtocolHeader (buf : List Byte) : ProtocolHeader :=
  let flags := buf.getD 0 0
  { initiator := flags &&& exchFlagInitiator != 0
    needsAck := flags &&& exchFlagReliability != 0
    hasAck := flags &&& exchFlagAck != 0
    hasSecuredExt := flags &&& exchFlagSecuredExt != 0
    hasVendorID := flags &&& exchFlagVendor != 0
    opcode := buf.getD 1 0
    exchangeID := BitVec.ofNat 16 (leNat ((buf.drop 2).take 2)) }

/-- The vendor id at `pos`, and the position behind it. -/
def readVendorID (h : ProtocolHeader) (buf : List Byte) (pos : Nat) : Except MessageError (ProtocolHeader × Nat) :=
  if h.hasVendorID then do
    let v ← readUint .vendorID 2 buf pos
    pure ({ h with vendorID := v }, pos + 2)
  else .ok (h, pos)

/-- The acknowledged counter at `pos`, and the position behind it. -/
def readAckCounter (h : ProtocolHeader) (buf : List Byte) (pos : Nat) : Except MessageError (ProtocolHeader × Nat) :=
  if h.hasAck then do
    let v ← readUint .ackCounter 4 buf pos
    pure ({ h with ackCounter := v }, pos + 4)
  else .ok (h, pos)

/-- The secured extensions at `pos`, and the position behind them. -/
def readSecuredExtension (h : ProtocolHeader) (buf : List Byte) (pos : Nat) :
    Except MessageError (ProtocolHeader × Nat) :=
  if h.hasSecuredExt then do
    let r ← readExtension (buf.drop pos) .secured
    pure ({ h with securedExtension := r.1 }, pos + r.2)
  else .ok (h, pos)

/-- `UnmarshalProtocolHeader`: the header, and how many bytes it took. -/
def unmarshalProtocolHeader (buf : List Byte) : Except MessageError (ProtocolHeader × Nat) :=
  if buf.length < 4 then .error (.protocolHeaderTruncated 4 buf.length)
  else do
    let r ← readVendorID (fixedProtocolHeader buf) buf 4
    let protocolID ← readUint .protocolID 2 buf r.2
    let r ← readAckCounter { r.1 with protocolID := protocolID } buf (r.2 + 2)
    readSecuredExtension r.1 buf r.2

/-! ## Packets (`transport/message/packet.go`) -/

def Header.marshalPacket : Except MessageError (List Byte) :=
  if h.destSize > .group then .error (.reservedDestSize h.destSize)
  else if h.hasExtension ∨ h.messageExtension.length > 0 then .error .encodeExtensions
  else if h.sessionType = .group ∧ (h.destSize ≠ .group ∨ ¬h.hasSourceNodeID) then
    .error .groupHeader
  else if h.sessionType = .unsecured ∧ h.destSize = .group then .error .unicastGroupDestination
  else .ok h.marshal

end GF.Impl.Message
