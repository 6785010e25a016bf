import GoFabric.Framework.Bytes

/-!
# BTP packets (`transport/btp/codec.go`, `transport/btp/consts.go`)
-/

namespace GF.Impl.Btp

def minimumATTMTU : Nat := 20
def maximumBTPMTU : Nat := 244
def maximumWindowSize : Nat := 255
def windowNoAckSendThreshold : Int := 1
def immediateAckWindowThreshold : Int := 2

/-- The texts of `ProtocolError`, with the values they report. -/
inductive ProtocolError
  -- EncodePacket
  | encodeHandshake
  | ackNotFlagged
  | ackMissing
  | beginningAndContinuing
  | endingAlone
  | payloadMissing
  | messageLengthMissing
  | messageLengthNotFlagged
  -- DecodePacket and the handshake
  | managementOpcode
  | handshakeHeader
  | handshakeOpcode
  | noValidVersion
  | noSupportedVersion (versions : List Nat)
  | unsupportedVersion (version : Nat)
  -- HandleIncoming
  | oversized (bytes fragmentSize : Nat)
  | notData
  | emptyPacket
  | sequenceMismatch
  | invalidAck (ack seq prevIncomingAck : Int)
  | beginningInMessage
  | segmentWithoutBeginning
  | segmentWithoutPayload
  | reassembledTooLong (length declared : Nat)
  | endingWithoutBeginning
  | lengthMismatch (length declared : Nat)
deriving DecidableEq

/-- The texts of `FlowError`. -/
inductive FlowError
  | notActive
  | emptyMessage
  | messageTooLong (length : Nat)
  | noRoom (fragmentSize : Nat)
deriving DecidableEq

/-- The errors of the package; `disconnected` and `write` are those of a
`Write` callback. -/
inductive BtpError
  | protocol (e : ProtocolError)
  | flow (e : FlowError)
  | truncated
  | segmentSize (requested : Nat)
  | disconnected
  | write
deriving DecidableEq

/-! ## The handshake -/

def handshakeHeader : Byte := 0b01100101
def handshakeManagementOpcode : Byte := 0x6c

structure HandshakeRequest where
  versions : List Nat
  attMTU : BitVec 16
  clientWindowSize : BitVec 8

structure HandshakeResponse where
  version : Nat
  attMTU : BitVec 16
  windowSize : BitVec 8

/-- The version slots of a byte, even index in the low nibble. -/
def versionSlots (b : Byte) : List Nat := [(b &&& 0x0f).toNat, (b &&& 0xf0).toNat >>> 4]

def decodeHandshakeRequest (data : List Byte) : Except BtpError HandshakeRequest :=
  match data with
  | header :: opcode :: rest =>
    if rest.length < 1 then .error .truncated
    else if header ≠ handshakeHeader then .error (.protocol .handshakeHeader)
    else if opcode ≠ handshakeManagementOpcode then .error (.protocol .handshakeOpcode)
    else
      match rest with
      | v0 :: v1 :: v2 :: v3 :: tail =>
        let slots := versionSlots v0 ++ versionSlots v1 ++ versionSlots v2 ++ versionSlots v3
        let versions := slots.filter (· ≠ 0)
        if versions.length = 0 then .error (.protocol .noValidVersion)
        else
          match tail with
          | m0 :: m1 :: w :: _ =>
            .ok { versions := versions, attMTU := BitVec.ofNat 16 (leNat [m0, m1]), clientWindowSize := w }
          | _ => .error .truncated
      | _ => .error .truncated
  | _ => .error .truncated

def encodeHandshakeResponse (r : HandshakeResponse) : List Byte :=
  [handshakeHeader, handshakeManagementOpcode, BitVec.ofNat 8 (r.version % 16)] ++ leBytes 2 r.attMTU.toNat ++
    [r.windowSize]

def decodeHandshakeResponse (data : List Byte) : Except BtpError HandshakeResponse :=
  match data with
  | [] => .error .truncated
  | header :: rest =>
    if header ≠ handshakeHeader then .error (.protocol .handshakeHeader)
    else
      match rest with
      | [] => .error .truncated
      | opcode :: rest =>
        if opcode ≠ handshakeManagementOpcode then .error (.protocol .handshakeOpcode)
        else
          match rest with
          | version :: m0 :: m1 :: w :: _ =>
            .ok { version := version.toNat % 16, attMTU := BitVec.ofNat 16 (leNat [m0, m1]), windowSize := w }
          | _ => .error .truncated

/-! ## Data packets -/

structure Header where
  isHandshakeRequest : Bool := false
  hasManagementOpcode : Bool := false
  hasAckNumber : Bool := false
  isEndingSegment : Bool := false
  isContinuingSegment : Bool := false
  isBeginningSegment : Bool := false

structure Payload where
  ackNumber : Option Byte := none
  sequenceNumber : Byte
  messageLength : Option (BitVec 16) := none
  segmentPayload : List Byte := []

structure Packet where
  header : Header
  payload : Payload

/-- The flags of a header byte. -/
def decodeHeader (bits : Byte) : Header where
  isHandshakeRequest := bits &&& 0b01000000 != 0
  hasManagementOpcode := bits &&& 0b00100000 != 0
  hasAckNumber := bits &&& 0b00001000 != 0
  isEndingSegment := bits &&& 0b00000100 != 0
  isContinuingSegment := bits &&& 0b00000010 != 0
  isBeginningSegment := bits &&& 0b00000001 != 0

/-- The message length of a beginning segment, and the segment's bytes. -/
def decodeSegment (h : Header) (ackNumber : Option Byte) (sequenceNumber : Byte) (rest : List Byte) :
    Except BtpError Packet :=
  if h.isBeginningSegment then
    match rest with
    | l0 :: l1 :: rest =>
      .ok { header := h
            payload := { ackNumber, sequenceNumber, messageLength := some (BitVec.ofNat 16 (leNat [l0, l1])),
                         segmentPayload := rest } }
    | _ => .error .truncated
  else .ok { header := h, payload := { ackNumber, sequenceNumber, segmentPayload := rest } }

/-- The sequence number, and what follows it. -/
def decodeSequence (h : Header) (ackNumber : Option Byte) (rest : List Byte) : Except BtpError Packet :=
  match rest with
  | sequenceNumber :: rest => decodeSegment h ackNumber sequenceNumber rest
  | [] => .error .truncated

def decodePacket (data : List Byte) : Except BtpError Packet :=
  match data with
  | [] => .error .truncated
  | bits :: rest =>
    let h := decodeHeader bits
    if h.hasManagementOpcode then .error (.protocol .managementOpcode)
    else if h.hasAckNumber then
      match rest with
      | a :: rest => decodeSequence h (some a) rest
      | [] => .error .truncated
    else decodeSequence h none rest

/-- The disagreement of header and payload that `EncodePacket` refuses. -/
def encodeError (h : Header) (p : Payload) : Option ProtocolError :=
  if h.isHandshakeRequest || h.hasManagementOpcode then some .encodeHandshake
  else if !h.hasAckNumber && p.ackNumber.isSome then some .ackNotFlagged
  else if h.hasAckNumber && p.ackNumber.isNone then some .ackMissing
  else if h.isBeginningSegment && h.isContinuingSegment then some .beginningAndContinuing
  else if h.isEndingSegment && !h.isContinuingSegment && !h.isBeginningSegment then some .endingAlone
  else if (h.isBeginningSegment || h.isContinuingSegment) && p.segmentPayload.length == 0 then some .payloadMissing
  else if h.isBeginningSegment && p.messageLength.isNone then some .messageLengthMissing
  else if !h.isBeginningSegment && p.messageLength.isSome then some .messageLengthNotFlagged
  else none

/-- The header byte of a data packet. -/
def headerBits (h : Header) : Byte :=
  (if h.hasAckNumber then 0b00001000 else 0) ||| (if h.isEndingSegment then 0b00000100 else 0) |||
    (if h.isContinuingSegment then 0b00000010 else 0) ||| (if h.isBeginningSegment then 0b00000001 else 0)

def encodePacket (pk : Packet) : Except BtpError (List Byte) :=
  match encodeError pk.header pk.payload with
  | some e => .error (.protocol e)
  | none =>
    .ok (headerBits pk.header :: (pk.payload.ackNumber.toList ++ pk.payload.sequenceNumber ::
      ((pk.payload.messageLength.toList.flatMap fun l => leBytes 2 l.toNat) ++ pk.payload.segmentPayload)))

end GF.Impl.Btp
