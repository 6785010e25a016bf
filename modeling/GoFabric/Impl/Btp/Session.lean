import GoFabric.Impl.Btp.Codec

/-!
# A BTP session (`transport/btp/session.go`)

The session's mutex is released around the `Write` and `Message` callbacks, so
what a method does is cut there: each function runs from one point where the
lock is taken to the next where it is released, and its `Outcome` says why it
was. A timer is whether it is running.
-/

namespace GF.Impl.Btp

def maximumSequenceNumber : Int := 255

inductive Role
  | central
  | peripheral
deriving DecidableEq

structure Outgoing where
  data : List Byte
  off : Nat
deriving DecidableEq

/-- The message being reassembled. -/
structure Reassembly where
  reassembling : Bool
  incomingLen : Nat
  incoming : List Byte
deriving DecidableEq

/-- No message is being reassembled. -/
def Reassembly.empty : Reassembly := { reassembling := false, incomingLen := 0, incoming := [] }

structure Session where
  role : Role
  fragmentSize : Nat
  windowSize : Nat
  reassembly : Reassembly
  prevIncomingSeq : Int
  prevIncomingAck : Int
  seq : Int
  prevAckedSeq : Int
  queue : List Outgoing
  sendInProgress : Bool
  active : Bool
  pendingFirstAck : List (List Byte)
  pendingLive : Bool
  ackReceiveTimer : Bool
  sendAckTimer : Bool
  idleTimer : Bool
deriving DecidableEq

/-- What a packet in `Write` is: a segment, or a stand-alone
acknowledgement. -/
inductive Written
  | segment (isEnding : Bool)
  | ack
deriving DecidableEq

/-- Why the lock was released: the method returned, with or without an error,
or it calls `Write` or `Message`. -/
inductive Outcome
  | done
  | fail (e : BtpError)
  | write (packet : List Byte) (kind : Written)
  | message (msg : List Byte)

/-- `modularDistance`; Go's remainder takes the sign of the dividend. -/
def modularDistance (fromSeq toSeq : Int) : Int := ((toSeq - fromSeq).tmod 256 + 256).tmod 256

def newSession (role : Role) (version fragmentSize windowSize : Nat) : Except BtpError Session :=
  if version ≠ 4 then .error (.protocol (.unsupportedVersion version))
  else
    let s : Session :=
      { role, fragmentSize, windowSize, reassembly := .empty, prevIncomingSeq := 255, prevIncomingAck := -1, seq := 0
        prevAckedSeq := -1, queue := [], sendInProgress := false, active := true, pendingFirstAck := []
        pendingLive := true, ackReceiveTimer := false, sendAckTimer := false, idleTimer := false }
    match role with
    | .peripheral => .ok { s with prevAckedSeq := s.prevIncomingSeq }
    | .central => .ok { s with prevIncomingSeq := 0, prevIncomingAck := -1, seq := -1, sendAckTimer := true }

/-- `NewPeripheral`, whose `Write` succeeds: the session, and the response it
wrote. -/
def newPeripheral (maxDataSize : Nat) (handshakeRequest : List Byte) : Except BtpError (Session × List Byte) := do
  let req ← decodeHandshakeRequest handshakeRequest
  match [4].find? (req.versions.contains ·) with
  | none => .error (.protocol (.noSupportedVersion req.versions))
  | some version =>
    let attMTU :=
      if minimumATTMTU < maxDataSize then
        if req.attMTU.toNat ≤ minimumATTMTU then min maxDataSize maximumBTPMTU
        else min (min req.attMTU.toNat maxDataSize) maximumBTPMTU
      else minimumATTMTU
    let window := min maximumWindowSize req.clientWindowSize.toNat
    let resp := encodeHandshakeResponse
      { version := version, attMTU := BitVec.ofNat 16 attMTU, windowSize := BitVec.ofNat 8 window }
    let s ← newSession .peripheral version attMTU window
    .ok ({ s with ackReceiveTimer := true }, resp)

def newCentral (handshakeResponse : List Byte) (requestedSegmentSize : Nat) : Except BtpError Session :=
  if requestedSegmentSize < minimumATTMTU then .error (.segmentSize requestedSegmentSize)
  else do
    let resp ← decodeHandshakeResponse handshakeResponse
    newSession .central resp.version (min (min resp.attMTU.toNat requestedSegmentSize) maximumBTPMTU)
      resp.windowSize.toNat

/-- What a packet does to the message being reassembled, and the message it
completes. -/
def Reassembly.add (r : Reassembly) (pk : Packet) : Reassembly × Except ProtocolError (Option (List Byte)) :=
  let ending (r : Reassembly) : Reassembly × Except ProtocolError (Option (List Byte)) :=
    if pk.header.isEndingSegment then
      if !r.reassembling then (r, .error .endingWithoutBeginning)
      else if r.incoming.length ≠ r.incomingLen then (r, .error (.lengthMismatch r.incoming.length r.incomingLen))
      else (.empty, .ok (some r.incoming))
    else (r, .ok none)
  if pk.header.isBeginningSegment then
    if r.reassembling then (r, .error .beginningInMessage)
    else
      ending { reassembling := true, incomingLen := (pk.payload.messageLength.getD 0).toNat
               incoming := pk.payload.segmentPayload }
  else if pk.header.isContinuingSegment || pk.header.isEndingSegment then
    if !r.reassembling then (r, .error .segmentWithoutBeginning)
    else if pk.payload.segmentPayload.length = 0 then (r, .error .segmentWithoutPayload)
    else if r.incomingLen < r.incoming.length + pk.payload.segmentPayload.length then
      (r, .error (.reassembledTooLong (r.incoming.length + pk.payload.segmentPayload.length) r.incomingLen))
    else ending { r with incoming := r.incoming ++ pk.payload.segmentPayload }
  else ending r

namespace Session

variable (s : Session)

def nextSequenceNumber : Session × Byte :=
  let seq := if maximumSequenceNumber < s.seq + 1 then 0 else s.seq + 1
  ({ s with seq := seq }, BitVec.ofInt 8 seq)

def remoteWindowFreeSlots : Int := s.windowSize - modularDistance s.prevIncomingAck s.seq

def localWindowFreeSlots : Int := s.windowSize - modularDistance s.prevAckedSeq s.prevIncomingSeq

def canSend (carriesAck : Bool) : Bool :=
  if s.remoteWindowFreeSlots ≤ 0 then false
  else if s.remoteWindowFreeSlots ≤ windowNoAckSendThreshold && !carriesAck then false
  else true

/-- An acknowledgement is pending. -/
def hasAck : Bool := s.prevIncomingSeq != s.prevAckedSeq

def stopTimersLocked : Session :=
  { s with sendAckTimer := false, ackReceiveTimer := false, idleTimer := false }

/-- `Close`, up to the `Disconnect` callback. -/
def close : Session := { s.stopTimersLocked with active := false }

/-- `sendStandaloneAckLocked`, up to its `Write`. -/
def sendStandaloneAckLocked : Session × Outcome :=
  if s.sendInProgress || !s.active then (s, .done)
  else if s.prevIncomingSeq = s.prevAckedSeq then (s, .done)
  else if !s.canSend true then (s, .done)
  else
    let ack := s.prevIncomingSeq
    let (s, sequenceNumber) := { s with sendInProgress := true }.nextSequenceNumber
    match encodePacket { header := { hasAckNumber := true }
                         payload := { ackNumber := some (BitVec.ofInt 8 ack), sequenceNumber } } with
    | .error e => ({ s with sendInProgress := false }, .fail e)
    | .ok packet => ({ s with prevAckedSeq := ack }, .write packet .ack)

/-- The packet of the next segment of `m`, and how much of `m` it takes; `none`
when the segment size leaves no room. -/
def segmentOf (fragmentSize : Nat) (m : Outgoing) (ackNumber : Option Byte) (sequenceNumber : Byte) :
    Option (Packet × Nat) :=
  let remaining := m.data.length - m.off
  let isBeginning := remaining == m.data.length
  let headerLen := 2 + (if isBeginning then 2 else 0) + (if ackNumber.isSome then 1 else 0)
  let room := fragmentSize - headerLen
  if room = 0 then none
  else
    let n := min room remaining
    some
      ({ header := { hasAckNumber := ackNumber.isSome, isBeginningSegment := isBeginning
                     isContinuingSegment := !isBeginning, isEndingSegment := remaining ≤ room }
         payload := { ackNumber, sequenceNumber, segmentPayload := (m.data.drop m.off).take n
                      messageLength := if isBeginning then some (BitVec.ofNat 16 remaining) else none } }, n)

/-- One turn of the loop of `processSendQueueLocked`, with a message at the
head of the queue and room in the window, up to its `Write`. -/
def sendSegment (m : Outgoing) (rest : List Outgoing) : Session × Outcome :=
  let hasAck := s.hasAck
  let s := if hasAck then { s with sendAckTimer := false } else s
  let ackNumber := if hasAck then some (BitVec.ofInt 8 s.prevIncomingSeq) else none
  match segmentOf s.fragmentSize m ackNumber s.nextSequenceNumber.2 with
  | none => ({ s with sendInProgress := false }, .fail (.flow (.noRoom s.fragmentSize)))
  | some (pk, n) =>
    let s := { s.nextSequenceNumber.1 with queue := { m with off := m.off + n } :: rest }
    let s := if hasAck then { s with prevAckedSeq := s.prevIncomingSeq } else s
    match encodePacket pk with
    | .error e => ({ s with sendInProgress := false }, .fail e)
    | .ok packet => (s, .write packet (.segment pk.header.isEndingSegment))

/-- The loop of `processSendQueueLocked`, up to its next `Write`, and what
follows it. -/
def sendLoop : Session × Outcome :=
  match s.queue with
  | [] => { s with sendInProgress := false }.sendStandaloneAckLocked
  | m :: rest =>
    if !s.canSend s.hasAck then { s with sendInProgress := false }.sendStandaloneAckLocked
    else s.sendSegment m rest

/-- `processSendQueueLocked`, up to its first `Write`. -/
def processSendQueueLocked : Session × Outcome :=
  if s.sendInProgress || !s.active || s.queue.length == 0 then (s, .done)
  else { s with sendInProgress := true }.sendLoop

/-- What follows a `Write` that succeeded. -/
def writeReturned : Written → Session × Outcome
  | .segment isEnding =>
    if !s.active then ({ s with queue := [], sendInProgress := false }, .done)
    else
      let s := { s with ackReceiveTimer := true, idleTimer := s.idleTimer || s.role == Role.central }
      let s := if isEnding then { s with queue := s.queue.tail } else s
      s.sendLoop
  | .ack =>
    { s with sendAckTimer := false, ackReceiveTimer := s.ackReceiveTimer || s.active
             sendInProgress := false }.processSendQueueLocked

def sendImmediateAckIfWindowLowLocked : Session × Outcome :=
  if 0 < s.queue.length || s.sendInProgress then (s, .done)
  else if immediateAckWindowThreshold < s.localWindowFreeSlots then (s, .done)
  else s.sendStandaloneAckLocked

def sendAckTimeoutTriggered : Session × Outcome :=
  if !s.active then (s, .done) else s.sendStandaloneAckLocked

/-- `Send`, up to its first `Write`. -/
def send (msg : List Byte) : Session × Outcome :=
  if !s.active then (s, .fail (.flow .notActive))
  else if msg.length = 0 then (s, .fail (.flow .emptyMessage))
  else if 0xFFFF < msg.length then (s, .fail (.flow (.messageTooLong msg.length)))
  else
    let pendingFirstAck := if s.pendingLive then s.pendingFirstAck ++ [msg] else s.pendingFirstAck
    let queue := s.queue ++ [{ data := msg, off := 0 }]
    { s with pendingFirstAck, queue }.processSendQueueLocked

/-- The acknowledgement of an incoming packet. -/
def acceptAck (ackNumber : Option Byte) : Except ProtocolError Session :=
  match ackNumber with
  | none => .ok s
  | some a =>
    let ack : Int := a.toNat
    if modularDistance s.prevIncomingAck s.seq < modularDistance s.prevIncomingAck ack then
      .error (.invalidAck ack s.seq s.prevIncomingAck)
    else .ok { s with prevIncomingAck := ack, ackReceiveTimer := ack != s.seq }

/-- The checks in front of a packet's acknowledgement. -/
def passes (pk : Packet) : Bool :=
  !(pk.header.isHandshakeRequest || pk.header.hasManagementOpcode) &&
    !(pk.payload.segmentPayload.length == 0 && !pk.header.hasAckNumber) &&
    (pk.payload.sequenceNumber.toNat : Int) == (s.prevIncomingSeq + 1).tmod 256

/-- `handleIncomingLocked` behind `DecodePacket`, up to `Message` or the first
`Write` of its `processSendQueueLocked`. -/
def handlePacket (pk : Packet) : Session × Outcome :=
  if pk.header.isHandshakeRequest || pk.header.hasManagementOpcode then (s, .fail (.protocol .notData))
  else if pk.payload.segmentPayload.length == 0 && !pk.header.hasAckNumber then (s, .fail (.protocol .emptyPacket))
  else if (pk.payload.sequenceNumber.toNat : Int) ≠ (s.prevIncomingSeq + 1).tmod 256 then
    (s, .fail (.protocol .sequenceMismatch))
  else
    let s := { s with prevIncomingSeq := pk.payload.sequenceNumber.toNat, pendingFirstAck := []
                      pendingLive := false, sendAckTimer := true }
    match s.acceptAck (if pk.header.hasAckNumber then pk.payload.ackNumber else none) with
    | .error e => (s, .fail (.protocol e))
    | .ok s =>
      match s.reassembly.add pk with
      | (r, .error e) => ({ s with reassembly := r }, .fail (.protocol e))
      | (r, .ok (some msg)) => ({ s with reassembly := r }, .message msg)
      | (r, .ok none) => { s with reassembly := r }.processSendQueueLocked

/-- What `handlePacket` accepts of a packet: the acknowledgement, and the packet as a
whole. -/
def readsPacket (pk : Packet) : Option Byte × Option Packet :=
  if !s.passes pk then (none, none)
  else
    let s := { s with prevIncomingSeq := pk.payload.sequenceNumber.toNat, pendingFirstAck := []
                      pendingLive := false, sendAckTimer := true }
    let ack := if pk.header.hasAckNumber then pk.payload.ackNumber else none
    match s.acceptAck ack with
    | .error _ => (none, none)
    | .ok s =>
      match s.reassembly.add pk with
      | (_, .error _) => (ack, none)
      | (_, .ok _) => (ack, some pk)

/-- What `handleIncomingLocked` accepts of the bytes. -/
def reads (data : List Byte) : Option Byte × Option Packet :=
  if s.fragmentSize + 3 < data.length then (none, none)
  else
    match decodePacket data with
    | .error _ => (none, none)
    | .ok pk => s.readsPacket pk

/-- `handleIncomingLocked`, up to `Message` or the first `Write` of its
`processSendQueueLocked`. -/
def handleIncomingLocked (data : List Byte) : Session × Outcome :=
  if s.fragmentSize + 3 < data.length then (s, .fail (.protocol (.oversized data.length s.fragmentSize)))
  else
    match decodePacket data with
    | .error e => (s, .fail e)
    | .ok pk => s.handlePacket pk

end Session

end GF.Impl.Btp
