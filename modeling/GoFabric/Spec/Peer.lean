import GoFabric.Impl.Btp.Host

/-!
# What a session keeps to with any peer

What is said of a session after a run with a peer that may send anything, and which packets of
the peer are left out.
-/

namespace GF.Spec.Peer

open GF.Impl.Btp

/-- A session that `NewPeripheral` or `NewCentral` returned, for any handshake. -/
def Created (s : Session) : Prop :=
  (∃ maxDataSize request response, newPeripheral maxDataSize request = .ok (s, response)) ∨
    ∃ response requestedSegmentSize, newCentral response requestedSegmentSize = .ok s

/-! ## The window -/

/-- The sequence number of a packet. -/
def numberOf (packet : List Byte) : Option Byte := (decodePacket packet).toOption.map (·.payload.sequenceNumber)

/-- The numbers of the packets that the session wrote; the peripheral's response to the
handshake has none of its own and counts as 0. -/
def numbers (h : Host) : List (Option Byte) :=
  (match h.session.role with
    | .central => []
    | .peripheral => [some 0]) ++ h.written.map numberOf

/-- The numbers 0, 1, 2, … modulo 256. -/
def consecutive (n : Nat) : List (Option Byte) := (List.range n).map fun i => some (BitVec.ofNat 8 i)

/-- At most `w` packets are written and not acknowledged; they are numbered one after the
other; and an event writes at most one packet, which leaves a slot free when it carries no
acknowledgement. -/
structure KeepsWindow (w : Nat) (h : Host) : Prop where
  unacked : h.sent - h.acked ≤ w
  numbered : numbers h = consecutive (numbers h).length
  writes : ∀ e h', hostSystem.step h e = some h' →
    h'.written = h.written ∨ ∃ packet pk, h'.written = h.written ++ [packet] ∧ decodePacket packet = .ok pk ∧
      (pk.header.hasAckNumber = false → h'.sent - h'.acked < w)

/-! ## Acknowledgements -/

/-- The acknowledgement that a packet carries. -/
def carriedAck (data : List Byte) : Option Byte :=
  (decodePacket data).toOption.bind fun pk => if pk.header.hasAckNumber then pk.payload.ackNumber else none

/-- The acknowledgement that comes in with an event. -/
def eventAck : HostEvent → Option Byte
  | .incoming data => carriedAck data
  | _ => none

/-- No packet comes in that acknowledges 255 before the session accepted an
acknowledgement. -/
def Genuine (h : Host) (e : HostEvent) : Prop := ¬(h.session.prevIncomingAck = -1 ∧ eventAck e = some 255)
deriving Decidable

/-- What the session accepts names a packet that it wrote and that is not older than the last
one acknowledged to it; and where the timer for acknowledgements decides to close the
session, or reports a stall, a packet that was written is not acknowledged. -/
structure NamesPackets (h : Host) : Prop where
  named : ∀ data a, Genuine h (.incoming data) → (h.session.reads data).1 = some a →
    ∃ i : Nat, (numbers h)[i]? = some (some a) ∧ h.acked ≤ i ∧ Host.ackPosition h.acked a = i
  timeout : ∀ h', hostSystem.step h .ackTimeoutTriggered = some h' →
    h.closers < h'.closers ∨ h.session.active = true ∧ h'.session.active = false → h.acked < h.sent

/-! ## Messages -/

/-- What packets carry of a message. -/
def payloads (block : List Packet) : List Byte := block.flatMap (·.payload.segmentPayload)

/-- No segment of a message. -/
def Standalone (pk : Packet) : Prop :=
  pk.header.isBeginningSegment = false ∧ pk.header.isContinuingSegment = false ∧ pk.header.isEndingSegment = false ∧
    pk.payload.segmentPayload = []

/-- Packets from a Beginning packet that declares `length` on, with no other among them. -/
structure Begins (block : List Packet) (length : Nat) : Prop where
  first : ∃ pk l, block.head? = some pk ∧ pk.header.isBeginningSegment = true ∧ pk.payload.messageLength = some l ∧
    l.toNat = length
  rest : ∀ pk ∈ block.tail, pk.header.isBeginningSegment = false

/-- Packets from a Beginning packet to the next Ending packet, which spell a message of the
length declared. -/
structure Spells (block : List Packet) (msg : List Byte) : Prop where
  begins : Begins block msg.length
  ends : ∃ front last, block = front ++ [last] ∧ last.header.isEndingSegment = true ∧
    ∀ pk ∈ front, pk.header.isEndingSegment = false
  message : msg = payloads block

/-- The packets taken are blocks that spell the messages delivered, with what is no segment in
front of each, and a tail. -/
def Parses (accepted : List Packet) (delivered : List (List Byte)) (tail : List Packet) : Prop :=
  ∃ parts : List (List Packet × List Packet), accepted = (parts.flatMap fun p => p.1 ++ p.2) ++ tail ∧
    List.Forall₂ (fun p msg => (∀ pk ∈ p.1, Standalone pk) ∧ Spells p.2 msg) parts delivered

/-- A Beginning packet with no more than it declares, a segment, or no payload. -/
def wellFormed (pk : Packet) : Bool :=
  if pk.header.isBeginningSegment then
    decide (pk.payload.segmentPayload.length ≤ (pk.payload.messageLength.getD 0).toNat)
  else pk.header.isContinuingSegment || pk.header.isEndingSegment || pk.payload.segmentPayload == []

/-- The packet that comes in with an event. -/
def eventPacket : HostEvent → Option Packet
  | .incoming data => (decodePacket data).toOption
  | _ => none

/-- No packet comes in that is not well formed. -/
def Tame (_ : Host) (e : HostEvent) : Prop := (eventPacket e).all wellFormed = true
deriving Decidable

/-- The packets taken are blocks, each of which spells a delivered message of the length that its
Beginning packet declares, with only stand-alone acknowledgements between them; no more is
held than was declared; after a packet that is refused no message is delivered, and once the
call has closed the session nothing is written. -/
structure Withstands (h : Host) : Prop where
  parses : ∃ tail, Parses h.accepted h.delivered tail
  held : h.session.reassembly.incoming.length ≤ h.session.reassembly.incomingLen
  refused : ∀ data h', hostSystem.step h (.incoming data) = some h' → h.session.active = true →
    (h.session.reads data).2 = none →
    h'.written = h.written ∧ h'.delivered = h.delivered ∧
    (∀ fs t, hostSystem.run h' fs = some t → t.delivered = h.delivered) ∧
    ∀ fs t, hostSystem.run h' (.incomingCloses :: fs) = some t → t.written = h.written

end GF.Spec.Peer
