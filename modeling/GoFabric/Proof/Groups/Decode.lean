import GoFabric.Proof.Channel.Group
import GoFabric.Spec.GroupMessage

/-!
# Group messages reach the group

The receiver's unmasking undoes the sender's masking (`unmask_obfuscated`), and
behind it the header and its ciphertext open (`openUnder_sealed`). A candidate
with the sender's key therefore authenticates the datagram, whatever its key
set; `Decode` takes the first candidate that does.
-/

namespace GF.Proof.Groups

open GF.Impl.Groups GF.Impl.Channel GF.Spec.GroupMessage GF.Proof.Channel GF.Proof.Message
open GF.Proof.Aesccm List
open GF.Impl.Message (Header SessionType DestSize)
open GF.Impl.Aesccm (CCM Block tagSize xorBlock toBlock)

variable {K : Crypto} {sid : BitVec 16} {e : EpochKey} {header : Header} {source : BitVec 64} {payload dg : List Byte}
  {c : Candidate K}

/-! ## The keys of an epoch -/

/-- The other keys of an epoch are determined by its operational key. -/
theorem deriveEpoch_keys {epochKey compressed : List Byte} {start : BitVec 64}
    (h : deriveEpoch K epochKey compressed start = .ok e) :
    e.ccm = ⟨K.aes e.key⟩ ∧ e.privacy = K.hkdf e.key [] privacyHKDFInfo keySize := by
  obtain ⟨op, -, h⟩ := except_bind_eq_ok.1 h
  obtain ⟨priv, hpriv, h⟩ := except_bind_eq_ok.1 h
  split at h
  · cases h
  obtain rfl := Except.ok.inj h
  unfold privacyKey at hpriv
  split at hpriv
  · cases hpriv
  · exact ⟨rfl, (Except.ok.inj hpriv).symm⟩

/-! ## One candidate -/

section Sealed

variable {key hdr ct : List Byte}

section

variable (h : Sealed K.aes key header payload hdr ct)
include h

/-- The flags are not masked, and they say where the header ends. -/
theorem protectedHeaderEnd_sealed {buf : List Byte} (hbuf : buf.take 4 = hdr.take 4) :
    protectedHeaderEnd buf = hdr.length := by
  have hflags : buf.getD 0 0 = 0x06 := by
    have h0 : buf.getD 0 0 = (buf.take 4).getD 0 0 := by
      cases buf <;> rfl
    rw [h0, hbuf, h.take_four]
    show messageFlags header = _
    rw [messageFlags, h.source, h.dest]
    rfl
  rw [h.length_headerBytes]
  unfold protectedHeaderEnd
  rw [hflags]
  rfl

theorem unmask_obfuscated {pk wh : List Byte} (hw : obfuscateGroupHeader K.aes pk sid hdr ct = .ok wh) :
    wh.length = hdr.length ∧ wh.take 4 = hdr.take 4 ∧
      unmask K (wh ++ ct) sid pk = some (hdr ++ ct) := by
  have hlen := h.length_headerBytes
  have htag := h.tag_le
  obtain ⟨hkey, hmic, -, hwire⟩ := obfuscateGroupHeader_eq hw
  have hd : (hdr.drop 4).length = 14 := by
    rw [length_drop, hlen]
  -- the masked region
  generalize hz : xored (privacyBlocks K.aes pk (nonceOf sid (ct.drop (ct.length - 16)))) (hdr.drop 4) = z at hwire
  have hzlen : z.length = 14 := by
    rw [← hz, length_xored, hd]
  have htake : (hdr.take 4).length = 4 := by
    rw [length_take, hlen]
    rfl
  have hwlen : wh.length = 18 := by
    rw [hwire, length_append, htake, hzlen]
  have hw4 : wh.take 4 = hdr.take 4 := by
    rw [hwire, take_append_of_le_length (by omega), take_of_length_le (by omega)]
  refine ⟨by omega, hw4, ?_⟩
  have hbuf4 : (wh ++ ct).take 4 = hdr.take 4 := by
    rw [take_append_of_le_length (by omega), hw4]
  have hstop := protectedHeaderEnd_sealed h hbuf4
  have hdrop : (wh ++ ct).drop ((wh ++ ct).length - 16) = ct.drop (ct.length - 16) := by
    rw [length_append, Nat.add_sub_assoc htag, drop_append, drop_of_length_le (Nat.le_add_right _ _),
      nil_append, Nat.add_sub_cancel_left]
  have hregion : ((wh ++ ct).take 18).drop 4 = z := by
    rw [take_append_of_le_length (by omega), take_of_length_le (by omega), hwire,
      drop_append_of_le_length (by omega), drop_of_length_le (by omega), nil_append]
  unfold unmask
  simp only [tagSize, hstop, hlen, hdrop, hregion]
  rw [if_neg (by rw [length_append]; omega), privacyKeystream_eq hkey sid hmic]
  simp only [applyPrivacyMask_stream, hbuf4]
  rw [← hz, xored_xored, take_append_drop, drop_append_of_le_length (by omega), drop_of_length_le (by omega), nil_append]

theorem openUnder_sealed (hc : header.control = false) :
    openUnder ⟨K.aes key⟩ (hdr ++ ct) = some (receivedHeader header, payload) := by
  have hlen := h.length_headerBytes
  have hread : Impl.Message.unmarshalHeader (hdr ++ ct) = .ok (receivedHeader header, hdr.length) := by
    rw [h.unmarshalHeader hc ct, receivedHeader, ← h.bytes]
  have hraw : (receivedHeader header).nonceSecurityFlags = header.securityFlags := by
    have h3 := getD_marshal_three header
    rw [getD_eq_getElem?_getD] at h3
    unfold Header.nonceSecurityFlags
    cases hm : (receivedHeader header).raw[3]? with
    | none => rfl
    | some b => rw [show header.marshal[3]? = some b from hm] at h3; exact h3
  have haad : (receivedHeader header).aad = hdr := by
    show (if header.marshal.length > 0 then header.marshal else _) = _
    rw [← h.bytes, if_pos (by omega)]
  unfold openUnder
  rw [hread]
  simp only
  rw [if_neg (by rw [length_append]; omega), drop_left]
  have hopen : CCM.open ⟨K.aes key⟩ [] (buildNonce (receivedHeader header).nonceSecurityFlags
      (receivedHeader header).messageCounter (receivedHeader header).sourceNodeID) ct
      (receivedHeader header).aad = .ok payload := by
    rw [hraw, haad]
    exact h.open
  rw [hopen]
end

end Sealed

theorem sentDatagram_eq_ok (h : sentDatagram K.aes e source header payload = .ok dg) :
    ∃ hdr w ct, Sealed K.aes e.key header payload hdr ct ∧
      wireHeader K.aes e header hdr ct = .ok w ∧ dg = w ++ ct := by
  obtain ⟨⟨hdr, ct⟩, henc, h⟩ := except_bind_eq_ok.1 h
  obtain ⟨w, hw, h⟩ := except_bind_eq_ok.1 h
  exact ⟨hdr, w, ct, sealed_of_encryptGroup henc, hw, (Except.ok.inj h).symm⟩

/-- What the receiver reads of a datagram before it tries a key. -/
theorem sentDatagram_clear (h : sentDatagram K.aes e source header payload = .ok dg) :
    header.sessionType = SessionType.group ∧ header.destSize = DestSize.group ∧ header.hasSourceNodeID = true ∧
      34 ≤ dg.length ∧
      dg.take 4 = [messageFlags header] ++ leBytes 2 header.sessionID.toNat ++ [header.securityFlags] := by
  obtain ⟨hdr, w, ct, hs, hw, rfl⟩ := sentDatagram_eq_ok h
  have hlen := hs.length_headerBytes
  have htag := hs.tag_le
  have hwire : w.length = hdr.length ∧ w.take 4 = hdr.take 4 := by
    unfold wireHeader at hw
    split at hw
    · obtain ⟨h₁, h₂, -⟩ := unmask_obfuscated hs hw
      exact ⟨h₁, h₂⟩
    · obtain rfl := Except.ok.inj hw
      exact ⟨rfl, rfl⟩
  refine ⟨hs.session, hs.dest, hs.source, ?_, ?_⟩
  · rw [length_append]
    omega
  · rw [take_append_of_le_length (by omega), hwire.2, hs.take_four]

/-- A candidate with the keys of the sender authenticates the datagram. -/
theorem tryDecrypt_sent (hc : header.control = false) (h : sentDatagram K.aes e source header payload = .ok dg)
    (hccm : c.epoch.ccm = ⟨K.aes e.key⟩) (hprivacy : c.epoch.privacy = e.privacy) :
    tryDecrypt dg header.sessionID header.privacy c = some (receivedHeader header, payload) := by
  obtain ⟨-, -, -, hlen, -⟩ := sentDatagram_clear h
  obtain ⟨hdr, w, ct, hs, hw, rfl⟩ := sentDatagram_eq_ok h
  unfold wireHeader at hw
  rw [tryDecrypt, if_neg (by simp only [tagSize]; omega), hccm, hprivacy]
  cases hp : header.privacy with
  | true =>
    rw [hp] at hw
    obtain ⟨-, -, hu⟩ := unmask_obfuscated hs hw
    rw [hu]
    exact openUnder_sealed hs hc
  | false =>
    rw [hp] at hw
    obtain rfl := Except.ok.inj hw
    exact openUnder_sealed hs hc

/-! ## All candidates -/

/-- The session type and the P flag of a group message. -/
theorem securityFlags_group (h : header.sessionType = SessionType.group) :
    header.securityFlags &&& 0x03 = SessionType.group ∧ (header.securityFlags &&& 0x80 != 0) = header.privacy := by
  unfold Header.securityFlags
  rw [h]
  generalize header.privacy = p, header.control = c, header.hasExtension = x
  revert p c x
  decide

theorem mem_candidates {m : Manager K} :
    c ∈ m.candidates sid true ↔ c.fabric ∈ m.fabrics ∧
      ∃ s ∈ c.fabric.keySets.entries, s.1 = c.keySetID ∧ c.epoch ∈ s.2.epochs ∧ c.epoch.sessionID = sid ∧
        ∃ g ∈ c.fabric.idMap.entries, g.2 = s.1 := by
  simp only [Manager.candidates, FabricGroups.candidates, mem_flatMap, mem_insertionSort, mem_filter,
    mem_map, beq_iff_eq, any_eq_true]
  constructor
  · rintro ⟨f, hf, s, ⟨hs, hmap⟩, e, ⟨he, hsid⟩, rfl⟩
    exact ⟨hf, s, hs, rfl, he, hsid, hmap⟩
  · rintro ⟨hf, s, hs, hid, he, hsid, hmap⟩
    refine ⟨c.fabric, hf, s, ⟨hs, hmap⟩, c.epoch, ⟨he, hsid⟩, ?_⟩
    rw [hid]

/-- A candidate's other keys are determined by its operational key. -/
theorem candidate_keys {m : Manager K} (hc : c ∈ m.candidates sid true) :
    c.epoch.ccm = ⟨K.aes c.epoch.key⟩ ∧ c.epoch.privacy = K.hkdf c.epoch.key [] privacyHKDFInfo keySize := by
  obtain ⟨-, s, hs, -, he, -⟩ := mem_candidates.1 hc
  obtain ⟨epochKey, start, hd⟩ := c.fabric.derived s hs c.epoch he
  exact deriveEpoch_keys hd

/-- Every group message that a sender seals, and masks if it asks for privacy,
under a key of its group is decoded by a receiver that maps the group to a key
set with that key, among any other key sets, to the same header, payload, group
and fabric, if no other candidate authenticates it. -/
theorem group_message_round_trip (m : Manager K) (f : FabricGroups K) (hf : f ∈ m.fabrics) (e : EpochKey)
    (source : BitVec 64) (header : Header) (payload datagram : List Byte) (hmap : MapsTo f header.destGroupID e)
    (hsid : header.sessionID = e.sessionID) (hcontrol : header.control = false) (hgroup : header.destGroupID ≠ 0)
    (hsent : sentDatagram K.aes e source header payload = .ok datagram) (honly : OnlyUnder m f e header datagram) :
    ∃ msg m', m.decode datagram = (.ok msg, m') ∧ msg.header = receivedHeader header ∧ msg.payload = payload ∧
      msg.groupID = header.destGroupID ∧ msg.fabricIndex = f.index := by
  obtain ⟨hsession, hdest, hsource, hlen, hclear⟩ := sentDatagram_clear hsent
  -- what is read in the clear
  have hbytes : ∀ i < 4, datagram.getD i 0 = (datagram.take 4).getD i 0 := by
    intro i hi
    rw [getD_eq_getElem?_getD, getD_eq_getElem?_getD, List.getElem?_take_of_lt hi]
  have hzero : datagram.getD 0 0 &&& 0x04 ≠ 0 := by
    rw [hbytes 0 (by decide), hclear]
    show messageFlags header &&& 0x04 ≠ 0
    rw [messageFlags, hsource, hdest]
    decide
  have hthree : datagram.getD 3 0 = header.securityFlags := by
    rw [hbytes 3 (by decide), hclear]
    rfl
  have hid : BitVec.ofNat 16 (leNat ((datagram.drop 1).take 2)) = header.sessionID := by
    have h2 : (datagram.drop 1).take 2 = ((datagram.take 4).drop 1).take 2 := by
      rw [drop_take, take_take]
      rfl
    rw [h2, hclear]
    exact ofNat_leNat_toNat (n := 2) header.sessionID
  obtain ⟨htype, hprivate⟩ := securityFlags_group hsession
  -- the sender's key is a candidate
  obtain ⟨id, ks, hidMap, hks, he⟩ := hmap
  have hmem : { fabric := f, keySetID := id, epoch := e } ∈ m.candidates header.sessionID true := by
    refine mem_candidates.2 ⟨hf, ⟨id, ks⟩, AList.mem_lookup_iff.1 hks, rfl, he, hsid.symm, ?_⟩
    exact ⟨⟨header.destGroupID, id⟩, AList.mem_lookup_iff.1 hidMap, rfl⟩
  obtain ⟨-, hprivacy⟩ := candidate_keys hmem
  -- every candidate that authenticates it gives the same message
  have hsame : ∀ c ∈ m.candidates header.sessionID true, c.epoch.key = e.key →
      tryDecrypt datagram header.sessionID header.privacy c = some (receivedHeader header, payload) := by
    intro c hc hkey
    obtain ⟨hccm, hpriv⟩ := candidate_keys hc
    rw [hkey] at hccm hpriv
    exact tryDecrypt_sent hcontrol hsent hccm (hpriv.trans hprivacy.symm)
  obtain ⟨c, hc, hfirst, hindex⟩ : ∃ c ∈ m.candidates header.sessionID true,
      firstMatch datagram header.sessionID header.privacy (m.candidates header.sessionID true) =
        some (c, receivedHeader header, payload) ∧ c.fabric.index = f.index := by
    cases hfm : firstMatch datagram header.sessionID header.privacy (m.candidates header.sessionID true) with
    | none =>
      have hnone := List.findSome?_eq_none_iff.1 hfm _ hmem
      rw [hsame _ hmem rfl] at hnone
      cases hnone
    | some r =>
      obtain ⟨c, hc, hr⟩ := exists_of_findSome?_eq_some hfm
      obtain ⟨x, hx, rfl⟩ := Option.map_eq_some_iff.1 hr
      obtain ⟨hindex, hkey⟩ := honly c hc (Option.isSome_iff_exists.2 ⟨x, hx⟩)
      rw [hsame c hc hkey] at hx
      exact ⟨c, hc, Option.some.inj hx ▸ rfl, hindex⟩
  refine ⟨(m.completeMessage (receivedHeader header, payload) c).1, (m.completeMessage (receivedHeader header, payload) c).2,
    ?_, rfl, rfl, rfl, hindex⟩
  have hnonempty : (m.candidates header.sessionID true).length ≠ 0 := Nat.pos_iff_ne_zero.1 (length_pos_of_mem hc)
  unfold Manager.decode
  simp only [hthree, htype, hid, hprivate, hfirst]
  rw [if_neg (by omega), if_neg (by simp), if_neg hzero, if_neg hnonempty, if_neg]
  exact not_or.2 ⟨fun hn => hn hdest, hgroup⟩

/-! ## A receiver -/

/-- Functions in the place of AES and HKDF. -/
def toyCrypto : Crypto where
  aes key b := xorBlock b.reverse (toBlock key)
  hkdf secret salt _ keyLength := (List.range keyLength).map fun i => secret.getD i 0 ^^^ salt.getD i 1
  length_hkdf := by simp

def oneEpoch (id : BitVec 16) (key : List Byte) : GroupKeySet := { groupKeySetID := id, epochs := #v[(key, 0), ([], 0), ([], 0)] }

/-- The epoch keys of two key sets of the receiver, with one session id. -/
def keyA : List Byte := List.replicate 16 9
def keyB : List Byte := List.replicate 15 9 ++ [10]

def fabricTwo : FabricGroups toyCrypto :=
  loadFabric _
    { index := 2, compressedID := [1, 2, 3, 4, 5, 6, 7, 8],
      groupKeySets := [oneEpoch 8 keyA, oneEpoch 7 keyB, oneEpoch 6 keyB], groupKeyMappings := [(0, 8), (5, 8), (6, 7)],
      groupTable := [(5, [1, 2])] }

/-- A receiver on two fabrics. -/
def receiver : Manager toyCrypto where
  fabrics :=
    [fabricTwo,
      loadFabric _
        { index := 1, compressedID := [1, 2, 3, 4, 5, 6, 7, 9], groupKeySets := [oneEpoch 8 keyA],
          groupKeyMappings := [(5, 8)], groupTable := [] }]
  reception := fun _ => none
  indexes := by decide

/-- The operational key of key set 8. -/
def operationalA : List Byte := toyCrypto.hkdf keyA fabricTwo.compressed groupSecurityInfo keySize

def epochA : EpochKey :=
  { key := operationalA, privacy := toyCrypto.hkdf operationalA [] privacyHKDFInfo keySize,
    sessionID := sessionID toyCrypto operationalA, ccm := ⟨toyCrypto.aes operationalA⟩, start := 0 }

def headerTo (groupID : BitVec 16) : Header :=
  { Header.zero with
    sessionID := epochA.sessionID, messageCounter := 41, hasSourceNodeID := true, sourceNodeID := 77
    destSize := DestSize.group, destNodeID := 3, destGroupID := groupID, sessionType := SessionType.group
    privacy := true }

def sentBytes (header : Header) : List Byte := ((sentDatagram toyCrypto.aes epochA 77 header [1, 2, 3]).toOption).getD []

theorem group_message_round_trip_shared_session :
    (receiver.candidates epochA.sessionID true).map (fun c => (c.fabric.index, c.keySetID)) = [(1, 8), (2, 7), (2, 8)] ∧
      ∃ msg m', receiver.decode (sentBytes (headerTo 5)) = (.ok msg, m') ∧ msg.header = receivedHeader (headerTo 5) ∧
        msg.payload = [1, 2, 3] ∧ msg.groupID = 5 ∧ msg.fabricIndex = 2 := by
  refine ⟨by decide +kernel, ?_⟩
  refine group_message_round_trip receiver fabricTwo mem_cons_self epochA 77 (headerTo 5) [1, 2, 3]
    (sentBytes (headerTo 5)) ⟨8, ⟨8, [epochA]⟩, rfl, rfl, mem_cons_self⟩ rfl rfl (by decide) (by decide +kernel) ?_
  decide +kernel

/-- A message to group 0 and a message with the control flag are sealed and
masked, and refused; a destination node id is lost. -/
theorem group_message_refused :
    (MapsTo fabricTwo 0 epochA ∧ (sentDatagram toyCrypto.aes epochA 77 (headerTo 0) [1, 2, 3]).isOk = true ∧
      OnlyUnder receiver fabricTwo epochA (headerTo 0) (sentBytes (headerTo 0)) ∧
      (receiver.decode (sentBytes (headerTo 0))).1 = .error .groupIDMissing) ∧
    (MapsTo fabricTwo 5 epochA ∧
      (sentDatagram toyCrypto.aes epochA 77 { headerTo 5 with control := true } [1, 2, 3]).isOk = true ∧
      OnlyUnder receiver fabricTwo epochA (headerTo 5) (sentBytes { headerTo 5 with control := true }) ∧
      (receiver.decode (sentBytes { headerTo 5 with control := true })).1 = .error .decrypt) ∧
    (receiver.decode (sentBytes (headerTo 5))).1.toOption.map (fun msg => msg.header.destNodeID) = some 0 := by
  refine ⟨⟨⟨8, ⟨8, [epochA]⟩, rfl, rfl, mem_cons_self⟩, by decide +kernel⟩, ⟨?_, by decide +kernel⟩, by decide +kernel⟩
  exact ⟨8, ⟨8, [epochA]⟩, rfl, rfl, mem_cons_self⟩

end GF.Proof.Groups
