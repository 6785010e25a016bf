import GoFabric.Impl.Channel.Group
import GoFabric.Proof.Aesccm
import GoFabric.Proof.Message

/-!
# Sealed group messages

Both directions of header privacy XOR one stream of blocks (`obfuscate_eq`,
`applyPrivacyMask_stream`), so the receiver's mask undoes the sender's. A header that `EncryptGroup` takes comes back from its bytes, but for
a destination node id that is not sent (`unmarshalHeader_sealed`).
-/

namespace GF.Proof.Channel

open GF.Impl.Channel GF.Impl.Message GF.Spec.Message GF.Spec.Ccm GF.Proof.Message GF.Proof.Aesccm List
open GF.Impl.Aesccm (CCM Block blockCount blockSize tagSize)

variable {aes : List Byte → Block → Block} {pk nonce data mic : List Byte}

/-! ## The privacy mask -/

/-- The blocks of the privacy mask, which both sides build. -/
def privacyBlocks (aes : List Byte → Block → Block) (pk nonce : List Byte) (j : Nat) : Block :=
  aes pk (Impl.Aesccm.toBlock ([privacyCTRFlags] ++ nonce ++ beBytes 2 (BitVec.ofNat 16 (j + 1)).toNat))

theorem obfuscate_eq (hkey : pk.length = 16) (hn : nonce.length = 13) :
    obfuscate aes pk data nonce = .ok (xored (privacyBlocks aes pk nonce) data) := by
  rw [obfuscate, if_neg (by simp [hkey, privacyKeySize]), if_neg (by simp [hn, privacyNonceSize]), ← xor_loop]
  rfl

theorem obfuscate_keySource (hkey : pk.length ≠ 16) :
    obfuscate aes pk data nonce = .error (.keySource pk.length) := if_pos hkey

/-- The privacy nonce of a message with this tag. -/
def nonceOf (sessionID : BitVec 16) (mic : List Byte) : List Byte := beBytes 2 sessionID.toNat ++ mic.drop 5

theorem length_nonceOf (sid : BitVec 16) (hm : mic.length = 16) : (nonceOf sid mic).length = 13 := by
  rw [nonceOf, length_append, length_beBytes, length_drop, hm]

theorem privacyNonce_eq (sid : BitVec 16) (hm : mic.length = 16) : privacyNonce sid mic = .ok (nonceOf sid mic) := by
  rw [privacyNonce, if_neg (by simp [hm, privacyMICLength])]
  rfl

theorem privacyKeystream_eq (hkey : pk.length = 16) (sid : BitVec 16) (hm : mic.length = 16) (n : Nat) :
    privacyKeystream aes pk sid mic n =
      .ok (stream (privacyBlocks aes pk (nonceOf sid mic)) (if blockCount n = 0 then 1 else blockCount n)) := by
  rw [privacyKeystream, if_neg (by simp [hkey, privacyKeySize])]
  simp only [hm, append_assoc _ (beBytes 2 sid.toNat)]
  rfl

/-- A mask is one block at least; no data needs none of it. -/
theorem applyPrivacyMask_stream (f : Nat → Block) (data : List Byte) :
    applyPrivacyMask (stream f (if blockCount data.length = 0 then 1 else blockCount data.length)) data =
      .ok (xored f data) := by
  cases data with
  | nil =>
    show applyPrivacyMask (stream f 1) [] = .ok []
    rw [applyPrivacyMask, if_neg (by rw [length_stream]; decide)]
    rfl
  | cons b data =>
    have hpos : blockCount (b :: data).length ≠ 0 := by
      simp only [blockCount, blockSize, length_cons]
      omega
    have hlen := le_length_stream f (b :: data).length
    rw [if_neg hpos, applyPrivacyMask, if_neg, if_neg (Nat.not_lt.2 hlen)]
    · rfl
    · rw [length_stream, privacyKeySize]
      omega

/-- The header as it goes on the wire under the privacy mask. -/
theorem obfuscateGroupHeader_eq {sid : BitVec 16} {hdr ct wh : List Byte}
    (h : obfuscateGroupHeader aes pk sid hdr ct = .ok wh) :
    pk.length = 16 ∧ (ct.drop (ct.length - 16)).length = 16 ∧ 4 ≤ hdr.length ∧
      wh = hdr.take 4 ++ xored (privacyBlocks aes pk (nonceOf sid (ct.drop (ct.length - 16)))) (hdr.drop 4) := by
  unfold obfuscateGroupHeader at h
  split at h <;> [cases h; skip]
  rename_i hlen
  split at h <;> [cases h; skip]
  rename_i hct
  have hmic : (ct.drop (ct.length - 16)).length = 16 := by
    simp only [tagSize] at hct
    rw [length_drop]
    omega
  simp only [tagSize, privacyNonce_eq sid hmic, privacyHeaderOffset] at h
  by_cases hkey : pk.length = 16
  · rw [obfuscate_eq hkey (length_nonceOf sid hmic)] at h
    exact ⟨hkey, hmic, Nat.le_of_not_lt hlen, (Except.ok.inj h).symm⟩
  · rw [obfuscate_keySource hkey] at h
    cases h

theorem applyPrivacyMask_eq_ok {mask r : List Byte} (h : applyPrivacyMask mask data = .ok r) :
    ¬mask.length < privacyKeySize ∧ data.length ≤ mask.length ∧ r = List.zipWith (· ^^^ ·) data mask := by
  obtain ⟨hmask, h⟩ := ite_error_eq_ok.1 h
  obtain ⟨hlen, h⟩ := ite_error_eq_ok.1 h
  exact ⟨hmask, Nat.le_of_not_lt hlen, (Except.ok.inj h).symm⟩

theorem maskLoop_eq {mask before after : List Byte} (h : data.length ≤ mask.length) :
    maskLoop mask before.length data.length (before ++ data ++ after) =
      before ++ List.zipWith (· ^^^ ·) data mask ++ after := by
  induction data generalizing mask before with
  | nil => rfl
  | cons b data ih =>
    cases mask with
    | nil => cases h
    | cons m mask =>
      have hfirst : (before ++ b :: data ++ after).modify (before.length + 0) (· ^^^ m) =
          before ++ [b ^^^ m] ++ data ++ after := by
        rw [modify_eq_take_cons_drop (by simp)]
        simp
      have hrest := @ih mask (before ++ [b ^^^ m]) (Nat.le_of_succ_le_succ h)
      rw [maskLoop, length_append] at hrest
      rw [maskLoop, length_cons, range_succ_eq_map, foldl_cons, foldl_map, getD_cons_zero, hfirst]
      simpa [Nat.add_assoc, Nat.add_comm 1] using hrest

/-- Header privacy, under any block function. A receiver that masks a region with the
keystream gets the bytes of the sender's `Obfuscate`; either undoes itself; and no byte
outside the region changes. -/
theorem privacy_masks_agree (aes : List Byte → Block → Block) (pk : List Byte) (sid : BitVec 16) (mic : List Byte)
    (hm : mic.length = privacyMICLength) :
    (∀ region : List Byte, (privacyKeystream aes pk sid mic region.length >>= (applyPrivacyMask · region)) =
      privacyNonce sid mic >>= obfuscate aes pk region) ∧
    (∀ region r, (privacyNonce sid mic >>= obfuscate aes pk region) = .ok r →
      (privacyNonce sid mic >>= obfuscate aes pk r) = .ok region) ∧
    (∀ mask region r, applyPrivacyMask mask region = .ok r → applyPrivacyMask mask r = .ok region ∧
      ∀ before after, maskLoop mask before.length region.length (before ++ region ++ after) = before ++ r ++ after) ∧
    ∀ headerBytes ct wire, obfuscateGroupHeader aes pk sid headerBytes ct = .ok wire →
      wire.take 4 = headerBytes.take 4 ∧ wire.length = headerBytes.length := by
  have hn := length_nonceOf sid hm
  refine ⟨?_, ?_, ?_, ?_⟩
  · intro region
    rw [privacyNonce_eq sid hm]
    show _ = obfuscate aes pk region (nonceOf sid mic)
    by_cases hkey : pk.length = privacyKeySize
    · rw [privacyKeystream_eq hkey sid hm, obfuscate_eq hkey hn]
      exact applyPrivacyMask_stream _ region
    · rw [obfuscate_keySource hkey, privacyKeystream, if_pos hkey]
      rfl
  · intro region r h
    rw [privacyNonce_eq sid hm] at h ⊢
    change obfuscate aes pk _ (nonceOf sid mic) = _ at h ⊢
    by_cases hkey : pk.length = 16
    · rw [obfuscate_eq hkey hn] at h ⊢
      rw [← Except.ok.inj h, xored_xored]
    · rw [obfuscate_keySource hkey] at h
      cases h
  · intro mask region r h
    obtain ⟨hmask, hlen, rfl⟩ := applyPrivacyMask_eq_ok h
    refine ⟨?_, fun before after => maskLoop_eq hlen⟩
    rw [applyPrivacyMask, if_neg hmask, if_neg (by simp [hlen]), zipWith_xor_twice hlen]
  · intro headerBytes ct wire h
    obtain ⟨-, -, hlen, rfl⟩ := obfuscateGroupHeader_eq h
    have htake := length_take_of_le hlen
    rw [length_append, length_xored, length_drop, take_left' htake]
    exact ⟨rfl, by omega⟩

/-- A region of two blocks. -/
theorem privacy_masks_agree_reversal :
    (privacyKeystream (fun _ => Vector.reverse) (List.replicate 16 3) 5 (List.replicate 16 2) 20 >>=
        (applyPrivacyMask · (List.replicate 20 9))) =
      privacyNonce 5 (List.replicate 16 2) >>=
        obfuscate (fun _ => Vector.reverse) (List.replicate 16 3) (List.replicate 20 9) :=
  (privacy_masks_agree (fun _ => Vector.reverse) (List.replicate 16 3) 5 (List.replicate 16 2) rfl).1
    (List.replicate 20 9)

/-! ## A sealed header -/

/-- What `EncryptGroup` took. -/
structure Sealed (aes : List Byte → Block → Block) (key : List Byte) (header : Header)
    (payload headerBytes ciphertext : List Byte) : Prop where
  session : header.sessionType = SessionType.group
  dest : header.destSize = DestSize.group
  source : header.hasSourceNodeID = true
  noExtension : header.hasExtension = false
  extension : header.messageExtension = []
  bytes : headerBytes = header.marshal
  keyLength : key.length = 16
  sealed : (CCM.mk (aes key)).seal [] (buildNonce header.securityFlags header.messageCounter header.sourceNodeID) payload
    headerBytes = .ok ciphertext

theorem getD_marshal_three (h : Header) : h.marshal.getD 3 0 = h.securityFlags := by
  rw [marshal_eq]
  rfl

theorem sealed_of_encryptGroup {key : List Byte} {source : BitVec 64} {header : Header} {payload hdr ct : List Byte}
    (h : encryptGroup aes key source header payload = .ok (hdr, ct)) : Sealed aes key header payload hdr ct := by
  unfold encryptGroup at h
  split at h <;> [cases h; skip]
  rename_i hgroup
  obtain ⟨hsession, hdest⟩ := not_or.1 hgroup
  have hsession := Decidable.not_not.1 hsession
  have hdest := Decidable.not_not.1 hdest
  unfold Header.marshalPacket at h
  rw [if_neg (by rw [hdest]; decide)] at h
  split at h
  · cases h
  rename_i bytes hbytes
  split at hbytes <;> [cases hbytes; skip]
  rename_i hext
  split at hbytes <;> [cases hbytes; skip]
  rename_i hsrc
  split at hbytes <;> [cases hbytes; skip]
  obtain rfl := Except.ok.inj hbytes
  split at h <;> [cases h; skip]
  split at h <;> [cases h; skip]
  rename_i hkey
  simp only [getD_marshal_three] at h
  split at h
  · cases h
  rename_i hseal
  obtain ⟨rfl, rfl⟩ := Prod.mk.inj (Except.ok.inj h)
  refine ⟨hsession, hdest, ?_, ?_, ?_, rfl, Decidable.not_not.1 hkey, hseal⟩
  · simp only [hsession, hdest, true_and, not_true_eq_false, false_or, ne_eq, Decidable.not_not] at hsrc
    exact hsrc
  · exact Bool.eq_false_iff.2 fun hx => hext (.inl hx)
  · exact eq_nil_of_length_eq_zero (Nat.eq_zero_of_not_pos fun hx => hext (.inr hx))

section Sealed

variable {key payload hdr ct : List Byte} {header : Header}

section

variable (h : Sealed aes key header payload hdr ct)
include h

theorem Sealed.length_headerBytes : hdr.length = 18 := by
  rw [h.bytes, marshal_eq, wire]
  simp only [announcedBytes, sourceBytes, destBytes, h.source, h.dest, h.noExtension]
  rfl

theorem Sealed.take_four :
    hdr.take 4 = [messageFlags header] ++ leBytes 2 header.sessionID.toNat ++ [header.securityFlags] := by
  rw [h.bytes, marshal_eq]
  rfl

/-- A header that was sealed is read back, without a destination node id. -/
theorem Sealed.unmarshalHeader (hc : header.control = false) (rest : List Byte) :
    unmarshalHeader (hdr ++ rest) = .ok ({ header with destNodeID := 0, raw := hdr }, hdr.length) := by
  have hr : Rules { header with destNodeID := 0 } := by
    have hs : header.sessionType ≠ SessionType.unsecured := by
      rw [h.session]
      decide
    exact ⟨.inr h.session, .inr (.inr h.dest), hc, fun hu => absurd hu hs, fun hu => absurd hu hs,
      fun _ => ⟨h.dest, h.source⟩⟩
  have hclean : Clean { header with destNodeID := 0 } := by
    refine ⟨fun hn => ?_, fun _ => rfl, fun hn => absurd h.dest hn, fun _ => h.extension, ?_⟩
    · rw [h.source] at hn
      cases hn
    · show header.messageExtension.length < 65536
      rw [h.extension]
      decide
  -- the destination node id is not on the wire
  have hbytes : hdr = Header.marshal { header with destNodeID := 0 } := by
    rw [h.bytes]
    simp only [Header.marshal, h.dest]
    rfl
  generalize hsent : ({ header with destNodeID := 0 } : Header) = sent at hr hclean hbytes
  rw [marshal_eq] at hbytes
  have hprefix : wire (messageFlags sent) sent.securityFlags sent <+: hdr ++ rest := by
    rw [hbytes]
    exact prefix_append _ rest
  have hread := unmarshalHeader_of_wire (announces_marshal hr) hr hclean hprefix
  rw [hread, ← hbytes, ← hsent]

theorem Sealed.payload_lt : payload.length < 2 ^ 16 := by
  have hs := h.sealed
  unfold CCM.seal at hs
  split at hs <;> [cases hs; skip]
  split at hs <;> [cases hs; skip]
  omega
end

theorem length_buildNonce (secFlags : Byte) (counter : BitVec 32) (source : BitVec 64) :
    (buildNonce secFlags counter source).length = 13 := by
  simp [buildNonce]

/-- The ciphertext opens under the nonce and the bytes of its header. -/
theorem Sealed.open (h : Sealed aes key header payload hdr ct) :
    (CCM.mk (aes key)).open [] (buildNonce header.securityFlags header.messageCounter header.sourceNodeID) ct
      hdr = .ok payload :=
  open_seal _ (length_buildNonce _ _ _) h.payload_lt hdr h.sealed

theorem Sealed.tag_le (h : Sealed aes key header payload hdr ct) : 16 ≤ ct.length := by
  have hs := h.sealed
  rw [seal_eq _ (length_buildNonce _ _ _) h.payload_lt] at hs
  rw [← Except.ok.inj hs, length_append, Vector.length_toList]
  exact Nat.le_add_left _ _

end Sealed

end GF.Proof.Channel
