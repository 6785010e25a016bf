import GoFabric.Framework.Except
import GoFabric.Spec.Message

/-!
# The message header codec is exact

`UnmarshalHeader` accepts exactly the buffers that start with a wire form of a
header that keeps its rules, and returns that header and the length of the
form (`unmarshalHeader_eq_ok`). The round trip and what is known of an accepted
buffer both follow from it.
-/

namespace GF.Proof.Message

open GF.Impl.Message GF.Spec.Message List

variable {buf bs ext : List Byte} {n pos : Nat} {what : Extension} {h : Header} {r : Header × Nat} {f s : Byte}

/-! ## Fields -/

theorem toNat_ofNat_leNat (h : bs.length = n) : (BitVec.ofNat (8 * n) (leNat bs)).toNat = leNat bs := by
  have hlt := leNat_lt bs
  rw [h, show (256 : Nat) = 2 ^ 8 from rfl, ← Nat.pow_mul] at hlt
  rw [BitVec.toNat_ofNat, Nat.mod_eq_of_lt hlt]

theorem ofNat_leNat_toNat (v : BitVec (8 * n)) : BitVec.ofNat (8 * n) (leNat (leBytes n v.toNat)) = v := by
  have hlt : v.toNat < 256 ^ n := by
    rw [show (256 : Nat) = 2 ^ 8 from rfl, ← Nat.pow_mul]
    exact v.isLt
  rw [leNat_leBytes_of_lt hlt, BitVec.ofNat_toNat, BitVec.setWidth_eq]

/-- The bytes that a number is read from are its bytes. -/
theorem leBytes_ofNat_leNat (h : bs.length = n) : leBytes n (BitVec.ofNat (8 * n) (leNat bs)).toNat = bs := by
  rw [toNat_ofNat_leNat h, ← h, leBytes_leNat]

theorem take_of_starts {l : List Byte} (h : bs <+: l) : l.take bs.length = bs :=
  (prefix_iff_eq_take.1 h).symm

theorem readUint_eq_ok {field : Field} {v : BitVec (8 * n)} (hn : 0 < n) :
    readUint field n buf pos = .ok v ↔ leBytes n v.toNat <+: buf.drop pos := by
  unfold readUint
  constructor
  · intro h
    split at h
    · cases h
    · rw [← Except.ok.inj h, leBytes_ofNat_leNat (length_take_drop (by omega))]
      exact take_prefix n _
  · intro hp
    have hlen := hp.length_le
    have ht := take_of_starts hp
    rw [length_leBytes, length_drop] at hlen
    rw [length_leBytes] at ht
    rw [if_neg (by omega), ht, ofNat_leNat_toNat]

/-- A block is read back when its bytes stand at the front. -/
theorem readExtension_of_prefix (hext : ext.length < 65536) (hp : leBytes 2 ext.length ++ ext <+: buf) :
    readExtension buf what = .ok (ext, 2 + ext.length) := by
  obtain ⟨rest, rfl⟩ := hp
  have hlen : 2 ≤ (leBytes 2 ext.length ++ ext ++ rest).length := by
    simp only [length_append, length_leBytes]
    omega
  unfold readExtension
  rw [leNat_take_block hext, drop_block, if_neg (Nat.not_lt.2 hlen), if_neg (by simp), take_left]

theorem prefix_of_readExtension (h : readExtension buf what = .ok (ext, n)) :
    ext.length < 65536 ∧ n = 2 + ext.length ∧ leBytes 2 ext.length ++ ext <+: buf := by
  unfold readExtension at h
  split at h
  · cases h
  dsimp only at h
  split at h
  · cases h
  obtain ⟨rfl, rfl⟩ := Prod.mk.inj (Except.ok.inj h)
  obtain ⟨hlt, hext, hback⟩ := block_eq (k := 2) buf (by omega)
  rw [hext, hback]
  refine ⟨hlt, rfl, ?_⟩
  rw [append_prefix_iff, length_take_of_le (by omega)]
  exact ⟨List.take_prefix 2 buf, take_prefix _ _⟩

theorem readExtension_eq_ok :
    readExtension buf what = .ok (ext, n) ↔
      ext.length < 65536 ∧ n = 2 + ext.length ∧ leBytes 2 ext.length ++ ext <+: buf := by
  constructor
  · exact prefix_of_readExtension
  · rintro ⟨hext, rfl, hp⟩
    exact readExtension_of_prefix hext hp

/-! ## The announced fields

Each of them is read from its bytes and moves the position behind them; one
that is not announced has none and keeps its value. -/

section Stages

theorem optional_uint_eq_ok {H : Type} {present : Prop} [Decidable present] {field : Field} (hn : 0 < n)
    {set : BitVec (8 * n) → H} {h : H} {zero : BitVec (8 * n)} (hz : set zero = h) {r : H × Nat} :
    (if present then do
        let v ← readUint field n buf pos
        pure (set v, pos + n)
      else .ok (h, pos)) = .ok r ↔
      ∃ v, (¬present → v = zero) ∧ (if present then leBytes n v.toNat else []) <+: buf.drop pos ∧
        r = (set v, pos + (if present then leBytes n v.toNat else []).length) := by
  by_cases hp : present
  · simp only [if_pos hp, except_bind_eq_ok, readUint_eq_ok hn, length_leBytes]
    exact ⟨fun ⟨v, hv, hr⟩ => ⟨v, fun hn => absurd hp hn, hv, (Except.ok.inj hr).symm⟩,
      fun ⟨v, _, hv, hr⟩ => ⟨v, hv, congrArg Except.ok hr.symm⟩⟩
  · simp only [if_neg hp, nil_prefix, length_nil, Nat.add_zero, true_and]
    exact ⟨fun hr => ⟨zero, fun _ => rfl, by rw [hz, Except.ok.inj hr]⟩,
      fun ⟨v, hv, hr⟩ => by rw [hr, hv hp, hz]⟩

theorem optional_extension_eq_ok {H : Type} {present : Bool} (set : List Byte → H) {h : H} {zero : List Byte}
    (hz : set zero = h) (hlen : zero.length < 65536) {r : H × Nat} :
    (if present then do
        let r ← readExtension (buf.drop pos) what
        pure (set r.1, pos + r.2)
      else .ok (h, pos)) = .ok r ↔
      ∃ ext, (present = false → ext = zero) ∧ ext.length < 65536 ∧ extensionBytes present ext <+: buf.drop pos ∧
        r = (set ext, pos + (extensionBytes present ext).length) := by
  cases present with
  | true =>
    simp only [if_true, except_bind_eq_ok, Prod.exists, readExtension_eq_ok, extensionBytes, length_append]
    constructor
    · rintro ⟨ext, n, ⟨hext, rfl, hp⟩, hr⟩
      exact ⟨ext, nofun, hext, hp, (Except.ok.inj hr).symm⟩
    · rintro ⟨ext, -, hext, hp, rfl⟩
      exact ⟨ext, 2 + ext.length, ⟨hext, rfl, hp⟩, rfl⟩
  | false =>
    simp only [Bool.false_eq_true, if_false, extensionBytes, nil_prefix, length_nil, Nat.add_zero, true_and,
      forall_const]
    constructor
    · intro hr
      exact ⟨zero, rfl, hlen, by rw [hz, Except.ok.inj hr]⟩
    · rintro ⟨ext, hext, -, rfl⟩
      rw [hext, hz]

theorem readSource_eq_ok :
    readSource h buf pos = .ok r ↔
      ∃ v, (¬h.hasSourceNodeID → v = h.sourceNodeID) ∧ sourceBytes { h with sourceNodeID := v } <+: buf.drop pos ∧
        r = ({ h with sourceNodeID := v }, pos + (sourceBytes { h with sourceNodeID := v }).length) :=
  optional_uint_eq_ok (by decide) rfl

theorem readDest_eq_ok :
    readDest h buf pos = .ok r ↔
      ∃ v w, (h.destSize ≠ .nodeID → v = h.destNodeID) ∧ (h.destSize ≠ .group → w = h.destGroupID) ∧
        (h.destSize = .none ∨ h.destSize = .nodeID ∨ h.destSize = .group) ∧
        destBytes { h with destNodeID := v, destGroupID := w } <+: buf.drop pos ∧
        r = ({ h with destNodeID := v, destGroupID := w },
          pos + (destBytes { h with destNodeID := v, destGroupID := w }).length) := by
  unfold readDest destBytes
  by_cases h1 : h.destSize = .nodeID
  · have h0 : h.destSize ≠ .none := by rw [h1]; decide
    have h2 : h.destSize ≠ .group := by rw [h1]; decide
    simp only [if_neg h0, if_pos h1, except_bind_eq_ok, readUint_eq_ok (show 0 < 8 by decide)]
    exact ⟨fun ⟨v, hv, hr⟩ => ⟨v, h.destGroupID, fun hn => absurd h1 hn, fun _ => rfl, .inr (.inl h1), hv,
        (Except.ok.inj hr).symm⟩,
      fun ⟨v, w, _, hw, _, hv, hr⟩ => ⟨v, hv, by rw [hr, hw h2]; rfl⟩⟩
  by_cases h2 : h.destSize = .group
  · have h0 : h.destSize ≠ .none := by rw [h2]; decide
    simp only [if_neg h0, if_neg h1, if_pos h2, except_bind_eq_ok, readUint_eq_ok (show 0 < 2 by decide)]
    exact ⟨fun ⟨w, hw, hr⟩ => ⟨h.destNodeID, w, fun _ => rfl, fun hn => absurd h2 hn, .inr (.inr h2), hw,
        (Except.ok.inj hr).symm⟩,
      fun ⟨v, w, hv, _, _, hw, hr⟩ => ⟨w, hw, by rw [hr, hv h1]; rfl⟩⟩
  by_cases h0 : h.destSize = .none
  · simp only [if_pos h0, if_neg h1, if_neg h2, nil_prefix, length_nil, Nat.add_zero]
    exact ⟨fun hr => ⟨h.destNodeID, h.destGroupID, fun _ => rfl, fun _ => rfl, .inl h0, trivial,
        (Except.ok.inj hr).symm⟩,
      fun ⟨v, w, hv, hw, _, _, hr⟩ => by rw [hr, hv h1, hw h2]⟩
  · simp only [if_neg h0, if_neg h1, if_neg h2]
    constructor
    · intro hr
      cases hr
    · rintro ⟨_, _, _, _, h | h | h, _⟩
      exacts [absurd h h0, absurd h h1, absurd h h2]

theorem readMessageExtension_eq_ok (hlen : h.messageExtension.length < 65536) :
    readMessageExtension h buf pos = .ok r ↔
      ∃ ext, (h.hasExtension = false → ext = h.messageExtension) ∧ ext.length < 65536 ∧
        extensionBytes h.hasExtension ext <+: buf.drop pos ∧
        r = ({ h with messageExtension := ext }, pos + (extensionBytes h.hasExtension ext).length) := by
  exact optional_extension_eq_ok (fun ext => ({ h with messageExtension := ext } : Header)) rfl hlen

/-- A header with other announced fields. -/
def fill (h : Header) (src node : BitVec 64) (group : BitVec 16) (ext : List Byte) : Header :=
  { h with sourceNodeID := src, destNodeID := node, destGroupID := group, messageExtension := ext }

theorem readAnnounced_eq_ok (hlen : h.messageExtension.length < 65536) :
    readAnnounced h buf pos = .ok r ↔
      ∃ src node group ext,
        (¬h.hasSourceNodeID → src = h.sourceNodeID) ∧
        (h.destSize ≠ .nodeID → node = h.destNodeID) ∧
        (h.destSize ≠ .group → group = h.destGroupID) ∧
        (h.hasExtension = false → ext = h.messageExtension) ∧ ext.length < 65536 ∧
        (h.destSize = .none ∨ h.destSize = .nodeID ∨ h.destSize = .group) ∧
        announcedBytes (fill h src node group ext) <+: buf.drop pos ∧
        r = (fill h src node group ext, pos + (announcedBytes (fill h src node group ext)).length) := by
  constructor
  · intro hr
    obtain ⟨r1, hsource, hr⟩ := except_bind_eq_ok.1 hr
    obtain ⟨r2, hdest, hr⟩ := except_bind_eq_ok.1 hr
    obtain ⟨src, hsrc, hpsrc, rfl⟩ := readSource_eq_ok.1 hsource
    obtain ⟨node, group, hnode, hgroup, hd, hpd, rfl⟩ := readDest_eq_ok.1 hdest
    obtain ⟨ext, hnoext, hextlen, hpext, rfl⟩ := (readMessageExtension_eq_ok (by exact hlen)).1 hr
    refine ⟨src, node, group, ext, hsrc, hnode, hgroup, hnoext, hextlen, hd, ?_, ?_⟩
    · rw [announcedBytes, append_prefix_iff, append_prefix_iff, drop_drop, drop_drop]
      exact ⟨hpsrc, hpd, hpext⟩
    · rw [announcedBytes, length_append, length_append, ← Nat.add_assoc, ← Nat.add_assoc]
      rfl
  · rintro ⟨src, node, group, ext, hsrc, hnode, hgroup, hnoext, hextlen, hd, hp, rfl⟩
    rw [announcedBytes, append_prefix_iff, append_prefix_iff, drop_drop, drop_drop] at hp
    obtain ⟨hpsrc, hpd, hpext⟩ := hp
    refine except_bind_eq_ok.2 ⟨_, readSource_eq_ok.2 ⟨src, hsrc, hpsrc, rfl⟩, ?_⟩
    refine except_bind_eq_ok.2 ⟨_, readDest_eq_ok.2 ⟨node, group, hnode, hgroup, hd, hpd, rfl⟩, ?_⟩
    refine (readMessageExtension_eq_ok (by exact hlen)).2 ⟨ext, hnoext, hextlen, hpext, ?_⟩
    rw [announcedBytes, length_append, length_append, ← Nat.add_assoc, ← Nat.add_assoc]
    rfl

end Stages

/-! ## The fixed part -/

/-- A buffer of eight bytes starts with the fixed part it is read as. -/
theorem fixedBytes_starts (h : 8 ≤ buf.length) :
    fixedBytes (buf.getD 0 0) (buf.getD 3 0) (fixedHeader buf) <+: buf := by
  match buf, h with
  | b₀ :: b1 :: b2 :: b3 :: b4 :: b5 :: b6 :: b7 :: rest, _ =>
    have hs : leBytes 2 (BitVec.ofNat 16 (leNat [b1, b2])).toNat = [b1, b2] := leBytes_ofNat_leNat rfl
    have hc : leBytes 4 (BitVec.ofNat 32 (leNat [b4, b5, b6, b7])).toNat = [b4, b5, b6, b7] :=
      leBytes_ofNat_leNat rfl
    refine ⟨rest, ?_⟩
    show [b₀] ++ leBytes 2 (BitVec.ofNat 16 (leNat [b1, b2])).toNat ++ [b3] ++
      leBytes 4 (BitVec.ofNat 32 (leNat [b4, b5, b6, b7])).toNat ++ rest = _
    rw [hs, hc]
    rfl

/-- A header without the fields that the flags announce. -/
def bare (h : Header) : Header :=
  { h with sourceNodeID := 0, destNodeID := 0, destGroupID := 0, messageExtension := [], raw := [] }

theorem fixedHeader_of_prefix (ha : Announces f s h) (hc : h.control = false) (hp : fixedBytes f s h <+: buf) :
    8 ≤ buf.length ∧ buf.getD 0 0 = f ∧ buf.getD 3 0 = s ∧ fixedHeader buf = bare h := by
  obtain ⟨rest, rfl⟩ := hp
  have hs : BitVec.ofNat 16 (leNat (leBytes 2 h.sessionID.toNat)) = h.sessionID := ofNat_leNat_toNat _
  have hm : BitVec.ofNat 32 (leNat (leBytes 4 h.messageCounter.toNat)) = h.messageCounter :=
    ofNat_leNat_toNat _
  refine ⟨?_, rfl, rfl, ?_⟩
  · simp only [fixedBytes, length_append, length_leBytes, length_singleton]
    omega
  show ({ Header.zero with
    sessionID := BitVec.ofNat 16 (leNat (leBytes 2 h.sessionID.toNat))
    messageCounter := BitVec.ofNat 32 (leNat (leBytes 4 h.messageCounter.toNat))
    hasSourceNodeID := f &&& msgFlagSourcePres != 0
    destSize := f &&& msgFlagDSizMask
    sessionType := s &&& secFlagSessionTypeMask
    privacy := s &&& secFlagPrivacy != 0
    hasExtension := s &&& secFlagExtensions != 0 } : Header) = bare h
  rw [hs, hm, ← ha.source, ← ha.dest, ← ha.session, ← ha.privacy, ← ha.extension]
  unfold bare Header.zero
  rw [hc]

theorem headerError_eq_none :
    headerError buf = none ∧ ((fixedHeader buf).destSize = .none ∨
        (fixedHeader buf).destSize = .nodeID ∨ (fixedHeader buf).destSize = .group) ↔
      buf.getD 0 0 &&& msgFlagVersionMask = msgFlagVersion0 ∧ buf.getD 3 0 &&& secFlagControl = 0 ∧
        Rules (fixedHeader buf) := by
  simp only [headerError, ite_some_eq_none]
  constructor
  · rintro ⟨⟨hv, ht, hc, hu, hn, hg, hs, -⟩, hd⟩
    refine ⟨not_not.1 hv, not_not.1 hc, ?_, hd, rfl, ?_, ?_, ?_⟩
    all_goals tauto
  rintro ⟨hv, hc, hr⟩
  have h1 := hr.sessionType
  have h2 := hr.unicast
  have h3 := hr.unsecured
  have h4 := hr.group
  exact ⟨⟨by tauto, by tauto, by tauto, by tauto, by tauto, by tauto, by tauto, trivial⟩, hr.destSize⟩

/-! ## The header -/

theorem length_fixedBytes (f s : Byte) (h : Header) : (fixedBytes f s h).length = 8 := by
  simp [fixedBytes]

/-- An accepted buffer starts with a wire form of the header it is read as. -/
theorem wire_of_unmarshalHeader (hok : unmarshalHeader buf = .ok (h, n)) :
    ∃ f s, Announces f s h ∧ Rules h ∧ Clean h ∧ h.raw = wire f s h ∧ n = (wire f s h).length ∧
      wire f s h <+: buf := by
  unfold unmarshalHeader at hok
  split at hok <;> [cases hok; skip]
  split at hok <;> [cases hok; skip]
  rename_i he
  obtain ⟨r, hread, hok⟩ := except_bind_eq_ok.1 hok
  obtain ⟨src, node, group, ext, hsrc, hnode, hgroup, hnoext, hextlen, hd, hp, rfl⟩ :=
    (readAnnounced_eq_ok (show ([] : List Byte).length < 65536 by decide)).1 hread
  obtain ⟨hv, hc, hrules⟩ := headerError_eq_none.1 ⟨he, hd⟩
  have hwire : wire (buf.getD 0 0) (buf.getD 3 0) (fill (fixedHeader buf) src node group ext) <+: buf := by
    rw [wire, append_prefix_iff]
    exact ⟨fixedBytes_starts (by omega), hp⟩
  have hlength : (wire (buf.getD 0 0) (buf.getD 3 0) (fill (fixedHeader buf) src node group ext)).length =
      8 + (announcedBytes (fill (fixedHeader buf) src node group ext)).length := by
    rw [wire, length_append, length_fixedBytes]
  have hraw := take_of_starts hwire
  rw [hlength] at hraw
  obtain ⟨rfl, rfl⟩ := Prod.mk.inj (Except.ok.inj hok)
  refine ⟨buf.getD 0 0, buf.getD 3 0, ⟨hv, rfl, rfl, rfl, rfl, ?_, rfl⟩, { hrules with },
    ⟨?_, hnode, hgroup, hnoext, hextlen⟩, hraw, hlength.symm, hwire⟩
  · rw [hc]
    rfl
  · intro hf
    exact hsrc (by rw [show (fixedHeader buf).hasSourceNodeID = false from hf]; exact Bool.false_ne_true)

/-- A buffer that starts with a wire form is read as the header. -/
theorem unmarshalHeader_of_wire (ha : Announces f s h) (hr : Rules h) (hc : Clean h) (hp : wire f s h <+: buf) :
    unmarshalHeader buf = .ok ({ h with raw := wire f s h }, (wire f s h).length) := by
  have hp' := hp
  rw [wire, append_prefix_iff] at hp'
  obtain ⟨hlen, hf, hs, hbare⟩ := fixedHeader_of_prefix ha hr.control hp'.1
  have he : headerError buf = none := by
    refine (headerError_eq_none.2 ⟨?_, ?_, ?_⟩).1
    · rw [hf, ha.version]
    · have hctl := ha.control
      rw [hr.control] at hctl
      rw [hs]
      simpa using hctl.symm
    · rw [hbare]
      exact { hr with }
  have hread : readAnnounced (fixedHeader buf) buf 8 =
      .ok ({ h with raw := [] }, 8 + (announcedBytes h).length) := by
    rw [hbare]
    refine (readAnnounced_eq_ok (show ([] : List Byte).length < 65536 by decide)).2
      ⟨h.sourceNodeID, h.destNodeID, h.destGroupID, h.messageExtension, ?_, hc.destNode, hc.destGroup, hc.noExtension,
        hc.extension, hr.destSize, hp'.2, rfl⟩
    intro hn
    exact hc.source (Bool.not_eq_true _ ▸ hn)
  have hraw := take_of_starts hp
  unfold unmarshalHeader
  rw [if_neg (by omega), he]
  show (readAnnounced (fixedHeader buf) buf 8 >>= _) = _
  rw [except_bind_ok hread]
  have hlength : 8 + (announcedBytes h).length = (wire f s h).length := by
    rw [wire, length_append, length_fixedBytes]
  show Except.ok ({ h with raw := buf.take (8 + (announcedBytes h).length) }, 8 + (announcedBytes h).length) = _
  rw [hlength, hraw]

/-! ## The flag bytes -/

/-- The first flag byte that `Marshal` writes. -/
def messageFlags (h : Header) : Byte :=
  (if h.hasSourceNodeID then msgFlagVersion0 ||| msgFlagSourcePres else msgFlagVersion0) |||
    (h.destSize &&& msgFlagDSizMask)

theorem marshal_eq (h : Header) : h.marshal = wire (messageFlags h) h.securityFlags h := by
  simp only [Header.marshal, wire, announcedBytes, sourceBytes, destBytes, extensionBytes, fixedBytes, messageFlags,
    appendExtension]
  split_ifs <;> simp only [append_assoc, append_nil, nil_append]

theorem announces_marshal (hr : Rules h) : Announces (messageFlags h) h.securityFlags h := by
  have hflags : ∀ source : Bool, ∀ d ∈ [DestSize.none, DestSize.nodeID, DestSize.group],
      let f := (if source then msgFlagVersion0 ||| msgFlagSourcePres else msgFlagVersion0) ||| (d &&& msgFlagDSizMask)
      f &&& msgFlagVersionMask = msgFlagVersion0 ∧ source = (f &&& msgFlagSourcePres != 0) ∧
        d = f &&& msgFlagDSizMask := by decide
  have hsec : ∀ t ∈ [SessionType.unsecured, SessionType.group], ∀ privacy extension : Bool,
      let s := Header.securityFlags { Header.zero with sessionType := t, privacy, hasExtension := extension }
      t = s &&& secFlagSessionTypeMask ∧ privacy = (s &&& secFlagPrivacy != 0) ∧ false = (s &&& secFlagControl != 0) ∧
        extension = (s &&& secFlagExtensions != 0) := by decide
  have hc : h.securityFlags = Header.securityFlags
      { Header.zero with sessionType := h.sessionType, privacy := h.privacy, hasExtension := h.hasExtension } := by
    unfold Header.securityFlags
    rw [hr.control]
    rfl
  obtain ⟨hv, hs, hd⟩ := hflags h.hasSourceNodeID h.destSize (by simpa using hr.destSize)
  obtain ⟨ht, hp, hctl, he⟩ := hsec h.sessionType (by simpa using hr.sessionType) h.privacy h.hasExtension
  rw [← hc] at ht hp hctl he
  exact ⟨hv, hs, hd, ht, hp, hr.control.trans hctl, he⟩

/-- The flag bytes are those of `Marshal` when their reserved bits are zero. -/
theorem flags_eq_iff (ha : Announces f s h) (hc : h.control = false) :
    (messageFlags h = f ∧ h.securityFlags = s) ↔ f &&& 0x08 = 0 ∧ s &&& 0x1C = 0 := by
  have hflags : ∀ f : Byte, f &&& msgFlagVersionMask = msgFlagVersion0 →
      ((if f &&& msgFlagSourcePres != 0 then msgFlagVersion0 ||| msgFlagSourcePres else msgFlagVersion0) |||
        (f &&& msgFlagDSizMask &&& msgFlagDSizMask) = f ↔ f &&& 0x08 = 0) := by decide +kernel
  have hsec : ∀ s : Byte, false = (s &&& secFlagControl != 0) →
      (Header.securityFlags { Header.zero with
          sessionType := s &&& secFlagSessionTypeMask, privacy := s &&& secFlagPrivacy != 0,
          hasExtension := s &&& secFlagExtensions != 0 } = s ↔ s &&& 0x1C = 0) := by decide +kernel
  have hctl := ha.control
  rw [hc] at hctl
  have hs : h.securityFlags = Header.securityFlags
      { Header.zero with
        sessionType := s &&& secFlagSessionTypeMask, privacy := s &&& secFlagPrivacy != 0,
        hasExtension := s &&& secFlagExtensions != 0 } := by
    unfold Header.securityFlags
    rw [hc, ha.session, ha.privacy, ha.extension]
    rfl
  rw [messageFlags, ha.source, ha.dest, hs, hflags f ha.version, hsec s hctl]

/-! ## The protocol header -/

theorem protocolFlags_announce (initiator needsAck hasAck hasSecuredExt hasVendorID : Bool) :
    let f := ProtocolHeader.flags { initiator, needsAck, hasAck, hasSecuredExt, hasVendorID }
    (f &&& exchFlagInitiator != 0) = initiator ∧ (f &&& exchFlagReliability != 0) = needsAck ∧
      (f &&& exchFlagAck != 0) = hasAck ∧ (f &&& exchFlagSecuredExt != 0) = hasSecuredExt ∧
      (f &&& exchFlagVendor != 0) = hasVendorID := by
  revert initiator needsAck hasAck hasSecuredExt hasVendorID
  decide

theorem protocol_marshal_eq (h : ProtocolHeader) :
    h.marshal = [h.flags, h.opcode] ++ leBytes 2 h.exchangeID.toNat ++
      ((if h.hasVendorID then leBytes 2 h.vendorID.toNat else []) ++ (leBytes 2 h.protocolID.toNat ++
        ((if h.hasAck then leBytes 4 h.ackCounter.toNat else []) ++
          extensionBytes h.hasSecuredExt h.securedExtension))) := by
  simp only [ProtocolHeader.marshal, extensionBytes, appendExtension]
  split_ifs <;> simp only [append_assoc, append_nil, nil_append]

theorem fixedProtocolHeader_marshal (h : ProtocolHeader) (rest : List Byte) :
    fixedProtocolHeader ([h.flags, h.opcode] ++ leBytes 2 h.exchangeID.toNat ++ rest) =
      { h with protocolID := 0, vendorID := 0, ackCounter := 0, securedExtension := [] } := by
  have hx : BitVec.ofNat 16 (leNat (leBytes 2 h.exchangeID.toNat)) = h.exchangeID := ofNat_leNat_toNat _
  obtain ⟨hi, hn, ha, hs, hv⟩ :=
    protocolFlags_announce h.initiator h.needsAck h.hasAck h.hasSecuredExt h.hasVendorID
  show ({ initiator := h.flags &&& exchFlagInitiator != 0
          needsAck := h.flags &&& exchFlagReliability != 0
          hasAck := h.flags &&& exchFlagAck != 0
          hasSecuredExt := h.flags &&& exchFlagSecuredExt != 0
          hasVendorID := h.flags &&& exchFlagVendor != 0
          opcode := h.opcode
          exchangeID := BitVec.ofNat 16 (leNat (leBytes 2 h.exchangeID.toNat)) } : ProtocolHeader) = _
  rw [hx, show h.flags = ProtocolHeader.flags
    { initiator := h.initiator, needsAck := h.needsAck, hasAck := h.hasAck, hasSecuredExt := h.hasSecuredExt,
      hasVendorID := h.hasVendorID } from rfl, hi, hn, ha, hs, hv]

theorem unmarshalProtocolHeader_marshal {h : ProtocolHeader} (hc : ProtocolClean h) (payload : List Byte) :
    unmarshalProtocolHeader (h.marshal ++ payload) = .ok (h, h.marshal.length) := by
  have hp : h.marshal <+: h.marshal ++ payload := prefix_append _ _
  have hfix := fixedProtocolHeader_marshal h
  have hlen : h.marshal.length = 4 + (if h.hasVendorID then leBytes 2 h.vendorID.toNat else []).length + 2 +
      (if h.hasAck then leBytes 4 h.ackCounter.toNat else []).length +
      (extensionBytes h.hasSecuredExt h.securedExtension).length := by
    rw [protocol_marshal_eq]
    simp only [length_append, length_leBytes, length_cons, length_nil]
    omega
  generalize hbuf : h.marshal ++ payload = buf at hp
  rw [protocol_marshal_eq] at hp
  obtain ⟨-, hp⟩ := append_prefix_iff.1 hp
  obtain ⟨hv, hp⟩ := append_prefix_iff.1 hp
  obtain ⟨hpid, hp⟩ := append_prefix_iff.1 hp
  obtain ⟨ha, he⟩ := append_prefix_iff.1 hp
  have hfixed : fixedProtocolHeader buf =
      { h with protocolID := 0, vendorID := 0, ackCounter := 0, securedExtension := [] } := by
    rw [← hbuf, protocol_marshal_eq, append_assoc, hfix]
  simp only [drop_drop] at hpid ha he
  unfold unmarshalProtocolHeader
  rw [if_neg (by rw [← hbuf, length_append]; omega), hfixed, hlen]
  refine except_bind_eq_ok.2 ⟨_, (optional_uint_eq_ok (by decide) rfl).2 ⟨h.vendorID, ?_, hv, rfl⟩, ?_⟩
  · intro hn
    exact hc.vendor (Bool.not_eq_true _ ▸ hn)
  refine except_bind_eq_ok.2 ⟨h.protocolID, (readUint_eq_ok (by decide)).2 hpid, ?_⟩
  refine except_bind_eq_ok.2 ⟨_, (optional_uint_eq_ok (by decide) rfl).2 ⟨h.ackCounter, ?_, ha, rfl⟩, ?_⟩
  · intro hn
    exact hc.ack (Bool.not_eq_true _ ▸ hn)
  exact (optional_extension_eq_ok (fun ext => ({ h with securedExtension := ext } : ProtocolHeader)) rfl
    (show ([] : List Byte).length < 65536 by decide)).2 ⟨h.securedExtension, hc.noExtension, hc.extension, he, rfl⟩

/-! ## Both directions -/

/-- What an accepted buffer is: every part of it is needed, and all of it is
authenticated. -/
theorem unmarshalHeader_take {k : Nat} (hok : unmarshalHeader buf = .ok (h, n)) (hk : k < n) :
    ∃ e, unmarshalHeader (buf.take k) = .error e := by
  cases hr : unmarshalHeader (buf.take k) with
  | error e => exact ⟨e, rfl⟩
  | ok r =>
    -- what the prefix is read as, the buffer is read as too
    exfalso
    obtain ⟨f, s, ha, hrules, hclean, -, hn, hp⟩ := wire_of_unmarshalHeader hr
    have hlong := unmarshalHeader_of_wire ha hrules hclean (hp.trans (List.take_prefix k buf))
    rw [hok] at hlong
    have hn' : n = (wire f s r.1).length := congrArg Prod.snd (Except.ok.inj hlong)
    have hle := hp.length_le
    rw [length_take] at hle
    omega

/-- Re-marshalling an accepted buffer gives it back when its reserved bits are
zero. -/
theorem marshal_eq_take_iff (hok : unmarshalHeader buf = .ok (h, n)) :
    h.marshal = buf.take n ↔ buf.getD 0 0 &&& 0x08 = 0 ∧ buf.getD 3 0 &&& 0x1C = 0 := by
  obtain ⟨f, s, ha, hr, -, -, rfl, hp⟩ := wire_of_unmarshalHeader hok
  have hfixed := hp
  rw [wire, append_prefix_iff] at hfixed
  obtain ⟨-, hf, hs, -⟩ := fixedHeader_of_prefix ha hr.control hfixed.1
  rw [take_of_starts hp, hf, hs, ← flags_eq_iff ha hr.control, marshal_eq]
  constructor
  · intro heq
    -- equal wire forms have equal flag bytes
    exact ⟨congrArg (fun bs : List Byte => bs.getD 0 0) heq, congrArg (fun bs : List Byte => bs.getD 3 0) heq⟩
  · rintro ⟨hf, hs⟩
    rw [hf, hs]

/-- A header that keeps the rules is read back from its bytes, with these
bytes kept, and so is a protocol header; and every byte of an accepted header
is needed, authenticated and, but for the reserved bits, written again. -/
theorem header_codec_exact :
    (∀ (h : Header) (payload : List Byte), Rules h → Clean h →
      unmarshalHeader (h.marshal ++ payload) = .ok ({ h with raw := h.marshal }, h.marshal.length)) ∧
    (∀ (h : ProtocolHeader) (payload : List Byte), ProtocolClean h →
      unmarshalProtocolHeader (h.marshal ++ payload) = .ok (h, h.marshal.length)) ∧
    (∀ (buf : List Byte) (h : Header) (n : Nat), unmarshalHeader buf = .ok (h, n) →
      n ≤ buf.length ∧ (∀ k < n, ∃ e, unmarshalHeader (buf.take k) = .error e) ∧ h.aad = buf.take n ∧
        (h.marshal = buf.take n ↔ buf.getD 0 0 &&& 0x08 = 0 ∧ buf.getD 3 0 &&& 0x1C = 0)) := by
  refine ⟨?_, ?_, ?_⟩
  · intro h payload hr hc
    rw [marshal_eq]
    exact unmarshalHeader_of_wire (announces_marshal hr) hr hc (prefix_append _ _)
  · intro h payload hc
    exact unmarshalProtocolHeader_marshal hc payload
  intro buf h n hok
  obtain ⟨f, s, -, -, -, hraw, hn, hp⟩ := wire_of_unmarshalHeader hok
  refine ⟨hn ▸ hp.length_le, fun k hk => unmarshalHeader_take hok hk, ?_, marshal_eq_take_iff hok⟩
  have hpos : h.raw.length > 0 := by
    rw [hraw, wire, length_append, length_fixedBytes]
    omega
  rw [Header.aad, if_pos hpos, hraw, hn, take_of_starts hp]

def groupSample : Header :=
  { Header.zero with
    sessionID := 0x1234, messageCounter := 7, hasSourceNodeID := true, sourceNodeID := 0x1122334455667788,
    destSize := .group, destGroupID := 0x0101, sessionType := SessionType.group, privacy := true,
    hasExtension := true, messageExtension := [0xAA, 0xBB] }

/-- A protocol header with an acknowledgement and no vendor. -/
def protocolSample : ProtocolHeader :=
  { initiator := true, hasAck := true, opcode := 0x05, exchangeID := 9, protocolID := 1, ackCounter := 41 }

theorem header_codec_exact_group :
    (Rules groupSample ∧ Clean groupSample ∧
      unmarshalHeader (groupSample.marshal ++ [0x01]) =
        .ok ({ groupSample with raw := groupSample.marshal }, groupSample.marshal.length)) ∧
    (ProtocolClean protocolSample ∧ unmarshalProtocolHeader (protocolSample.marshal ++ [0x01]) =
      .ok (protocolSample, protocolSample.marshal.length)) ∧
    (∀ k < groupSample.marshal.length, ∃ e,
      unmarshalHeader ((groupSample.marshal ++ [0x01]).take k) = .error e) := by
  have hr : Rules groupSample := by decide
  have hc : Clean groupSample := by decide
  have hp : ProtocolClean protocolSample :=
    ⟨fun _ => rfl, fun h => absurd h (by decide), fun _ => rfl, by decide⟩
  have hok := header_codec_exact.1 groupSample [0x01] hr hc
  exact ⟨⟨hr, hc, hok⟩, ⟨hp, header_codec_exact.2.1 protocolSample [0x01] hp⟩, (header_codec_exact.2.2 _ _ _ hok).2.1⟩

/-- A unicast header that names a source node and does not announce it. -/
def straySource : Header := { Header.zero with sessionID := 1, sourceNodeID := 5 }

/-- A header without its announcement: the source node id is not sent, and the
header that comes back has none, and keeps the bytes it came from. -/
theorem stray_fields_lost :
    Rules straySource ∧
      unmarshalHeader straySource.marshal =
        .ok ({ Header.zero with sessionID := 1, raw := straySource.marshal }, straySource.marshal.length) ∧
      { Header.zero with sessionID := 1, raw := straySource.marshal } ≠ straySource ∧
      { Header.zero with sessionID := 1, raw := straySource.marshal } ≠
        { straySource with raw := straySource.marshal } := by
  decide +kernel

end GF.Proof.Message
