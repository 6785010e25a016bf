import GoFabric.Framework.Except
import GoFabric.Spec.Onboarding

/-!
# QR codes

The characters of a group are the base-38 digits of its bytes, so a string is
decoded to the bytes it encodes (`base38Decode_encode`) and encodes the bytes it
is decoded to (`base38Encode_decode`). The fields of the header are the digits of
its 88 bits in a mixed radix (`packBits_eq`, `toNat_field`).
-/

namespace GF.Proof.Setup

open GF.Impl.Setup GF.Spec.Onboarding List

variable {off bytes n d v : Nat} {bs data chars s code part : List Byte} {p : Payload} {α ε β : Type}
  {w₀ w₁ : BitVec 64}

/-! ## Base 38 -/

def base38Char (d : Nat) : Byte := base38Alphabet.getD d 0

theorem idxOf_base38Char (h : d < 38) : base38Char d ∈ base38Alphabet ∧ base38Alphabet.idxOf (base38Char d) = d := by
  have hchar : base38Alphabet.get ⟨d, h⟩ = base38Char d := getElem_eq_getD 0
  have hnodup : base38Alphabet.Nodup := by decide
  rw [← hchar]
  exact ⟨get_mem _ _, hnodup.idxOf_getElem d h⟩

theorem base38Char_idxOf {ch : Byte} (h : ch ∈ base38Alphabet) :
    base38Alphabet.idxOf ch < 38 ∧ base38Char (base38Alphabet.idxOf ch) = ch := by
  have hlt : base38Alphabet.idxOf ch < 38 := idxOf_lt_length_iff.mpr h
  exact ⟨hlt, (getElem_eq_getD 0).symm.trans (getElem_idxOf hlt)⟩

theorem base38Value_eq_ok : base38Value off chars = .ok v ↔
    (∀ ch ∈ chars, ch ∈ base38Alphabet) ∧ Nat.ofDigits 38 (chars.map base38Alphabet.idxOf) = v := by
  induction chars generalizing off v with
  | nil => simp [base38Value]
  | cons ch chars ih =>
    simp only [base38Value, except_bind_eq_ok, ih, forall_mem_cons, map_cons, Nat.ofDigits_cons]
    cases hidx : base38Alphabet.idxOf? ch with
    | none => simp [idxOf?_eq_none_iff.1 hidx]
    | some d =>
      have hmem : ch ∈ base38Alphabet := List.isSome_idxOf?.1 (by rw [hidx]; rfl)
      have hd : base38Alphabet.idxOf ch = d := by rw [idxOf_eq_getD_idxOf?, hidx]; rfl
      simp [hmem, hd, Nat.mul_comm, Nat.add_comm]

theorem base38Value_digits {ds : List Nat} (h : ∀ d ∈ ds, d < 38) (off : Nat) :
    base38Value off (ds.map base38Char) = .ok (Nat.ofDigits 38 ds) := by
  refine base38Value_eq_ok.2 ⟨forall_mem_map.2 fun d hd => (idxOf_base38Char (h d hd)).1, ?_⟩
  rw [map_map_cancel fun d hd => (idxOf_base38Char (h d hd)).2]

theorem digits_of_base38Value (h : base38Value off chars = .ok v) :
    ∃ ds : List Nat, (∀ d ∈ ds, d < 38) ∧ chars = ds.map base38Char ∧ v = Nat.ofDigits 38 ds := by
  obtain ⟨hchars, rfl⟩ := base38Value_eq_ok.1 h
  refine ⟨_, forall_mem_map.2 fun ch hch => (base38Char_idxOf (hchars ch hch)).1, ?_, rfl⟩
  exact (map_map_cancel fun ch hch => (base38Char_idxOf (hchars ch hch)).2).symm
theorem length_base38Group (chars v : Nat) : (base38Group chars v).length = chars := by
  rw [base38Group, length_map, length_lowDigits]

theorem one_shiftLeft_bits : 1 <<< (8 * bytes) = 256 ^ bytes := by
  rw [Nat.one_shiftLeft, Nat.pow_mul]

theorem decodeGroup_base38Group {chars : Nat} (hc : v < 38 ^ chars) (hb : v < 256 ^ bytes) (off : Nat) :
    base38DecodeGroup off (base38Group chars v) bytes = .ok (leBytes bytes v) := by
  have hvalue : base38Value off (base38Group chars v) = .ok v := by
    have h := @base38Value_digits (lowDigits 38 chars v) (lowDigits_lt (by decide)) off
    rwa [ofDigits_lowDigits hc] at h
  unfold base38DecodeGroup
  rw [except_bind_ok hvalue, one_shiftLeft_bits]
  exact if_neg (Nat.not_le.mpr hb)

/-- What a group is decoded to has the group as its characters. -/
theorem base38Group_of_decodeGroup {out : List Byte} (h : base38DecodeGroup off chars bytes = .ok out) :
    ∃ v, out = leBytes bytes v ∧ leNat out = v ∧ base38Group chars.length v = chars := by
  unfold base38DecodeGroup at h
  rw [except_bind_eq_ok] at h
  obtain ⟨v, hv, h⟩ := h
  rw [ite_error_eq_ok, one_shiftLeft_bits] at h
  obtain ⟨hlt, h⟩ := h
  obtain ⟨ds, hds, rfl, rfl⟩ := digits_of_base38Value hv
  refine ⟨_, (Except.ok.inj h).symm, ?_, ?_⟩
  · rw [← Except.ok.inj h]
    exact leNat_leBytes_of_lt (Nat.not_le.mp hlt)
  · rw [base38Group, length_map, lowDigits_ofDigits hds]
    rfl

theorem leNat_lt_of_length {bound : Nat} (hb : 256 ^ n ≤ bound) (h : bs.length = n) :
    leNat bs < bound := Nat.lt_of_lt_of_le (h ▸ leNat_lt bs) hb

theorem decodeGroup_bytes {chars : Nat} (hb : 256 ^ bytes ≤ 38 ^ chars) (h : bs.length = bytes) (off : Nat) :
    base38DecodeGroup off (base38Group chars (leNat bs)) bytes = .ok bs := by
  have hgroup := decodeGroup_base38Group (leNat_lt_of_length hb h) (leNat_lt_of_length (Nat.le_refl _) h) off
  have hbytes := leBytes_leNat bs
  rw [h] at hbytes
  rwa [hbytes] at hgroup

theorem base38Loop_encode (data : List Byte) (off : Nat) : base38Loop off (base38Encode data) = .ok data := by
  induction data using base38Encode.induct generalizing off with
  | case1 a b c rest ih =>
    have hgroup : base38DecodeGroup off (base38Group 5 (leNat [a, b, c])) 3 = .ok [a, b, c] :=
      decodeGroup_bytes (by decide : 256 ^ 3 ≤ 38 ^ 5) rfl off
    refine (except_bind_ok hgroup).trans ?_
    exact except_bind_ok (ih (off + 5))
  | case2 a b =>
    have hgroup : base38DecodeGroup off (base38Group 4 (leNat [a, b])) 2 = .ok [a, b] :=
      decodeGroup_bytes (by decide : 256 ^ 2 ≤ 38 ^ 4) rfl off
    exact hgroup
  | case3 a =>
    have hgroup : base38DecodeGroup off (base38Group 2 (leNat [a])) 1 = .ok [a] :=
      decodeGroup_bytes (by decide : 256 ^ 1 ≤ 38 ^ 2) rfl off
    exact hgroup
  | case4 => rfl

theorem length_base38Encode (data : List Byte) :
    (base38Encode data).length % 5 = 0 ∨ (base38Encode data).length % 5 = 2 ∨ (base38Encode data).length % 5 = 4 := by
  induction data using base38Encode.induct with
  | case1 a b c rest ih =>
    rw [base38Encode, length_append, length_base38Group]
    omega
  | case2 a b => exact .inr (.inr rfl)
  | case3 a => exact .inr (.inl rfl)
  | case4 => exact .inl rfl

theorem base38Decode_encode (data : List Byte) : base38Decode (base38Encode data) = .ok data := by
  unfold base38Decode
  rw [if_pos (length_base38Encode data)]
  exact base38Loop_encode data 0

theorem base38Encode_append (h : bs.length = 3) (rest : List Byte) :
    base38Encode (bs ++ rest) = base38Group 5 (leNat bs) ++ base38Encode rest := by
  match bs, h with
  | [a, b, c], _ => rw [cons_append, cons_append, cons_append, nil_append, base38Encode]

/-- The loop returns bytes whose characters it read. -/
theorem base38Encode_loop (hlen : s.length % 5 = 0 ∨ s.length % 5 = 2 ∨ s.length % 5 = 4)
    (h : base38Loop off s = .ok data) : base38Encode data = s := by
  induction off, s using base38Loop.induct generalizing data with
  | case1 off a b c d e rest ih =>
    rw [base38Loop, except_bind_eq_ok] at h
    obtain ⟨out, hout, h⟩ := h
    rw [except_bind_eq_ok] at h
    obtain ⟨more, hmore, h⟩ := h
    obtain ⟨v, hbytes, rfl, hchars⟩ := base38Group_of_decodeGroup hout
    have hthree : out.length = 3 := by rw [hbytes, length_leBytes]
    have hrest : base38Encode more = rest := ih (by simp only [length_cons] at hlen; omega) hmore
    obtain rfl : out ++ more = data := Except.ok.inj h
    rw [base38Encode_append hthree, hrest]
    exact congrArg (· ++ rest) hchars
  | case2 off a b c d =>
    obtain ⟨v, hbytes, rfl, hchars⟩ := base38Group_of_decodeGroup h
    have htwo : data.length = 2 := by rw [hbytes, length_leBytes]
    match data, htwo, hchars with
    | [x, y], _, hchars => exact hchars
  | case3 off a b =>
    obtain ⟨v, hbytes, rfl, hchars⟩ := base38Group_of_decodeGroup h
    have hone : data.length = 1 := by rw [hbytes, length_leBytes]
    match data, hone, hchars with
    | [x], _, hchars => exact hchars
  | case4 s off h5 h4 h2 =>
    -- No other rest has a length that was let through.
    match s, h5, h4, h2, hlen, h with
    | [], _, _, _, _, h => rw [← Except.ok.inj h]; rfl
    | [a], _, _, _, hlen, _ => simp at hlen
    | [a, b], _, _, h2, _, _ => exact absurd rfl (h2 a b)
    | [a, b, c], _, _, _, hlen, _ => simp at hlen
    | [a, b, c, d], _, h4, _, _, _ => exact absurd rfl (h4 a b c d)
    | a :: b :: c :: d :: e :: rest, h5, _, _, _, _ => exact absurd rfl (h5 a b c d e rest)

theorem base38Encode_decode (h : base38Decode s = .ok data) : base38Encode data = s := by
  unfold base38Decode at h
  split at h
  · rename_i hlen
    exact base38Encode_loop hlen h
  · cases h

/-! Which strings are accepted. -/

theorem decodeGroup_accepts : (∃ out, base38DecodeGroup off chars bytes = .ok out) ↔
    (∀ ch ∈ chars, ch ∈ base38Alphabet) ∧ Nat.ofDigits 38 (chars.map base38Alphabet.idxOf) < 256 ^ bytes := by
  simp only [base38DecodeGroup, except_bind_eq_ok, base38Value_eq_ok, one_shiftLeft_bits, ite_error_eq_ok]
  constructor
  · rintro ⟨out, v, ⟨hchars, rfl⟩, hlt, -⟩
    exact ⟨hchars, Nat.not_le.mp hlt⟩
  · rintro ⟨hchars, hlt⟩
    exact ⟨_, _, ⟨hchars, rfl⟩, Nat.not_le.mpr hlt, rfl⟩

theorem base38Loop_accepts : (∃ out, base38Loop off s = .ok out) ↔ ∀ g ∈ base38Groups s,
    (∀ ch ∈ g.1, ch ∈ base38Alphabet) ∧ Nat.ofDigits 38 (g.1.map base38Alphabet.idxOf) < 256 ^ g.2 := by
  induction off, s using base38Loop.induct with
  | case1 off a b c d e rest ih =>
    rw [base38Groups, forall_mem_cons, ← ih, ← @decodeGroup_accepts off]
    simp only [base38Loop, except_bind_eq_ok]
    constructor
    · rintro ⟨data, out, hout, more, hmore, -⟩
      exact ⟨⟨out, hout⟩, more, hmore⟩
    · rintro ⟨⟨out, hout⟩, more, hmore⟩
      exact ⟨_, out, hout, more, hmore, rfl⟩
  | case2 off a b c d | case3 off a b =>
    rw [base38Groups, forall_mem_singleton]
    exact decodeGroup_accepts
  | case4 s off h5 h4 h2 =>
    rw [base38Loop, base38Groups]
    · exact ⟨fun _ g hg => absurd hg not_mem_nil, fun _ => ⟨[], rfl⟩⟩
    all_goals assumption

/-- Strings and bytes determine each other, and just the canonical strings are accepted. -/
theorem base38_bijection :
    (∀ data, base38Decode (base38Encode data) = .ok data) ∧
    (∀ s data, base38Decode s = .ok data → base38Encode data = s) ∧
    (∀ s t data, base38Decode s = .ok data → base38Decode t = .ok data → s = t) ∧
    ∀ s, (∃ data, base38Decode s = .ok data) ↔ Canonical s := by
  refine ⟨base38Decode_encode, fun _ _ => base38Encode_decode, fun s t data hs ht => ?_, fun s => ?_⟩
  · exact (base38Encode_decode hs).symm.trans (base38Encode_decode ht)
  unfold base38Decode
  by_cases hlen : s.length % 5 = 0 ∨ s.length % 5 = 2 ∨ s.length % 5 = 4
  · rw [if_pos hlen, base38Loop_accepts]
    exact ⟨fun h => ⟨hlen, fun g hg => (h g hg).1, fun g hg => (h g hg).2⟩,
      fun h g hg => ⟨h.chars g hg, h.values g hg⟩⟩
  · rw [if_neg hlen]
    exact ⟨nofun, fun h => absurd h.length hlen⟩

/-! ## The header -/

/-- A number put above others. -/
theorem put_eq {a k : Nat} (h : a < 2 ^ k) (v width : Nat) : put (a, k) v width = (a + v * 2 ^ k, k + width) := by
  unfold put
  rw [Nat.or_comm, ← Nat.shiftLeft_add_eq_or_of_lt h, Nat.shiftLeft_eq, Nat.add_comm]

structure FieldsFit (p : Payload) : Prop where
  version : p.version.toNat < 2 ^ 3
  customFlow : p.customFlow.toNat < 2 ^ 2
  discriminator : p.discriminator.toNat < 2 ^ 12
  passcode : p.passcode.toNat < 2 ^ 27

/-- The number with the fields as its digits. -/
def headerNat (p : Payload) : Nat :=
  p.version.toNat + p.vendorID.toNat * 2 ^ 3 + p.productID.toNat * 2 ^ 19 + p.customFlow.toNat * 2 ^ 35 +
    p.discoveryCaps.toNat * 2 ^ 37 + p.discriminator.toNat * 2 ^ 45 + p.passcode.toNat * 2 ^ 57

theorem packBits_eq (h : FieldsFit p) : packBits p = headerNat p := by
  obtain ⟨h1, h2, h3, h4⟩ := h
  unfold packBits headerNat
  dsimp only
  rw [put_eq (k := 0) (by decide), put_eq (k := 3) (by omega), put_eq (k := 19) (by omega),
    put_eq (k := 35) (by omega), put_eq (k := 37) (by omega), put_eq (k := 45) (by omega), put_eq (k := 57) (by omega),
    put_eq (by omega)]
  omega

theorem headerNat_lt (h : FieldsFit p) : headerNat p < 2 ^ 84 := by
  obtain ⟨h1, h2, h3, h4⟩ := h
  unfold headerNat
  omega

/-- The bytes of a word, least significant first. -/
theorem toNat_headerWord {i : Nat} (h : i + bs.length ≤ 8) : (headerWord i bs).toNat = leNat bs * 2 ^ (8 * i) := by
  induction bs generalizing i with
  | nil => simp [headerWord, leNat]
  | cons b bs ih =>
    rw [length_cons] at h
    have hb := b.isLt
    have hpow : 2 ^ (8 * (i + 1)) = 256 * 2 ^ (8 * i) := by
      rw [Nat.mul_add, Nat.pow_add, Nat.mul_comm]
    have hle : 2 ^ (8 * (i + 1)) ≤ 2 ^ 64 := Nat.pow_le_pow_right (by decide) (by omega)
    have hlow : b.toNat * 2 ^ (8 * i) < 2 ^ (8 * (i + 1)) := by
      rw [hpow]
      exact Nat.mul_lt_mul_of_pos_right hb (Nat.two_pow_pos _)
    have hshift : (b.setWidth 64 <<< (8 * i)).toNat = b.toNat * 2 ^ (8 * i) := by
      have hwide : b.toNat % 2 ^ 64 = b.toNat := Nat.mod_eq_of_lt (by omega)
      rw [BitVec.toNat_shiftLeft, BitVec.toNat_setWidth, hwide, Nat.shiftLeft_eq]
      exact Nat.mod_eq_of_lt (Nat.lt_of_lt_of_le hlow hle)
    have hor := Nat.shiftLeft_add_eq_or_of_lt hlow (leNat bs)
    rw [headerWord, BitVec.toNat_or, hshift, ih (by omega), Nat.or_comm, ← Nat.shiftLeft_eq, ← hor, Nat.shiftLeft_eq,
      leNat]
    ring

theorem shifted_bit (w : BitVec 64) (k : Nat) : (w >>> k &&& 1 = 1) ↔ w.toNat.testBit k = true := by
  rw [← BitVec.toNat_inj, BitVec.toNat_and, BitVec.toNat_ushiftRight, Nat.testBit, bne_iff_ne, Nat.and_comm]
  show 1 &&& _ = 1 ↔ 1 &&& _ ≠ 0
  rw [Nat.one_and_eq_mod_two]
  omega

/-- A bit of a number in two words. -/
theorem bit_of_words (h0 : w₀.toNat = n % 2 ^ 64) (h1 : w₁.toNat = n / 2 ^ 64) (pos : Nat) (hpos : pos < 128) :
    ((if pos / 64 = 0 then w₀ else w₁) >>> (pos % 64) &&& 1 = 1) ↔ n.testBit pos = true := by
  rw [shifted_bit]
  split
  · have hlt : pos < 64 := by omega
    rw [h0, Nat.mod_eq_of_lt hlt, Nat.testBit_mod_two_pow, decide_eq_true hlt, Bool.true_and]
  · have hmod : pos % 64 + 64 = pos := by omega
    rw [h1, Nat.testBit_div_two_pow, hmod]

/-- A field is the bits at its place. -/
theorem toNat_field (h0 : w₀.toNat = n % 2 ^ 64) (h1 : w₁.toNat = n / 2 ^ 64) {offset width : Nat} (hw : width ≤ 64)
    (hfit : offset + width ≤ 128) : (field (w₀, w₁) offset width).toNat = n / 2 ^ offset % 2 ^ width := by
  induction width with
  | zero => simp [field, Nat.mod_one]
  | succ b ih =>
    have ih := ih (by omega) (by omega)
    have hbit := bit_of_words h0 h1 (offset + b) (by omega)
    have hlt : n / 2 ^ offset % 2 ^ b < 2 ^ b := Nat.mod_lt _ (Nat.two_pow_pos b)
    have hone : ((1 : BitVec 64) <<< b).toNat = 1 <<< b := by
      have hpow : 2 ^ b < 2 ^ 64 := Nat.pow_lt_pow_right (by decide) (by omega)
      show 1 <<< b % 2 ^ 64 = _
      rw [Nat.one_shiftLeft]
      exact Nat.mod_eq_of_lt hpow
    rw [field, Nat.mod_pow_succ, ← Nat.toNat_testBit, Nat.testBit_div_two_pow, Nat.add_comm b]
    cases hset : n.testBit (offset + b) with
    | true =>
      rw [if_pos (hbit.2 hset), BitVec.toNat_or, hone, ih, Nat.or_comm, ← Nat.shiftLeft_add_eq_or_of_lt hlt,
        Nat.one_shiftLeft, Bool.toNat_true, Nat.mul_one, Nat.add_comm]
    | false =>
      rw [if_neg (mt hbit.1 (by rw [hset]; decide)), ih, Bool.toNat_false, Nat.mul_zero, Nat.add_zero]
/-- The digits of a header. -/
def headerOf (n : Nat) : Payload :=
  { version := BitVec.ofNat 8 (n / 2 ^ 0 % 2 ^ 3)
    vendorID := BitVec.ofNat 16 (n / 2 ^ 3 % 2 ^ 16)
    productID := BitVec.ofNat 16 (n / 2 ^ 19 % 2 ^ 16)
    customFlow := BitVec.ofNat 8 (n / 2 ^ 35 % 2 ^ 2)
    discoveryCaps := BitVec.ofNat 8 (n / 2 ^ 37 % 2 ^ 8)
    discriminator := BitVec.ofNat 16 (n / 2 ^ 45 % 2 ^ 12)
    passcode := BitVec.ofNat 32 (n / 2 ^ 57 % 2 ^ 27) }

theorem readHeader_eq (h : 11 ≤ data.length) : readHeader data = headerOf (leNat (data.take 11)) := by
  have h8 : (data.take 8).length = 8 := by rw [length_take]; omega
  have h3 : ((data.drop 8).take 3).length = 3 := by rw [length_take, length_drop]; omega
  have hsplit : data.take 11 = data.take 8 ++ (data.drop 8).take 3 := by rw [← take_add]
  have hlow := leNat_lt (data.take 8)
  rw [h8] at hlow
  have hn : leNat (data.take 11) = leNat (data.take 8) + 2 ^ 64 * leNat ((data.drop 8).take 3) := by
    rw [hsplit, leNat_append, h8]
    omega
  have h0 : (headerWord 0 (data.take 8)).toNat = leNat (data.take 11) % 2 ^ 64 := by
    rw [toNat_headerWord (by omega)]
    omega
  have h1 : (headerWord 0 ((data.drop 8).take 3)).toNat = leNat (data.take 11) / 2 ^ 64 := by
    rw [toNat_headerWord (by omega)]
    omega
  have hfield {w offset width : Nat} (hw : width ≤ 64) (hfit : offset + width ≤ 128) :=
    (BitVec.ofNat_toNat w _).symm.trans (congrArg (BitVec.ofNat w) (toNat_field h0 h1 hw hfit))
  unfold readHeader
  dsimp only
  congr 1 <;> exact hfield (by decide) (by decide)

theorem ofNat_toNat_of_eq {w : Nat} {v : BitVec w} (h : n = v.toNat) : BitVec.ofNat w n = v := by
  rw [h, BitVec.ofNat_toNat, BitVec.setWidth_eq]

theorem headerOf_headerNat (h : FieldsFit p) : headerOf (headerNat p) = { p with extra := none } := by
  obtain ⟨h1, h2, h3, h4⟩ := h
  unfold headerOf headerNat
  congr 1 <;> exact ofNat_toNat_of_eq (by omega)

theorem headerNat_headerOf (h : n < 2 ^ 84) : headerNat (headerOf n) = n := by
  unfold headerNat headerOf
  simp only [BitVec.toNat_ofNat]
  omega

theorem fieldsFit_headerOf (n : Nat) : FieldsFit (headerOf n) := by
  unfold headerOf
  constructor <;> (simp only [BitVec.toNat_ofNat]; omega)

/-! ## The tail -/

theorem setDefault_raw {e e' : Extra} {tag : BitVec 32} {el : GF.Impl.Tlv.Element}
    (h : e.setDefault tag el = .ok e') : e'.raw = e.raw := by
  unfold Extra.setDefault at h
  split at h
  · unfold setSerialNumber at h
    split at h <;> cases h <;> rfl
  · rw [ite_error_eq_ok] at h
    obtain ⟨-, ⟨⟩⟩ := h
    rfl
  · unfold setSalt at h
    split at h
    all_goals first | (rw [ite_error_eq_ok] at h; obtain ⟨-, ⟨⟩⟩ := h; rfl) | cases h
  · rw [ite_error_eq_ok] at h
    obtain ⟨-, ⟨⟩⟩ := h
    rfl
  · rw [ite_error_eq_ok] at h
    obtain ⟨-, ⟨⟩⟩ := h
    rfl
  · cases h
    rfl

theorem yields_liftExcept {P : α → Prop} {r : Except DecodeError α} (h : ∀ a, r = .ok a → P a) :
    Yields (liftExcept r) P := by
  cases r with
  | ok a => exact yields_pure (h a rfl)
  | error e => exact yields_fail e

theorem yields_raw (fuel : Nat) (e : Extra) : Yields (decodeExtraLoop fuel e) (fun e' => e'.raw = e.raw) := by
  induction fuel generalizing e with
  | zero => exact yields_fail _
  | succ fuel ih =>
    refine yields_bind fun start => yields_bind fun el => ?_
    split
    · exact yields_pure rfl
    split
    · exact yields_fail _
    split
    · exact yields_fail _
    refine yields_bind fun _ => yields_bind fun stop => ?_
    split
    · exact ih (e.setVendor _ _)
    · exact yields_bind_of (yields_liftExcept fun e' => setDefault_raw) fun e' he' => by
        rw [← he']
        exact ih e'

theorem decodeExtra_raw {b : List Byte} {e : Extra} (h : decodeExtra b = .ok e) : e.raw = b := by
  unfold decodeExtra at h
  rw [except_bind_eq_ok] at h
  obtain ⟨e', hrun, h⟩ := h
  rw [ite_error_eq_ok, ite_error_eq_ok] at h
  obtain ⟨-, -, ⟨⟩⟩ := h
  have hyields : Yields (tlvStep GF.Impl.Tlv.Decoder.next >>= fun top =>
      if top.type ≠ .struct then Reader.fail .notAStructure else decodeExtraLoop (b.length + 1) { raw := b })
      (fun e' => e'.raw = b) := by
    refine yields_bind fun top => ?_
    split
    · exact yields_fail _
    · exact yields_raw _ { raw := b }
  exact hyields _ _ _ (Prod.ext hrun rfl)

theorem tail_readTail (p : Payload) (tail : List Byte) :
    ({ p with extra := readTail tail } : Payload).tail = tail := by
  unfold Payload.tail readTail
  by_cases hnil : tail = []
  · rw [if_pos hnil, hnil]
  rw [if_neg hnil]
  cases hextra : decodeExtra tail with
  | ok extra => exact decodeExtra_raw hextra
  | error e => rfl

/-! ## Parts -/

def rawOf (p : Payload) : List Byte := leBytes 11 (packBits p) ++ p.tail

/-- The payloads that `QRCode` encodes. -/
structure Encodes (p : Payload) (code : List Byte) : Prop where
  fits : FieldsFit p
  version : p.version = 0
  passcode : isValidSetupPIN p.passcode = true
  code_eq : code = qrPrefix ++ base38Encode (rawOf p)
  length : code.length ≤ maxQRCodeLength

theorem validate_iff : p.validate = .ok () ↔
    p.version ≤ 0x07 ∧ p.customFlow ≤ 0x03 ∧ p.discriminator ≤ maxDiscriminator ∧
      ¬ (p.passcode = 0 ∨ 99999998 < p.passcode) := by
  unfold Payload.validate
  rw [ite_error_eq_ok, ite_error_eq_ok, ite_error_eq_ok, ite_error_eq_ok, BitVec.not_lt, BitVec.not_lt, BitVec.not_lt]
  exact ⟨fun ⟨h1, h2, h3, h4, _⟩ => ⟨h1, h2, h3, h4⟩, fun ⟨h1, h2, h3, h4⟩ => ⟨h1, h2, h3, h4, rfl⟩⟩

theorem range_of_isValidSetupPIN {passcode : BitVec 32} (h : isValidSetupPIN passcode = true) :
    ¬ (passcode = 0 ∨ 99999998 < passcode) := by
  intro hbad
  unfold isValidSetupPIN at h
  rw [if_pos hbad] at h
  cases h

theorem qrCode_iff : QRCode p = .ok code ↔ Encodes p code := by
  unfold QRCode qrCode qrEncode
  simp only [except_bind_eq_ok, Bool.not_true, Bool.false_eq_true, if_false, ite_error_eq_ok, not_not,
    Bool.not_eq_true, Bool.not_eq_false', Nat.not_lt, Except.ok.injEq]
  constructor
  · rintro ⟨u, hvalid, hver, hpin, hlen, rfl⟩
    obtain ⟨h1, h2, h3, h4⟩ := validate_iff.mp hvalid
    have hpass : p.passcode.toNat ≤ 99999998 := Nat.not_lt.mp fun hlt => h4 (.inr hlt)
    refine ⟨⟨?_, ?_, ?_, by omega⟩, hver, hpin, rfl, hlen⟩
    · exact Nat.lt_of_le_of_lt h1 (by decide)
    · exact Nat.lt_of_le_of_lt h2 (by decide)
    · exact Nat.lt_of_le_of_lt h3 (by decide)
  · rintro ⟨hfit, hver, hpin, rfl, hlen⟩
    refine ⟨(), validate_iff.mpr ⟨?_, ?_, ?_, range_of_isValidSetupPIN hpin⟩, hver, hpin, hlen, rfl⟩
    · rw [hver]
      decide
    · exact Nat.le_of_lt_succ hfit.customFlow
    · exact Nat.le_of_lt_succ hfit.discriminator

/-- What makes a part acceptable, on the bytes it is decoded to. -/
structure AcceptedPart (part data : List Byte) : Prop where
  decoded : base38Decode part = .ok data
  length : 11 ≤ data.length
  version : (readHeader data).version = 0
  passcode : isValidSetupPIN (readHeader data).passcode = true
  identity : assertValidPayloadIdentity ((readHeader data).vendorID.setWidth 32)
    ((readHeader data).productID.setWidth 32) = .ok ()

theorem decodeQRPart_iff : decodeQRPart part = .ok p ↔
    ∃ data, AcceptedPart part data ∧ p = { readHeader data with extra := readTail (data.drop 11) } := by
  unfold decodeQRPart
  simp only [except_bind_eq_ok, ite_error_eq_ok, not_not, Bool.not_eq_true, Bool.not_eq_false', Nat.not_lt]
  constructor
  · rintro ⟨data, hdata, hlen, hver, hpin, u, hid, ⟨⟩⟩
    exact ⟨data, ⟨hdata, hlen, hver, hpin, hid⟩, rfl⟩
  · rintro ⟨data, h, rfl⟩
    exact ⟨data, h.decoded, h.length, h.version, h.passcode, (), h.identity, rfl⟩

theorem readHeader_rawOf (h : FieldsFit p) : readHeader (rawOf p) = { p with extra := none } := by
  have htake : (rawOf p).take 11 = leBytes 11 (packBits p) := take_left' (length_leBytes 11 _)
  have hlt := headerNat_lt h
  rw [readHeader_eq (by rw [rawOf, length_append, length_leBytes]; omega), htake, packBits_eq h,
    leNat_leBytes_of_lt (by omega), headerOf_headerNat h]

theorem decodeQRPart_rawOf (h : Encodes p code)
    (hid : assertValidPayloadIdentity (p.vendorID.setWidth 32) (p.productID.setWidth 32) = .ok ()) :
    decodeQRPart (base38Encode (rawOf p)) = .ok { p with extra := readTail p.tail } := by
  have hhead := readHeader_rawOf h.fits
  have hdrop : (rawOf p).drop 11 = p.tail := drop_left' (length_leBytes 11 _)
  refine decodeQRPart_iff.mpr ⟨rawOf p, ⟨base38Decode_encode _, ?_, ?_, ?_, ?_⟩, ?_⟩
  · rw [rawOf, length_append, length_leBytes]
    omega
  · rw [hhead]
    exact h.version
  · rw [hhead]
    exact h.passcode
  · rw [hhead]
    exact hid
  · rw [hhead, hdrop]

theorem rawOf_of_accepted (h : AcceptedPart part data) (hpad : leNat (data.take 11) < 2 ^ 84) :
    rawOf { readHeader data with extra := readTail (data.drop 11) } = data := by
  have hlen : (data.take 11).length = 11 := by
    rw [length_take]
    exact Nat.min_eq_left h.length
  have hfit : FieldsFit (readHeader data) := by
    rw [readHeader_eq h.length]
    exact fieldsFit_headerOf _
  have hpack : packBits { readHeader data with extra := readTail (data.drop 11) } = leNat (data.take 11) := by
    show packBits (readHeader data) = _
    rw [packBits_eq hfit, readHeader_eq h.length, headerNat_headerOf hpad]
  have hbytes := leBytes_leNat (data.take 11)
  rw [hlen] at hbytes
  rw [rawOf, hpack, hbytes, tail_readTail, take_append_drop]

/-! ## Codes -/

theorem star_not_mem_base38Group (chars v : Nat) : (0x2A : Byte) ∉ base38Group chars v := by
  intro h
  obtain ⟨d, hd, heq⟩ := mem_map.mp h
  have hmem := (idxOf_base38Char (lowDigits_lt (by decide) d hd)).1
  rw [show base38Char d = 0x2A from heq] at hmem
  exact absurd hmem (by decide)

theorem star_not_mem_base38Encode (data : List Byte) : (0x2A : Byte) ∉ base38Encode data := by
  induction data using base38Encode.induct with
  | case1 a b c rest ih =>
    rw [base38Encode, mem_append, not_or]
    exact ⟨star_not_mem_base38Group _ _, ih⟩
  | case2 a b | case3 a => exact star_not_mem_base38Group _ _
  | case4 => exact not_mem_nil

/-- A loop that fails at no item returns what each of them returns. -/
theorem mapM_eq_ok {f : α → Except ε β} {g : α → β} {l : List α} (h : ∀ a ∈ l, f a = .ok (g a)) :
    l.mapM f = .ok (l.map g) := by
  induction l with
  | nil => rfl
  | cons a l ih =>
    obtain ⟨ha, hl⟩ := forall_mem_cons.mp h
    rw [mapM_cons, except_bind_ok ha, except_bind_ok (ih hl)]
    rfl

theorem forall₂_of_mapM {f : α → Except ε β} {l : List α} {l' : List β} (h : l.mapM f = .ok l') :
    List.Forall₂ (fun a b => f a = .ok b) l l' := by
  induction l generalizing l' with
  | nil =>
    obtain rfl : [] = l' := Except.ok.inj h
    exact .nil
  | cons a l ih =>
    rw [mapM_cons, except_bind_eq_ok] at h
    obtain ⟨b, hb, h⟩ := h
    rw [except_bind_eq_ok] at h
    obtain ⟨bs, hbs, h⟩ := h
    obtain rfl : b :: bs = l' := Except.ok.inj h
    exact .cons hb (ih hbs)

theorem decodeQRCodes_prefix (rest : List Byte) :
    decodeQRCodes (qrPrefix ++ rest) = (rest.splitOn 0x2A).mapM decodeQRPart := by
  unfold decodeQRCodes
  rw [if_pos (List.isPrefixOf_iff_prefix.mpr (prefix_append _ _)), drop_left]

theorem parts_of_codes {ps : List Payload} {codes : List (List Byte)} (h : ps.mapM QRCode = .ok codes) :
    codes.map (fun code => code.drop qrPrefix.length) = ps.map (base38Encode ∘ rawOf) ∧
      ∀ p ∈ ps, ∃ code, Encodes p code := by
  have hall := forall₂_of_mapM h
  clear h
  induction hall with
  | nil => exact ⟨rfl, fun p hp => absurd hp not_mem_nil⟩
  | @cons p code ps codes hcode _ ih =>
    have henc := qrCode_iff.mp hcode
    refine ⟨?_, forall_mem_cons.mpr ⟨⟨code, henc⟩, ih.2⟩⟩
    rw [map_cons, ih.1, henc.code_eq]
    rfl

/-- A single part is all that stands behind the prefix. -/
theorem decodeQRPart_of_split {rest : List Byte} (h : (rest.splitOn 0x2A).mapM decodeQRPart = .ok [p]) :
    decodeQRPart rest = .ok p := by
  have hall := forall₂_of_mapM h
  have hjoin : [0x2A].intercalate (rest.splitOn 0x2A) = rest := intercalate_splitOn 0x2A
  generalize rest.splitOn 0x2A = parts at hall hjoin
  match hall with
  | .cons hpart .nil =>
    rw [intercalate_singleton] at hjoin
    rwa [← hjoin]

/-- The codes of payloads, joined, are read back as these payloads, and a code
of at most 255 characters is the code of what it is read as. -/
theorem qr_code_round_trip :
    (∀ ps codes, ps ≠ [] → ps.mapM QRCode = .ok codes →
      (∀ p ∈ ps, assertValidPayloadIdentity (p.vendorID.setWidth 32) (p.productID.setWidth 32) = .ok ()) →
      ∃ qs, decodeQRCodes (joined codes) = .ok qs ∧ List.Forall₂ SameContent ps qs) ∧
    (∀ s p, decodeQRCode s = .ok p → paddingZero s = true → s.length ≤ maxQRCodeLength → QRCode p = .ok s) := by
  constructor
  · intro ps codes hne hcodes hid
    obtain ⟨hparts, henc⟩ := parts_of_codes hcodes
    have hsplit : ([0x2A].intercalate (ps.map (base38Encode ∘ rawOf))).splitOn 0x2A = ps.map (base38Encode ∘ rawOf) := by
      refine splitOn_intercalate _ ?_ (by simpa using hne)
      intro part hpart
      obtain ⟨p, -, rfl⟩ := mem_map.mp hpart
      exact star_not_mem_base38Encode _
    refine ⟨ps.map fun p => { p with extra := readTail p.tail }, ?_, ?_⟩
    · unfold joined
      rw [hparts, decodeQRCodes_prefix, hsplit, mapM_map]
      refine mapM_eq_ok fun p hp => ?_
      obtain ⟨code, hcode⟩ := henc p hp
      exact decodeQRPart_rawOf hcode (hid p hp)
    · rw [List.forall₂_map_right_iff]
      exact List.forall₂_same.mpr fun p _ => ⟨rfl, (tail_readTail p p.tail).symm⟩
  · intro s p hdecode hpad hlen
    unfold decodeQRCode at hdecode
    rw [except_bind_eq_ok] at hdecode
    obtain ⟨ps, hps, hone⟩ := hdecode
    split at hone
    · obtain rfl := Except.ok.inj hone
      unfold decodeQRCodes at hps
      split at hps
      · rename_i q hprefix
        obtain ⟨rest, rfl⟩ := isPrefixOf_iff_prefix.mp hprefix
        rw [drop_left] at hps
        have hpart := decodeQRPart_of_split hps
        obtain ⟨data, haccepted, rfl⟩ := decodeQRPart_iff.mp hpart
        unfold paddingZero at hpad
        rw [drop_left, haccepted.decoded] at hpad
        have hraw := rawOf_of_accepted haccepted (of_decide_eq_true hpad)
        have hcode := base38Encode_decode haccepted.decoded
        refine qrCode_iff.mpr ⟨?_, haccepted.version, haccepted.passcode, ?_, hlen⟩
        · have hfit := fieldsFit_headerOf (leNat (data.take 11))
          rw [← readHeader_eq haccepted.length] at hfit
          exact ⟨hfit.version, hfit.customFlow, hfit.discriminator, hfit.passcode⟩
        · rw [hraw, hcode]
      · cases hps
    · cases hone

def samplePayload : Payload :=
  { vendorID := 0xFFF1, productID := 0x8000, customFlow := 2, discoveryCaps := 4, discriminator := 0xF00,
    passcode := 20202021 }

/-- The same with a TLV tail, an empty structure. -/
def tailPayload : Payload := { samplePayload with extra := some { raw := [0x15, 0x18] } }

theorem qr_code_round_trip_sample :
    ∃ code tailCode qs, [samplePayload, tailPayload].mapM QRCode = .ok [code, tailCode] ∧
      decodeQRCodes (joined [code, tailCode]) = .ok qs ∧ List.Forall₂ SameContent [samplePayload, tailPayload] qs ∧
      QRCode { samplePayload with extra := none } = .ok code := by
  obtain ⟨hjoin, hback⟩ := qr_code_round_trip
  have hcodes : [samplePayload, tailPayload].mapM QRCode =
      .ok [qrPrefix ++ base38Encode (rawOf samplePayload), qrPrefix ++ base38Encode (rawOf tailPayload)] := by
    decide +kernel
  obtain ⟨qs, hqs, hsame⟩ := hjoin _ _ (by simp) hcodes (by decide +kernel)
  refine ⟨_, _, qs, hcodes, hqs, hsame, hback _ _ ?_ ?_ ?_⟩
  · decide +kernel
  · decide +kernel
  · decide +kernel

/-- A payload that names a vendor and no product. -/
def productless : Payload := { samplePayload with productID := 0 }

/-- A tail for which a code has no room. -/
def longPayload : Payload := { samplePayload with extra := some { raw := List.replicate 150 0 } }

/-- A payload that is valid and has a code need not be read back from it, nor has
one that was read a code. -/
theorem qr_code_one_way :
    productless.validate = .ok () ∧
      (∃ code, QRCode productless = .ok code ∧ decodeQRCodes code = .error (.productMissing 0xFFF1)) ∧
    ({ samplePayload with version := 1 } : Payload).validate = .ok () ∧
      (∃ code, qrCode { samplePayload with version := 1 } false = .ok code ∧
        decodeQRCodes code = .error (.version 1)) ∧
    (∃ s, decodeQRCode s = .ok longPayload ∧ paddingZero s = true ∧ QRCode longPayload = .error (.tooLong 272)) := by
  refine ⟨by decide +kernel, ⟨qrPrefix ++ base38Encode (rawOf productless), by decide +kernel⟩, by decide +kernel,
    ⟨qrPrefix ++ base38Encode (rawOf { samplePayload with version := 1 }), by decide +kernel⟩,
    ⟨qrPrefix ++ base38Encode (rawOf longPayload), by decide +kernel⟩⟩

end GF.Proof.Setup
