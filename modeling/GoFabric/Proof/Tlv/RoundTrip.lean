import GoFabric.Proof.Tlv.Utf8
import Mathlib.Data.List.TakeWhile

/-!
# Decoding what the encoder wrote

Each call appends the bytes of one element, and `Next` reads exactly these
bytes (`call_reads`): the control byte gives back the kind of the tag and the
type, the tag bytes the tag, and what follows the value, whatever width the
encoder chose for it. So the elements of a stream are its calls
(`calls_reads`).

* `decode_encode`: `Next` returns one element for each call, with its tag and
  value, and then `io.EOF`.
-/

namespace GF.Proof.Tlv

open GF.Impl.Tlv GF.Impl.Tlv.Decoder GF.Spec.Tlv List

variable {n w : Nat} {bs body s b : List Byte} {v : BitVec 64} {tag : Tag} {t : ElementType} {el : Element}
  {e' e : Encoder}

/-! ## Numbers -/

theorem reads_need {α : Type} {f : Unit → Reader TlvError α} {a : α} (hn : n ≤ bs.length) (hf : Reads (f ()) bs a) :
    Reads (need n >>= f) bs a := by
  intro before after
  have hneed : need n ⟨before ++ bs ++ after, before.length⟩ = (.ok (), ⟨before ++ bs ++ after, before.length⟩) := by
    have hlen : ¬ (before ++ bs ++ after).length < before.length + n := by
      rw [length_append, length_append]
      omega
    show (if (before ++ bs ++ after).length < before.length + n then _ else _ : Reader TlvError Unit) _ = _
    rw [if_neg hlen]
    rfl
  rw [Reader.bind_ok hneed]
  exact hf before after

theorem reads_readLE {v : Nat} (hv : v < 256 ^ n) : Reads (readLE n) (leBytes n v) v := by
  have h := Reads.take (ε := TlvError) (leBytes n v)
  rw [length_leBytes] at h
  exact h.bind_pure (by rw [leNat_leBytes_of_lt hv])

theorem reads_readU {v : Nat} (hv : v < 256 ^ w) : Reads (readU w) (leBytes w v) (BitVec.ofNat 64 v) :=
  reads_need (by rw [length_leBytes]) ((reads_readLE hv).bind_pure rfl)

theorem reads_readUint (el : Element) {v : Nat} (hv : v < 256 ^ w) :
    Reads (readUint el w) (leBytes w v) { el with uint := BitVec.ofNat 64 v } :=
  (reads_readU hv).bind_pure rfl

theorem two_pow_eight_mul (w : Nat) : 2 ^ (8 * w) = 256 ^ w := by
  rw [Nat.pow_mul]

theorem reads_readInt (el : Element) (hw : w ≤ 8) (v : BitVec (8 * w)) :
    Reads (readInt el w) (leBytes w v.toNat) { el with int := v.signExtend 64 } := by
  have hv : v.toNat < 256 ^ w := by
    rw [← two_pow_eight_mul]
    exact v.isLt
  refine (reads_readU hv).bind_pure ?_
  rw [BitVec.setWidth_ofNat_of_le (by omega), BitVec.ofNat_toNat, BitVec.setWidth_eq]

/-- A number within the range of a width keeps its value in that width. -/
theorem toNat_narrow (hv : v.toNat < 2 ^ w) : (v.setWidth w).toNat = v.toNat := by
  rw [BitVec.toNat_setWidth, Nat.mod_eq_of_lt hv]

/-- An integer within the range of a width keeps its value in that width. -/
theorem toInt_narrow (hw : w ≤ 64) (v : BitVec 64) (hl : -2 ^ w ≤ v.toInt * 2) (hu : v.toInt * 2 < 2 ^ w) :
    ((v.setWidth w).signExtend 64).toInt = v.toInt := by
  have hdvd : 2 ^ w ∣ 2 ^ 64 := Nat.pow_dvd_pow 2 hw
  rw [BitVec.toInt_signExtend_of_le hw, BitVec.toInt_setWidth, ← Int.bmod_bmod_of_dvd hdvd,
    ← BitVec.toInt_eq_toNat_bmod]
  refine Int.bmod_eq_of_le_mul_two ?_ ?_
  · exact hl
  · exact hu

/-! ## Tags -/

def tagWire (tag : Tag) : List Byte := (Encoder.new.writeTag tag).buf

theorem writeTag_eq (e : Encoder) (tag : Tag) : e.writeTag tag = e.append (tagWire tag) := by
  unfold tagWire Encoder.writeTag
  cases tag.kind <;> simp [Encoder.append, Encoder.appendLE, Encoder.new]

theorem toNat_number_lt {n : BitVec 32} (h : n ≤ 0xFFFF) : n.toNat < 256 ^ 2 := by
  have : n.toNat ≤ 0xFFFF := h
  omega

theorem setWidth_number {n : BitVec 32} (h : n ≤ 0xFFFF) : (n.setWidth 16).toNat = n.toNat := by
  exact Nat.mod_eq_of_lt (toNat_number_lt h)

theorem ofNat_toNat_self (n : BitVec w) : BitVec.ofNat w n.toNat = n := by
  rw [BitVec.ofNat_toNat, BitVec.setWidth_eq]

/-- `Next` reads the tag back. -/
def Readable (tag : Tag) : Prop := Reads (readTag tag.kind) (tagWire tag) tag

theorem readable_anonymous : Readable anonymousTag := Reads.pure anonymousTag

theorem readable_context (n : BitVec 8) : Readable (contextTag n) := by
  have hwire : tagWire (contextTag n) = leBytes 1 n.toNat := by
    show [(n.setWidth 32).setWidth 8] = [BitVec.ofNat 8 n.toNat]
    rw [BitVec.setWidth_setWidth_of_le n (by decide), BitVec.setWidth_eq, ofNat_toNat_self]
  unfold Readable
  rw [hwire]
  refine reads_need (by rw [length_leBytes]) ((reads_readLE n.isLt).bind_pure ?_)
  rw [BitVec.ofNat_toNat]
  rfl

section Profiles

variable {vendor profile : BitVec 16} {number : BitVec 32}

theorem readable_common2 (hn : number ≤ 0xFFFF) : Readable { kind := .commonProfile2, number } := by
  have hwire : tagWire { kind := .commonProfile2, number } = leBytes 2 number.toNat := by
    show [] ++ leBytes 2 (number.setWidth 16).toNat = _
    rw [setWidth_number hn, nil_append]
  unfold Readable
  rw [hwire]
  refine reads_need (by rw [length_leBytes]) ((reads_readLE (toNat_number_lt hn)).bind_pure ?_)
  rw [ofNat_toNat_self]

theorem readable_common4 : Readable { kind := .commonProfile4, number } := by
  have hwire : tagWire { kind := .commonProfile4, number } = leBytes 4 number.toNat := nil_append _
  unfold Readable
  rw [hwire]
  refine reads_need (by rw [length_leBytes]) ((reads_readLE number.isLt).bind_pure ?_)
  rw [ofNat_toNat_self]

theorem readable_fullyQualified6 (hn : number ≤ 0xFFFF) :
    Readable { kind := .fullyQualified6, vendor, profile, number } := by
  have hwire : tagWire { kind := .fullyQualified6, vendor, profile, number } =
      leBytes 2 vendor.toNat ++ (leBytes 2 profile.toNat ++ leBytes 2 number.toNat) := by
    show [] ++ leBytes 2 vendor.toNat ++ leBytes 2 profile.toNat ++ leBytes 2 (number.setWidth 16).toNat = _
    rw [setWidth_number hn, nil_append, append_assoc]
  unfold Readable
  rw [hwire]
  refine reads_need (by simp) ((reads_readLE vendor.isLt).bind ((reads_readLE profile.isLt).bind
    ((reads_readLE (toNat_number_lt hn)).bind_pure ?_)))
  rw [ofNat_toNat_self, ofNat_toNat_self, ofNat_toNat_self]

theorem readable_fullyQualified8 : Readable { kind := .fullyQualified8, vendor, profile, number } := by
  have hwire : tagWire { kind := .fullyQualified8, vendor, profile, number } =
      leBytes 2 vendor.toNat ++ (leBytes 2 profile.toNat ++ leBytes 4 number.toNat) := by
    show [] ++ leBytes 2 vendor.toNat ++ leBytes 2 profile.toNat ++ leBytes 4 number.toNat = _
    rw [nil_append, append_assoc]
  unfold Readable
  rw [hwire]
  refine reads_need (by simp) ((reads_readLE vendor.isLt).bind ((reads_readLE profile.isLt).bind
    ((reads_readLE number.isLt).bind_pure ?_)))
  rw [ofNat_toNat_self, ofNat_toNat_self, ofNat_toNat_self]

end Profiles

/-- The tag of a constructor is read back. -/
theorem readable_of_resolvable (h : Resolvable tag) : Readable tag := by
  cases h with
  | anonymous => exact readable_anonymous
  | context n => exact readable_context n
  | common n =>
    unfold commonTag
    split_ifs with hn
    · exact readable_common2 hn
    · exact readable_common4
  | fullyQualified vendor profile number =>
    unfold fullyQualifiedTag
    split_ifs with hn
    · exact readable_fullyQualified8
    · exact readable_fullyQualified6 (BitVec.not_lt.mp hn)

/-! ## Elements -/

/-- The control byte and the tag of an element. -/
def headWire (t : ElementType) (tag : Tag) : List Byte := (tag.kind.code <<< 5 ||| t.code) :: tagWire tag

theorem tagKind_control (k : TagKind) (t : ElementType) :
    TagKind.ofCode ((k.code <<< 5 ||| t.code) >>> 5) = some k := by
  cases k <;> cases t <;> rfl

theorem elementType_control (k : TagKind) (t : ElementType) :
    ElementType.ofCode ((k.code <<< 5 ||| t.code) &&& 0x1F) = some t := by
  cases k <;> cases t <;> rfl

/-- `Next` reads the control byte, and then the rest of the element. -/
theorem next_eq {c : Byte} {k : TagKind} (hk : TagKind.ofCode (c >>> 5) = some k) (before after : List Byte) :
    next ⟨before ++ c :: after, before.length⟩ = readElement c k ⟨before ++ c :: after, before.length + 1⟩ := by
  have hlen : ¬ (before ++ c :: after).length ≤ before.length := by
    rw [length_append, length_cons]
    omega
  have htake := Reads.take (ε := TlvError) [c] before after
  rw [append_assoc] at htake
  show (if (before ++ c :: after).length ≤ before.length then _ else _ : Reader TlvError Element) _ = _
  rw [if_neg hlen]
  refine (Reader.bind_ok htake).trans ?_
  simp only [headD_cons, hk]
  rfl

theorem readElement_eq (ht : t ≠ .endContainer) :
    readElement (tag.kind.code <<< 5 ||| t.code) tag.kind =
      readTag tag.kind >>= fun tag => readValue { tag, type := t } := by
  unfold readElement
  rw [elementType_control]
  cases t <;> first | rfl | exact absurd rfl ht

theorem reads_next {c : Byte} {k : TagKind} (hk : TagKind.ofCode (c >>> 5) = some k)
    (h : Reads (readElement c k) bs el) : Reads next (c :: bs) el := by
  intro before after
  have hrest := h (before ++ [c]) after
  rw [append_assoc, cons_append, next_eq hk]
  simpa [Nat.add_assoc, Nat.add_comm 1] using hrest

/-- An element is its head and its value. -/
theorem reads_element (ht : t ≠ .endContainer) (htag : Readable tag)
    (h : Reads (readValue { tag, type := t }) bs el) : Reads next (headWire t tag ++ bs) el := by
  refine reads_next (tagKind_control tag.kind t) ?_
  rw [readElement_eq ht]
  exact Reads.bind htag h

theorem fails_element {err : TlvError} (ht : t ≠ .endContainer) (htag : Readable tag)
    (h : Fails (readValue { tag, type := t }) bs err) : Fails next (headWire t tag ++ bs) err := by
  have hbind : Fails (readTag tag.kind >>= fun tag => readValue { tag, type := t }) (tagWire tag ++ bs) err :=
    Reads.bind_fails htag h
  intro before after
  have hrest := hbind (before ++ [tag.kind.code <<< 5 ||| t.code]) after
  unfold headWire
  rw [cons_append, append_assoc, cons_append, next_eq (tagKind_control tag.kind t), readElement_eq ht]
  simpa using hrest

/-! ## Strings -/

theorem reads_readStringLike (hw : body.length < 256 ^ w) (hlen : body.length < 2 ^ 64) :
    Reads (readStringLike w) (leBytes w body.length ++ body) body := by
  refine (reads_readU hw).bind ?_
  have hn : (BitVec.ofNat 64 body.length).toNat = body.length := by
    rw [BitVec.toNat_ofNat, Nat.mod_eq_of_lt hlen]
  intro before after
  have hok : ¬ (before ++ body ++ after).length - before.length < (BitVec.ofNat 64 body.length).toNat := by
    rw [length_append, length_append]
    omega
  show (if (before ++ body ++ after).length - before.length < (BitVec.ofNat 64 body.length).toNat then _ else _ :
    Reader TlvError (List Byte)) _ = _
  rw [if_neg hok, hn]
  exact Reads.take body before after

theorem reads_readOctets (el : Element) (hw : body.length < 256 ^ w) (hlen : body.length < 2 ^ 64) :
    Reads (readOctets el w) (leBytes w body.length ++ body) { el with octets := body } :=
  (reads_readStringLike hw hlen).bind_pure rfl

/-- The string that a reader is given, for the bytes of an element. -/
def readString (el : Element) (body : List Byte) : Element :=
  { el with
    rawLength := if 0x1F ∈ body then BitVec.ofNat 32 (utf16Length (decodeUTF8 body)) else el.rawLength
    string := decodeUTF8 (textOf body) }

theorem reads_readUTF8 (el : Element) (hw : body.length < 256 ^ w) (hlen : body.length < 2 ^ 64)
    (hcut : 0x1F ∈ body → utf16Length (decodeUTF8 body) < 2 ^ 32) :
    Reads (readUTF8 el w) (leBytes w body.length ++ body) (readString el body) := by
  refine (reads_readStringLike hw hlen).bind_pure ?_
  unfold readString
  by_cases hmem : 0x1F ∈ body
  · rw [findIdx?_of_mem hmem]
    dsimp only
    rw [if_neg (by have := hcut hmem; omega), if_pos hmem, textOf_eq_take]
  have hfind : body.findIdx? (· == 0x1F) = none :=
    List.findIdx?_eq_none_iff.mpr fun b hb => beq_eq_false_iff_ne.mpr fun h => hmem (h ▸ hb)
  have hself : textOf body = body :=
    takeWhile_eq_self_iff.mpr fun b hb => bne_iff_ne.mpr fun h => hmem (h ▸ hb)
  rw [hfind, if_neg hmem, hself]

theorem fails_readUTF8 (el : Element) (hw : body.length < 256 ^ w) (hlen : body.length < 2 ^ 64)
    (hmem : 0x1F ∈ body) (hlong : 2 ^ 32 ≤ utf16Length (decodeUTF8 body)) :
    Fails (readUTF8 el w) (leBytes w body.length ++ body) (.stringTooLong (utf16Length (decodeUTF8 body))) := by
  have h : Fails (readUTF8 el w) ((leBytes w body.length ++ body) ++ [])
      (.stringTooLong (utf16Length (decodeUTF8 body))) := by
    refine (reads_readStringLike hw hlen).bind_fails ?_
    intro before after
    rw [findIdx?_of_mem hmem]
    dsimp only
    rw [if_pos (by omega)]
    rfl
  rwa [append_nil] at h

theorem utf16Length_pos (h : s ≠ []) : 0 < utf16Length s := by
  cases s with
  | nil => exact absurd rfl h
  | cons c rest =>
    unfold utf16Length
    rw [chunks_cons, map_cons, sum_cons]
    split <;> omega

/-! ## Calls -/

/-- What was appended to the buffer from `e` to `e'` is one element with this
tag and value. -/
def Carries (e e' : Encoder) (tag : Tag) (value : Value) : Prop :=
  ∃ bs el, e'.buf = e.buf ++ bs ∧ Reads next bs el ∧ el.tag = tag ∧ elementValue el = some value

section

theorem append_append (e : Encoder) (bs bs' : List Byte) : (e.append bs).append bs' = e.append (bs ++ bs') := by
  simp [Encoder.append]

theorem writeControlAndTag_eq (t : ElementType) (h : e.containerStack.head? ≠ some .array ∨ tag.kind ≠ .context) :
    e.writeControlAndTag t tag = some (e.append (headWire t tag)) := by
  have hn : ¬ (e.containerStack.head? = some .array ∧ tag.kind = .context) := by tauto
  unfold Encoder.writeControlAndTag
  rw [if_neg hn, writeTag_eq, append_append]
  rfl

theorem putNumber_eq (t : ElementType) (v : BitVec w)
    (h : e.containerStack.head? ≠ some .array ∨ tag.kind ≠ .context) :
    e.putNumber t tag v = some (e.append (headWire t tag ++ leBytes (w / 8) v.toNat)) := by
  show (e.writeControlAndTag t tag).bind _ = _
  rw [writeControlAndTag_eq t h, ← append_append]
  rfl

theorem writeControlAndTag_some (h : e.writeControlAndTag t tag = some e') : e' = e.append (headWire t tag) := by
  unfold Encoder.writeControlAndTag at h
  split at h
  · exact absurd h (Option.some_ne_none _).symm
  · rw [← Option.some.inj h, writeTag_eq]
    simp [Encoder.append, headWire]

theorem carries_of_head (h : e.writeControlAndTag t tag = some e') (ht : t ≠ .endContainer) (htag : Readable tag)
    (hr : readValue { tag, type := t } = pure el) {value : Value} (hel : el.tag = tag)
    (hv : elementValue el = some value) : Carries e e' tag value := by
  refine ⟨headWire t tag, el, by rw [writeControlAndTag_some h]; rfl, ?_, hel, hv⟩
  have hread : Reads next (headWire t tag ++ []) el := reads_element ht htag (by rw [hr]; exact Reads.pure el)
  rwa [append_nil] at hread

theorem putNumber_some {v : BitVec w} (h : e.putNumber t tag v = some e') :
    e'.buf = e.buf ++ (headWire t tag ++ leBytes (w / 8) v.toNat) := by
  obtain ⟨e1, h1, h2⟩ := Option.bind_eq_some_iff.mp h
  rw [← Option.some.inj h2, writeControlAndTag_some h1]
  exact append_assoc e.buf _ _

/-- The widths that a number or a length is written with. -/
def widths : List Nat := [1, 2, 4, 8]

/-- The type of width `n` among four. -/
def ofWidth (t1 t2 t4 t8 : ElementType) : Nat → ElementType
  | 1 => t1
  | 2 => t2
  | 4 => t4
  | _ => t8

abbrev uintType : Nat → ElementType := ofWidth .unsignedInt1 .unsignedInt2 .unsignedInt4 .unsignedInt8

abbrev intType : Nat → ElementType := ofWidth .signedInt1 .signedInt2 .signedInt4 .signedInt8

abbrev utf8Type : Nat → ElementType := ofWidth .utf8Str1 .utf8Str2 .utf8Str4 .utf8Str8

abbrev octetType : Nat → ElementType := ofWidth .octetStr1 .octetStr2 .octetStr4 .octetStr8

theorem width_cases (hn : n ∈ widths) : n = 1 ∨ n = 2 ∨ n = 4 ∨ n = 8 := by
  simpa [widths] using hn

/-- The width that a number needs. -/
def lengthWidth (n : Nat) : Nat := if n ≤ 0xFF then 1 else if n ≤ 0xFFFF then 2 else if n ≤ 0xFFFFFFFF then 4 else 8

theorem lengthWidth_mem (n : Nat) : lengthWidth n ∈ widths := by
  unfold lengthWidth
  split_ifs <;> decide

theorem lt_lengthWidth (h : n < 2 ^ 64) : n < 256 ^ lengthWidth n := by
  unfold lengthWidth
  split_ifs <;> omega

/-- A number keeps its value at the width it needs. -/
theorem toNat_least (v : BitVec 64) : (v.setWidth (8 * lengthWidth v.toNat)).toNat = v.toNat := by
  refine toNat_narrow ?_
  rw [two_pow_eight_mul]
  exact lt_lengthWidth v.isLt

/-- A number or a length is written at the width it needs. -/
theorem writeLength_eq (e : Encoder) (tag : Tag) (v : BitVec 64) (t1 t2 t4 t8 : ElementType) :
    e.writeLength tag v t1 t2 t4 t8 =
      e.putNumber (ofWidth t1 t2 t4 t8 (lengthWidth v.toNat)) tag (v.setWidth (8 * lengthWidth v.toNat)) := by
  generalize hn : lengthWidth v.toNat = n
  unfold lengthWidth at hn
  show (if v.toNat ≤ 0xFF then _ else if v.toNat ≤ 0xFFFF then _ else if v.toNat ≤ 0xFFFFFFFF then _ else _) = _
  split_ifs at hn ⊢
  · subst hn
    rfl
  · subst hn
    rfl
  · subst hn
    rfl
  · subst hn
    exact congrArg (e.putNumber t8 tag) (BitVec.setWidth_eq v).symm

theorem carries_uint (hn : n ∈ widths) {v : BitVec (8 * n)} (h : e.putNumber (uintType n) tag v = some e')
    (htag : Readable tag) : Carries e e' tag (.uint v.toNat) := by
  have hlt : v.toNat < 256 ^ n := by rw [← two_pow_eight_mul]; exact v.isLt
  have hlt64 : v.toNat < 2 ^ 64 :=
    Nat.lt_of_lt_of_le v.isLt (Nat.pow_le_pow_right (by decide) (by have := width_cases hn; omega))
  have hbuf := putNumber_some h
  have hread := reads_readUint { tag, type := uintType n } hlt
  refine ⟨_, { tag, type := uintType n, uint := BitVec.ofNat 64 v.toNat }, hbuf, ?_, rfl, ?_⟩
  · obtain rfl | rfl | rfl | rfl := width_cases hn <;> exact reads_element (by decide) htag hread
  · have hv : (BitVec.ofNat 64 v.toNat).toNat = v.toNat := by rw [BitVec.toNat_ofNat, Nat.mod_eq_of_lt hlt64]
    obtain rfl | rfl | rfl | rfl := width_cases hn <;> exact congrArg (fun x => some (Value.uint x)) hv

theorem carries_int (hn : n ∈ widths) {v : BitVec (8 * n)} (h : e.putNumber (intType n) tag v = some e')
    (htag : Readable tag) : Carries e e' tag (.int (v.signExtend 64).toInt) := by
  have hbuf := putNumber_some h
  have hread := reads_readInt { tag, type := intType n } (by have := width_cases hn; omega) v
  refine ⟨_, { tag, type := intType n, int := v.signExtend 64 }, hbuf, ?_, rfl, ?_⟩
  · obtain rfl | rfl | rfl | rfl := width_cases hn <;> exact reads_element (by decide) htag hread
  · obtain rfl | rfl | rfl | rfl := width_cases hn <;> rfl

theorem carries_putUint (h : e.putUint tag v = some e') (htag : Readable tag) :
    Carries e e' tag (.uint v.toNat) := by
  have hput := (writeLength_eq e tag v .unsignedInt1 .unsignedInt2 .unsignedInt4 .unsignedInt8).symm.trans h
  rw [← toNat_least v]
  exact carries_uint (lengthWidth_mem _) hput htag

/-- `PutUintWidth` writes a number that fits at the width it is given. -/
theorem carries_putUintWidth {widthBytes : Nat} (h : e.putUintWidth tag v widthBytes = some e')
    (htag : Readable tag) (hfit : v.toNat < 256 ^ widthBytes) : Carries e e' tag (.uint v.toNat) := by
  unfold Encoder.putUintWidth at h
  split at h
  · rw [← toNat_narrow (w := 8) hfit]
    exact carries_uint (n := 1) (by decide) h htag
  · rw [← toNat_narrow (w := 16) hfit]
    exact carries_uint (n := 2) (by decide) h htag
  · rw [← toNat_narrow (w := 32) hfit]
    exact carries_uint (n := 4) (by decide) h htag
  · exact carries_uint (n := 8) (by decide) h htag
  · exact absurd h (Option.some_ne_none _).symm

theorem carries_putInt (h : e.putInt tag v = some e') (htag : Readable tag) : Carries e e' tag (.int v.toInt) := by
  unfold Encoder.putInt at h
  split at h
  · rw [← toInt_narrow (w := 8) (by decide) v (by omega) (by omega)]
    exact carries_int (n := 1) (by decide) h htag
  split at h
  · rw [← toInt_narrow (w := 16) (by decide) v (by omega) (by omega)]
    exact carries_int (n := 2) (by decide) h htag
  split at h
  · rw [← toInt_narrow (w := 32) (by decide) v (by omega) (by omega)]
    exact carries_int (n := 4) (by decide) h htag
  · rw [← BitVec.toInt_signExtend_of_le (Nat.le_refl 64)]
    exact carries_int (n := 8) (by decide) h htag

section

variable {t1 t2 t4 t8 : ElementType}

theorem toNat_length (hb : b.length < 2 ^ 64) : (BitVec.ofNat 64 b.length).toNat = b.length := by
  rw [BitVec.toNat_ofNat, Nat.mod_eq_of_lt hb]

/-- `writeStringLike` writes the length at the width it needs. -/
theorem writeStringLike_eq (h : e.containerStack.head? ≠ some .array ∨ tag.kind ≠ .context) (hb : b.length < 2 ^ 64) :
    e.writeStringLike tag b t1 t2 t4 t8 = some (e.append (headWire (ofWidth t1 t2 t4 t8 (lengthWidth b.length)) tag ++
      (leBytes (lengthWidth b.length) b.length ++ b))) := by
  unfold Encoder.writeStringLike
  rw [writeLength_eq, putNumber_eq _ _ h, toNat_least, toNat_length hb, Nat.mul_div_cancel_left _ (by decide)]
  show some ((e.append _).append b) = _
  rw [append_append, append_assoc]

theorem writeStringLike_some (h : e.writeStringLike tag b t1 t2 t4 t8 = some e') (hlen : e'.buf.length < 2 ^ 63) :
    b.length < 2 ^ 64 ∧ ∃ n ∈ widths, b.length < 256 ^ n ∧
      e'.buf = e.buf ++ (headWire (ofWidth t1 t2 t4 t8 n) tag ++ (leBytes n b.length ++ b)) := by
  obtain ⟨e1, h1, h2⟩ := Option.bind_eq_some_iff.mp h
  have hbuf : e'.buf = e1.buf ++ b := by rw [← Option.some.inj h2]; rfl
  have hb : b.length < 2 ^ 64 := by
    rw [hbuf, length_append] at hlen
    omega
  refine ⟨hb, lengthWidth b.length, lengthWidth_mem _, lt_lengthWidth hb, ?_⟩
  rw [writeLength_eq] at h1
  rw [hbuf, putNumber_some h1, toNat_least, toNat_length hb]
  simp

end

theorem carries_putOctets (h : e.putOctets tag b = some e') (hlen : e'.buf.length < 2 ^ 63) (htag : Readable tag) :
    Carries e e' tag (.octets b) := by
  obtain ⟨hb, n, hn, hw, hbuf⟩ := writeStringLike_some h hlen
  have hread := reads_readOctets { tag, type := octetType n } hw hb
  refine ⟨_, { tag, type := octetType n, octets := b }, hbuf, ?_, rfl, ?_⟩
  · obtain rfl | rfl | rfl | rfl := width_cases hn <;> exact reads_element (by decide) htag hread
  · obtain rfl | rfl | rfl | rfl := width_cases hn <;> rfl

/-- The string and the mark that a reader is given for a repaired string. -/
theorem readString_replaced (el : Element) (hel : el.rawLength = 0)
    (hcut : 0x1F ∈ s → utf16Length (decodeUTF8 s) < 2 ^ 32) :
    (readString el (decodeUTF8 s)).string = decodeUTF8 (textOf s) ∧
      ((readString el (decodeUTF8 s)).rawLength != 0) = s.contains 0x1F := by
  constructor
  · show decodeUTF8 (textOf (decodeUTF8 s)) = _
    rw [← decodeUTF8_textOf, decodeUTF8_idem]
  show ((if 0x1F ∈ decodeUTF8 s then BitVec.ofNat 32 (utf16Length (decodeUTF8 (decodeUTF8 s))) else el.rawLength)
    != 0) = _
  rw [decodeUTF8_idem]
  by_cases hmem : 0x1F ∈ s
  · have hmem' := (mem_decodeUTF8 s).mpr hmem
    have hpos := utf16Length_pos (ne_nil_of_mem hmem')
    rw [if_pos hmem', contains_iff_mem.mpr hmem, bne_iff_ne]
    intro h0
    have hnat := congrArg BitVec.toNat h0
    rw [BitVec.toNat_ofNat, Nat.mod_eq_of_lt (hcut hmem)] at hnat
    exact absurd hnat (by simpa using hpos.ne')
  · rw [if_neg (fun h => hmem ((mem_decodeUTF8 s).mp h)), hel]
    simpa using hmem

theorem carries_putUTF8 (h : e.putUTF8 tag s = some e') (hlen : e'.buf.length < 2 ^ 63) (htag : Readable tag)
    (hcut : 0x1F ∈ s → utf16Length (decodeUTF8 s) < 2 ^ 32) :
    Carries e e' tag (.utf8 (repaired (textOf s)) (s.contains 0x1F)) := by
  rw [repaired_eq]
  obtain ⟨hb, n, hn, hw, hbuf⟩ := writeStringLike_some h hlen
  rw [validUTF8_eq] at hb hw hbuf
  have hread := reads_readUTF8 { tag, type := utf8Type n } hw hb
    (by rw [mem_decodeUTF8, decodeUTF8_idem]; exact hcut)
  obtain ⟨hstr, hraw⟩ := readString_replaced { tag, type := utf8Type n } rfl hcut
  refine ⟨_, readString { tag, type := utf8Type n } (decodeUTF8 s), hbuf, ?_, rfl, ?_⟩
  · obtain rfl | rfl | rfl | rfl := width_cases hn <;> exact reads_element (by decide) htag hread
  have hval := congrArg some (congrArg₂ Value.utf8 hstr hraw)
  obtain rfl | rfl | rfl | rfl := width_cases hn <;> exact hval

theorem carries_startContainer (h : e.startContainer t tag = some e') (htag : Readable tag) (ht : t ≠ .endContainer)
    {value : Value} (hr : readValue { tag, type := t } = pure { tag, type := t, isContainer := true })
    (hv : elementValue { tag, type := t, isContainer := true } = some value) : Carries e e' tag value := by
  obtain ⟨e1, h1, h2⟩ := Option.bind_eq_some_iff.mp h
  obtain ⟨bs, el, hbuf, hread, htag', hval⟩ := carries_of_head h1 ht htag hr rfl hv
  exact ⟨bs, el, by rw [← Option.some.inj h2]; exact hbuf, hread, htag', hval⟩

theorem carries_endContainer (h : e.endContainer = (none, e')) : Carries e e' anonymousTag .endContainer := by
  unfold Encoder.endContainer at h
  split at h
  · exact absurd (congrArg Prod.fst h) (Option.some_ne_none _)
  obtain ⟨-, rfl⟩ := Prod.mk.inj h
  refine ⟨[ElementType.endContainer.code],
    { type := .endContainer, isEndContainer := true, tag := anonymousTag }, rfl, ?_, rfl, rfl⟩
  exact reads_next rfl (Reads.bind readable_anonymous (Reads.pure _))

end

theorem eq_some_of_map {o : Option Encoder} (h : o.map (Prod.mk (none : Option TlvError)) = some (none, e')) :
    o = some e' := by
  obtain ⟨e1, h1, h2⟩ := Option.map_eq_some_iff.mp h
  rw [h1, (Prod.mk.inj h2).2]

theorem carries_call {c : Call} (h : e.call c = some (none, e')) (hlen : e'.buf.length < 2 ^ 63)
    (htag : Readable (callTag c)) (hfit : Fits c) (hcut : CutFits c) : Carries e e' (callTag c) (callValue c) := by
  cases c with
  | putBool tag v =>
    cases v with
    | true | false => exact carries_of_head (eq_some_of_map h) (by decide) htag rfl rfl rfl
  | putNull tag => exact carries_of_head (eq_some_of_map h) (by decide) htag rfl rfl rfl
  | putUint tag v | putUint64 tag v => exact carries_putUint (eq_some_of_map h) htag
  | putUint16 tag v => exact carries_uint (n := 2) (by decide) (eq_some_of_map h) htag
  | putUint32 tag v => exact carries_uint (n := 4) (by decide) (eq_some_of_map h) htag
  | putUintWidth tag v widthBytes => exact carries_putUintWidth (eq_some_of_map h) htag hfit
  | putInt tag v => exact carries_putInt (eq_some_of_map h) htag
  | putInt16 tag v =>
    have hc := carries_int (n := 2) (by decide) (eq_some_of_map h) htag
    rwa [BitVec.toInt_signExtend_of_le (by decide)] at hc
  | putInt32 tag v =>
    have hc := carries_int (n := 4) (by decide) (eq_some_of_map h) htag
    rwa [BitVec.toInt_signExtend_of_le (by decide)] at hc
  | putInt64 tag v =>
    have hc := carries_int (n := 8) (by decide) (eq_some_of_map h) htag
    rwa [BitVec.toInt_signExtend_of_le (by decide)] at hc
  | putUTF8 tag s => exact carries_putUTF8 (eq_some_of_map h) hlen htag hcut
  | putOctets tag b => exact carries_putOctets (eq_some_of_map h) hlen htag
  | startStruct tag | startArray tag
  | startList tag => exact carries_startContainer (eq_some_of_map h) htag (by decide) rfl rfl
  | endContainer => exact carries_endContainer (Option.some.inj h)

/-! ## Streams -/

/-- Calls append their elements in order. -/
theorem calls_carry {cs : List Call} {errs : List (Option TlvError)} (h : e.calls cs = some (errs, e'))
    (hok : ∀ err ∈ errs, err = none) (hlen : e'.buf.length < 2 ^ 63) (htags : ∀ c ∈ cs, Readable (callTag c))
    (hfits : ∀ c ∈ cs, Fits c) (hcuts : ∀ c ∈ cs, CutFits c) :
    ∃ items : List (List Byte × Element), e'.buf = e.buf ++ items.flatMap Prod.fst ∧ items.length = cs.length ∧
      (∀ p ∈ items, Reads next p.1 p.2) ∧
      items.map (fun p => (p.2.tag, elementValue p.2)) = cs.map fun c => (callTag c, some (callValue c)) := by
  induction cs generalizing e errs with
  | nil =>
    obtain ⟨-, rfl⟩ := Prod.mk.inj (Option.some.inj h)
    exact ⟨[], (append_nil _).symm, rfl, fun p hp => absurd hp not_mem_nil, rfl⟩
  | cons c cs ih =>
    obtain ⟨⟨err, e1⟩, h1, h⟩ := Option.bind_eq_some_iff.mp h
    obtain ⟨⟨errs', e2⟩, h2, h⟩ := Option.bind_eq_some_iff.mp h
    obtain ⟨rfl, rfl⟩ := Prod.mk.inj (Option.some.inj h)
    obtain ⟨rfl, hok'⟩ := forall_mem_cons.mp hok
    obtain ⟨htag, htags'⟩ := forall_mem_cons.mp htags
    obtain ⟨hfit, hfits'⟩ := forall_mem_cons.mp hfits
    obtain ⟨hcut, hcuts'⟩ := forall_mem_cons.mp hcuts
    obtain ⟨items, hbuf, hnum, hreads, hmap⟩ := ih h2 hok' htags' hfits' hcuts'
    have hlen1 : e1.buf.length < 2 ^ 63 := by
      rw [hbuf, length_append] at hlen
      omega
    obtain ⟨bs, el, hbuf1, hread, htag', hval⟩ := carries_call h1 hlen1 htag hfit hcut
    refine ⟨(bs, el) :: items, ?_, ?_, forall_mem_cons.mpr ⟨hread, hreads⟩, ?_⟩
    · rw [hbuf, hbuf1, flatMap_cons, append_assoc]
    · rw [length_cons, length_cons, hnum]
    · rw [map_cons, map_cons, hmap, htag', hval]

theorem next_at_end (bs : List Byte) : next ⟨bs, bs.length⟩ = (.error .eof, ⟨bs, bs.length⟩) := by
  show (if bs.length ≤ bs.length then _ else _ : Reader TlvError Element) _ = _
  rw [if_pos (Nat.le_refl _)]
  rfl

/-- Calls that succeeded are decoded to one element each, with the same tag
and value, and nothing is left. -/
theorem decode_encode {cs : List Call} {errs : List (Option TlvError)} {e : Encoder} {bs : List Byte}
    (htags : ∀ c ∈ cs, Resolvable (callTag c)) (hfits : ∀ c ∈ cs, Fits c)
    (hcalls : Encoder.new.calls cs = some (errs, e)) (hbytes : e.bytes = .ok bs) (hlen : bs.length < 2 ^ 63)
    (hclosed : ∀ err ∈ errs, err = none) (hcuts : ∀ c ∈ cs, CutFits c) :
    ∃ els d, next.times cs.length (Decoder.new bs) = (.ok els, d) ∧
      els.map (fun el => (el.tag, elementValue el)) = cs.map (fun c => (callTag c, some (callValue c))) ∧
      next d = (.error .eof, d) ∧ remaining d = 0 := by
  obtain rfl : e.buf = bs := by
    unfold Encoder.bytes at hbytes
    split at hbytes
    · exact absurd hbytes (by simp)
    · exact Except.ok.inj hbytes
  obtain ⟨items, hbuf, hnum, hreads, hmap⟩ := calls_carry hcalls hclosed hlen (fun c hc => readable_of_resolvable (htags c hc)) hfits hcuts
  refine ⟨items.map Prod.snd, ⟨e.buf, e.buf.length⟩, ?_, ?_, next_at_end e.buf, Nat.sub_self _⟩
  · have h := Reads.times hreads [] []
    rw [hnum] at h
    rw [hbuf]
    simpa [Encoder.new, Decoder.new] using h
  · rw [map_map]
    exact hmap

/-- A structure with a number, a string that is ill formed and cut, and an
array. -/
def sampleCalls : List Call :=
  [.startStruct anonymousTag, .putInt (contextTag 1) (-129), .putUTF8 (commonTag 0x10000) [0x41, 0xE2, 0x82, 0x1F, 0x42],
    .startArray (fullyQualifiedTag 0xFFF1 1 2), .putUintWidth anonymousTag 7 8, .endContainer,
    .putOctets (contextTag 2) [0x1F], .endContainer]

theorem decode_encode_sample :
    ∃ errs e bs els d, Encoder.new.calls sampleCalls = some (errs, e) ∧ e.bytes = .ok bs ∧
      next.times sampleCalls.length (Decoder.new bs) = (.ok els, d) ∧
      els.map (fun el => (el.tag, elementValue el)) = sampleCalls.map (fun c => (callTag c, some (callValue c))) ∧
      next d = (.error .eof, d) ∧ remaining d = 0 := by
  obtain ⟨errs, e, hcalls, hok, bs, hbytes, hlen⟩ : ∃ errs e, Encoder.new.calls sampleCalls = some (errs, e) ∧
      (∀ err ∈ errs, err = none) ∧ ∃ bs, e.bytes = .ok bs ∧ bs.length < 2 ^ 63 :=
    ⟨_, _, rfl, by decide, _, rfl, by decide⟩
  have htags : ∀ c ∈ sampleCalls, Resolvable (callTag c) := by
    simp only [sampleCalls, forall_mem_cons]
    exact ⟨.anonymous, .context 1, .common _, .fullyQualified _ _ _, .anonymous, .anonymous, .context 2, .anonymous,
      fun c hc => absurd hc not_mem_nil⟩
  have hfits : ∀ c ∈ sampleCalls, Fits c := by
    simp only [sampleCalls, forall_mem_cons]
    exact ⟨trivial, trivial, trivial, trivial, (by decide : (7 : BitVec 64).toNat < 256 ^ 8), trivial, trivial, trivial,
      fun c hc => absurd hc not_mem_nil⟩
  have hcuts : ∀ c ∈ sampleCalls, CutFits c := by
    simp only [sampleCalls, forall_mem_cons]
    exact ⟨trivial, trivial, fun _ => by decide, trivial, trivial, trivial, trivial, trivial,
      fun c hc => absurd hc not_mem_nil⟩
  obtain ⟨els, d, h⟩ := decode_encode htags hfits hcalls hbytes hlen hok hcuts
  exact ⟨errs, e, bs, els, d, hcalls, hbytes, h⟩

/-! ## Streams that are not read back -/

theorem ascii_length (h : ∀ b ∈ s, b < 0x80) : utf8Valid s = true ∧ utf16Length s = s.length := by
  induction s with
  | nil => exact ⟨rfl, rfl⟩
  | cons c rest ih =>
    obtain ⟨hc, hrest⟩ := forall_mem_cons.mp h
    have hr : decodeRune c rest = (some c.toNat, 0) := if_pos hc
    have hlt : ¬ 0x10000 ≤ (some c.toNat).getD 0xFFFD := by
      show ¬ 0x10000 ≤ c.toNat
      omega
    obtain ⟨hv, hn⟩ := ih hrest
    refine ⟨by rw [utf8Valid_cons, hr]; exact hv, ?_⟩
    unfold utf16Length at hn ⊢
    rw [chunks_cons, hr, map_cons, sum_cons, if_neg hlt, drop_zero, hn, length_cons, Nat.add_comm]

theorem calls_singleton {c : Call} {err : Option TlvError} (h : e.call c = some (err, e')) :
    e.calls [c] = some ([err], e') := by
  unfold Encoder.calls
  rw [h]
  rfl

/-- A string of code units `A` that ends in an IS1. -/
def longText (n : Nat) : List Byte := List.replicate n 0x41 ++ [0x1F]

theorem longText_spec (n : Nat) : (longText n).length = n + 1 ∧ 0x1F ∈ longText n ∧ utf8Valid (longText n) = true ∧
    utf16Length (longText n) = n + 1 := by
  have hlen : (longText n).length = n + 1 := by simp [longText]
  have hascii : ∀ b ∈ longText n, b < 0x80 := by
    intro b hb
    obtain hb | hb := mem_append.mp hb
    · rw [eq_of_mem_replicate hb]
      decide
    · rw [mem_singleton.mp hb]
      decide
  obtain ⟨hvalid, hunits⟩ := ascii_length hascii
  exact ⟨hlen, mem_append_right _ (mem_singleton.mpr rfl), hvalid, hunits.trans hlen⟩

/-- A string with an IS1 that has 2³² code units or more is not read. -/
theorem fails_longText (h : 2 ^ 32 ≤ n) (hw : n + 1 < 256 ^ w) (hlen : n + 1 < 2 ^ 64) (el : Element) :
    ∃ err, Fails (readUTF8 el w) (leBytes w (longText n).length ++ longText n) err := by
  obtain ⟨hl, hmem, hvalid, hunits⟩ := longText_spec n
  refine ⟨_, fails_readUTF8 el (hl ▸ hw) (hl ▸ hlen) hmem ?_⟩
  rw [decodeUTF8_of_valid hvalid]
  omega

theorem long_text_unread (h32 : 2 ^ 32 ≤ n) (h61 : n < 2 ^ 61) :
    ∃ e bs, Encoder.new.calls [.putUTF8 anonymousTag (longText n)] = some ([none], e) ∧
      e.bytes = .ok bs ∧ bs.length < 2 ^ 63 ∧ ¬ ∃ els d, next.times 1 (Decoder.new bs) = (.ok els, d) := by
  obtain ⟨hl, -, hvalid, -⟩ := longText_spec n
  have hlt : n + 1 < 256 ^ lengthWidth (longText n).length := hl ▸ lt_lengthWidth (by omega)
  obtain ⟨err, hfail⟩ := fails_longText h32 hlt (by omega)
    { tag := anonymousTag, type := utf8Type (lengthWidth (longText n).length) }
  generalize hw : lengthWidth (longText n).length = w at hfail
  obtain ⟨err, hnext⟩ : ∃ err, Fails next (headWire (utf8Type w) anonymousTag ++
      (leBytes w (longText n).length ++ longText n)) err := by
    have hmem := lengthWidth_mem (longText n).length
    rw [hw] at hmem
    obtain rfl | rfl | rfl | rfl := width_cases hmem <;>
      exact ⟨_, fails_element (by decide) readable_anonymous hfail⟩
  have hput : Encoder.new.putUTF8 anonymousTag (longText n) = some (Encoder.new.append
      (headWire (utf8Type w) anonymousTag ++ (leBytes w (longText n).length ++ longText n))) := by
    unfold Encoder.putUTF8 validUTF8
    rw [if_pos hvalid, ← hw]
    exact writeStringLike_eq (.inl nofun) (by omega)
  generalize hwire : headWire (utf8Type w) anonymousTag ++ (leBytes w (longText n).length ++ longText n) = wire at *
  refine ⟨Encoder.new.append wire, wire, calls_singleton ?_, rfl, ?_, ?_⟩
  · show (Encoder.new.putUTF8 anonymousTag (longText n)).map _ = _
    rw [hput]
    rfl
  · have hle : w ≤ 8 := by
      rw [← hw]
      unfold lengthWidth
      split_ifs <;> decide
    rw [← hwire, length_append, length_append, length_leBytes]
    show 1 + _ < _
    omega
  · rintro ⟨els, d, h⟩
    have herr : (next.times 1 (Decoder.new wire)).1 = .error err :=
      Reader.bind_error (by simpa [Decoder.new] using hnext [] [])
    rw [h] at herr
    cases herr

/-- Two calls that leave no element: an `EndContainer` with no container open,
and a string that is too long to be cut. -/
theorem calls_without_element :
    (Encoder.new.calls [.endContainer] = some ([some (.unbalancedContainer none)], Encoder.new) ∧
      Encoder.new.bytes = .ok [] ∧ ¬ ∃ els d, next.times 1 (Decoder.new []) = (.ok els, d)) ∧
    ∃ e bs, Encoder.new.calls [.putUTF8 anonymousTag (List.replicate (2 ^ 32) 0x41 ++ [0x1F])] = some ([none], e) ∧
      e.bytes = .ok bs ∧ bs.length < 2 ^ 63 ∧ ¬ ∃ els d, next.times 1 (Decoder.new bs) = (.ok els, d) := by
  refine ⟨⟨rfl, rfl, ?_⟩, long_text_unread (Nat.le_refl _) (by decide)⟩
  rintro ⟨els, d, h⟩
  exact absurd (congrArg Prod.fst h) (by rintro ⟨⟩)

end GF.Proof.Tlv
