import GoFabric.Impl.Im.Unmarshal
import GoFabric.Proof.Tlv.Emit

/-!
# The elements of a buffer

* `elements_of_spells`: the calls of `Next` on bytes that spell elements return
  these elements;
* `elements_genuine`: a container among them has the type of one.
-/

namespace GF.Proof.Tlv

open GF.Impl.Tlv GF.Impl.Tlv.Decoder GF.Spec.Tlv List
open GF.Impl.Im.Wire (elements elementsFrom)

variable {bs : List Byte} {el : Element} {els : List Element} {t : ElementType}

/-! ## Bytes that spell elements -/

theorem spells_one (h : Reads next bs el) : Spells bs [el] := by
  have hs := Spells.cons h .nil
  rwa [List.append_nil] at hs

theorem Spells.append {bs' : List Byte} {els' : List Element} (h : Spells bs els) (h' : Spells bs' els') :
    Spells (bs ++ bs') (els ++ els') := by
  induction h with
  | nil => exact h'
  | cons hr _ ih =>
    rw [append_assoc]
    exact .cons hr ih

theorem reads_next_ne_nil : ¬ Reads next [] el := by
  intro h
  have h0 := h [] []
  cases h0

theorem elementsFrom_of_spells (h : Spells bs els) {fuel : Nat} (hf : bs.length < fuel) (before : List Byte) :
    (elementsFrom fuel ⟨before ++ bs, before.length⟩).1 = els := by
  induction h generalizing fuel before with
  | nil =>
    obtain ⟨fuel, rfl⟩ : ∃ n, fuel = n + 1 := ⟨fuel - 1, by omega⟩
    rw [List.append_nil, elementsFrom, next_at_end]
  | @cons bs bs' el els hr _ ih =>
    obtain ⟨fuel, rfl⟩ : ∃ n, fuel = n + 1 := ⟨fuel - 1, by omega⟩
    have hpos : 0 < bs.length := by
      cases bs with
      | nil => exact absurd hr reads_next_ne_nil
      | cons b bs => simp
    have hread := hr before bs'
    have hrest : (elementsFrom fuel ⟨before ++ bs ++ bs', (before ++ bs).length⟩).1 = els :=
      ih (by rw [length_append] at hf; omega) (before ++ bs)
    rw [length_append] at hrest
    rw [elementsFrom, ← append_assoc, hread]
    show el :: _ = _
    rw [hrest]

theorem elements_of_spells (h : Spells bs els) : (elements bs).1 = els :=
  elementsFrom_of_spells h (Nat.lt_succ_self _) []

/-! ## What the encoder writes -/

def boolElement (tag : Tag) (v : Bool) : Element := { tag := tag, type := boolType v, bool := v }

def nullElement (tag : Tag) : Element := { tag := tag, type := .null, isNull := true }

/-- The type of a number at the width it needs. -/
def leastType (v : BitVec 64) : ElementType :=
  if v ≤ 0xFF then .unsignedInt1 else if v ≤ 0xFFFF then .unsignedInt2
  else if v ≤ 0xFFFFFFFF then .unsignedInt4 else .unsignedInt8

def uintElement (tag : Tag) (v : BitVec 64) : Element := { tag := tag, type := leastType v, uint := v }

def octetsElement (tag : Tag) (b : List Byte) : Element :=
  { tag := tag, type := octetType (lengthWidth b.length), octets := b }

def openElement (t : ElementType) (tag : Tag) : Element := { tag := tag, type := t, isContainer := true }

def endElement : Element := { type := .endContainer, isEndContainer := true, tag := anonymousTag }

section Spells

variable {tag : Tag} (htag : Readable tag)
include htag

theorem spells_bool (v : Bool) : Spells (headWire (boolType v) tag) [boolElement tag v] := by
  have hv : Reads (readValue { tag, type := boolType v }) [] (boolElement tag v) := by
    cases v <;> exact Reads.pure _
  have h := reads_element (by cases v <;> decide) htag hv
  rw [List.append_nil] at h
  exact spells_one h

theorem spells_null : Spells (headWire .null tag) [nullElement tag] := by
  have hv : Reads (readValue { tag, type := .null }) [] (nullElement tag) := Reads.pure _
  have h := reads_element (by decide) htag hv
  rw [List.append_nil] at h
  exact spells_one h

theorem spells_number {v : BitVec 64} {w : Nat} (ht : t ≠ .endContainer)
    (hread : readValue { tag, type := t } = readUint { tag, type := t } w) (hv : v.toNat < 256 ^ w) :
    Spells (headWire t tag ++ leBytes w v.toNat) [{ tag, type := t, uint := v }] := by
  refine spells_one (reads_element ht htag ?_)
  have h := reads_readUint { tag, type := t } hv
  rw [ofNat_toNat_self] at h
  rw [hread]
  exact h

theorem spells_uint (v : BitVec 64) : Spells (uintWire tag v) [uintElement tag v] := by
  unfold uintWire uintElement leastType
  split_ifs with h1 h2 h4
  · have hv : v.toNat < 2 ^ 8 := Nat.lt_of_le_of_lt h1 (by decide)
    rw [toNat_narrow hv]
    exact spells_number htag (by decide) rfl hv
  · have hv : v.toNat < 2 ^ 16 := Nat.lt_of_le_of_lt h2 (by decide)
    rw [toNat_narrow hv]
    exact spells_number htag (by decide) rfl hv
  · have hv : v.toNat < 2 ^ 32 := Nat.lt_of_le_of_lt h4 (by decide)
    rw [toNat_narrow hv]
    exact spells_number htag (by decide) rfl hv
  · exact spells_number htag (by decide) rfl v.isLt

theorem spells_octets {b : List Byte} (hb : b.length < 2 ^ 64) :
    Spells (octetsWire tag b) [octetsElement tag b] := by
  have hread := reads_readOctets { tag, type := octetType (lengthWidth b.length) } (lt_lengthWidth hb) hb
  refine spells_one (reads_element ?_ htag ?_)
  · unfold lengthWidth
    split_ifs <;> decide
  have hvalue : readValue { tag, type := octetType (lengthWidth b.length) } =
      readOctets { tag, type := octetType (lengthWidth b.length) } (lengthWidth b.length) := by
    unfold lengthWidth
    split_ifs <;> rfl
  rw [hvalue]
  exact hread

end Spells

theorem reads_end : Reads next endWire endElement := by
  have h : Reads (readElement ElementType.endContainer.code .anonymous) [] endElement := fun _ _ => rfl
  exact reads_next rfl h

theorem spells_end : Spells endWire [endElement] := spells_one reads_end

theorem reads_open {tag : Tag} (ht : t = .struct ∨ t = .array ∨ t = .list) (htag : Readable tag) :
    Reads next (headWire t tag) (openElement t tag) := by
  have h : Reads next (headWire t tag ++ []) (openElement t tag) := by
    rcases ht with rfl | rfl | rfl <;> exact reads_element (by decide) htag (Reads.pure _)
  rwa [List.append_nil] at h

theorem spells_container {tag : Tag} {members : List Byte} (ht : t = .struct ∨ t = .array ∨ t = .list)
    (htag : Readable tag) (h : Spells members els) :
    Spells (containerWire t tag members) (openElement t tag :: (els ++ [endElement])) := by
  unfold containerWire
  rw [append_assoc]
  exact .cons (reads_open ht htag) (Spells.append h spells_end)

/-! ## Tags -/

section Takes

variable {kind : TagKind} {n w : Nat} {α : Type} {P : α → Prop}

theorem takes_need {f : Reader TlvError α} (h : ∀ bs, bs.length = n → ∃ a, Reads f bs a ∧ P a) :
    Takes (need n >>= fun _ => f) (·.length = n) P where
  reads {bs} hlen := (h bs hlen).imp fun _ ha => ⟨reads_need (Nat.le_of_eq hlen.symm) ha.1, ha.2⟩
  decides before rest := by
    by_cases hn : n ≤ rest.length
    · exact .inl ⟨rest.take n, rest.drop n, (take_append_drop n rest).symm, by simp [hn]⟩
    refine .inr (FailsIn.bind ⟨.truncated n ((before ++ rest).length - before.length), 0, Nat.zero_le _, ?_⟩)
    show (if (before ++ rest).length < before.length + n then _ else _ : Reader TlvError Unit) _ = _
    rw [if_pos (by rw [length_append]; omega)]
    rfl

theorem reads_readLE_bytes (h : bs.length = n) : Reads (readLE n) bs (leNat bs) := by
  have hread := reads_readLE (leNat_lt bs)
  rwa [leBytes_leNat, h] at hread

theorem takes_number {g : Nat → α} (h : ∀ v, P (g v)) :
    Takes (need n >>= fun _ => readLE n >>= fun v => pure (g v)) (·.length = n) P :=
  takes_need fun _ hlen => ⟨_, (reads_readLE_bytes hlen).bind_pure rfl, h _⟩

/-- A vendor, a profile and a number of `k` bytes. -/
theorem takes_qualified {g : Nat → Nat → Nat → α} (h : ∀ a b c, P (g a b c)) (k : Nat) :
    Takes (need (4 + k) >>= fun _ => readLE 2 >>= fun a => readLE 2 >>= fun b => readLE k >>= fun c => pure (g a b c))
      (·.length = 4 + k) P := by
  refine takes_need fun bs hlen => ?_
  have h1 : Reads (readLE 2) (bs.take 2) _ := reads_readLE_bytes (by simp; omega)
  have h2 : Reads (readLE 2) ((bs.drop 2).take 2) _ := reads_readLE_bytes (by simp; omega)
  have h3 : Reads (readLE k) ((bs.drop 2).drop 2) _ := reads_readLE_bytes (by simp; omega)
  have hread := h1.bind (f := fun a => readLE 2 >>= fun b => readLE k >>= fun c => pure (g a b c))
    (h2.bind (h3.bind_pure rfl))
  rw [take_append_drop, take_append_drop] at hread
  exact ⟨_, hread, h _ _ _⟩

theorem takes_readTag (kind : TagKind) :
    Takes (readTag kind) (fun bs => tagWidth kind = some bs.length) (·.kind = kind) := by
  cases kind with
  | anonymous => exact .congr (.pure rfl) fun bs => by cases bs <;> simp [tagWidth]
  | context | commonProfile2 | commonProfile4 =>
    exact .congr (takes_number fun _ => rfl) fun bs => by simp [tagWidth, eq_comm]
  | implicitProfile2 | implicitProfile4 => exact .congr (.fail fun _ => ⟨_, rfl⟩) fun bs => by simp [tagWidth]
  | fullyQualified6 => exact .congr (takes_qualified (fun _ _ _ => by rfl) 2) fun bs => by simp [tagWidth, eq_comm]
  | fullyQualified8 => exact .congr (takes_qualified (fun _ _ _ => by rfl) 4) fun bs => by simp [tagWidth, eq_comm]

/-! ## Values -/

theorem length_lt_of_width (hw : w ≤ 8) (h : n < 256 ^ w) : n < 2 ^ 64 :=
  Nat.lt_of_lt_of_le h (Nat.pow_le_pow_right (by decide) hw)

theorem takes_readStringLike (hw : w ≤ 8) :
    Takes (readStringLike w) (Counted w fun _ => True) fun _ => True where
  reads := by
    rintro _ ⟨body, rfl, hlen, -⟩
    exact ⟨body, reads_readStringLike hlen (length_lt_of_width hw hlen), trivial⟩
  decides before rest := by
    rcases (takes_number (n := w) (P := fun _ => True) fun _ => trivial).decides before rest with
      ⟨bs, after, rfl, hlen⟩ | h
    · have hbs : leBytes w (leNat bs) = bs := hlen ▸ leBytes_leNat bs
      have hlt : leNat bs < 256 ^ w := hlen ▸ leNat_lt bs
      by_cases hn : leNat bs ≤ after.length
      · refine .inl ⟨bs ++ after.take (leNat bs), after.drop (leNat bs), by simp, after.take (leNat bs), ?_⟩
        rw [length_take, Nat.min_eq_left hn, hbs]
        exact ⟨rfl, hlt, trivial⟩
      have hread : Reads (readU w) bs (BitVec.ofNat 64 (leNat bs)) :=
        reads_need (Nat.le_of_eq hlen.symm) ((reads_readLE_bytes hlen).bind_pure rfl)
      have hval : (BitVec.ofNat 64 (leNat bs)).toNat = leNat bs := by
        rw [BitVec.toNat_ofNat, Nat.mod_eq_of_lt (length_lt_of_width hw hlt)]
      refine .inr (hread.failsIn ⟨.lengthOverflow (BitVec.ofNat 64 (leNat bs)).toNat
        ((before ++ bs ++ after).length - (before ++ bs).length), 0, Nat.zero_le _, ?_⟩)
      show (if (before ++ bs ++ after).length - (before ++ bs).length < (BitVec.ofNat 64 (leNat bs)).toNat then _
        else _ : Reader TlvError (List Byte)) _ = _
      rw [if_pos (by simp only [length_append]; omega)]
      rfl
    · exact .inr h.bind

/-- A container has the type of one and is not null. -/
def Genuine (el : Element) : Prop :=
  el.isContainer = true → el.isNull = false ∧ (el.type = .struct ∨ el.type = .array ∨ el.type = .list)

/-- What an element has of its control byte. -/
def Shows (kind : TagKind) (t : ElementType) (el : Element) : Prop :=
  el.tag.kind = kind ∧ el.type = t ∧ el.isContainer = opens t ∧ el.isEndContainer = (t == .endContainer) ∧
    (t ≠ .null → el.isNull = false)

theorem Shows.genuine (h : Shows kind t el) : Genuine el := by
  obtain ⟨-, rfl, hc, -, hn⟩ := h
  intro hopen
  rw [hc] at hopen
  have htype : el.type = .struct ∨ el.type = .array ∨ el.type = .list := by simpa [opens, or_assoc] using hopen
  refine ⟨hn ?_, htype⟩
  rcases htype with h | h | h <;> rw [h] <;> decide

theorem takes_readUTF8 (h : Shows kind t el) (hw : w ≤ 8) :
    Takes (readUTF8 el w) (Counted w Cuttable) (Shows kind t) where
  reads := by
    rintro _ ⟨body, rfl, hlen, hcut⟩
    exact ⟨_, reads_readUTF8 el hlen (length_lt_of_width hw hlen) hcut, h⟩
  decides before rest := by
    rcases (takes_readStringLike hw).decides before rest with ⟨_, after, rfl, body, rfl, hlen, -⟩ | h
    · by_cases hcut : Cuttable body
      · exact .inl ⟨_, after, rfl, body, rfl, hlen, hcut⟩
      obtain ⟨hmem, hlong⟩ := Classical.not_imp.1 hcut
      refine .inr ((reads_readStringLike hlen (length_lt_of_width hw hlen)).failsIn
        ⟨.stringTooLong (utf16Length (decodeUTF8 body)), 0, Nat.zero_le _, ?_⟩)
      rw [findIdx?_of_mem hmem]
      dsimp only
      rw [if_pos (by omega)]
      rfl
    · exact .inr h.bind

theorem takes_readValue {tag : Tag} (htag : tag.kind = kind) (t : ElementType) :
    Takes (readValue { tag, type := t }) (ValueWire Cuttable t) (Shows kind t) := by
  cases t with
  | boolFalse | boolTrue | null | struct | array | list => exact Takes.pure ⟨htag, rfl, rfl, rfl, by simp⟩
  | signedInt1 | signedInt2 | signedInt4 | signedInt8 | unsignedInt1 | unsignedInt2 | unsignedInt4 | unsignedInt8
  | float4 | float8 =>
    exact (takes_number (P := fun _ => True) fun _ => trivial).bind_pure fun _ _ => ⟨htag, rfl, rfl, rfl, fun _ => rfl⟩
  | utf8Str1 | utf8Str2 | utf8Str4 | utf8Str8 =>
    exact takes_readUTF8 ⟨htag, rfl, rfl, rfl, fun _ => rfl⟩ (by decide)
  | octetStr1 | octetStr2 | octetStr4 | octetStr8 =>
    exact (takes_readStringLike (by decide)).bind_pure fun _ _ => ⟨htag, rfl, rfl, rfl, fun _ => rfl⟩
  | endContainer => exact Takes.fail fun _ => ⟨_, rfl⟩

/-! ## What `Next` reads -/

/-- What stands behind a control byte with this kind of tag and this type. -/
def Rest (kind : TagKind) : Option ElementType → List Byte → Prop
  | none => fun _ => False
  | some .endContainer => fun bs => kind = .anonymous ∧ bs = []
  | some t => fun bs => ∃ tag value, bs = tag ++ value ∧ tagWidth kind = some tag.length ∧ ValueWire Cuttable t value

theorem takes_readElement (c : Byte) (kind : TagKind) :
    Takes (readElement c kind) (Rest kind (ElementType.ofCode (c &&& 0x1F)))
      fun el => ∃ t, ElementType.ofCode (c &&& 0x1F) = some t ∧ Shows kind t el := by
  unfold readElement
  cases ElementType.ofCode (c &&& 0x1F) with
  | none => exact ((takes_readTag kind).bind fun _ _ => .fail fun _ => ⟨_, rfl⟩).congr fun bs => by simp [Rest]
  | some t =>
    cases t with
    | endContainer =>
      by_cases hk : kind = .anonymous
      · subst hk
        have hend : Shows .anonymous .endContainer endElement := ⟨rfl, rfl, rfl, rfl, fun _ => rfl⟩
        exact (Takes.pure ⟨_, rfl, hend⟩).congr fun bs => by simp [Rest]
      · simp only [ne_eq, hk]
        exact ((takes_readTag kind).bind fun _ _ => .fail fun _ => ⟨_, rfl⟩).congr fun bs => by simp [Rest, hk]
    | _ =>
      simp only [Option.some.injEq, exists_eq_left']
      exact (takes_readTag kind).bind fun tag htag => takes_readValue htag _

/-- The two parts of a control byte. -/
theorem control_cases (c : Byte) : ∃ kind, TagKind.ofCode (c >>> 5) = some kind ∧
    ∀ t, ElementType.ofCode (c &&& 0x1F) = some t → c = controlByte kind t := by
  have h : ∀ i : Fin 256, (TagKind.ofCode (BitVec.ofFin i >>> 5)).any fun kind =>
      (ElementType.ofCode (BitVec.ofFin i &&& 0x1F)).all fun t => BitVec.ofFin i == controlByte kind t := by
    decide +kernel
  obtain ⟨kind, hk, ht⟩ := (Option.any_eq_true _ _).1 (h c.toFin)
  exact ⟨kind, hk, fun t hcode => eq_of_beq ((Option.all_eq_true _ _).1 ht t hcode)⟩

theorem reads_of_wire (h : ElementWire Cuttable kind t bs) : ∃ el, Reads next bs el ∧ Shows kind t el := by
  obtain ⟨tag, value, rfl, htag, hvalue⟩ := h
  have ht : ElementType.ofCode (controlByte kind t &&& 0x1F) = some t := elementType_control kind t
  have hrest : Rest kind (ElementType.ofCode (controlByte kind t &&& 0x1F)) (tag ++ value) := by
    rw [ht]
    cases t <;> first | exact hvalue.elim | exact ⟨tag, value, rfl, htag, hvalue⟩
  obtain ⟨el, hr, t', ht', hs⟩ := (takes_readElement (controlByte kind t) kind).reads hrest
  obtain rfl := Option.some.inj (ht.symm.trans ht')
  exact ⟨el, reads_next (tagKind_control kind t) hr, hs⟩

/-- What `Next` does: it fails, or reads the end of a container or an element. -/
theorem next_cases (before rest : List Byte) : FailsIn next before rest ∨ (∃ after, rest = endWire ++ after) ∨
    ∃ kind t bs after, rest = bs ++ after ∧ ElementWire Cuttable kind t bs := by
  cases rest with
  | nil => exact .inl ⟨.eof, 0, Nat.zero_le _, by rw [List.append_nil]; exact next_at_end before⟩
  | cons c rest =>
    obtain ⟨kind, hk, hc⟩ := control_cases c
    rcases (takes_readElement c kind).decides (before ++ [c]) rest with ⟨bs, after, rfl, hrest⟩ | ⟨e, k, hle, he⟩
    · cases ht : ElementType.ofCode (c &&& 0x1F) with
      | none =>
        rw [ht] at hrest
        exact hrest.elim
      | some t =>
        rw [ht] at hrest
        obtain rfl := hc t ht
        cases t with
        | endContainer =>
          obtain ⟨rfl, rfl⟩ := hrest
          exact .inr (.inl ⟨after, rfl⟩)
        | _ =>
          obtain ⟨tag, value, rfl, htag, hvalue⟩ := hrest
          exact .inr (.inr ⟨kind, _, _, after, rfl, tag, value, rfl, htag, hvalue⟩)
    · refine .inl ⟨e, k + 1, Nat.succ_le_succ hle, ?_⟩
      rw [next_eq hk]
      simpa [Nat.add_assoc, Nat.add_comm 1] using he

end Takes

/-- `Next` goes on within the bytes. -/
theorem next_within {b : List Byte} {pos : Nat} (h : pos ≤ b.length) : ∃ r pos', next ⟨b, pos⟩ = (r, ⟨b, pos'⟩) ∧
    pos ≤ pos' ∧ pos' ≤ b.length ∧ ∀ el, r = .ok el → pos < pos' ∧ Genuine el := by
  have hlen : (b.take pos).length = pos := by simp [h]
  have hnext : FailsIn next (b.take pos) (b.drop pos) ∨
      ∃ el bs after, Reads next bs el ∧ Genuine el ∧ b.drop pos = bs ++ after := by
    rcases next_cases (b.take pos) (b.drop pos) with hfail | ⟨after, hb⟩ | ⟨kind, t, bs, after, hb, hw⟩
    · exact .inl hfail
    · exact .inr ⟨endElement, endWire, after, reads_end, nofun, hb⟩
    · obtain ⟨el, hr, hs⟩ := reads_of_wire hw
      exact .inr ⟨el, bs, after, hr, hs.genuine, hb⟩
  rcases hnext with ⟨e, k, hk, he⟩ | ⟨el, bs, after, hr, hg, hb⟩
  · rw [take_append_drop, hlen] at he
    rw [length_drop] at hk
    exact ⟨_, _, he, by omega, by omega, fun _ h => nomatch h⟩
  have hrun := hr (b.take pos) after
  rw [append_assoc, ← hb, take_append_drop, hlen] at hrun
  have hpos := length_pos_iff.2 fun hnil : bs = [] => reads_next_ne_nil (hnil ▸ hr)
  have htotal := congrArg List.length hb
  rw [length_drop, length_append] at htotal
  refine ⟨_, _, hrun, by omega, by omega, ?_⟩
  rintro _ ⟨⟩
  exact ⟨by omega, hg⟩

theorem elementsFrom_genuine {fuel pos : Nat} {b : List Byte} (h : pos ≤ b.length) :
    ∀ el ∈ (elementsFrom fuel ⟨b, pos⟩).1, Genuine el := by
  induction fuel generalizing pos with
  | zero => simp [elementsFrom]
  | succ fuel ih =>
    obtain ⟨r, pos', hrun, -, hle, hok⟩ := next_within h
    unfold elementsFrom
    rw [hrun]
    cases r with
    | error e => simp
    | ok el =>
      intro x hx
      rcases mem_cons.1 hx with rfl | hx
      · exact (hok x rfl).2
      · exact ih hle x hx

/-- Every container that `Next` returns is one by its type. -/
theorem elements_genuine (data : List Byte) : ∀ el ∈ (elements data).1, Genuine el :=
  elementsFrom_genuine (Nat.zero_le _)

end GF.Proof.Tlv
