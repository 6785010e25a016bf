import GoFabric.Impl.Sigma.Codec
import GoFabric.Proof.Tlv.Writes

/-!
# Decoding the messages of CASE

Each marshaller writes the elements of an anonymous structure (`elements_structBytes`), and the
decoder's loop runs over them field by field (`Conveys`, `decode_structBytes`). A message comes
back as it was sent, but for the TCP message size of session parameters without a TCP transport
(`sentParameters`).
-/

namespace GF.Proof.Sigma

open GF.Impl.Tlv GF.Impl.Sigma GF.Proof.Tlv BitVec
open GF.Impl.Im.Wire (elements putIf putField)

variable {σ α : Type} {f : Encoder → Option Encoder} {n : BitVec 8} {b id mic : List Byte} {w k : Nat}

/-! ## Structures -/

theorem elements_structBytes {els : List Element} (h : Writes f els) :
    (elements (structBytes f)).1 = containerElements .struct anonymousTag els := by
  obtain ⟨bs, happ, hs⟩ := writes_container (.inl rfl) readable_anonymous (ends_last h)
  have hbytes : structBytes f = bs :=
    congrArg (fun o => (Option.map Encoder.buf o).getD []) (happ Encoder.new (by decide))
  rw [hbytes]
  exact elements_of_spells hs

section Fields

variable {member : BitVec 8 → Element → σ → Decode σ} {finish : σ → Except CodecError α} {s s' : σ}

theorem decode_structBytes {a : α} (h : Conveys (fields member finish) f s s') (hfinish : finish s' = .ok a) :
    decode (structOf (fields member finish) s) (structBytes f) = .ok a := by
  obtain ⟨els, hf, hruns⟩ := h
  have hloop : Answers ((fields member finish).parser s) (els ++ [endElement]) (.ok a) := hruns.answers rfl hfinish
  have hstruct : Answers (structOf (fields member finish) s)
      ([openElement .struct anonymousTag] ++ (els ++ [endElement]))
      (.ok a) := (answers_next _ _).bind hloop
  have hrun := hstruct []
  rw [List.append_nil] at hrun
  unfold decode
  rw [elements_structBytes hf]
  show ((structOf (fields member finish) s).run (openElement .struct anonymousTag :: (els ++ [endElement]))).map _ = _
  rw [List.singleton_append] at hrun
  rw [hrun]
  rfl

theorem conveys_tagged {el : Element} {used : List Element} (hw : Writes f (el :: used))
    (htag : el.tag = contextTag n) (hend : el.isEndContainer = false) (h : Answers (member n el s) used (.ok s')) :
    Conveys (fields member finish) f s s' := by
  refine conveys_member hw hend ?_
  have hn : el.tag.number.setWidth 8 = n := by
    rw [htag]
    exact (setWidth_setWidth_of_le n (by decide)).trans (setWidth_eq n)
  show Answers (if el.tag.kind ≠ .context then _ else member (el.tag.number.setWidth 8) el s) used (.ok s')
  rw [if_neg (by rw [htag]; exact not_not.2 rfl), hn]
  exact h

theorem conveys_octets (hb : b.length < 2 ^ 64)
    (h : Answers (member n (octetsElement (contextTag n) b) s) [] (.ok s')) :
    Conveys (fields member finish) (·.putOctets (contextTag n) b) s s' := conveys_tagged (writes_octets n hb) rfl rfl h

theorem conveys_optOctets (g : List Byte → σ) (hb : b.length < 2 ^ 64)
    (h : b ≠ [] → Answers (member n (octetsElement (contextTag n) b) (g [])) [] (.ok (g b))) :
    Conveys (fields member finish) (putIf (!b.isEmpty) (·.putOctets (contextTag n) b)) (g []) (g b) := by
  cases b with
  | nil => exact conveys_nothing
  | cons x b => exact conveys_octets hb (h (List.cons_ne_nil x b))

theorem conveys_uint16 {v : BitVec 16} (h : Answers (member n (numberElement n .unsignedInt2 v) s) [] (.ok s')) :
    Conveys (fields member finish) (·.putUint16 (contextTag n) v) s s' := conveys_tagged (writes_uint16 n v) rfl rfl h

end Fields

theorem answers_setOctets (hb : b.length = k) (e : Nat → CodecError) (f : Vector Byte k → σ) :
    Answers (setOctets k (octetsElement (contextTag n) b) e f) [] (.ok (f ⟨b.toArray, by simpa using hb⟩)) := by
  have hoctets : octetsOf k (octetsElement (contextTag n) b) e = .ok ⟨b.toArray, by simpa using hb⟩ := dif_pos hb
  unfold setOctets
  rw [hoctets]
  exact answers_ofExcept _

theorem answers_setVector {v : Vector Byte k} {e : Nat → CodecError} {f : Vector Byte k → σ} :
    Answers (setOctets k (octetsElement (contextTag n) v.toList) e f) [] (.ok (f v)) := by
  have h := answers_setOctets (n := n) (b := v.toList) (by simp) e f
  exact h

theorem setWidth_numberElement (hw : w ≤ 64) (n : BitVec 8) (t : ElementType) (v : BitVec w) :
    (numberElement n t v).uint.setWidth w = v := by
  show (v.setWidth 64).setWidth w = v
  rw [setWidth_setWidth_of_le v hw, setWidth_eq]

theorem answers_number (hw : w ≤ 64) {t : ElementType} (v : BitVec w) (f : BitVec w → σ) :
    Answers (pure (f ((numberElement n t v).uint.setWidth w)) : Decode σ) [] (.ok (f v)) := by
  rw [setWidth_numberElement hw]
  exact answers_pure

theorem answers_uint (hw : w ≤ 64) {v : BitVec w} (f : BitVec w → σ) :
    Answers (pure (f ((fieldElement n v).uint.setWidth w)) : Decode σ) [] (.ok (f v)) :=
  answers_number hw (n := n) v f

/-! ## Session parameters -/

/-- The parameters as a peer reads them: a message size only with a TCP transport. -/
def sentParameters (p : SessionParameters) : SessionParameters :=
  { p with maxTCPMessageSize := if p.supportsTCP then p.maxTCPMessageSize else 0 }

theorem conveys_parameter {t : ElementType} {v : BitVec w} (hw : w ≤ 64) (g : BitVec w → SessionParameters)
    (hf : Writes f [numberElement n t v])
    (h : SessionParameters.field n (numberElement n t v) (g 0) = pure (g ((numberElement n t v).uint.setWidth w))) :
    Conveys SessionParameters.loop (putIf (v != 0) f) (g 0) (g v) := by
  refine conveys_putIf (fun _ => conveys_tagged hf rfl rfl ?_) fun hz => ?_
  · rw [h]
    exact answers_number hw v g
  · rw [bne_eq_false_iff_eq.1 hz]

theorem packs_parameters (p : SessionParameters) (outer : BitVec 8) :
    Packs (SessionParameters.loop.parser {}) .struct (contextTag outer) (p.encode outer) (sentParameters p) := by
  have h1 := conveys_parameter (by decide) (fun v => { sessionIdleInterval := v })
    (writes_uint32 1 p.sessionIdleInterval) rfl
  have h2 := conveys_parameter (by decide)
    (fun v => { sessionIdleInterval := p.sessionIdleInterval, sessionActiveInterval := v })
    (writes_uint32 2 p.sessionActiveInterval) rfl
  have h3 := conveys_parameter (by decide)
    (fun v => { sessionIdleInterval := p.sessionIdleInterval, sessionActiveInterval := p.sessionActiveInterval
                sessionActiveThreshold := v }) (writes_uint16 3 p.sessionActiveThreshold) rfl
  have h4 := conveys_parameter (by decide)
    (fun v => { sessionIdleInterval := p.sessionIdleInterval, sessionActiveInterval := p.sessionActiveInterval
                sessionActiveThreshold := p.sessionActiveThreshold, dataModelRevision := v })
    (writes_uint16 4 p.dataModelRevision) rfl
  have h5 := conveys_parameter (by decide)
    (fun v => { p with
                interactionModelRevision := v, specificationVersion := 0, maxPathsPerInvoke := 0
                supportedTransports := 0, maxTCPMessageSize := 0 }) (writes_uint16 5 p.interactionModelRevision) rfl
  have h6 := conveys_parameter (by decide)
    (fun v => { p with specificationVersion := v, maxPathsPerInvoke := 0, supportedTransports := 0
                       maxTCPMessageSize := 0 }) (writes_uint32 6 p.specificationVersion) rfl
  have h7 := conveys_parameter (by decide)
    (fun v => { p with maxPathsPerInvoke := v, supportedTransports := 0, maxTCPMessageSize := 0 })
    (writes_uint16 7 p.maxPathsPerInvoke) rfl
  have h8 := conveys_parameter (by decide) (fun v => { p with supportedTransports := v, maxTCPMessageSize := 0 })
    (writes_uint16 8 p.supportedTransports) rfl
  have h9 : Conveys SessionParameters.loop (putIf (p.maxTCPMessageSize != 0 && p.supportsTCP)
      (·.putUint32 (contextTag 9) p.maxTCPMessageSize)) { p with maxTCPMessageSize := 0 } (sentParameters p) := by
    unfold sentParameters
    cases p.supportsTCP with
    | true =>
      rw [Bool.and_true]
      exact conveys_parameter (by decide) (fun v => { p with maxTCPMessageSize := v })
        (writes_uint32 9 p.maxTCPMessageSize) rfl
    | false =>
      rw [Bool.and_false]
      exact conveys_nothing
  exact (h1.andThen (h2.andThen (h3.andThen (h4.andThen (h5.andThen (h6.andThen (h7.andThen
    (h8.andThen h9.last)))))))).packs (.inl rfl) rfl rfl (readable_context outer)

/-- The parameters that `putParams` writes. -/
def statedParameters (p : Option SessionParameters) : Option SessionParameters := p.filter fun p => !p.isEmpty

section Parameters

variable {member : BitVec 8 → Element → σ → Decode σ} {finish : σ → Except CodecError α}
  {g : Option SessionParameters → σ} (h : ∀ el, member n el (g none) = paramsField el (g none) fun p => g (some p))
include h

theorem conveys_encode (p : SessionParameters) :
    Conveys (fields member finish) (p.encode n) (g none) (g (some (sentParameters p))) := by
  obtain ⟨els, hw, ha⟩ := packs_parameters p n
  refine conveys_tagged hw rfl rfl ?_
  rw [h]
  exact ha.bind_pure

theorem conveys_putSet (p : Option SessionParameters) :
    Conveys (fields member finish) (putSet n p) (g none) (g (p.map sentParameters)) := by
  cases p with
  | none => exact conveys_nothing
  | some p => exact conveys_encode h p

theorem conveys_putParams (p : Option SessionParameters) :
    Conveys (fields member finish) (putParams n p) (g none) (g ((statedParameters p).map sentParameters)) := by
  cases p with
  | none => exact conveys_nothing
  | some p =>
    show Conveys _ (fun e => if p.isEmpty then some e else p.encode n e) _ _
    unfold statedParameters
    rw [Option.filter_some]
    cases p.isEmpty with
    | true => exact conveys_nothing
    | false => exact conveys_encode h p

end Parameters

/-! ## Messages -/

/-- A resumption id and its proof, both of 16 bytes or both missing. -/
def Paired (id mic : List Byte) : Prop := (id = [] ∧ mic = []) ∨ (id.length = 16 ∧ mic.length = 16)

theorem Paired.length_id (h : Paired id mic) (hne : id ≠ []) : id.length = 16 := by
  rcases h with ⟨h, _⟩ | ⟨h, _⟩
  · exact absurd h hne
  · exact h

theorem Paired.length_mic (h : Paired id mic) (hne : mic ≠ []) : mic.length = 16 := by
  rcases h with ⟨_, h⟩ | ⟨_, h⟩
  · exact absurd h hne
  · exact h

theorem Paired.isEmpty_eq (h : Paired id mic) : id.isEmpty = mic.isEmpty := by
  rcases h with ⟨rfl, rfl⟩ | ⟨h, h'⟩
  · rfl
  cases id with
  | nil => cases h
  | cons x id =>
    cases mic with
    | nil => cases h'
    | cons y mic => rfl

theorem unmarshalSigma1_marshal {m : Sigma1} (heph : m.initiatorEphPubKey.length = 65)
    (hpaired : Paired m.resumptionID m.initiatorResumeMIC) :
    unmarshalSigma1 m.marshal =
      .ok { m with initiatorSessionParams := m.initiatorSessionParams.map sentParameters } := by
  have hid : m.resumptionID.length < 2 ^ 64 := by
    rcases hpaired with ⟨h, _⟩ | ⟨h, _⟩ <;> rw [h] <;> decide
  have hmic : m.initiatorResumeMIC.length < 2 ^ 64 := by
    rcases hpaired with ⟨_, h⟩ | ⟨_, h⟩ <;> rw [h] <;> decide
  let seen (m : Sigma1) (id dest : Bool) : Sigma1Seen :=
    { msg := m, hasRandom := true, hasSessionID := id, hasDestination := dest }
  let m1 : Sigma1 :=
    { initiatorRandom := m.initiatorRandom, initiatorSessionID := 0, destinationID := Vector.replicate 32 0
      initiatorEphPubKey := [] }
  let m2 : Sigma1 := { m1 with initiatorSessionID := m.initiatorSessionID }
  let m3 : Sigma1 := { m2 with destinationID := m.destinationID }
  let m4 : Sigma1 := { m3 with initiatorEphPubKey := m.initiatorEphPubKey }
  let m5 : Sigma1 := { m4 with initiatorSessionParams := m.initiatorSessionParams.map sentParameters }
  let l : Loop Element CodecError Sigma1Seen Sigma1 := fields Sigma1Seen.field Sigma1Seen.finish
  have h1 : Conveys l (·.putOctets (contextTag 1) m.initiatorRandom.toList) {} (seen m1 false false) :=
    conveys_octets (by simp) answers_setVector
  have h2 : Conveys l (putField · 2 m.initiatorSessionID) (seen m1 false false) (seen m2 true false) :=
    conveys_tagged (writes_field 2 _) rfl rfl
      (answers_uint (by decide) fun v => seen { m1 with initiatorSessionID := v } true false)
  have h3 : Conveys l (·.putOctets (contextTag 3) m.destinationID.toList) (seen m2 true false) (seen m3 true true) :=
    conveys_octets (by simp) answers_setVector
  have h4 : Conveys l (·.putOctets (contextTag 4) m.initiatorEphPubKey) (seen m3 true true) (seen m4 true true) :=
    conveys_octets (by rw [heph]; decide) (answers_setOctets heph _ _)
  have h5 : Conveys l (putSet 5 m.initiatorSessionParams) (seen m4 true true) (seen m5 true true) :=
    conveys_putSet (g := fun p => seen { m4 with initiatorSessionParams := p } true true) (fun _ => rfl) _
  have h6 : Conveys l (putIf (!m.resumptionID.isEmpty) (·.putOctets (contextTag 6) m.resumptionID)) (seen m5 true true)
      (seen { m5 with resumptionID := m.resumptionID } true true) :=
    conveys_optOctets (fun id => seen { m5 with resumptionID := id } true true) hid fun hne =>
      answers_setOctets (hpaired.length_id hne) _ _
  have h7 : Conveys l (putIf (!m.initiatorResumeMIC.isEmpty) (·.putOctets (contextTag 7) m.initiatorResumeMIC))
      (seen { m5 with resumptionID := m.resumptionID } true true)
      (seen { m5 with resumptionID := m.resumptionID, initiatorResumeMIC := m.initiatorResumeMIC } true true) :=
    conveys_optOctets
      (fun mic => seen { m5 with resumptionID := m.resumptionID, initiatorResumeMIC := mic } true true) hmic
      fun hne => answers_setOctets (hpaired.length_mic hne) _ _
  refine decode_structBytes (h1.bind (h2.bind (h3.bind (h4.bind (h5.bind (h6.bind h7)))))) ?_
  have hne : m.initiatorEphPubKey.isEmpty = false := by
    cases h : m.initiatorEphPubKey with
    | nil => rw [h] at heph; cases heph
    | cons x b => rfl
  show Sigma1Seen.finish _ = _
  simp [Sigma1Seen.finish, seen, m5, m4, m3, m2, m1, hne, hpaired.isEmpty_eq]

theorem unmarshalSigma2_marshal {m : Sigma2} (heph : m.responderEphPubKey.length = 65)
    (henc : m.encrypted2.length < 2 ^ 64) :
    unmarshalSigma2 m.marshal =
      .ok { m with sessionParams := (statedParameters m.sessionParams).map sentParameters } := by
  let m1 : Sigma2 :=
    { responderRandom := m.responderRandom, responderSessionID := 0, responderEphPubKey := [], encrypted2 := [] }
  let m2 : Sigma2 := { m1 with responderSessionID := m.responderSessionID }
  let m3 : Sigma2 := { m2 with responderEphPubKey := m.responderEphPubKey }
  let m4 : Sigma2 := { m3 with encrypted2 := m.encrypted2 }
  let m5 : Sigma2 := { m4 with sessionParams := (statedParameters m.sessionParams).map sentParameters }
  let l : Loop Element CodecError Sigma2Seen Sigma2 := fields Sigma2Seen.field fun s =>
    if s.seen ≠ 15 then .error (.sigma2Mask s.seen) else .ok s.msg
  have h1 : Conveys l (·.putOctets (contextTag 1) m.responderRandom.toList) {} { msg := m1, seen := 0 ||| 1 } :=
    conveys_octets (by simp) answers_setVector
  have h2 : Conveys l (·.putUint16 (contextTag 2) m.responderSessionID) { msg := m1, seen := 0 ||| 1 }
      { msg := m2, seen := 0 ||| 1 ||| 2 } :=
    conveys_uint16 (answers_number (by decide) m.responderSessionID fun v =>
      ({ msg := { m1 with responderSessionID := v }, seen := 0 ||| 1 ||| 2 } : Sigma2Seen))
  have h3 : Conveys l (·.putOctets (contextTag 3) m.responderEphPubKey) { msg := m2, seen := 0 ||| 1 ||| 2 }
      { msg := m3, seen := 0 ||| 1 ||| 2 ||| 4 } :=
    conveys_octets (by rw [heph]; decide) (answers_setOctets heph _ _)
  have h4 : Conveys l (·.putOctets (contextTag 4) m.encrypted2) { msg := m3, seen := 0 ||| 1 ||| 2 ||| 4 }
      { msg := m4, seen := 0 ||| 1 ||| 2 ||| 4 ||| 8 } := conveys_octets henc answers_pure
  have h5 : Conveys l (putParams 5 m.sessionParams) { msg := m4, seen := 0 ||| 1 ||| 2 ||| 4 ||| 8 }
      { msg := m5, seen := 0 ||| 1 ||| 2 ||| 4 ||| 8 } :=
    conveys_putParams (g := fun p =>
      ({ msg := { m4 with sessionParams := p }, seen := 0 ||| 1 ||| 2 ||| 4 ||| 8 } : Sigma2Seen)) (fun _ => rfl) _
  have hmask : (0 ||| 1 ||| 2 ||| 4 ||| 8 : BitVec 4) = 15 := by decide
  exact decode_structBytes (h1.bind (h2.bind (h3.bind (h4.bind h5)))) (if_neg (not_not.2 hmask))

theorem unmarshalTBE2_marshal {p : TBE2Plaintext} (hnoc : p.responderNOC.length < 2 ^ 64)
    (hicac : p.responderICAC.length < 2 ^ 64) (hsig : p.signature.length < 2 ^ 64)
    (hid : p.resumptionID.length < 2 ^ 64) : unmarshalTBE2 (marshalTBE2 p) = .ok p := by
  let l : Loop Element CodecError TBE2Plaintext TBE2Plaintext := fields TBE2Plaintext.field .ok
  have h1 : Conveys l (·.putOctets (contextTag 1) p.responderNOC) {} { responderNOC := p.responderNOC } :=
    conveys_octets hnoc answers_pure
  have h2 : Conveys l (putIf (!p.responderICAC.isEmpty) (·.putOctets (contextTag 2) p.responderICAC))
      { responderNOC := p.responderNOC } { responderNOC := p.responderNOC, responderICAC := p.responderICAC } :=
    conveys_optOctets (fun b => ({ responderNOC := p.responderNOC, responderICAC := b } : TBE2Plaintext)) hicac
      fun _ => answers_pure
  have h3 : Conveys l (·.putOctets (contextTag 3) p.signature)
      { responderNOC := p.responderNOC, responderICAC := p.responderICAC } { p with resumptionID := [] } :=
    conveys_octets hsig answers_pure
  have h4 : Conveys l (·.putOctets (contextTag 4) p.resumptionID) { p with resumptionID := [] } p :=
    conveys_octets hid answers_pure
  exact decode_structBytes (h1.bind (h2.bind (h3.bind h4))) rfl

theorem unmarshalSigma3_marshal {m : Sigma3} (hne : m.encrypted3 ≠ []) (henc : m.encrypted3.length < 2 ^ 64) :
    unmarshalSigma3 m.marshal = .ok m := by
  have h : Conveys (fields Sigma3.field fun s => if s.encrypted3.isEmpty then .error .missingEncrypted3 else .ok s)
      (·.putOctets (contextTag 1) m.encrypted3) {} m := conveys_octets henc answers_pure
  exact decode_structBytes h (if_neg (by rwa [List.isEmpty_iff]))

theorem unmarshalTBE3_marshal {p : TBE3Plaintext} (hnoc : p.initiatorNOC.length < 2 ^ 64)
    (hicac : p.initiatorICAC.length < 2 ^ 64) (hsig : p.signature.length < 2 ^ 64) :
    unmarshalTBE3 (marshalTBE3 p) = .ok p := by
  let l : Loop Element CodecError TBE3Plaintext TBE3Plaintext := fields TBE3Plaintext.field .ok
  have h1 : Conveys l (·.putOctets (contextTag 1) p.initiatorNOC) {} { initiatorNOC := p.initiatorNOC } :=
    conveys_octets hnoc answers_pure
  have h2 : Conveys l (putIf (!p.initiatorICAC.isEmpty) (·.putOctets (contextTag 2) p.initiatorICAC))
      { initiatorNOC := p.initiatorNOC } { initiatorNOC := p.initiatorNOC, initiatorICAC := p.initiatorICAC } :=
    conveys_optOctets (fun b => ({ initiatorNOC := p.initiatorNOC, initiatorICAC := b } : TBE3Plaintext)) hicac
      fun _ => answers_pure
  have h3 : Conveys l (·.putOctets (contextTag 3) p.signature)
      { initiatorNOC := p.initiatorNOC, initiatorICAC := p.initiatorICAC } p := conveys_octets hsig answers_pure
  exact decode_structBytes (h1.bind (h2.bind h3)) rfl

theorem unmarshalSigma2Resume_marshal {m : Sigma2Resume} (hid : m.resumptionID.length = 16)
    (hmic : m.sigma2ResumeMIC.length = 16) :
    unmarshalSigma2Resume (marshalSigma2Resume m) =
      .ok { m with sessionParams := (statedParameters m.sessionParams).map sentParameters } := by
  let m1 : Sigma2Resume := { resumptionID := m.resumptionID, sigma2ResumeMIC := [], responderSessionID := 0 }
  let m2 : Sigma2Resume := { m1 with sigma2ResumeMIC := m.sigma2ResumeMIC }
  let m3 : Sigma2Resume := { m2 with responderSessionID := m.responderSessionID }
  let l : Loop Element CodecError Sigma2ResumeSeen Sigma2Resume := fields Sigma2ResumeSeen.field fun s =>
    if s.seen ≠ 7 then .error (.sigma2ResumeMask s.seen) else .ok s.msg
  have h1 : Conveys l (·.putOctets (contextTag 1) m.resumptionID) {} { msg := m1, seen := 0 ||| 1 } :=
    conveys_octets (by rw [hid]; decide) (answers_setOctets hid _ _)
  have h2 : Conveys l (·.putOctets (contextTag 2) m.sigma2ResumeMIC) { msg := m1, seen := 0 ||| 1 }
      { msg := m2, seen := 0 ||| 1 ||| 2 } :=
    conveys_octets (by rw [hmic]; decide) (answers_setOctets hmic _ fun v =>
      ({ msg := { m1 with sigma2ResumeMIC := v.toList }, seen := 0 ||| 1 ||| 2 } : Sigma2ResumeSeen))
  have h3 : Conveys l (·.putUint16 (contextTag 3) m.responderSessionID) { msg := m2, seen := 0 ||| 1 ||| 2 }
      { msg := m3, seen := 0 ||| 1 ||| 2 ||| 4 } :=
    conveys_uint16 (answers_number (by decide) m.responderSessionID fun v =>
      ({ msg := { m2 with responderSessionID := v }, seen := 0 ||| 1 ||| 2 ||| 4 } : Sigma2ResumeSeen))
  have h4 : Conveys l (putParams 4 m.sessionParams) { msg := m3, seen := 0 ||| 1 ||| 2 ||| 4 }
      { msg := { m3 with sessionParams := (statedParameters m.sessionParams).map sentParameters }
        seen := 0 ||| 1 ||| 2 ||| 4 } :=
    conveys_putParams (g := fun p =>
      ({ msg := { m3 with sessionParams := p }, seen := 0 ||| 1 ||| 2 ||| 4 } : Sigma2ResumeSeen)) (fun _ => rfl) _
  have hmask : (0 ||| 1 ||| 2 ||| 4 : BitVec 3) = 7 := by decide
  exact decode_structBytes (h1.bind (h2.bind (h3.bind h4))) (if_neg (not_not.2 hmask))

end GF.Proof.Sigma
