import GoFabric.Proof.Mattercert.Extensions
import GoFabric.Proof.Mattercert.Verify

/-!
# What a signature binds

Two certificates with the same signed form have the same names and the same key.
Their extensions are the same ones in the same order. A future extension is signed
as it is: it may be one that the other certificate has under a tag of its own, and
then the two certificates mean the same just when that tag is there as well.
-/

namespace GF.Proof.Mattercert

open GF.Der GF.Impl.Mattercert GF.Spec.Certificate List

variable {onCurve : List Byte → Bool} {c c' : Certificate} {exts exts' : List (List Byte)} {der publicKey : List Byte}

/-! ## The parts of the signed form -/

/-- What the signed form is made of. -/
structure Parts (c : Certificate) (issuer notBefore notAfter subject : List Byte) (exts : List (List Byte)) : Prop where
  issuer : ∃ rdns, buildDN c.issuer = some rdns ∧ wrapDN rdns = .ok issuer
  subject : ∃ rdns, buildDN c.subject = some rdns ∧ wrapDN rdns = .ok subject
  extensions : buildExtensions c.extensions = .ok exts
  notBefore : time (matterEpochToTime c.notBefore) = some notBefore
  notAfter : time (matterEpochToTime c.notAfter) = some notAfter

theorem buildTBS_eq (h : buildTBS onCurve c = pure der) :
    ∃ issuer notBefore notAfter subject exts, Parts c issuer notBefore notAfter subject exts ∧
      der = marshalTBS (leNat c.serialNumber.reverse) issuer notBefore notAfter subject c.publicKey exts := by
  obtain ⟨rdns, hrdns, h⟩ := exceptT_bind_eq_pure.1 h
  obtain ⟨issuer, hissuer, h⟩ := exceptT_bind_eq_pure.1 h
  obtain ⟨rdns', hrdns', h⟩ := exceptT_bind_eq_pure.1 h
  obtain ⟨subject, hsubject, h⟩ := exceptT_bind_eq_pure.1 h
  obtain ⟨-, h⟩ := ite_throw_eq_pure.1 h
  obtain ⟨exts, hexts, h⟩ := exceptT_bind_eq_pure.1 h
  split at h
  · rename_i notBefore notAfter hbefore hafter
    refine ⟨issuer, notBefore, notAfter, subject, exts, ?_, (Except.ok.inj (Option.some.inj h)).symm⟩
    exact {
      issuer := ⟨rdns, exceptT_lift_eq_pure.1 hrdns, check_eq_pure.1 hissuer⟩
      subject := ⟨rdns', exceptT_lift_eq_pure.1 hrdns', check_eq_pure.1 hsubject⟩
      extensions := check_eq_pure.1 hexts
      notBefore := hbefore
      notAfter := hafter }
  · cases h

theorem validateMandatory_lengths (h : validateMandatory c = .ok ()) :
    c.serialNumber.length ≤ 21 ∧ c.publicKey.length = 65 := by
  simp only [validateMandatory, ite_error_eq_ok] at h
  obtain ⟨hserial, -, -, -, hkey, -⟩ := h
  rw [not_or] at hserial
  exact ⟨Nat.le_of_not_lt hserial.2, of_not_not hkey⟩

theorem whole_serial (h : c.serialNumber.length ≤ 21) : Whole (integer (leNat c.serialNumber.reverse)) := by
  refine whole_integer (Nat.lt_of_lt_of_le (leNat_lt _) (Nat.pow_le_pow_right (by decide) ?_))
  rw [length_reverse]
  omega

theorem whole_validity {before after : Int} {notBefore notAfter : List Byte} (hb : time before = some notBefore)
    (ha : time after = some notAfter) : Whole (sequence [notBefore, notAfter]) := by
  obtain ⟨i, b, rfl, hlen⟩ := time_eq hb
  obtain ⟨j, a, rfl, hlen'⟩ := time_eq ha
  refine whole_element (by decide) ?_
  simp only [flatten_cons, flatten_nil, append_nil, length_append]
  rw [length_element (by omega), length_element (by omega)]
  omega

def subjectPublicKeyInfo (publicKey : List Byte) : List Byte :=
  sequence [sequence [objectIdentifier oidEcPublicKey, objectIdentifier oidPrime256v1], bitString 0 publicKey]

theorem whole_subjectPublicKeyInfo (h : publicKey.length = 65) : Whole (subjectPublicKeyInfo publicKey) := by
  refine whole_element (by decide) ?_
  have halgorithm : (Der.sequence [objectIdentifier oidEcPublicKey, objectIdentifier oidPrime256v1]).length = 21 := by
    decide +kernel
  have hkey : (bitString 0 publicKey).length = 68 := by
    rw [bitString, length_element (by rw [length_cons]; omega), length_cons, h]
  simp only [flatten_cons, flatten_nil, append_nil, length_append]
  omega

theorem subjectPublicKeyInfo_inj {publicKey' : List Byte}
    (h : subjectPublicKeyInfo publicKey = subjectPublicKeyInfo publicKey') : publicKey = publicKey' := by
  have hseq := sequence_inj h
  simp only [flatten_cons, flatten_nil, append_nil] at hseq
  exact (List.cons.inj (element_inj (append_cancel_left hseq)).2).2

theorem extensions_inj (h : ∀ e ∈ exts, Whole e) (h' : ∀ e ∈ exts', Whole e)
    (heq : (if exts = [] then [] else element 0xA3 (sequence exts)) =
      if exts' = [] then [] else element 0xA3 (sequence exts')) : exts = exts' := by
  by_cases hnil : exts = []
  · rw [if_pos hnil] at heq
    by_cases hnil' : exts' = []
    · rw [hnil, hnil']
    · rw [if_neg hnil'] at heq
      exact absurd heq.symm (element_ne_nil _ _)
  · rw [if_neg hnil] at heq
    by_cases hnil' : exts' = []
    · rw [if_pos hnil'] at heq
      exact absurd heq (element_ne_nil _ _)
    · rw [if_neg hnil'] at heq
      exact flatten_inj h h' (sequence_inj (element_inj heq).2)

theorem marshalTBS_inj {serial serial' : Nat}
    {issuer issuer' before before' after after' subject subject' : List Byte} {key key' : List Byte}
    (hserial : Whole (integer serial)) (hserial' : Whole (integer serial')) (hissuer : Whole issuer)
    (hissuer' : Whole issuer') (hvalidity : Whole (sequence [before, after]))
    (hvalidity' : Whole (sequence [before', after'])) (hsubject : Whole subject) (hsubject' : Whole subject')
    (hkey : key.length = 65) (hkey' : key'.length = 65)
    (h : marshalTBS serial issuer before after subject key exts =
      marshalTBS serial' issuer' before' after' subject' key' exts') :
    issuer = issuer' ∧ subject = subject' ∧ key = key' ∧
      (if exts = [] then [] else element 0xA3 (sequence exts)) =
        if exts' = [] then [] else element 0xA3 (sequence exts') := by
  have h := sequence_inj h
  simp only [flatten_cons, flatten_nil, append_nil] at h
  have h := append_cancel_left h
  obtain ⟨-, h⟩ := hserial.append_inj hserial' h
  have h := append_cancel_left h
  obtain ⟨hissuer, h⟩ := hissuer.append_inj hissuer' h
  obtain ⟨-, h⟩ := hvalidity.append_inj hvalidity' h
  obtain ⟨hsubject, h⟩ := hsubject.append_inj hsubject' h
  obtain ⟨hinfo, h⟩ := (whole_subjectPublicKeyInfo hkey).append_inj (whole_subjectPublicKeyInfo hkey') h
  exact ⟨hissuer, hsubject, subjectPublicKeyInfo_inj hinfo, h⟩

/-! ## The meaning -/

theorem whole_of_forall {e : CertificateExtensions} (h : Written e exts) : ∀ raw ∈ exts, Whole raw := by
  intro raw hraw
  obtain ⟨i, hi, rfl⟩ := mem_iff_getElem.1 hraw
  exact ((List.forall₂_iff_get.1 h).2 i (h.length_eq.symm ▸ hi) hi).1

theorem tbsToDER_parts (hfields : Fields c) (h : tbsToDER onCurve c = pure der) :
    buildTBS onCurve c = pure der := by
  rw [tbsToDER, if_neg (not_not.2 hfields.tbsDER)] at h
  exact h

/-- Two certificates that are decoded and have the same signed form have the same
extensions, in the same order. They mean the same just when each extension that one
of them has as a future extension, and the other under a tag of its own, is there
under that tag as well. -/
theorem same_meaning_iff_restated (onCurve : List Byte → Bool) (raw raw' : List Byte) (c c' : Certificate)
    (der : List Byte) (h : decode raw = .ok c) (h' : decode raw' = .ok c') (hder : tbsToDER onCurve c = pure der)
    (hder' : tbsToDER onCurve c' = pure der) :
    ∃ exts, buildExtensions c.extensions = .ok exts ∧ buildExtensions c'.extensions = .ok exts ∧
      (SameMeaning c c' ↔
        Restated exts c.extensions.order c'.extensions.order ∧ Restated exts c'.extensions.order c.extensions.order) := by
  obtain ⟨hfields, hvalid⟩ := decode_ok h
  obtain ⟨hfields', hvalid'⟩ := decode_ok h'
  obtain ⟨hserial, hkey⟩ := validateMandatory_lengths hvalid
  obtain ⟨hserial', hkey'⟩ := validateMandatory_lengths hvalid'
  obtain ⟨issuer, before, after, subject, exts, hparts, rfl⟩ := buildTBS_eq (tbsToDER_parts hfields hder)
  obtain ⟨issuer', before', after', subject', exts', hparts', heq⟩ := buildTBS_eq (tbsToDER_parts hfields' hder')
  obtain ⟨rdns, hdn, hissuer⟩ := hparts.issuer
  obtain ⟨rdns', hdn', hissuer'⟩ := hparts'.issuer
  obtain ⟨srdns, hsdn, hsubject⟩ := hparts.subject
  obtain ⟨srdns', hsdn', hsubject'⟩ := hparts'.subject
  have hwritten := hfields.extensions.written hparts.extensions
  have hwritten' := hfields'.extensions.written hparts'.extensions
  obtain ⟨rfl, rfl, hpublic, hexts⟩ := marshalTBS_inj (whole_serial hserial) (whole_serial hserial')
    (wrapDN_eq hissuer).2 (wrapDN_eq hissuer').2 (whole_validity hparts.notBefore hparts.notAfter)
    (whole_validity hparts'.notBefore hparts'.notAfter) (wrapDN_eq hsubject).2 (wrapDN_eq hsubject').2 hkey hkey' heq
  have hsame := extensions_inj (whole_of_forall hwritten) (whole_of_forall hwritten') hexts
  subst hsame
  refine ⟨exts, hparts.extensions, hparts'.extensions, ?_⟩
  rw [← sameExtensions_iff hfields.extensions hfields'.extensions hwritten hwritten']
  constructor
  · exact fun hmeaning => hmeaning.extensions
  intro hextensions
  exact {
    subject := sameName_of_signed hfields.subject hfields'.subject hsdn hsdn' hsubject hsubject'
    issuer := sameName_of_signed hfields.issuer hfields'.issuer hdn hdn' hissuer hissuer'
    publicKey := hpublic
    extensions := hextensions }

/-! ## A certificate that is restated -/

/-- The basic constraints of an authority, as they are signed. -/
def authorityExtension : List Byte :=
  sequence [objectIdentifier oidExtBasicConstraints, boolean true, octetString (sequence [boolean true])]

/-- The extensions of a NOC, after the basic constraints. -/
def exampleRest : List (List Byte) :=
  tlvUint 2 1 :: tlvContainer 0x36 3 [[0x04, 1]] :: exampleKeyIDs 1 2

/-- A certificate for a node that is also that of an authority. -/
def authorityNOC : List Byte :=
  exampleCertificate [tlvUint 19 7] [tlvUint 17 3, tlvUint 21 5] (tlvContainer 0x35 1 [[0x29, 1]] :: exampleRest)

/-- The same one, with its basic constraints as a future extension. -/
def disguisedNOC : List Byte :=
  exampleCertificate [tlvUint 19 7] [tlvUint 17 3, tlvUint 21 5] (tlvOctets 6 authorityExtension :: exampleRest)

/-- A NOC in which the node id takes two bytes. -/
def wideNOC : List Byte :=
  exampleCertificate [tlvUint 19 7] [[0x25, 17, 3, 0], tlvUint 21 5, [0x26, 22, 1, 0, 2, 0]]
    (exampleUsage false 1 ++ [tlvContainer 0x36 3 [[0x04, 1]]] ++ exampleKeyIDs 1 2)

/-- The two are decoded, and what is decoded is signed alike and has the property. -/
def signedAlike (raw raw' : List Byte) (p : Certificate → Certificate → Bool) : Bool :=
  match decode raw, decode raw' with
  | .ok c, .ok c' =>
    match (tbsToDER onP256 c).run, (tbsToDER onP256 c').run with
    | some (.ok der), some (.ok der') => der == der' && p c c'
    | _, _ => false
  | _, _ => false

theorem signedAlike_iff {raw raw' : List Byte} {p : Certificate → Certificate → Bool}
    (h : signedAlike raw raw' p = true) :
    ∃ c c' der, decode raw = .ok c ∧ decode raw' = .ok c' ∧ tbsToDER onP256 c = pure der ∧
      tbsToDER onP256 c' = pure der ∧ p c c' = true := by
  unfold signedAlike at h
  split at h
  · rename_i c c' hc hc'
    split at h
    · rename_i der der' hder hder'
      rw [Bool.and_eq_true, beq_iff_eq] at h
      obtain ⟨rfl, hp⟩ := h
      exact ⟨c, c', der, hc, hc', eq_pure_of_run hder, eq_pure_of_run hder', hp⟩
    · cases h
  · cases h

theorem same_meaning_wide :
    ∃ c c' der, decode exampleNOC = .ok c ∧ decode wideNOC = .ok c' ∧ tbsToDER onP256 c = pure der ∧
      tbsToDER onP256 c' = pure der ∧ c.raw ≠ c'.raw ∧ SameMeaning c c' := by
  have hrun : signedAlike exampleNOC wideNOC fun c c' =>
      c.raw != c'.raw && !c.extensions.order.contains 6 && !c'.extensions.order.contains 6 := by
    decide +kernel
  obtain ⟨c, c', der, hc, hc', hder, hder', hp⟩ := signedAlike_iff hrun
  obtain ⟨exts, -, -, hiff⟩ := same_meaning_iff_restated onP256 _ _ c c' der hc hc' hder hder'
  simp only [Bool.and_eq_true, bne_iff_ne, Bool.not_eq_true'] at hp
  obtain ⟨⟨hraw, hfuture⟩, hfuture'⟩ := hp
  have hnone {order order' : List (BitVec 8)} (h : order.contains 6 = false) : Restated exts order order' := by
    intro i tag hi
    have hmem : order.contains 6 = true := contains_iff_mem.2 (mem_of_getElem? hi)
    rw [h] at hmem
    cases hmem
  exact ⟨c, c', der, hc, hc', hder, hder', hraw, hiff.2 ⟨hnone hfuture, hnone hfuture'⟩⟩

/-- A signature does not tell whether a node's certificate is that of an authority:
as a future extension, the basic constraints pass the check that they fail under
their own tag. -/
theorem disguised_authority :
    ∃ c c' der, decode authorityNOC = .ok c ∧ decode disguisedNOC = .ok c' ∧ tbsToDER onP256 c = pure der ∧
      tbsToDER onP256 c' = pure der ∧ c.extensions.basicConstraintsIsCA = true ∧
      c'.extensions.hasBasicConstraints = false ∧ checkNOCShape c ≠ .ok () ∧ checkNOCShape c' = .ok () ∧
      ¬SameMeaning c c' := by
  have hrun : signedAlike authorityNOC disguisedNOC fun c c' =>
      c.extensions.basicConstraintsIsCA && !c'.extensions.hasBasicConstraints && c.extensions.hasBasicConstraints &&
        decide (checkNOCShape c ≠ .ok ()) && decide (checkNOCShape c' = .ok ()) := by
    decide +kernel
  obtain ⟨c, c', der, hc, hc', hder, hder', hp⟩ := signedAlike_iff hrun
  simp only [Bool.and_eq_true, Bool.not_eq_true', decide_eq_true_eq] at hp
  obtain ⟨⟨⟨⟨hca, hnone⟩, hsome⟩, hshape⟩, hshape'⟩ := hp
  refine ⟨c, c', der, hc, hc', hder, hder', hca, hnone, hshape, hshape', fun hsame => ?_⟩
  rw [hsame.extensions.constraints, hnone] at hsome
  cases hsome

end GF.Proof.Mattercert
