import GoFabric.Spec.Certificate

/-!
# The verifier is sound

A NOC that is accepted names a node of a fabric, the root vouches for it, and no
certificate of the chain states another fabric.
-/

namespace GF.Proof.Mattercert

open GF.Impl.Mattercert GF.Spec.Certificate

variable {Key ε : Type} {crypto : Crypto Key} {α : Type} {a : α} {c noc : Certificate} {key : Key}

/-! ## Computations that pass -/

theorem eq_pure_of_run {x : ExceptT ε Option α} (h : x.run = some (.ok a)) : x = pure a := h

theorem around_eq_pure {what : String} {x : ExceptT CertError Option α} : around what x = pure a ↔ x = pure a := by
  match x with
  | none => exact ⟨nofun, nofun⟩
  | some (.error e) => exact ⟨nofun, nofun⟩
  | some (.ok b) => exact Iff.rfl

theorem check_eq_pure {what : String} {r : Except CertError α} : check what r = pure a ↔ r = .ok a := by
  rw [check, around_eq_pure]
  constructor
  · intro h
    exact Option.some.inj h
  · rintro rfl
    rfl

theorem ite_throw_eq_pure {c : Prop} [Decidable c] {e : ε} {x : ExceptT ε Option α} :
    (if c then throw e else x) = pure a ↔ ¬c ∧ x = pure a := by
  by_cases hc : c
  · simp only [hc, not_true_eq_false, false_and, iff_false]
    exact nofun
  · simp [hc]

/-! ## The checks -/

theorem publicKeyECDSA_eq_ok (h : c.publicKeyECDSA crypto = .ok key) :
    crypto.parseUncompressedPublicKey c.publicKey = some key := by
  simp only [Certificate.publicKeyECDSA, ite_error_eq_ok] at h
  obtain ⟨-, -, -, h⟩ := h
  split at h
  · cases h
    assumption
  · cases h

theorem signedBy_of_verifySignature (h : verifySignature crypto c key = pure ()) : SignedBy crypto c key := by
  obtain ⟨-, h⟩ := ite_throw_eq_pure.1 h
  obtain ⟨der, hder, h⟩ := exceptT_bind_eq_pure.1 h
  obtain ⟨hverify, -⟩ := ite_throw_eq_pure.1 h
  rw [Bool.not_eq_true', Bool.not_eq_false] at hverify
  exact ⟨der, around_eq_pure.1 hder, hverify⟩

theorem checkCATs_eq_ok {seen : List (BitVec 16)} {cats : List (BitVec 32)} (h : checkCATs seen cats = .ok ()) :
    (∀ cat ∈ cats, cat.toNat % 2 ^ 16 ≠ 0) ∧ (cats.map fun cat => cat.toNat / 2 ^ 16).Nodup ∧
      ∀ cat ∈ cats, ∀ id ∈ seen, id.toNat ≠ cat.toNat / 2 ^ 16 := by
  induction cats generalizing seen with
  | nil => exact ⟨nofun, .nil, nofun⟩
  | cons cat cats ih =>
    obtain ⟨hversion, h⟩ := ite_error_eq_ok.1 h
    obtain ⟨hnew, h⟩ := ite_error_eq_ok.1 h
    obtain ⟨hversions, hnodup, hseen⟩ := ih h
    have hid : ((cat >>> 16).setWidth 16).toNat = cat.toNat / 2 ^ 16 := by
      rw [BitVec.toNat_setWidth, BitVec.toNat_ushiftRight]
      omega
    refine ⟨List.forall_mem_cons.2 ⟨?_, hversions⟩, List.nodup_cons.2 ⟨?_, hnodup⟩, ?_⟩
    · intro h0
      refine hversion (BitVec.eq_of_toNat_eq ?_)
      rw [BitVec.toNat_setWidth, h0]
      rfl
    · intro hmem
      obtain ⟨cat', hcat', he⟩ := List.mem_map.1 hmem
      exact hseen cat' hcat' _ List.mem_cons_self (hid.trans he.symm)
    intro cat' hcat' id hmem he
    obtain rfl | hcat' := List.mem_cons.1 hcat'
    · refine hnew (List.contains_iff_mem.2 ?_)
      rwa [BitVec.eq_of_toNat_eq (hid.trans he.symm)]
    · exact hseen cat' hcat' id (List.mem_cons_of_mem _ hmem) he

theorem operational_of_checks (hnoc : c.isNOC = true) (h : checkNOCShape c = .ok ()) : Operational c.subject := by
  simp only [checkNOCShape, ite_error_eq_ok, except_bind_eq_ok] at h
  obtain ⟨hca, hnode, hfabric, htags, ⟨⟩, hcats, -⟩ := h
  obtain ⟨hversions, hidentifiers, -⟩ := checkCATs_eq_ok hcats
  rw [Certificate.isNOC, Bool.and_eq_true] at hnoc
  rw [not_or, Bool.not_eq_true, Bool.not_eq_true] at hca
  rw [not_or] at hnode
  exact {
    node := hnoc.1
    node_range := by
      obtain ⟨h0, hmax⟩ := hnode
      constructor
      · refine Nat.pos_of_ne_zero fun hz => h0 (BitVec.eq_of_toNat_eq hz)
      · exact Nat.le_of_not_lt fun hlt => hmax hlt
    fabric := hnoc.2
    fabric_ne_zero := hfabric
    not_root := hca.2
    not_intermediate := hca.1
    tags := Nat.le_of_not_lt htags
    tag_versions := hversions
    tag_identifiers := hidentifiers }

theorem checkICACShape_eq_ok {icac : Certificate} (h : checkICACShape icac noc = .ok ()) :
    (icac.extensions.hasBasicConstraints = true ∧ icac.extensions.basicConstraintsIsCA = true) ∧
      (noc.subject.hasFabricID = true → SameFabric icac noc.subject) := by
  simp only [checkICACShape, ite_error_eq_ok, except_bind_eq_ok] at h
  obtain ⟨⟨⟩, -, -, -, ⟨⟩, hfabric, hca, -⟩ := h
  rw [not_or, Bool.not_eq_true', Bool.not_eq_false, Bool.not_eq_true', Bool.not_eq_false] at hca
  refine ⟨hca, ?_⟩
  intro hnoc hicac
  rw [checkICACFabric, if_pos hicac] at hfabric
  obtain ⟨-, h⟩ := ite_error_eq_ok.1 hfabric
  obtain ⟨hne, -⟩ := ite_error_eq_ok.1 h
  by_contra hdiff
  exact hne ⟨hnoc, hdiff⟩

/-! ## The chain -/

/-- The issuer is the root, or the intermediate authority that the NOC names. -/
theorem issuerWithICAC_eq_pure {v : Verifier Key} {icac : List Byte} (hnoc : noc.subject.hasFabricID = true)
    (h : issuerWithICAC crypto v noc icac = pure key) :
    ∃ c, decode icac = .ok c ∧ SameFabric c noc.subject ∧ (key = v.root ∨ Intermediate crypto v.root noc c key) := by
  obtain ⟨c, hdecode, h⟩ := exceptT_bind_eq_pure.1 h
  obtain ⟨hica, h⟩ := ite_throw_eq_pure.1 h
  obtain ⟨⟨⟩, -, h⟩ := exceptT_bind_eq_pure.1 h
  obtain ⟨⟨⟩, hshape, h⟩ := exceptT_bind_eq_pure.1 h
  obtain ⟨-, h⟩ := ite_throw_eq_pure.1 h
  obtain ⟨⟨⟩, hsigned, h⟩ := exceptT_bind_eq_pure.1 h
  obtain ⟨icacPub, hkey, h⟩ := exceptT_bind_eq_pure.1 h
  obtain ⟨hca, hfabric⟩ := checkICACShape_eq_ok (check_eq_pure.1 hshape)
  refine ⟨c, check_eq_pure.1 hdecode, hfabric hnoc, ?_⟩
  rw [Bool.not_eq_true', Bool.not_eq_false, Certificate.isICA, Bool.and_eq_true, Bool.not_eq_true'] at hica
  unfold namedIssuer at h
  by_cases hnamed : noc.extensions.authorityKeyID = c.extensions.subjectKeyID
  · rw [if_pos hnamed] at h
    obtain ⟨-, h⟩ := ite_throw_eq_pure.1 h
    cases h
    exact .inr {
      own_key := publicKeyECDSA_eq_ok (check_eq_pure.1 hkey)
      authority := hca
      no_node := hica.2
      signed := signedBy_of_verifySignature (around_eq_pure.1 hsigned)
      named := hnamed }
  · rw [if_neg hnamed] at h
    by_cases hroot : noc.extensions.authorityKeyID =
        if v.hasRootSKID then v.rootSKID else c.extensions.authorityKeyID
    · rw [if_pos hroot] at h
      cases h
      exact .inl rfl
    · rw [if_neg hroot] at h
      cases h

theorem hasRootFabricID_of_certificate {root : Certificate} {v : Verifier Key}
    (h : newVerifierFromCertificate crypto root = pure v) :
    v.hasRootFabricID = root.subject.hasFabricID ∧ v.rootFabricID = root.subject.matterFabricID := by
  obtain ⟨-, h⟩ := ite_throw_eq_pure.1 h
  obtain ⟨-, h⟩ := ite_throw_eq_pure.1 h
  obtain ⟨v', -, h⟩ := exceptT_bind_eq_pure.1 h
  cases h
  exact ⟨rfl, rfl⟩

/-- A key that is returned is that of a NOC that names a node, that the root
vouches for, and whose fabric is that of every certificate that states one. -/
theorem verifier_sound (crypto : Crypto Key) (v : Verifier Key) (noc icac : List Byte) (key : Key)
    (h : verifyAndExtractPubKey crypto v noc icac = pure key) :
    ∃ c, decode noc = .ok c ∧ crypto.parseUncompressedPublicKey c.publicKey = some key ∧ Operational c.subject ∧
      Vouched crypto v.root c (fun i => icac ≠ [] ∧ decode icac = .ok i) ∧
      (v.hasRootFabricID = true → v.rootFabricID = c.subject.matterFabricID) ∧
      (∀ root, newVerifierFromCertificate crypto root = pure v → SameFabric root c.subject) ∧
      ∀ i, icac ≠ [] → decode icac = .ok i → SameFabric i c.subject := by
  obtain ⟨-, h⟩ := ite_throw_eq_pure.1 h
  obtain ⟨-, h⟩ := ite_throw_eq_pure.1 h
  obtain ⟨c, hdecode, h⟩ := exceptT_bind_eq_pure.1 h
  obtain ⟨hnoc, h⟩ := ite_throw_eq_pure.1 h
  obtain ⟨⟨⟩, -, h⟩ := exceptT_bind_eq_pure.1 h
  obtain ⟨⟨⟩, hshape, h⟩ := exceptT_bind_eq_pure.1 h
  obtain ⟨hroot, h⟩ := ite_throw_eq_pure.1 h
  obtain ⟨issuer, hissuer, h⟩ := exceptT_bind_eq_pure.1 h
  obtain ⟨⟨⟩, hsigned, hkey⟩ := exceptT_bind_eq_pure.1 h
  rw [Bool.not_eq_true', Bool.not_eq_false] at hnoc
  have hop := operational_of_checks hnoc (check_eq_pure.1 hshape)
  have hsigned := signedBy_of_verifySignature (around_eq_pure.1 hsigned)
  have hfabric : v.hasRootFabricID = true → v.rootFabricID = c.subject.matterFabricID := by
    intro hhas
    by_contra hne
    exact hroot ⟨hhas, hne⟩
  refine ⟨c, check_eq_pure.1 hdecode, publicKeyECDSA_eq_ok (Option.some.inj hkey), hop, ?_, hfabric, ?_, ?_⟩
  · unfold issuerOf at hissuer
    split_ifs at hissuer with hpresented
    · obtain ⟨-, hissuer⟩ := ite_throw_eq_pure.1 hissuer
      cases hissuer
      exact .inl hsigned
    · obtain ⟨i, hi, -, rfl | hinter⟩ := issuerWithICAC_eq_pure hop.fabric hissuer
      · exact .inl hsigned
      · exact .inr ⟨i, issuer, ⟨hpresented, hi⟩, hinter, hsigned⟩
  · intro root hv hstates
    obtain ⟨hhas, hid⟩ := hasRootFabricID_of_certificate hv
    exact hid.symm.trans (hfabric (hhas.trans hstates))
  intro i hpresented hi
  rw [issuerOf, if_neg hpresented] at hissuer
  obtain ⟨i', hi', hsame, -⟩ := issuerWithICAC_eq_pure hop.fabric hissuer
  cases hi.symm.trans hi'
  exact hsame

/-! ## A chain -/

/-- Members of a TLV certificate, with a context tag. -/
def tlvOctets (tag : Byte) (octets : List Byte) : List Byte := 0x30 :: tag :: BitVec.ofNat 8 octets.length :: octets

def tlvUint (tag v : Byte) : List Byte := [0x24, tag, v]

def tlvContainer (control tag : Byte) (members : List (List Byte)) : List Byte :=
  control :: tag :: members.flatten ++ [0x18]

/-- The base point of P-256. -/
def basePoint : List Byte :=
  4 :: beBytes 32 0x6B17D1F2E12C4247F8BCE6E563A440F277037D812DEB33A0F4A13945D898C296 ++
    beBytes 32 0x4FE342E2FE1A7F9B8EE7EB4A7C0F9E162BCE33576B315ECECBB6406837BF51F5

/-- `elliptic.Unmarshal` takes the point for one of P-256. -/
def onP256 (publicKey : List Byte) : Bool :=
  let p := 2 ^ 256 - 2 ^ 224 + 2 ^ 192 + 2 ^ 96 - 1
  let x := leNat (publicKey.tail.take 32).reverse
  let y := leNat (publicKey.drop 33).reverse
  publicKey.length = 65 && publicKey.head? = some 4 && x < p && y < p &&
    (y ^ 2 + 3 * x) % p = (x ^ 3 + 0x5AC635D8AA3A93E7B3EBBD55769886BC651D06B0CC53B0F63BCE3C3E27D2604B) % p

/-- A certificate with these names and extensions. -/
def exampleCertificate (issuer subject extensions : List (List Byte)) : List Byte :=
  0x15 :: [tlvOctets 1 [1], tlvUint 2 1, tlvContainer 0x37 3 issuer, tlvUint 4 1, tlvUint 5 0,
    tlvContainer 0x37 6 subject, tlvUint 7 1, tlvUint 8 1, tlvOctets 9 basePoint,
    tlvContainer 0x37 10 extensions, tlvOctets 11 (List.replicate 64 2)].flatten ++ [0x18]

/-- Basic constraints, and the key usage. -/
def exampleUsage (ca : Bool) (usage : Byte) : List (List Byte) :=
  [tlvContainer 0x35 1 [[if ca then 0x29 else 0x28, 1]], tlvUint 2 usage]

def exampleKeyIDs (subject authority : Byte) : List (List Byte) :=
  [tlvOctets 4 (List.replicate 20 subject), tlvOctets 5 (List.replicate 20 authority)]

/-- A NOC of node 3 in fabric 5, with a CASE authenticated tag. -/
def exampleNOC : List Byte :=
  exampleCertificate [tlvUint 19 7] [tlvUint 17 3, tlvUint 21 5, [0x26, 22, 1, 0, 2, 0]]
    (exampleUsage false 1 ++ [tlvContainer 0x36 3 [[0x04, 1]]] ++ exampleKeyIDs 1 2)

/-- Its intermediate authority. -/
def exampleICAC : List Byte :=
  exampleCertificate [tlvUint 20 9] [tlvUint 19 7, tlvUint 21 5] (exampleUsage true 0x60 ++ exampleKeyIDs 2 3)

/-- Every signature is good, and a key is its octets. -/
def exampleCrypto : Crypto (List Byte) where
  onCurve := onP256
  parseUncompressedPublicKey := some
  sha256 := id
  verify _ _ _ _ := true

def exampleVerifier : Verifier (List Byte) := { root := [4], rootFabricID := 5, hasRootFabricID := true }

theorem verifier_sound_chain :
    ∃ c, decode exampleNOC = .ok c ∧ Operational c.subject ∧
      Vouched exampleCrypto [4] c (fun i => exampleICAC ≠ [] ∧ decode exampleICAC = .ok i) ∧
      ∀ i, exampleICAC ≠ [] → decode exampleICAC = .ok i → SameFabric i c.subject := by
  have hrun : (verifyAndExtractPubKey exampleCrypto exampleVerifier exampleNOC exampleICAC).run.isSome = true ∧
      ∀ r ∈ (verifyAndExtractPubKey exampleCrypto exampleVerifier exampleNOC exampleICAC).run, r.isOk = true := by
    decide +kernel
  obtain ⟨r, hr⟩ := Option.isSome_iff_exists.1 hrun.1
  cases r with
  | error e => cases hrun.2 _ hr
  | ok key =>
    obtain ⟨c, hc, -, hop, hvouched, -, -, hfabric⟩ :=
      verifier_sound exampleCrypto exampleVerifier exampleNOC exampleICAC key (eq_pure_of_run hr)
    exact ⟨c, hc, hop, hvouched, hfabric⟩

end GF.Proof.Mattercert
