import GoFabric.Impl.Mattercert.Verify

/-!
# What a chain of certificates vouches for

A NOC names a node of a fabric (`Operational`), and the root vouches for it: its
own signature is on it, or that of an intermediate authority which the root has
signed and which the NOC names (`Vouched`). Two certificates mean the same to a
verifier if they agree on all that it looks at (`SameMeaning`).
-/

namespace GF.Spec.Certificate

open GF.Impl.Mattercert

variable {Key : Type}

/-! ## The chain -/

/-- The subject of a NOC. -/
structure Operational (subject : DistinguishedName) : Prop where
  node : subject.hasNodeID = true
  node_range : 0 < subject.matterNodeID.toNat ∧ subject.matterNodeID.toNat ≤ 0xFFFFFFEFFFFFFFFF
  fabric : subject.hasFabricID = true
  fabric_ne_zero : subject.matterFabricID ≠ 0
  not_root : subject.hasRCACID = false
  not_intermediate : subject.hasICACID = false
  tags : subject.caseAuthTags.length ≤ 3
  tag_versions : ∀ cat ∈ subject.caseAuthTags, cat.toNat % 2 ^ 16 ≠ 0
  tag_identifiers : (subject.caseAuthTags.map fun cat => cat.toNat / 2 ^ 16).Nodup

/-- The signature of a certificate, over its X.509 form, is one of the key. -/
def SignedBy (crypto : Crypto Key) (c : Certificate) (key : Key) : Prop :=
  ∃ der, tbsToDER crypto.onCurve c = pure der ∧
    crypto.verify key (crypto.sha256 der) (ofBytes (c.signature.take 32)) (ofBytes (c.signature.drop 32)) = true

/-- An intermediate authority of the root, that the certificate names by its key
identifier. -/
structure Intermediate (crypto : Crypto Key) (root : Key) (noc icac : Certificate) (key : Key) : Prop where
  own_key : crypto.parseUncompressedPublicKey icac.publicKey = some key
  authority : icac.extensions.hasBasicConstraints = true ∧ icac.extensions.basicConstraintsIsCA = true
  no_node : icac.subject.hasNodeID = false
  signed : SignedBy crypto icac root
  named : noc.extensions.authorityKeyID = icac.extensions.subjectKeyID

/-- The root vouches for the certificate, alone or with an intermediate authority
that is among `icacs`. -/
def Vouched (crypto : Crypto Key) (root : Key) (noc : Certificate) (icacs : Certificate → Prop) : Prop :=
  SignedBy crypto noc root ∨
    ∃ icac key, icacs icac ∧ Intermediate crypto root noc icac key ∧ SignedBy crypto noc key

/-- The fabric that a certificate states, if it states one, is the one of the
subject. -/
def SameFabric (c : Certificate) (subject : DistinguishedName) : Prop :=
  c.subject.hasFabricID = true → c.subject.matterFabricID = subject.matterFabricID

/-! ## The meaning -/

/-- Two names have the same ids. -/
structure SameName (dn dn' : DistinguishedName) : Prop where
  has : ∀ m, dn.has m = dn'.has m
  id : ∀ m, dn.id m = dn'.id m
  tags : dn.caseAuthTags = dn'.caseAuthTags

/-- The extensions that a verifier looks at are the same. -/
structure SameExtensions (e e' : CertificateExtensions) : Prop where
  constraints : e.hasBasicConstraints = e'.hasBasicConstraints
  authority : e.basicConstraintsIsCA = e'.basicConstraintsIsCA
  bounded : e.basicConstraintsHasPathLen = e'.basicConstraintsHasPathLen
  bound : e.basicConstraintsPathLen = e'.basicConstraintsPathLen
  usage : e.hasKeyUsage = e'.hasKeyUsage
  usages : e.keyUsage = e'.keyUsage
  extended : e.hasExtendedKeyUsage = e'.hasExtendedKeyUsage
  extendeds : e.extendedKeyUsage = e'.extendedKeyUsage
  key : e.hasSubjectKeyID = e'.hasSubjectKeyID
  keyID : e.subjectKeyID = e'.subjectKeyID
  issuer : e.hasAuthorityKeyID = e'.hasAuthorityKeyID
  issuerID : e.authorityKeyID = e'.authorityKeyID

/-- The certificates agree on all that a verifier looks at. -/
structure SameMeaning (c c' : Certificate) : Prop where
  subject : SameName c.subject c'.subject
  issuer : SameName c.issuer c'.issuer
  publicKey : c.publicKey = c'.publicKey
  extensions : SameExtensions c.extensions c'.extensions

/-- Among extensions with the tags `order`, one that `order` has as a future
extension and `order'` under a tag of its own is there under that tag as well. -/
def Restated (exts : List (List Byte)) (order order' : List (BitVec 8)) : Prop :=
  ∀ (i : Nat) (tag : BitVec 8), order[i]? = some 6 → order'[i]? = some tag → tag ≠ 6 →
    ∃ j : Nat, order[j]? = some tag ∧ exts[j]? = exts[i]?

end GF.Spec.Certificate
