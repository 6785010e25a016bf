import GoFabric.Impl.Mattercert.Tbs

/-!
# Verifying a certificate chain (`secure/mattercert/verify.go`)

ECDSA, SHA-256 and the reading of points are any functions (`Crypto`); a public
key is of any type. A panic is `none`.
-/

namespace GF.Impl.Mattercert

/-- What the verifier calls of the crypto packages. -/
structure Crypto (Key : Type) where
  /-- `elliptic.Unmarshal` takes the point. -/
  onCurve : List Byte → Bool
  /-- `ecdsa.ParseUncompressedPublicKey`. -/
  parseUncompressedPublicKey : List Byte → Option Key
  /-- `sha256.Sum256`. -/
  sha256 : List Byte → List Byte
  /-- `ecdsa.Verify`, of a hash and the two numbers of a signature. -/
  verify : Key → List Byte → Nat → Nat → Bool

structure Verifier (Key : Type) where
  root : Key
  rootSKID : List Byte := List.replicate 20 0
  hasRootSKID : Bool := false
  rootFabricID : BitVec 64 := 0
  hasRootFabricID : Bool := false

variable {Key : Type} (crypto : Crypto Key)

def Certificate.publicKeyECDSA (c : Certificate) : Except CertError Key :=
  if c.publicKeyAlgorithm ≠ 1 then
    let algorithm := c.publicKeyAlgorithm.toNat
    .error (.text .unsupportedAlgorithm s!"pub-key-algo={algorithm}")
  else if c.ellipticCurveID ≠ 1 then
    let curve := c.ellipticCurveID.toNat
    .error (.text .unsupportedAlgorithm s!"ec-curve-id={curve}")
  else if c.publicKey.length ≠ 65 ∨ c.publicKey.head? ≠ some 0x04 then
    .error (.text .malformed "malformed P-256 point")
  else
    match crypto.parseUncompressedPublicKey c.publicKey with
    | some key => .ok key
    | none => .error (.text .malformed "point not on curve")

/-! ## Verifiers -/

def newVerifier (rootPubKey : List Byte) : ExceptT CertError Option (Verifier Key) :=
  if rootPubKey.length ≠ 65 ∨ rootPubKey.head? ≠ some 0x04 then
    -- the text shows the first byte
    match rootPubKey with
    | [] => ExceptT.lift none
    | b :: _ => throw (.numbers .malformed "root pub key length and prefix" [rootPubKey.length, b.toNat])
  else
    match crypto.parseUncompressedPublicKey rootPubKey with
    | some root => pure { root := root }
    | none => throw (.text .malformed "root pub key off-curve")

def newVerifierFromCertificate (root : Certificate) : ExceptT CertError Option (Verifier Key) := do
  if !root.isRoot then throw (.text .malformed "cert is not a root CA")
  else if !root.extensions.hasSubjectKeyID ∨ root.extensions.subjectKeyID.length ≠ 20 then
    throw (.text .malformed "RCAC subjectKeyIdentifier must be 160 bit")
  else
    let v ← newVerifier crypto root.publicKey
    pure { v with
      rootSKID := root.extensions.subjectKeyID, hasRootSKID := true
      rootFabricID := root.subject.matterFabricID, hasRootFabricID := root.subject.hasFabricID }

/-! ## Shapes -/

def checkDNLimits (c : Certificate) (kind : String) : Except CertError Unit :=
  let subject := c.subject.order.length
  let issuer := c.issuer.order.length
  if 5 < subject then .error (.text .malformed s!"{kind} subject carries {subject} RDNs, at most 5 allowed")
  else if 5 < issuer then .error (.text .malformed s!"{kind} issuer carries {issuer} RDNs, at most 5 allowed")
  else if c.subject.hasVVSID then .error (.text .malformed s!"{kind} subject must not carry a matter-vvs-id")
  else .ok ()

/-- The loop of `checkNOCShape` over the authentication tags, with the identifiers
seen before. -/
def checkCATs (seen : List (BitVec 16)) : List (BitVec 32) → Except CertError Unit
  | [] => .ok ()
  | cat :: cats =>
    if cat.setWidth 16 = 0 then .error (.numbers .malformed "CAT has version 0" [cat.toNat])
    else if seen.contains ((cat >>> 16).setWidth 16) then
      .error (.numbers .malformed "CAT identifier appears twice" [(cat >>> 16).toNat])
    else checkCATs ((cat >>> 16).setWidth 16 :: seen) cats

def maxOperationalNodeID : BitVec 64 := 0xFFFFFFEFFFFFFFFF

/-- `hasEKU`, of one usage. -/
def hasEKU (list : List (BitVec 8)) (wanted : BitVec 8) : Bool := list.contains wanted

def checkNOCShape (c : Certificate) : Except CertError Unit := do
  let ext := c.extensions
  let cats := c.subject.caseAuthTags.length
  if c.subject.hasICACID ∨ c.subject.hasRCACID then
    .error (.text .malformed "NOC subject must not carry an ICAC-ID or RCAC-ID")
  else if c.subject.matterNodeID = 0 ∨ maxOperationalNodeID < c.subject.matterNodeID then
    .error (.within "mattercert: malformed certificate"
      (.numbers .nonOperationalNodeID "" [c.subject.matterNodeID.toNat]))
  else if c.subject.matterFabricID = 0 then .error (.text .malformed "NOC fabric id must not be 0")
  else if 3 < cats then .error (.text .malformed s!"NOC carries {cats} CATs, at most 3 allowed")
  else
    checkCATs [] c.subject.caseAuthTags
    checkDNLimits c "NOC"
    if ext.hasBasicConstraints ∧ ext.basicConstraintsIsCA then .error (.text .malformed "NOC must not be a CA")
    else if !ext.hasKeyUsage ∨ ext.keyUsage &&& 1 = 0 then
      .error (.text .malformed "NOC keyUsage must carry digitalSignature")
    else if !ext.hasExtendedKeyUsage ∨ !hasEKU ext.extendedKeyUsage 1 then
      .error (.text .malformed "NOC extendedKeyUsage must carry serverAuth")
    else if !ext.hasSubjectKeyID ∨ ext.subjectKeyID.length ≠ 20 then
      .error (.text .malformed "NOC subjectKeyIdentifier must be 160 bit")
    else if !ext.hasAuthorityKeyID ∨ ext.authorityKeyID.length ≠ 20 then
      .error (.text .malformed "NOC authorityKeyIdentifier must be present and 160 bit")
    else .ok ()

/-- The fabric of an ICAC, in `checkICACShape`. -/
def checkICACFabric (icac noc : Certificate) : Except CertError Unit :=
  if icac.subject.hasFabricID then
    if icac.subject.matterFabricID = 0 then .error (.text .malformed "ICAC fabric id must not be 0")
    else if noc.subject.hasFabricID ∧ icac.subject.matterFabricID ≠ noc.subject.matterFabricID then
      .error (.numbers .chainBroken "ICAC fabric id does not match NOC fabric id"
        [icac.subject.matterFabricID.toNat, noc.subject.matterFabricID.toNat])
    else .ok ()
  else .ok ()

def checkICACShape (icac noc : Certificate) : Except CertError Unit := do
  let ext := icac.extensions
  checkDNLimits icac "ICAC"
  if icac.subject.hasRCACID then .error (.text .malformed "ICAC subject must not carry an RCAC-ID")
  else if icac.subject.caseAuthTags ≠ [] then .error (.text .malformed "ICAC must not carry CATs")
  else
    checkICACFabric icac noc
    if !ext.hasBasicConstraints ∨ !ext.basicConstraintsIsCA then .error (.text .malformed "ICAC must be a CA")
    else if !ext.hasKeyUsage ∨ ext.keyUsage &&& ~~~1 ≠ 0x60 then
      .error (.numbers .malformed "ICAC keyUsage must be keyCertSign and cRLSign (optionally digitalSignature)"
        [ext.keyUsage.toNat])
    else if ext.hasExtendedKeyUsage ∧ ext.extendedKeyUsage ≠ [] then
      .error (.text .malformed "ICAC must not carry an extendedKeyUsage")
    else if !ext.hasSubjectKeyID ∨ ext.subjectKeyID.length ≠ 20 then
      .error (.text .malformed "ICAC subjectKeyIdentifier must be 160 bit")
    else if !ext.hasAuthorityKeyID ∨ ext.authorityKeyID.length ≠ 20 then
      .error (.text .malformed "ICAC authorityKeyIdentifier must be present and 160 bit")
    else .ok ()

def matterTimeRepresentable (matterSecs : BitVec 64) : Bool := matterSecs ≤ ~~~0#64 - matterEpochUTCSeconds

def checkValidity (c : Certificate) : Except CertError Unit :=
  if !matterTimeRepresentable c.notBefore then
    let secs := c.notBefore.toNat
    .error (.text .malformed s!"NotBefore={secs} does not name a representable time")
  else if c.notAfter ≠ 0 ∧ !matterTimeRepresentable c.notAfter then
    let secs := c.notAfter.toNat
    .error (.text .malformed s!"NotAfter={secs} does not name a representable time")
  else .ok ()

/-! ## The chain -/

/-- A number in big-endian bytes: `big.Int.SetBytes`. -/
def ofBytes (bs : List Byte) : Nat := leNat bs.reverse

/-- An error around those of a computation. -/
def around {α : Type} (what : String) (x : ExceptT CertError Option α) : ExceptT CertError Option α :=
  ExceptT.mk (x.run.map (·.mapError (.within what)))

def verifySignature (c : Certificate) (issuerKey : Key) : ExceptT CertError Option Unit := do
  if c.signature.length ≠ 64 then
    let length := c.signature.length
    throw (.text .malformed s!"signature length={length}")
  else
    let tbs ← around "rebuild tbs der" (tbsToDER crypto.onCurve c)
    if !crypto.verify issuerKey (crypto.sha256 tbs) (ofBytes (c.signature.take 32)) (ofBytes (c.signature.drop 32)) then
      throw (.text .signatureInvalid "")
    else pure ()

/-- A check, as a part of the verification. -/
def check {α : Type} (what : String) (r : Except CertError α) : ExceptT CertError Option α :=
  around what (ExceptT.mk (some r))

/-- Which of the two has issued a NOC that comes with an ICAC: the one that the NOC
names by its key identifier. -/
def namedIssuer (v : Verifier Key) (nocCert icacCert : Certificate) (icacPub : Key) : ExceptT CertError Option Key :=
  let rootSKID := if v.hasRootSKID then v.rootSKID else icacCert.extensions.authorityKeyID
  if nocCert.extensions.authorityKeyID = icacCert.extensions.subjectKeyID then
    if nocCert.issuer.matterICACID ≠ icacCert.subject.matterICACID ∨ !icacCert.subject.hasICACID then
      throw (.text .chainBroken "NOC issuer ICAC-ID does not match ICAC subject")
    else pure icacPub
  else if nocCert.extensions.authorityKeyID = rootSKID then pure v.root
  else throw (.text .chainBroken "NOC authorityKeyIdentifier names neither the root nor the ICAC")

/-- The issuer of a NOC that comes with an ICAC, in `VerifyAndExtractPubKey`. -/
def issuerWithICAC (v : Verifier Key) (nocCert : Certificate) (icac : List Byte) : ExceptT CertError Option Key := do
  let icacCert ← check "icac" (decode icac)
  if !icacCert.isICA then throw (.text .malformed "cert is not an ICAC")
  else
    check "icac" (checkValidity icacCert)
    check "icac" (checkICACShape icacCert nocCert)
    if v.hasRootSKID ∧ icacCert.extensions.authorityKeyID ≠ v.rootSKID then
      throw (.text .chainBroken "ICAC authorityKeyIdentifier does not name the root")
    else
      around "icac" (verifySignature crypto icacCert v.root)
      let icacPub ← check "icac" (icacCert.publicKeyECDSA crypto)
      namedIssuer v nocCert icacCert icacPub

/-- The issuer of a NOC that comes alone. -/
def issuerWithoutICAC (v : Verifier Key) (nocCert : Certificate) : ExceptT CertError Option Key :=
  if v.hasRootSKID ∧ nocCert.extensions.authorityKeyID ≠ v.rootSKID then
    throw (.text .chainBroken "NOC authorityKeyIdentifier does not name the root")
  else pure v.root

def issuerOf (v : Verifier Key) (nocCert : Certificate) (icac : List Byte) : ExceptT CertError Option Key :=
  if icac = [] then issuerWithoutICAC v nocCert else issuerWithICAC crypto v nocCert icac

def verifyAndExtractPubKey (v : Verifier Key) (noc icac : List Byte) : ExceptT CertError Option Key := do
  if maxOperationalCertTLVBytes < noc.length then
    let length := noc.length
    throw (.text .malformed s!"NOC is {length} bytes, over the 400-byte cap")
  else if maxOperationalCertTLVBytes < icac.length then
    let length := icac.length
    throw (.text .malformed s!"ICAC is {length} bytes, over the 400-byte cap")
  else
    let nocCert ← check "noc" (decode noc)
    if !nocCert.isNOC then throw (.text .malformed "cert is not a NOC")
    else
      check "noc" (checkValidity nocCert)
      check "noc" (checkNOCShape nocCert)
      if v.hasRootFabricID ∧ v.rootFabricID ≠ nocCert.subject.matterFabricID then
        throw (.numbers .chainBroken
          "FabricId in NoC certificate does not match the fabricId in the parent certificate"
          [v.rootFabricID.toNat, nocCert.subject.matterFabricID.toNat])
      else
        let issuerKey ← issuerOf crypto v nocCert icac
        around "noc" (verifySignature crypto nocCert issuerKey)
        ExceptT.mk (some (nocCert.publicKeyECDSA crypto))

end GF.Impl.Mattercert
