import GoFabric.Impl.Im.Unmarshal

/-!
# Operational certificates (`secure/mattercert/decode.go`)

A certificate in Matter TLV, as `Decode` reads it. The decoder calls nothing of a
`tlv.Decoder` but `Next`; it is a parser of the elements that `Next` returns, and
`tail` is the error that it returns after them. Errors keep the sentinel they wrap
and what they report.
-/

namespace GF.Impl.Mattercert

open GF.Impl.Tlv
open GF.Impl.Im.Wire (elements containers fieldTag)

/-! ## Errors -/

/-- The sentinel errors of the package. -/
inductive Sentinel
  | truncated
  | malformed
  | nonOperationalNodeID
  | unsupportedAlgorithm
  | subjectIncomplete
  | signatureInvalid
  | chainBroken
deriving DecidableEq

inductive CertError
  | text (sentinel : Sentinel) (msg : String)
  /-- The text also shows a type. -/
  | got (sentinel : Sentinel) (msg : String) (type : ElementType)
  /-- The text also shows a tag. -/
  | tagged (sentinel : Sentinel) (msg : String) (tag : Tag)
  /-- The text also shows numbers, in hexadecimal. -/
  | numbers (sentinel : Sentinel) (msg : String) (values : List Nat)
  /-- `ErrTruncated` around an error of the TLV codec. -/
  | tlv (what : String) (cause : TlvError)
  /-- An error of `encoding/asn1`. -/
  | asn1 (what : String)
  /-- Around another error. -/
  | within (what : String) (cause : CertError)
deriving DecidableEq

/-! ## Certificates -/

/-- The attributes of a distinguished name that are 64-bit Matter ids. -/
inductive MatterID
  | nodeID
  | firmwareSigningID
  | icacID
  | rcacID
  | fabricID
  | vvsID
deriving DecidableEq

/-- The tag of an id in a distinguished name. -/
def MatterID.tag : MatterID → BitVec 8
  | .nodeID => 17
  | .firmwareSigningID => 18
  | .icacID => 19
  | .rcacID => 20
  | .fabricID => 21
  | .vvsID => 23

def MatterID.all : List MatterID := [.nodeID, .firmwareSigningID, .icacID, .rcacID, .fabricID, .vvsID]

def MatterID.ofTag (tag : BitVec 8) : Option MatterID := MatterID.all.find? (·.tag == tag)

def dnTagMatterCASEAuth : BitVec 8 := 22

structure DNAttribute where
  tag : BitVec 8
  value : List Byte

structure DistinguishedName where
  matterRCACID : BitVec 64 := 0
  matterICACID : BitVec 64 := 0
  matterNodeID : BitVec 64 := 0
  matterFabricID : BitVec 64 := 0
  caseAuthTags : List (BitVec 32) := []
  attributes : List DNAttribute := []
  hasNodeID : Bool := false
  hasFabricID : Bool := false
  hasRCACID : Bool := false
  hasICACID : Bool := false
  matterVVSID : BitVec 64 := 0
  hasVVSID : Bool := false
  matterFirmwareSigningID : BitVec 64 := 0
  hasFirmwareSigningID : Bool := false
  order : List (BitVec 8) := []

namespace DistinguishedName

/-- The value of an id. -/
def id (dn : DistinguishedName) : MatterID → BitVec 64
  | .nodeID => dn.matterNodeID
  | .firmwareSigningID => dn.matterFirmwareSigningID
  | .icacID => dn.matterICACID
  | .rcacID => dn.matterRCACID
  | .fabricID => dn.matterFabricID
  | .vvsID => dn.matterVVSID

/-- The id is there. -/
def has (dn : DistinguishedName) : MatterID → Bool
  | .nodeID => dn.hasNodeID
  | .firmwareSigningID => dn.hasFirmwareSigningID
  | .icacID => dn.hasICACID
  | .rcacID => dn.hasRCACID
  | .fabricID => dn.hasFabricID
  | .vvsID => dn.hasVVSID

/-- The name with another id. -/
def setID (dn : DistinguishedName) (v : BitVec 64) : MatterID → DistinguishedName
  | .nodeID => { dn with matterNodeID := v, hasNodeID := true }
  | .firmwareSigningID => { dn with matterFirmwareSigningID := v, hasFirmwareSigningID := true }
  | .icacID => { dn with matterICACID := v, hasICACID := true }
  | .rcacID => { dn with matterRCACID := v, hasRCACID := true }
  | .fabricID => { dn with matterFabricID := v, hasFabricID := true }
  | .vvsID => { dn with matterVVSID := v, hasVVSID := true }

end DistinguishedName

structure CertificateExtensions where
  hasBasicConstraints : Bool := false
  basicConstraintsIsCA : Bool := false
  basicConstraintsHasPathLen : Bool := false
  basicConstraintsPathLen : BitVec 8 := 0
  hasKeyUsage : Bool := false
  keyUsage : BitVec 16 := 0
  hasExtendedKeyUsage : Bool := false
  extendedKeyUsage : List (BitVec 8) := []
  hasSubjectKeyID : Bool := false
  subjectKeyID : List Byte := []
  hasAuthorityKeyID : Bool := false
  authorityKeyID : List Byte := []
  futureExtensions : List (List Byte) := []
  order : List (BitVec 8) := []

structure Certificate where
  serialNumber : List Byte := []
  signatureAlgorithm : BitVec 64 := 0
  issuer : DistinguishedName := {}
  notBefore : BitVec 64 := 0
  notAfter : BitVec 64 := 0
  subject : DistinguishedName := {}
  publicKeyAlgorithm : BitVec 64 := 0
  ellipticCurveID : BitVec 64 := 0
  publicKey : List Byte := []
  extensions : CertificateExtensions := {}
  signature : List Byte := []
  raw : List Byte := []
  tbsDER : List Byte := []

namespace Certificate

def isRoot (c : Certificate) : Bool := c.subject.hasRCACID && !c.subject.hasNodeID

def isICA (c : Certificate) : Bool := c.subject.hasICACID && !c.subject.hasNodeID

def isNOC (c : Certificate) : Bool := c.subject.hasNodeID && c.subject.hasFabricID

end Certificate

/-! ## Decoding -/

abbrev Reading := Parser Element CertError

variable (tail : TlvError)

def skipContainer : Reading Unit := containers.skip (.tlv "skip" tail)

/-- The contents of a container that nothing reads are skipped. -/
def skipField {α : Type} (what : Option String) (el : Element) (s : α) : Reading α :=
  if el.isContainer then do
    match what with
    | some what => (skipContainer tail).mapError (.within what)
    | none => skipContainer tail
    pure s
  else pure s

/-- A loop over the members of an open container. -/
def fieldLoop {σ : Type} (what : String) (member : Element → σ → Reading σ) : Loop Element CertError σ σ where
  eof := .tlv what tail
  closes := (·.isEndContainer)
  finish := .ok
  member := member

def isStandardDNTag (tag : BitVec 8) : Bool := (1 ≤ tag && tag ≤ 16) || (129 ≤ tag && tag ≤ 143)

def isUTF8 (el : Element) : Bool :=
  el.type == .utf8Str1 || el.type == .utf8Str2 || el.type == .utf8Str4 || el.type == .utf8Str8

def isOctets (el : Element) : Bool :=
  el.type == .octetStr1 || el.type == .octetStr2 || el.type == .octetStr4 || el.type == .octetStr8

/-- One round of `decodeDN`; beside the name, the ids that were seen. -/
def dnEntry (el : Element) (s : DistinguishedName × List MatterID) : Reading (DistinguishedName × List MatterID) :=
  let (dn, seen) := s
  let tag := fieldTag el
  if el.tag.kind ≠ .context then .fail (.text .malformed "dn entry with non-context tag")
  else
    match MatterID.ofTag tag with
    | some m =>
      if seen.contains m then
        let number := tag.toNat
        .fail (.text .malformed s!"dn attribute {number} repeated")
      else
        let dn := dn.setID el.uint m
        pure ({ dn with order := dn.order ++ [tag] }, m :: seen)
    | none =>
      if tag = dnTagMatterCASEAuth then
        pure ({ dn with caseAuthTags := dn.caseAuthTags ++ [el.uint.setWidth 32], order := dn.order ++ [tag] }, seen)
      else if isStandardDNTag tag then
        if !isUTF8 el then
          let number := tag.toNat
          .fail (.text .malformed s!"dn attribute {number} is not a UTF-8 string")
        else
          pure ({ dn with
            attributes := dn.attributes ++ [{ tag := tag, value := el.string }], order := dn.order ++ [tag] }, seen)
      else skipField tail none el (dn, seen)

def decodeDN : Reading DistinguishedName := do
  let s ← (fieldLoop tail "dn child" (dnEntry tail)).parser ({}, [])
  pure s.1

/-- One round of `decodeBasicConstraints`. -/
def basicConstraint (el : Element) (ext : CertificateExtensions) : Reading CertificateExtensions :=
  let tag := fieldTag el
  if el.tag.kind ≠ .context then .fail (.text .malformed "bc entry with non-context tag")
  else if tag = 1 then pure { ext with basicConstraintsIsCA := el.type == .boolTrue }
  else if tag = 2 then
    pure { ext with basicConstraintsPathLen := el.uint.setWidth 8, basicConstraintsHasPathLen := true }
  else
    let number := tag.toNat
    skipField tail (some s!"unknown bc tag {number}") el ext

def decodeBasicConstraints (ext : CertificateExtensions) : Reading CertificateExtensions :=
  (fieldLoop tail "bc child" (basicConstraint tail)).parser { ext with hasBasicConstraints := true }

def decodeUint8Array : Reading (List (BitVec 8)) :=
  (fieldLoop tail "array child" fun el out => pure (out ++ [el.uint.setWidth 8])).parser []

/-- One round of `decodeExtensions`, once the tag is in the order. -/
def extensionValue (el : Element) (tag : BitVec 8) (ext : CertificateExtensions) : Reading CertificateExtensions :=
  if tag = 1 then
    if !el.isContainer then .fail (.text .malformed "basic-constraints not a container")
    else (decodeBasicConstraints tail ext).mapError (.within "basic-constraints")
  else if tag = 2 then pure { ext with keyUsage := el.uint.setWidth 16, hasKeyUsage := true }
  else if tag = 3 then
    if !el.isContainer then .fail (.text .malformed "extended-key-usage not a container")
    else do
      let eku ← (decodeUint8Array tail).mapError (.within "extended-key-usage")
      pure { ext with extendedKeyUsage := eku, hasExtendedKeyUsage := true }
  else if tag = 4 then
    if el.octets = [] then .fail (.text .malformed "subject-key-id empty")
    else pure { ext with subjectKeyID := el.octets, hasSubjectKeyID := true }
  else if tag = 5 then
    if el.octets = [] then .fail (.text .malformed "authority-key-id empty")
    else pure { ext with authorityKeyID := el.octets, hasAuthorityKeyID := true }
  else if tag = 6 then pure { ext with futureExtensions := ext.futureExtensions ++ [el.octets] }
  else
    let number := tag.toNat
    skipField tail (some s!"unknown extension container tag {number}") el ext

/-- One round of `decodeExtensions`. -/
def extensionEntry (el : Element) (ext : CertificateExtensions) : Reading CertificateExtensions :=
  let tag := fieldTag el
  if el.tag.kind ≠ .context then .fail (.text .malformed "extension entry with non-context tag")
  else extensionValue tail el tag (if 1 ≤ tag ∧ tag ≤ 6 then { ext with order := ext.order ++ [tag] } else ext)

def decodeExtensions : Reading CertificateExtensions :=
  (fieldLoop tail "extension child" (extensionEntry tail)).parser {}

/-- A distinguished name of the certificate. -/
def dnField (what : String) (el : Element) : Reading DistinguishedName :=
  if !el.isContainer ∨ el.type ≠ .list then .fail (.got .malformed s!"{what} is not a TLV list" el.type)
  else (decodeDN tail).mapError (.within what)

/-- `assignField`, for a context tag. -/
def assignField (el : Element) (cert : Certificate) : Reading Certificate :=
  let tag := fieldTag el
  if tag = 1 then
    if !isOctets el then .fail (.text .malformed "SerialNumber must be octet string")
    else pure { cert with serialNumber := el.octets }
  else if tag = 2 then pure { cert with signatureAlgorithm := el.uint }
  else if tag = 3 then do
    let dn ← dnField tail "issuer" el
    pure { cert with issuer := dn }
  else if tag = 4 then pure { cert with notBefore := el.uint }
  else if tag = 5 then pure { cert with notAfter := el.uint }
  else if tag = 6 then do
    let dn ← dnField tail "subject" el
    pure { cert with subject := dn }
  else if tag = 7 then pure { cert with publicKeyAlgorithm := el.uint }
  else if tag = 8 then pure { cert with ellipticCurveID := el.uint }
  else if tag = 9 then pure { cert with publicKey := el.octets }
  else if tag = 10 then do
    let ext ← (decodeExtensions tail).mapError (.within "extensions")
    pure { cert with extensions := ext }
  else if tag = 11 then pure { cert with signature := el.octets }
  else
    let number := tag.toNat
    skipField tail (some s!"unknown container tag {number}") el cert

/-- One round of `Decode`. -/
def certificateField (el : Element) (cert : Certificate) : Reading Certificate :=
  if el.tag.kind ≠ .context then .fail (.tagged .malformed "cert field with non-context tag" el.tag)
  else assignField tail el cert

def validateMandatory (c : Certificate) : Except CertError Unit :=
  let serial := c.serialNumber.length
  if serial = 0 ∨ 21 < serial then .error (.text .malformed s!"serial number length={serial} (want 1..21)")
  else if c.signatureAlgorithm ≠ 1 then
    let algorithm := c.signatureAlgorithm.toNat
    .error (.text .unsupportedAlgorithm s!"signature algorithm {algorithm}")
  else if c.publicKeyAlgorithm ≠ 1 then
    let algorithm := c.publicKeyAlgorithm.toNat
    .error (.text .unsupportedAlgorithm s!"public-key algorithm {algorithm}")
  else if c.ellipticCurveID ≠ 1 then
    let curve := c.ellipticCurveID.toNat
    .error (.text .unsupportedAlgorithm s!"elliptic curve {curve}")
  else if c.publicKey.length ≠ 65 then
    let length := c.publicKey.length
    .error (.text .malformed s!"ec-pub-key length={length} (want 65)")
  else if c.publicKey.head? ≠ some 0x04 then
    .error (.numbers .malformed "ec-pub-key prefix (want 0x04)" [(c.publicKey.headD 0).toNat])
  else if c.signature.length ≠ 64 then
    let length := c.signature.length
    .error (.text .malformed s!"signature length={length} (want 64)")
  else if c.notAfter ≠ 0 ∧ c.notAfter ≤ c.notBefore then
    let after := c.notAfter.toNat
    let before := c.notBefore.toNat
    .error (.text .malformed s!"NotAfter ({after}) <= NotBefore ({before})")
  else if c.isNOC ∧ (!c.subject.hasNodeID ∨ !c.subject.hasFabricID) then
    .error (.text .subjectIncomplete "NOC subject must carry NodeID + FabricID")
  else .ok ()

def maxOperationalCertTLVBytes : Nat := 400

/-- The elements of a certificate. -/
def certificate (raw : List Byte) : Reading Certificate := do
  let top ← Parser.next (.tlv "top" tail)
  if top.type ≠ .struct then .fail (.got .malformed "top element must be Structure" top.type)
  else (fieldLoop tail "cert body" (certificateField tail)).parser { raw := raw }

def decode (raw : List Byte) : Except CertError Certificate := do
  if maxOperationalCertTLVBytes < raw.length then
    let length := raw.length
    .error (.text .malformed s!"Matter-TLV operational certificate of {length} bytes exceeds the 400 byte limit")
  else
    let (cert, _) ← (certificate (elements raw).2 raw).run (elements raw).1
    validateMandatory cert
    pure cert

end GF.Impl.Mattercert
