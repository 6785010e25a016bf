import GoFabric.Framework.Der
import GoFabric.Impl.Mattercert.Decode

/-!
# The signed form of a certificate (`secure/mattercert/tbs_der.go`)

A certificate is signed in its X.509 form: `TBSToDER` writes that form of a
certificate from the fields that `Decode` read. An `asn1.RawValue` is its octets
(`FullBytes`). A panic is `none`. Whether a point is on the curve is `onCurve`,
that is, whether `elliptic.Unmarshal` takes it.
-/

namespace GF.Impl.Mattercert

open GF.Der

/-! ## Distinguished names -/

/-- The arc of the Matter attributes. -/
def oidMatter (n : Nat) : List Nat := [1, 3, 6, 1, 4, 1, 37244, 1, n]

/-- The type of an id attribute. -/
def MatterID.oid : MatterID → List Nat
  | .nodeID => oidMatter 1
  | .firmwareSigningID => oidMatter 2
  | .icacID => oidMatter 3
  | .rcacID => oidMatter 4
  | .fabricID => oidMatter 5
  | .vvsID => oidMatter 7

def oidMatterCASEAuthTag : List Nat := oidMatter 6

def oidDomainComponent : List Nat := [0, 9, 2342, 19200300, 100, 1, 25]

def x520AttributeTypes : List Nat := [3, 4, 5, 6, 7, 8, 10, 11, 12, 41, 42, 43, 44, 46, 65]

/-- The identifiers of the string types. -/
def tagUTF8String : Byte := 12

def tagPrintableString : Byte := 19

def tagIA5String : Byte := 22

def standardDNAttribute (tag : BitVec 8) : Option (List Nat × Byte) :=
  if tag = 16 then some (oidDomainComponent, tagIA5String)
  else if 1 ≤ tag ∧ tag < 16 then some ([2, 5, 4, x520AttributeTypes.getD (tag.toNat - 1) 0], tagUTF8String)
  else if 129 ≤ tag ∧ tag ≤ 143 then
    some ([2, 5, 4, x520AttributeTypes.getD (tag.toNat - 129) 0], tagPrintableString)
  else none

/-- A digit of an upper-case hexadecimal number. -/
def hexDigit (d : Nat) : Byte := BitVec.ofNat 8 (if d < 10 then 0x30 + d else 0x37 + d)

/-- `hex16` and `hex8`: the `n` bytes of `v`, in hexadecimal. -/
def hexOf (n v : Nat) : List Byte := (beBytes n v).flatMap fun b => [hexDigit (b.toNat / 16), hexDigit (b.toNat % 16)]

structure RdnAttribute where
  type : List Nat
  stringType : Byte
  value : List Byte

/-- The attributes that the loop of `buildDN` emits for the tags `order`, with the
authentication tags and the standard attributes that are left. -/
def emitted (dn : DistinguishedName) : List (BitVec 8) → List (BitVec 32) → List DNAttribute → List RdnAttribute
  | [], _, _ => []
  | tag :: order, cats, attrs =>
    match MatterID.ofTag tag with
    | some m => { type := m.oid, stringType := tagUTF8String, value := hexOf 8 (dn.id m).toNat } :: emitted dn order cats attrs
    | none =>
      if tag = dnTagMatterCASEAuth then
        match cats with
        | [] => emitted dn order [] attrs
        | cat :: cats =>
          { type := oidMatterCASEAuthTag, stringType := tagUTF8String, value := hexOf 4 cat.toNat } ::
            emitted dn order cats attrs
      else
        match standardDNAttribute tag, attrs with
        | some (oid, stringType), attr :: attrs =>
          { type := oid, stringType := stringType, value := attr.value } :: emitted dn order cats attrs
        | _, attrs => emitted dn order cats attrs

/-- The attributes of a name that has no order. -/
def canonical (dn : DistinguishedName) : List RdnAttribute :=
  ([.rcacID, .icacID, .nodeID, .fabricID, .vvsID, .firmwareSigningID].filter dn.has).map
      (fun m => { type := m.oid, stringType := tagUTF8String, value := hexOf 8 (dn.id m).toNat }) ++
    dn.caseAuthTags.map fun cat =>
      { type := oidMatterCASEAuthTag, stringType := tagUTF8String, value := hexOf 4 cat.toNat }

/-- The attributes of a name. -/
def rdnAttributes (dn : DistinguishedName) : List RdnAttribute :=
  if dn.order = [] then canonical dn else emitted dn dn.order dn.caseAuthTags dn.attributes

/-- `asn1.Unmarshal` of an element. -/
def unmarshal (octets : List Byte) : Option (List Byte) := ((rawValue.run octets).toOption).map Prod.fst

/-- `emitValue`: an attribute in a set of its own. -/
def emitValue (attr : RdnAttribute) : Option (List Byte) :=
  unmarshal (set [sequence [objectIdentifier attr.type, element attr.stringType attr.value]])

def buildDN (dn : DistinguishedName) : Option (List (List Byte)) := (rdnAttributes dn).mapM emitValue

def wrapDN (rdns : List (List Byte)) : Except CertError (List Byte) :=
  match unmarshal (sequence rdns) with
  | some raw => .ok raw
  | none => .error (.asn1 "dn re-unmarshal")

/-! ## Extensions -/

def oidExtension (n : Nat) : List Nat := [2, 5, 29, n]

def oidExtBasicConstraints : List Nat := oidExtension 19

def oidExtKeyUsage : List Nat := oidExtension 15

def oidExtSubjectKeyID : List Nat := oidExtension 14

def oidExtAuthorityKeyID : List Nat := oidExtension 35

def oidExtExtendedKeyUsage : List Nat := oidExtension 37

variable (ext : CertificateExtensions)

def marshalExt (id : List Nat) (critical : Bool) (val : List Byte) : Except CertError (List Byte) :=
  match unmarshal (sequence [objectIdentifier id, if critical then boolean true else [], octetString val]) with
  | some raw => .ok raw
  | none => .error (.asn1 "extension unmarshal")

def buildBasicConstraints : Except CertError (List Byte) :=
  marshalExt oidExtBasicConstraints true <|
    sequence [if ext.basicConstraintsIsCA then boolean true else [],
      if ext.basicConstraintsHasPathLen then integer ext.basicConstraintsPathLen.toNat else []]

/-- The bits that are set, from the first one on. -/
def setBits (flags : BitVec 16) : List Nat := (List.range 16).filter flags.getLsbD

/-- Byte `i` of the flags, with the first bit the most significant one. -/
def usageByte (flags : BitVec 16) (i : Nat) : Byte :=
  (setBits flags).foldl (fun b bit => if bit / 8 = i then b ||| (0x80#8 >>> (bit % 8)) else b) 0

/-- `encodeKeyUsageBits`: the bytes and the length in bits. -/
def encodeKeyUsageBits (flags : BitVec 16) : List Byte × Nat :=
  match (setBits flags).getLast? with
  | none => ([0], 0)
  | some highest => (if highest < 8 then [usageByte flags 0] else [usageByte flags 0, usageByte flags 1], highest + 1)

def buildKeyUsage : Except CertError (List Byte) :=
  let (bytes, bitLength) := encodeKeyUsageBits ext.keyUsage
  marshalExt oidExtKeyUsage true (bitString ((8 - bitLength % 8) % 8) bytes)

/-- `mapEKU`, of one value. -/
def mapEKU (v : BitVec 8) : Except CertError (List Nat) :=
  match v.toNat with
  | 1 => .ok [1, 3, 6, 1, 5, 5, 7, 3, 1]
  | 2 => .ok [1, 3, 6, 1, 5, 5, 7, 3, 2]
  | 3 => .ok [1, 3, 6, 1, 5, 5, 7, 3, 3]
  | 4 => .ok [1, 3, 6, 1, 5, 5, 7, 3, 4]
  | 5 => .ok [1, 3, 6, 1, 5, 5, 7, 3, 8]
  | 6 => .ok [1, 3, 6, 1, 5, 5, 7, 3, 9]
  | n => .error (.text .unsupportedAlgorithm s!"extended-key-usage value {n}")

def buildExtendedKeyUsage : Except CertError (List Byte) := do
  let oids ← ext.extendedKeyUsage.mapM mapEKU
  marshalExt oidExtExtendedKeyUsage true (sequence (oids.map objectIdentifier))

def buildSubjectKeyID : Except CertError (List Byte) :=
  marshalExt oidExtSubjectKeyID false (octetString ext.subjectKeyID)

def buildAuthorityKeyID : Except CertError (List Byte) :=
  marshalExt oidExtAuthorityKeyID false
    (sequence [if ext.authorityKeyID = [] then [] else element 0x80 ext.authorityKeyID])

def buildFutureExtension (fe : List Byte) : Except CertError (List Byte) :=
  match unmarshal fe with
  | some raw => .ok raw
  | none => .error (.asn1 "future-extension: unmarshal")

def canonicalExtensionOrder : List (BitVec 8) :=
  (if ext.hasBasicConstraints then [1] else []) ++ (if ext.hasKeyUsage then [2] else []) ++
    (if ext.hasExtendedKeyUsage then [3] else []) ++ (if ext.hasSubjectKeyID then [4] else []) ++
    (if ext.hasAuthorityKeyID then [5] else []) ++ ext.futureExtensions.map fun _ => 6

/-- The extension of a tag but that of the future ones. -/
def buildExtension (tag : BitVec 8) : Except CertError (List Byte) :=
  match tag.toNat with
  | 1 => buildBasicConstraints ext
  | 2 => buildKeyUsage ext
  | 3 => buildExtendedKeyUsage ext
  | 4 => buildSubjectKeyID ext
  | 5 => buildAuthorityKeyID ext
  | n => .error (.text .malformed s!"unknown extension tag {n} in order")

/-- The loop of `buildExtensions` over the tags, with the future extensions that are
left. -/
def buildOrdered (ext : CertificateExtensions) :
    List (BitVec 8) → List (List Byte) → Except CertError (List (List Byte))
  | [], _ => .ok []
  | tag :: order, future =>
    if tag = 6 then
      match future with
      | [] => .error (.text .malformed "future-extension order entry without value")
      | fe :: future => do
        let raw ← buildFutureExtension fe
        let rest ← buildOrdered ext order future
        pure (raw :: rest)
    else do
      let raw ← buildExtension ext tag
      let rest ← buildOrdered ext order future
      pure (raw :: rest)

def buildExtensions : Except CertError (List (List Byte)) :=
  buildOrdered ext (if ext.order = [] then canonicalExtensionOrder ext else ext.order) ext.futureExtensions

/-! ## The certificate -/

def matterEpochUTCSeconds : BitVec 64 := 946684800

/-- `matterEpochToTime`, in seconds since the beginning of 1970; the addition is of
64 bits. -/
def matterEpochToTime (matterSecs : BitVec 64) : Int :=
  if matterSecs = 0 then 253402300799 else (matterEpochUTCSeconds + matterSecs).toInt

def oidEcdsaWithSHA256 : List Nat := [1, 2, 840, 10045, 4, 3, 2]

def oidEcPublicKey : List Nat := [1, 2, 840, 10045, 2, 1]

def oidPrime256v1 : List Nat := [1, 2, 840, 10045, 3, 1, 7]

variable (onCurve : List Byte → Bool)

/-- `tbsCertificate`, as it is marshalled; a certificate of version 3. -/
def marshalTBS (serial : Nat) (issuer notBefore notAfter subject publicKey : List Byte)
    (extensions : List (List Byte)) : List Byte :=
  sequence [
    element 0xA0 (integer 2),
    integer serial,
    sequence [objectIdentifier oidEcdsaWithSHA256],
    issuer,
    sequence [notBefore, notAfter],
    subject,
    sequence [sequence [objectIdentifier oidEcPublicKey, objectIdentifier oidPrime256v1], bitString 0 publicKey],
    if extensions = [] then [] else element 0xA3 (sequence extensions)]

/-- `buildTBS` and its marshalling. -/
def buildTBS (c : Certificate) : ExceptT CertError Option (List Byte) := do
  let rdns ← ExceptT.lift (buildDN c.issuer)
  let issuer ← ExceptT.mk (some ((wrapDN rdns).mapError (.within "issuer")))
  let rdns ← ExceptT.lift (buildDN c.subject)
  let subject ← ExceptT.mk (some ((wrapDN rdns).mapError (.within "subject")))
  if !onCurve c.publicKey then throw (.text .malformed "pubkey off-curve")
  else
    let extensions ← ExceptT.mk (some ((buildExtensions c.extensions).mapError (.within "extensions")))
    match time (matterEpochToTime c.notBefore), time (matterEpochToTime c.notAfter) with
    | some notBefore, some notAfter =>
      pure (marshalTBS (leNat c.serialNumber.reverse) issuer notBefore notAfter subject c.publicKey extensions)
    | _, _ => throw (.asn1 "matter cert: TBS asn1.Marshal")

def tbsToDER (c : Certificate) : ExceptT CertError Option (List Byte) :=
  if c.tbsDER ≠ [] then pure c.tbsDER else buildTBS onCurve c

end GF.Impl.Mattercert
