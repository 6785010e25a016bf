import GoFabric.Impl.Aesccm
import GoFabric.Impl.Sigma.Codec

/-!
# What both sides of CASE compute (`secure/sigma/sigma.go`, `secure/sigma/protocol.go`)

The primitives of the Go library are the fields of `Primitives`. A call that fails returns
`none`; `hkdf.Key` fails only on a length that no caller asks for, `aesccm.New` only on a key
that is not 16 bytes long and `rand.Read` never, so these are total.
-/

namespace GF.Impl.Sigma

/-- The primitives, with the types of their keys. -/
structure Primitives where
  /-- `*ecdh.PrivateKey`. -/
  Eph : Type
  /-- `*ecdh.PublicKey`. -/
  Point : Type
  /-- `*ecdsa.PublicKey`. -/
  Key : Type
  /-- `crypto.Signer`. -/
  Signer : Type
  /-- What a signature draws from `rand.Reader`. -/
  Entropy : Type
  sha256 : List Byte → Vector Byte 32
  /-- The key and the message. -/
  hmac : List Byte → List Byte → Vector Byte 32
  /-- The secret, the salt, the info and the length. -/
  hkdf : List Byte → List Byte → String → (l : Nat) → Vector Byte l
  /-- `PublicKey().Bytes()`. -/
  ephPub : Eph → Vector Byte 65
  /-- `elliptic.Unmarshal`. -/
  unmarshalPoint : List Byte → Option (Nat × Nat)
  newPublicKey : List Byte → Option Point
  ecdh : Eph → Point → Option (List Byte)
  /-- `Sign`, and the pair that its ASN.1 form holds. -/
  sign : Signer → Entropy → Vector Byte 32 → Option (Int × Int)
  /-- `ecdsa.Verify`. -/
  verify : Key → Vector Byte 32 → Nat → Nat → Bool
  /-- `Seal` under a key: the nonce and the plaintext, no additional data. -/
  ccmSeal : Vector Byte 16 → List Byte → List Byte → Option (List Byte)
  /-- `Open`. -/
  ccmOpen : Vector Byte 16 → List Byte → List Byte → Option (List Byte)
  /-- `Seal` refuses a plaintext for its length only. -/
  ccmSeal_nil : ∀ key nonce, nonce.length = Aesccm.nonceSize → (ccmSeal key nonce []).isSome

inductive Error
  | codec (e : CodecError)
  | invalidPoint
  | ecdh
  | noSigningKey
  | sign
  | sealFailed
  | signatureInvalid
  | unauthenticated
  | sessionState
  | noSharedTrustRoots
  | fabricIDMismatch
  | peerIdentityMismatch
  | unexpectedSigma2Resume
  | needsIdentity
  | needsVerifier
  | needsRootPublicKey

/-- The bytes of an ASCII text. -/
def ascii (s : String) : List Byte := s.toList.map fun c => BitVec.ofNat 8 c.toNat

/-! ## Identities and verifiers -/

structure SessionKeys where
  i2rKey : Vector Byte 16
  r2iKey : Vector Byte 16
  attestationChallenge : Vector Byte 16

/-- `Identity`, with what the handshake reads. -/
structure Identity (P : Primitives) where
  noc : List Byte := []
  icac : List Byte := []
  privateKey : Option P.Signer := none
  signer : Option P.Signer := none
  nodeID : BitVec 64 := 0
  fabricID : BitVec 64 := 0
  ipk : Vector Byte 16 := Vector.replicate 16 0
  fabricIndex : BitVec 8 := 0

def Identity.signingKey {P : Primitives} (id : Identity P) : Option P.Signer := id.signer <|> id.privateKey

/-- `PeerVerifier`, with the optional `PeerNodeIDExtractor`, `PeerFabricIDExtractor` and
`PeerCATsExtractor`. -/
structure PeerVerifier (P : Primitives) where
  verifyAndExtractPubKey : List Byte → List Byte → Option P.Key
  peerNodeIDFromNOC : Option (List Byte → Option (BitVec 64)) := none
  peerFabricIDFromNOC : Option (List Byte → Option (BitVec 64)) := none
  peerCATsFromNOC : Option (List Byte → Option (List (BitVec 32))) := none

/-- The tags that a verifier reads from a certificate; none when it cannot. -/
def PeerVerifier.catsOf {P : Primitives} (v : PeerVerifier P) (noc : List Byte) : List (BitVec 32) :=
  (v.peerCATsFromNOC.bind fun extract => extract noc).getD []

/-- `sigma.ResumptionRecord`, as a handshake uses it. -/
structure ResumptionRecord where
  sharedSecret : List Byte
  resumptionID : List Byte
  fabricIndex : BitVec 8
  peerNodeID : BitVec 64
  peerCATs : List (BitVec 32)

/-! ## Salts and keys -/

section
variable (P : Primitives)

def computeDestinationID (opIPK : Vector Byte 16) (initiatorRandom : Vector Byte 32) (rootPublicKey : List Byte)
    (fabricID nodeID : BitVec 64) : Vector Byte 32 :=
  P.hmac opIPK.toList
    (initiatorRandom.toList ++ rootPublicKey ++ leBytes 8 fabricID.toNat ++ leBytes 8 nodeID.toNat)

def sigma2Salt (ipk responderRandom responderEphPub sigma1Bytes : List Byte) : List Byte :=
  ipk ++ responderRandom ++ responderEphPub ++ (P.sha256 sigma1Bytes).toList

def sigma3Salt (ipk sigma1Bytes sigma2Bytes : List Byte) : List Byte :=
  ipk ++ (P.sha256 (sigma1Bytes ++ sigma2Bytes)).toList

def sessionKeysSalt (ipk sigma1Bytes sigma2Bytes sigma3Bytes : List Byte) : List Byte :=
  ipk ++ (P.sha256 (sigma1Bytes ++ sigma2Bytes ++ sigma3Bytes)).toList

def resumeSalt (random : Vector Byte 32) (resumptionID : List Byte) : List Byte := random.toList ++ resumptionID

/-- `nonceForTBE`, and the nonce of `sealResumeMIC`. -/
def nonceForTBE (label : String) : List Byte := Aesccm.copyTo Aesccm.nonceSize (ascii label)

def nonceTBE2 : List Byte := nonceForTBE "NCASE_Sigma2N"
def nonceTBE3 : List Byte := nonceForTBE "NCASE_Sigma3N"
def nonceResume1MIC : List Byte := nonceForTBE "NCASE_SigmaS1"
def nonceResume2MIC : List Byte := nonceForTBE "NCASE_SigmaS2"

def sealResumeMIC (key : Vector Byte 16) (nonce : List Byte) : Option (List Byte) := P.ccmSeal key nonce []

def verifyResumeMIC (key : Vector Byte 16) (mic nonce : List Byte) : Bool :=
  match sealResumeMIC P key nonce with
  | none => false
  | some computed => computed = mic

/-- `HKDFInfoSigma2` under its salt. -/
def s2k (shared ipk random ephPub sigma1Bytes : List Byte) : Vector Byte 16 :=
  P.hkdf shared (sigma2Salt P ipk random ephPub sigma1Bytes) "Sigma2" 16

/-- `HKDFInfoSigma3` under its salt. -/
def s3k (shared ipk sigma1Bytes sigma2Bytes : List Byte) : Vector Byte 16 :=
  P.hkdf shared (sigma3Salt P ipk sigma1Bytes sigma2Bytes) "Sigma3" 16

/-! ## Points and signatures -/

def validatePoint (b : List Byte) : Bool :=
  b.length = 65 && b.head? = some 0x04 &&
    match P.unmarshalPoint b with
    | none => false
    | some (x, y) => !(x = 0 && y = 0)

/-- `validatePoint`, `ecdh.P256().NewPublicKey`. -/
def readPoint (b : List Byte) : Except Error P.Point :=
  if validatePoint P b then
    match P.newPublicKey b with
    | some p => .ok p
    | none => .error .invalidPoint
  else .error .invalidPoint

def packECDSASig (r s : Nat) : List Byte := beBytes 32 r ++ beBytes 32 s

def unpackECDSASig (sig : List Byte) : Option (Nat × Nat) :=
  if sig.length ≠ 64 then none else some (leNat (sig.take 32).reverse, leNat (sig.drop 32).reverse)

def signTranscript (key : Option P.Signer) (entropy : P.Entropy) (noc icac selfEph peerEph : List Byte) :
    Except Error (List Byte) :=
  match key with
  | none => .error .noSigningKey
  | some key =>
    match P.sign key entropy (P.sha256 (signedDataBytes noc icac selfEph peerEph)) with
    | none => .error .sign
    | some (r, s) =>
      -- at most 256 bits
      if r ≤ 0 ∨ s ≤ 0 ∨ r ≥ 256 ^ 32 ∨ s ≥ 256 ^ 32 then .error .sign
      else .ok (packECDSASig r.toNat s.toNat)

def verifyTranscript (pub : P.Key) (sig noc icac selfEph peerEph : List Byte) : Bool :=
  match unpackECDSASig sig with
  | none => false
  | some (r, s) => P.verify pub (P.sha256 (signedDataBytes noc icac selfEph peerEph)) r s

end

/-! ## The peer's certificate -/

/-- The comparison of the fabric that a certificate names, in `verifySigma3Locked` and
`processSigma2`. -/
def checkFabricID {P : Primitives} (v : PeerVerifier P) (noc : List Byte) (fabricID : BitVec 64) : Except Error Unit :=
  match v.peerFabricIDFromNOC with
  | none => .error .fabricIDMismatch
  | some extract =>
    match extract noc with
    | none => .error .fabricIDMismatch
    | some id => if id = fabricID then .ok () else .error .fabricIDMismatch

/-- The node that a certificate names. -/
def readNodeID {P : Primitives} (v : PeerVerifier P) (noc : List Byte) : Except Error (BitVec 64) :=
  match v.peerNodeIDFromNOC with
  | none => .error .peerIdentityMismatch
  | some extract =>
    match extract noc with
    | none => .error .peerIdentityMismatch
    | some id => .ok id

end GF.Impl.Sigma
