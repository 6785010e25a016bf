import GoFabric.Impl.Sigma.Handshake

/-!
# The initiator of CASE (`secure/sigma/initiator.go`)

An `Initiator` of `NewPeerInitiator`, which reaches a node on its own fabric.
-/

namespace GF.Impl.Sigma

structure InitiatorConfig (P : Primitives) where
  identity : Option (Identity P)
  verifier : Option (PeerVerifier P)
  sessionID : BitVec 16
  peerNodeID : BitVec 64
  rootPublicKey : List Byte
  resumption : Option ResumptionRecord := none
  sessionParams : Option SessionParameters := none

inductive InitiatorState
  | init
  | sigma1Sent
  | finished
  | failed
deriving DecidableEq

/-- `Initiator`, with `ephPriv` from `GenerateSigma1` on. -/
structure Initiator (P : Primitives) where
  identity : Identity P
  verifier : PeerVerifier P
  sessionID : BitVec 16
  peerNodeID : BitVec 64
  rootPublicKey : List Byte
  resumption : Option ResumptionRecord := none
  sessionParams : Option SessionParameters := none
  ephPriv : Option P.Eph := none
  ephPubBytes : List Byte := []
  random : Vector Byte 32 := Vector.replicate 32 0
  sigma1Bytes : List Byte := []
  keys : SessionKeys := ⟨Vector.replicate 16 0, Vector.replicate 16 0, Vector.replicate 16 0⟩
  state : InitiatorState := .init
  peerSessionID : BitVec 16 := 0
  peerSessionParams : Option SessionParameters := none
  peerCATs : List (BitVec 32) := []
  shared : List Byte := []
  resumptionID : List Byte := []
  resumed : Bool := false

structure InitiatorResult where
  keys : SessionKeys
  peerSessionID : BitVec 16
  peerNodeID : BitVec 64
  peerCATs : List (BitVec 32)
  peerSessionParams : Option SessionParameters
  resumed : Bool
  sharedSecret : List Byte
  resumptionID : List Byte

variable {P : Primitives}

def newPeerInitiator (cfg : InitiatorConfig P) : Except Error (Initiator P) := do
  let some identity := cfg.identity | throw .needsIdentity
  if identity.signingKey.isNone then throw .needsIdentity
  let some verifier := cfg.verifier | throw .needsVerifier
  if cfg.rootPublicKey.isEmpty then throw .needsRootPublicKey
  if verifier.peerNodeIDFromNOC.isNone then throw .needsVerifier
  if verifier.peerFabricIDFromNOC.isNone then throw .needsVerifier
  pure
    { identity, verifier, sessionID := cfg.sessionID, peerNodeID := cfg.peerNodeID
      rootPublicKey := cfg.rootPublicKey
      resumption := cfg.resumption.filter fun rec => !rec.sharedSecret.isEmpty && rec.resumptionID.length = 16
      sessionParams := cfg.sessionParams.filter fun p => !p.isEmpty }

namespace Initiator

variable (i : Initiator P)

/-- The resumption id and `initiatorResumeMIC` of a Sigma1; both are absent without a record. -/
def offer (random : Vector Byte 32) : Except Error (List Byte × List Byte) :=
  match i.resumption with
  | none => .ok ([], [])
  | some rec =>
    let key := P.hkdf rec.sharedSecret (resumeSalt random rec.resumptionID) "Sigma1_Resume" 16
    match sealResumeMIC P key nonceResume1MIC with
    | none => .error .sealFailed
    | some mic => .ok (rec.resumptionID, mic)

/-- `GenerateSigma1`, with the random and the ephemeral key that it draws. -/
def generateSigma1 (random : Vector Byte 32) (eph : P.Eph) : Except Error (List Byte) × Initiator P :=
  if i.state ≠ .init then (.error .sessionState, i)
  else
    let i := { i with random, ephPriv := some eph, ephPubBytes := (P.ephPub eph).toList }
    let dest := computeDestinationID P i.identity.ipk random i.rootPublicKey i.identity.fabricID i.peerNodeID
    match i.offer random with
    | .error e => (.error e, i)
    | .ok (resumptionID, mic) =>
      let msg : Sigma1 :=
        { initiatorRandom := random, initiatorSessionID := i.sessionID, destinationID := dest
          initiatorEphPubKey := i.ephPubBytes, resumptionID, initiatorResumeMIC := mic
          initiatorSessionParams := i.sessionParams }
      (.ok msg.marshal, { i with sigma1Bytes := msg.marshal, state := .sigma1Sent })

/-- What `processSigma2` computes: Sigma3, and the initiator as it then is. -/
def answerSigma2 (entropy : P.Entropy) (m : Sigma2) (raw : List Byte) : Except Error (List Byte × Initiator P) := do
  let respECDH ← readPoint P m.responderEphPubKey
  let some shared := i.ephPriv.bind fun eph => P.ecdh eph respECDH | throw .ecdh
  let key2 := s2k P shared i.identity.ipk.toList m.responderRandom.toList m.responderEphPubKey i.sigma1Bytes
  let some plain := P.ccmOpen key2 nonceTBE2 m.encrypted2 | throw .unauthenticated
  let tbe2 ← (unmarshalTBE2 plain).mapError .codec
  let some respOpPub := i.verifier.verifyAndExtractPubKey tbe2.responderNOC tbe2.responderICAC
    | throw .signatureInvalid
  if !verifyTranscript P respOpPub tbe2.signature tbe2.responderNOC tbe2.responderICAC m.responderEphPubKey
    i.ephPubBytes then throw .signatureInvalid
  let nodeID ← readNodeID i.verifier tbe2.responderNOC
  if nodeID ≠ i.peerNodeID then throw .peerIdentityMismatch
  checkFabricID i.verifier tbe2.responderNOC i.identity.fabricID
  let mySig ← signTranscript P i.identity.signingKey entropy i.identity.noc i.identity.icac i.ephPubBytes
    m.responderEphPubKey
  let tbe3 : TBE3Plaintext :=
    { initiatorNOC := i.identity.noc, initiatorICAC := i.identity.icac, signature := mySig }
  let key3 := s3k P shared i.identity.ipk.toList i.sigma1Bytes raw
  let some enc3 := P.ccmSeal key3 nonceTBE3 (marshalTBE3 tbe3) | throw .sealFailed
  let sigma3 := Sigma3.marshal { encrypted3 := enc3 }
  let final := P.hkdf shared (sessionKeysSalt P i.identity.ipk.toList i.sigma1Bytes raw sigma3) "SessionKeys" 48
  pure (sigma3,
    { i with
      keys.i2rKey := final.extract 0 16
      keys.r2iKey := final.extract 16 32
      keys.attestationChallenge := final.extract 32 48
      peerSessionID := m.responderSessionID
      peerSessionParams := m.sessionParams.or i.peerSessionParams
      peerCATs := i.verifier.catsOf tbe2.responderNOC, shared, resumptionID := tbe2.resumptionID
      resumed := false, state := .finished })

def processSigma2 (entropy : P.Entropy) (m : Sigma2) (raw : List Byte) : Except Error (List Byte) × Initiator P :=
  if i.state ≠ .sigma1Sent then (.error .sessionState, i)
  else
    match i.answerSigma2 entropy m raw with
    | .error e => (.error e, { i with state := .failed })
    | .ok (sigma3, i) => (.ok sigma3, i)

def processSigma2Bytes (entropy : P.Entropy) (raw : List Byte) : Except Error (List Byte) × Initiator P :=
  match unmarshalSigma2 raw with
  | .error e => (.error (.codec e), i)
  | .ok m => i.processSigma2 entropy m raw

/-- What `ProcessSigma2Resume` computes. -/
def answerSigma2Resume (raw : List Byte) : Except Error (Initiator P) := do
  let some rec := i.resumption | throw .unexpectedSigma2Resume
  let s2r ← (unmarshalSigma2Resume raw).mapError .codec
  let resumeKey := P.hkdf rec.sharedSecret (resumeSalt i.random s2r.resumptionID) "Sigma2_Resume" 16
  if !verifyResumeMIC P resumeKey s2r.sigma2ResumeMIC nonceResume2MIC then throw .unauthenticated
  let final := P.hkdf rec.sharedSecret (resumeSalt i.random rec.resumptionID) "SessionResumptionKeys" 48
  pure
    { i with
      keys.i2rKey := final.extract 0 16
      keys.r2iKey := final.extract 16 32
      keys.attestationChallenge := final.extract 32 48
      peerSessionID := s2r.responderSessionID
      peerSessionParams := s2r.sessionParams.or i.peerSessionParams
      peerCATs := rec.peerCATs, shared := rec.sharedSecret, resumptionID := s2r.resumptionID
      resumed := true, state := .finished }

def processSigma2Resume (raw : List Byte) : Except Error Unit × Initiator P :=
  if i.state ≠ .sigma1Sent then (.error .sessionState, i)
  else
    match i.answerSigma2Resume raw with
    | .error e => (.error e, { i with state := .failed })
    | .ok i => (.ok (), i)

def result : Option InitiatorResult :=
  if i.state ≠ .finished then none
  else
    some
      { keys := i.keys, peerSessionID := i.peerSessionID, peerNodeID := i.peerNodeID, peerCATs := i.peerCATs
        peerSessionParams := i.peerSessionParams, resumed := i.resumed, sharedSecret := i.shared
        resumptionID := i.resumptionID }

end Initiator

end GF.Impl.Sigma
