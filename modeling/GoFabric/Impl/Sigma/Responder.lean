import GoFabric.Impl.Sigma.Handshake

/-!
# The responder of CASE (`secure/sigma/protocol.go`)

`Responder` holds what a call reads of the calls before it: not the ephemeral private key, nor
the random, which no later call reads, nor `resume`, which is for display only. What is wired to
it answers from a `World`, the rest of the node as a call finds it; what a call draws from the
random source is its `Draws`. An identity is never nil.
-/

namespace GF.Impl.Sigma

section
variable (P : Primitives) (World : Type)

/-- `IdentityResolver`, with the optional `FabricIndexResolver`. -/
structure IdentityResolver where
  resolveSigma1Destination : World → Vector Byte 32 → Vector Byte 32 → Option (Identity P × PeerVerifier P)
  resolveFabricIndex : Option (World → BitVec 8 → Option (Identity P × PeerVerifier P)) := none

/-- What is wired to a responder. A lookup that fails and one that finds nothing are the same. -/
structure Wiring where
  resumptionStore : Option (World → List Byte → Option ResumptionRecord) := none
  identityResolver : Option (IdentityResolver P World) := none
  sessionIDRenewer : Option (World → BitVec 16 → Option (BitVec 16)) := none
  sessionParams : Option SessionParameters := none

/-- What a call draws from the random source. -/
structure Draws where
  random : Vector Byte 32
  eph : P.Eph
  entropy : P.Entropy
  resumptionID : Vector Byte 16

end

inductive ResponderState
  | init
  | sigma2Sent
  | finished
  | failed
deriving DecidableEq

structure Responder (P : Primitives) where
  identity : Identity P
  verifier : PeerVerifier P
  sessionID : BitVec 16
  ephPubBytes : List Byte := []
  resumptionID : List Byte := []
  sigma1Bytes : List Byte := []
  initEphPub : List Byte := []
  peerSessionID : BitVec 16 := 0
  peerNodeID : BitVec 64 := 0
  peerCATs : List (BitVec 32) := []
  peerSessionParams : Option SessionParameters := none
  sigma2 : Sigma2 := { responderRandom := Vector.replicate 32 0, responderSessionID := 0, responderEphPubKey := []
                       encrypted2 := [] }
  /-- `none` is nil. -/
  sigma2Bytes : Option (List Byte) := none
  shared : List Byte := []
  keys : SessionKeys := ⟨Vector.replicate 16 0, Vector.replicate 16 0, Vector.replicate 16 0⟩
  state : ResponderState := .init

inductive Sigma1ProcessResult
  | sigma2 (m : Sigma2)
  | sigma2Resume (m : Sigma2Resume) (resumeKeys : SessionKeys)

namespace Responder

variable {P : Primitives} {World : Type} (w : Wiring P World) (world : World) (d : Draws P)
  (r : Responder P)

/-- `NewResponder`. -/
def new (identity : Identity P) (verifier : PeerVerifier P) (sessionID : BitVec 16) : Responder P :=
  { identity, verifier, sessionID }

/-- A fresh session id from `sessionIDRenewer`, where one is wired and has one. -/
def renewSessionID : BitVec 16 :=
  (w.sessionIDRenewer.bind fun renew => renew world r.sessionID).getD r.sessionID

/-- What the default case of `processSigma1Locked` resets. -/
def reset : Responder P :=
  new r.identity r.verifier (r.renewSessionID w world)

/-- Whether `processSigma1Locked` answers with the Sigma2 that it cached. -/
def replays (b : List Byte) : Bool :=
  r.state ≠ .init && r.state ≠ .failed && r.sigma1Bytes = b && r.sigma2Bytes.isSome

/-- The identity for a Sigma1. -/
def select (m : Sigma1) : Option (Identity P × PeerVerifier P) :=
  match w.identityResolver with
  | none => some (r.identity, r.verifier)
  | some resolver => resolver.resolveSigma1Destination world m.destinationID m.initiatorRandom

/-- `processSigma1Locked` from `UnmarshalSigma1` on. -/
def answerSigma1 (b : List Byte) : Except Error Sigma2 × Responder P :=
  match unmarshalSigma1 b with
  | .error e => (.error (.codec e), r)
  | .ok m =>
    let r := { r with peerSessionParams := m.initiatorSessionParams }
    match r.select w world m with
    | none => (.error .noSharedTrustRoots, { r with state := .failed })
    | some (identity, verifier) =>
      let r :=
        { r with
          identity, verifier, sigma1Bytes := b, initEphPub := m.initiatorEphPubKey
          peerSessionID := m.initiatorSessionID }
      match readPoint P m.initiatorEphPubKey with
      | .error e => (.error e, r)
      | .ok peer =>
        let r := { r with ephPubBytes := (P.ephPub d.eph).toList }
        match P.ecdh d.eph peer with
        | none => (.error .ecdh, { r with shared := [] })
        | some shared =>
          let r := { r with shared }
          match signTranscript P identity.signingKey d.entropy identity.noc identity.icac r.ephPubBytes
            m.initiatorEphPubKey with
          | .error e => (.error e, r)
          | .ok mySig =>
            let r := { r with resumptionID := d.resumptionID.toList }
            let tbe2 : TBE2Plaintext :=
              { responderNOC := identity.noc, responderICAC := identity.icac, signature := mySig
                resumptionID := r.resumptionID }
            let key := s2k P shared identity.ipk.toList d.random.toList r.ephPubBytes b
            match P.ccmSeal key nonceTBE2 (marshalTBE2 tbe2) with
            | none => (.error .sealFailed, r)
            | some enc2 =>
              let sigma2 : Sigma2 :=
                { responderRandom := d.random, responderSessionID := r.sessionID
                  responderEphPubKey := r.ephPubBytes, encrypted2 := enc2, sessionParams := w.sessionParams }
              (.ok sigma2, { r with sigma2, sigma2Bytes := some sigma2.marshal, state := .sigma2Sent })

def processSigma1Locked (b : List Byte) : Except Error Sigma2 × Responder P :=
  if r.replays b then (.ok r.sigma2, r)
  else answerSigma1 w world d (if r.state = .init then r else r.reset w world) b

def processSigma1 (b : List Byte) : Except Error Sigma2 × Responder P :=
  r.processSigma1Locked w world d b

/-- The identity for the fabric of a resumption record. -/
def selectFabric (fabricIndex : BitVec 8) : Option (Identity P × PeerVerifier P) :=
  match w.identityResolver.bind (·.resolveFabricIndex) with
  | none => some (r.identity, r.verifier)
  | some resolve => resolve world fabricIndex

/-- `tryResume` behind the store's answer: `none` falls through to the full handshake. -/
def resumeFrom (m : Sigma1) (rec : ResumptionRecord) : Option (Except Error Sigma1ProcessResult × Responder P) :=
  let sr1Salt := m.initiatorRandom.toList ++ m.resumptionID
  let peerResumeKey := P.hkdf rec.sharedSecret sr1Salt "Sigma1_Resume" 16
  if verifyResumeMIC P peerResumeKey m.initiatorResumeMIC nonceResume1MIC then
    match r.selectFabric w world rec.fabricIndex with
    | none => none
    | some (identity, verifier) =>
      let r := { r with identity, verifier }
      let freshResumptionID := d.resumptionID.toList
      let sr2Salt := m.initiatorRandom.toList ++ freshResumptionID
      let resumeKey := P.hkdf rec.sharedSecret sr2Salt "Sigma2_Resume" 16
      match sealResumeMIC P resumeKey nonceResume2MIC with
      | none => some (.error .sealFailed, r)
      | some sigma2ResumeMIC =>
        let keySalt := m.initiatorRandom.toList ++ m.resumptionID
        let finalMat := P.hkdf rec.sharedSecret keySalt "SessionResumptionKeys" 48
        let keys : SessionKeys :=
          { i2rKey := finalMat.extract 0 16, r2iKey := finalMat.extract 16 32
            attestationChallenge := finalMat.extract 32 48 }
        let s2r : Sigma2Resume :=
          { resumptionID := freshResumptionID, sigma2ResumeMIC, responderSessionID := r.sessionID
            sessionParams := w.sessionParams }
        some (.ok (.sigma2Resume s2r keys),
          { r with
            peerSessionID := m.initiatorSessionID, peerNodeID := rec.peerNodeID, peerCATs := rec.peerCATs
            shared := rec.sharedSecret, resumptionID := freshResumptionID, keys, state := .finished })
  else none

def tryResume (store : World → List Byte → Option ResumptionRecord) (r : Responder P) (m : Sigma1) :
    Option (Except Error Sigma1ProcessResult × Responder P) :=
  match store world m.resumptionID with
  | none => none
  | some rec => r.resumeFrom w world d m rec

/-- `processSigma1Locked` as `ProcessSigma1WithResume` returns it. -/
def fullSigma (b : List Byte) : Except Error Sigma1ProcessResult × Responder P :=
  ((r.processSigma1Locked w world d b).1.map .sigma2, (r.processSigma1Locked w world d b).2)

def processSigma1WithResume (b : List Byte) : Except Error Sigma1ProcessResult × Responder P :=
  match unmarshalSigma1 b with
  | .error e => (.error (.codec e), r)
  | .ok m =>
    let r := { r with peerSessionParams := m.initiatorSessionParams }
    match w.resumptionStore with
    | none => r.fullSigma w world d b
    | some store =>
      if m.resumptionID.length = 16 ∧ m.initiatorResumeMIC.length = 16 then
        -- a second session on this exchange takes a fresh id
        let r := if r.state = .finished then { r with sessionID := r.renewSessionID w world } else r
        (r.tryResume w world d store m).getD (r.fullSigma w world d b)
      else r.fullSigma w world d b

/-- `verifySigma3Locked`: nothing is stored before the last check. -/
def verifySigma3Locked (b : List Byte) : Except Error (Responder P) := do
  let sigma3 ← (unmarshalSigma3 b).mapError .codec
  let sigma2Bytes := r.sigma2Bytes.getD []
  let key := s3k P r.shared r.identity.ipk.toList r.sigma1Bytes sigma2Bytes
  let some plain := P.ccmOpen key nonceTBE3 sigma3.encrypted3 | throw .unauthenticated
  let tbe3 ← (unmarshalTBE3 plain).mapError .codec
  let some initOpPub := r.verifier.verifyAndExtractPubKey tbe3.initiatorNOC tbe3.initiatorICAC
    | throw .signatureInvalid
  checkFabricID r.verifier tbe3.initiatorNOC r.identity.fabricID
  if verifyTranscript P initOpPub tbe3.signature tbe3.initiatorNOC tbe3.initiatorICAC r.initEphPub r.ephPubBytes then
    let peerNodeID ← readNodeID r.verifier tbe3.initiatorNOC
    let final := P.hkdf r.shared (sessionKeysSalt P r.identity.ipk.toList r.sigma1Bytes sigma2Bytes b) "SessionKeys" 48
    pure
      { r with
        peerNodeID, peerCATs := r.verifier.catsOf tbe3.initiatorNOC
        keys.i2rKey := final.extract 0 16
        keys.r2iKey := final.extract 16 32
        keys.attestationChallenge := final.extract 32 48 }
  else throw .signatureInvalid

def processSigma3 (b : List Byte) : Except Error Unit × Responder P :=
  if r.state = .finished then (.ok (), r)
  else if r.state ≠ .sigma2Sent then (.error .sessionState, r)
  else
    match r.verifySigma3Locked b with
    | .error e => (.error e, { r with state := .failed })
    | .ok r => (.ok (), { r with state := .finished })

/-! ## Accessors -/

def sessionKeys? : Option SessionKeys := if r.state = .finished then some r.keys else none

def sessionIdentity : Option (BitVec 8 × BitVec 64) :=
  if r.state = .init then none else some (r.identity.fabricIndex, r.identity.nodeID)

end Responder

end GF.Impl.Sigma
