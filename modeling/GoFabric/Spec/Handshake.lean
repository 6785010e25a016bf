import GoFabric.Impl.Sigma.Initiator
import GoFabric.Impl.Sigma.Responder

/-!
# Handshakes

The calls on one responder are a system, with the calls so far and their replies kept
beside the responder. An `Exchange` is what a Sigma1 and the Sigma2 that answered it fix:
the identity, the ephemeral key and the shared secret. What a responder accepts is judged by
the last exchange, by the verifier of its identity and by the primitives.
-/

namespace GF.Spec.Handshake

open GF.Impl.Sigma

variable {P : Primitives} {World : Type} (w : Wiring P World)

/-! ## Keys -/

section
variable (P : Primitives)

/-- The final key material, cut in three. -/
def cutKeys (final : Vector Byte 48) : SessionKeys where
  i2rKey := Vector.ofFn fun i => final.get (i.castLE (by omega))
  r2iKey := Vector.ofFn fun i => final.get (i.natAdd 16 |>.castLE (by omega))
  attestationChallenge := Vector.ofFn fun i => final.get (i.natAdd 32 |>.castLE (by omega))

/-- `HKDFInfoSessionKeys` under its salt. -/
def sessionKeys (shared ipk sigma1Bytes sigma2Bytes sigma3Bytes : List Byte) : SessionKeys :=
  cutKeys (P.hkdf shared (sessionKeysSalt P ipk sigma1Bytes sigma2Bytes sigma3Bytes) "SessionKeys" 48)

/-- `HKDFInfoSigma1Resume`. -/
abbrev sigma1ResumeKey (shared : List Byte) (random : Vector Byte 32) (resumptionID : List Byte) : Vector Byte 16 :=
  P.hkdf shared (random.toList ++ resumptionID) "Sigma1_Resume" 16

/-- `HKDFInfoSigma2Resume`. -/
abbrev sigma2ResumeKey (shared : List Byte) (random : Vector Byte 32) (resumptionID : List Byte) : Vector Byte 16 :=
  P.hkdf shared (random.toList ++ resumptionID) "Sigma2_Resume" 16

/-- `HKDFInfoSessionResumptionKeys`. -/
def resumedKeys (shared : List Byte) (random : Vector Byte 32) (resumptionID : List Byte) : SessionKeys :=
  cutKeys (P.hkdf shared (random.toList ++ resumptionID) "SessionResumptionKeys" 48)

end

/-! ## Exchanges -/

/-- What a Sigma1 and the Sigma2 that answered it fix. -/
structure Exchange (P : Primitives) where
  sigma1Bytes : List Byte
  msg : Sigma1
  identity : Identity P
  verifier : PeerVerifier P
  eph : P.Eph
  shared : List Byte
  sigma2 : Sigma2

/-- The exchange comes from a Sigma1 on a responder that is `r`. -/
structure Made (w : Wiring P World) (world : World) (d : Draws P) (r : Responder P) (x : Exchange P) : Prop where
  parsed : unmarshalSigma1 x.sigma1Bytes = .ok x.msg
  selected : r.select w world x.msg = some (x.identity, x.verifier)
  drawn : x.eph = d.eph
  agreed : ∃ point, readPoint P x.msg.initiatorEphPubKey = .ok point ∧ P.ecdh x.eph point = some x.shared
  announced : x.sigma2.responderEphPubKey = (P.ephPub x.eph).toList

/-- A Sigma3 opens under the key of the exchange to a certificate chain that the verifier
accepts, on the fabric of the exchange, with a signature of both ephemeral keys. -/
structure Authentic (x : Exchange P) (b : List Byte) (tbe3 : TBE3Plaintext) : Prop where
  opens : ∃ m plain, unmarshalSigma3 b = .ok m ∧
    P.ccmOpen (s3k P x.shared x.identity.ipk.toList x.sigma1Bytes x.sigma2.marshal) nonceTBE3 m.encrypted3 =
      some plain ∧
    unmarshalTBE3 plain = .ok tbe3
  signed : ∃ key r s, x.verifier.verifyAndExtractPubKey tbe3.initiatorNOC tbe3.initiatorICAC = some key ∧
    unpackECDSASig tbe3.signature = some (r, s) ∧
    P.verify key (P.sha256 (signedDataBytes tbe3.initiatorNOC tbe3.initiatorICAC x.msg.initiatorEphPubKey
      (P.ephPub x.eph).toList)) r s = true
  fabric : x.verifier.peerFabricIDFromNOC.bind (· tbe3.initiatorNOC) = some x.identity.fabricID

/-! ## Calls -/

inductive Call (P : Primitives) (World : Type)
  | sigma1 (world : World) (d : Draws P) (b : List Byte)
  | sigma1WithResume (world : World) (d : Draws P) (b : List Byte)
  | sigma3 (b : List Byte)

inductive Reply
  | sigma1 (result : Except Error Sigma1ProcessResult)
  | sigma3 (result : Except Error Unit)

def Reply.sigma2? : Reply → Option Sigma2
  | .sigma1 (.ok (.sigma2 m)) => some m
  | _ => none

def call (w : Wiring P World) (r : Responder P) : Call P World → Reply × Responder P
  | .sigma1 world d b =>
    (.sigma1 ((r.processSigma1 w world d b).1.map .sigma2), (r.processSigma1 w world d b).2)
  | .sigma1WithResume world d b =>
    (.sigma1 (r.processSigma1WithResume w world d b).1, (r.processSigma1WithResume w world d b).2)
  | .sigma3 b => (.sigma3 (r.processSigma3 b).1, (r.processSigma3 b).2)

/-- A call that was made, with the responder that it found. -/
structure Event (P : Primitives) (World : Type) where
  before : Responder P
  call : Call P World
  reply : Reply

/-- A responder and the calls so far, the latest first. -/
structure Watched (P : Primitives) (World : Type) where
  responder : Responder P
  history : List (Event P World)

def Watched.next (s : Watched P World) (c : Call P World) : Watched P World :=
  ⟨(call w s.responder c).2, ⟨s.responder, c, (call w s.responder c).1⟩ :: s.history⟩

def calls : System (Watched P World) (Call P World) where
  step s c := some (s.next w c)

def Watched.start (r : Responder P) : Watched P World := ⟨r, []⟩

def Event.Makes (e : Event P World) (x : Exchange P) : Prop :=
  e.reply.sigma2? = some x.sigma2 ∧ e.before.replays x.sigma1Bytes = false ∧
    ∃ world d, (e.call = .sigma1 world d x.sigma1Bytes ∨ e.call = .sigma1WithResume world d x.sigma1Bytes) ∧
      Made w world d e.before x

/-- The event answered the exchange's Sigma1 with its Sigma2 again. -/
def Event.Repeats (e : Event P World) (x : Exchange P) : Prop :=
  e.reply.sigma2? = some x.sigma2 ∧ e.before.replays x.sigma1Bytes = true ∧
    ∃ world d, e.call = .sigma1 world d x.sigma1Bytes ∨ e.call = .sigma1WithResume world d x.sigma1Bytes

/-- The exchange is the one of the Sigma1 and the Sigma2 that were last exchanged. -/
inductive Exchanged (w : Wiring P World) : List (Event P World) → Exchange P → Prop
  | made {e h x} : e.Makes w x → Exchanged w (e :: h) x
  | repeated {e h x} : Exchanged w h x → e.Repeats x → Exchanged w (e :: h) x
  | other {e h x} : Exchanged w h x → e.reply.sigma2? = none → Exchanged w (e :: h) x

/-- The Sigma3 was accepted when the exchange was the last one. -/
def Accepted (w : Wiring P World) : List (Event P World) → Exchange P → List Byte → Prop
  | [], _, _ => False
  | e :: h, x, b =>
    (e.before.state = .sigma2Sent ∧ e.call = .sigma3 b ∧ e.reply = .sigma3 (.ok ()) ∧ Exchanged w h x) ∨
      Accepted w h x b

/-! ## Sessions -/

/-- What a finished responder reports. -/
structure Session where
  keys : SessionKeys
  peerNodeID : BitVec 64
  peerCATs : List (BitVec 32)
  peerSessionID : BitVec 16
  sessionIdentity : Option (BitVec 8 × BitVec 64)
  shared : List Byte

/-- What `PeerNodeID`, `PeerCATs`, `PeerSessionID`, `SessionIdentity` and `ECDHSharedSecret` report
when `SessionKeys` reports keys. -/
def session? (r : Responder P) : Option Session :=
  r.sessionKeys?.map fun keys =>
    { keys, peerNodeID := r.peerNodeID, peerCATs := r.peerCATs, peerSessionID := r.peerSessionID
      sessionIdentity := r.sessionIdentity, shared := r.shared }

/-- The session of an exchange and its Sigma3. -/
def fullSession (x : Exchange P) (b : List Byte) (tbe3 : TBE3Plaintext) (nodeID : BitVec 64) : Session where
  keys := sessionKeys P x.shared x.identity.ipk.toList x.sigma1Bytes x.sigma2.marshal b
  peerNodeID := nodeID
  peerCATs := x.verifier.catsOf tbe3.initiatorNOC
  peerSessionID := x.msg.initiatorSessionID
  sessionIdentity := some (x.identity.fabricIndex, x.identity.nodeID)
  shared := x.shared

/-- The session of a Sigma1 that was resumed from a record. -/
def resumedSession (m : Sigma1) (rec : ResumptionRecord) (identity : Identity P) : Session where
  keys := resumedKeys P rec.sharedSecret m.initiatorRandom m.resumptionID
  peerNodeID := rec.peerNodeID
  peerCATs := rec.peerCATs
  peerSessionID := m.initiatorSessionID
  sessionIdentity := some (identity.fabricIndex, identity.nodeID)
  shared := rec.sharedSecret

/-- The session is the one of a Sigma3 that was accepted for an exchange. -/
def OfSigma3 (h : List (Event P World)) (s : Session) : Prop :=
  ∃ x b tbe3 nodeID, Accepted w h x b ∧ Authentic x b tbe3 ∧
    x.verifier.peerNodeIDFromNOC.bind (· tbe3.initiatorNOC) = some nodeID ∧ s = fullSession x b tbe3 nodeID

/-- The session is the one of a Sigma1 whose resumption was granted: its record was found, its
proof verified, and the identity is that of the record's fabric, or the responder's own where
nothing resolves fabric indices. -/
def OfResumption (r₀ : Responder P) (h : List (Event P World)) (s : Session) : Prop :=
  ∃ e ∈ h, ∃ world d b m store rec identity verifier,
    e.call = .sigma1WithResume world d b ∧ unmarshalSigma1 b = .ok m ∧ w.resumptionStore = some store ∧
    store world m.resumptionID = some rec ∧
    P.ccmSeal (sigma1ResumeKey P rec.sharedSecret m.initiatorRandom m.resumptionID) nonceResume1MIC [] =
      some m.initiatorResumeMIC ∧
    r₀.selectFabric w world rec.fabricIndex = some (identity, verifier) ∧ s = resumedSession (P := P) m rec identity

/-- The session stems from one handshake. -/
def Stems (r₀ : Responder P) (h : List (Event P World)) (s : Session) : Prop :=
  OfSigma3 w h s ∨ OfResumption w r₀ h s

/-- What is asked of a call. A responder that is finished takes any Sigma3 for the one it
accepted; a resolver that resolves no fabric indices leaves a resumed session under the identity
of an earlier Sigma1. -/
def Sound (r₀ : Responder P) (s : Watched P World) : Call P World → Prop
  | .sigma1 _ _ _ => True
  | .sigma1WithResume _ _ _ =>
    w.identityResolver.all (·.resolveFabricIndex.isSome) = true ∨ s.responder.identity = r₀.identity
  | .sigma3 b => s.responder.state = .finished → ∃ x, Exchanged w s.history x ∧ Accepted w s.history x b

/-- Every Sigma3 that was answered with success was authentic for the Sigma1 and the Sigma2
that were last exchanged, or the one that was accepted for them. -/
def Vouches (w : Wiring P World) : List (Event P World) → Prop
  | [] => True
  | e :: h =>
    (∀ b, e.call = .sigma3 b → e.reply = .sigma3 (.ok ()) →
      ∃ x, Exchanged w h x ∧ ((∃ tbe3, Authentic x b tbe3) ∨ Accepted w h x b)) ∧ Vouches w h

/-! ## Honest parties -/

/-- The primitives do what they are for. `pub` is the public key of a signing key; AES-CCM is asked
for texts of up to `limit` bytes only. -/
structure Works (P : Primitives) (pub : P.Signer → P.Key) (limit : Nat) : Prop where
  /-- The points that key generation gives are valid. -/
  point : ∀ eph, ∃ point, readPoint P (P.ephPub eph).toList = .ok point
  ecdh : ∀ a b pa pb, readPoint P (P.ephPub a).toList = .ok pa → readPoint P (P.ephPub b).toList = .ok pb →
    ∃ shared, shared ≠ [] ∧ P.ecdh a pb = some shared ∧ P.ecdh b pa = some shared
  sign : ∀ signer entropy digest, ∃ r s : Nat, 0 < r ∧ 0 < s ∧ r < 256 ^ 32 ∧ s < 256 ^ 32 ∧
    P.sign signer entropy digest = some ((r : Int), (s : Int)) ∧ P.verify (pub signer) digest r s = true
  /-- `Open` inverts `Seal`, which appends a tag of 16 bytes. -/
  open_seal : ∀ key nonce text, nonce.length = Impl.Aesccm.nonceSize → text.length ≤ limit →
    ∃ sealed, P.ccmSeal key nonce text = some sealed ∧ P.ccmOpen key nonce sealed = some text ∧
      sealed.length = text.length + 16

/-- A verifier accepts the certificates of an identity and reads its node and fabric from them. -/
structure Accepts (pub : P.Signer → P.Key) (v : PeerVerifier P) (id : Identity P) : Prop where
  chain : ∃ signer, id.signingKey = some signer ∧ v.verifyAndExtractPubKey id.noc id.icac = some (pub signer)
  node : v.peerNodeIDFromNOC.bind (· id.noc) = some id.nodeID
  fabric : v.peerFabricIDFromNOC.bind (· id.noc) = some id.fabricID

/-- The certificates fit in one sealed text, beside a signature and a resumption id. -/
def FitsIn (limit : Nat) (id : Identity P) : Prop := id.noc.length + id.icac.length + 122 ≤ limit

/-- Two identities of one fabric, each with a verifier that accepts the other. -/
structure Fellows (pub : P.Signer → P.Key) (limit : Nat) (own : Identity P) (ownVerifier : PeerVerifier P)
    (peer : Identity P) (peerVerifier : PeerVerifier P) : Prop where
  ipk : own.ipk = peer.ipk
  fabricID : own.fabricID = peer.fabricID
  acceptsPeer : Accepts pub ownVerifier peer
  acceptsOwn : Accepts pub peerVerifier own
  fits : FitsIn limit own ∧ FitsIn limit peer

/-- The responder does not resume from the record that it finds for a Sigma1: its fabric is gone,
or its secret is not the one of the Sigma1. -/
def Declines (world : World) (r : Responder P) (m : Sigma1) : Prop :=
  ∀ store rec, w.resumptionStore = some store → m.resumptionID.length = 16 → store world m.resumptionID = some rec →
    r.selectFabric w world rec.fabricIndex = none ∨
      P.ccmSeal (sigma1ResumeKey P rec.sharedSecret m.initiatorRandom m.resumptionID) nonceResume1MIC [] ≠
        some m.initiatorResumeMIC

/-- Both sides ended with the same session, which the initiator reports as `res`. -/
structure Agree (i : Initiator P) (r : Responder P) (own peer : Identity P) (res : InitiatorResult) : Prop where
  result : i.result = some res
  keys : r.sessionKeys? = some res.keys
  shared : r.shared = res.sharedSecret
  resumptionID : r.resumptionID = res.resumptionID
  sessionIDs : res.peerSessionID = r.sessionID ∧ r.peerSessionID = i.sessionID
  nodeIDs : res.peerNodeID = peer.nodeID ∧ r.peerNodeID = own.nodeID

end GF.Spec.Handshake
