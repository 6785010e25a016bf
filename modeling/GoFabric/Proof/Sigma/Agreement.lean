import GoFabric.Proof.Aesccm
import GoFabric.Proof.Sigma.Codec
import GoFabric.Proof.Sigma.Responder
import Mathlib.Data.BitVec
import Mathlib.Data.Vector.Defs

/-!
# An honest handshake agrees

What the two sides of a handshake compute meets message by message: the responder reads the
initiator's Sigma1 (`unmarshalSigma1_marshal`), both derive one shared secret, and each opens and
verifies what the other sealed and signed. The salts and the signed data have the same bytes on
both sides because each hashes what the other sent. A resumed handshake does the same from the
record that the first one left on both sides.
-/

namespace GF.Proof.Sigma

open GF.Impl.Sigma GF.Spec.Handshake GF.Proof.Tlv Option
open GF.Impl.Tlv (Encoder)
open List hiding Vector

variable {f : Encoder → Option Encoder} {n : Nat} {b : List Byte} {World : Type} {m : Sigma1} {rec : ResumptionRecord}

/-! ## Lengths -/

def Within (f : Encoder → Option Encoder) (n : Nat) : Prop := ∃ bs, Appends f bs ∧ bs.length ≤ n

theorem within_bind {k : Encoder → Option Encoder} {m : Nat} (hf : Within f n) (hk : Within k m) :
    Within (fun e => f e >>= k) (n + m) := by
  obtain ⟨bs, happ, hlen⟩ := hf
  obtain ⟨bs', happ', hlen'⟩ := hk
  exact ⟨_, appends_bind happ happ', by rw [length_append]; omega⟩

theorem length_headWire_context (t : Impl.Tlv.ElementType) (n : BitVec 8) :
    (headWire t (Impl.Tlv.contextTag n)).length = 2 := rfl

theorem within_octets (n : BitVec 8) (hb : b.length < 2 ^ 64) : Within (putOctets n b) (b.length + 10) := by
  refine ⟨_, appends_putOctets (Impl.Tlv.contextTag n) hb, ?_⟩
  have hwidth : lengthWidth b.length ≤ 8 := by
    unfold lengthWidth
    split_ifs <;> omega
  simp only [octetsWire, length_append, length_headWire_context, length_leBytes]
  omega

theorem within_putIf {c : Bool} (hf : Within f n) : Within (Impl.Im.Wire.putIf c f) n := by
  obtain ⟨bs, happ, hlen⟩ := hf
  refine ⟨_, appends_putIf fun _ => happ, ?_⟩
  split
  · exact hlen
  · exact Nat.zero_le n

theorem length_structBytes_le (hf : Within f n) : (structBytes f).length ≤ n + 2 := by
  obtain ⟨bs, happ, hlen⟩ := hf
  have hbytes : structBytes f = containerWire .struct Impl.Tlv.anonymousTag bs :=
    congrArg (fun o => (Option.map Encoder.buf o).getD [])
      (appends_container Impl.Tlv.anonymousTag (by decide) (finishes_last happ) Encoder.new (by decide))
  rw [hbytes]
  show (_ :: ([] ++ bs ++ [_])).length ≤ n + 2
  simp only [length_cons, length_append, length_nil]
  omega

theorem length_marshalTBE2_le {p : TBE2Plaintext} (hnoc : p.responderNOC.length < 2 ^ 64)
    (hicac : p.responderICAC.length < 2 ^ 64) (hsig : p.signature.length < 2 ^ 64)
    (hid : p.resumptionID.length < 2 ^ 64) :
    (marshalTBE2 p).length ≤
      p.responderNOC.length + p.responderICAC.length + p.signature.length + p.resumptionID.length + 42 := by
  have h := length_structBytes_le <| within_bind (within_octets 1 hnoc) <|
    within_bind (within_putIf (c := !p.responderICAC.isEmpty) (within_octets 2 hicac)) <|
    within_bind (within_octets 3 hsig) (within_octets 4 hid)
  have hlen : (marshalTBE2 p).length ≤ _ := h
  omega

theorem length_marshalTBE3_le {p : TBE3Plaintext} (hnoc : p.initiatorNOC.length < 2 ^ 64)
    (hicac : p.initiatorICAC.length < 2 ^ 64) (hsig : p.signature.length < 2 ^ 64) :
    (marshalTBE3 p).length ≤ p.initiatorNOC.length + p.initiatorICAC.length + p.signature.length + 32 := by
  have h := length_structBytes_le <| within_bind (within_octets 1 hnoc) <|
    within_bind (within_putIf (c := !p.initiatorICAC.isEmpty) (within_octets 2 hicac)) (within_octets 3 hsig)
  have hlen : (marshalTBE3 p).length ≤ _ := h
  omega

section
variable {P : Primitives} {pub : P.Signer → P.Key} {limit : Nat} {v verifier peerVerifier : PeerVerifier P}
  {i : Initiator P} {r : Responder P} {x : Exchange P} {eph : P.Eph} {signer : P.Signer} {w : Wiring P World}
  {world : World} {d : Draws P} {identity peer : Identity P} {store : World → List Byte → Option ResumptionRecord}

theorem unpackECDSASig_pack {r s : Nat} (hr : r < 256 ^ 32) (hs : s < 256 ^ 32) :
    unpackECDSASig (packECDSASig r s) = some (r, s) := by
  have hlen : (packECDSASig r s).length = 64 := by
    simp [packECDSASig]
  have htake : (packECDSASig r s).take 32 = beBytes 32 r := take_left' (length_beBytes 32 r)
  have hdrop : (packECDSASig r s).drop 32 = beBytes 32 s := drop_left' (length_beBytes 32 r)
  unfold unpackECDSASig
  rw [if_neg (not_not.2 hlen), htake, hdrop]
  simp [beBytes, leNat_leBytes_of_lt hr, leNat_leBytes_of_lt hs]

theorem signTranscript_honest (hP : Works P pub limit) (signer : P.Signer) (entropy : P.Entropy)
    (noc icac selfEph peerEph : List Byte) :
    ∃ sig, signTranscript P (some signer) entropy noc icac selfEph peerEph = .ok sig ∧ sig.length = 64 ∧
      verifyTranscript P (pub signer) sig noc icac selfEph peerEph = true := by
  obtain ⟨r, s, hr0, hs0, hr, hs, hsign, hverify⟩ :=
    hP.sign signer entropy (P.sha256 (signedDataBytes noc icac selfEph peerEph))
  refine ⟨packECDSASig r s, ?_, ?_, ?_⟩
  · unfold Impl.Sigma.signTranscript
    dsimp only
    rw [hsign]
    dsimp only
    rw [if_neg (by omega), Int.toNat_natCast, Int.toNat_natCast]
  · simp [packECDSASig]
  · unfold verifyTranscript
    rw [unpackECDSASig_pack hr hs]
    exact hverify

/-! ## The initiator's Sigma1 -/

theorem newPeerInitiator_eq_ok {cfg : InitiatorConfig P} :
    newPeerInitiator cfg = .ok i ↔ ∃ identity verifier, cfg.identity = some identity ∧
      identity.signingKey.isNone = false ∧ cfg.verifier = some verifier ∧ cfg.rootPublicKey.isEmpty = false ∧
      verifier.peerNodeIDFromNOC.isNone = false ∧ verifier.peerFabricIDFromNOC.isNone = false ∧
      i = { identity, verifier, sessionID := cfg.sessionID, peerNodeID := cfg.peerNodeID
            rootPublicKey := cfg.rootPublicKey
            resumption := cfg.resumption.filter fun rec => !rec.sharedSecret.isEmpty && rec.resumptionID.length = 16
            sessionParams := cfg.sessionParams.filter fun p => !p.isEmpty } := by
  unfold newPeerInitiator
  constructor
  · intro h
    cases hid : cfg.identity with
    | none => rw [hid] at h; cases h
    | some identity =>
      rw [hid] at h
      cases hver : cfg.verifier with
      | none =>
        rw [hver] at h
        dsimp only at h
        split at h <;> cases h
      | some verifier =>
        rw [hver] at h
        dsimp only at h
        split at h
        · cases h
        split at h
        · cases h
        split at h
        · cases h
        split at h
        · cases h
        rename_i h1 h2 h3 h4
        simp only [Bool.not_eq_true] at h1 h2 h3 h4
        exact ⟨identity, verifier, rfl, h1, rfl, h2, h3, h4, (Except.ok.inj h).symm⟩
  · rintro ⟨identity, verifier, hid, hkey, hver, hroot, hnode, hfabric, rfl⟩
    rw [hid, hver]
    simp only [hkey, hroot, hnode, hfabric]
    rfl

/-- The Sigma1 of an initiator that drew `random` and `eph`. -/
structure Greets (i : Initiator P) (random : Vector Byte 32) (eph : P.Eph) (m : Sigma1) : Prop where
  drawn : m.initiatorRandom = random
  sessionID : m.initiatorSessionID = i.sessionID
  destinationID : m.destinationID =
    computeDestinationID P i.identity.ipk random i.rootPublicKey i.identity.fabricID i.peerNodeID
  eph : m.initiatorEphPubKey = (P.ephPub eph).toList
  paired : Paired m.resumptionID m.initiatorResumeMIC
  /-- Without a record nothing is offered. -/
  silent : i.resumption = none → m.resumptionID = []
  offered : ∀ rec, i.resumption = some rec → m.resumptionID = rec.resumptionID ∧
    sealResumeMIC P (sigma1ResumeKey P rec.sharedSecret random rec.resumptionID) nonceResume1MIC =
      some m.initiatorResumeMIC

/-- The initiator once its Sigma1 is sent. -/
def greeted (i : Initiator P) (random : Vector Byte 32) (eph : P.Eph) (m : Sigma1) : Initiator P :=
  { i with
    random, ephPriv := some eph, ephPubBytes := (P.ephPub eph).toList, sigma1Bytes := m.marshal
    state := .sigma1Sent }

theorem state_greeted (i : Initiator P) (random : Vector Byte 32) (eph : P.Eph) (m : Sigma1) :
    (greeted i random eph m).state = .sigma1Sent := rfl

theorem length_resumeMIC (hP : Works P pub limit) (key : Vector Byte 16) (label : String) :
    ∃ mic, sealResumeMIC P key (nonceForTBE label) = some mic ∧ mic.length = 16 := by
  obtain ⟨mic, hmic, _, hlen⟩ :=
    hP.open_seal key (nonceForTBE label) [] (length_nonceForTBE label) (Nat.zero_le limit)
  exact ⟨mic, hmic, hlen⟩

theorem offer_honest (hP : Works P pub limit) (hrec : ∀ rec, i.resumption = some rec → rec.resumptionID.length = 16)
    (random : Vector Byte 32) :
    ∃ id mic, i.offer random = .ok (id, mic) ∧ Paired id mic ∧ (i.resumption = none → id = []) ∧
      ∀ rec, i.resumption = some rec → id = rec.resumptionID ∧
        sealResumeMIC P (sigma1ResumeKey P rec.sharedSecret random rec.resumptionID) nonceResume1MIC = some mic := by
  unfold Initiator.offer
  cases hr : i.resumption with
  | none => exact ⟨[], [], rfl, .inl ⟨rfl, rfl⟩, fun _ => rfl, nofun⟩
  | some rec =>
    obtain ⟨mic, hmic, hlen⟩ :=
      length_resumeMIC hP (sigma1ResumeKey P rec.sharedSecret random rec.resumptionID) "NCASE_SigmaS1"
    have hmic : sealResumeMIC P (sigma1ResumeKey P rec.sharedSecret random rec.resumptionID) nonceResume1MIC =
      some mic := hmic
    refine ⟨rec.resumptionID, mic, ?_, .inr ⟨hrec rec hr, hlen⟩, nofun, fun rec' h => ?_⟩
    · dsimp only [resumeSalt]
      rw [hmic]
    · obtain rfl := some.inj h
      exact ⟨rfl, hmic⟩

theorem generateSigma1_honest (hP : Works P pub limit) (hinit : i.state = .init)
    (hrec : ∀ rec, i.resumption = some rec → rec.resumptionID.length = 16) (random : Vector Byte 32) (eph : P.Eph) :
    ∃ m, Greets i random eph m ∧ i.generateSigma1 random eph = (.ok m.marshal, greeted i random eph m) := by
  obtain ⟨id, mic, hoffer, hpaired, hsilent, hoffered⟩ := offer_honest hP
    (i := { i with random, ephPriv := some eph, ephPubBytes := (P.ephPub eph).toList }) hrec random
  unfold Initiator.generateSigma1
  rw [if_neg (not_not.2 hinit)]
  dsimp only
  rw [hoffer]
  exact ⟨_, ⟨rfl, rfl, rfl, rfl, hpaired, hsilent, hoffered⟩, rfl⟩

/-! ## The responder's Sigma2 -/

/-- What an honest responder signed and sealed in the Sigma2 of an exchange. -/
structure Offers (pub : P.Signer → P.Key) (x : Exchange P) (signer : P.Signer) (sig resumptionID : List Byte) :
    Prop where
  key : x.identity.signingKey = some signer
  sigLength : sig.length = 64
  idLength : resumptionID.length = 16
  ephPub : x.sigma2.responderEphPubKey = (P.ephPub x.eph).toList
  encrypted : x.sigma2.encrypted2.length < 2 ^ 64
  signed : verifyTranscript P (pub signer) sig x.identity.noc x.identity.icac (P.ephPub x.eph).toList
    x.msg.initiatorEphPubKey = true
  opens : P.ccmOpen (s2k P x.shared x.identity.ipk.toList x.sigma2.responderRandom.toList (P.ephPub x.eph).toList
      x.sigma1Bytes) nonceTBE2 x.sigma2.encrypted2 =
    some (marshalTBE2
      { responderNOC := x.identity.noc, responderICAC := x.identity.icac, signature := sig, resumptionID })

/-- The initiator's key and the exchange give one shared secret. -/
def Shares (x : Exchange P) (eph : P.Eph) : Prop :=
  x.shared ≠ [] ∧ ∃ point, readPoint P (P.ephPub x.eph).toList = .ok point ∧ P.ecdh eph point = some x.shared

/-- The responder that answered with the exchange's Sigma2. -/
structure Answering (r : Responder P) (d : Draws P) (x : Exchange P) (r' : Responder P) : Prop where
  holds : Holds r' x
  state : r'.state = .sigma2Sent
  sessionID : r'.sessionID = r.sessionID
  announced : x.sigma2.responderSessionID = r.sessionID
  resumptionID : r'.resumptionID = d.resumptionID.toList

theorem answerSigma1_honest (hP : Works P pub limit) (hlimit : limit < 2 ^ 63) (hv : Accepts pub v identity)
    (hfits : FitsIn limit identity) (hm : unmarshalSigma1 b = .ok m)
    (hselect : r.select w world m = some (identity, verifier)) (heph : m.initiatorEphPubKey = (P.ephPub eph).toList) :
    ∃ x signer sig r', x.sigma1Bytes = b ∧ x.msg = m ∧ x.identity = identity ∧ x.verifier = verifier ∧ Shares x eph ∧
      Offers pub x signer sig d.resumptionID.toList ∧ Answering r d x r' ∧
      Responder.answerSigma1 w world d r b = (.ok x.sigma2, r') := by
  obtain ⟨own, hown⟩ := hP.point d.eph
  obtain ⟨peer, hpeer⟩ := hP.point eph
  obtain ⟨shared, hne, hshared, hshared'⟩ := hP.ecdh d.eph eph own peer hown hpeer
  obtain ⟨signer, hkey, _⟩ := hv.chain
  obtain ⟨sig, hsign, hlen, hsigned⟩ := signTranscript_honest hP signer d.entropy identity.noc identity.icac
    (P.ephPub d.eph).toList (P.ephPub eph).toList
  let tbe2 : TBE2Plaintext :=
    { responderNOC := identity.noc, responderICAC := identity.icac, signature := sig
      resumptionID := d.resumptionID.toList }
  have hid : d.resumptionID.toList.length = 16 := by simp
  have htbe2 : (marshalTBE2 tbe2).length ≤ limit := by
    have h := length_marshalTBE2_le (p := tbe2) (by unfold FitsIn at hfits; show identity.noc.length < _; omega)
      (by unfold FitsIn at hfits; show identity.icac.length < _; omega) (by show sig.length < _; omega)
      (by show d.resumptionID.toList.length < _; omega)
    have h : (marshalTBE2 tbe2).length ≤
      identity.noc.length + identity.icac.length + sig.length + d.resumptionID.toList.length + 42 := h
    unfold FitsIn at hfits
    omega
  obtain ⟨enc2, hseal, hopen, henc2⟩ := hP.open_seal
    (s2k P shared identity.ipk.toList d.random.toList (P.ephPub d.eph).toList b) nonceTBE2 (marshalTBE2 tbe2)
    (length_nonceForTBE _) htbe2
  let sigma2 : Sigma2 :=
    { responderRandom := d.random, responderSessionID := r.sessionID
      responderEphPubKey := (P.ephPub d.eph).toList, encrypted2 := enc2, sessionParams := w.sessionParams }
  have hanswer : ∃ r', Answering r d ⟨b, m, identity, verifier, d.eph, shared, sigma2⟩ r' ∧
      Responder.answerSigma1 w world d r b = (.ok sigma2, r') := by
    unfold Responder.answerSigma1
    rw [hm]
    dsimp only
    rw [show Responder.select w world { r with peerSessionParams := m.initiatorSessionParams } m = _ from hselect]
    rw [heph, hpeer]
    dsimp only
    rw [hshared]
    rw [hkey, hsign]
    dsimp only
    rw [hseal]
    refine ⟨_, ?_, rfl⟩
    exact ⟨⟨rfl, rfl, rfl, rfl, rfl, rfl, heph.symm, rfl, rfl⟩, rfl, rfl, rfl, rfl⟩
  obtain ⟨r', hr', hrun⟩ := hanswer
  refine ⟨⟨b, m, identity, verifier, d.eph, shared, sigma2⟩, signer, sig, r', rfl, rfl, rfl, rfl,
    ⟨hne, own, hown, hshared'⟩, ⟨hkey, hlen, hid, rfl, ?_, ?_, hopen⟩, hr', hrun⟩
  · show enc2.length < 2 ^ 64
    omega
  · show verifyTranscript P (pub signer) sig identity.noc identity.icac _ m.initiatorEphPubKey = true
    rw [heph]
    exact hsigned

/-! ## The initiator's Sigma3 -/

/-- What an honest initiator signed and sealed in the Sigma3 for an exchange. -/
structure Completes (pub : P.Signer → P.Key) (x : Exchange P) (id : Identity P) (signer : P.Signer)
    (sigma3 : List Byte) :
    Prop where
  key : id.signingKey = some signer
  parses : ∃ enc3 sig, unmarshalSigma3 sigma3 = .ok { encrypted3 := enc3 } ∧
    P.ccmOpen (s3k P x.shared x.identity.ipk.toList x.sigma1Bytes x.sigma2.marshal) nonceTBE3 enc3 =
      some (marshalTBE3 { initiatorNOC := id.noc, initiatorICAC := id.icac, signature := sig }) ∧
    sig.length = 64 ∧
    verifyTranscript P (pub signer) sig id.noc id.icac x.msg.initiatorEphPubKey (P.ephPub x.eph).toList = true

/-- The initiator that finished with an exchange. -/
structure Finished (i : Initiator P) (x : Exchange P) (sigma3 resumptionID : List Byte) (i' : Initiator P) :
    Prop where
  state : i'.state = .finished
  keys : i'.keys = sessionKeys P x.shared x.identity.ipk.toList x.sigma1Bytes x.sigma2.marshal sigma3
  peerSessionID : i'.peerSessionID = x.sigma2.responderSessionID
  shared : i'.shared = x.shared
  resumptionID : i'.resumptionID = resumptionID
  sessionID : i'.sessionID = i.sessionID
  peerNodeID : i'.peerNodeID = i.peerNodeID

theorem answerSigma2_honest {sig resumptionID : List Byte} (random : Vector Byte 32) (greeting : Sigma1)
    (m : Sigma2) (entropy : P.Entropy) (hP : Works P pub limit) (hlimit : limit < 2 ^ 63) (hshares : Shares x eph)
    (hoffers : Offers pub x signer sig resumptionID)
    (hfellows : Fellows pub limit i.identity i.verifier x.identity x.verifier)
    (hpeer : i.peerNodeID = x.identity.nodeID) (hsigma1 : greeting.marshal = x.sigma1Bytes)
    (heph : x.msg.initiatorEphPubKey = (P.ephPub eph).toList)
    (hmsg : m.responderEphPubKey = x.sigma2.responderEphPubKey ∧ m.responderRandom = x.sigma2.responderRandom ∧
      m.encrypted2 = x.sigma2.encrypted2 ∧ m.responderSessionID = x.sigma2.responderSessionID) :
    ∃ sigma3 signer' i', Completes pub x i.identity signer' sigma3 ∧ Finished i x sigma3 resumptionID i' ∧
      (greeted i random eph greeting).answerSigma2 entropy m x.sigma2.marshal = .ok (sigma3, i') := by
  obtain ⟨hmeph, hmrandom, hmenc, hmid⟩ := hmsg
  obtain ⟨_, point, hpoint, hshared⟩ := hshares
  obtain ⟨signer0, hkey0, hchain⟩ := hfellows.acceptsPeer.chain
  obtain rfl : signer = signer0 := some.inj (hoffers.key.symm.trans hkey0)
  obtain ⟨signer', hkey', _⟩ := hfellows.acceptsOwn.chain
  obtain ⟨sig', hsign, hlen', hsigned⟩ := signTranscript_honest hP signer' entropy i.identity.noc i.identity.icac
    (P.ephPub eph).toList (P.ephPub x.eph).toList
  obtain ⟨hfits, hfitsR⟩ := hfellows.fits
  unfold FitsIn at hfits hfitsR
  let tbe3 : TBE3Plaintext := { initiatorNOC := i.identity.noc, initiatorICAC := i.identity.icac, signature := sig' }
  have htbe3 : (marshalTBE3 tbe3).length ≤ limit := by
    have h := length_marshalTBE3_le (p := tbe3) (by show i.identity.noc.length < _; omega)
      (by show i.identity.icac.length < _; omega) (by show sig'.length < _; omega)
    have h : (marshalTBE3 tbe3).length ≤ i.identity.noc.length + i.identity.icac.length + sig'.length + 32 := h
    omega
  obtain ⟨enc3, hseal, hopen, henc3⟩ := hP.open_seal
    (s3k P x.shared x.identity.ipk.toList x.sigma1Bytes x.sigma2.marshal) nonceTBE3 (marshalTBE3 tbe3)
    (length_nonceForTBE _) htbe3
  have htbe2 : unmarshalTBE2 (marshalTBE2
      { responderNOC := x.identity.noc, responderICAC := x.identity.icac, signature := sig, resumptionID }) = .ok _ :=
    unmarshalTBE2_marshal (by show x.identity.noc.length < _; omega) (by show x.identity.icac.length < _; omega)
      (by rw [hoffers.sigLength]; decide)
      (by rw [hoffers.idLength]; decide)
  have hverify := hoffers.signed
  have hopen2 := hoffers.opens
  rw [heph] at hverify
  have hanswer : ∃ i', Finished i x (Sigma3.marshal { encrypted3 := enc3 }) resumptionID i' ∧
      (greeted i random eph greeting).answerSigma2 entropy m x.sigma2.marshal =
        .ok (Sigma3.marshal { encrypted3 := enc3 }, i') := by
    unfold Initiator.answerSigma2
    rw [hmeph, hoffers.ephPub, hmrandom, hmenc, hmid, except_bind_ok hpoint]
    dsimp only [greeted, bind_some]
    rw [hshared]
    dsimp only
    rw [hfellows.ipk, hsigma1, hopen2]
    dsimp only
    rw [except_bind_ok (mapError_eq_ok.2 htbe2)]
    rw [hchain]
    simp only [hverify]
    rw [except_bind_ok (readNodeID_iff.2 hfellows.acceptsPeer.node)]
    simp only [hpeer, ne_eq]
    rw [except_bind_ok (checkFabricID_iff.2 (hfellows.fabricID ▸ hfellows.acceptsPeer.fabric)), hkey', except_bind_ok hsign, hseal]
    refine ⟨_, ?_, rfl⟩
    exact ⟨rfl, (cutKeys_eq _).symm, rfl, rfl, rfl, rfl, hpeer.symm⟩
  obtain ⟨i', hi', hrun⟩ := hanswer
  refine ⟨_, signer', i', ⟨hkey', enc3, sig', ?_, hopen, hlen', ?_⟩, hi', hrun⟩
  · refine unmarshalSigma3_marshal ?_ (by show enc3.length < _; omega)
    intro hnil
    have hnil : enc3 = [] := hnil
    rw [hnil] at henc3
    cases henc3
  · rw [heph]
    exact hsigned

/-! ## The responder at the end -/

theorem processSigma3_honest {id : Identity P} {sigma3 : List Byte} (hlimit : limit < 2 ^ 63) (hr : Holds r x)
    (hstate : r.state = .sigma2Sent) (hx : Completes pub x id signer sigma3)
    (hfellows : Fellows pub limit id v x.identity x.verifier) :
    ∃ r', r.processSigma3 sigma3 = (.ok (), r') ∧ r'.state = .finished ∧
      r'.keys = sessionKeys P x.shared x.identity.ipk.toList x.sigma1Bytes x.sigma2.marshal sigma3 ∧
      r'.shared = x.shared ∧ r'.resumptionID = r.resumptionID ∧ r'.sessionID = r.sessionID ∧
      r'.peerSessionID = x.msg.initiatorSessionID ∧ r'.peerNodeID = id.nodeID := by
  have hv := hfellows.acceptsOwn
  have hfits := hfellows.fits.1
  unfold FitsIn at hfits
  obtain ⟨signer0, hkey0, hchain⟩ := hv.chain
  obtain rfl : signer = signer0 := some.inj (hx.key.symm.trans hkey0)
  obtain ⟨enc3, sig, hparse, hopen, hsig, hsigned⟩ := hx.parses
  have htbe3 : unmarshalTBE3
      (marshalTBE3 { initiatorNOC := id.noc, initiatorICAC := id.icac, signature := sig }) = .ok _ :=
    unmarshalTBE3_marshal (by show id.noc.length < _; omega) (by show id.icac.length < _; omega)
      (by rw [hsig]; decide)
  have hverify : r.verifySigma3Locked sigma3 = .ok
      { r with
        peerNodeID := id.nodeID, peerCATs := r.verifier.catsOf id.noc
        keys := sessionKeys P x.shared x.identity.ipk.toList x.sigma1Bytes x.sigma2.marshal sigma3 } := by
    unfold Responder.verifySigma3Locked
    rw [except_bind_ok (mapError_eq_ok.2 hparse), hr.shared, hr.identity, hr.sigma1Bytes, hr.sigma2Bytes,
      hr.verifier, hr.initEphPub, hr.ephPubBytes]
    dsimp only [getD_some]
    rw [hopen]
    dsimp only
    rw [except_bind_ok (mapError_eq_ok.2 htbe3)]
    rw [hchain]
    dsimp only
    rw [except_bind_ok (checkFabricID_iff.2 (hfellows.fabricID ▸ hv.fabric))]
    simp only [hsigned]
    rw [except_bind_ok (readNodeID_iff.2 hv.node), sessionKeys, cutKeys_eq]
    rfl
  unfold Responder.processSigma3
  rw [if_neg (by rw [hstate]; decide), if_neg (not_not.2 hstate), hverify]
  exact ⟨_, rfl, rfl, rfl, hr.shared, rfl, rfl, hr.peerSessionID, rfl⟩

/-! ## Whole handshakes -/

theorem fullSigma_eq (w : Wiring P World) (world : World) (d : Draws P) (hfresh : r.replays b = false) :
    ∃ r' : Responder P, r'.identity = r.identity ∧ r'.verifier = r.verifier ∧ r.fullSigma w world d b =
      ((Responder.answerSigma1 w world d r' b).1.map .sigma2, (Responder.answerSigma1 w world d r' b).2) := by
  unfold Responder.fullSigma Responder.processSigma1Locked
  rw [if_neg (by rw [hfresh]; decide)]
  refine ⟨if r.state = .init then r else r.reset w world, ?_, ?_, rfl⟩
  · split <;> rfl
  · split <;> rfl

theorem processSigma1WithResume_full (w : Wiring P World) (world : World) (d : Draws P)
    (hm : unmarshalSigma1 b = .ok m) (hfresh : r.replays b = false) (hdeclines : Declines w world r m) :
    ∃ r' : Responder P, r'.identity = r.identity ∧ r'.verifier = r.verifier ∧
      r.processSigma1WithResume w world d b =
        ((Responder.answerSigma1 w world d r' b).1.map .sigma2, (Responder.answerSigma1 w world d r' b).2) := by
  have hrestarted := restarted_processSigma1WithResume w world d r b
  generalize r.processSigma1WithResume w world d b = result at hrestarted
  cases hrestarted with
  | unread unparsed => cases hm.symm.trans unparsed
  | resumed parsed wired found offered verified selected =>
    obtain rfl := Except.ok.inj (hm.symm.trans parsed)
    obtain hgone | hmic := hdeclines _ _ wired offered found
    · cases hgone.symm.trans selected
    · exact absurd verified hmic
  | @full params sessionID => exact fullSigma_eq w world d (r := { r with peerSessionParams := params, sessionID }) hfresh

theorem full_handshake (hP : Works P pub limit) (hlimit : limit < 2 ^ 63) (hi : i.state = .init)
    (hrec : ∀ rec, i.resumption = some rec → rec.resumptionID.length = 16)
    (hfellows : Fellows pub limit i.identity i.verifier peer peerVerifier) (hpeer : i.peerNodeID = peer.nodeID)
    (random : Vector Byte 32) (eph : P.Eph) (entropy : P.Entropy)
    (hfresh : ∀ b, (i.generateSigma1 random eph).1 = .ok b → r.replays b = false)
    (hresolve : ∀ m : Sigma1, m.initiatorRandom = random → m.destinationID =
      computeDestinationID P i.identity.ipk random i.rootPublicKey i.identity.fabricID peer.nodeID →
      r.select w world m = some (peer, peerVerifier))
    (hdeclines : ∀ b m, (i.generateSigma1 random eph).1 = .ok b → unmarshalSigma1 b = .ok m → Declines w world r m) :
    ∃ sigma1 i1 sigma2 r1 sigma3 i2 r2 res, i.generateSigma1 random eph = (.ok sigma1, i1) ∧
      r.processSigma1WithResume w world d sigma1 = (.ok (.sigma2 sigma2), r1) ∧
      i1.processSigma2Bytes entropy sigma2.marshal = (.ok sigma3, i2) ∧ r1.processSigma3 sigma3 = (.ok (), r2) ∧
      Agree i2 r2 i.identity peer res ∧ res.sharedSecret ≠ [] ∧ res.resumptionID.length = 16 := by
  obtain ⟨m, hm, hgenerate⟩ := generateSigma1_honest hP hi hrec random eph
  have hread := unmarshalSigma1_marshal (by rw [hm.eph]; simp) hm.paired
  have hsent : (i.generateSigma1 random eph).1 = .ok m.marshal := by rw [hgenerate]
  obtain ⟨r', hid, hver, hprocess⟩ :=
    processSigma1WithResume_full w world d hread (hfresh _ hsent) (hdeclines _ _ hsent hread)
  have hselect : r'.select w world { m with initiatorSessionParams := m.initiatorSessionParams.map sentParameters } =
      some (peer, peerVerifier) := by
    have h := hresolve { m with initiatorSessionParams := m.initiatorSessionParams.map sentParameters } hm.drawn
      (hm.destinationID.trans (by rw [hpeer]))
    unfold Responder.select at ⊢
    rw [hid, hver]
    exact h
  obtain ⟨x, signer, sig, r1, hx1, hxm, hxid, hxver, hshares, hoffers, hanswering, hanswer⟩ :=
    answerSigma1_honest hP hlimit hfellows.acceptsPeer hfellows.fits.2 hread hselect hm.eph
  rw [hanswer] at hprocess
  have hread2 := unmarshalSigma2_marshal (by rw [hoffers.ephPub]; simp) hoffers.encrypted
  subst hxid hxver
  obtain ⟨sigma3, signer', i2, hcompletes, hfinished, hanswer2⟩ :=
    answerSigma2_honest random m
      { x.sigma2 with sessionParams := (statedParameters x.sigma2.sessionParams).map sentParameters } entropy hP hlimit
      hshares hoffers hfellows hpeer hx1.symm (by rw [hxm]; exact hm.eph) ⟨rfl, rfl, rfl, rfl⟩
  have hprocess2 : (greeted i random eph m).processSigma2Bytes entropy x.sigma2.marshal = (.ok sigma3, i2) := by
    unfold Initiator.processSigma2Bytes
    rw [hread2]
    dsimp only
    unfold Initiator.processSigma2
    rw [if_neg (not_not.2 (state_greeted i random eph m)), hanswer2]
  obtain ⟨r2, hprocess3, hstate, hkeys, hshared, hrid, hsid2, hpsid, hnode⟩ :=
    processSigma3_honest hlimit hanswering.holds hanswering.state hcompletes hfellows
  refine ⟨m.marshal, greeted i random eph m, x.sigma2, r1, sigma3, i2, r2, _, hgenerate, hprocess, hprocess2,
    hprocess3, ⟨if_neg (not_not.2 hfinished.state), ?_, ?_, ?_, ⟨?_, ?_⟩, ⟨?_, hnode⟩⟩, ?_, ?_⟩
  · rw [Responder.sessionKeys?, if_pos hstate, hkeys, hfinished.keys]
  · rw [hshared, hfinished.shared]
  · rw [hrid, hanswering.resumptionID, hfinished.resumptionID]
  · rw [hfinished.peerSessionID, hanswering.announced, hsid2, hanswering.sessionID]
  · rw [hpsid, hxm, hfinished.sessionID]
    exact hm.sessionID
  · rw [hfinished.peerNodeID, hpeer]
  · rw [hfinished.shared]
    exact hshares.1
  · rw [hfinished.resumptionID]
    exact hoffers.idLength

section Resume

variable (w : Wiring P World) (world : World) (d : Draws P)

def resumedReply (r : Responder P) (mic : List Byte) : Sigma2Resume :=
  { resumptionID := d.resumptionID.toList, sigma2ResumeMIC := mic, responderSessionID := r.sessionID
    sessionParams := w.sessionParams }

def resumedResponder (r : Responder P) (m : Sigma1) (rec : ResumptionRecord) (identity : Identity P)
    (verifier : PeerVerifier P) : Responder P :=
  { r with
    identity, verifier, peerSessionID := m.initiatorSessionID, peerNodeID := rec.peerNodeID, peerCATs := rec.peerCATs
    shared := rec.sharedSecret, resumptionID := d.resumptionID.toList
    keys := resumedKeys P rec.sharedSecret m.initiatorRandom m.resumptionID, state := .finished }

theorem resumeFrom_eq {mic : List Byte}
    (hmic : verifyResumeMIC P (sigma1ResumeKey P rec.sharedSecret m.initiatorRandom m.resumptionID)
      m.initiatorResumeMIC nonceResume1MIC = true)
    (hselect : r.selectFabric w world rec.fabricIndex = some (identity, verifier))
    (hseal : sealResumeMIC P (sigma2ResumeKey P rec.sharedSecret m.initiatorRandom d.resumptionID.toList)
      nonceResume2MIC = some mic) :
    r.resumeFrom w world d m rec =
      some (.ok (.sigma2Resume (resumedReply w d r mic)
          (resumedKeys P rec.sharedSecret m.initiatorRandom m.resumptionID)),
        resumedResponder d r m rec identity verifier) := by
  unfold Responder.resumeFrom
  rw [if_pos hmic, hselect]
  dsimp only
  rw [hseal, resumedResponder, resumedKeys, cutKeys_eq]
  rfl

/-- A Sigma1 whose resumption id is known goes to `tryResume`, under a session id that may be
fresh. -/
theorem processSigma1WithResume_found (r : Responder P) (hm : unmarshalSigma1 b = .ok m)
    (hlen : m.resumptionID.length = 16 ∧ m.initiatorResumeMIC.length = 16) (hstore : w.resumptionStore = some store)
    (hfound : store world m.resumptionID = some rec) :
    ∃ r' : Responder P, r'.identity = r.identity ∧ r'.verifier = r.verifier ∧ r.processSigma1WithResume w world d b =
      (r'.resumeFrom w world d m rec).getD (r'.fullSigma w world d b) := by
  unfold Responder.processSigma1WithResume
  rw [hm]
  rw [hstore]
  dsimp only
  rw [if_pos hlen]
  unfold Responder.tryResume
  rw [hfound]
  refine ⟨_, ?_, ?_, rfl⟩
  · split <;> rfl
  · split <;> rfl

end Resume

theorem resumed_handshake (w : Wiring P World) (world : World) (d : Draws P) (r : Responder P) {own : Identity P}
    {rec' : ResumptionRecord} (hP : Works P pub limit) (hi : i.state = .init) (hrec : i.resumption = some rec)
    (hlen : rec.resumptionID.length = 16) (hpeer : i.peerNodeID = peer.nodeID)
    (hstore : w.resumptionStore = some store) (hfound : store world rec.resumptionID = some rec')
    (hshared : rec'.sharedSecret = rec.sharedSecret) (hnode : rec'.peerNodeID = own.nodeID)
    (hfabric : r.selectFabric w world rec'.fabricIndex = some (peer, peerVerifier)) (random : Vector Byte 32)
    (eph : P.Eph) :
    ∃ sigma1 i1 sigma2Resume keys r1 i2 res, i.generateSigma1 random eph = (.ok sigma1, i1) ∧
      r.processSigma1WithResume w world d sigma1 = (.ok (.sigma2Resume sigma2Resume keys), r1) ∧
      i1.processSigma2Resume (marshalSigma2Resume sigma2Resume) = (.ok (), i2) ∧ Agree i2 r1 own peer res ∧
      keys = res.keys ∧ res.resumed = true ∧ res.resumptionID = d.resumptionID.toList := by
  have hlen' : ∀ rec', i.resumption = some rec' → rec'.resumptionID.length = 16 := by
    intro rec' h
    obtain rfl := some.inj (hrec.symm.trans h)
    exact hlen
  obtain ⟨m, hm, hgenerate⟩ := generateSigma1_honest hP hi hlen' random eph
  obtain ⟨hid, hmic⟩ := hm.offered rec hrec
  have hne : m.initiatorResumeMIC ≠ [] := by
    intro hnil
    have hempty := hm.paired.isEmpty_eq
    rw [hnil, hid, List.isEmpty_nil, List.isEmpty_iff] at hempty
    rw [hempty] at hlen
    cases hlen
  have hread := unmarshalSigma1_marshal (by rw [hm.eph]; simp) hm.paired
  obtain ⟨mic2, hmic2, hmic2len⟩ :=
    length_resumeMIC hP (sigma2ResumeKey P rec'.sharedSecret m.initiatorRandom d.resumptionID.toList) "NCASE_SigmaS2"
  have hverify : verifyResumeMIC P (sigma1ResumeKey P rec'.sharedSecret m.initiatorRandom m.resumptionID)
      m.initiatorResumeMIC nonceResume1MIC = true := by
    rw [hshared, hm.drawn, hid]
    exact verifyResumeMIC_iff.2 hmic
  obtain ⟨r', hr'id, hr'ver, hprocess⟩ := processSigma1WithResume_found w world d r hread
    ⟨by rw [hid]; exact hlen, hm.paired.length_mic hne⟩ hstore
    (by rw [hid]; exact hfound)
  have hselect : r'.selectFabric w world rec'.fabricIndex = some (peer, peerVerifier) := by
    unfold Responder.selectFabric at ⊢
    rw [hr'id, hr'ver]
    exact hfabric
  have hresume := resumeFrom_eq w world d
    (m := { m with initiatorSessionParams := m.initiatorSessionParams.map sentParameters }) hverify hselect hmic2
  rw [hresume] at hprocess
  have hread2 := unmarshalSigma2Resume_marshal (m := resumedReply w d r' mic2) (by simp [resumedReply]) hmic2len
  have hverify2 : verifyResumeMIC P (sigma2ResumeKey P rec.sharedSecret random d.resumptionID.toList) mic2
      nonceResume2MIC = true := by
    rw [hshared, hm.drawn] at hmic2
    exact verifyResumeMIC_iff.2 hmic2
  have hanswer : ∃ i2, (greeted i random eph m).processSigma2Resume (marshalSigma2Resume (resumedReply w d r' mic2)) =
        (.ok (), i2) ∧ i2.state = .finished ∧ i2.keys = resumedKeys P rec.sharedSecret random rec.resumptionID ∧ i2.peerSessionID = r'.sessionID ∧
      i2.peerNodeID = i.peerNodeID ∧ i2.shared = rec.sharedSecret ∧ i2.resumptionID = d.resumptionID.toList ∧
      i2.resumed = true ∧ i2.sessionID = i.sessionID := by
    unfold Initiator.processSigma2Resume
    rw [if_neg (not_not.2 (state_greeted i random eph m))]
    unfold Initiator.answerSigma2Resume
    rw [show (greeted i random eph m).resumption = some rec from hrec]
    dsimp only
    rw [except_bind_ok (mapError_eq_ok.2 hread2)]
    rw [if_neg (by exact Bool.eq_false_iff.1 (congrArg not hverify2))]
    refine ⟨_, rfl, ?_⟩
    exact ⟨rfl, (cutKeys_eq _).symm, rfl, rfl, rfl, rfl, rfl, rfl⟩
  obtain ⟨i2, hanswer, hi2, hkeys, hsid, hpnode, hsh, hrid, hresumed, hown⟩ := hanswer
  have hkeys' : resumedKeys P rec'.sharedSecret m.initiatorRandom m.resumptionID = i2.keys := by
    rw [hkeys, hshared, hm.drawn, hid]
  refine ⟨m.marshal, greeted i random eph m, _, _, _, i2, _, hgenerate, hprocess, hanswer,
    ⟨if_neg (not_not.2 hi2), congrArg some hkeys', ?_, ?_, ⟨?_, ?_⟩, ⟨?_, hnode⟩⟩, hkeys', hresumed, hrid⟩
  · rw [hsh]
    exact hshared
  · rw [hrid]
    rfl
  · rw [hsid]
    rfl
  · rw [hown]
    exact hm.sessionID
  · rw [hpnode, hpeer]

end

/-- An honest handshake ends with one session on both sides, and so does one that is resumed
from the record of the first. -/
theorem case_agreement {P : Primitives} {pub : P.Signer → P.Key} {limit : Nat} (World World' : Type)
    (hP : Works P pub limit) (hlimit : limit < 2 ^ 63) (cfg : InitiatorConfig P) (i : Initiator P)
    (hi : newPeerInitiator cfg = .ok i) (peer : Identity P) (peerVerifier : PeerVerifier P)
    (hfellows : Fellows pub limit i.identity i.verifier peer peerVerifier) (hpeer : i.peerNodeID = peer.nodeID)
    (w : Wiring P World) (world : World) (d : Draws P) (r : Responder P) (random : Vector Byte 32) (eph : P.Eph)
    (entropy : P.Entropy) (hfresh : ∀ b, (i.generateSigma1 random eph).1 = .ok b → r.replays b = false)
    (hresolve : ∀ m : Sigma1, m.initiatorRandom = random → m.destinationID =
      computeDestinationID P i.identity.ipk random i.rootPublicKey i.identity.fabricID peer.nodeID →
      r.select w world m = some (peer, peerVerifier))
    (hdeclines : ∀ b m, (i.generateSigma1 random eph).1 = .ok b → unmarshalSigma1 b = .ok m → Declines w world r m) :
    ∃ sigma1 i₁ sigma2 r₁ sigma3 i₂ r₂ res, i.generateSigma1 random eph = (.ok sigma1, i₁) ∧
      r.processSigma1WithResume w world d sigma1 = (.ok (.sigma2 sigma2), r₁) ∧
      i₁.processSigma2Bytes entropy sigma2.marshal = (.ok sigma3, i₂) ∧ r₁.processSigma3 sigma3 = (.ok (), r₂) ∧
      Agree i₂ r₂ i.identity peer res ∧
      ∀ (w' : Wiring P World') (world' : World') (d' : Draws P) (r' : Responder P) (random' : Vector Byte 32)
        (eph' : P.Eph) (sessionID : BitVec 16) (params : Option SessionParameters)
        (fabricIndex fabricIndex' : BitVec 8) (verifier : PeerVerifier P) (store : World' → List Byte → Option ResumptionRecord),
        w'.resumptionStore = some store →
        store world' r₂.resumptionID = some
          { sharedSecret := r₂.shared, resumptionID := r₂.resumptionID, fabricIndex := fabricIndex'
            peerNodeID := r₂.peerNodeID, peerCATs := r₂.peerCATs } →
        r'.selectFabric w' world' fabricIndex' = some (peer, verifier) →
        ∃ j sigma1' j₁ sigma2Resume keys r₁' j₂ res', newPeerInitiator
            { cfg with
              sessionID, sessionParams := params, resumption := some
                { sharedSecret := res.sharedSecret, resumptionID := res.resumptionID, fabricIndex
                  peerNodeID := res.peerNodeID, peerCATs := res.peerCATs } } = .ok j ∧
          j.generateSigma1 random' eph' = (.ok sigma1', j₁) ∧
          r'.processSigma1WithResume w' world' d' sigma1' = (.ok (.sigma2Resume sigma2Resume keys), r₁') ∧
          j₁.processSigma2Resume (marshalSigma2Resume sigma2Resume) = (.ok (), j₂) ∧
          Agree j₂ r₁' i.identity peer res' ∧ keys = res'.keys ∧ res'.resumed = true ∧
          res'.resumptionID = d'.resumptionID.toList := by
  obtain ⟨identity, verifier, hid, hkey, hver, hroot, hnode, hfabric, rfl⟩ := newPeerInitiator_eq_ok.1 hi
  have hrec : ∀ rec, cfg.resumption.filter (fun rec => !rec.sharedSecret.isEmpty && rec.resumptionID.length = 16) =
      some rec → rec.resumptionID.length = 16 := by
    intro rec h
    have hpred := (filter_eq_some_iff.1 h).2
    simp only [Bool.and_eq_true, decide_eq_true_eq] at hpred
    exact hpred.2
  obtain ⟨sigma1, i₁, sigma2, r₁, sigma3, i₂, r₂, res, h1, h2, h3, h4, hagree, hne, hlen⟩ :=
    full_handshake hP hlimit rfl hrec hfellows hpeer random eph entropy hfresh hresolve hdeclines
  refine ⟨sigma1, i₁, sigma2, r₁, sigma3, i₂, r₂, res, h1, h2, h3, h4, hagree, ?_⟩
  intro w' world' d' r' random' eph' sessionID params fabricIndex fabricIndex' verifier' store hstore hfound hselect
  rw [hagree.resumptionID] at hfound
  have hoffer : (!res.sharedSecret.isEmpty && decide (res.resumptionID.length = 16)) = true := by
    rw [Bool.and_eq_true, Bool.not_eq_true', isEmpty_eq_false_iff, decide_eq_true_eq]
    exact ⟨hne, hlen⟩
  let offered : ResumptionRecord :=
    { sharedSecret := res.sharedSecret, resumptionID := res.resumptionID, fabricIndex
      peerNodeID := res.peerNodeID, peerCATs := res.peerCATs }
  have hkept : Option.filter (fun rec : ResumptionRecord => !rec.sharedSecret.isEmpty && rec.resumptionID.length = 16)
      (some offered) = some offered := by rw [filter_some, if_pos hoffer]
  obtain ⟨sigma1', j₁, sigma2Resume, keys, r₁', j₂, res', g1, g2, g3, g4⟩ :=
    resumed_handshake w' world' d' r' hP (i :=
      { identity, verifier, sessionID, peerNodeID := cfg.peerNodeID, rootPublicKey := cfg.rootPublicKey
        resumption := some offered, sessionParams := params.filter fun p => !p.isEmpty })
      rfl rfl hlen hpeer hstore hfound hagree.shared hagree.nodeIDs.2 hselect random' eph'
  refine ⟨_, sigma1', j₁, sigma2Resume, keys, r₁', j₂, res', ?_, g1, g2, g3, g4⟩
  exact newPeerInitiator_eq_ok.2
    ⟨identity, verifier, hid, hkey, hver, hroot, hnode, hfabric, by rw [hkept]⟩

/-! ## A concrete pair

A secret is the product of two bytes, a key the sum of what it is derived from. -/

def product (a b : Byte) : Byte := a * b

def pairPrimitives : Primitives :=
  { toyPrimitives with
    Eph := Byte
    Point := Byte
    hkdf secret salt _ l := Vector.replicate l (secret.sum + salt.sum)
    ephPub e := Vector.mk ([0x04, e] ++ List.replicate 63 0).toArray (by simp)
    newPublicKey b := b[1]?
    ecdh a b := some [product a b] }

theorem readPoint_pair (e : pairPrimitives.Eph) :
    readPoint pairPrimitives (pairPrimitives.ephPub e).toList = .ok e := rfl

theorem works_pair : Works pairPrimitives (fun _ => ()) 65535 where
  point eph := ⟨eph, readPoint_pair eph⟩
  ecdh a b pa pb ha hb := by
    obtain rfl := Except.ok.inj ((readPoint_pair a).symm.trans ha)
    obtain rfl := Except.ok.inj ((readPoint_pair b).symm.trans hb)
    exact ⟨_, cons_ne_nil (product a b) [], rfl, congrArg (fun c => some [c]) (BitVec.mul_comm b a)⟩
  sign _ _ _ := ⟨1, 1, by decide, by decide, by decide, by decide, rfl, rfl⟩
  open_seal _ _ text _ _ := by
    refine ⟨text ++ List.replicate 16 0, rfl, ?_, by simp⟩
    show some ((text ++ List.replicate 16 0).take ((text ++ List.replicate 16 0).length - 16)) = some text
    simp

/-- A certificate is the byte of a node. -/
def pairVerifier : PeerVerifier pairPrimitives where
  verifyAndExtractPubKey _ _ := some ()
  peerNodeIDFromNOC := some fun noc => noc.head?.map (BitVec.setWidth 64)
  peerFabricIDFromNOC := some fun _ => some 0

def pairIdentity (node : Byte) : Identity pairPrimitives :=
  { noc := [node], signer := some (), nodeID := node.setWidth 64 }

def pairConfig : InitiatorConfig pairPrimitives where
  identity := some (pairIdentity 3)
  verifier := some pairVerifier
  sessionID := 11
  peerNodeID := 4
  rootPublicKey := [1]

def pairDraws : Draws pairPrimitives where
  random := Vector.replicate 32 6
  eph := (9 : Byte)
  entropy := ()
  resumptionID := Vector.replicate 16 2

theorem fellows_pair : Fellows (fun _ => ()) 65535 (pairIdentity 3) pairVerifier (pairIdentity 4) pairVerifier where
  ipk := rfl
  fabricID := rfl
  acceptsPeer := ⟨⟨(), rfl, rfl⟩, rfl, rfl⟩
  acceptsOwn := ⟨⟨(), rfl, rfl⟩, rfl, rfl⟩
  fits := by
    constructor
    · show 1 + 0 + 122 ≤ 65535
      decide
    · show 1 + 0 + 122 ≤ 65535
      decide

theorem case_agreement_pair :
    ∃ i sigma1 i₁ sigma2 r₁ sigma3 i₂ r₂ res, newPeerInitiator pairConfig = .ok i ∧
      i.generateSigma1 (Vector.replicate 32 5) (7 : Byte) = (.ok sigma1, i₁) ∧
      (Responder.new (pairIdentity 4) pairVerifier 12).processSigma1WithResume {} () pairDraws sigma1 =
        (.ok (.sigma2 sigma2), r₁) ∧
      i₁.processSigma2Bytes () sigma2.marshal = (.ok sigma3, i₂) ∧ r₁.processSigma3 sigma3 = (.ok (), r₂) ∧
      Agree i₂ r₂ (pairIdentity 3) (pairIdentity 4) res ∧
      ∃ j₂ r₁' res', Agree j₂ r₁' (pairIdentity 3) (pairIdentity 4) res' ∧ res'.resumed = true := by
  have hi : ∃ i, newPeerInitiator pairConfig = .ok i ∧ i.identity = pairIdentity 3 ∧ i.verifier = pairVerifier ∧
      i.peerNodeID = 4 ∧ i.resumption = none := ⟨_, rfl, rfl, rfl, rfl, rfl⟩
  obtain ⟨i, hi, hid, hver, hnode, hnone⟩ := hi
  obtain ⟨sigma1, i₁, sigma2, r₁, sigma3, i₂, r₂, res, h1, h2, h3, h4, hagree, hagain⟩ :=
    case_agreement Unit Unit works_pair (by decide) pairConfig i hi (pairIdentity 4) pairVerifier
      (by rw [hid, hver]; exact fellows_pair) (by rw [hnode]; rfl) {} () pairDraws
      (Responder.new (pairIdentity 4) pairVerifier 12) (Vector.replicate 32 5) (7 : Byte) () (fun _ _ => rfl)
      (fun _ _ _ => rfl) (fun _ _ _ _ _ _ h => by cases h)
  rw [hid] at hagree hagain
  let record : ResumptionRecord :=
    { sharedSecret := r₂.shared, resumptionID := r₂.resumptionID, fabricIndex := 1, peerNodeID := r₂.peerNodeID
      peerCATs := r₂.peerCATs }
  obtain ⟨j, sigma1', j1, sigma2Resume, keys, r₁', j₂, res', -, -, -, -, hresumed, -, hflag, -⟩ :=
    hagain { resumptionStore := some fun _ _ => some record } () pairDraws
      (Responder.new (pairIdentity 4) pairVerifier 13) (Vector.replicate 32 8) (1 : Byte) 14 none 1 1 pairVerifier
      (fun _ _ => some record) rfl rfl rfl
  exact ⟨i, sigma1, i₁, sigma2, r₁, sigma3, i₂, r₂, res, hi, h1, h2, h3, h4, hagree, j₂, r₁', res', hresumed, hflag⟩

end GF.Proof.Sigma
