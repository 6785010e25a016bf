import GoFabric.Spec.Handshake

/-!
# What the responder vouches for

A responder in `sigma2Sent` holds the exchange that was last made, whatever was called since
(`Holds`), and what a finished one reports stems from one handshake (`Stems`).
-/

namespace GF.Proof.Sigma

open GF.Impl.Sigma GF.Spec.Handshake Option

variable {P : Primitives} {World : Type} {r : Responder P} {w : Wiring P World} {world : World} {d : Draws P}
  {b : List Byte}

/-- The responder holds what the exchange fixes. -/
structure Holds (r : Responder P) (x : Exchange P) : Prop where
  sigma1Bytes : r.sigma1Bytes = x.sigma1Bytes
  sigma2 : r.sigma2 = x.sigma2
  sigma2Bytes : r.sigma2Bytes = some x.sigma2.marshal
  identity : r.identity = x.identity
  verifier : r.verifier = x.verifier
  shared : r.shared = x.shared
  initEphPub : r.initEphPub = x.msg.initiatorEphPubKey
  ephPubBytes : r.ephPubBytes = (P.ephPub x.eph).toList
  peerSessionID : r.peerSessionID = x.msg.initiatorSessionID

/-! ## Keys -/

/-- How both sides cut the key material. -/
theorem cutKeys_eq (final : Vector Byte 48) :
    cutKeys final = ⟨final.extract 0 16, final.extract 16 32, final.extract 32 48⟩ := by
  simp only [cutKeys, SessionKeys.mk.injEq]
  refine ⟨.symm (Vector.ext fun i _ => ?_), .symm (Vector.ext fun i _ => ?_), .symm (Vector.ext fun i _ => ?_)⟩ <;>
  · rw [Vector.getElem_extract]
    simp [Vector.get, Nat.add_comm]

/-! ## What the checks say -/

theorem verifyResumeMIC_iff {key : Vector Byte 16} {mic nonce : List Byte} :
    verifyResumeMIC P key mic nonce = true ↔ P.ccmSeal key nonce [] = some mic := by
  unfold verifyResumeMIC sealResumeMIC
  cases P.ccmSeal key nonce [] <;> simp

theorem verifyTranscript_iff {pub : P.Key} {sig noc icac selfEph peerEph : List Byte} :
    verifyTranscript P pub sig noc icac selfEph peerEph = true ↔ ∃ r s, unpackECDSASig sig = some (r, s) ∧
      P.verify pub (P.sha256 (signedDataBytes noc icac selfEph peerEph)) r s = true := by
  unfold verifyTranscript
  rcases unpackECDSASig sig with _ | ⟨r, s⟩ <;> simp

theorem checkFabricID_iff {v : PeerVerifier P} {noc : List Byte} {fabricID : BitVec 64} :
    checkFabricID v noc fabricID = .ok () ↔ v.peerFabricIDFromNOC.bind (· noc) = some fabricID := by
  unfold checkFabricID
  cases v.peerFabricIDFromNOC with
  | none => simp
  | some extract => cases h : extract noc <;> simp [h]

theorem readNodeID_iff {v : PeerVerifier P} {noc : List Byte} {nodeID : BitVec 64} :
    readNodeID v noc = .ok nodeID ↔ v.peerNodeIDFromNOC.bind (· noc) = some nodeID := by
  unfold readNodeID
  cases v.peerNodeIDFromNOC with
  | none => simp
  | some extract => cases h : extract noc <;> simp [h]

/-! ## What the calls do -/

/-- What `processSigma1Locked` does with a Sigma1 that it does not answer from its cache. -/
inductive Answered (w : Wiring P World) (world : World) (d : Draws P) (r : Responder P) (b : List Byte) :
    Except Error Sigma2 × Responder P → Prop
  | refused {e : Error} {r' : Responder P} (state : r'.state = .init ∨ r'.state = .failed)
      (cache : r'.sigma2Bytes = none) (identity : w.identityResolver = none → r'.identity = r.identity) :
      Answered w world d r b (.error e, r')
  | made {x : Exchange P} {r' : Responder P} (bytes : x.sigma1Bytes = b) (made : Made w world d r x)
      (holds : Holds r' x) (state : r'.state = .sigma2Sent) :
      Answered w world d r b (.ok x.sigma2, r')

variable {identity : Identity P} {verifier : PeerVerifier P} {x : Exchange P} {e : Event P World} {c : Call P World}
  {s : Watched P World} {v : Session}

theorem select_identity {m : Sigma1} (h : r.select w world m = some (identity, verifier))
    (hw : w.identityResolver = none) : identity = r.identity := by
  rw [Responder.select, hw] at h
  exact (Prod.ext_iff.1 (some.inj h)).1.symm

section
variable (w : Wiring P World) (world : World) (d : Draws P)

theorem answered_answerSigma1 (b : List Byte) (hstate : r.state = .init) (hcache : r.sigma2Bytes = none) :
    Answered w world d r b (Responder.answerSigma1 w world d r b) := by
  unfold Responder.answerSigma1
  cases hm : unmarshalSigma1 b with
  | error e => exact .refused (.inl hstate) hcache fun _ => rfl
  | ok m =>
    dsimp only
    cases hs : Responder.select w world { r with peerSessionParams := m.initiatorSessionParams } m with
    | none => exact .refused (.inr rfl) hcache fun _ => rfl
    | some selected =>
      obtain ⟨identity, verifier⟩ := selected
      have hid : w.identityResolver = none → identity = r.identity := select_identity hs
      cases hpoint : readPoint P m.initiatorEphPubKey with
      | error e => exact .refused (.inl hstate) hcache hid
      | ok point =>
        dsimp only
        cases hshared : P.ecdh d.eph point with
        | none => exact .refused (.inl hstate) hcache hid
        | some shared =>
          dsimp only
          split
          · exact .refused (.inl hstate) hcache hid
          split
          · exact .refused (.inl hstate) hcache hid
          · exact .made (x := ⟨b, m, identity, verifier, d.eph, shared, _⟩) rfl
              ⟨hm, hs, rfl, ⟨point, hpoint, hshared⟩, rfl⟩ ⟨rfl, rfl, rfl, rfl, rfl, rfl, rfl, rfl, rfl⟩ rfl

/-- Only the identity and the verifier of the responder before matter. -/
theorem Answered.congr {s : Responder P} {result : Except Error Sigma2 × Responder P}
    (hid : r.identity = s.identity) (hver : r.verifier = s.verifier) (h : Answered w world d r b result) :
    Answered w world d s b result := by
  cases h with
  | refused state cache identity => exact .refused state cache fun hw => (identity hw).trans hid
  | made bytes made holds state =>
    have hselect (m : Sigma1) : r.select w world m = s.select w world m := by
      unfold Responder.select
      rw [hid, hver]
    exact .made bytes { made with selected := (hselect _).symm.trans made.selected } holds state

theorem processSigma1Locked_cases (b : List Byte) (hidle : r.state = .init → r.sigma2Bytes = none) :
    (r.replays b = true ∧ r.processSigma1Locked w world d b = (.ok r.sigma2, r)) ∨
      (r.replays b = false ∧ Answered w world d r b (r.processSigma1Locked w world d b)) := by
  unfold Responder.processSigma1Locked
  cases hreplays : r.replays b with
  | true => exact .inl ⟨rfl, if_pos rfl⟩
  | false =>
    right
    refine ⟨rfl, ?_⟩
    by_cases hinit : r.state = .init
    · rw [if_pos hinit]
      exact answered_answerSigma1 w world d b hinit (hidle hinit)
    · rw [if_neg hinit]
      exact Answered.congr w world d (r := r.reset w world) rfl rfl (answered_answerSigma1 w world d b rfl rfl)

/-- What `ProcessSigma1WithResume` does. -/
inductive Restarted (r : Responder P) (b : List Byte) : Except Error Sigma1ProcessResult × Responder P → Prop
  | unread {e : Error} {e' : CodecError} (unparsed : unmarshalSigma1 b = .error e') : Restarted r b (.error e, r)
  | resumed {m : Sigma1} {store : World → List Byte → Option ResumptionRecord} {rec : ResumptionRecord}
      {verifier : PeerVerifier P} {s2r : Sigma2Resume} {keys : SessionKeys} {r' : Responder P}
      (parsed : unmarshalSigma1 b = .ok m) (wired : w.resumptionStore = some store)
      (found : store world m.resumptionID = some rec)
      (offered : m.resumptionID.length = 16)
      (verified : P.ccmSeal (sigma1ResumeKey P rec.sharedSecret m.initiatorRandom m.resumptionID) nonceResume1MIC [] =
        some m.initiatorResumeMIC)
      (selected : r.selectFabric w world rec.fabricIndex = some (r'.identity, verifier))
      (cache : r'.sigma1Bytes = r.sigma1Bytes ∧ r'.sigma2 = r.sigma2 ∧ r'.sigma2Bytes = r.sigma2Bytes)
      (state : r'.state = .finished) (session : session? r' = some (resumedSession m rec r'.identity)) :
      Restarted r b (.ok (.sigma2Resume s2r keys), r')
  | full {params : Option SessionParameters} {sessionID : BitVec 16} :
      Restarted r b (Responder.fullSigma w world d { r with peerSessionParams := params, sessionID } b)

theorem length_nonceForTBE (label : String) : (nonceForTBE label).length = Impl.Aesccm.nonceSize := by
  simp [nonceForTBE, Impl.Aesccm.copyTo]

theorem restarted_processSigma1WithResume (r : Responder P) (b : List Byte) :
    Restarted w world d r b (r.processSigma1WithResume w world d b) := by
  unfold Responder.processSigma1WithResume
  cases hm : unmarshalSigma1 b with
  | error e => exact .unread hm
  | ok m =>
    cases hstore : w.resumptionStore with
    | none => exact .full
    | some store =>
      dsimp only
      split
      · rename_i hlen
        -- the responder whose session id may be a fresh one
        generalize hr : (if r.state = ResponderState.finished then _ else _ : Responder P) = s
        obtain ⟨sessionID, rfl⟩ : ∃ sessionID,
            s = { r with peerSessionParams := m.initiatorSessionParams, sessionID } := by
          rw [← hr]
          split
          · exact ⟨_, rfl⟩
          · exact ⟨_, rfl⟩
        unfold Responder.tryResume
        cases hrec : store world m.resumptionID with
        | none => exact .full
        | some rec =>
          unfold Responder.resumeFrom
          dsimp only
          split_ifs with hmic
          · cases hselect : Responder.selectFabric w world
              { r with peerSessionParams := m.initiatorSessionParams, sessionID } rec.fabricIndex with
            | none => exact .full
            | some selected =>
              obtain ⟨mic, hseal⟩ := isSome_iff_exists.1
                (P.ccmSeal_nil (sigma2ResumeKey P rec.sharedSecret m.initiatorRandom d.resumptionID.toList)
                  nonceResume2MIC (length_nonceForTBE _))
              rw [sealResumeMIC, hseal]
              exact .resumed hm hstore hrec hlen.1 (verifyResumeMIC_iff.1 hmic) hselect ⟨rfl, rfl, rfl⟩ rfl
                (by rw [resumedSession, resumedKeys, cutKeys_eq]; rfl)
          · exact .full
      · exact .full

end

/-- A Sigma3 that is accepted is authentic, and the session is its own. -/
theorem verifySigma3Locked_eq_ok {r' : Responder P} (hx : Holds r x) (h : r.verifySigma3Locked b = .ok r') :
    (∃ tbe3 nodeID, Authentic x b tbe3 ∧ x.verifier.peerNodeIDFromNOC.bind (· tbe3.initiatorNOC) = some nodeID ∧
      session? { r' with state := .finished } = some (fullSession x b tbe3 nodeID)) ∧
    r'.sigma1Bytes = r.sigma1Bytes ∧ r'.sigma2 = r.sigma2 ∧ r'.sigma2Bytes = r.sigma2Bytes ∧
      r'.identity = r.identity := by
  unfold Responder.verifySigma3Locked at h
  rw [hx.sigma2Bytes, hx.sigma1Bytes, hx.shared, hx.identity, hx.verifier, hx.initEphPub, hx.ephPubBytes] at h
  obtain ⟨m, hm, h⟩ := except_bind_eq_ok.1 h
  dsimp only [getD_some] at h
  cases hplain : P.ccmOpen (s3k P x.shared x.identity.ipk.toList x.sigma1Bytes x.sigma2.marshal) nonceTBE3
      m.encrypted3 with
  | none => rw [hplain] at h; cases h
  | some plain =>
    rw [hplain] at h
    obtain ⟨tbe3, htbe3, h⟩ := except_bind_eq_ok.1 h
    cases hkey : x.verifier.verifyAndExtractPubKey tbe3.initiatorNOC tbe3.initiatorICAC with
    | none => rw [hkey] at h; cases h
    | some key =>
      rw [hkey] at h
      obtain ⟨⟨⟩, hfabric, h⟩ := except_bind_eq_ok.1 h
      split at h
      · rename_i hsigned
        obtain ⟨r0, s0, hsig⟩ := verifyTranscript_iff.1 hsigned
        obtain ⟨nodeID, hnode, h⟩ := except_bind_eq_ok.1 h
        obtain rfl := Except.ok.inj h
        refine ⟨⟨tbe3, nodeID, ⟨⟨m, plain, mapError_eq_ok.1 hm, hplain, mapError_eq_ok.1 htbe3⟩,
          ⟨key, r0, s0, hkey, hsig⟩, checkFabricID_iff.1 hfabric⟩, readNodeID_iff.1 hnode, ?_⟩, hx.sigma1Bytes.symm, rfl, hx.sigma2Bytes.symm, hx.identity.symm⟩
        simp [session?, Responder.sessionKeys?, Responder.sessionIdentity, fullSession, sessionKeys, cutKeys_eq, hx.peerSessionID]
      · cases h

/-! ## Runs -/

/-- What holds of the responder after every call. -/
structure Kept (w : Wiring P World) (r₀ : Responder P) (s : Watched P World) : Prop where
  idle : s.responder.state = .init → s.responder.sigma2Bytes = none
  cached : s.responder.sigma2Bytes ≠ none → ∃ x, Exchanged w s.history x ∧
    s.responder.sigma1Bytes = x.sigma1Bytes ∧ s.responder.sigma2 = x.sigma2
  waiting : s.responder.state = .sigma2Sent → ∃ x, Exchanged w s.history x ∧ Holds s.responder x
  session : ∀ v, session? s.responder = some v → Stems w r₀ s.history v
  single : w.identityResolver = none → s.responder.identity = r₀.identity
  vouches : Vouches w s.history

section
variable {r₀ : Responder P}

theorem Stems.cons {h : List (Event P World)} (hv : Stems w r₀ h v) (e : Event P World) :
    Stems w r₀ (e :: h) v := by
  rcases hv with ⟨x, b, tbe3, nodeID, haccepted, hv⟩ | ⟨e', he', hv⟩
  · exact .inl ⟨x, b, tbe3, nodeID, .inr haccepted, hv⟩
  · exact .inr ⟨e', List.mem_cons_of_mem e he', hv⟩

theorem session?_ne_some (h : r.state ≠ .finished) (v : Session) : session? r ≠ some v := by
  simp [session?, Responder.sessionKeys?, if_neg h]

theorem kept_start (hr : r₀.state = .init) (hcache : r₀.sigma2Bytes = none) :
    Kept w r₀ (Watched.start r₀ : Watched P World) where
  idle _ := hcache
  cached h := absurd hcache h
  waiting h := by
    have : r₀.state = .sigma2Sent := h
    rw [hr] at this
    cases this
  session v h := absurd h (session?_ne_some (r := r₀) (by rw [hr]; decide) v)
  single _ := rfl
  vouches := trivial

section

variable (hs : Kept w r₀ s)
include hs

/-- What is cached is still what was last exchanged after a call that brings no Sigma2. -/
theorem Kept.cached_other (he : e.reply.sigma2? = none)
    (hcache : r.sigma1Bytes = s.responder.sigma1Bytes ∧ r.sigma2 = s.responder.sigma2 ∧
      r.sigma2Bytes = s.responder.sigma2Bytes) (h : r.sigma2Bytes ≠ none) :
    ∃ x, Exchanged w (e :: s.history) x ∧ r.sigma1Bytes = x.sigma1Bytes ∧ r.sigma2 = x.sigma2 := by
  obtain ⟨h1, h2, h3⟩ := hcache
  obtain ⟨x, hx, hx1, hx2⟩ := hs.cached (h3 ▸ h)
  exact ⟨x, .other hx he, h1.trans hx1, h2.trans hx2⟩

/-- A call that changes nothing. -/
theorem Kept.unchanged (he : e.reply.sigma2? = none) (hvouches : Vouches w (e :: s.history)) :
    Kept w r₀ ⟨s.responder, e :: s.history⟩ := by
  refine ⟨hs.idle, hs.cached_other he ⟨rfl, rfl, rfl⟩, fun h => ?_, fun v hv => Stems.cons (hs.session v hv) _, hs.single,
    hvouches⟩
  obtain ⟨x, hx, hholds⟩ := hs.waiting h
  exact ⟨x, .other hx he, hholds⟩

/-- An event that is not a Sigma3 leaves what was vouched for. -/
theorem Kept.vouches_cons (he : ∀ b, e.call ≠ .sigma3 b) : Vouches w (e :: s.history) :=
  ⟨fun b hb => absurd hb (he b), hs.vouches⟩

/-- A Sigma1 on a responder that is kept, up to what `ProcessSigma1WithResume` sets before. -/
theorem Kept.locked (hc : c = .sigma1 world d b ∨ c = .sigma1WithResume world d b)
    (params : Option SessionParameters) (sessionID : BitVec 16) {result : Except Error Sigma2 × Responder P}
    (hresult : Responder.processSigma1Locked w world d { s.responder with peerSessionParams := params, sessionID } b =
      result) : Kept w r₀ ⟨result.2, ⟨s.responder, c, .sigma1 (result.1.map .sigma2)⟩ :: s.history⟩ := by
  have hvouches : Vouches w (⟨s.responder, c, .sigma1 (result.1.map .sigma2)⟩ :: s.history) :=
    hs.vouches_cons (by rcases hc with rfl | rfl <;> exact nofun)
  have hcases := processSigma1Locked_cases w world d
    (r := { s.responder with peerSessionParams := params, sessionID }) b hs.idle
  rw [hresult] at hcases
  rcases hcases with ⟨hreplays, rfl⟩ | ⟨hreplays, hanswered⟩
  · -- the responder answers from its cache, which is what was last exchanged
    have hagain : ∀ x : Exchange P, Exchanged w s.history x → s.responder.sigma1Bytes = x.sigma1Bytes →
        s.responder.sigma2 = x.sigma2 →
        Exchanged w (⟨s.responder, c, .sigma1 (.ok (.sigma2 s.responder.sigma2))⟩ :: s.history) x := by
      intro x hx h1 h2
      have hb : s.responder.sigma1Bytes = b := by
        simp only [Responder.replays, Bool.and_eq_true, decide_eq_true_eq] at hreplays
        exact hreplays.1.2
      refine .repeated hx ⟨congrArg some h2, ?_, world, d, ?_⟩
      · rw [← h1, hb]
        exact hreplays
      · rw [← h1, hb]
        exact hc
    refine ⟨hs.idle, fun h => ?_, fun h => ?_, fun v hv => Stems.cons (hs.session v hv) _, hs.single, hvouches⟩
    · obtain ⟨x, hx, h1, h2⟩ := hs.cached h
      exact ⟨x, hagain x hx h1 h2, h1, h2⟩
    · obtain ⟨x, hx, hholds⟩ := hs.waiting h
      exact ⟨x, hagain x hx hholds.sigma1Bytes hholds.sigma2, { hholds with }⟩
  · generalize hr : ({ s.responder with peerSessionParams := params, sessionID } : Responder P) = r at hanswered
    cases hanswered with
    | @refused e r' state cache identity =>
      have hfinished : r'.state ≠ .finished := by
        rcases state with h | h <;> rw [h] <;> exact nofun
      refine ⟨fun _ => cache, fun h => absurd cache h, fun h => ?_,
        fun v hv => absurd hv (session?_ne_some hfinished v), fun hw => ?_, hvouches⟩
      · have h' : r'.state = .sigma2Sent := h
        rcases state with hst | hst <;> rw [hst] at h' <;> cases h'
      · rw [identity hw, ← hr]
        exact hs.single hw
    | @made x r' bytes made holds state =>
      subst hr bytes
      have hmade : Exchanged w (⟨s.responder, c, .sigma1 (.ok (.sigma2 x.sigma2))⟩ :: s.history) x :=
        .made ⟨rfl, hreplays, world, d, hc, { made with selected := made.selected }⟩
      refine ⟨fun h => ?_, fun _ => ⟨x, hmade, holds.sigma1Bytes, holds.sigma2⟩, fun _ => ⟨x, hmade, holds⟩,
        fun v hv => absurd hv (session?_ne_some (by rw [state]; exact nofun) v), fun hw => ?_, hvouches⟩
      · have h' : r'.state = .init := h
        rw [state] at h'
        cases h'
      · exact holds.identity.trans ((select_identity made.selected hw).trans (hs.single hw))

/-- The identity of a resumed session, where the call is sound. -/
theorem selectFabric_start {fabricIndex : BitVec 8} (hsound : Sound w r₀ s (.sigma1WithResume world d b))
    (h : s.responder.selectFabric w world fabricIndex = some (identity, verifier)) :
    ∃ verifier', r₀.selectFabric w world fabricIndex = some (identity, verifier') := by
  unfold Responder.selectFabric at h ⊢
  cases hres : w.identityResolver with
  | none =>
    rw [hres] at h
    have hid : s.responder.identity = identity := (Prod.ext_iff.1 (some.inj h)).1
    exact ⟨r₀.verifier, by rw [← hid, hs.single hres]; rfl⟩
  | some resolver =>
    rw [hres] at h
    cases hfir : resolver.resolveFabricIndex with
    | some resolve =>
      simp only [bind_some, hfir] at h ⊢
      exact ⟨verifier, h⟩
    | none =>
      simp only [bind_some, hfir] at h ⊢
      have hid : s.responder.identity = identity := (Prod.ext_iff.1 (some.inj h)).1
      rcases hsound with hall | hbase
      · rw [hres, all_some, hfir] at hall
        cases hall
      · exact ⟨r₀.verifier, by rw [← hid, hbase]⟩

theorem Kept.resume (hsound : Sound w r₀ s (.sigma1WithResume world d b))
    {result : Except Error Sigma1ProcessResult × Responder P} (hresult : Restarted w world d s.responder b result) :
    Kept w r₀ ⟨result.2, ⟨s.responder, .sigma1WithResume world d b, .sigma1 result.1⟩ :: s.history⟩ := by
  cases hresult with
  | unread => exact hs.unchanged rfl (hs.vouches_cons nofun)
  | @resumed m store rec verifier s2r keys r' parsed wired found offered verified selected cache state session =>
    refine ⟨fun h => ?_, hs.cached_other rfl cache, fun h => ?_, fun v hv => ?_, fun hw => ?_, hs.vouches_cons nofun⟩
    · cases state.symm.trans h
    · cases state.symm.trans h
    · obtain rfl : resumedSession m rec r'.identity = v := some.inj (session.symm.trans hv)
      obtain ⟨verifier', hselect⟩ := selectFabric_start hs hsound selected
      exact .inr ⟨_, List.mem_cons_self, world, d, b, m, store, rec, r'.identity, verifier', rfl, parsed, wired, found,
        verified, hselect, rfl⟩
    · rw [Responder.selectFabric, hw] at selected
      have hid : s.responder.identity = r'.identity := (Prod.ext_iff.1 (some.inj selected)).1
      exact hid.symm.trans (hs.single hw)
  | @full params sessionID => exact hs.locked (.inr rfl) params sessionID rfl

theorem Kept.sigma3 (hsound : Sound w r₀ s (.sigma3 b)) {result : Except Error Unit × Responder P}
    (hresult : s.responder.processSigma3 b = result) :
    Kept w r₀ ⟨result.2, ⟨s.responder, .sigma3 b, .sigma3 result.1⟩ :: s.history⟩ := by
  unfold Responder.processSigma3 at hresult
  split at hresult
  · rename_i hfinished
    subst hresult
    refine hs.unchanged rfl ⟨fun b' hb' _ => ?_, hs.vouches⟩
    obtain rfl : b = b' := Call.sigma3.inj hb'
    obtain ⟨x, hx, haccepted⟩ := hsound hfinished
    exact ⟨x, hx, .inr haccepted⟩
  · split at hresult
    · subst hresult
      exact hs.unchanged rfl ⟨fun _ _ => nofun, hs.vouches⟩
    rename_i hfinished hstate
    have hstate : s.responder.state = .sigma2Sent := not_not.1 hstate
    obtain ⟨x, hx, hholds⟩ := hs.waiting hstate
    cases hverify : s.responder.verifySigma3Locked b with
    | error e =>
      rw [hverify] at hresult
      subst hresult
      refine ⟨nofun, hs.cached_other rfl ⟨rfl, rfl, rfl⟩, nofun, fun v hv => ?_, hs.single, fun b' _ hreply => ?_,
        hs.vouches⟩
      · exact absurd hv (session?_ne_some (r := { s.responder with state := .failed }) nofun v)
      · cases hreply
    | ok r' =>
      rw [hverify] at hresult
      subst hresult
      obtain ⟨⟨tbe3, nodeID, hauthentic, hnode, hsession⟩, hcache1, hcache2, hcache3, hid⟩ :=
        verifySigma3Locked_eq_ok hholds hverify
      refine ⟨nofun, hs.cached_other rfl ⟨hcache1, hcache2, hcache3⟩, nofun, fun v hv => ?_,
        fun hw => hid.trans (hs.single hw), fun b' hb' _ => ?_, hs.vouches⟩
      · obtain rfl : fullSession x b tbe3 nodeID = v := some.inj (hsession.symm.trans hv)
        exact .inl ⟨x, b, tbe3, nodeID, .inl ⟨hstate, rfl, rfl, hx⟩, hauthentic, hnode, rfl⟩
      · obtain rfl : b = b' := Call.sigma3.inj hb'
        exact ⟨x, hx, .inl ⟨tbe3, hauthentic⟩⟩
end

theorem Kept.step {s' : Watched P World} (hsound : Sound w r₀ s c) (hs : Kept w r₀ s)
    (h : (calls w).step s c = some s') : Kept w r₀ s' := by
  obtain rfl := some.inj h
  cases c with
  | sigma1 world d b => exact hs.locked (.inl rfl) s.responder.peerSessionParams s.responder.sessionID rfl
  | sigma1WithResume world d b => exact hs.resume hsound (restarted_processSigma1WithResume w world d s.responder b)
  | sigma3 b => exact hs.sigma3 hsound rfl

end

/-- Along every run of sound calls on a responder, a Sigma3 is answered with success only where
it is authentic for the Sigma1 and the Sigma2 that were last exchanged or was accepted for
them, and what a finished responder reports stems from one handshake. -/
theorem responder_vouches (w : Wiring P World) (identity : Identity P) (verifier : PeerVerifier P)
    (sessionID : BitVec 16) (cs : List (Call P World)) (s : Watched P World)
    (hsound : (calls w).Meets (Sound w (Responder.new identity verifier sessionID))
      (Watched.start (Responder.new identity verifier sessionID)) cs)
    (hrun : (calls w).run (Watched.start (Responder.new identity verifier sessionID)) cs = some s) :
    Vouches w s.history ∧
      ∀ v, session? s.responder = some v → Stems w (Responder.new identity verifier sessionID) s.history v := by
  have hkept : Kept w (Responder.new identity verifier sessionID) s :=
    (calls w).run_invariant_meets (fun _ _ _ hq hs h => Kept.step hq hs h) hsound (kept_start rfl rfl) hrun
  exact ⟨hkept.vouches, hkept.session⟩

/-! ## Concrete runs

Primitives without secrets: every key is the same, a sealed text is the text with a tag of
zeros, every signature is `(1, 1)`. -/

def toyPrimitives : Primitives where
  Eph := Unit
  Point := Unit
  Key := Unit
  Signer := Unit
  Entropy := Unit
  sha256 _ := Vector.replicate 32 0
  hmac _ _ := Vector.replicate 32 0
  hkdf _ _ _ l := Vector.replicate l 0
  ephPub _ := Vector.replicate 65 0x04
  unmarshalPoint _ := some (1, 1)
  newPublicKey _ := some ()
  ecdh _ _ := some [1]
  sign _ _ _ := some (1, 1)
  verify _ _ r s := r = 1 && s = 1
  ccmSeal _ _ p := some (p ++ List.replicate 16 0)
  ccmOpen _ _ c := some (c.take (c.length - 16))
  ccmSeal_nil _ _ _ := rfl

/-- A verifier that accepts every certificate, as one of node 7 on fabric 0. -/
def toyVerifier : PeerVerifier toyPrimitives where
  verifyAndExtractPubKey _ _ := some ()
  peerNodeIDFromNOC := some fun _ => some 7
  peerFabricIDFromNOC := some fun _ => some 0

def toyIdentity : Identity toyPrimitives := { noc := [2], signer := some () }

def toyDraws : Draws toyPrimitives where
  random := Vector.replicate 32 0
  eph := ()
  entropy := ()
  resumptionID := Vector.replicate 16 0

/-- A Sigma1, with or without a resumption id. -/
def toySigma1 (resumptionID : List Byte) : List Byte :=
  Sigma1.marshal
    { initiatorRandom := Vector.replicate 32 0, initiatorSessionID := 3, destinationID := Vector.replicate 32 0
      initiatorEphPubKey := List.replicate 65 0x04, resumptionID, initiatorResumeMIC := resumptionID }

def toySigma3 : List Byte :=
  Sigma3.marshal
    { encrypted3 := marshalTBE3 { initiatorNOC := [1], signature := packECDSASig 1 1 } ++ List.replicate 16 0 }

/-- A store with one record, and a resolver of fabric 5 that resolves no fabric indices. -/
def toyWiring : Wiring toyPrimitives Unit where
  resumptionStore := some fun _ id =>
    some { sharedSecret := [1], resumptionID := id, fabricIndex := 1, peerNodeID := 7, peerCATs := [] }
  identityResolver := some
    { resolveSigma1Destination := fun _ _ _ => some ({ toyIdentity with fabricIndex := 5 }, toyVerifier) }

def toyResponder : Responder toyPrimitives := Responder.new { toyIdentity with fabricIndex := 1 } toyVerifier 9

def toyStart : Call toyPrimitives Unit := .sigma1 () toyDraws (toySigma1 [])

def toyResume : Call toyPrimitives Unit := .sigma1WithResume () toyDraws (toySigma1 (List.replicate 16 0))

theorem Exchanged.sigma3 (h : Exchanged w s.history x) (b : List Byte) :
    Exchanged w (s.next w (.sigma3 b)).history x := .other h rfl

theorem Exchanged.accepted (h : Exchanged w s.history x) (hsent : s.responder.state = .sigma2Sent)
    (hok : (s.responder.processSigma3 b).1 = .ok ()) : Accepted w (s.next w (.sigma3 b)).history x b :=
  .inl ⟨hsent, rfl, congrArg Reply.sigma3 hok, h⟩

theorem processSigma3_eq_ok (h : (r.processSigma3 b).2.state = .finished) : (r.processSigma3 b).1 = .ok () := by
  unfold Responder.processSigma3 at h ⊢
  split
  · rfl
  rename_i hfinished
  rw [if_neg hfinished] at h
  split
  · rename_i hstate
    rw [if_pos hstate] at h
    exact absurd h hfinished
  rename_i hstate
  rw [if_neg hstate] at h
  cases hverify : r.verifySigma3Locked b with
  | error e => rw [hverify] at h; cases h
  | ok r' => rfl

/-- A finished responder that never sent a Sigma2 vouches for whatever it is given. -/
theorem not_vouches_of_finished (hfinished : s.responder.state = .finished) (hnone : ∀ x, ¬Exchanged w s.history x)
    (b : List Byte) : ¬Vouches w (s.next w (.sigma3 b)).history := by
  rintro ⟨hvouches, -⟩
  have hok : (call w s.responder (.sigma3 b)).1 = .sigma3 (.ok ()) := by
    simp only [call, Responder.processSigma3, if_pos hfinished]
  obtain ⟨x, hx, -⟩ := hvouches b rfl hok
  exact hnone x hx

theorem not_exchanged_of_first (h : (call w r c).1.sigma2? = none) (x : Exchange P) :
    ¬Exchanged w ((Watched.start r).next w c).history x := by
  intro hx
  cases hx with
  | made hmakes => cases h.symm.trans hmakes.1
  | repeated hx _ => cases hx
  | other hx _ => cases hx

/-- Without a Sigma3, and without a resolver of fabric indices, a session stems from a
handshake only under the responder's own identity. -/
theorem sessionIdentity_of_stems {r₀ : Responder P} {h : List (Event P World)}
    (hresolver : w.identityResolver.bind (·.resolveFabricIndex) = none) (hsigma3 : ∀ e ∈ h, ∀ b, e.call ≠ .sigma3 b)
    (hv : Stems w r₀ h v) : v.sessionIdentity = some (r₀.identity.fabricIndex, r₀.identity.nodeID) := by
  rcases hv with ⟨x, b, _, _, haccepted, _⟩ | ⟨_, _, _, _, _, m, _, rec, identity, _, _, _, _, _, _, hselect, rfl⟩
  · exfalso
    induction h with
    | nil => exact haccepted
    | cons e h ih =>
      rcases haccepted with ⟨_, hcall, _⟩ | haccepted
      · exact hsigma3 e List.mem_cons_self b hcall
      · exact ih (fun e he => hsigma3 e (List.mem_cons_of_mem _ he)) haccepted
  · rw [Responder.selectFabric, hresolver] at hselect
    obtain rfl : r₀.identity = identity := (Prod.ext_iff.1 (some.inj hselect)).1
    rfl

/-- After a resumption any bytes are taken for a Sigma3, and no Sigma2 was ever sent; a
resumption after another Sigma1 is under the identity that this one selected. -/
theorem sigma3_of_resumed_and_identity_of_earlier :
    (∃ s, (calls toyWiring).run (Watched.start toyResponder) [toyResume, .sigma3 []] = some s ∧
      ¬Vouches toyWiring s.history) ∧
    ∃ s v, (calls toyWiring).run (Watched.start toyResponder) [toyStart, toyResume] = some s ∧
      session? s.responder = some v ∧ ¬Stems toyWiring toyResponder s.history v := by
  have hrun (c c' : Call toyPrimitives Unit) : (calls toyWiring).run (Watched.start toyResponder) [c, c'] =
      some (((Watched.start toyResponder).next toyWiring c).next toyWiring c') := rfl
  constructor
  · refine ⟨_, hrun toyResume (.sigma3 []), not_vouches_of_finished ?_ (not_exchanged_of_first ?_) []⟩
    · decide +kernel
    · decide +kernel
  have hidentity : (session? (((Watched.start toyResponder).next toyWiring toyStart).next toyWiring
      toyResume).responder).map (·.sessionIdentity) = some (some (5, 0)) := by decide +kernel
  obtain ⟨v, hv, hv5⟩ := map_eq_some_iff.1 hidentity
  refine ⟨_, v, hrun toyStart toyResume, hv, fun hstems => ?_⟩
  have hown := sessionIdentity_of_stems rfl ?_ hstems
  · rw [hown] at hv5
    exact absurd hv5 (by decide +kernel)
  intro e he b
  rcases List.mem_cons.1 he with rfl | he
  · exact nofun
  · rcases List.mem_singleton.1 he with rfl
    exact nofun

/-- A whole handshake, and its Sigma3 once more. -/
theorem responder_vouches_sample :
    ∃ cs s, (calls toyWiring).Meets (Sound toyWiring toyResponder) (Watched.start toyResponder) cs ∧
      (calls toyWiring).run (Watched.start toyResponder) cs = some s ∧ cs.length = 3 ∧
      (session? s.responder).isSome = true ∧ Vouches toyWiring s.history ∧
      ∀ v, session? s.responder = some v → Stems toyWiring toyResponder s.history v := by
  let s1 := (Watched.start toyResponder).next toyWiring toyStart
  let c : Call toyPrimitives Unit := .sigma3 toySigma3
  have hkept : Kept toyWiring toyResponder s1 := Kept.step (c := toyStart) trivial (kept_start rfl rfl) rfl
  have hsent : s1.responder.state = .sigma2Sent := by decide +kernel
  have hfinished : (s1.responder.processSigma3 toySigma3).2.state = .finished := by decide +kernel
  have hsession : (session? ((s1.next toyWiring c).next toyWiring c).responder).isSome = true := by decide +kernel
  obtain ⟨x, hx, -⟩ := hkept.waiting hsent
  have hexchanged := Exchanged.sigma3 hx toySigma3
  have haccepted := Exchanged.accepted hx hsent (processSigma3_eq_ok hfinished)
  have hmeets : (calls toyWiring).Meets (Sound toyWiring toyResponder) (Watched.start toyResponder)
      [toyStart, c, c] := by
    refine ⟨trivial, fun t ht => ?_⟩
    obtain rfl := some.inj ht
    refine ⟨fun hfinal => absurd (hsent.symm.trans hfinal) nofun, fun t ht => ?_⟩
    obtain rfl := some.inj ht
    exact ⟨fun _ => ⟨x, hexchanged, haccepted⟩, fun _ _ => trivial⟩
  have hrun (c1 c2 c3 : Call toyPrimitives Unit) :
      (calls toyWiring).run (Watched.start toyResponder) [c1, c2, c3] =
        some ((((Watched.start toyResponder).next toyWiring c1).next toyWiring c2).next toyWiring c3) := rfl
  have hlast := hrun toyStart c c
  exact ⟨_, _, hmeets, hlast, rfl, hsession,
    responder_vouches toyWiring { toyIdentity with fabricIndex := 1 } toyVerifier 9 _ _ hmeets hlast⟩

end GF.Proof.Sigma
