import GoFabric.Proof.Btp.Host
import GoFabric.Spec.Peer

/-!
# Numbers, acknowledgements and the window

A session numbers the packets that it writes from 0 on, modulo 256, and compares numbers as
distances modulo 256. `Numbered` gives the numbers themselves: the last packet written, the
last one acknowledged, and that the window keeps them closer than 256 apart, so that each
comparison is the one that is meant. Every event keeps it (`Numbered.step`). The window
follows, and what an acknowledgement names, but for one number: before the first
acknowledgement the last one acknowledged is -1, which reads as 255.
-/

namespace GF.Proof.Btp

open GF.Impl.Btp GF.Spec.Peer List Option

variable {a : Byte} {h₁ : Host} {data : List Byte} {s s₁ : Session} {pk : Packet} {r : Reassembly} {e : HostEvent}

/-! ## The packets written -/

theorem length_numbers (h : Host) : ((numbers h).length : Int) = h.sent + 1 := by
  unfold numbers Host.sent
  cases h.session.role with
  | central => simp
  | peripheral => simp only [length_append, length_map, length_singleton]; omega

theorem consecutive_succ (n : Nat) : consecutive (n + 1) = consecutive n ++ [some (BitVec.ofNat 8 n)] := by
  unfold consecutive
  rw [range_succ, map_append]
  rfl

theorem getElem?_consecutive {n i : Nat} (hi : i < n) : (consecutive n)[i]? = some (some (BitVec.ofNat 8 i)) := by
  unfold consecutive
  rw [List.getElem?_map, List.getElem?_range hi]
  rfl

/-- The numbers behind the counters of a session with a window of `w`. -/
structure Numbered (w : Nat) (h : Host) : Prop where
  windowSize : h.session.windowSize = w
  small : w ≤ 255
  inOrder : numbers h = consecutive (numbers h).length
  sent : Wraps h.session.seq h.sent
  unsent : h.sent = -1 → h.session.seq = -1
  acked : Wraps h.session.prevIncomingAck h.acked
  acked_ge : -1 ≤ h.acked
  acked_le : h.acked ≤ h.sent
  window : h.sent - h.acked ≤ max w 1

variable {w : Nat} {h h' : Host}

section

variable (hn : Numbered w h)
include hn

theorem Numbered.distance : h.sent - h.acked ≤ 255 := by
  have hw := hn.window
  have hs := hn.small
  omega

/-- Nothing is written, and more may be acknowledged. -/
theorem Numbered.update (hrole : h'.session.role = h.session.role)
    (hwindow : h'.session.windowSize = h.session.windowSize) (hseq : h'.session.seq = h.session.seq)
    (hwritten : h'.written = h.written) (hacked : Wraps h'.session.prevIncomingAck h'.acked)
    (hmore : h.acked ≤ h'.acked) (hle : h'.acked ≤ h.sent) : Numbered w h' := by
  have hsent : h'.sent = h.sent := by unfold Host.sent; rw [hrole, hwritten]
  have hnumbers : numbers h' = numbers h := by unfold numbers; rw [hrole, hwritten]
  have hge := hn.acked_ge
  have hw := hn.window
  refine
    { windowSize := hwindow.trans hn.windowSize, small := hn.small, inOrder := ?_, sent := ?_, unsent := ?_
      acked := hacked, acked_ge := by omega, acked_le := by omega, window := by omega }
  · rw [hnumbers]; exact hn.inOrder
  · rw [hsent, hseq]; exact hn.sent
  · rw [hsent, hseq]; exact hn.unsent

/-- A packet that is written has the next number, and the window has room for it. -/
theorem Numbered.wrote {packet : List Byte} (hwrote : Wrote h.session h'.session pk packet)
    (hacked : h'.acked = h.acked) (hwritten : h'.written = h.written ++ [packet]) :
    Numbered w h' ∧ decodePacket packet = .ok pk ∧ (pk.header.hasAckNumber = false → h'.sent - h'.acked < w) := by
  have hdecode := decodePacket_of_encode hwrote.encoded
  have hrole : h'.session.role = h.session.role := hwrote.next.role
  have hsent : h'.sent = h.sent + 1 := by
    unfold Host.sent
    rw [hrole, hwritten, length_append, length_singleton]
    omega
  have hnumber : (pk.payload.sequenceNumber.toNat : Int) = (h.sent + 1) % 256 := by
    rw [hwrote.number]
    exact toNat_nextSequenceNumber hn.sent
  have hnumbers : numbers h' = numbers h ++ [some pk.payload.sequenceNumber] := by
    have hof : numberOf packet = some pk.payload.sequenceNumber := by unfold numberOf; rw [hdecode]; rfl
    unfold numbers
    rw [hrole, hwritten, map_append, map_singleton, hof, append_assoc]
  have hlength := length_numbers h
  have hle := hn.acked_le
  have hge := hn.acked_ge
  obtain ⟨hroom, hlast⟩ := room_of_canSend hn.acked hn.sent hle hn.distance hwrote.room
  rw [hn.windowSize] at hroom hlast
  refine ⟨?_, hdecode, fun hnone => ?_⟩
  · refine
      { windowSize := hwrote.next.windowSize.trans hn.windowSize, small := hn.small, inOrder := ?_
        sent := .inl ?_, unsent := ?_, acked := ?_, acked_ge := ?_, acked_le := ?_, window := ?_ }
    · rw [hnumbers, length_append, length_singleton, consecutive_succ, ← hn.inOrder]
      congr 3
      apply BitVec.eq_of_toNat_eq
      rw [BitVec.toNat_ofNat]
      omega
    · rw [hwrote.next.seq, hsent]
      exact hn.sent.next
    · omega
    · rw [hacked, hwrote.next.prevIncomingAck]
      exact hn.acked
    · omega
    · omega
    · omega
  · have := hlast hnone
    omega

theorem Numbered.change (hchange : Change h h') :
    Numbered w h' ∧ (h'.written = h.written ∨ ∃ packet pk, h'.written = h.written ++ [packet] ∧
      decodePacket packet = .ok pk ∧ (pk.header.hasAckNumber = false → h'.sent - h'.acked < w)) := by
  obtain ⟨hsame, hkeeps⟩ | ⟨pk, packet, hnew, hwrote⟩ := hchange.sends
  · have hacked : Wraps h'.session.prevIncomingAck h'.acked := by
      rw [hkeeps.prevIncomingAck, hchange.acked]
      exact hn.acked
    exact ⟨hn.update hkeeps.role hkeeps.windowSize hkeeps.seq hsame hacked hchange.acked.ge
      (hchange.acked.trans_le hn.acked_le), .inl hsame⟩
  · obtain ⟨hnumbered, hdecode, hlast⟩ := hn.wrote hwrote hchange.acked hnew
    exact ⟨hnumbered, .inr ⟨packet, pk, hnew, hdecode, hlast⟩⟩

/-! ## The packets read -/

/-- An acknowledgement that is accepted names a packet between the last one acknowledged and
the last one written. -/
theorem Numbered.ackPosition
    (hle : modularDistance h.session.prevIncomingAck a.toNat ≤ modularDistance h.session.prevIncomingAck h.session.seq) :
    h.acked ≤ Host.ackPosition h.acked a ∧ Host.ackPosition h.acked a ≤ h.sent ∧
      Host.ackPosition h.acked a % 256 = a.toNat := by
  have hdistance := hn.acked.distance hn.sent hn.acked_le hn.distance
  have hcounter : modularDistance h.session.prevIncomingAck a.toNat = (a.toNat - h.acked) % 256 := by
    rw [modularDistance_eq]
    obtain heq | ⟨heq, heq'⟩ := hn.acked
    · omega
    · rw [heq, heq']
  unfold Host.ackPosition
  omega

theorem Numbered.acknowledged {number : Byte} {ackNumber : Option Byte}
    (hack : (counted h.session number).acceptAck ackNumber = .ok s₁)
    (hsession : h₁.session = { s₁ with reassembly := r }) (hacked : h₁.acked = (h.record (ackNumber, none)).acked)
    (hwritten : h₁.written = h.written) : Numbered w h₁ := by
  obtain ⟨rfl, rfl⟩ | ⟨a, rfl, hle, rfl⟩ := acceptAck_ok hack
  · refine hn.update ?_ ?_ ?_ hwritten ?_ hacked.ge (hacked.trans_le hn.acked_le)
    · rw [hsession]; rfl
    · rw [hsession]; rfl
    · rw [hsession]; rfl
    · rw [hsession, hacked]; exact hn.acked
  · obtain ⟨hfrom, hto, hmod⟩ := hn.ackPosition hle
    refine hn.update ?_ ?_ ?_ hwritten ?_ (hfrom.trans_eq hacked.symm) (hacked.trans_le hto)
    · rw [hsession]; rfl
    · rw [hsession]; rfl
    · rw [hsession]; rfl
    · rw [hsession, hacked]
      exact .inl hmod.symm

theorem Numbered.reads (hr : Reads h data h₁) : Numbered w h₁ ∧ h₁.written = h.written := by
  cases hr with
  | refused | badAck pk hdecode => exact ⟨hn.update rfl rfl rfl rfl hn.acked (le_refl _) hn.acked_le, rfl⟩
  | badSegment pk hdecode s₁ hack r e hadd
  | message pk hdecode s₁ hack r msg hadd
  | flush pk hdecode s₁ hack r hadd => exact ⟨hn.acknowledged hack rfl rfl rfl, rfl⟩

end

/-- One event: the numbers are kept, and at most one packet is written. -/
theorem Numbered.step (hc : Calls h) (hn : Numbered w h) (hstep : hostSystem.step h e = some h') :
    Calls h' ∧ Numbered w h' ∧ (h'.written = h.written ∨ ∃ packet pk, h'.written = h.written ++ [packet] ∧
      decodePacket packet = .ok pk ∧ (pk.header.hasAckNumber = false → h'.sent - h'.acked < w)) := by
  obtain ⟨hcalls, hchange | ⟨data, h₁, -, -, -, hreads, hchange⟩⟩ := step_cases hc hstep
  · exact ⟨hcalls, hn.change hchange⟩
  · obtain ⟨hn₁, hwritten⟩ := hn.reads hreads
    exact ⟨hcalls, hwritten ▸ hn₁.change hchange⟩

/-! ## New sessions -/

/-- A new session, as its role has it. -/
def startOf (role : Role) (fragmentSize windowSize : Nat) (ackReceiveTimer : Bool) : Session :=
  { role, fragmentSize, windowSize, reassembly := .empty, prevIncomingAck := -1, queue := [], sendInProgress := false
    active := true, pendingFirstAck := [], pendingLive := true, ackReceiveTimer, idleTimer := false
    prevIncomingSeq := if role = .central then 0 else 255, seq := if role = .central then -1 else 0
    prevAckedSeq := if role = .central then -1 else 255, sendAckTimer := decide (role = .central) }

theorem newSession_eq {role : Role} {version F W : Nat} (h : newSession role version F W = .ok s) :
    s = startOf role F W false := by
  unfold newSession at h
  split at h
  · cases h
  · cases role with
    | central | peripheral => exact (Except.ok.inj h).symm

theorem created_start (hs : Created s) :
    ∃ role F W ackReceiveTimer, W ≤ 255 ∧ s = startOf role F W ackReceiveTimer := by
  obtain ⟨maxDataSize, request, response, hp⟩ | ⟨response, requestedSegmentSize, hp⟩ := hs
  · unfold newPeripheral at hp
    cases hreq : decodeHandshakeRequest request with
    | error e => rw [hreq] at hp; cases hp
    | ok req =>
      rw [hreq] at hp
      dsimp only [bind, Except.bind] at hp
      split at hp
      · cases hp
      cases hnew : newSession .peripheral _ _ (min maximumWindowSize req.clientWindowSize.toNat) with
      | error e => rw [hnew] at hp; cases hp
      | ok t =>
        rw [hnew] at hp
        obtain ⟨rfl, -⟩ := Prod.mk.inj (Except.ok.inj hp)
        obtain rfl := newSession_eq hnew
        exact ⟨_, _, _, true, Nat.min_le_left 255 _, rfl⟩
  · unfold newCentral at hp
    split at hp
    · cases hp
    cases hresp : decodeHandshakeResponse response with
    | error e => rw [hresp] at hp; cases hp
    | ok resp =>
      rw [hresp] at hp
      dsimp only [bind, Except.bind] at hp
      exact ⟨_, _, _, false, Nat.le_of_lt_succ resp.windowSize.isLt, newSession_eq hp⟩

theorem calls_new (hs : Created s) : Calls (Host.new s) := by
  obtain ⟨role, F, W, ackReceiveTimer, -, rfl⟩ := created_start hs
  exact ⟨rfl, fun _ => rfl, rfl⟩

theorem numbered_new (hs : Created s) : Numbered s.windowSize (Host.new s) := by
  obtain ⟨role, F, W, ackReceiveTimer, hsmall, rfl⟩ := created_start hs
  cases role with
  | central =>
    exact
      { windowSize := rfl, small := hsmall, inOrder := rfl, sent := .inr ⟨rfl, rfl⟩, unsent := fun _ => rfl
        acked := .inr ⟨rfl, rfl⟩, acked_ge := le_refl _, acked_le := le_refl _
        window := by show (-1 : Int) - -1 ≤ _; omega }
  | peripheral =>
    exact
      { windowSize := rfl, small := hsmall, inOrder := rfl, sent := .inl rfl
        unsent h0 := absurd (show (0 : Int) = -1 from h0) (by decide)
        acked := .inr ⟨rfl, rfl⟩, acked_ge := le_refl _, acked_le := by show (-1 : Int) ≤ 0; omega
        window := by show (0 : Int) - -1 ≤ _; omega }

theorem created_run (hs : Created s) {es : List HostEvent} (hrun : hostSystem.run (Host.new s) es = some h) :
    Calls h ∧ Numbered s.windowSize h :=
  System.run_invariant (P := fun h => Calls h ∧ Numbered s.windowSize h)
    (fun _ _ _ ⟨hc, hn⟩ hstep => ⟨(hn.step hc hstep).1, (hn.step hc hstep).2.1⟩) ⟨calls_new hs, numbered_new hs⟩ hrun

/-! ## The window -/

/-- A session keeps to its window, if that has a packet, with any peer. -/
theorem window_kept {s : Session} (hs : Created s) (hw : 1 ≤ s.windowSize) {es : List HostEvent}
    (hrun : hostSystem.run (Host.new s) es = some h) : KeepsWindow s.windowSize h := by
  obtain ⟨hc, hn⟩ := created_run hs hrun
  have hwindow := hn.window
  refine ⟨by omega, hn.inOrder, fun e h' hstep => (hn.step hc hstep).2.2⟩

/-- The central sends a message in two segments and gets the first one acknowledged. -/
def windowEvents : List HostEvent :=
  [.send (List.replicate 30 7), .writeReturned, .incoming [0b00001000, 0, 1], .writeReturned]

theorem window_kept_sample :
    ∃ h, hostSystem.run (Host.new sampleCentral) windowEvents = some h ∧ h.written.length = 3 ∧
      KeepsWindow 4 h := by
  have hrun : (hostSystem.run (Host.new sampleCentral) windowEvents).map (·.written.length) = some 3 := by
    decide +kernel
  obtain ⟨h, hh, hlength⟩ := map_eq_some_iff.mp hrun
  have hs : Created sampleCentral := .inr ⟨sampleResponse, 244, by decide +kernel⟩
  exact ⟨h, hh, hlength, window_kept hs (by decide) hh⟩

/-! ## Acknowledgements -/

/-- As long as nothing was acknowledged, the session knows. -/
def Aware (h : Host) : Prop := h.acked = -1 → h.session.prevIncomingAck = -1

theorem reads_ack (h : (s.reads data).1 = some a) :
    carriedAck data = some a ∧ modularDistance s.prevIncomingAck a.toNat ≤ modularDistance s.prevIncomingAck s.seq := by
  obtain ⟨hreads, -⟩ | ⟨pk, hdecode, hreads, -⟩ := look_handleIncomingLocked s data
  · rw [hreads] at h
    cases h
  have hcarried : carriedAck data = ackOf pk := by unfold carriedAck; rw [hdecode]; rfl
  have haccepted {s₁ : Session} (hack : (counted s pk.payload.sequenceNumber).acceptAck (ackOf pk) = .ok s₁)
      (hof : ackOf pk = some a) : carriedAck data = some a ∧
        modularDistance s.prevIncomingAck a.toNat ≤ modularDistance s.prevIncomingAck s.seq := by
    obtain ⟨hnone, -⟩ | ⟨b, hsome, hle, -⟩ := acceptAck_ok hack
    · rw [hnone] at hof
      cases hof
    · obtain rfl : b = a := some.inj (hsome.symm.trans hof)
      exact ⟨hcarried.trans hof, hle⟩
  rw [hreads] at h
  have hlook := look s pk
  generalize s.handlePacket pk = r at hlook
  generalize s.readsPacket pk = read at hlook h
  cases hlook with
  | refused e => cases h
  | badAck hseq e hack => cases h
  | badSegment hseq s₁ hack r e hadd | message hseq s₁ hack r msg hadd
  | flush hseq s₁ hack r hadd => exact haccepted hack h

/-- The packet that an acknowledgement names was written, and the last one acknowledged was
not behind it. -/
theorem Numbered.names (hn : Numbered w h) (haware : Aware h) (hgenuine : Genuine h (.incoming data))
    (hcarried : carriedAck data = some a)
    (hle : modularDistance h.session.prevIncomingAck a.toNat ≤ modularDistance h.session.prevIncomingAck h.session.seq) :
    ∃ i : Nat, (numbers h)[i]? = some (some a) ∧ h.acked ≤ i ∧ Host.ackPosition h.acked a = i := by
  obtain ⟨hfrom, hto, hmod⟩ := hn.ackPosition hle
  have hge := hn.acked_ge
  have hwritten : 0 ≤ Host.ackPosition h.acked a := by
    by_contra hneg
    have hacked : h.acked = -1 := by omega
    have h255 : a = 255 := by
      apply BitVec.eq_of_toNat_eq
      show a.toNat = 255
      omega
    exact hgenuine ⟨haware hacked, h255 ▸ hcarried⟩
  obtain ⟨i, hi⟩ := Int.eq_ofNat_of_zero_le hwritten
  have hlength := length_numbers h
  have hnumber : BitVec.ofNat 8 i = a := by
    apply BitVec.eq_of_toNat_eq
    rw [BitVec.toNat_ofNat]
    omega
  refine ⟨i, ?_, by omega, hi⟩
  rw [hn.inOrder, getElem?_consecutive (by omega), hnumber]

theorem Aware.acknowledged (hn : Numbered w h) (haware : Aware h) (hdecode : decodePacket data = .ok pk)
    (hgenuine : Genuine h (.incoming data))
    (hack : (counted h.session pk.payload.sequenceNumber).acceptAck (ackOf pk) = .ok s₁)
    (hsession : h₁.session = { s₁ with reassembly := r }) (hacked : h₁.acked = (h.record (ackOf pk, none)).acked) :
    Aware h₁ := by
  have hcarried : carriedAck data = ackOf pk := by unfold carriedAck; rw [hdecode]; rfl
  intro hnone
  obtain ⟨hof, rfl⟩ | ⟨a, hof, hle, rfl⟩ := acceptAck_ok hack
  · rw [hof] at hacked
    rw [hsession]
    exact haware (hacked.symm.trans hnone)
  · rw [hof] at hacked hcarried
    obtain ⟨i, -, -, hi⟩ := hn.names haware hgenuine hcarried hle
    have hacked : h₁.acked = Host.ackPosition h.acked a := hacked
    omega

theorem Aware.step (hc : Calls h) (hn : Numbered w h) (haware : Aware h) (hgenuine : Genuine h e)
    (hstep : hostSystem.step h e = some h') : Aware h' := by
  have hchanged {h₁ : Host} (hchange : Change h₁ h') (h₁aware : Aware h₁) : Aware h' := by
    intro hnone
    have hack := h₁aware (hchange.acked ▸ hnone)
    obtain ⟨-, hkeeps⟩ | ⟨pk, packet, -, hwrote⟩ := hchange.sends
    · exact hkeeps.prevIncomingAck.trans hack
    · exact hwrote.next.prevIncomingAck.trans hack
  obtain ⟨-, hchange | ⟨data, h₁, rfl, -, -, hreads, hchange⟩⟩ := step_cases hc hstep
  · exact hchanged hchange haware
  refine hchanged hchange ?_
  cases hreads with
  | refused | badAck pk hdecode => exact haware
  | badSegment pk hdecode s₁ hack r e hadd
  | message pk hdecode s₁ hack r msg hadd
  | flush pk hdecode s₁ hack r hadd => exact haware.acknowledged hn hdecode hgenuine hack rfl rfl

/-- The timer for acknowledgements acts only when the last packet written is not the last one
acknowledged. -/
theorem Numbered.timeout (hn : Numbered w h) (haware : Aware h)
    (hstep : hostSystem.step h .ackTimeoutTriggered = some h')
    (hacts : h.closers < h'.closers ∨ h.session.active = true ∧ h'.session.active = false) : h.acked < h.sent := by
  have hne : h.session.prevIncomingAck ≠ h.session.seq := by
    intro heq
    have hnothing : h.session.ackTimeoutTriggered h.onStall = (h.session, .nothing) := by
      unfold Session.ackTimeoutTriggered
      rw [heq, beq_self_eq_true, Bool.or_true, if_pos rfl]
    simp only [hostSystem, Host.step, hnothing, ite_none_right_eq_some] at hstep
    obtain rfl := some.inj hstep.2
    obtain hlt | ⟨hactive, hclosed⟩ := hacts
    · exact Nat.lt_irrefl _ hlt
    · rw [hclosed] at hactive
      cases hactive
  refine lt_of_le_of_ne hn.acked_le fun heq => hne ?_
  obtain hack | ⟨hack, hminus⟩ := hn.acked
  · obtain hsent | ⟨-, hminus⟩ := hn.sent
    · rw [hack, hsent, heq]
    · rw [haware (heq.trans hminus), hn.unsent hminus]
  · rw [hack, hn.unsent (heq ▸ hminus)]

/-- Acknowledgements name packets, with any peer that does not acknowledge 255 before the
session accepted an acknowledgement. -/
theorem acks_named {s : Session} (hs : Created s) {es : List HostEvent}
    (hmeets : hostSystem.Meets Genuine (Host.new s) es) (hrun : hostSystem.run (Host.new s) es = some h) :
    NamesPackets h := by
  have hinv : Calls h ∧ Numbered s.windowSize h ∧ Aware h := by
    refine System.run_invariant_meets (P := fun h => Calls h ∧ Numbered s.windowSize h ∧ Aware h) ?_ hmeets ?_ hrun
    · intro h e h' hgenuine ⟨hc, hn, haware⟩ hstep
      obtain ⟨hc', hn', -⟩ := hn.step hc hstep
      exact ⟨hc', hn', haware.step hc hn hgenuine hstep⟩
    · refine ⟨calls_new hs, numbered_new hs, fun _ => ?_⟩
      obtain ⟨role, fragmentSize, windowSize, ackReceiveTimer, -, rfl⟩ := created_start hs
      rfl
  obtain ⟨-, hn, haware⟩ := hinv
  refine ⟨fun data a hgenuine ha => ?_, fun h' hstep hacts => hn.timeout haware hstep hacts⟩
  obtain ⟨hcarried, hle⟩ := reads_ack ha
  exact hn.names haware hgenuine hcarried hle

def wideResponse : List Byte := [0x65, 0x6c, 0x04, 0x14, 0x00, 0x06]

def wideCentral : Session := { sampleCentral with windowSize := 6 }

/-- Two segments are written, the first is acknowledged, and the timer runs out. -/
def ackEvents : List HostEvent :=
  [.send (List.replicate 30 7), .writeReturned, .writeReturned, .incoming [0b00001000, 0, 1], .ackReceiveTimerExpired]

theorem acks_named_sample :
    ∃ h, hostSystem.run (Host.new wideCentral) ackEvents = some h ∧ h.acked = 0 ∧ h.sent = 1 ∧
      NamesPackets h := by
  have hrun : (hostSystem.run (Host.new wideCentral) ackEvents).map (fun h => (h.acked, h.sent)) = some (0, 1) := by
    decide +kernel
  have hmeets : hostSystem.Meets Genuine (Host.new wideCentral) ackEvents := by decide +kernel
  obtain ⟨h, hh, hnumbers⟩ := map_eq_some_iff.mp hrun
  obtain ⟨hacked, hsent⟩ := Prod.mk.inj hnumbers
  have hs : Created wideCentral := .inr ⟨wideResponse, 244, by decide +kernel⟩
  exact ⟨h, hh, hacked, hsent, acks_named hs hmeets hh⟩

/-- A central that wrote nothing accepts an acknowledgement of 255, starts the timer for
acknowledgements, and the timer closes the session; a peripheral that wrote only its
response to the handshake accepts it too. -/
theorem ack_of_nothing :
    newCentral wideResponse 244 = .ok wideCentral ∧ (wideCentral.reads [0b00001000, 255, 1]).1 = some 255 ∧
      (∃ h h', hostSystem.run (Host.new wideCentral) [.incoming [0b00001000, 255, 1], .ackReceiveTimerExpired] = some h ∧
        h.written = [] ∧ hostSystem.step h .ackTimeoutTriggered = some h' ∧ h.closers < h'.closers) ∧
      newPeripheral 0 sampleRequest = .ok (samplePeripheral, sampleResponse) ∧
      numbers (Host.new samplePeripheral) = [some 0] ∧
      (samplePeripheral.reads [0b00001000, 255, 0]).1 = some 255 := by
  refine ⟨by decide +kernel, by decide +kernel, ?_, by decide +kernel, by decide +kernel, by decide +kernel⟩
  have hrun : (hostSystem.run (Host.new wideCentral) [.incoming [0b00001000, 255, 1], .ackReceiveTimerExpired]).map
      (fun h => (h.written, h.closers, (hostSystem.step h .ackTimeoutTriggered).map Host.closers)) =
        some ([], 0, some 1) := by
    decide +kernel
  obtain ⟨h, hh, htest⟩ := map_eq_some_iff.mp hrun
  simp only [Prod.mk.injEq, map_eq_some_iff] at htest
  obtain ⟨hwritten, hclosers, h', hstep, hclosers'⟩ := htest
  exact ⟨h, h', hh, hwritten, hstep, by omega⟩

end GF.Proof.Btp
