import GoFabric.Proof.Btp.Acks

/-!
# Acknowledgements of acknowledgements

A stand-alone acknowledgement is a packet of its own, so that the other side has one more
packet to acknowledge. With nothing to send, a side answers at once when its window has
two slots left or fewer. In a window of four slots or more it has then received two
packets for the one that it writes, and the packets on their way run out (`weight`). In a
window of one, two or three slots one packet is enough, and two sides acknowledge each
other's acknowledgements for ever (`round`).
-/

namespace GF.Proof.Btp

open GF.Impl.Btp GF.Spec.Peer List Option

variable {l l' : Link}

/-! ## What a packet does to a session -/

/-- The packets that a session has received and not acknowledged. -/
def unacked (s : Session) : Nat := (modularDistance s.prevAckedSeq s.prevIncomingSeq).toNat

/-- What `HandleIncoming` does in front of `Message` and of what it writes: it counts the
packet or not, and refuses it or not. -/
structure Incoming (s s' : Session) : Prop where
  queue : s'.queue = s.queue
  windowSize : s'.windowSize = s.windowSize
  unacked : unacked s' ≤ unacked s + 1

theorem Incoming.refl (s : Session) : Incoming s s := ⟨rfl, rfl, Nat.le_succ _⟩

theorem unacked_counted (s : Session) {sequenceNumber : Byte}
    (h : (sequenceNumber.toNat : Int) = (s.prevIncomingSeq + 1).tmod 256) :
    unacked (counted s sequenceNumber) ≤ unacked s + 1 := by
  unfold unacked counted
  simp only [modularDistance_eq]
  have hmod := Int.tmod_add_mul_tdiv (s.prevIncomingSeq + 1) 256
  omega

theorem Incoming.acceptAck {s s1 : Session} {pk : Packet} (hseq : IsNext s pk)
    (hack : (counted s pk.payload.sequenceNumber).acceptAck (ackOf pk) = .ok s1) (r : Reassembly) :
    Incoming s { s1 with reassembly := r } := by
  have hle := unacked_counted s hseq
  obtain ⟨-, rfl⟩ | ⟨a, -, -, rfl⟩ := acceptAck_ok hack <;> exact ⟨rfl, rfl, hle⟩

/-- `HandleIncoming`: the packet is refused, or a message is delivered, or the queue is
looked at. -/
theorem handleIncomingLocked_incoming (s : Session) (data : List Byte) :
    ∃ s', Incoming s s' ∧ ((∃ e, s.handleIncomingLocked data = (s', .fail e)) ∨
      (∃ msg, s.handleIncomingLocked data = (s', .message msg)) ∨
      s.handleIncomingLocked data = s'.processSendQueueLocked) := by
  obtain ⟨-, e, heq⟩ | ⟨pk, -, -, heq⟩ := look_handleIncomingLocked s data
  · exact ⟨s, .refl s, .inl ⟨e, heq⟩⟩
  rw [heq]
  have hlook := look s pk
  generalize s.handlePacket pk = r at hlook
  generalize s.readsPacket pk = read at hlook
  cases hlook with
  | refused e => exact ⟨s, .refl s, .inl ⟨e, rfl⟩⟩
  | badAck hseq e hack =>
    exact ⟨counted s pk.payload.sequenceNumber, ⟨rfl, rfl, unacked_counted s hseq⟩, .inl ⟨_, rfl⟩⟩
  | badSegment hseq s1 hack r e hadd => exact ⟨_, .acceptAck hseq hack r, .inl ⟨_, rfl⟩⟩
  | message hseq s1 hack r msg hadd => exact ⟨_, .acceptAck hseq hack r, .inr (.inl ⟨msg, rfl⟩)⟩
  | flush hseq s1 hack r hadd => exact ⟨_, .acceptAck hseq hack r, .inr (.inr rfl)⟩

/-! ## With nothing to send -/

/-- A session with nothing to send, and no window of one to three slots. -/
structure Quiet (s : Session) : Prop where
  queue : s.queue = []
  window : s.windowSize = 0 ∨ 4 ≤ s.windowSize

variable {s s' : Session}

theorem Quiet.of_eq (h : Quiet s) (hq : s'.queue = s.queue) (hw : s'.windowSize = s.windowSize) : Quiet s' :=
  ⟨hq.trans h.queue, hw ▸ h.window⟩

theorem Quiet.processSendQueueLocked (h : Quiet s) : s.processSendQueueLocked = (s, .done) := by
  unfold Session.processSendQueueLocked
  rw [if_pos (by simp [h.queue])]

/-- A session after a stand-alone acknowledgement. -/
structure Acked (s s' : Session) : Prop where
  quiet : Quiet s'
  unacked : unacked s' = 0

theorem Quiet.sendStandaloneAckLocked (h : Quiet s) :
    s.sendStandaloneAckLocked = (s, .done) ∨
      (s.windowSize ≠ 0 ∧ ∃ s' packet, s.sendStandaloneAckLocked = (s', .write packet .ack) ∧ Acked s s') := by
  rw [sendStandaloneAckLocked_eq]
  split_ifs with hw
  · refine .inr ⟨fun h0 => ?_, _, _, rfl, h.of_eq rfl rfl, ?_⟩
    · have hcan := hw.2.2.2
      have hfree : s.remoteWindowFreeSlots ≤ 0 := by
        rw [Session.remoteWindowFreeSlots, modularDistance_eq]
        omega
      rw [Session.canSend, if_pos hfree] at hcan
      exact Bool.false_ne_true hcan
    · show (modularDistance s.prevIncomingSeq s.prevIncomingSeq).toNat = 0
      rw [modularDistance_eq, Int.sub_self]
      rfl
  · exact .inl rfl

/-- The answer at once: two packets were received for it. -/
theorem Quiet.sendImmediateAckIfWindowLowLocked (h : Quiet s) :
    s.sendImmediateAckIfWindowLowLocked = (s, .done) ∨
      (2 ≤ unacked s ∧
        ∃ s' packet, s.sendImmediateAckIfWindowLowLocked = (s', .write packet .ack) ∧ Acked s s') := by
  unfold Session.sendImmediateAckIfWindowLowLocked
  split
  · exact .inl rfl
  split_ifs with hlow
  · exact .inl rfl
  refine h.sendStandaloneAckLocked.imp_right fun ⟨h0, hack⟩ => ⟨?_, hack⟩
  have hw := h.window.resolve_left h0
  unfold immediateAckWindowThreshold Session.localWindowFreeSlots at hlow
  unfold unacked
  omega

/-! ## The weight of a side -/

/-- The weight of what may follow a packet: an acknowledgement may follow a segment. -/
def kindWeight : Written → Nat
  | .segment _ => 12
  | .ack => 0

/-- The weight of a call in `Write`: its packet, the call itself, the answer that
`HandleIncoming` may still give, and what may follow the packet. -/
def writerWeight (w : Writer) : Nat :=
  (if w.packet.isSome then 8 else 0) + 1 + (if w.caller = .incoming true then 1 else 0) + kindWeight w.kind

/-- The weight of a side: what it has still to acknowledge, and its calls. -/
def weight (x : Side) : Nat :=
  4 * unacked x.session + (if x.inMessage then 2 else 0) + (x.writer.map writerWeight).getD 0

variable {x : Side} {caller : Caller}

theorem weight_release_fail (e : BtpError) :
    weight (x.release caller (s, .fail e)) = weight { x with session := s } := by
  cases caller <;> rfl

theorem quiet_release_fail (h : Quiet s) (e : BtpError) : Quiet (x.release caller (s, .fail e)).session := by
  cases caller <;> exact h.of_eq rfl rfl

/-- An acknowledgement that is written weighs 9, or 10 where `HandleIncoming` goes on. -/
theorem weight_release_ack (packet : List Byte) (hs : Acked s s') :
    weight (x.release caller (s', .write packet .ack)) =
      (if x.inMessage then 2 else 0) + 9 + if caller = .incoming true then 1 else 0 := by
  have heq : weight (x.release caller (s', .write packet .ack)) =
      4 * unacked s' + (if x.inMessage then 2 else 0) +
        (8 + 1 + (if caller = .incoming true then 1 else 0) + 0) := rfl
  rw [heq, hs.unacked]
  omega

theorem settle_write (x : Side) (caller : Caller) (s : Session) (packet : List Byte) (kind : Written) :
    x.settle caller (s, .write packet kind) = x.release caller (s, .write packet kind) := by
  cases caller with
  | incoming thenAck => cases thenAck <;> rfl
  | send => rfl
  | timer => rfl

/-- A call that wrote nothing yet, with what `HandleIncoming` still does: what it writes is
an acknowledgement of two packets or more. -/
theorem settle_done (x : Side) (caller : Caller) (h : Quiet s) :
    Quiet (x.settle caller (s, .done)).session ∧
      (weight (x.settle caller (s, .done)) = weight { x with session := s } ∨
        caller = .incoming true ∧ 2 ≤ unacked s ∧
          weight (x.settle caller (s, .done)) = (if x.inMessage then 2 else 0) + 9) := by
  by_cases hc : caller = .incoming true
  · subst hc
    have hsettle : x.settle (.incoming true) (s, .done) =
        x.release (.incoming false) s.sendImmediateAckIfWindowLowLocked := rfl
    rw [hsettle]
    obtain heq | ⟨hun, s', packet, heq, hs'⟩ := h.sendImmediateAckIfWindowLowLocked
    · rw [heq]
      exact ⟨h, .inl rfl⟩
    rw [heq]
    refine ⟨hs'.quiet, .inr ⟨rfl, hun, ?_⟩⟩
    rw [weight_release_ack packet hs']
    rfl
  · have hsettle : x.settle caller (s, .done) = x.release caller (s, .done) := by
      unfold Side.settle
      split
      · exact absurd rfl hc
      · rfl
    rw [hsettle]
    exact ⟨h, .inl rfl⟩

/-! ## A delivery -/

/-- The events of a delivery: the packets travel, and the calls that this takes go on. -/
def IsDelivery : SideEvent → Prop
  | .receive | .messageReturned | .handOver | .writeReturned => True
  | .send _ | .sendAckTimerExpired | .sendAckTimeoutTriggered => False

/-- The weight of a side and of the packets on their way. -/
def total (x : Side) (out inc : List (List Byte)) : Nat := weight x + 7 * out.length + 7 * inc.length

variable {x' : Side} {out inc out' inc' : List (List Byte)}

/-- A packet is received: the side has one more to acknowledge, and has a message to hand
over, or answers. -/
theorem receive_lt (h : Quiet x.session) (hidle : x.inMessage = false) (data : List Byte) :
    Quiet (x.settle (.incoming true) (x.session.handleIncomingLocked data)).session ∧
      weight (x.settle (.incoming true) (x.session.handleIncomingLocked data)) < weight x + 7 := by
  obtain ⟨s', hin, hcases⟩ := handleIncomingLocked_incoming x.session data
  have hs' : Quiet s' := h.of_eq hin.queue hin.windowSize
  have hun := hin.unacked
  have hsame : weight { x with session := s' } ≤ weight x + 4 := by
    simp only [weight]
    omega
  obtain ⟨e, heq⟩ | ⟨msg, heq⟩ | heq := hcases
  · rw [heq]
    have hrel : x.settle (.incoming true) (s', .fail e) = x.release (.incoming true) (s', .fail e) := rfl
    rw [hrel, weight_release_fail]
    exact ⟨quiet_release_fail hs' e, by omega⟩
  · rw [heq]
    refine ⟨hs', ?_⟩
    have hrel : weight (x.settle (.incoming true) (s', .message msg)) =
        4 * unacked s' + 2 + (x.writer.map writerWeight).getD 0 := rfl
    rw [hrel]
    simp only [weight] at ⊢
    omega
  · rw [heq, hs'.processSendQueueLocked]
    obtain ⟨hquiet, hw | ⟨-, hlow, hw⟩⟩ := settle_done x (.incoming true) hs'
    · exact ⟨hquiet, by omega⟩
    refine ⟨hquiet, ?_⟩
    rw [hw, hidle, if_neg Bool.false_ne_true]
    simp only [weight]
    omega

/-- A `Write` returns: a segment may be followed by an acknowledgement. -/
theorem writeReturned_lt (h : Quiet x.session) {kind : Written} (hwriter : x.writer = some ⟨none, kind, caller⟩) :
    Quiet ({ x with writer := none }.settle caller (x.session.writeReturned kind)).session ∧
      weight ({ x with writer := none }.settle caller (x.session.writeReturned kind)) < weight x := by
  have hweight : weight x = 4 * unacked x.session + (if x.inMessage then 2 else 0) +
      (1 + (if caller = .incoming true then 1 else 0) + kindWeight kind) := by
    unfold weight
    rw [hwriter]
    show _ + (0 + 1 + (if caller = .incoming true then 1 else 0) + kindWeight kind) = _
    omega
  -- a call that wrote nothing more
  have hdone : ∀ s : Session, Quiet s → unacked s = unacked x.session →
      Quiet ({ x with writer := none }.settle caller (s, .done)).session ∧
        weight ({ x with writer := none }.settle caller (s, .done)) < weight x := fun s hs hun => by
    obtain ⟨hquiet, hw | ⟨rfl, hlow, hw⟩⟩ := settle_done { x with writer := none } caller hs
    · refine ⟨hquiet, ?_⟩
      have hnone : weight { x with writer := none, session := s } =
          4 * unacked s + (if x.inMessage then 2 else 0) + 0 := rfl
      rw [hw, hnone]
      omega
    · refine ⟨hquiet, ?_⟩
      rw [hw, hweight, if_pos rfl]
      show (if x.inMessage then 2 else 0) + 9 < _
      omega
  cases kind with
  | ack =>
    have hs : Quiet { x.session with
        sendAckTimer := false, ackReceiveTimer := x.session.ackReceiveTimer || x.session.active
        sendInProgress := false } := h.of_eq rfl rfl
    rw [show x.session.writeReturned .ack = _ from hs.processSendQueueLocked]
    exact hdone _ hs rfl
  | segment isEnding =>
    by_cases hactive : x.session.active
    · have hloop : x.session.writeReturned (.segment isEnding) =
          { x.session with
            ackReceiveTimer := true, idleTimer := x.session.idleTimer || x.session.role == Role.central
            queue := [], sendInProgress := false }.sendStandaloneAckLocked := by
        have hopen : ¬(!x.session.active) = true := by simp [hactive]
        simp only [Session.writeReturned, if_neg hopen]
        cases isEnding <;> simp only [Session.sendLoop, h.queue, tail_nil, Bool.false_eq_true, if_true, if_false]
      have hs : Quiet { x.session with
          ackReceiveTimer := true, idleTimer := x.session.idleTimer || x.session.role == Role.central
          queue := [], sendInProgress := false } := ⟨rfl, h.window⟩
      rw [hloop]
      obtain heq | ⟨-, s', packet, heq, hs'⟩ := hs.sendStandaloneAckLocked
      · rw [heq]
        exact hdone _ hs rfl
      rw [heq]
      rw [settle_write, weight_release_ack packet hs', hweight]
      refine ⟨hs'.quiet, ?_⟩
      show (if x.inMessage then 2 else 0) + 9 + _ < _ + (1 + _ + 12)
      omega
    · have hclosed : x.session.writeReturned (.segment isEnding) =
          ({ x.session with queue := [], sendInProgress := false }, .done) := by
        have hopen : (!x.session.active) = true := by simp [hactive]
        simp only [Session.writeReturned, if_pos hopen]
      rw [hclosed]
      exact hdone _ ⟨rfl, h.window⟩ rfl

theorem step_lt (h : Quiet x.session) {e : SideEvent} (he : IsDelivery e)
    (hstep : x.step out inc e = some (x', out', inc')) :
    Quiet x'.session ∧ total x' out' inc' < total x out inc := by
  unfold total
  cases e with
  | send msg | sendAckTimerExpired | sendAckTimeoutTriggered => exact absurd he id
  | receive =>
    simp only [Side.step] at hstep
    split at hstep
    · rename_i data inc1 hidle
      split at hstep
      · cases hstep
        exact ⟨h, by rw [length_cons]; omega⟩
      · cases hstep
        obtain ⟨hquiet, hlt⟩ := receive_lt h hidle data
        exact ⟨hquiet, by rw [length_cons]; omega⟩
    · cases hstep
  | messageReturned =>
    obtain ⟨hin, rfl, rfl, rfl⟩ := ite_none_eq_some.1 hstep
    rw [h.processSendQueueLocked]
    have hweight : weight { x with inMessage := false } + 2 = weight x := by
      simp only [weight, hin, if_true, Bool.false_eq_true, if_false]
      omega
    obtain ⟨hquiet, hw | ⟨-, hlow, hw⟩⟩ := settle_done { x with inMessage := false } (.incoming true) h
    · refine ⟨hquiet, ?_⟩
      rw [hw]
      show weight { x with inMessage := false } + _ + _ < _
      omega
    · refine ⟨hquiet, ?_⟩
      have hle : 4 * unacked x.session ≤ weight { x with inMessage := false } := by
        simp only [weight]
        omega
      rw [hw]
      show 0 + 9 + _ + _ < _
      omega
  | handOver =>
    simp only [Side.step] at hstep
    split at hstep
    · rename_i packet kind caller hwriter
      cases hstep
      refine ⟨h, ?_⟩
      have hbefore : weight x = 4 * unacked x.session + (if x.inMessage then 2 else 0) +
          (8 + 1 + (if caller = .incoming true then 1 else 0) + kindWeight kind) := by
        unfold weight
        rw [hwriter]
        rfl
      have hafter : weight { x with writer := some ⟨none, kind, caller⟩ } =
          4 * unacked x.session + (if x.inMessage then 2 else 0) +
          (0 + 1 + (if caller = .incoming true then 1 else 0) + kindWeight kind) := rfl
      rw [length_append, length_singleton]
      omega
    · cases hstep
  | writeReturned =>
    simp only [Side.step] at hstep
    split at hstep
    · rename_i kind caller hwriter
      cases hstep
      obtain ⟨hquiet, hlt⟩ := writeReturned_lt h hwriter
      exact ⟨hquiet, by omega⟩
    · cases hstep

/-! ## Two sessions -/

/-- A session goes on with the window that it was created with. -/
theorem Mirrored.windowSize {c : Session} (h : Mirrored c x) (hc : Created c) :
    x.session.windowSize = c.windowSize := by
  obtain ⟨es, host, hrun, hm⟩ := h
  rw [← hm.session]
  exact (created_run hc hrun).2.windowSize

def IsLinkDelivery : LinkEvent → Prop
  | .central e => IsDelivery e
  | .peripheral e => IsDelivery e

/-- Both sides have nothing to send, and no window of one to three slots. -/
def QuietLink (l : Link) : Prop := Quiet l.central.session ∧ Quiet l.peripheral.session

/-- The weight of both sides and of the packets between them. -/
def linkWeight (l : Link) : Nat :=
  weight l.central + weight l.peripheral + 7 * l.toPeripheral.length + 7 * l.toCentral.length

theorem linkSystem_lt {e : LinkEvent} (he : IsLinkDelivery e) (h : QuietLink l)
    (hstep : linkSystem.step l e = some l') : QuietLink l' ∧ linkWeight l' < linkWeight l := by
  cases e with
  | central e =>
    obtain ⟨⟨side, out, inc⟩, hside, rfl⟩ := map_eq_some_iff.mp hstep
    obtain ⟨hquiet, hlt⟩ := step_lt h.1 he hside
    refine ⟨⟨hquiet, h.2⟩, ?_⟩
    simp only [linkWeight, total] at hlt ⊢
    omega
  | peripheral e =>
    obtain ⟨⟨side, out, inc⟩, hside, rfl⟩ := map_eq_some_iff.mp hstep
    obtain ⟨hquiet, hlt⟩ := step_lt h.2 he hside
    refine ⟨⟨h.1, hquiet⟩, ?_⟩
    simp only [linkWeight, total] at hlt ⊢
    omega

/-! ## A window of one, two or three slots -/

/-- The handshake of a window, and its sessions. -/
def requestOf (w : Byte) : List Byte := [0x65, 0x6c, 0x04, 0x00, 0x00, 0x00, 0xf7, 0x00, w]

def responseOf (w : Byte) : List Byte := [0x65, 0x6c, 0x04, 0x14, 0x00, w]

def peripheralOf (w : Byte) : Session := { samplePeripheral with windowSize := w.toNat }

def centralOf (w : Byte) : Session := { sampleCentral with windowSize := w.toNat }

def firstAck : List LinkEvent :=
  [.central .sendAckTimerExpired, .central .sendAckTimeoutTriggered, .central .handOver, .central .writeReturned]

/-- The acknowledgement on its way to the peripheral is answered, and the answer is. -/
def round : List LinkEvent :=
  [.peripheral .receive, .peripheral .handOver, .peripheral .writeReturned,
    .central .receive, .central .handOver, .central .writeReturned]

/-- After the round in which the central has written the packet `n`: its acknowledgement is
on its way. -/
def pingPong (w n : Byte) : Link where
  central :=
    .new { centralOf w with
      prevIncomingSeq := n.toNat, prevIncomingAck := (n - 1).toNat, seq := n.toNat, prevAckedSeq := n.toNat
      pendingLive := false, ackReceiveTimer := true, sendAckTimer := false }
  peripheral :=
    .new { peripheralOf w with
      prevIncomingSeq := (n - 1).toNat, prevIncomingAck := (n - 1).toNat, seq := n.toNat
      prevAckedSeq := (n - 1).toNat, pendingLive := false, ackReceiveTimer := true, sendAckTimer := false }
  toPeripheral := [[0b00001000, n, n]]
  toCentral := []

theorem run_round : ∀ w : Byte, w = 1 ∨ w = 2 ∨ w = 3 → ∀ n : Byte,
    linkSystem.run (pingPong w n) round = some (pingPong w (n + 1)) := by
  intro w hw n
  have hall : ∀ i : Fin 256, linkSystem.run (pingPong w (.ofFin i)) round = some (pingPong w (.ofFin i + 1)) := by
    rcases hw with rfl | rfl | rfl <;> decide +kernel
  exact hall n.toFin

theorem run_first : ∀ w : Byte, w = 1 ∨ w = 2 ∨ w = 3 →
    linkSystem.run (Link.new (centralOf w) (peripheralOf w)) (firstAck ++ round) = some (pingPong w 1) := by
  rintro w (rfl | rfl | rfl) <;> decide +kernel

theorem run_rounds {w : Byte} (hw : w = 1 ∨ w = 2 ∨ w = 3) (n : Byte) (k : Nat) :
    ∃ l, linkSystem.run (pingPong w n) (List.replicate k round).flatten = some l := by
  induction k generalizing n with
  | zero => exact ⟨_, rfl⟩
  | succ k ih =>
    obtain ⟨l, hl⟩ := ih (n + 1)
    refine ⟨l, ?_⟩
    rw [replicate_succ, flatten_cons, System.run_append_of (run_round w hw n), hl]

theorem isLinkDelivery_rounds (k : Nat) : ∀ e ∈ (List.replicate k round).flatten, IsLinkDelivery e := by
  intro e he
  obtain ⟨es, hes, he⟩ := mem_flatten.mp he
  rw [eq_of_mem_replicate hes] at he
  simp only [round, mem_cons, not_mem_nil, or_false] at he
  rcases he with rfl | rfl | rfl | rfl | rfl | rfl <;> trivial

theorem length_rounds (k : Nat) : (List.replicate k round).flatten.length = 6 * k := by
  induction k with
  | zero => rfl
  | succ k ih =>
    have hround : round.length = 6 := rfl
    rw [replicate_succ, flatten_cons, length_append]
    omega

theorem handshake_small : ∀ w : Byte, w = 1 ∨ w = 2 ∨ w = 3 →
    newPeripheral 0 (requestOf w) = .ok (peripheralOf w, responseOf w) ∧
      newCentral (responseOf w) 244 = .ok (centralOf w) := by
  rintro w (rfl | rfl | rfl) <;> decide +kernel

/-! ## The results -/

/-- Two sessions of one handshake with windows of `w` slots: from every state that their
calls lead to in which they have nothing to send, there is an end to the deliveries. -/
def Settles (w : Nat) : Prop :=
  ∀ maxDataSize requestedSegmentSize request response central peripheral,
    newPeripheral maxDataSize request = .ok (peripheral, response) →
    newCentral response requestedSegmentSize = .ok central →
    central.windowSize = w → peripheral.windowSize = w →
    ∀ events l, linkSystem.run (Link.new central peripheral) events = some l →
      l.central.session.queue = [] → l.peripheral.session.queue = [] →
      ∃ n, ∀ deliveries, (∀ e ∈ deliveries, IsLinkDelivery e) →
        ∀ l', linkSystem.run l deliveries = some l' → deliveries.length ≤ n

/-- The deliveries come to an end in every window but one of one, two or three slots. -/
theorem settles_iff (w : Nat) : Settles w ↔ w = 0 ∨ 4 ≤ w := by
  constructor
  · intro h
    by_contra hsmall
    have hw : BitVec.ofNat 8 w = 1 ∨ BitVec.ofNat 8 w = 2 ∨ BitVec.ofNat 8 w = 3 := by
      obtain rfl | rfl | rfl : w = 1 ∨ w = 2 ∨ w = 3 := by omega
      · exact .inl rfl
      · exact .inr (.inl rfl)
      · exact .inr (.inr rfl)
    have hsize : (BitVec.ofNat 8 w).toNat = w := by
      rw [BitVec.toNat_ofNat]
      omega
    obtain ⟨hp, hc⟩ := handshake_small _ hw
    obtain ⟨n, hn⟩ := h _ _ _ _ _ _ hp hc hsize hsize _ _ (run_first _ hw) rfl rfl
    obtain ⟨l, hl⟩ := run_rounds hw 1 (n + 1)
    have hle := hn _ (isLinkDelivery_rounds (n + 1)) l hl
    rw [length_rounds] at hle
    omega
  · intro hw maxDataSize requestedSegmentSize request response central peripheral hp hc hcw hpw events l hrun hqc hqp
    obtain ⟨hcentral, hperipheral⟩ := mirrored_run hrun
    have hcs := hcentral.windowSize (.inr ⟨response, requestedSegmentSize, hc⟩)
    have hps := hperipheral.windowSize (.inl ⟨maxDataSize, request, response, hp⟩)
    have hquiet : QuietLink l := ⟨⟨hqc, by rwa [hcs, hcw]⟩, ⟨hqp, by rwa [hps, hpw]⟩⟩
    refine ⟨linkWeight l, fun deliveries hok l' hl' => ?_⟩
    exact System.length_le_of_measure (fun _ _ _ he h hstep => linkSystem_lt he h hstep) hok hquiet hl'

/-- In a window of three slots the acknowledgement of the handshake is acknowledged, and so
on for ever. -/
theorem acks_acked_forever :
    newPeripheral 0 (requestOf 3) = .ok (peripheralOf 3, responseOf 3) ∧
      newCentral (responseOf 3) 244 = .ok (centralOf 3) ∧
      linkSystem.run (Link.new (centralOf 3) (peripheralOf 3)) (firstAck ++ round) = some (pingPong 3 1) ∧
      (pingPong 3 1).central.session.queue = [] ∧ (pingPong 3 1).peripheral.session.queue = [] ∧
      ∀ k, ∃ deliveries l, (∀ e ∈ deliveries, IsLinkDelivery e) ∧ deliveries.length = 6 * k ∧
        linkSystem.run (pingPong 3 1) deliveries = some l := by
  have hw : (3 : Byte) = 1 ∨ (3 : Byte) = 2 ∨ (3 : Byte) = 3 := .inr (.inr rfl)
  obtain ⟨hp, hc⟩ := handshake_small 3 hw
  refine ⟨hp, hc, run_first 3 hw, rfl, rfl, fun k => ?_⟩
  obtain ⟨l, hl⟩ := run_rounds hw 1 k
  exact ⟨_, l, isLinkDelivery_rounds k, length_rounds k, hl⟩

end GF.Proof.Btp
