import GoFabric.Impl.Btp.Host
import GoFabric.Proof.Btp.Delivery

/-!
# What one event does to a session

A call that may write keeps the numbers of the session, or writes one packet that has the
next number and that the window has room for (`Sends`, for any segment size). `Change` says
the same of an event with the history, and `Reads` what the bytes that come in do first; an
event is the one, or both (`step_cases`). The properties of a session with any peer are
proved from these and unfold no call again.
-/

namespace GF.Proof.Btp

open GF.Impl.Btp Option

variable {s t s' : Session} {r : Session × Outcome}

/-! ## Calls that may write -/

/-- The session goes on without a packet written or read; it may have been closed. -/
structure Keeps (s s' : Session) : Prop where
  role : s'.role = s.role
  windowSize : s'.windowSize = s.windowSize
  seq : s'.seq = s.seq
  prevIncomingAck : s'.prevIncomingAck = s.prevIncomingAck
  reassembly : s'.reassembly = s.reassembly
  active : s'.active = true → s.active = true

theorem Keeps.refl (s : Session) : Keeps s s := ⟨rfl, rfl, rfl, rfl, rfl, id⟩

theorem Keeps.trans {u : Session} (h : Keeps s t) (h' : Keeps t u) : Keeps s u :=
  ⟨h'.role.trans h.role, h'.windowSize.trans h.windowSize, h'.seq.trans h.seq,
    h'.prevIncomingAck.trans h.prevIncomingAck, h'.reassembly.trans h.reassembly, fun hu => h.active (h'.active hu)⟩

theorem Keeps.canSend (h : Keeps s s') (carriesAck : Bool) : s'.canSend carriesAck = s.canSend carriesAck := by
  unfold Session.canSend Session.remoteWindowFreeSlots
  rw [h.windowSize, h.seq, h.prevIncomingAck]

theorem Keeps.nextSequenceNumber (h : Keeps s s') :
    s'.nextSequenceNumber.2 = s.nextSequenceNumber.2 ∧ s'.nextSequenceNumber.1.seq = s.nextSequenceNumber.1.seq := by
  unfold Session.nextSequenceNumber
  rw [h.seq]
  exact ⟨rfl, rfl⟩

theorem Keeps.close (s : Session) : Keeps s s.close := ⟨rfl, rfl, rfl, rfl, rfl, fun h => Bool.noConfusion h⟩

/-- The session writes the packet `pk`, as `packet`. -/
structure Wrote (s s' : Session) (pk : Packet) (packet : List Byte) : Prop where
  encoded : encodePacket pk = .ok packet
  active : s.active = true
  room : s.canSend pk.header.hasAckNumber = true
  number : pk.payload.sequenceNumber = s.nextSequenceNumber.2
  next : Keeps s.nextSequenceNumber.1 s'

theorem Wrote.of_keeps {pk : Packet} {packet : List Byte} (hk : Keeps s t) (h : Wrote t s' pk packet) :
    Wrote s s' pk packet where
  encoded := h.encoded
  active := hk.active h.active
  room := hk.canSend _ ▸ h.room
  number := h.number.trans hk.nextSequenceNumber.1
  next :=
    { role := h.next.role.trans hk.role
      windowSize := h.next.windowSize.trans hk.windowSize
      seq := h.next.seq.trans hk.nextSequenceNumber.2
      prevIncomingAck := h.next.prevIncomingAck.trans hk.prevIncomingAck
      reassembly := h.next.reassembly.trans hk.reassembly
      active hs := hk.active (h.next.active hs) }

/-- What a call that may write comes to. -/
inductive Sends (s : Session) : Session × Outcome → Prop
  | quiet {s' : Session} {o : Outcome} (keeps : Keeps s s') (busy : s'.sendInProgress = s.sendInProgress)
    (queue : s'.queue = s.queue) (ends : o = .done ∨ ∃ e, o = .fail e) : Sends s (s', o)
  | wrote {s' : Session} {pk : Packet} {packet : List Byte} {kind : Written} (wrote : Wrote s s' pk packet)
    (idle : s.sendInProgress = false) (busy : s'.sendInProgress = true) (queue : QueueOk s'.queue (isEnding kind)) :
    Sends s (s', .write packet kind)

theorem Sends.done (s : Session) : Sends s (s, .done) := .quiet (.refl s) rfl rfl (.inl rfl)

theorem Sends.fail (s : Session) (e : BtpError) : Sends s (s, .fail e) := .quiet (.refl s) rfl rfl (.inr ⟨e, rfl⟩)

/-- The queue is ready for the next segment when no call is in `Write`. -/
def Idle (s : Session) : Prop := s.sendInProgress = false → QueueOk s.queue false

theorem Sends.of_keeps (hk : Keeps s t) (hbusy : t.sendInProgress = s.sendInProgress) (hqueue : t.queue = s.queue)
    (h : Sends t r) : Sends s r := by
  cases h with
  | quiet keeps busy queue ends => exact .quiet (hk.trans keeps) (busy.trans hbusy) (queue.trans hqueue) ends
  | wrote wrote idle busy queue => exact .wrote (wrote.of_keeps hk) (hbusy ▸ idle) busy queue

theorem sends_sendStandaloneAckLocked (h : Idle s) : Sends s s.sendStandaloneAckLocked := by
  rw [sendStandaloneAckLocked_eq]
  split_ifs with hw
  · obtain ⟨hidle, hactive, -, hroom⟩ := hw
    exact .wrote
      { encoded := encodePacket_ackPacket (BitVec.ofInt 8 s.prevIncomingSeq) s.nextSequenceNumber.2
        active := hactive, room := hroom, number := rfl, next := ⟨rfl, rfl, rfl, rfl, rfl, id⟩ }
      hidle rfl (h hidle)
  · exact .done s

theorem hasAckNumber_segmentPacket (m : Outgoing) (k : Nat) (s : Session) (sequenceNumber : Byte) :
    (segmentPacket m k (pendingAck s) sequenceNumber).header.hasAckNumber = s.hasAck := by
  show (pendingAck s).isSome = s.hasAck
  unfold pendingAck
  cases s.hasAck <;> rfl

theorem sends_sendLoop (hactive : s.active = true) (hbusy : s.sendInProgress = true) (hq : QueueOk s.queue false) :
    Sends { s with sendInProgress := false } s.sendLoop := by
  obtain heq | ⟨m, rest, hqueue, hroom, heq⟩ := sendLoop_cases s
  · rw [heq]
    exact sends_sendStandaloneAckLocked fun _ => hq
  rw [hqueue] at hq
  obtain ⟨hlt, hm, hrest⟩ := hq
  rw [heq]
  obtain ⟨-, hseg⟩ | ⟨k, packet, hk, hle, hencode, -, hseg⟩ := sendSegment_cases s rest (hlt rfl)
  · rw [hseg]
    exact .quiet ⟨rfl, rfl, rfl, rfl, rfl, id⟩ rfl rfl (.inr ⟨_, rfl⟩)
  rw [hseg]
  refine .wrote
    { encoded := hencode, active := hactive, room := ?_, number := rfl, next := ⟨rfl, rfl, rfl, rfl, rfl, id⟩ }
    rfl hbusy ⟨fun hend => Nat.lt_of_le_of_ne hle (of_decide_eq_false hend), hm, hrest⟩
  rw [hasAckNumber_segmentPacket]
  exact hroom

theorem sends_processSendQueueLocked (h : Idle s) : Sends s s.processSendQueueLocked := by
  unfold Session.processSendQueueLocked
  split_ifs with hgo
  · exact .done s
  have hgo : s.sendInProgress = false ∧ s.active = true := by
    simp only [Bool.or_eq_true, Bool.not_eq_true', not_or, Bool.not_eq_true, Bool.not_eq_false] at hgo
    exact hgo.1
  have hs : { s with sendInProgress := false } = s := by rw [← hgo.1]
  exact hs ▸ sends_sendLoop (s := { s with sendInProgress := true }) hgo.2 rfl (h hgo.1)

theorem sends_sendImmediateAckIfWindowLowLocked (h : Idle s) : Sends s s.sendImmediateAckIfWindowLowLocked := by
  unfold Session.sendImmediateAckIfWindowLowLocked
  split
  · exact .done s
  · split
    · exact .done s
    · exact sends_sendStandaloneAckLocked h

theorem sends_sendAckTimeoutTriggered (h : Idle s) : Sends s s.sendAckTimeoutTriggered := by
  unfold Session.sendAckTimeoutTriggered
  split
  · exact .done s
  · exact sends_sendStandaloneAckLocked h

theorem sends_send (msg : List Byte) (h : Idle s) :
    ∃ t, Keeps s t ∧ t.sendInProgress = s.sendInProgress ∧ (∀ e, QueueOk s.queue e → QueueOk t.queue e) ∧
      Sends t (s.send msg) := by
  by_cases hopen : s.active = true ∧ 0 < msg.length ∧ msg.length ≤ 0xFFFF
  · obtain ⟨hactive, hne, hle⟩ := hopen
    have happend : ∀ e, QueueOk s.queue e → QueueOk (queued s msg).queue e := fun e he => he.append rfl ⟨hne, hle⟩
    rw [send_eq hactive hne hle]
    exact ⟨queued s msg, ⟨rfl, rfl, rfl, rfl, rfl, id⟩, rfl, happend,
      sends_processSendQueueLocked fun hidle => happend false (h hidle)⟩
  · refine ⟨s, .refl s, rfl, fun _ => id, ?_⟩
    unfold Session.send
    split
    · exact .fail s _
    split
    · exact .fail s _
    split
    · exact .fail s _
    · rename_i hactive hne hle
      refine absurd ⟨?_, by omega, by omega⟩ hopen
      simpa using hactive

theorem keeps_afterWrite (s : Session) (kind : Written) : Keeps s (afterWrite s kind) := by
  cases kind <;> exact ⟨rfl, rfl, rfl, rfl, rfl, id⟩

/-- After a `Write` that succeeded the queue is without what was written, or empty. -/
theorem sends_writeReturned {kind : Written} (hbusy : s.sendInProgress = true)
    (hq : QueueOk s.queue (isEnding kind)) :
    ∃ t, Keeps s t ∧ t.sendInProgress = false ∧ QueueOk t.queue false ∧ Sends t (s.writeReturned kind) := by
  obtain ⟨-, -, -, hqueue⟩ := emitted_afterWrite hq []
  cases kind with
  | ack => exact ⟨afterWrite s .ack, keeps_afterWrite s .ack, rfl, hqueue, sends_processSendQueueLocked fun _ => hqueue⟩
  | segment isEnding =>
    by_cases hactive : s.active = true
    · refine ⟨afterWrite s (.segment isEnding), keeps_afterWrite s _, rfl, hqueue, ?_⟩
      rw [writeReturned_segment hactive isEnding]
      exact sends_sendLoop (s := behind s isEnding) hactive hbusy hqueue
    refine ⟨{ s with queue := [], sendInProgress := false }, ⟨rfl, rfl, rfl, rfl, rfl, id⟩, rfl, rfl, ?_⟩
    have hclosed : s.writeReturned (.segment isEnding) = ({ s with queue := [], sendInProgress := false }, .done) := by
      unfold Session.writeReturned
      dsimp only
      rw [if_pos (by simp [hactive])]
    rw [hclosed]
    exact .done _

/-! ## Events -/

/-- The last segment of the queue's first message is in `Write`. -/
def hostEnding (h : Host) : Bool :=
  match h.writer with
  | some (kind, _) => isEnding kind
  | none => false

/-- The calls in progress and the session agree. -/
structure Calls (h : Host) : Prop where
  busy : h.session.sendInProgress = (h.writer.isSome || h.failedAck)
  single : h.writer.isSome = true → h.failedAck = false
  queue : QueueOk h.session.queue (hostEnding h)

/-- What an event does that reads no packet. -/
structure Change (h h' : Host) : Prop where
  accepted : h'.accepted = h.accepted
  delivered : h'.delivered = h.delivered
  acked : h'.acked = h.acked
  failed : h.failed ≤ h'.failed ∨ h'.session.active = false
  sends : (h'.written = h.written ∧ Keeps h.session h'.session) ∨
    ∃ pk packet, h'.written = h.written ++ [packet] ∧ Wrote h.session h'.session pk packet

variable {h h' : Host}

theorem Change.refl (h : Host) : Change h h := ⟨rfl, rfl, rfl, .inl (le_refl _), .inl ⟨rfl, .refl _⟩⟩

/-- The session may first have been changed otherwise. -/
theorem Change.of_keeps {base : Host} (hc : Change base h') (hk : Keeps h.session base.session)
    (haccepted : base.accepted = h.accepted) (hdelivered : base.delivered = h.delivered)
    (hacked : base.acked = h.acked) (hwritten : base.written = h.written) (hfailed : base.failed = h.failed) :
    Change h h' where
  accepted := hc.accepted.trans haccepted
  delivered := hc.delivered.trans hdelivered
  acked := hc.acked.trans hacked
  failed := hfailed ▸ hc.failed
  sends := by
    obtain ⟨hsame, hkeeps⟩ | ⟨pk, packet, hnew, hwrote⟩ := hc.sends
    · exact .inl ⟨hsame.trans hwritten, hk.trans hkeeps⟩
    · exact .inr ⟨pk, packet, hwritten ▸ hnew, hwrote.of_keeps hk⟩

theorem Calls.free (hc : Calls h) (hidle : h.session.sendInProgress = false) :
    h.writer = none ∧ h.failedAck = false := by
  have hbusy := hc.busy
  rw [hidle, eq_comm, Bool.or_eq_false_iff] at hbusy
  exact ⟨isSome_eq_false_iff.mp hbusy.1 |> isNone_iff_eq_none.mp, hbusy.2⟩

/-- While a call is in `Write`. -/
theorem Calls.writing {kind : Written} {caller : Caller} (hc : Calls h) (hwriter : h.writer = some (kind, caller)) :
    h.session.sendInProgress = true ∧ h.failedAck = false ∧ QueueOk h.session.queue (isEnding kind) := by
  have hq := hc.queue
  unfold hostEnding at hq
  rw [hwriter] at hq
  exact ⟨by rw [hc.busy, hwriter]; rfl, hc.single (by rw [hwriter]; rfl), hq⟩

theorem Calls.idle (hc : Calls h) : Idle h.session := by
  intro hidle
  have hq := hc.queue
  unfold hostEnding at hq
  rw [(hc.free hidle).1] at hq
  exact hq

theorem Calls.release (h : Host) (hc : Calls { h with session := t }) (hr : Sends t r) (caller : Caller) :
    Calls (h.release caller r) ∧ Change { h with session := t } (h.release caller r) := by
  cases hr with
  | quiet keeps busy queue ends =>
    have hcalls {n : Nat} {s' : Session} (hbusy : s'.sendInProgress = t.sendInProgress) (hqueue : s'.queue = t.queue) :
        Calls { h with session := s', failed := n } := ⟨hbusy.trans hc.busy, hc.single, hqueue ▸ hc.queue⟩
    obtain rfl | ⟨e, rfl⟩ := ends
    · exact ⟨hcalls busy queue, rfl, rfl, rfl, .inl (le_refl _), .inl ⟨rfl, keeps⟩⟩
    cases caller with
    | incoming thenAck => exact ⟨hcalls busy queue, rfl, rfl, rfl, .inl (Nat.le_succ _), .inl ⟨rfl, keeps⟩⟩
    | send | timer => exact ⟨hcalls busy queue, rfl, rfl, rfl, .inl (le_refl _), .inl ⟨rfl, keeps⟩⟩
  | wrote wrote idle busy queue =>
    exact ⟨⟨busy, fun _ => (hc.free idle).2, queue⟩, rfl, rfl, rfl, .inl (le_refl _), .inr ⟨_, _, rfl, wrote⟩⟩

/-- A part of a call that may write, and the rest of the call. -/
theorem Calls.settle (h : Host) (hc : Calls { h with session := t }) (hr : Sends t r) (caller : Caller) :
    Calls (h.settle caller r) ∧ Change { h with session := t } (h.settle caller r) := by
  unfold Host.settle
  split
  · rename_i s
    cases hr with
    | quiet keeps busy queue ends =>
      have hidle : Idle s := fun hs => queue ▸ hc.idle (busy ▸ hs)
      exact Calls.release h hc ((sends_sendImmediateAckIfWindowLowLocked hidle).of_keeps keeps busy queue) _
  · exact Calls.release h hc hr caller

/-- The bytes `data` are read, up to `Message` and to what is written then. -/
inductive Reads (h : Host) (data : List Byte) : Host → Prop
  | refused : Reads h data { h with failed := h.failed + 1 }
  | badAck (pk : Packet) (hdecode : decodePacket data = .ok pk) :
    Reads h data { h with session := counted h.session pk.payload.sequenceNumber, failed := h.failed + 1 }
  | badSegment (pk : Packet) (hdecode : decodePacket data = .ok pk) (s₁ : Session)
    (hack : (counted h.session pk.payload.sequenceNumber).acceptAck (ackOf pk) = .ok s₁) (r : Reassembly)
    (e : ProtocolError) (hadd : s₁.reassembly.add pk = (r, .error e)) :
    Reads h data { h.record (ackOf pk, none) with session := { s₁ with reassembly := r }, failed := h.failed + 1 }
  | message (pk : Packet) (hdecode : decodePacket data = .ok pk) (s₁ : Session)
    (hack : (counted h.session pk.payload.sequenceNumber).acceptAck (ackOf pk) = .ok s₁) (r : Reassembly)
    (msg : List Byte) (hadd : s₁.reassembly.add pk = (r, .ok (some msg))) :
    Reads h data { h.record (ackOf pk, some pk) with
      session := { s₁ with reassembly := r }, inMessage := h.inMessage + 1, delivered := h.delivered ++ [msg] }
  | flush (pk : Packet) (hdecode : decodePacket data = .ok pk) (s₁ : Session)
    (hack : (counted h.session pk.payload.sequenceNumber).acceptAck (ackOf pk) = .ok s₁) (r : Reassembly)
    (hadd : s₁.reassembly.add pk = (r, .ok none)) :
    Reads h data { h.record (ackOf pk, some pk) with session := { s₁ with reassembly := r } }

theorem acceptAck_calls {s1 : Session} {number : Byte} {ackNumber : Option Byte}
    (hack : (counted s number).acceptAck ackNumber = .ok s1) :
    s1.sendInProgress = s.sendInProgress ∧ s1.queue = s.queue := by
  obtain ⟨-, rfl⟩ | ⟨a, -, -, rfl⟩ := acceptAck_ok hack
  · exact ⟨rfl, rfl⟩
  · exact ⟨rfl, rfl⟩

theorem record_none (h : Host) : h.record (none, none) = h := by
  unfold Host.record
  rw [toList_none, List.append_nil]

/-- The bytes are read, and then what follows is done. -/
theorem Calls.incoming (hc : Calls h) (data : List Byte) :
    let h' := (h.record (h.session.reads data)).settle (.incoming true) (h.session.handleIncomingLocked data)
    ∃ h1, Reads h data h1 ∧ Calls h' ∧ Change h1 h' := by
  obtain ⟨hreads, e, heq⟩ | ⟨pk, hdecode, hreads, heq⟩ := look_handleIncomingLocked h.session data
  · rw [hreads, heq, record_none]
    exact ⟨_, .refused, ⟨hc.busy, hc.single, hc.queue⟩, .refl _⟩
  rw [hreads, heq]
  have hlook := look h.session pk
  generalize h.session.handlePacket pk = r at hlook
  generalize h.session.readsPacket pk = read at hlook
  cases hlook with
  | refused e =>
    rw [record_none]
    exact ⟨_, .refused, ⟨hc.busy, hc.single, hc.queue⟩, .refl _⟩
  | badAck hseq e hack =>
    rw [record_none]
    exact ⟨_, .badAck pk hdecode, ⟨hc.busy, hc.single, hc.queue⟩, .refl _⟩
  | badSegment hseq s1 hack r e hadd =>
    obtain ⟨hbusy, hqueue⟩ := acceptAck_calls hack
    exact ⟨_, .badSegment pk hdecode s1 hack r e hadd, ⟨hbusy.trans hc.busy, hc.single, hqueue ▸ hc.queue⟩, .refl _⟩
  | message hseq s1 hack r msg hadd =>
    obtain ⟨hbusy, hqueue⟩ := acceptAck_calls hack
    exact ⟨_, .message pk hdecode s1 hack r msg hadd, ⟨hbusy.trans hc.busy, hc.single, hqueue ▸ hc.queue⟩, .refl _⟩
  | flush hseq s1 hack r hadd =>
    obtain ⟨hbusy, hqueue⟩ := acceptAck_calls hack
    have hbase : Calls { h.record (ackOf pk, some pk) with session := { s1 with reassembly := r } } :=
      ⟨hbusy.trans hc.busy, hc.single, hqueue ▸ hc.queue⟩
    exact ⟨_, .flush pk hdecode s1 hack r hadd, Calls.settle (h.record (ackOf pk, some pk)) hbase
      (sends_processSendQueueLocked hbase.idle) _⟩

/-- A step that changes the session's timers or closes it, and none of the calls. -/
theorem Calls.frame {h' : Host} (hc : Calls h) (hbusy : h'.session.sendInProgress = h.session.sendInProgress)
    (hqueue : h'.session.queue = h.session.queue) (hwriter : h'.writer = h.writer)
    (hfailed : h'.failedAck = h.failedAck) : Calls h' where
  busy := by rw [hbusy, hwriter, hfailed]; exact hc.busy
  single := by rw [hwriter, hfailed]; exact hc.single
  queue := by unfold hostEnding; rw [hqueue, hwriter]; exact hc.queue

theorem keeps_ackTimeoutTriggered (s : Session) (onStall : Bool) :
    Keeps s (s.ackTimeoutTriggered onStall).1 ∧
      (s.ackTimeoutTriggered onStall).1.sendInProgress = s.sendInProgress ∧
      (s.ackTimeoutTriggered onStall).1.queue = s.queue := by
  unfold Session.ackTimeoutTriggered
  split
  · exact ⟨.refl s, rfl, rfl⟩
  · split
    · exact ⟨⟨rfl, rfl, rfl, rfl, rfl, fun h => Bool.noConfusion h⟩, rfl, rfl⟩
    · exact ⟨.refl s, rfl, rfl⟩

/-- One event: a packet is read, or none is; then one may be written. -/
theorem step_cases (hc : Calls h) {e : HostEvent} (hstep : hostSystem.step h e = some h') :
    Calls h' ∧ (Change h h' ∨
      ∃ data h1, e = .incoming data ∧ h.failed = 0 ∧ h.session.active = true ∧ Reads h data h1 ∧ Change h1 h') := by
  have hstep : h.step e = some h' := hstep
  cases e with
  | send msg =>
    obtain rfl := some.inj hstep
    obtain ⟨t, hk, hbusy, hqueue, hsends⟩ := sends_send msg hc.idle
    have hbase : Calls { h with session := t } := ⟨hbusy.trans hc.busy, hc.single, hqueue _ hc.queue⟩
    obtain ⟨hcalls, hchange⟩ := Calls.settle h hbase hsends .send
    exact ⟨hcalls, .inl (hchange.of_keeps hk rfl rfl rfl rfl rfl)⟩
  | incoming data =>
    simp only [Host.step] at hstep
    split at hstep
    · cases hstep
    rename_i hfailed
    split at hstep
    · obtain rfl := some.inj hstep
      exact ⟨hc, .inl (.refl h)⟩
    rename_i hactive
    obtain rfl := some.inj hstep
    obtain ⟨h1, hreads, hcalls, hchange⟩ := hc.incoming data
    exact ⟨hcalls, .inr ⟨data, h1, rfl, not_not.mp hfailed, by simpa using hactive, hreads, hchange⟩⟩
  | messageReturned =>
    obtain ⟨-, rfl⟩ := ite_none_eq_some.1 hstep
    have hbase : Calls { ({ h with inMessage := h.inMessage - 1 } : Host) with session := h.session } := hc.frame rfl rfl rfl rfl
    obtain ⟨hcalls, hchange⟩ := Calls.settle _ hbase (sends_processSendQueueLocked hc.idle) (.incoming true)
    exact ⟨hcalls, .inl (hchange.of_keeps (.refl _) rfl rfl rfl rfl rfl)⟩
  | messageFailed =>
    obtain ⟨-, rfl⟩ := ite_none_eq_some.1 hstep
    exact ⟨hc.frame rfl rfl rfl rfl, .inl ⟨rfl, rfl, rfl, .inl (Nat.le_succ _), .inl ⟨rfl, .refl _⟩⟩⟩
  | writeReturned =>
    simp only [Host.step] at hstep
    split at hstep
    · rename_i kind caller hwriter
      obtain rfl := some.inj hstep
      obtain ⟨hbusy, hfree, hq⟩ := hc.writing hwriter
      obtain ⟨t, hk, hidle, hqueue, hsends⟩ := sends_writeReturned hbusy hq
      have hbase : Calls { ({ h with writer := none } : Host) with session := t } :=
        ⟨hidle.trans hfree.symm, fun _ => hfree, hqueue⟩
      obtain ⟨hcalls, hchange⟩ := Calls.settle _ hbase hsends caller
      exact ⟨hcalls, .inl (hchange.of_keeps hk rfl rfl rfl rfl rfl)⟩
    · cases hstep
  | writeFailed =>
    simp only [Host.step] at hstep
    split at hstep
    · rename_i kind caller hwriter
      obtain rfl := some.inj hstep
      obtain ⟨hbusy, hfree, hq⟩ := hc.writing hwriter
      cases kind with
      | segment isEnding =>
        exact ⟨⟨hfree.symm, fun _ => hfree, rfl⟩,
          .inl ⟨rfl, rfl, rfl, .inl (le_refl _), .inl ⟨rfl, ⟨rfl, rfl, rfl, rfl, rfl, id⟩⟩⟩⟩
      | ack =>
        unfold Host.writeFailed
        dsimp only
        split
        · exact ⟨⟨hbusy, fun hnone => Bool.noConfusion hnone, hq⟩,
            .inl ⟨rfl, rfl, rfl, .inl (le_refl _), .inl ⟨rfl, .refl _⟩⟩⟩
        · exact ⟨⟨hfree.symm, fun _ => hfree, hq⟩,
            .inl ⟨rfl, rfl, rfl, .inl (le_refl _), .inl ⟨rfl, ⟨rfl, rfl, rfl, rfl, rfl, id⟩⟩⟩⟩
    · cases hstep
  | incomingCloses | timerCloses =>
    obtain ⟨-, rfl⟩ := ite_none_eq_some.1 hstep
    exact ⟨hc.frame rfl rfl rfl rfl, .inl ⟨rfl, rfl, rfl, .inr rfl, .inl ⟨rfl, .close _⟩⟩⟩
  | ackCloses =>
    obtain ⟨hfailed, rfl⟩ := ite_none_eq_some.1 hstep
    have hwriter : h.writer = none := by
      cases hw : h.writer with
      | none => rfl
      | some w => exact absurd (hc.single (by rw [hw]; rfl)) (by rw [hfailed]; decide)
    refine ⟨⟨by rw [hwriter]; rfl, fun _ => rfl, hc.queue⟩, .inl ⟨rfl, rfl, rfl, .inr rfl, .inl ⟨rfl, ?_⟩⟩⟩
    exact ⟨rfl, rfl, rfl, rfl, rfl, fun hs => Bool.noConfusion hs⟩
  | close =>
    obtain rfl := some.inj hstep
    exact ⟨hc.frame rfl rfl rfl rfl, .inl ⟨rfl, rfl, rfl, .inr rfl, .inl ⟨rfl, .close _⟩⟩⟩
  | onStall =>
    obtain rfl := some.inj hstep
    exact ⟨hc.frame rfl rfl rfl rfl, .inl ⟨rfl, rfl, rfl, .inl (le_refl _), .inl ⟨rfl, .refl _⟩⟩⟩
  | sendAckTimerExpired | ackReceiveTimerExpired | idleTimerExpired =>
    obtain ⟨-, rfl⟩ := ite_none_eq_some.1 hstep
    exact ⟨hc.frame rfl rfl rfl rfl,
      .inl ⟨rfl, rfl, rfl, .inl (le_refl _), .inl ⟨rfl, ⟨rfl, rfl, rfl, rfl, rfl, id⟩⟩⟩⟩
  | sendAckTimeoutTriggered =>
    obtain ⟨-, rfl⟩ := ite_none_eq_some.1 hstep
    have hbase : Calls { ({ h with sendAckFired := h.sendAckFired - 1 } : Host) with session := h.session } := hc.frame rfl rfl rfl rfl
    obtain ⟨hcalls, hchange⟩ := Calls.settle _ hbase (sends_sendAckTimeoutTriggered hc.idle) .timer
    exact ⟨hcalls, .inl (hchange.of_keeps (.refl _) rfl rfl rfl rfl rfl)⟩
  | ackTimeoutTriggered =>
    simp only [Host.step, ite_none_right_eq_some] at hstep
    obtain ⟨-, hstep⟩ := hstep
    obtain ⟨hkeeps, hbusy, hqueue⟩ := keeps_ackTimeoutTriggered h.session h.onStall
    split at hstep
    all_goals
      rename_i t _ heq
      rw [heq] at hkeeps hbusy hqueue
      obtain rfl := some.inj hstep
      exact ⟨hc.frame hbusy hqueue rfl rfl, .inl ⟨rfl, rfl, rfl, .inl (le_refl _), .inl ⟨rfl, hkeeps⟩⟩⟩

/-! ## The sides of a link -/

/-- A side of a link agrees with a session and its calls. -/
structure Mirrors (x : Side) (h : Host) : Prop where
  session : h.session = x.session
  writer : h.writer = x.writer.map fun w => (w.kind, w.caller)
  inMessage : x.inMessage = true → 0 < h.inMessage
  fired : h.sendAckFired = x.fired
  failed : h.failed = 0

variable {x x' : Side} {out inc out' inc' : List (List Byte)}

/-- `HandleIncoming` that fails closes the session, which is an event of its own. -/
theorem Mirrors.release (hm : Mirrors x h) (caller : Caller) (r : Session × Outcome) :
    ∃ es h', hostSystem.run (h.release caller r) es = some h' ∧ Mirrors (x.release caller r) h' := by
  obtain ⟨s, o⟩ := r
  cases o with
  | done => exact ⟨[], _, rfl, { hm with session := rfl }⟩
  | fail e =>
    cases caller with
    | incoming thenAck => exact ⟨[.incomingCloses], _, rfl, { hm with session := rfl }⟩
    | send | timer => exact ⟨[], _, rfl, { hm with session := rfl }⟩
  | write packet kind => exact ⟨[], _, rfl, { hm with session := rfl, writer := rfl }⟩
  | message msg => exact ⟨[], _, rfl, { hm with session := rfl, inMessage := fun _ => Nat.succ_pos _ }⟩

theorem Mirrors.settle (hm : Mirrors x h) (caller : Caller) (r : Session × Outcome) :
    ∃ es h', hostSystem.run (h.settle caller r) es = some h' ∧ Mirrors (x.settle caller r) h' := by
  obtain ⟨s, o⟩ := r
  have hsame := hm.release caller (s, o)
  match caller, o with
  | .incoming true, .done => exact hm.release (.incoming false) s.sendImmediateAckIfWindowLowLocked
  | .incoming true, .fail _ | .incoming true, .write _ _ | .incoming true, .message _ => exact hsame
  | .incoming false, _ | .send, _ | .timer, _ => exact hsame

/-- An event at a side of a link is a run of events of its session. -/
theorem Mirrors.step (hm : Mirrors x h) {e : SideEvent} (hstep : x.step out inc e = some (x', out', inc')) :
    ∃ es h', hostSystem.run h es = some h' ∧ Mirrors x' h' := by
  have after {h1 : Host} (e1 : HostEvent) (h1step : h.step e1 = some h1)
      (hrest : ∃ es h', hostSystem.run h1 es = some h' ∧ Mirrors x' h') :
      ∃ es h', hostSystem.run h es = some h' ∧ Mirrors x' h' := by
    obtain ⟨es, h', hrun, hm'⟩ := hrest
    exact ⟨e1 :: es, h', System.run_cons.2 ⟨h1, h1step, hrun⟩, hm'⟩
  cases e with
  | send msg =>
    cases hstep
    have hsent : Mirrors { x with sent := x.sent ++ [msg] } h := { hm with }
    refine after (.send msg) rfl ?_
    rw [hm.session]
    exact hsent.settle _ _
  | receive =>
    simp only [Side.step] at hstep
    split at hstep
    · rename_i data _ _
      split at hstep
      · cases hstep
        exact ⟨[], h, rfl, hm⟩
      · rename_i hactive
        cases hstep
        have hread : Mirrors x (h.record (x.session.reads data)) := { hm with }
        refine after (.incoming data) ?_ (hread.settle _ _)
        simp only [Host.step, hm.failed, hm.session, ne_eq, not_true_eq_false, if_false]
        rw [if_neg hactive]
    · cases hstep
  | messageReturned =>
    obtain ⟨hmsg, rfl, rfl, rfl⟩ := ite_none_eq_some.1 hstep
    have hback : Mirrors { x with inMessage := false } { h with inMessage := h.inMessage - 1 } :=
      { hm with inMessage := (absurd · Bool.false_ne_true) }
    refine after .messageReturned (if_pos (hm.inMessage hmsg)) ?_
    rw [show h.session.processSendQueueLocked = x.session.processSendQueueLocked by rw [hm.session]]
    exact hback.settle _ _
  | handOver =>
    simp only [Side.step] at hstep
    split at hstep
    · rename_i hwriter
      cases hstep
      refine ⟨[], h, rfl, { hm with writer := ?_ }⟩
      rw [hm.writer, hwriter]
      rfl
    · cases hstep
  | writeReturned =>
    simp only [Side.step] at hstep
    split at hstep
    · rename_i kind caller hwriter
      cases hstep
      have hw : h.writer = some (kind, caller) := by rw [hm.writer, hwriter]; rfl
      have hfree : Mirrors { x with writer := none } { h with writer := none } := { hm with writer := rfl }
      exact after .writeReturned (by simp only [Host.step, hw, hm.session]) (hfree.settle _ _)
    · cases hstep
  | sendAckTimerExpired =>
    obtain ⟨htimer, rfl, rfl, rfl⟩ := ite_none_eq_some.1 hstep
    refine after .sendAckTimerExpired (if_pos (hm.session ▸ htimer)) ⟨[], _, rfl, ?_⟩
    exact { hm with session := by rw [hm.session], fired := by rw [hm.fired] }
  | sendAckTimeoutTriggered =>
    obtain ⟨hfired, rfl, rfl, rfl⟩ := ite_none_eq_some.1 hstep
    have hrun : Mirrors { x with fired := x.fired - 1 } { h with sendAckFired := h.sendAckFired - 1 } :=
      { hm with fired := by rw [hm.fired] }
    refine after .sendAckTimeoutTriggered (if_pos (hm.fired ▸ hfired)) ?_
    rw [show h.session.sendAckTimeoutTriggered = x.session.sendAckTimeoutTriggered by rw [hm.session]]
    exact hrun.settle _ _

/-- The side is one that a session led to, with its calls. -/
def Mirrored (c : Session) (x : Side) : Prop := ∃ es h, hostSystem.run (Host.new c) es = some h ∧ Mirrors x h

theorem Mirrored.step {c : Session} (hm : Mirrored c x) {e : SideEvent}
    (hstep : x.step out inc e = some (x', out', inc')) : Mirrored c x' := by
  obtain ⟨es, h, hrun, hm⟩ := hm
  obtain ⟨es', h', hrun', hm'⟩ := hm.step hstep
  exact ⟨es ++ es', h', (System.run_append_of hrun).trans hrun', hm'⟩

/-- What two sides of a link come to, their sessions come to with any peer. -/
theorem mirrored_run {c p : Session} {es : List LinkEvent} {l : Link}
    (hrun : linkSystem.run (Link.new c p) es = some l) : Mirrored c l.central ∧ Mirrored p l.peripheral := by
  have hnew (s : Session) : Mirrored s (Side.new s) := ⟨[], Host.new s, rfl, ⟨rfl, rfl, nofun, rfl, rfl⟩⟩
  refine System.run_invariant (P := fun l => Mirrored c l.central ∧ Mirrored p l.peripheral) ?_ ⟨hnew c, hnew p⟩ hrun
  rintro l e l' ⟨hc, hp⟩ hstep
  cases e with
  | central e =>
    obtain ⟨⟨side, out, inc⟩, hside, rfl⟩ := map_eq_some_iff.mp hstep
    exact ⟨hc.step hside, hp⟩
  | peripheral e =>
    obtain ⟨⟨side, out, inc⟩, hside, rfl⟩ := map_eq_some_iff.mp hstep
    exact ⟨hc, hp.step hside⟩

end GF.Proof.Btp
