import GoFabric.Impl.Btp.Link
import GoFabric.Proof.Btp.Receive

/-!
# Two BTP sessions deliver each other's messages

The packets on their way, with one that is still in `Write`, lead the receiver
from what it has taken to what the sender has emitted (`Carried`). `Inv` is
that for both directions, with the counters of both sides; every event at a
side keeps it (`Inv.step`), so that no call fails and each side has been handed
a prefix of the messages the other one sent (`link_delivers`).
-/

namespace GF.Proof.Btp

open GF.Impl.Btp List Option

variable {queue : List Outgoing} {s : Session} {kind : Written} {gx gy : Counters} {msg request response : List Byte}
  {maxDataSize requestedSegmentSize : Nat}

/-! ## The invariant -/

/-- The packet in `Write`, until the channel has it. -/
def pending (x : Side) : List (List Byte) :=
  match x.writer with
  | some ⟨some packet, _, _⟩ => [packet]
  | _ => []

/-- The last segment of a message is in `Write`. -/
def ending (x : Side) : Bool :=
  match x.writer with
  | some w => isEnding w.kind
  | none => false

/-- What a side has taken from its peer. -/
def taken (g : Counters) (x : Side) : View := ⟨g.received, g.ackReceived, (x.delivered, x.session.reassembly)⟩

/-- What a side has emitted, through with the messages `base`. -/
def shown (g : Counters) (x : Side) (base : List (List Byte)) : View :=
  ⟨g.sent, g.acked, emitted base x.session.queue (ending x)⟩

/-- The packets lead from what `y` has taken to what `x` shows. -/
def Carried (fragmentSize : Nat) (gx gy : Counters) (x y : Side) (packets : List (List Byte)) : Prop :=
  ∃ base, x.sent = base ++ x.session.queue.map Outgoing.data ∧
    Path (Takes fragmentSize) (taken gy y) (packets ++ pending x) (shown gx x base)

/-- A side on its own. -/
structure SideOk (fragmentSize windowSize : Nat) (g : Counters) (x : Side) : Prop where
  counts : Counts g x.session
  fragmentSize : x.session.fragmentSize = fragmentSize
  windowSize : x.session.windowSize = windowSize
  active : x.session.active = true
  busy : x.session.sendInProgress = x.writer.isSome
  queue : QueueOk x.session.queue (ending x)
  errors : x.errors = []

/-- The side `x` with its peer `y` and the packets from it and to it. -/
def Inv (fragmentSize windowSize : Nat) (x y : Side) (out inc : List (List Byte)) : Prop :=
  ∃ gx gy, SideOk fragmentSize windowSize gx x ∧ SideOk fragmentSize windowSize gy y ∧
    Carried fragmentSize gx gy x y out ∧ Carried fragmentSize gy gx y x inc

variable {F W : Nat} {x y : Side} {out inc : List (List Byte)}

theorem Inv.symm (h : Inv F W x y out inc) : Inv F W y x inc out := by
  obtain ⟨gx, gy, hx, hy, hout, hinc⟩ := h
  exact ⟨gy, gx, hy, hx, hinc, hout⟩

/-- A timer, and the calls that are in `Message` or have not begun, are not part
of it. -/
theorem Inv.frame (h : Inv F W x y out inc) (sendAckTimer inMessage : Bool) (fired : Nat) :
    Inv F W { x with session := { x.session with sendAckTimer }, inMessage, fired } y
      out inc := by
  obtain ⟨gx, gy, hx, hy, hout, hinc⟩ := h
  exact ⟨gx, gy, { hx with counts := { hx.counts with } }, hy, hout, hinc⟩

theorem Carried.of_taken_eq {gy' : Counters} {y' : Side} (h : Carried F gx gy x y out)
    (heq : taken gy' y' = taken gy y) : Carried F gx gy' x y' out := by
  obtain ⟨base, hsent, hpath⟩ := h
  exact ⟨base, hsent, heq ▸ hpath⟩

/-! ## What a call writes -/

section
variable {g : Counters} {r : Session × Outcome}

theorem SideOk.writer_eq_none (h : SideOk F W g x) (hidle : x.session.sendInProgress = false) :
    x.writer = none := by
  have hbusy := h.busy
  cases hw : x.writer with
  | none => rfl
  | some w => rw [hidle, hw] at hbusy; exact absurd hbusy Bool.false_ne_true

theorem ending_of_none (h : x.writer = none) : ending x = false := by
  unfold ending
  rw [h]

theorem SideOk.ready (hF : minimumATTMTU ≤ F) (h : SideOk F W g x) :
    Ready g x.session where
  counts := h.counts
  active := h.active
  fragmentSize := h.fragmentSize ▸ hF
  queue hidle := ending_of_none (h.writer_eq_none hidle) ▸ h.queue

/-- A packet that a call emits joins those on their way. -/
theorem Inv.release (hF : minimumATTMTU ≤ F) (h : Inv F W { x with session := s } y out inc)
    (hf : ∀ g, Ready g s → Flush g s r) (caller : Caller) : Inv F W (x.release caller r) y out inc := by
  obtain ⟨gx, gy, hx, hy, ⟨base, hsent, hpath⟩, hinc⟩ := id h
  obtain rfl | ⟨hidle, gx', pk, packet, kind, hr, he⟩ := hf gx (hx.ready hF)
  · exact h
  obtain ⟨s', o⟩ := r
  obtain rfl : o = .write packet kind := hr
  obtain ⟨session, writer, inMessage, fired, sent, delivered, errors⟩ := x
  obtain rfl : writer = none := hx.writer_eq_none hidle
  have hpath : Path (Takes F) (taken gy y) out ⟨gx.sent, gx.acked, emitted base s.queue false⟩ :=
    append_nil out ▸ hpath
  have htakes := he.takes base
  rw [show s.fragmentSize = F from hx.fragmentSize] at htakes
  refine ⟨gx', gy, ?_, hy, ⟨base, ?_, hpath.snoc htakes⟩, hinc.of_taken_eq ?_⟩
  · exact
      { counts := he.counts, fragmentSize := he.fragmentSize.trans hx.fragmentSize
        windowSize := he.windowSize.trans hx.windowSize, active := he.active.trans hx.active, busy := he.busy
        queue := he.queue, errors := hx.errors }
  · exact hsent.trans (congrArg (base ++ ·) he.data.symm)
  · show View.mk gx'.received gx'.ackReceived (delivered, s'.reassembly) =
      ⟨gx.received, gx.ackReceived, (delivered, s.reassembly)⟩
    rw [he.received, he.ackReceived, he.reassembly]

/-- The rest of a call that may write. -/
theorem Inv.settle (hF : minimumATTMTU ≤ F) (h : Inv F W { x with session := s } y out inc)
    (hf : ∀ g, Ready g s → Flush g s r) (caller : Caller) : Inv F W (x.settle caller r) y out inc := by
  unfold Side.settle
  split
  · rename_i s'
    obtain ⟨gx, gy, hx, -⟩ := id h
    obtain heq | ⟨-, gx', pk, packet, kind, hr, -⟩ := hf gx (hx.ready hF)
    · obtain rfl : s' = s := congrArg Prod.fst heq
      exact h.release hF (fun g hready => hready.sendImmediateAckIfWindowLowLocked) (.incoming false)
    · cases hr
  · exact h.release hF hf caller

end

/-! ## Send -/

theorem QueueOk.append {e : Bool} (h : QueueOk queue e) {m : Outgoing} (hoff : m.off = 0) (hm : MessageOk m) :
    QueueOk (queue ++ [m]) e := by
  cases queue with
  | nil =>
    exact ⟨fun _ => hoff ▸ hm.1, hm, fun x hx => absurd hx not_mem_nil⟩
  | cons first rest =>
    obtain ⟨hfirst, hok, hrest⟩ := h
    refine ⟨hfirst, hok, fun x hx => ?_⟩
    obtain hx | hx := mem_append.mp hx
    · exact hrest x hx
    · obtain rfl := mem_singleton.mp hx
      exact ⟨hoff, hm⟩

theorem emitted_append {e : Bool} (h : QueueOk queue e) {m : Outgoing} (hoff : m.off = 0) (base : List (List Byte)) :
    emitted base (queue ++ [m]) e = emitted base queue e := by
  cases queue with
  | nil =>
    obtain rfl : e = false := h
    simp [emitted, hoff]
  | cons first rest => rfl

def queued (s : Session) (msg : List Byte) : Session :=
  { s with pendingFirstAck := if s.pendingLive then s.pendingFirstAck ++ [msg] else s.pendingFirstAck
           queue := s.queue ++ [{ data := msg, off := 0 }] }

theorem send_eq (hactive : s.active = true) (hne : 0 < msg.length) (hle : msg.length ≤ 0xFFFF) :
    s.send msg = (queued s msg).processSendQueueLocked := by
  unfold Session.send queued
  rw [if_neg (by simp [hactive]), if_neg (by omega), if_neg (by omega)]

theorem Inv.send (hF : minimumATTMTU ≤ F) (h : Inv F W x y out inc) (hne : 0 < msg.length)
    (hle : msg.length ≤ 0xFFFF) :
    Inv F W ({ x with sent := x.sent ++ [msg] }.settle .send (x.session.send msg)) y out inc := by
  obtain ⟨gx, gy, hx, hy, ⟨base, hsent, hpath⟩, hinc⟩ := h
  rw [send_eq hx.active hne hle]
  refine Inv.settle hF ?_ (fun g (hready : Ready g (queued x.session msg)) => hready.processSendQueueLocked) .send
  refine ⟨gx, gy, ?_, hy, ⟨base, ?_, ?_⟩, hinc⟩
  · exact { hx with counts := { hx.counts with }, queue := hx.queue.append rfl ⟨hne, hle⟩ }
  · show x.sent ++ [msg] = base ++ (x.session.queue ++ [Outgoing.mk msg 0]).map Outgoing.data
    rw [hsent, map_append, append_assoc]
    rfl
  · show Path _ _ _ (View.mk gx.sent gx.acked (emitted base (x.session.queue ++ [Outgoing.mk msg 0]) (ending x)))
    rw [emitted_append hx.queue rfl]
    exact hpath

/-! ## Write -/

theorem emitted_tail (h : QueueOk queue true) (base : List (List Byte)) :
    ∃ base', base' ++ queue.tail.map Outgoing.data = base ++ queue.map Outgoing.data ∧
      emitted base' queue.tail false = emitted base queue true ∧ QueueOk queue.tail false := by
  cases queue with
  | nil => cases h
  | cons m rest =>
    obtain ⟨-, -, hrest⟩ := h
    refine ⟨base ++ [m.data], append_assoc base [m.data] _, ?_, ?_⟩
    · cases rest with
      | nil => rfl
      | cons next rest => simp [emitted, (hrest next mem_cons_self).1]
    cases rest with
    | nil => rfl
    | cons next rest =>
      obtain ⟨hoff, hm⟩ := hrest next mem_cons_self
      exact ⟨fun _ => hoff ▸ hm.1, hm, fun x hx => hrest x (mem_cons_of_mem next hx)⟩

theorem emitted_afterWrite (h : QueueOk s.queue (isEnding kind)) (base : List (List Byte)) :
    ∃ base', base' ++ (afterWrite s kind).queue.map Outgoing.data = base ++ s.queue.map Outgoing.data ∧
      emitted base' (afterWrite s kind).queue false = emitted base s.queue (isEnding kind) ∧
      QueueOk (afterWrite s kind).queue false := by
  match kind, h with
  | .ack, h => exact ⟨base, rfl, rfl, h⟩
  | .segment false, h => exact ⟨base, rfl, rfl, h⟩
  | .segment true, h => exact emitted_tail h base

theorem SideOk.afterWrite {g : Counters} (h : SideOk F W g x) (hq : QueueOk (afterWrite x.session kind).queue false) :
    SideOk F W g { x with session := Btp.afterWrite x.session kind, writer := none } := by
  cases kind with
  | ack | segment isEnding => exact { h with counts := { h.counts with }, busy := rfl, queue := hq }

theorem taken_afterWrite (g : Counters) (x : Side) (kind : Written) :
    taken g { x with session := afterWrite x.session kind, writer := none } = taken g x := by
  cases kind <;> rfl

theorem Inv.handOver {packet : List Byte} {caller : Caller} (h : Inv F W x y out inc)
    (hw : x.writer = some ⟨some packet, kind, caller⟩) :
    Inv F W { x with writer := some ⟨none, kind, caller⟩ } y (out ++ [packet]) inc := by
  obtain ⟨session, writer, inMessage, fired, sent, delivered, errors⟩ := x
  obtain rfl : writer = _ := hw
  obtain ⟨gx, gy, hx, hy, ⟨base, hsent, hpath⟩, hinc⟩ := h
  exact ⟨gx, gy, { hx with }, hy, ⟨base, hsent, (append_nil (out ++ [packet])).symm ▸ hpath⟩, hinc⟩

theorem Inv.writeReturned (hF : minimumATTMTU ≤ F) {caller : Caller} (h : Inv F W x y out inc)
    (hw : x.writer = some ⟨none, kind, caller⟩) :
    Inv F W ({ x with writer := none }.settle caller (x.session.writeReturned kind)) y
      out inc := by
  obtain ⟨gx, gy, hx, hy, ⟨base, hsent, hpath⟩, hinc⟩ := h
  have hbusy : x.session.sendInProgress = true := by rw [hx.busy, hw]; rfl
  have hpending : pending x = [] := by unfold pending; rw [hw]
  have hending : ending x = isEnding kind := by unfold ending; rw [hw]
  unfold shown at hpath
  rw [hpending, hending] at hpath
  obtain ⟨base', hdata, hemitted, hqueue⟩ := emitted_afterWrite (hending ▸ hx.queue) base
  refine Inv.settle hF ?_ (fun g (hready : Ready g (afterWrite x.session kind)) =>
    hready.writeReturned hx.active hbusy) caller
  refine ⟨gx, gy, hx.afterWrite hqueue, hy, ⟨base', ?_, ?_⟩, ?_⟩
  · exact hsent.trans hdata.symm
  · show Path _ _ _ (View.mk gx.sent gx.acked (emitted base' (afterWrite x.session kind).queue false))
    rw [hemitted]
    exact hpath
  · exact hinc.of_taken_eq (taken_afterWrite gx x kind)

/-! ## HandleIncoming -/

theorem Inv.receive (hF : minimumATTMTU ≤ F) {data : List Byte} (h : Inv F W x y out (data :: inc)) :
    Inv F W (x.settle (.incoming true) (x.session.handleIncomingLocked data)) y out inc := by
  obtain ⟨gx, gy, hx, hy, ⟨base, hsent, hout⟩, ⟨base', hsent', hinc⟩⟩ := h
  obtain ⟨v, htakes, hinc⟩ := Path.cons_iff.mp hinc
  -- An acknowledgement in the packet, and those behind it, are of packets that `y` received from `x`.
  have hack : v.ackReceived ≤ gx.sent := by
    have h₁ : v.ackReceived ≤ gy.acked := ackReceived_le_of_path hinc
    have h₂ : gy.received ≤ gx.sent := received_le_of_path hout
    have h₃ := hy.counts.acked_le
    omega
  obtain ⟨s', ha, hcases⟩ := handleIncomingLocked_cases hx.counts (hx.fragmentSize ▸ htakes) hack
  have hinv : Inv F W { x with session := s', delivered := v.messages.1 } y out inc := by
    refine ⟨gx.take v, gy, ?_, hy, ⟨base, ha.queue ▸ hsent, ?_⟩, ⟨base', hsent', ?_⟩⟩
    · exact
        { counts := ha.counts, fragmentSize := ha.fragmentSize.trans hx.fragmentSize
          windowSize := ha.windowSize.trans hx.windowSize, active := ha.active.trans hx.active
          busy := ha.sendInProgress.trans hx.busy, queue := ha.queue ▸ hx.queue, errors := hx.errors }
    · show Path _ _ _ (View.mk gx.sent gx.acked (emitted base s'.queue (ending x)))
      rw [ha.queue]
      exact hout
    · show Path _ (View.mk v.received v.ackReceived (v.messages.1, s'.reassembly)) _ _
      rw [ha.reassembly]
      exact hinc
  obtain ⟨heq, hmsg⟩ | ⟨msg, heq, hmsg⟩ := hcases
  · rw [hmsg] at hinv
    rw [heq]
    exact Inv.settle hF hinv (fun g hready => hready.processSendQueueLocked) (.incoming true)
  · rw [hmsg] at hinv
    rw [heq]
    exact hinv.frame s'.sendAckTimer true x.fired

/-! ## Events -/

/-- `Send` is called with a message of 1 to 65535 bytes. -/
def SendOk : SideEvent → Prop
  | .send msg => 1 ≤ msg.length ∧ msg.length ≤ 65535
  | _ => True

theorem Inv.step (hF : minimumATTMTU ≤ F) (h : Inv F W x y out inc) {e : SideEvent} (he : SendOk e) {x' : Side}
    {out' inc' : List (List Byte)} (hstep : x.step out inc e = some (x', out', inc')) : Inv F W x' y out' inc' := by
  cases e with
  | send msg =>
    obtain ⟨rfl, rfl, rfl⟩ := some.inj hstep
    exact h.send hF he.1 he.2
  | receive =>
    obtain ⟨gx, gy, hx, -⟩ := id h
    simp only [Side.step] at hstep
    split at hstep
    · rw [hx.active] at hstep
      obtain ⟨rfl, rfl, rfl⟩ := some.inj hstep
      exact h.receive hF
    · cases hstep
  | messageReturned =>
    obtain ⟨-, rfl, rfl, rfl⟩ := ite_none_eq_some.1 hstep
    exact (h.frame x.session.sendAckTimer false x.fired).settle hF
      (fun g hready => hready.processSendQueueLocked) (.incoming true)
  | handOver =>
    simp only [Side.step] at hstep
    split at hstep
    · rename_i packet kind caller hw
      obtain ⟨rfl, rfl, rfl⟩ := some.inj hstep
      exact h.handOver hw
    · cases hstep
  | writeReturned =>
    simp only [Side.step] at hstep
    split at hstep
    · rename_i kind caller hw
      obtain ⟨rfl, rfl, rfl⟩ := some.inj hstep
      exact h.writeReturned hF hw
    · cases hstep
  | sendAckTimerExpired =>
    obtain ⟨-, rfl, rfl, rfl⟩ := ite_none_eq_some.1 hstep
    exact h.frame false x.inMessage (x.fired + 1)
  | sendAckTimeoutTriggered =>
    obtain ⟨-, rfl, rfl, rfl⟩ := ite_none_eq_some.1 hstep
    exact (h.frame x.session.sendAckTimer x.inMessage (x.fired - 1)).settle hF
      (fun g hready => hready.sendAckTimeoutTriggered) .timer

/-- What a side was handed, the other one sent. -/
theorem Inv.delivered_prefix (h : Inv F W x y out inc) : y.delivered <+: x.sent := by
  obtain ⟨gx, gy, -, -, ⟨base, hsent, hpath⟩, -⟩ := h
  have hemitted : (emitted base x.session.queue (ending x)).1 <+: x.sent := by
    rw [hsent]
    unfold emitted
    split
    · exact prefix_append base _
    rename_i m rest hq
    split
    · exact ⟨rest.map Outgoing.data, by rw [hq]; exact append_assoc base [m.data] _⟩
    · split
      · exact prefix_append base _
      · exact prefix_append base _
  exact (messages_prefix_of_path hpath).trans hemitted

/-! ## The handshake -/

/-- The numbers of a new session: the handshake response was packet 0 of the peripheral. -/
def start : Role → Counters
  | .central => { sent := -1, received := 0, ackReceived := -1, acked := -1 }
  | .peripheral => { sent := 0, received := -1, ackReceived := -1, acked := -1 }

/-- A new session, with nothing sent or received but the handshake. -/
structure Fresh (fragmentSize windowSize : Nat) (g : Counters) (s : Session) : Prop where
  ok : SideOk fragmentSize windowSize g (Side.new s)
  queue : s.queue = []
  reassembly : s.reassembly = .empty

theorem newSession_fresh {role : Role} (version : Nat) (ackReceiveTimer : Bool)
    (h : newSession role version F W = .ok s) (hlow : role = .peripheral → 1 ≤ W) (hhigh : W ≤ 255) :
    Fresh F W (start role) { s with ackReceiveTimer } := by
  have hwindow : (start role).sent - (start role).ackReceived ≤ W := by
    cases role with
    | central => exact Int.natCast_nonneg W
    | peripheral => exact Int.ofNat_le.2 (hlow rfl)
  unfold newSession at h
  split at h
  · cases h
  cases role with
  | central | peripheral =>
    obtain rfl := Except.ok.inj h
    exact
      { ok :=
          { counts :=
              { sent := by first | exact .inl rfl | exact .inr ⟨rfl, rfl⟩
                received := rfl, ackReceived := .inr ⟨rfl, rfl⟩
                acked_le := by decide, ackReceived_le := by decide, window := hwindow, windowSize := hhigh }
            fragmentSize := rfl, windowSize := rfl, active := rfl, busy := rfl, queue := rfl, errors := rfl }
        queue := rfl, reassembly := rfl }

theorem newPeripheral_ok (h : newPeripheral maxDataSize request = .ok (s, response)) :
    ∃ attMTU window : Nat,
      response = encodeHandshakeResponse
        { version := 4, attMTU := BitVec.ofNat 16 attMTU, windowSize := BitVec.ofNat 8 window } ∧
      (1 ≤ s.windowSize → Fresh attMTU window (start .peripheral) s) ∧ minimumATTMTU ≤ attMTU ∧ window ≤ 255 := by
  unfold newPeripheral at h
  cases hreq : decodeHandshakeRequest request with
  | error e => rw [hreq] at h; cases h
  | ok req =>
    rw [hreq] at h
    dsimp only [bind, Except.bind] at h
    split at h
    · cases h
    rename_i version hfind
    obtain rfl : version = 4 := mem_singleton.mp (mem_of_find?_eq_some hfind)
    obtain ⟨rfl, hresponse⟩ := Prod.mk.inj (Except.ok.inj h)
    have hwindow : min maximumWindowSize req.clientWindowSize.toNat ≤ 255 := Nat.min_le_left 255 _
    refine ⟨_, _, hresponse.symm, fun hlow => newSession_fresh 4 true rfl (fun _ => hlow) hwindow, ?_, hwindow⟩
    unfold minimumATTMTU maximumBTPMTU
    split_ifs <;> omega

theorem newCentral_ok {r : HandshakeResponse}
    (h : newCentral (encodeHandshakeResponse r) requestedSegmentSize = .ok s) :
    ∃ segmentSize, Fresh segmentSize r.windowSize.toNat (start .central) s := by
  unfold newCentral at h
  split at h
  · cases h
  · exact ⟨_, newSession_fresh _ _ h nofun (Nat.le_of_lt_succ r.windowSize.isLt)⟩

theorem Fresh.carried {t : Session} (hs : Fresh F W gx s) (ht : Fresh F W gy t) (hnumber : gy.received = gx.sent)
    (hack : gy.ackReceived = gx.acked) : Carried F gx gy (Side.new s) (Side.new t) [] := by
  refine ⟨[], ?_, ?_⟩
  · show [] = [] ++ s.queue.map Outgoing.data
    rw [hs.queue]
    rfl
  · show View.mk gy.received gy.ackReceived ([], t.reassembly) = ⟨gx.sent, gx.acked, emitted [] s.queue false⟩
    rw [hnumber, hack, ht.reassembly, hs.queue]
    rfl

theorem inv_new {c p : Session} (hp : newPeripheral maxDataSize request = .ok (p, response))
    (hc : newCentral response requestedSegmentSize = .ok c) (hsize : c.fragmentSize = p.fragmentSize)
    (hwindow : 1 ≤ p.windowSize) :
    minimumATTMTU ≤ p.fragmentSize ∧ Inv p.fragmentSize p.windowSize (Side.new c) (Side.new p) [] [] := by
  obtain ⟨attMTU, window, rfl, hfresh, hmin, hhigh⟩ := newPeripheral_ok hp
  have hperipheral := hfresh hwindow
  obtain ⟨segmentSize, hcentral⟩ := newCentral_ok hc
  have hw : (BitVec.ofNat 8 window).toNat = window := by
    rw [BitVec.toNat_ofNat]
    omega
  obtain rfl : p.fragmentSize = attMTU := hperipheral.ok.fragmentSize
  obtain rfl : p.windowSize = window := hperipheral.ok.windowSize
  obtain rfl : c.fragmentSize = segmentSize := hcentral.ok.fragmentSize
  rw [hsize, hw] at hcentral
  exact ⟨hmin, start .central, start .peripheral, hcentral.ok, hperipheral.ok, hcentral.carried hperipheral rfl rfl,
    hperipheral.carried hcentral rfl rfl⟩

/-! ## Runs -/

/-- `Send` is called with messages of 1 to 65535 bytes. -/
def LinkSendOk : LinkEvent → Prop
  | .central e => SendOk e
  | .peripheral e => SendOk e

theorem linkSystem_step (hF : minimumATTMTU ≤ F) {l l' : Link} {e : LinkEvent} (he : LinkSendOk e)
    (h : Inv F W l.central l.peripheral l.toPeripheral l.toCentral) (hstep : linkSystem.step l e = some l') :
    Inv F W l'.central l'.peripheral l'.toPeripheral l'.toCentral := by
  cases e with
  | central e =>
    obtain ⟨⟨side, out, inc⟩, hside, rfl⟩ := map_eq_some_iff.mp hstep
    exact h.step hF he hside
  | peripheral e =>
    obtain ⟨⟨side, out, inc⟩, hside, rfl⟩ := map_eq_some_iff.mp hstep
    exact (h.symm.step hF he hside).symm

/-- Two sessions of one handshake, with their packets carried in order and
without loss: whatever the order of their calls, none of them fails, and each
side has been handed a prefix of the messages that were sent to it. -/
theorem link_delivers {maxDataSize requestedSegmentSize : Nat} {request response : List Byte}
    {central peripheral : Session} (hp : newPeripheral maxDataSize request = .ok (peripheral, response))
    (hc : newCentral response requestedSegmentSize = .ok central)
    (hsize : central.fragmentSize = peripheral.fragmentSize) (hwindow : 1 ≤ peripheral.windowSize)
    {events : List LinkEvent} (hsend : ∀ e ∈ events, LinkSendOk e) {l : Link}
    (hrun : linkSystem.run (Link.new central peripheral) events = some l) :
    l.central.errors = [] ∧ l.peripheral.errors = [] ∧ l.central.delivered <+: l.peripheral.sent ∧
      l.peripheral.delivered <+: l.central.sent := by
  obtain ⟨hF, hnew⟩ := inv_new hp hc hsize hwindow
  have hinv : Inv peripheral.fragmentSize peripheral.windowSize l.central l.peripheral l.toPeripheral l.toCentral :=
    System.run_invariant_of (fun l e l' he h hstep => linkSystem_step hF he h hstep) hsend hnew hrun
  obtain ⟨gc, gp, hcentral, hperipheral, -⟩ := id hinv
  exact ⟨hcentral.errors, hperipheral.errors, hinv.symm.delivered_prefix, hinv.delivered_prefix⟩

/-- A request for version 4, an ATT MTU of 247 and a window of 4. -/
def sampleRequest : List Byte := [0x65, 0x6c, 0x04, 0x00, 0x00, 0x00, 0xf7, 0x00, 0x04]

/-- The answer to it: segments of 20 bytes, a window of 4. -/
def sampleResponse : List Byte := [0x65, 0x6c, 0x04, 0x14, 0x00, 0x04]

def samplePeripheral : Session :=
  { role := .peripheral, fragmentSize := 20, windowSize := 4, reassembly := .empty, prevIncomingSeq := 255
    prevIncomingAck := -1, seq := 0, prevAckedSeq := 255, queue := [], sendInProgress := false, active := true
    pendingFirstAck := [], pendingLive := true, ackReceiveTimer := true, sendAckTimer := false, idleTimer := false }

def sampleCentral : Session :=
  { role := .central, fragmentSize := 20, windowSize := 4, reassembly := .empty, prevIncomingSeq := 0
    prevIncomingAck := -1, seq := -1, prevAckedSeq := -1, queue := [], sendInProgress := false, active := true
    pendingFirstAck := [], pendingLive := true, ackReceiveTimer := false, sendAckTimer := true, idleTimer := false }

/-- A message in two segments one way, one that is sent between them the other
way, and the send-ack timer. -/
def sampleEvents : List LinkEvent :=
  [.central (.send (List.replicate 30 7)), .central .handOver, .central .writeReturned, .peripheral .receive,
    .central .handOver, .peripheral (.send [1, 2]), .central .writeReturned, .peripheral .handOver,
    .peripheral .receive, .peripheral .writeReturned, .central .receive, .peripheral .messageReturned,
    .peripheral .sendAckTimerExpired, .peripheral .sendAckTimeoutTriggered, .central .messageReturned]

theorem link_delivers_sample :
    (∀ e ∈ sampleEvents, LinkSendOk e) ∧
      ∃ l, linkSystem.run (Link.new sampleCentral samplePeripheral) sampleEvents = some l ∧
        (l.central.errors = [] ∧ l.peripheral.errors = [] ∧ l.central.delivered <+: l.peripheral.sent ∧
          l.peripheral.delivered <+: l.central.sent) := by
  have hsend : ∀ e ∈ sampleEvents, LinkSendOk e := by simp [sampleEvents, LinkSendOk, SendOk]
  have hrun : (linkSystem.run (Link.new sampleCentral samplePeripheral) sampleEvents).isSome = true := by
    decide +kernel
  obtain ⟨l, hl⟩ := isSome_iff_exists.mp hrun
  have hp : newPeripheral 0 sampleRequest = .ok (samplePeripheral, sampleResponse) := by decide +kernel
  have hc : newCentral sampleResponse 244 = .ok sampleCentral := by decide +kernel
  exact ⟨hsend, l, hl, link_delivers hp hc rfl (by decide) hsend hl⟩

end GF.Proof.Btp
