import GoFabric.Framework.Channel
import GoFabric.Proof.Btp.Send

/-!
# What a BTP session does with the next packet

`Takes` is what a packet does to the party it is meant for: it is the next in
order, it acknowledges no less than the one before, and its segment goes on
with the message being reassembled. `handleIncomingLocked_cases` is that
`HandleIncoming` takes such a packet, without an error, when it acknowledges
nothing that was not sent; a packet that a session emits is one
(`Emits.takes`).
-/

namespace GF.Proof.Btp

open GF.Impl.Btp

variable {pk : Packet} {ackNumber : Option Byte} {after : Int} {v : View} {data : List Byte}
  {delivered : List (List Byte)}

/-- What a party has of its peer: the last packet, the last acknowledgement
and the messages. -/
structure View where
  received : Int
  ackReceived : Int
  messages : Received

/-- The packet `pk`, as `data`, takes a party from `v` to `v'`. -/
structure TakesPacket (fragmentSize : Nat) (v : View) (data : List Byte) (v' : View) (pk : Packet) : Prop where
  encoded : encodePacket pk = .ok data
  short : data.length ≤ fragmentSize
  carries : pk.payload.segmentPayload ≠ [] ∨ pk.payload.ackNumber.isSome = true
  number : (pk.payload.sequenceNumber.toNat : Int) = (v.received + 1) % 256
  received : v'.received = v.received + 1
  ack : Acknowledges pk.payload.ackNumber v.ackReceived v'.ackReceived
  messages : feed v.messages pk = some v'.messages

/-- A packet takes a party from `v` to `v'`. -/
def Takes (fragmentSize : Nat) (v : View) (data : List Byte) (v' : View) : Prop :=
  ∃ pk, TakesPacket fragmentSize v data v' pk

variable {g g' : Counters} {s s' : Session}

theorem Emits.takes {packet : List Byte} {kind : Written} (h : Emits g g' s s' pk packet kind)
    (base : List (List Byte)) :
    Takes s.fragmentSize ⟨g.sent, g.acked, emitted base s.queue false⟩ packet
      ⟨g'.sent, g'.acked, emitted base s'.queue (isEnding kind)⟩ :=
  ⟨pk,
    { encoded := h.encoded, short := h.short, carries := h.carries, number := h.number, received := h.sent
      ack := h.ack, messages := h.feeds base }⟩

/-! ## Along a channel -/

section
variable {F : Nat} {v' : View} {packets : List (List Byte)}

theorem Acknowledges.le {before : Int} (h : Acknowledges ackNumber before after) : before ≤ after := by
  cases ackNumber with
  | none => exact le_of_eq (show after = before from h).symm
  | some a => exact h.2

/-- A packet is taken for a part of a message, or for its end. -/
theorem feed_cases {st st' : Received} (h : feed st pk = some st') :
    (st.2.add pk = (st'.2, .ok none) ∧ st'.1 = st.1) ∨
      ∃ msg, st.2.add pk = (st'.2, .ok (some msg)) ∧ st'.1 = st.1 ++ [msg] := by
  unfold feed at h
  split at h
  · rename_i r hadd
    obtain rfl := Option.some.inj h
    exact .inl ⟨hadd, rfl⟩
  · rename_i r msg hadd
    obtain rfl := Option.some.inj h
    exact .inr ⟨msg, hadd, rfl⟩
  · cases h

theorem received_le_of_path (h : Path (Takes F) v packets v') : v.received ≤ v'.received := by
  refine h.lift (P := fun v v' => v.received ≤ v'.received) (fun v => le_refl v.received) ?_
  rintro v data u v' ⟨pk, ht⟩ hle
  have := ht.received
  omega

theorem ackReceived_le_of_path (h : Path (Takes F) v packets v') : v.ackReceived ≤ v'.ackReceived := by
  refine h.lift (P := fun v v' => v.ackReceived ≤ v'.ackReceived) (fun v => le_refl v.ackReceived) ?_
  rintro v data u v' ⟨pk, ht⟩ hle
  exact ht.ack.le.trans hle

theorem messages_prefix_of_path (h : Path (Takes F) v packets v') : v.messages.1 <+: v'.messages.1 := by
  refine h.lift (P := fun v v' => v.messages.1 <+: v'.messages.1) (fun v => List.prefix_rfl) ?_
  rintro v data u v' ⟨pk, ht⟩ hle
  obtain ⟨-, hmsg⟩ | ⟨msg, -, hmsg⟩ := feed_cases ht.messages
  · exact hmsg ▸ hle
  · exact (hmsg ▸ List.prefix_append v.messages.1 [msg] : v.messages.1 <+: u.messages.1).trans hle

end

/-! ## HandleIncoming -/

/-- No acknowledgement is refused that lies between the last one and the last
packet sent. -/
theorem acceptAck_eq (h : Counts g s) (ha : Acknowledges ackNumber g.ackReceived after) (hle : after ≤ g.sent) :
    ∃ ack timer, s.acceptAck ackNumber = .ok { s with prevIncomingAck := ack, ackReceiveTimer := timer } ∧
      Wraps ack after := by
  cases ackNumber with
  | none =>
    obtain rfl : after = g.ackReceived := ha
    exact ⟨s.prevIncomingAck, s.ackReceiveTimer, rfl, h.ackReceived⟩
  | some a =>
    obtain ⟨hnum, hbefore⟩ := ha
    have hwraps : Wraps (a.toNat : Int) after := .inl hnum
    have hw := h.window
    have hsize := h.windowSize
    have hack := h.ackReceived.distance hwraps hbefore (by omega)
    have hsent := h.ackReceived.distance h.sent h.ackReceived_le (by omega)
    refine ⟨a.toNat, (a.toNat : Int) != s.seq, ?_, hwraps⟩
    unfold Session.acceptAck
    dsimp only
    rw [if_neg (by omega)]

/-- The numbers of a party that has taken packets up to `v`. -/
def Counters.take (g : Counters) (v : View) : Counters :=
  { g with received := v.received, ackReceived := v.ackReceived }

/-- The session has taken a packet that leads to `v`. -/
structure Accepts (g : Counters) (s : Session) (v : View) (s' : Session) : Prop where
  counts : Counts (g.take v) s'
  fragmentSize : s'.fragmentSize = s.fragmentSize
  windowSize : s'.windowSize = s.windowSize
  active : s'.active = s.active
  sendInProgress : s'.sendInProgress = s.sendInProgress
  queue : s'.queue = s.queue
  reassembly : s'.reassembly = v.messages.2

def counted (s : Session) (sequenceNumber : Byte) : Session :=
  { s with prevIncomingSeq := sequenceNumber.toNat, pendingFirstAck := [], pendingLive := false, sendAckTimer := true }

theorem Counts.counted (h : Counts g s) {sequenceNumber : Byte} {received : Int}
    (hnum : (sequenceNumber.toNat : Int) = received % 256) (hreceived : received = g.received + 1) :
    Counts { g with received } (counted s sequenceNumber) := by
  have hle := h.acked_le
  refine { h with received := hnum, acked_le := ?_ }
  show g.acked ≤ received
  omega

theorem Counts.acknowledged (h : Counts g s) {ack : Int} (timer : Bool) (hwraps : Wraps ack after)
    (hbefore : g.ackReceived ≤ after) (hle : after ≤ g.sent) :
    Counts { g with ackReceived := after } { s with prevIncomingAck := ack, ackReceiveTimer := timer } := by
  have hw := h.window
  refine { h with ackReceived := hwraps, ackReceived_le := hle, window := ?_ }
  show g.sent - after ≤ s.windowSize
  omega

/-- A packet that is the next one passes the checks in front of its
acknowledgement and its segment. -/
theorem handlePacket_eq {v' : View} (h : s.prevIncomingSeq = v.received % 256)
    (ht : TakesPacket s.fragmentSize v data v' pk) :
    s.handlePacket pk =
      match (counted s pk.payload.sequenceNumber).acceptAck pk.payload.ackNumber with
      | .error e => (counted s pk.payload.sequenceNumber, .fail (.protocol e))
      | .ok s =>
        match s.reassembly.add pk with
        | (r, .error e) => ({ s with reassembly := r }, .fail (.protocol e))
        | (r, .ok (some msg)) => ({ s with reassembly := r }, .message msg)
        | (r, .ok none) => { s with reassembly := r }.processSendQueueLocked := by
  obtain ⟨he, -⟩ := encodePacket_eq_ok ht.encoded
  obtain ⟨hh, hm, ha, -⟩ := encodeError_eq_none he
  have hcarries : (pk.payload.segmentPayload.length == 0 && !pk.header.hasAckNumber) = false := by
    rw [ha]
    obtain hp | hp := ht.carries
    · simp [hp]
    · simp [hp]
  have hseq : (pk.payload.sequenceNumber.toNat : Int) = (s.prevIncomingSeq + 1).tmod 256 := by
    rw [ht.number, Int.tmod_eq_emod_of_nonneg (by omega)]
    omega
  have hackNumber : (if pk.header.hasAckNumber then pk.payload.ackNumber else none) = pk.payload.ackNumber := by
    rw [ha]
    cases pk.payload.ackNumber <;> rfl
  unfold Session.handlePacket
  rw [hh, hm, hcarries, if_neg (not_not.mpr hseq)]
  rw [hackNumber]
  rfl

/-- The next packet is taken; a message is delivered when it is complete. -/
theorem handlePacket_cases (h : Counts g s)
    (ht : TakesPacket s.fragmentSize ⟨g.received, g.ackReceived, (delivered, s.reassembly)⟩ data v pk)
    (hack : v.ackReceived ≤ g.sent) :
    ∃ s', Accepts g s v s' ∧
      ((s.handlePacket pk = s'.processSendQueueLocked ∧ v.messages.1 = delivered) ∨
        ∃ msg, s.handlePacket pk = (s', .message msg) ∧ v.messages.1 = delivered ++ [msg]) := by
  have hcounted := h.counted (ht.number.trans (congrArg (· % 256) ht.received.symm)) ht.received
  obtain ⟨ack, timer, haccept, hwraps⟩ := acceptAck_eq hcounted ht.ack hack
  rw [handlePacket_eq h.received ht, haccept]
  refine ⟨{ counted s pk.payload.sequenceNumber with
      prevIncomingAck := ack, ackReceiveTimer := timer, reassembly := v.messages.2 }, ?_, ?_⟩
  · exact
      { counts := { hcounted.acknowledged timer hwraps ht.ack.le hack with }
        fragmentSize := rfl, windowSize := rfl, active := rfl, sendInProgress := rfl, queue := rfl, reassembly := rfl }
  obtain ⟨hadd, hmsg⟩ | ⟨msg, hadd, hmsg⟩ := feed_cases ht.messages
  · have hadd : (counted s pk.payload.sequenceNumber).reassembly.add pk = (v.messages.2, .ok none) := hadd
    refine .inl ⟨?_, hmsg⟩
    dsimp only
    rw [hadd]
  · have hadd : (counted s pk.payload.sequenceNumber).reassembly.add pk = (v.messages.2, .ok (some msg)) := hadd
    refine .inr ⟨msg, ?_, hmsg⟩
    dsimp only
    rw [hadd]

theorem handleIncomingLocked_cases (h : Counts g s)
    (ht : Takes s.fragmentSize ⟨g.received, g.ackReceived, (delivered, s.reassembly)⟩ data v)
    (hack : v.ackReceived ≤ g.sent) :
    ∃ s', Accepts g s v s' ∧
      ((s.handleIncomingLocked data = s'.processSendQueueLocked ∧ v.messages.1 = delivered) ∨
        ∃ msg, s.handleIncomingLocked data = (s', .message msg) ∧ v.messages.1 = delivered ++ [msg]) := by
  obtain ⟨pk, ht⟩ := ht
  have hshort := ht.short
  have heq : s.handleIncomingLocked data = s.handlePacket pk := by
    unfold Session.handleIncomingLocked
    rw [if_neg (by omega), decodePacket_of_encode ht.encoded]
  rw [heq]
  exact handlePacket_cases h ht hack

/-! ## Any packet -/

/-- The acknowledgement that `HandleIncoming` looks at. -/
def ackOf (pk : Packet) : Option Byte := if pk.header.hasAckNumber then pk.payload.ackNumber else none

def IsNext (s : Session) (pk : Packet) : Prop :=
  (pk.payload.sequenceNumber.toNat : Int) = (s.prevIncomingSeq + 1).tmod 256

/-- What `HandleIncoming` accepts of a packet, and what it does with it, in front of
`Message` and of what it writes. -/
inductive Look (s : Session) (pk : Packet) : Option Byte × Option Packet → Session × Outcome → Prop
  | refused (e : BtpError) : Look s pk (none, none) (s, .fail e)
  | badAck (hseq : IsNext s pk) (e : ProtocolError)
    (hack : (counted s pk.payload.sequenceNumber).acceptAck (ackOf pk) = .error e) :
    Look s pk (none, none) (counted s pk.payload.sequenceNumber, .fail (.protocol e))
  | badSegment (hseq : IsNext s pk) (s₁ : Session)
    (hack : (counted s pk.payload.sequenceNumber).acceptAck (ackOf pk) = .ok s₁) (r : Reassembly) (e : ProtocolError)
    (hadd : s₁.reassembly.add pk = (r, .error e)) :
    Look s pk (ackOf pk, none) ({ s₁ with reassembly := r }, .fail (.protocol e))
  | message (hseq : IsNext s pk) (s₁ : Session)
    (hack : (counted s pk.payload.sequenceNumber).acceptAck (ackOf pk) = .ok s₁) (r : Reassembly) (msg : List Byte)
    (hadd : s₁.reassembly.add pk = (r, .ok (some msg))) :
    Look s pk (ackOf pk, some pk) ({ s₁ with reassembly := r }, .message msg)
  | flush (hseq : IsNext s pk) (s₁ : Session)
    (hack : (counted s pk.payload.sequenceNumber).acceptAck (ackOf pk) = .ok s₁) (r : Reassembly)
    (hadd : s₁.reassembly.add pk = (r, .ok none)) :
    Look s pk (ackOf pk, some pk) { s₁ with reassembly := r }.processSendQueueLocked

theorem look_of_not_passes {s : Session} (h : s.passes pk = false) (e : BtpError) :
    Look s pk (s.readsPacket pk) (s, .fail e) := by
  have hreads : s.readsPacket pk = (none, none) := by
    unfold Session.readsPacket
    rw [h]
    rfl
  exact hreads ▸ .refused e

theorem look (s : Session) (pk : Packet) : Look s pk (s.readsPacket pk) (s.handlePacket pk) := by
  unfold Session.handlePacket
  split
  · rename_i hdata
    exact look_of_not_passes (by simp only [Session.passes, hdata]; rfl) _
  split
  · rename_i hempty
    exact look_of_not_passes (by simp [Session.passes, hempty]) _
  split
  · rename_i hseq
    exact look_of_not_passes (by simp [Session.passes, beq_false_of_ne hseq]) _
  rename_i hdata hempty hseq
  have hseq : IsNext s pk := not_not.mp hseq
  have hpass : s.passes pk = true := by
    simp only [Session.passes, Bool.eq_false_iff.mpr hdata, Bool.eq_false_iff.mpr hempty, Bool.not_false,
      Bool.true_and, beq_iff_eq]
    exact hseq
  unfold Session.readsPacket
  rw [hpass]
  dsimp only
  cases hack : (counted s pk.payload.sequenceNumber).acceptAck (ackOf pk) with
  | error e =>
    have hack' := hack
    unfold counted ackOf at hack'
    rw [hack']
    exact .badAck hseq e hack
  | ok s1 =>
    cases hadd : s1.reassembly.add pk with
    | mk r res =>
      have hack' := hack
      unfold counted ackOf at hack'
      rw [hack']
      dsimp only
      rw [hadd]
      cases res with
      | error e => exact .badSegment hseq s1 hack r e hadd
      | ok msg =>
        cases msg with
        | none => exact .flush hseq s1 hack r hadd
        | some msg => exact .message hseq s1 hack r msg hadd

/-- Any bytes: they are no packet that may come here, or the packet is looked at. -/
theorem look_handleIncomingLocked (s : Session) (data : List Byte) :
    (s.reads data = (none, none) ∧ ∃ e, s.handleIncomingLocked data = (s, .fail e)) ∨
      ∃ pk, decodePacket data = .ok pk ∧ s.reads data = s.readsPacket pk ∧
        s.handleIncomingLocked data = s.handlePacket pk := by
  unfold Session.handleIncomingLocked Session.reads
  split
  · exact .inl ⟨rfl, _, rfl⟩
  · cases hdecode : decodePacket data with
    | error e => exact .inl ⟨rfl, e, rfl⟩
    | ok pk => exact .inr ⟨pk, rfl, rfl, rfl⟩

/-- An acknowledgement changes what was acknowledged to the session, and the timer of
that. -/
theorem acceptAck_ok {s s' : Session} (h : s.acceptAck ackNumber = .ok s') :
    (ackNumber = none ∧ s' = s) ∨
      ∃ a, ackNumber = some a ∧
        modularDistance s.prevIncomingAck a.toNat ≤ modularDistance s.prevIncomingAck s.seq ∧
        s' = { s with prevIncomingAck := a.toNat, ackReceiveTimer := (a.toNat : Int) != s.seq } := by
  cases ackNumber with
  | none =>
    cases h
    exact .inl ⟨rfl, rfl⟩
  | some a =>
    simp only [Session.acceptAck] at h
    split at h
    · cases h
    · rename_i hle
      cases h
      exact .inr ⟨a, rfl, Int.not_lt.mp hle, rfl⟩

end GF.Proof.Btp
