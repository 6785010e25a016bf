import GoFabric.Impl.Btp.Session
import GoFabric.Proof.Btp.Codec

/-!
# What a BTP session writes

The counters of a session are numbers modulo 256. `Counts` gives the numbers
themselves; the window keeps what is compared closer than 256 apart, so that a
comparison of counters is one of numbers. `emitted` is what a receiver has
once it got every packet that was written, and `Emits` what a write is: the
next packet, which takes a receiver from what was emitted before to what is
emitted now. Every call of a session that may write either changes nothing or
emits one packet (`Flush`).
-/

namespace GF.Proof.Btp

open GF.Impl.Btp

variable {n x m : Int} {s : Session} {pk : Packet} {base : List (List Byte)} {carriesAck : Bool}

/-! ## Counters -/

theorem modularDistance_eq (a b : Int) : modularDistance a b = (b - a) % 256 := by
  unfold modularDistance
  rcases Int.le_total 0 (b - a) with h | h
  · rw [Int.tmod_eq_emod_of_nonneg h, Int.tmod_eq_emod_of_nonneg (by omega)]
    omega
  have hneg : (b - a).tmod 256 = -((-(b - a)) % 256) := by
    rw [← Int.tmod_eq_emod_of_nonneg (by omega), Int.neg_tmod, Int.neg_neg]
  rw [Int.tmod_eq_emod_of_nonneg (by omega)]
  omega

/-- The numbers behind a session's counters: the last packet it sent and the
last it received, the last that was acknowledged to it and the last it
acknowledged. -/
structure Counters where
  sent : Int
  received : Int
  ackReceived : Int
  acked : Int

/-- A counter for a number; before the first packet it may be -1. -/
def Wraps (x n : Int) : Prop := x = n % 256 ∨ (x = -1 ∧ n = -1)

theorem Wraps.next (h : Wraps x n) : (if maximumSequenceNumber < x + 1 then 0 else x + 1) = (n + 1) % 256 := by
  unfold maximumSequenceNumber
  obtain h | ⟨rfl, rfl⟩ := h
  · split <;> omega
  · decide

theorem Wraps.distance {y : Int} (hx : Wraps x m) (hy : Wraps y n) (hle : m ≤ n) (hlt : n - m ≤ 255) :
    modularDistance x y = n - m := by
  rw [modularDistance_eq]
  obtain rfl | ⟨rfl, rfl⟩ := hx <;> obtain rfl | ⟨rfl, rfl⟩ := hy <;> omega

/-- The counters of a session, and its window. -/
structure Counts (g : Counters) (s : Session) : Prop where
  sent : Wraps s.seq g.sent
  received : s.prevIncomingSeq = g.received % 256
  ackReceived : Wraps s.prevIncomingAck g.ackReceived
  acked_le : g.acked ≤ g.received
  ackReceived_le : g.ackReceived ≤ g.sent
  window : g.sent - g.ackReceived ≤ s.windowSize
  windowSize : s.windowSize ≤ 255

/-- The window has room for a packet, and for one more behind a packet without an
acknowledgement. -/
theorem room_of_canSend (hack : Wraps s.prevIncomingAck m) (hsent : Wraps s.seq n) (hle : m ≤ n) (hlt : n - m ≤ 255)
    (hc : s.canSend carriesAck = true) :
    n + 1 - m ≤ s.windowSize ∧ (carriesAck = false → n + 1 - m < s.windowSize) := by
  have hd : modularDistance s.prevIncomingAck s.seq = n - m := hack.distance hsent hle hlt
  unfold Session.canSend at hc
  split at hc
  · exact absurd hc Bool.false_ne_true
  rename_i hfree
  split at hc
  · exact absurd hc Bool.false_ne_true
  rename_i hone
  have hthreshold : windowNoAckSendThreshold = 1 := rfl
  simp only [Bool.and_eq_true, decide_eq_true_eq, not_and] at hone
  unfold Session.remoteWindowFreeSlots at hfree hone
  refine ⟨by omega, fun hnone => ?_⟩
  by_contra hfull
  exact absurd (hone (by omega)) (by rw [hnone]; decide)

theorem Counts.room {g : Counters} (h : Counts g s) (hc : s.canSend carriesAck = true) :
    g.sent + 1 - g.ackReceived ≤ s.windowSize := by
  have hw := h.window
  have hle := h.windowSize
  exact (room_of_canSend h.ackReceived h.sent h.ackReceived_le (by omega) hc).1

theorem toNat_ofInt_emod (n : Int) : ((BitVec.ofInt 8 (n % 256)).toNat : Int) = n % 256 := by
  rw [BitVec.toNat_ofInt]
  omega

/-- The numbers after one more packet, with or without an
acknowledgement. -/
def Counters.emit (g : Counters) (acks : Bool) : Counters :=
  { g with sent := g.sent + 1, acked := if acks then g.received else g.acked }

theorem Counts.emit {g : Counters} (h : Counts g s) {acks : Bool}
    (hroom : g.sent + 1 - g.ackReceived ≤ s.windowSize) {s' : Session} (hseq : s'.seq = s.nextSequenceNumber.1.seq)
    (hin : s'.prevIncomingSeq = s.prevIncomingSeq) (hinAck : s'.prevIncomingAck = s.prevIncomingAck)
    (hw : s'.windowSize = s.windowSize) : Counts (g.emit acks) s' := by
  have hack := h.ackReceived_le
  refine
    { sent := .inl (hseq.trans h.sent.next), received := hin.trans h.received, ackReceived := hinAck ▸ h.ackReceived,
      acked_le := ?_, ackReceived_le := ?_, window := ?_, windowSize := hw ▸ h.windowSize }
  · cases acks with
    | true => exact le_refl g.received
    | false => exact h.acked_le
  · show g.ackReceived ≤ g.sent + 1; omega
  · rw [hw]; exact hroom

/-! ## Messages and segments -/

/-- What a receiver has: the messages it delivered, and the one it is
reassembling. -/
abbrev Received := List (List Byte) × Reassembly

/-- A packet that a receiver takes. -/
def feed (st : Received) (pk : Packet) : Option Received :=
  match st.2.add pk with
  | (r, .ok none) => some (st.1, r)
  | (r, .ok (some msg)) => some (st.1 ++ [msg], r)
  | (_, .error _) => none

/-- What a receiver has once it got every packet written so far, of a sender
that is through with `base` and has `queue` left; `ending` when the last
segment of its first message is still in `Write`. -/
def emitted (base : List (List Byte)) (queue : List Outgoing) (ending : Bool) : Received :=
  match queue with
  | [] => (base, .empty)
  | m :: _ =>
    if ending then (base ++ [m.data], .empty)
    else if m.off = 0 then (base, .empty)
    else (base, { reassembling := true, incomingLen := m.data.length, incoming := m.data.take m.off })

/-- A queued message, of a length that `Send` takes. -/
def MessageOk (m : Outgoing) : Prop := 0 < m.data.length ∧ m.data.length ≤ 0xFFFF

/-- A queue of which at most the first message was begun, and not sent to its
end unless its last segment is in `Write`. -/
def QueueOk (queue : List Outgoing) (ending : Bool) : Prop :=
  match queue with
  | [] => ending = false
  | m :: rest => (ending = false → m.off < m.data.length) ∧ MessageOk m ∧ ∀ x ∈ rest, x.off = 0 ∧ MessageOk x

/-- The last segment of a message is in `Write`. -/
def isEnding : Written → Bool
  | .segment ending => ending
  | .ack => false

/-- The acknowledgement of a packet takes what is acknowledged from `before` to
`after`. -/
def Acknowledges (ackNumber : Option Byte) (before after : Int) : Prop :=
  match ackNumber with
  | none => after = before
  | some a => (a.toNat : Int) = after % 256 ∧ before ≤ after

/-- The packet `pk` is written, as `packet`: the session goes from `s` to `s'`
and its numbers from `g` to `g'`. -/
structure Emits (g g' : Counters) (s s' : Session) (pk : Packet) (packet : List Byte) (kind : Written) : Prop where
  encoded : encodePacket pk = .ok packet
  short : packet.length ≤ s.fragmentSize
  carries : pk.payload.segmentPayload ≠ [] ∨ pk.payload.ackNumber.isSome = true
  number : (pk.payload.sequenceNumber.toNat : Int) = (g.sent + 1) % 256
  sent : g'.sent = g.sent + 1
  received : g'.received = g.received
  ackReceived : g'.ackReceived = g.ackReceived
  ack : Acknowledges pk.payload.ackNumber g.acked g'.acked
  counts : Counts g' s'
  busy : s'.sendInProgress = true
  active : s'.active = s.active
  fragmentSize : s'.fragmentSize = s.fragmentSize
  windowSize : s'.windowSize = s.windowSize
  reassembly : s'.reassembly = s.reassembly
  queue : QueueOk s'.queue (isEnding kind)
  data : s'.queue.map Outgoing.data = s.queue.map Outgoing.data
  feeds : ∀ base, feed (emitted base s.queue false) pk = some (emitted base s'.queue (isEnding kind))

/-- A call changed nothing, or emitted a packet. -/
def Flush (g : Counters) (s : Session) (r : Session × Outcome) : Prop :=
  r = (s, .done) ∨ s.sendInProgress = false ∧ ∃ g' pk packet kind, r.2 = .write packet kind ∧
    Emits g g' s r.1 pk packet kind

/-- A session that may write. -/
structure Ready (g : Counters) (s : Session) : Prop where
  counts : Counts g s
  active : s.active = true
  fragmentSize : minimumATTMTU ≤ s.fragmentSize
  queue : s.sendInProgress = false → QueueOk s.queue false

/-! ## A segment -/

def segmentPacket (m : Outgoing) (k : Nat) (ackNumber : Option Byte) (sequenceNumber : Byte) : Packet where
  header := { hasAckNumber := ackNumber.isSome, isBeginningSegment := decide (m.off = 0)
              isContinuingSegment := !decide (m.off = 0), isEndingSegment := decide (m.off + k = m.data.length) }
  payload := { ackNumber, sequenceNumber, segmentPayload := (m.data.drop m.off).take k
               messageLength := if m.off = 0 then some (BitVec.ofNat 16 m.data.length) else none }

variable {m : Outgoing} {k : Nat}

/-- The bytes of a packet in front of a segment of `m`. -/
def headerLength (m : Outgoing) (ackNumber : Option Byte) : Nat :=
  2 + (if ackNumber.isSome then 1 else 0) + (if m.off = 0 then 2 else 0)

/-- The next segment takes at least a byte, and fills the packet at most; there is none
where the packet has no room for it. -/
theorem segmentOf_cases (F : Nat) (ack : Option Byte) (seq : Byte) (hlt : m.off < m.data.length) :
    (F ≤ headerLength m ack ∧ Session.segmentOf F m ack seq = none) ∨
      ∃ k, 0 < k ∧ m.off + k ≤ m.data.length ∧ headerLength m ack + k ≤ F ∧
        Session.segmentOf F m ack seq = some (segmentPacket m k ack seq, k) := by
  have hbegin : (m.data.length - m.off == m.data.length) = decide (m.off = 0) := by
    rw [Bool.eq_iff_iff, beq_iff_eq, decide_eq_true_iff]
    omega
  unfold Session.segmentOf
  dsimp only
  rw [hbegin]
  simp only [decide_eq_true_iff]
  have hhdr : 2 + (if m.off = 0 then 2 else 0) + (if ack.isSome then 1 else 0) = headerLength m ack := by
    unfold headerLength
    omega
  rw [hhdr]
  generalize headerLength m ack = headerLen
  by_cases hroom : F - headerLen = 0
  · rw [if_pos hroom]
    exact .inl ⟨by omega, rfl⟩
  have hend : decide (m.data.length - m.off ≤ F - headerLen) =
      decide (m.off + min (F - headerLen) (m.data.length - m.off) = m.data.length) := by
    rw [decide_eq_decide]
    omega
  have hlen : (if m.off = 0 then some (BitVec.ofNat 16 (m.data.length - m.off)) else none) =
      if m.off = 0 then some (BitVec.ofNat 16 m.data.length) else none := by
    split <;> rename_i h
    · rw [h, Nat.sub_zero]
    · rfl
  refine .inr ⟨min (F - headerLen) (m.data.length - m.off), by omega, by omega, by omega, ?_⟩
  rw [if_neg hroom, hend, hlen]
  rfl

theorem encodePacket_segmentPacket (ack : Option Byte) (seq : Byte) (hk : 0 < k) (hle : m.off + k ≤ m.data.length) :
    ∃ packet, encodePacket (segmentPacket m k ack seq) = .ok packet := by
  have hne : (((m.data.drop m.off).take k).length == 0) = false := by
    rw [beq_eq_false_iff_ne, length_take_drop hle]
    omega
  have hnone : encodeError (segmentPacket m k ack seq).header
      (segmentPacket m k ack seq).payload = none := by
    unfold encodeError segmentPacket
    generalize (m.data.drop m.off).take k = bytes at hne
    by_cases h0 : m.off = 0 <;> cases ack <;> simp [hne]
  unfold encodePacket
  rw [hnone]
  exact ⟨_, rfl⟩

theorem length_encode_segmentPacket {ack : Option Byte} {seq : Byte} {packet : List Byte}
    (hle : m.off + k ≤ m.data.length) (h : encodePacket (segmentPacket m k ack seq) = .ok packet) :
    packet.length = headerLength m ack + k := by
  have hlen : (segmentPacket m k ack seq).payload.segmentPayload.length = k := length_take_drop hle
  have hml : (segmentPacket m k ack seq).payload.messageLength.isSome = true ↔ m.off = 0 := by
    unfold segmentPacket
    split <;> simp [*]
  rw [length_encodePacket h, hlen]
  simp only [hml]
  rfl

/-- What a receiver has of a message of `length` bytes with its first
`bytes`. -/
def progress (base : List (List Byte)) (length : Nat) (bytes : List Byte) (ending : Bool) : Received :=
  if ending then (base ++ [bytes], .empty)
  else (base, { reassembling := true, incomingLen := length, incoming := bytes })

theorem feed_beginning {length : Nat} {l : BitVec 16} (hb : pk.header.isBeginningSegment = true)
    (hml : pk.payload.messageLength = some l) (hl : l.toNat = length)
    (hend : pk.header.isEndingSegment = true → pk.payload.segmentPayload.length = length) :
    feed (base, .empty) pk = some (progress base length pk.payload.segmentPayload pk.header.isEndingSegment) := by
  unfold feed Reassembly.add progress
  cases he : pk.header.isEndingSegment with
  | false => simp [hb, Reassembly.empty, hml, hl]
  | true => simp [hb, Reassembly.empty, hml, hl, hend he]

theorem feed_continuing {length : Nat} {incoming : List Byte} (hb : pk.header.isBeginningSegment = false)
    (hc : pk.header.isContinuingSegment = true) (hne : pk.payload.segmentPayload.length ≠ 0)
    (hle : incoming.length + pk.payload.segmentPayload.length ≤ length)
    (hend : pk.header.isEndingSegment = true → incoming.length + pk.payload.segmentPayload.length = length) :
    feed (base, { reassembling := true, incomingLen := length, incoming }) pk =
      some (progress base length (incoming ++ pk.payload.segmentPayload) pk.header.isEndingSegment) := by
  unfold feed Reassembly.add progress
  cases he : pk.header.isEndingSegment with
  | false => simp [hb, hc, hne, Nat.not_lt.mpr hle]
  | true => simp [hb, hne, hend he]

theorem emitted_progress (hk : 0 < k) (base : List (List Byte)) (rest : List Outgoing) :
    emitted base ({ m with off := m.off + k } :: rest) (decide (m.off + k = m.data.length)) =
      progress base m.data.length (m.data.take (m.off + k)) (decide (m.off + k = m.data.length)) := by
  unfold emitted progress
  dsimp only
  rw [if_neg (c := m.off + k = 0) (by omega)]
  by_cases hend : m.off + k = m.data.length
  · simp [hend]
  · simp [hend]

/-- A segment follows what the receiver has of the message. -/
theorem feed_segmentPacket (ack : Option Byte) (seq : Byte) (hm : MessageOk m) (hk : 0 < k)
    (hle : m.off + k ≤ m.data.length) (base : List (List Byte)) (rest : List Outgoing) :
    feed (emitted base (m :: rest) false) (segmentPacket m k ack seq) =
      some (emitted base ({ m with off := m.off + k } :: rest) (decide (m.off + k = m.data.length))) := by
  have hlen := length_take_drop hle
  have htake : m.data.take (m.off + k) = m.data.take m.off ++ (m.data.drop m.off).take k := List.take_add
  rw [emitted_progress hk, htake]
  by_cases h0 : m.off = 0
  · have hemitted : emitted base (m :: rest) false = (base, .empty) := by simp [emitted, h0]
    have h16 : (BitVec.ofNat 16 m.data.length).toNat = m.data.length := by
      exact Nat.mod_eq_of_lt (Nat.lt_succ_of_le hm.2)
    have hpayload : m.data.take m.off ++ (m.data.drop m.off).take k = (m.data.drop m.off).take k := by
      rw [h0, List.take_zero, List.nil_append]
    rw [hemitted, hpayload]
    refine feed_beginning (decide_eq_true h0) (if_pos h0) h16 fun he => ?_
    show ((m.data.drop m.off).take k).length = m.data.length
    rw [hlen, ← of_decide_eq_true he, h0, Nat.zero_add]
  · have hemitted : emitted base (m :: rest) false =
        (base, { reassembling := true, incomingLen := m.data.length, incoming := m.data.take m.off }) := by
      simp [emitted, h0]
    have hoff : (m.data.take m.off).length = m.off := by
      rw [List.length_take]
      omega
    rw [hemitted]
    refine feed_continuing (decide_eq_false h0) (by simp [segmentPacket, h0]) ?_ ?_ fun he => ?_
    · show ((m.data.drop m.off).take k).length ≠ 0
      omega
    · show (m.data.take m.off).length + ((m.data.drop m.off).take k).length ≤ m.data.length
      omega
    · show (m.data.take m.off).length + ((m.data.drop m.off).take k).length = m.data.length
      rw [hoff, hlen]
      exact of_decide_eq_true he

/-! ## What the calls write -/

variable {g : Counters} {s : Session}

theorem toNat_nextSequenceNumber (h : Wraps s.seq n) : (s.nextSequenceNumber.2.toNat : Int) = (n + 1) % 256 := by
  show ((BitVec.ofInt 8 (if maximumSequenceNumber < s.seq + 1 then 0 else s.seq + 1)).toNat : Int) = _
  rw [h.next, toNat_ofInt_emod]

theorem Counts.toNat_prevIncomingSeq (h : Counts g s) :
    ((BitVec.ofInt 8 s.prevIncomingSeq).toNat : Int) = g.received % 256 := by
  rw [h.received, toNat_ofInt_emod]

def ackPacket (a sequenceNumber : Byte) : Packet :=
  { header := { hasAckNumber := true }, payload := { ackNumber := some a, sequenceNumber } }

theorem encodePacket_ackPacket (a seq : Byte) : encodePacket (ackPacket a seq) = .ok [0b00001000, a, seq] := by
  simp [encodePacket, ackPacket, encodeError, headerBits]

theorem feed_ackPacket (st : Received) (a seq : Byte) : feed st (ackPacket a seq) = some st := rfl

/-- A stand-alone acknowledgement is written when one is pending, the window
has room and no call is in `Write`. -/
theorem sendStandaloneAckLocked_eq (s : Session) :
    s.sendStandaloneAckLocked =
      if s.sendInProgress = false ∧ s.active = true ∧ s.hasAck = true ∧ s.canSend true = true then
        ({ s.nextSequenceNumber.1 with sendInProgress := true, prevAckedSeq := s.prevIncomingSeq },
          .write [0b00001000, BitVec.ofInt 8 s.prevIncomingSeq, s.nextSequenceNumber.2] .ack)
      else (s, .done) := by
  unfold Session.sendStandaloneAckLocked Session.hasAck
  have hencode := encodePacket_ackPacket (BitVec.ofInt 8 s.prevIncomingSeq) s.nextSequenceNumber.2
  unfold ackPacket Session.nextSequenceNumber at hencode
  dsimp only [Session.nextSequenceNumber] at ⊢
  split_ifs <;> simp_all

theorem Ready.sendStandaloneAckLocked (h : Ready g s) : Flush g s s.sendStandaloneAckLocked := by
  rw [sendStandaloneAckLocked_eq]
  split_ifs with hw
  · obtain ⟨hidle, -, -, hcan⟩ := hw
    have hF := h.fragmentSize
    unfold minimumATTMTU at hF
    refine .inr ⟨hidle, g.emit true, ackPacket (BitVec.ofInt 8 s.prevIncomingSeq) s.nextSequenceNumber.2, _, _,
      rfl, ?_⟩
    exact
      { encoded := encodePacket_ackPacket _ _
        short := by show 3 ≤ s.fragmentSize; omega
        carries := .inr rfl
        number := toNat_nextSequenceNumber h.counts.sent
        sent := rfl, received := rfl, ackReceived := rfl
        ack := ⟨h.counts.toNat_prevIncomingSeq, h.counts.acked_le⟩
        counts := h.counts.emit (h.counts.room hcan) rfl rfl rfl rfl
        busy := rfl, active := rfl, fragmentSize := rfl, windowSize := rfl, reassembly := rfl
        queue := h.queue hidle
        data := rfl
        feeds base := feed_ackPacket _ _ _ }
  · exact .inl rfl

/-- The acknowledgement that a segment carries. -/
def pendingAck (s : Session) : Option Byte := if s.hasAck then some (BitVec.ofInt 8 s.prevIncomingSeq) else none

/-- A segment is written, and acknowledges what was pending; or the packet has no room for
one. -/
theorem sendSegment_cases (s : Session) (rest : List Outgoing) (hlt : m.off < m.data.length) :
    (s.fragmentSize ≤ headerLength m (pendingAck s) ∧
      s.sendSegment m rest =
        ({ s with sendAckTimer := if s.hasAck then false else s.sendAckTimer, sendInProgress := false },
          .fail (.flow (.noRoom s.fragmentSize)))) ∨
    ∃ k packet, 0 < k ∧ m.off + k ≤ m.data.length ∧
      encodePacket (segmentPacket m k (pendingAck s) s.nextSequenceNumber.2) = .ok packet ∧
      packet.length ≤ s.fragmentSize ∧
      s.sendSegment m rest =
        ({ s.nextSequenceNumber.1 with
            sendAckTimer := if s.hasAck then false else s.sendAckTimer
            queue := { m with off := m.off + k } :: rest
            prevAckedSeq := if s.hasAck then s.prevIncomingSeq else s.prevAckedSeq },
          .write packet (.segment (decide (m.off + k = m.data.length)))) := by
  obtain ⟨hroom, hseg⟩ | ⟨k, hk, hle, hsize, hseg⟩ :=
    segmentOf_cases s.fragmentSize (pendingAck s) s.nextSequenceNumber.2 hlt
  · refine .inl ⟨hroom, ?_⟩
    unfold Session.sendSegment
    unfold pendingAck at hseg
    cases hack : s.hasAck
    all_goals
      rw [hack] at hseg
      dsimp only [Session.nextSequenceNumber] at hseg ⊢
      simp only [Bool.false_eq_true, if_true, if_false] at hseg ⊢
      rw [hseg]
  · obtain ⟨packet, hencode⟩ := encodePacket_segmentPacket (pendingAck s) s.nextSequenceNumber.2 hk hle
    refine .inr ⟨k, packet, hk, hle, hencode, (length_encode_segmentPacket hle hencode).trans_le hsize, ?_⟩
    unfold Session.sendSegment
    unfold pendingAck at hseg hencode
    cases hack : s.hasAck
    all_goals
      rw [hack] at hseg hencode
      dsimp only [Session.nextSequenceNumber] at hseg hencode ⊢
      simp only [Bool.false_eq_true, if_true, if_false] at hseg hencode ⊢
      rw [hseg]
      dsimp only
      rw [hencode]
      rfl

/-- A packet of the minimum size has room for a segment. -/
theorem headerLength_lt {n : Nat} (h : minimumATTMTU ≤ n) (m : Outgoing) (ack : Option Byte) :
    headerLength m ack < n := by
  unfold minimumATTMTU at h
  unfold headerLength
  split <;> split <;> omega

theorem Counts.pendingAck (h : Counts g s) : Acknowledges (pendingAck s) g.acked (g.emit s.hasAck).acked := by
  unfold Btp.pendingAck
  cases s.hasAck with
  | false => rfl
  | true => exact ⟨h.toNat_prevIncomingSeq, h.acked_le⟩

theorem sendLoop_cases (s : Session) :
    s.sendLoop = { s with sendInProgress := false }.sendStandaloneAckLocked ∨
      ∃ m rest, s.queue = m :: rest ∧ s.canSend s.hasAck = true ∧ s.sendLoop = s.sendSegment m rest := by
  unfold Session.sendLoop
  split
  · exact .inl rfl
  rename_i m rest hq
  split_ifs with hcan
  · exact .inl rfl
  · exact .inr ⟨m, rest, hq, by simpa using hcan, rfl⟩

theorem Ready.sendLoop (h : Ready g { s with sendInProgress := false }) (hbusy : s.sendInProgress = true) :
    Flush g { s with sendInProgress := false } s.sendLoop := by
  obtain heq | ⟨m, rest, hq, hcan, heq⟩ := sendLoop_cases s
  · exact heq ▸ h.sendStandaloneAckLocked
  have hcounts : Counts g s := { h.counts with }
  have hF : minimumATTMTU ≤ s.fragmentSize := h.fragmentSize
  have hqueue : QueueOk (m :: rest) false := hq ▸ h.queue rfl
  obtain ⟨hlt, hm, hrest⟩ := hqueue
  obtain ⟨k, packet, hk, hle, hencode, hshort, hseg⟩ := (sendSegment_cases s rest (hlt rfl)).resolve_left fun hroom =>
    absurd hroom.1 (Nat.not_le_of_lt (headerLength_lt hF m (pendingAck s)))
  have hlen := length_take_drop hle
  rw [heq, hseg]
  refine .inr ⟨rfl, g.emit s.hasAck, segmentPacket m k (pendingAck s) s.nextSequenceNumber.2, packet, _, rfl, ?_⟩
  exact
    { encoded := hencode
      short := hshort
      carries := .inl fun h0 => absurd (hlen.symm.trans (congrArg List.length h0)) (Nat.ne_of_gt hk)
      number := toNat_nextSequenceNumber hcounts.sent
      sent := rfl, received := rfl, ackReceived := rfl
      ack := hcounts.pendingAck
      counts := hcounts.emit (hcounts.room hcan) rfl rfl rfl rfl
      busy := hbusy, active := rfl, fragmentSize := rfl, windowSize := rfl, reassembly := rfl
      queue := ⟨fun hend => Nat.lt_of_le_of_ne hle (of_decide_eq_false hend), hm, hrest⟩
      data := (congrArg (List.map Outgoing.data) hq).symm
      feeds base := by
        show feed (emitted base s.queue false) _ = _
        rw [hq]
        exact feed_segmentPacket _ _ hm hk hle base rest }

theorem Ready.processSendQueueLocked (h : Ready g s) : Flush g s s.processSendQueueLocked := by
  unfold Session.processSendQueueLocked
  split_ifs with hidle
  · exact .inl rfl
  have hidle : s.sendInProgress = false := by
    cases hp : s.sendInProgress with
    | false => rfl
    | true => simp [hp] at hidle
  have hs : { s with sendInProgress := false } = s := by rw [← hidle]
  have := Ready.sendLoop (s := { s with sendInProgress := true }) (hs.symm ▸ h) rfl
  exact hs ▸ this

theorem Ready.sendImmediateAckIfWindowLowLocked (h : Ready g s) :
    Flush g s s.sendImmediateAckIfWindowLowLocked := by
  unfold Session.sendImmediateAckIfWindowLowLocked
  split
  · exact .inl rfl
  · split
    · exact .inl rfl
    · exact h.sendStandaloneAckLocked

theorem Ready.sendAckTimeoutTriggered (h : Ready g s) : Flush g s s.sendAckTimeoutTriggered := by
  unfold Session.sendAckTimeoutTriggered
  split
  · exact .inl rfl
  · exact h.sendStandaloneAckLocked

/-- A session after a `Write` that succeeded: a message that was sent to its
end leaves the queue. -/
def afterWrite (s : Session) : Written → Session
  | .segment isEnding =>
    { s with ackReceiveTimer := true, idleTimer := s.idleTimer || s.role == Role.central
             queue := if isEnding then s.queue.tail else s.queue, sendInProgress := false }
  | .ack =>
    { s with sendAckTimer := false, ackReceiveTimer := s.ackReceiveTimer || s.active, sendInProgress := false }

/-- The session in which the loop goes on behind a segment. -/
def behind (s : Session) (isEnding : Bool) : Session :=
  { s with ackReceiveTimer := true, idleTimer := s.idleTimer || s.role == Role.central
           queue := if isEnding then s.queue.tail else s.queue }

theorem writeReturned_segment (hactive : s.active = true) (isEnding : Bool) :
    s.writeReturned (.segment isEnding) = (behind s isEnding).sendLoop := by
  have hopen : ¬(!s.active) = true := by simp [hactive]
  unfold Session.writeReturned
  dsimp only
  rw [if_neg hopen]
  cases isEnding <;> rfl

theorem Ready.writeReturned {kind : Written} (h : Ready g (afterWrite s kind)) (hactive : s.active = true)
    (hbusy : s.sendInProgress = true) : Flush g (afterWrite s kind) (s.writeReturned kind) := by
  cases kind with
  | ack => exact h.processSendQueueLocked
  | segment isEnding =>
    rw [writeReturned_segment hactive isEnding]
    exact Ready.sendLoop h hbusy

end GF.Proof.Btp
