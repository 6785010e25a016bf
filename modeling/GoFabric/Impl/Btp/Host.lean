import GoFabric.Impl.Btp.Link

/-!
# A session and any peer

One session with all the calls on it (`Send`, `HandleIncoming`, `Close`, the timers), any
of which may be inside a callback or about to close the session while others run. The
packets that come in are any bytes. `HandleIncoming` is not called while a call of it that
failed has not closed the session yet.

Beside the session stands what has happened so far: the packets that it took, the messages
that it delivered, the packets that it wrote, and the number of the last packet that was
acknowledged to it.
-/

namespace GF.Impl.Btp

namespace Session

/-- `messagesToReplayOnStallLocked`: there is something to replay. -/
def replaysOnStall (s : Session) (onStall : Bool) : Bool :=
  s.pendingLive && s.pendingFirstAck.length != 0 && onStall && s.role == .central &&
    decide (minimumATTMTU < s.fragmentSize)

/-- What `ackTimeoutTriggered` comes to. -/
inductive Timeout
  | nothing
  | stall
  | close

/-- `ackTimeoutTriggered`, up to the report of the stall or to `Close`. -/
def ackTimeoutTriggered (s : Session) (onStall : Bool) : Session × Timeout :=
  if !s.active || s.prevIncomingAck == s.seq then (s, .nothing)
  else if s.replaysOnStall onStall then
    ({ s.stopTimersLocked with pendingFirstAck := [], pendingLive := false, active := false }, .stall)
  else (s, .close)

end Session

/-- A session, the calls in progress on it, and what has happened. -/
structure Host where
  session : Session
  /-- The call in `Write`. -/
  writer : Option (Written × Caller)
  /-- The calls of `HandleIncoming` in `Message`. -/
  inMessage : Nat
  /-- The calls of `HandleIncoming` that failed and have not closed the session yet. -/
  failed : Nat
  /-- A stand-alone acknowledgement whose `Write` failed, before its `Close`. -/
  failedAck : Bool
  /-- Timers that ran out, before their `Close`. -/
  closers : Nat
  /-- Timers that ran out, before their functions run. -/
  sendAckFired : Nat
  ackReceiveFired : Nat
  onStall : Bool
  accepted : List Packet
  delivered : List (List Byte)
  written : List (List Byte)
  acked : Int

/-- A new session. -/
def Host.new (s : Session) : Host :=
  { session := s, writer := none, inMessage := 0, failed := 0, failedAck := false, closers := 0, sendAckFired := 0
    ackReceiveFired := 0, onStall := false, accepted := [], delivered := [], written := [], acked := -1 }

namespace Host

variable (h : Host)

/-- The number of the last packet that the session wrote; the peripheral's response to the
handshake was packet 0. -/
def sent : Int :=
  h.written.length - match h.session.role with
    | .central => 1
    | .peripheral => 0

/-- What the release of the lock leaves behind. -/
def release (caller : Caller) : Session × Outcome → Host
  | (s, .done) => { h with session := s }
  | (s, .fail _) =>
    match caller with
    | .incoming _ => { h with session := s, failed := h.failed + 1 }
    | _ => { h with session := s }
  | (s, .write packet kind) => { h with session := s, writer := some (kind, caller), written := h.written ++ [packet] }
  | (s, .message msg) => { h with session := s, inMessage := h.inMessage + 1, delivered := h.delivered ++ [msg] }

/-- The rest of a call after a part of it. -/
def settle (caller : Caller) (r : Session × Outcome) : Host :=
  match caller, r with
  | .incoming true, (s, .done) => h.release (.incoming false) s.sendImmediateAckIfWindowLowLocked
  | caller, r => h.release caller r

/-- The number of the packet that an acknowledgement names: the first from the last one
acknowledged on. -/
def ackPosition (acked : Int) (a : Byte) : Int := acked + (a.toNat - acked) % 256

/-- What the bytes add to the history. -/
def record (reads : Option Byte × Option Packet) : Host :=
  { h with
    acked := match reads.1 with
      | some a => ackPosition h.acked a
      | none => h.acked
    accepted := h.accepted ++ reads.2.toList }

/-- What follows a `Write` that failed, up to `Close`. -/
def writeFailed : Written → Host
  | .segment _ => { h with session := { h.session with queue := [], sendInProgress := false } }
  | .ack =>
    if h.session.active then { h with failedAck := true }
    else { h with session := { h.session with sendInProgress := false } }

end Host

/-- What can happen to a session. -/
inductive HostEvent
  | send (msg : List Byte)
  | incoming (data : List Byte)
  | messageReturned
  | messageFailed
  | writeReturned
  | writeFailed
  | incomingCloses
  | ackCloses
  | timerCloses
  | close
  | onStall
  | sendAckTimerExpired
  | sendAckTimeoutTriggered
  | ackReceiveTimerExpired
  | ackTimeoutTriggered
  | idleTimerExpired

/-- One event. `close` is a call of `Close` or `Suspend`. -/
def Host.step (h : Host) : HostEvent → Option Host
  | .send msg => some (h.settle .send (h.session.send msg))
  | .incoming data =>
    if h.failed ≠ 0 then none
    else if !h.session.active then some h
    else some ((h.record (h.session.reads data)).settle (.incoming true) (h.session.handleIncomingLocked data))
  | .messageReturned =>
    if 0 < h.inMessage then
      some ({ h with inMessage := h.inMessage - 1 }.settle (.incoming true) h.session.processSendQueueLocked)
    else none
  | .messageFailed =>
    if 0 < h.inMessage then some { h with inMessage := h.inMessage - 1, failed := h.failed + 1 } else none
  | .writeReturned =>
    match h.writer with
    | some (kind, caller) => some ({ h with writer := none }.settle caller (h.session.writeReturned kind))
    | none => none
  | .writeFailed =>
    match h.writer with
    | some (kind, _) => some ({ h with writer := none }.writeFailed kind)
    | none => none
  | .incomingCloses =>
    if 0 < h.failed then some { h with session := h.session.close, failed := h.failed - 1 } else none
  | .ackCloses =>
    if h.failedAck then
      some { h with session := { h.session.close with sendInProgress := false }, failedAck := false }
    else none
  | .timerCloses =>
    if 0 < h.closers then some { h with session := h.session.close, closers := h.closers - 1 } else none
  | .close => some { h with session := h.session.close }
  | .onStall => some { h with onStall := true }
  | .sendAckTimerExpired =>
    if h.session.sendAckTimer then
      some { h with session := { h.session with sendAckTimer := false }, sendAckFired := h.sendAckFired + 1 }
    else none
  | .sendAckTimeoutTriggered =>
    if 0 < h.sendAckFired then
      some ({ h with sendAckFired := h.sendAckFired - 1 }.settle .timer h.session.sendAckTimeoutTriggered)
    else none
  | .ackReceiveTimerExpired =>
    if h.session.ackReceiveTimer then
      some { h with session := { h.session with ackReceiveTimer := false }, ackReceiveFired := h.ackReceiveFired + 1 }
    else none
  | .ackTimeoutTriggered =>
    if 0 < h.ackReceiveFired then
      match h.session.ackTimeoutTriggered h.onStall with
      | (s, .close) =>
        some { h with session := s, ackReceiveFired := h.ackReceiveFired - 1, closers := h.closers + 1 }
      | (s, _) => some { h with session := s, ackReceiveFired := h.ackReceiveFired - 1 }
    else none
  | .idleTimerExpired =>
    if h.session.idleTimer then
      some { h with session := { h.session with idleTimer := false }, closers := h.closers + 1 }
    else none

/-- A session, one event at a time. -/
def hostSystem : System Host HostEvent where
  step := Host.step

end GF.Impl.Btp
