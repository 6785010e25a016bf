import GoFabric.Framework.System
import GoFabric.Impl.Btp.Session

/-!
# Two connected sessions

Each side runs the calls of its session: `Send`, `HandleIncoming` and the
send-ack timer, any of which may be inside a callback while others run. The
packets handed to `Write` travel through a queue in each direction.
-/

namespace GF.Impl.Btp

/-- Who called `Write`: `HandleIncoming` goes on with
`sendImmediateAckIfWindowLowLocked`, once. -/
inductive Caller
  | send
  | incoming (thenAck : Bool)
  | timer
deriving DecidableEq

/-- A call inside `Write`: the packet, until the channel has it. -/
structure Writer where
  packet : Option (List Byte)
  kind : Written
  caller : Caller
deriving DecidableEq

/-- A session and the calls in progress on it: the one in `Write`, a
`HandleIncoming` in `Message`, and timers that fired; with the messages passed
to `Send` and to `Message`, and the errors of its calls. -/
structure Side where
  session : Session
  writer : Option Writer
  inMessage : Bool
  fired : Nat
  sent : List (List Byte)
  delivered : List (List Byte)
  errors : List BtpError
deriving DecidableEq

/-- A new session. -/
def Side.new (s : Session) : Side :=
  { session := s, writer := none, inMessage := false, fired := 0, sent := [], delivered := [], errors := [] }

/-- What the release of the lock leaves behind. `HandleIncoming` closes the
session on an error. -/
def Side.release (side : Side) (caller : Caller) : Session × Outcome → Side
  | (s, .done) => { side with session := s }
  | (s, .fail e) =>
    { side with
      session := match caller with
        | .incoming _ => s.close
        | _ => s
      errors := side.errors ++ [e] }
  | (s, .write packet kind) => { side with session := s, writer := some { packet := some packet, kind, caller } }
  | (s, .message msg) => { side with session := s, inMessage := true, delivered := side.delivered ++ [msg] }

/-- The rest of a call after a part of it: `HandleIncoming` looks at its
window when `processSendQueueLocked` returned. -/
def Side.settle (side : Side) (caller : Caller) (r : Session × Outcome) : Side :=
  match caller, r with
  | .incoming true, (s, .done) => side.release (.incoming false) s.sendImmediateAckIfWindowLowLocked
  | caller, r => side.release caller r

/-- What can happen at a side. -/
inductive SideEvent
  | send (msg : List Byte)
  | receive
  | messageReturned
  | handOver
  | writeReturned
  | sendAckTimerExpired
  | sendAckTimeoutTriggered

/-- One event at a side, with the packets on their way out and in: a call of
`Send`; `HandleIncoming` of the next packet, when the one before is through
with `Message`; the return of `Message`; the channel taking the packet of a
`Write`; the return of that `Write`; the send-ack timer running out; the
call it makes. -/
def Side.step (side : Side) (out inc : List (List Byte)) :
    SideEvent → Option (Side × List (List Byte) × List (List Byte))
  | .send msg => some ({ side with sent := side.sent ++ [msg] }.settle .send (side.session.send msg), out, inc)
  | .receive =>
    match side.inMessage, inc with
    | false, data :: inc =>
      if !side.session.active then some (side, out, inc)
      else some (side.settle (.incoming true) (side.session.handleIncomingLocked data), out, inc)
    | _, _ => none
  | .messageReturned =>
    if side.inMessage then
      some ({ side with inMessage := false }.settle (.incoming true) side.session.processSendQueueLocked, out, inc)
    else none
  | .handOver =>
    match side.writer with
    | some ⟨some packet, kind, caller⟩ =>
      some ({ side with writer := some { packet := none, kind, caller } }, out ++ [packet], inc)
    | _ => none
  | .writeReturned =>
    match side.writer with
    | some ⟨none, kind, caller⟩ =>
      some ({ side with writer := none }.settle caller (side.session.writeReturned kind), out, inc)
    | _ => none
  | .sendAckTimerExpired =>
    if side.session.sendAckTimer then
      some ({ side with session := { side.session with sendAckTimer := false }, fired := side.fired + 1 }, out, inc)
    else none
  | .sendAckTimeoutTriggered =>
    if 0 < side.fired then
      some ({ side with fired := side.fired - 1 }.settle .timer side.session.sendAckTimeoutTriggered, out, inc)
    else none

/-- A central and a peripheral, and the packets between them. -/
structure Link where
  central : Side
  peripheral : Side
  toPeripheral : List (List Byte)
  toCentral : List (List Byte)
deriving DecidableEq

/-- Two new sessions. -/
def Link.new (central peripheral : Session) : Link :=
  { central := .new central, peripheral := .new peripheral, toPeripheral := [], toCentral := [] }

inductive LinkEvent
  | central (e : SideEvent)
  | peripheral (e : SideEvent)

/-- The two sides, one event at a time. -/
def linkSystem : System Link LinkEvent where
  step l
    | .central e =>
      (l.central.step l.toPeripheral l.toCentral e).map fun (side, out, inc) =>
        { l with central := side, toPeripheral := out, toCentral := inc }
    | .peripheral e =>
      (l.peripheral.step l.toCentral l.toPeripheral e).map fun (side, out, inc) =>
        { l with peripheral := side, toCentral := out, toPeripheral := inc }

end GF.Impl.Btp
