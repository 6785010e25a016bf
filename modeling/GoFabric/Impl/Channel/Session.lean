import GoFabric.Framework.System
import GoFabric.Impl.Aesccm
import GoFabric.Impl.Message
import GoFabric.Impl.Mrp.Window

/-!
# The secure session (`secure/channel/session.go`)

`Decrypt` as one caller sees it, and, for callers that run at once, `Encrypt`
and `Close` cut into their accesses to the shared fields
(`EncryptCall.step`, `ClosePc.step`): a load of `closed`, the load and the
compare-and-swap of `NextNoRollover`'s loop, a load of the cipher.
-/

namespace GF.Impl.Channel

open GF.Impl.Aesccm (CCM)
open GF.Impl.Message (Header)
open GF.Impl.Mrp (Window)

/-- The errors of the package, with what they wrap. -/
inductive Error
  | sessionInactive
  | counterExhausted
  | sealFailed (e : Aesccm.Error)
  | unauthenticated (e : Aesccm.Error)
deriving DecidableEq

/-- `mrp.Counter`: the next value to hand out. -/
abbrev Counter := BitVec 32

structure Session where
  encCipher : Option CCM
  decCipher : Option CCM
  localNodeID : BitVec 64
  peerNodeID : BitVec 64
  out : Counter
  inWindow : Window
  closed : Bool

def buildNonce (secFlags : Byte) (counter : BitVec 32) (sourceNodeID : BitVec 64) : List Byte :=
  [secFlags] ++ leBytes 4 counter.toNat ++ leBytes 8 sourceNodeID.toNat

structure EncryptResult where
  counter : BitVec 32
  ciphertext : List Byte

/-- `Encrypt` from where it has its counter: the header stamped with it, the
cipher loaded, the plaintext sealed. -/
def Session.sealWith (s : Session) (header : Header) (secFlags : Byte) (plaintext : List Byte)
    (counter : BitVec 32) : Except Error EncryptResult :=
  match s.encCipher with
  | none => .error .sessionInactive
  | some encCipher =>
    match encCipher.seal [] (buildNonce secFlags counter s.localNodeID) plaintext header.marshal with
    | .error e => .error (.sealFailed e)
    | .ok ciphertext => .ok { counter := counter, ciphertext := ciphertext }

/-- What `Decrypt` is called with. -/
structure Frame where
  header : Header
  secFlags : Byte
  ciphertext : List Byte
deriving DecidableEq

/-- The plaintext of a frame under the session's key and peer, when it
authenticates. -/
def Frame.open (f : Frame) (decCipher : CCM) (peerNodeID : BitVec 64) : Except Aesccm.Error (List Byte) :=
  decCipher.open [] (buildNonce f.secFlags f.header.messageCounter peerNodeID) f.ciphertext f.header.aad

/-- `Decrypt`: the plaintext and whether the frame is a duplicate. -/
def Session.decrypt (s : Session) (f : Frame) : Except Error (List Byte × Bool) × Session :=
  if s.closed then (.error .sessionInactive, s)
  else
    match s.decCipher with
    | none => (.error .sessionInactive, s)
    | some decCipher =>
      match f.open decCipher s.peerNodeID with
      | .error e => (.error (.unauthenticated e), s)
      | .ok plain =>
        let (fresh, w) := s.inWindow.accept f.header.messageCounter
        (.ok (plain, !fresh), { s with inWindow := w })

/-- A session as a receiver: frames in, results out. -/
def receiver : Machine Session Frame (Except Error (List Byte × Bool)) where
  step := Session.decrypt

/-! ## Concurrent calls -/

/-- Where a call of `Encrypt` stands. -/
inductive EncryptPc
  | start
  | load
  | cas (cur : BitVec 32)
  | sealing (counter : BitVec 32)
  | returned (r : Except Error EncryptResult)

/-- A call of `Encrypt`: its arguments, its local `counter` once it has one,
where it stands. -/
structure EncryptCall where
  header : Header
  secFlags : Byte
  plaintext : List Byte
  counter : Option (BitVec 32)
  pc : EncryptPc

/-- The next access of a call to the session. -/
def EncryptCall.step (s : Session) (t : EncryptCall) : Session × EncryptCall :=
  match t.pc with
  | .start =>
    if s.closed then (s, { t with pc := .returned (.error .sessionInactive) })
    else (s, { t with pc := .load })
  | .load =>
    if s.out = 0xFFFFFFFF#32 then (s, { t with pc := .returned (.error .counterExhausted) })
    else (s, { t with pc := .cas s.out })
  | .cas cur =>
    if s.out = cur then
      ({ s with out := cur + 1 },
        { t with counter := some cur, header := { t.header with messageCounter := cur }, pc := .sealing cur })
    else (s, { t with pc := .load })
  | .sealing counter => (s, { t with pc := .returned (s.sealWith t.header t.secFlags t.plaintext counter) })
  | .returned _ => (s, t)

/-- Where a call of `Close` stands. -/
inductive ClosePc
  | start
  | encCipher
  | decCipher
  | returned

/-- The next store of a call of `Close`. -/
def ClosePc.step (s : Session) : ClosePc → Session × ClosePc
  | .start => ({ s with closed := true }, .encCipher)
  | .encCipher => ({ s with encCipher := none }, .decCipher)
  | .decCipher => ({ s with decCipher := none }, .returned)
  | .returned => (s, .returned)

inductive Call
  | encrypt (t : EncryptCall)
  | close (pc : ClosePc)

/-- A session and the calls made on it so far. -/
structure Calls where
  session : Session
  calls : List Call

inductive Event
  | encrypt (header : Header) (secFlags : Byte) (plaintext : List Byte)
  | close
  | step (i : Nat)
deriving DecidableEq

/-- A call is made, or one of the calls takes its next step. -/
def Calls.step (st : Calls) : Event → Option Calls
  | .encrypt header secFlags plaintext =>
    let t : EncryptCall :=
      { header := header, secFlags := secFlags, plaintext := plaintext, counter := none, pc := .start }
    some { st with calls := st.calls ++ [.encrypt t] }
  | .close => some { st with calls := st.calls ++ [.close .start] }
  | .step i =>
    match st.calls[i]? with
    | none => none
    | some (.encrypt t) =>
      some { session := (t.step st.session).1, calls := st.calls.set i (.encrypt (t.step st.session).2) }
    | some (.close pc) =>
      some { session := (pc.step st.session).1, calls := st.calls.set i (.close (pc.step st.session).2) }

/-- Every interleaving of calls on one session. -/
def callSystem : System Calls Event where
  step := Calls.step

end GF.Impl.Channel
