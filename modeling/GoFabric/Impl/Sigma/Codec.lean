import GoFabric.Impl.Im.Unmarshal

/-!
# The messages of CASE (`secure/sigma/sigma.go`, `secure/sigma/initiator.go`, `secure/sigma/tlv.go`,
`secure/sessionparams`)

A Go array `[n]byte` is a `Vector Byte n`, a byte slice a list and a nil slice the empty
one. The decoders call nothing of a `tlv.Decoder` but `Next` and are parsers of the elements
that it returns; each message is an anonymous structure of context-tagged fields, read by a
loop that goes on over fields it does not know.
-/

namespace GF.Impl.Sigma

open GF.Impl.Tlv
open GF.Impl.Im.Wire (elements containers putIf)

variable (tag : BitVec 8)

/-! ## Errors -/

inductive CodecError
  | next
  | notStruct
  | tagKind (kind : TagKind)
  | randomLength (bytes : Nat)
  | destinationIDLength (bytes : Nat)
  | ephPubLength (bytes : Nat)
  | resumptionIDLength (bytes : Nat)
  | resumeMICLength (bytes : Nat)
  | missingEphPub
  | missingMandatory (hasRandom hasSessionID hasDestination : Bool)
  | resumptionTags (resumptionID initiatorResumeMIC : Nat)
  | sigma2Mask (seen : BitVec 4)
  | sigma2ResumeMask (seen : BitVec 3)
  | missingEncrypted3

abbrev Decode (α : Type) := Parser Element CodecError α

/-! ## The encoder and the decoder -/

/-- An anonymous structure with the fields that `fields` writes: `startStruct`, the fields,
`endContainer` and `bytes`, which panics only where containers are left open. -/
def structBytes (fields : Encoder → Option Encoder) : List Byte :=
  ((Encoder.new.startStruct anonymousTag >>= fun e =>
    fields e >>= fun e => pure e.endContainer.2).map Encoder.buf).getD []

def putOctets (tag : BitVec 8) (b : List Byte) (e : Encoder) : Option Encoder := e.putOctets (contextTag tag) b

def putUint (tag : BitVec 8) (v : BitVec 64) (e : Encoder) : Option Encoder := e.putUint (contextTag tag) v

def putUint16 (tag : BitVec 8) (v : BitVec 16) (e : Encoder) : Option Encoder := e.putUint16 (contextTag tag) v

def putUint32 (tag : BitVec 8) (v : BitVec 32) (e : Encoder) : Option Encoder := e.putUint32 (contextTag tag) v

/-- The loop over the fields of a structure that is open: `next` refuses a field without a
context tag. -/
def fields {σ α : Type} (member : BitVec 8 → Element → σ → Decode σ) (finish : σ → Except CodecError α) :
    Loop Element CodecError σ α where
  eof := .next
  closes := (·.isEndContainer)
  finish := finish
  member el s :=
    if el.tag.kind ≠ .context then Parser.fail (.tagKind el.tag.kind) else member (el.tag.number.setWidth 8) el s

/-- A field that is not known: `skipContainer` drains a container. -/
def skip {α : Type} (el : Element) (s : α) : Decode α :=
  if el.isContainer then do
    containers.skip .next
    pure s
  else pure s

/-- `openStruct`, and the loop over the fields from `s`. -/
def structOf {σ α : Type} (l : Loop Element CodecError σ α) (s : σ) : Decode α := do
  let el ← Parser.next .next
  if !el.isContainer then Parser.fail .notStruct else l.parser s

/-- A decoder on a buffer; what stands behind the structure is not looked at. -/
def decode {α : Type} (p : Decode α) (b : List Byte) : Except CodecError α := (p.run (elements b).1).map (·.1)

/-- An octet string of `n` bytes. -/
def octetsOf (n : Nat) (el : Element) (e : Nat → CodecError) : Except CodecError (Vector Byte n) :=
  if h : el.octets.length = n then .ok ⟨el.octets.toArray, by simpa using h⟩ else .error (e el.octets.length)

/-- A field set from such a string. -/
def setOctets {σ : Type} (n : Nat) (el : Element) (e : Nat → CodecError) (f : Vector Byte n → σ) : Decode σ :=
  Parser.ofExcept ((octetsOf n el e).map f)

/-! ## SessionParameters -/

/-- `sessionparams.Parameters`; a field that is zero is not stated. -/
structure SessionParameters where
  sessionIdleInterval : BitVec 32 := 0
  sessionActiveInterval : BitVec 32 := 0
  sessionActiveThreshold : BitVec 16 := 0
  dataModelRevision : BitVec 16 := 0
  interactionModelRevision : BitVec 16 := 0
  specificationVersion : BitVec 32 := 0
  maxPathsPerInvoke : BitVec 16 := 0
  supportedTransports : BitVec 16 := 0
  maxTCPMessageSize : BitVec 32 := 0
deriving DecidableEq

namespace SessionParameters

def isEmpty (p : SessionParameters) : Bool := p = {}

/-- `SupportsTCP`: `TransportTCPClient` or `TransportTCPServer`. -/
def supportsTCP (p : SessionParameters) : Bool := p.supportedTransports &&& 0b110 ≠ 0

def encode (p : SessionParameters) (outer : BitVec 8) (e : Encoder) : Option Encoder := do
  let e ← e.startStruct (contextTag outer)
  let e ← putIf (p.sessionIdleInterval != 0) (putUint32 1 p.sessionIdleInterval) e
  let e ← putIf (p.sessionActiveInterval != 0) (putUint32 2 p.sessionActiveInterval) e
  let e ← putIf (p.sessionActiveThreshold != 0) (putUint16 3 p.sessionActiveThreshold) e
  let e ← putIf (p.dataModelRevision != 0) (putUint16 4 p.dataModelRevision) e
  let e ← putIf (p.interactionModelRevision != 0) (putUint16 5 p.interactionModelRevision) e
  let e ← putIf (p.specificationVersion != 0) (putUint32 6 p.specificationVersion) e
  let e ← putIf (p.maxPathsPerInvoke != 0) (putUint16 7 p.maxPathsPerInvoke) e
  let e ← putIf (p.supportedTransports != 0) (putUint16 8 p.supportedTransports) e
  let e ← putIf (p.maxTCPMessageSize != 0 && p.supportsTCP) (putUint32 9 p.maxTCPMessageSize) e
  pure e.endContainer.2

/-- One field of `parseSessionParameters`. -/
def field (el : Element) (p : SessionParameters) : Decode SessionParameters :=
  if el.isContainer then skip el p
  else
    pure (match tag.toNat with
      | 1 => { p with sessionIdleInterval := el.uint.setWidth 32 }
      | 2 => { p with sessionActiveInterval := el.uint.setWidth 32 }
      | 3 => { p with sessionActiveThreshold := el.uint.setWidth 16 }
      | 4 => { p with dataModelRevision := el.uint.setWidth 16 }
      | 5 => { p with interactionModelRevision := el.uint.setWidth 16 }
      | 6 => { p with specificationVersion := el.uint.setWidth 32 }
      | 7 => { p with maxPathsPerInvoke := el.uint.setWidth 16 }
      | 8 => { p with supportedTransports := el.uint.setWidth 16 }
      | 9 => { p with maxTCPMessageSize := el.uint.setWidth 32 }
      | _ => p)

/-- `parseSessionParameters`. -/
def loop : Loop Element CodecError SessionParameters SessionParameters := fields field .ok

end SessionParameters

/-- A field with session parameters, which are read when it is a container. -/
def paramsField {σ : Type} (el : Element) (s : σ) (f : SessionParameters → σ) : Decode σ :=
  if el.isContainer then do
    let p ← SessionParameters.loop.parser {}
    pure (f p)
  else pure s

/-- Session parameters that are set. -/
def putSet (p : Option SessionParameters) (e : Encoder) : Option Encoder :=
  match p with
  | some p => p.encode tag e
  | none => some e

/-- Session parameters that are set and not empty. -/
def putParams (p : Option SessionParameters) (e : Encoder) : Option Encoder :=
  match p with
  | some p => if p.isEmpty then some e else p.encode tag e
  | none => some e

/-! ## Sigma1 -/

structure Sigma1 where
  initiatorRandom : Vector Byte 32
  initiatorSessionID : BitVec 16
  destinationID : Vector Byte 32
  initiatorEphPubKey : List Byte
  resumptionID : List Byte := []
  initiatorResumeMIC : List Byte := []
  initiatorSessionParams : Option SessionParameters := none

def Sigma1.marshal (s : Sigma1) : List Byte :=
  structBytes fun e => do
    let e ← putOctets 1 s.initiatorRandom.toList e
    let e ← putUint 2 (s.initiatorSessionID.setWidth 64) e
    let e ← putOctets 3 s.destinationID.toList e
    let e ← putOctets 4 s.initiatorEphPubKey e
    let e ← putSet 5 s.initiatorSessionParams e
    let e ← putIf (!s.resumptionID.isEmpty) (putOctets 6 s.resumptionID) e
    putIf (!s.initiatorResumeMIC.isEmpty) (putOctets 7 s.initiatorResumeMIC) e

/-- What `UnmarshalSigma1` has seen. -/
structure Sigma1Seen where
  msg : Sigma1 :=
    { initiatorRandom := Vector.replicate 32 0, initiatorSessionID := 0, destinationID := Vector.replicate 32 0
      initiatorEphPubKey := [] }
  hasRandom : Bool := false
  hasSessionID : Bool := false
  hasDestination : Bool := false

/-- One field of `UnmarshalSigma1`. -/
def Sigma1Seen.field (el : Element) (s : Sigma1Seen) : Decode Sigma1Seen :=
  match tag.toNat with
  | 1 => setOctets 32 el .randomLength fun v =>
      { s with msg := { s.msg with initiatorRandom := v }, hasRandom := true }
  | 2 => pure { s with msg := { s.msg with initiatorSessionID := el.uint.setWidth 16 }, hasSessionID := true }
  | 3 => setOctets 32 el .destinationIDLength fun v =>
      { s with msg := { s.msg with destinationID := v }, hasDestination := true }
  | 4 => setOctets 65 el .ephPubLength fun v => { s with msg := { s.msg with initiatorEphPubKey := v.toList } }
  | 5 => paramsField el s fun p => { s with msg := { s.msg with initiatorSessionParams := some p } }
  | 6 => setOctets 16 el .resumptionIDLength fun v => { s with msg := { s.msg with resumptionID := v.toList } }
  | 7 => setOctets 16 el .resumeMICLength fun v => { s with msg := { s.msg with initiatorResumeMIC := v.toList } }
  | _ => skip el s

/-- What `UnmarshalSigma1` checks at the end of the structure. -/
def Sigma1Seen.finish (s : Sigma1Seen) : Except CodecError Sigma1 :=
  if s.msg.initiatorEphPubKey.isEmpty then .error .missingEphPub
  else if !s.hasRandom || !s.hasSessionID || !s.hasDestination then
    .error (.missingMandatory s.hasRandom s.hasSessionID s.hasDestination)
  else if s.msg.resumptionID.isEmpty != s.msg.initiatorResumeMIC.isEmpty then
    .error (.resumptionTags s.msg.resumptionID.length s.msg.initiatorResumeMIC.length)
  else .ok s.msg

def unmarshalSigma1 (b : List Byte) : Except CodecError Sigma1 :=
  decode (structOf (fields Sigma1Seen.field Sigma1Seen.finish) {}) b

/-! ## Sigma2 -/

structure Sigma2 where
  responderRandom : Vector Byte 32
  responderSessionID : BitVec 16
  responderEphPubKey : List Byte
  encrypted2 : List Byte
  sessionParams : Option SessionParameters := none

def Sigma2.marshal (s : Sigma2) : List Byte :=
  structBytes fun e => do
    let e ← putOctets 1 s.responderRandom.toList e
    let e ← putUint16 2 s.responderSessionID e
    let e ← putOctets 3 s.responderEphPubKey e
    let e ← putOctets 4 s.encrypted2 e
    putParams 5 s.sessionParams e

/-- What `UnmarshalSigma2` has seen, with a bit for each field that must be there. -/
structure Sigma2Seen where
  msg : Sigma2 :=
    { responderRandom := Vector.replicate 32 0, responderSessionID := 0, responderEphPubKey := [], encrypted2 := [] }
  seen : BitVec 4 := 0

/-- One field of `UnmarshalSigma2`. -/
def Sigma2Seen.field (el : Element) (s : Sigma2Seen) : Decode Sigma2Seen :=
  match tag.toNat with
  | 1 => setOctets 32 el .randomLength fun v =>
      { msg := { s.msg with responderRandom := v }, seen := s.seen ||| 1 }
  | 2 => pure { msg := { s.msg with responderSessionID := el.uint.setWidth 16 }, seen := s.seen ||| 2 }
  | 3 => setOctets 65 el .ephPubLength fun v =>
      { msg := { s.msg with responderEphPubKey := v.toList }, seen := s.seen ||| 4 }
  | 4 => pure { msg := { s.msg with encrypted2 := el.octets }, seen := s.seen ||| 8 }
  | 5 => paramsField el s fun p => { s with msg := { s.msg with sessionParams := some p } }
  | _ => skip el s

def unmarshalSigma2 (b : List Byte) : Except CodecError Sigma2 :=
  decode (structOf (fields Sigma2Seen.field fun s =>
    if s.seen ≠ 15 then .error (.sigma2Mask s.seen) else .ok s.msg) {}) b

structure TBE2Plaintext where
  responderNOC : List Byte := []
  responderICAC : List Byte := []
  signature : List Byte := []
  resumptionID : List Byte := []

def marshalTBE2 (p : TBE2Plaintext) : List Byte :=
  structBytes fun e => do
    let e ← putOctets 1 p.responderNOC e
    let e ← putIf (!p.responderICAC.isEmpty) (putOctets 2 p.responderICAC) e
    let e ← putOctets 3 p.signature e
    putOctets 4 p.resumptionID e

/-- One field of `unmarshalTBE2`. -/
def TBE2Plaintext.field (el : Element) (p : TBE2Plaintext) : Decode TBE2Plaintext :=
  match tag.toNat with
  | 1 => pure { p with responderNOC := el.octets }
  | 2 => pure { p with responderICAC := el.octets }
  | 3 => pure { p with signature := el.octets }
  | 4 => pure { p with resumptionID := el.octets }
  | _ => skip el p

def unmarshalTBE2 (b : List Byte) : Except CodecError TBE2Plaintext :=
  decode (structOf (fields TBE2Plaintext.field .ok) {}) b

/-! ## Sigma3 -/

structure Sigma3 where
  encrypted3 : List Byte := []

def Sigma3.marshal (s : Sigma3) : List Byte := structBytes (putOctets 1 s.encrypted3)

/-- One field of `UnmarshalSigma3`. -/
def Sigma3.field (el : Element) (s : Sigma3) : Decode Sigma3 :=
  match tag.toNat with
  | 1 => pure { encrypted3 := el.octets }
  | _ => skip el s

def unmarshalSigma3 (b : List Byte) : Except CodecError Sigma3 :=
  decode (structOf (fields Sigma3.field fun s =>
    if s.encrypted3.isEmpty then .error .missingEncrypted3 else .ok s) {}) b

structure TBE3Plaintext where
  initiatorNOC : List Byte := []
  initiatorICAC : List Byte := []
  signature : List Byte := []

def marshalTBE3 (p : TBE3Plaintext) : List Byte :=
  structBytes fun e => do
    let e ← putOctets 1 p.initiatorNOC e
    let e ← putIf (!p.initiatorICAC.isEmpty) (putOctets 2 p.initiatorICAC) e
    putOctets 3 p.signature e

/-- One field of `unmarshalTBE3`. -/
def TBE3Plaintext.field (el : Element) (p : TBE3Plaintext) : Decode TBE3Plaintext :=
  match tag.toNat with
  | 1 => pure { p with initiatorNOC := el.octets }
  | 2 => pure { p with initiatorICAC := el.octets }
  | 3 => pure { p with signature := el.octets }
  | _ => skip el p

def unmarshalTBE3 (b : List Byte) : Except CodecError TBE3Plaintext :=
  decode (structOf (fields TBE3Plaintext.field .ok) {}) b

/-! ## Sigma2_Resume -/

structure Sigma2Resume where
  resumptionID : List Byte
  sigma2ResumeMIC : List Byte
  responderSessionID : BitVec 16
  sessionParams : Option SessionParameters := none

def marshalSigma2Resume (s : Sigma2Resume) : List Byte :=
  structBytes fun e => do
    let e ← putOctets 1 s.resumptionID e
    let e ← putOctets 2 s.sigma2ResumeMIC e
    let e ← putUint16 3 s.responderSessionID e
    putParams 4 s.sessionParams e

/-- What `UnmarshalSigma2Resume` has seen. -/
structure Sigma2ResumeSeen where
  msg : Sigma2Resume := { resumptionID := [], sigma2ResumeMIC := [], responderSessionID := 0 }
  seen : BitVec 3 := 0

/-- One field of `UnmarshalSigma2Resume`. -/
def Sigma2ResumeSeen.field (el : Element) (s : Sigma2ResumeSeen) : Decode Sigma2ResumeSeen :=
  match tag.toNat with
  | 1 => setOctets 16 el .resumptionIDLength fun v =>
      { msg := { s.msg with resumptionID := v.toList }, seen := s.seen ||| 1 }
  | 2 => setOctets 16 el .resumeMICLength fun v =>
      { msg := { s.msg with sigma2ResumeMIC := v.toList }, seen := s.seen ||| 2 }
  | 3 => pure { msg := { s.msg with responderSessionID := el.uint.setWidth 16 }, seen := s.seen ||| 4 }
  | 4 => paramsField el s fun p => { s with msg := { s.msg with sessionParams := some p } }
  | _ => skip el s

def unmarshalSigma2Resume (b : List Byte) : Except CodecError Sigma2Resume :=
  decode (structOf (fields Sigma2ResumeSeen.field fun s =>
    if s.seen ≠ 7 then .error (.sigma2ResumeMask s.seen) else .ok s.msg) {}) b

/-! ## Signed data -/

def signedDataBytes (noc icac selfEph peerEph : List Byte) : List Byte :=
  structBytes fun e => do
    let e ← putOctets 1 noc e
    let e ← putIf (!icac.isEmpty) (putOctets 2 icac) e
    let e ← putOctets 3 selfEph e
    putOctets 4 peerEph e

end GF.Impl.Sigma
