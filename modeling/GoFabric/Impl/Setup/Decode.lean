import GoFabric.Impl.Setup.Payload
import GoFabric.Impl.Tlv.Decode

/-!
# Reading onboarding codes (`secure/setup/decode.go`)
-/

namespace GF.Impl.Setup

open GF.Impl.Tlv

/-- The errors behind `ErrInvalidCode`, with what their texts report. -/
inductive DecodeError
  | codePrefix
  | payloads (count : Nat)
  | payloadBytes (count : Nat)
  | version (v : BitVec 8)
  | passcode (v : BitVec 32)
  | vendorID (v : BitVec 32)
  | productID (v : BitVec 32)
  | productMissing (vendorID : BitVec 32)
  | base38Length (length : Nat)
  | character (ch : Byte) (pos : Nat)
  | base38Group (pos bytes : Nat)
  | tlvData (e : TlvError)
  | notAStructure
  | tagKind
  | reservedTag (tag : BitVec 32)
  | trailingBytes (count : Nat)
  | pbkdfPair
  | serialNumber
  | pbkdfIterations
  | pbkdfSalt
  | numberOfDevices
  | commissioningTimeout
  | pairingCode
  | firstDigit (ch : Byte)
  | digits (e : EncodeError)
  | checksum
  | vendorProductMissing
  | vendorProductPresent
  | vendorProductWide (vendorID productID : BitVec 32)
deriving DecidableEq

structure ManualPayload where
  shortDiscriminator : BitVec 8 := 0
  passcode : BitVec 32 := 0
  vendorID : BitVec 16 := 0
  productID : BitVec 16 := 0
  hasVendorProduct : Bool := false
deriving DecidableEq

def maxVendorID : BitVec 32 := 0xFFF4

def isValidPasscode (passcode : BitVec 32) : Bool := isValidSetupPIN passcode

def assertValidPayloadIdentity (vendorID productID : BitVec 32) : Except DecodeError Unit :=
  if vendorID ≠ 0 ∧ maxVendorID < vendorID then .error (.vendorID vendorID)
  else if 0xFFFF < productID then .error (.productID productID)
  else if productID = 0 ∧ vendorID ≠ 0 then .error (.productMissing vendorID)
  else .ok ()

/-! ## Base 38 -/

/-- The loop of `group`, from the last character to the first. -/
def base38Value (off : Nat) : List Byte → Except DecodeError Nat
  | [] => .ok 0
  | ch :: rest => do
    let v ← base38Value (off + 1) rest
    match base38Alphabet.idxOf? ch with
    | none => .error (.character ch off)
    | some c => .ok (v * 38 + c)

/-- `group`, of the characters at `off`. -/
def base38DecodeGroup (off : Nat) (chars : List Byte) (bytes : Nat) : Except DecodeError (List Byte) := do
  let v ← base38Value off chars
  if 1 <<< (8 * bytes) ≤ v then .error (.base38Group off bytes) else pure (leBytes bytes v)

/-- The loop of `base38Decode` at `off`; the length of the whole leaves no rest of
one or three characters. -/
def base38Loop (off : Nat) : List Byte → Except DecodeError (List Byte)
  | a :: b :: c :: d :: e :: rest => do
    let out ← base38DecodeGroup off [a, b, c, d, e] 3
    let more ← base38Loop (off + 5) rest
    pure (out ++ more)
  | [a, b, c, d] => base38DecodeGroup off [a, b, c, d] 2
  | [a, b] => base38DecodeGroup off [a, b] 1
  | _ => .ok []

def base38Decode (s : List Byte) : Except DecodeError (List Byte) :=
  if s.length % 5 = 0 ∨ s.length % 5 = 2 ∨ s.length % 5 = 4 then base38Loop 0 s
  else .error (.base38Length s.length)

/-! ## The TLV tail -/

/-- A step of a decoder whose error is the code's. -/
def tlvStep {α : Type} (m : Reader TlvError α) : Reader DecodeError α := fun d =>
  match m d with
  | (.ok a, d) => (.ok a, d)
  | (.error e, d) => (.error (.tlvData e), d)

/-- `skipRest`, in at most `fuel` rounds, at the given depth. -/
def skipRest : Nat → Nat → Reader DecodeError Unit
  | 0, _ => Reader.fail (.tlvData .eof)
  | _ + 1, 0 => pure ()
  | fuel + 1, depth + 1 => do
    let el ← tlvStep Decoder.next
    if el.isEndContainer then skipRest fuel depth
    else if el.isContainer then skipRest fuel (depth + 2)
    else skipRest fuel (depth + 1)

def isUint (el : Element) : Bool :=
  match el.type with
  | .unsignedInt1 | .unsignedInt2 | .unsignedInt4 | .unsignedInt8 => true
  | _ => false

/-- `Extra.setDefault`, of the serial number. -/
def setSerialNumber (e : Extra) (el : Element) : Except DecodeError Extra :=
  match el.type with
  | .utf8Str1 | .utf8Str2 | .utf8Str4 | .utf8Str8 => .ok { e with serialNumber := el.string }
  | .unsignedInt1 | .unsignedInt2 | .unsignedInt4 | .unsignedInt8 =>
    .ok { e with serialNumber := sprintfDecimal 1 el.uint.toNat, serialNumberNumeric := true }
  | _ => .error .serialNumber

/-- `Extra.setDefault`, of the salt. -/
def setSalt (e : Extra) (el : Element) : Except DecodeError Extra :=
  match el.type with
  | .octetStr1 | .octetStr2 | .octetStr4 | .octetStr8 =>
    if el.octets.length < 16 ∨ 32 < el.octets.length then .error .pbkdfSalt
    else .ok { e with pbkdfSalt := some el.octets }
  | _ => .error .pbkdfSalt

def Extra.setDefault (e : Extra) (tag : BitVec 32) (el : Element) : Except DecodeError Extra :=
  match tag.toNat with
  | 0x00 => setSerialNumber e el
  | 0x01 =>
    if !isUint el || decide (el.uint < 1000) || decide (100000 < el.uint) then .error .pbkdfIterations
    else .ok { e with pbkdfIterations := el.uint.setWidth 32 }
  | 0x02 => setSalt e el
  | 0x03 =>
    if !isUint el || decide (el.uint < 1) || decide (0xFF < el.uint) then .error .numberOfDevices
    else .ok { e with numberOfDevices := el.uint.setWidth 8 }
  | 0x04 =>
    if !isUint el || decide (0xFFFF < el.uint) then .error .commissioningTimeout
    else .ok { e with commissioningTimeout := el.uint.setWidth 16, hasCommissioningTimeout := true }
  | _ => .ok e

/-- `e.Vendor[tag] = b`. -/
def Extra.setVendor (e : Extra) (tag : BitVec 8) (b : List Byte) : Extra :=
  { e with vendor := e.vendor.filter (fun p => p.1 != tag) ++ [(tag, b)] }

/-- An error, or the value, as a step of a decoder. -/
def liftExcept {α : Type} : Except DecodeError α → Reader DecodeError α
  | .ok a => pure a
  | .error e => Reader.fail e

/-- The contents of an element are skipped. -/
def skipContents (start : Decoder) (el : Element) : Reader DecodeError Unit :=
  if el.isContainer then skipRest (start.buf.length + 1) 1 else pure ()

/-- The loop of `DecodeExtra`, in at most `fuel` rounds. -/
def decodeExtraLoop : Nat → Extra → Reader DecodeError Extra
  | 0, _ => Reader.fail (.tlvData .eof)
  | fuel + 1, e => do
    let start ← Reader.cursor
    let el ← tlvStep Decoder.next
    if el.isEndContainer then pure e
    else if el.tag.kind ≠ .context then Reader.fail .tagKind
    else if 0x04 < el.tag.number ∧ el.tag.number < 0x80 then Reader.fail (.reservedTag el.tag.number)
    else do
      skipContents start el
      let stop ← Reader.cursor
      if 0x80 ≤ el.tag.number then
        decodeExtraLoop fuel
          (e.setVendor (el.tag.number.setWidth 8) ((start.buf.take stop.pos).drop start.pos))
      else do
        let e ← liftExcept (e.setDefault el.tag.number el)
        decodeExtraLoop fuel e

/-- `DecodeExtra`; a round of its loop takes at least one byte. -/
def decodeExtra (b : List Byte) : Except DecodeError Extra :=
  let (r, d) := (do
    let top ← tlvStep Decoder.next
    if top.type ≠ .struct then Reader.fail .notAStructure
    else decodeExtraLoop (b.length + 1) { raw := b } : Reader DecodeError Extra) (Decoder.new b)
  do
    let e ← r
    if Decoder.remaining d ≠ 0 then .error (.trailingBytes (Decoder.remaining d))
    else if (e.pbkdfIterations == 0) != e.pbkdfSalt.isNone then .error .pbkdfPair
    else .ok e

/-! ## QR codes -/

/-- A word of the header: byte `i` at bit `8 * i`. -/
def headerWord : Nat → List Byte → BitVec 64
  | _, [] => 0
  | i, b :: rest => b.setWidth 64 <<< (8 * i) ||| headerWord (i + 1) rest

/-- `field`: bit by bit from the two words of the header. -/
def field (bits : BitVec 64 × BitVec 64) (offset : Nat) : Nat → BitVec 64
  | 0 => 0
  | b + 1 =>
    let pos := offset + b
    let word := if pos / 64 = 0 then bits.1 else bits.2
    if word >>> (pos % 64) &&& 1 = 1 then field bits offset b ||| (1 : BitVec 64) <<< b else field bits offset b

/-- The header of `decodeQRPart`. -/
def readHeader (data : List Byte) : Payload :=
  let bits := (headerWord 0 (data.take 8), headerWord 0 ((data.drop 8).take 3))
  { version := (field bits 0 3).setWidth 8
    vendorID := (field bits 3 16).setWidth 16
    productID := (field bits 19 16).setWidth 16
    customFlow := (field bits 35 2).setWidth 8
    discoveryCaps := (field bits 37 8).setWidth 8
    discriminator := (field bits 45 12).setWidth 16
    passcode := (field bits 57 27).setWidth 32 }

/-- The tail of `decodeQRPart`: as `DecodeExtra` reads it, or its bytes alone. -/
def readTail (tail : List Byte) : Option Extra :=
  if tail = [] then none
  else
    match decodeExtra tail with
    | .ok extra => some extra
    | .error _ => some { raw := tail }

def decodeQRPart (part : List Byte) : Except DecodeError Payload := do
  let data ← base38Decode part
  if data.length < 11 then .error (.payloadBytes data.length)
  else
    let p := readHeader data
    if p.version ≠ 0 then .error (.version p.version)
    else if !isValidPasscode p.passcode then .error (.passcode p.passcode)
    else do
      assertValidPayloadIdentity (p.vendorID.setWidth 32) (p.productID.setWidth 32)
      pure { p with extra := readTail (data.drop 11) }

def decodeQRCodes (s : List Byte) : Except DecodeError (List Payload) :=
  if qrPrefix.isPrefixOf s then ((s.drop qrPrefix.length).splitOn 0x2A).mapM decodeQRPart else .error .codePrefix

def decodeQRCode (s : List Byte) : Except DecodeError Payload := do
  let ps ← decodeQRCodes s
  match ps with
  | [p] => pure p
  | _ => .error (.payloads ps.length)

/-! ## Manual codes -/

/-- `num`: the value of the digits from `a` to `b`. -/
def num (code : List Byte) (a b : Nat) : BitVec 32 :=
  BitVec.ofNat 32 (Nat.ofDigits 10 (((code.take b).drop a).reverse.map fun ch => ch.toNat - 0x30))

/-- `DecodeManualCode`, of the digits of the code. -/
def decodeDigits (code : List Byte) : Except DecodeError ManualPayload :=
  if code.length ≠ 11 ∧ code.length ≠ 21 then .error .pairingCode
  else
    let first := (code.headD 0 - 0x30).toNat
    if 8 ≤ first then .error (.firstDigit (code.headD 0))
    else
      match verhoeffCheck code.dropLast with
      | .error e => .error (.digits e)
      | .ok check =>
        if check.val ≠ (code.getLastD 0 - 0x30).toNat then .error .checksum
        else
          let hasVP := first &&& (1 <<< 2) != 0
          if hasVP != decide (code.length = 21) then
            .error (if code.length = 21 then .vendorProductMissing else .vendorProductPresent)
          else
            let passcode := (num code 1 6 &&& 0x3FFF) ||| num code 6 10 <<< 14
            let vid := if hasVP then num code 10 15 else 0
            let pid := if hasVP then num code 15 20 else 0
            if !isValidPasscode passcode then .error (.passcode passcode)
            else do
              assertValidPayloadIdentity vid pid
              if 0xFFFF < vid ∨ 0xFFFF < pid then .error (.vendorProductWide vid pid)
              else .ok {
                shortDiscriminator :=
                  BitVec.ofNat 8 ((first &&& 0x03) <<< 2) ||| ((num code 1 6 >>> 14) &&& 0x3).setWidth 8
                passcode := passcode
                vendorID := vid.setWidth 16
                productID := pid.setWidth 16
                hasVendorProduct := hasVP }

/-- The digits of a string. -/
def digitsOf (s : List Byte) : List Byte := s.filter fun ch => 0x30 ≤ ch ∧ ch ≤ 0x39

def decodeManualCode (s : List Byte) : Except DecodeError ManualPayload := decodeDigits (digitsOf s)

end GF.Impl.Setup
