import GoFabric.Framework.Bytes
import GoFabric.Framework.Digits
import Mathlib.Data.Fin.VecNotation

/-!
# Onboarding payloads (`secure/setup/setup.go`)

A Go string is its bytes. The indexes and group values of the codecs stay below
2^32, so they are natural numbers.
-/

namespace GF.Impl.Setup

/-- `Extra`: the TLV tail and what `DecodeExtra` found in it; a nil salt is
`none`, and the map of the vendor's elements is its pairs. -/
structure Extra where
  raw : List Byte := []
  serialNumber : List Byte := []
  serialNumberNumeric : Bool := false
  pbkdfIterations : BitVec 32 := 0
  pbkdfSalt : Option (List Byte) := none
  numberOfDevices : BitVec 8 := 0
  commissioningTimeout : BitVec 16 := 0
  hasCommissioningTimeout : Bool := false
  vendor : List (BitVec 8 × List Byte) := []
deriving DecidableEq

structure Payload where
  version : BitVec 8 := 0
  vendorID : BitVec 16 := 0
  productID : BitVec 16 := 0
  customFlow : BitVec 8 := 0
  discoveryCaps : BitVec 8 := 0
  discriminator : BitVec 16 := 0
  passcode : BitVec 32 := 0
  extra : Option Extra := none
deriving DecidableEq

/-- The errors of the encoders, with what their texts report. -/
inductive EncodeError
  | version (v : BitVec 8)
  | customFlow (v : BitVec 8)
  | discriminator (v : BitVec 16)
  | passcode (v : BitVec 32)
  | unsupportedVersion (v : BitVec 8)
  | tooLong (characters : Nat)
  | assembled (digits : Nat)
  | nonDecimal
deriving DecidableEq

def maxDiscriminator : BitVec 16 := 0x0FFF

variable (p : Payload)

def Payload.validate : Except EncodeError Unit :=
  if 0x07 < p.version then .error (.version p.version)
  else if 0x03 < p.customFlow then .error (.customFlow p.customFlow)
  else if maxDiscriminator < p.discriminator then .error (.discriminator p.discriminator)
  else if p.passcode = 0 ∨ 99999998 < p.passcode then .error (.passcode p.passcode)
  else .ok ()

/-! ## Passcodes -/

def trivialPINs : List (BitVec 32) :=
  [0, 11111111, 22222222, 33333333, 44444444, 55555555, 66666666, 77777777, 88888888, 99999999, 12345678, 87654321]

def isValidSetupPIN (passcode : BitVec 32) : Bool :=
  if passcode = 0 ∨ 99999998 < passcode then false else !trivialPINs.contains passcode

/-! ## QR codes -/

/-- `base38Alphabet`: the digits, the upper-case letters, `-` and `.`. -/
def base38Alphabet : List Byte :=
  [0x30, 0x31, 0x32, 0x33, 0x34, 0x35, 0x36, 0x37, 0x38, 0x39,
    0x41, 0x42, 0x43, 0x44, 0x45, 0x46, 0x47, 0x48, 0x49, 0x4A, 0x4B, 0x4C, 0x4D,
    0x4E, 0x4F, 0x50, 0x51, 0x52, 0x53, 0x54, 0x55, 0x56, 0x57, 0x58, 0x59, 0x5A, 0x2D, 0x2E]

/-- A group of `base38Encode`: the `chars` low digits of `v`. -/
def base38Group (chars v : Nat) : List Byte := (lowDigits 38 chars v).map fun d => base38Alphabet.getD d 0

def base38Encode : List Byte → List Byte
  | a :: b :: c :: rest => base38Group 5 (leNat [a, b, c]) ++ base38Encode rest
  | [a, b] => base38Group 4 (leNat [a, b])
  | [a] => base38Group 2 (leNat [a])
  | [] => []

/-- `qrPrefix`: `MT:`. -/
def qrPrefix : List Byte := [0x4D, 0x54, 0x3A]

def maxQRCodeLength : Nat := 255

/-- A call of `put` in `qrEncode`: the bits so far, and the position. -/
def put (s : Nat × Nat) (v width : Nat) : Nat × Nat := (s.1 ||| v <<< s.2, s.2 + width)

/-- The 88 bits of `qrEncode`, the padding with them. -/
def packBits : Nat :=
  let s := put (0, 0) p.version.toNat 3
  let s := put s p.vendorID.toNat 16
  let s := put s p.productID.toNat 16
  let s := put s p.customFlow.toNat 2
  let s := put s p.discoveryCaps.toNat 8
  let s := put s p.discriminator.toNat 12
  let s := put s p.passcode.toNat 27
  let s := put s 0 4
  s.1

/-- The tail that `qrEncode` appends. -/
def Payload.tail : List Byte :=
  match p.extra with
  | none => []
  | some extra => extra.raw

def qrEncode : Except EncodeError (List Byte) :=
  let raw := leBytes 11 (packBits p) ++ p.tail
  let code := qrPrefix ++ base38Encode raw
  if maxQRCodeLength < code.length then .error (.tooLong code.length) else .ok code

def qrCode (check : Bool) : Except EncodeError (List Byte) := do
  p.validate
  if !check then qrEncode p
  else if p.version ≠ 0 then .error (.unsupportedVersion p.version)
  else if !isValidSetupPIN p.passcode then .error (.passcode p.passcode)
  else qrEncode p

def QRCode : Except EncodeError (List Byte) := qrCode p true

/-! ## Manual codes -/

def verhoeffTableD : Fin 10 → Fin 10 → Fin 10 :=
  ![![0, 1, 2, 3, 4, 5, 6, 7, 8, 9],
    ![1, 2, 3, 4, 0, 6, 7, 8, 9, 5],
    ![2, 3, 4, 0, 1, 7, 8, 9, 5, 6],
    ![3, 4, 0, 1, 2, 8, 9, 5, 6, 7],
    ![4, 0, 1, 2, 3, 9, 5, 6, 7, 8],
    ![5, 9, 8, 7, 6, 0, 4, 3, 2, 1],
    ![6, 5, 9, 8, 7, 1, 0, 4, 3, 2],
    ![7, 6, 5, 9, 8, 2, 1, 0, 4, 3],
    ![8, 7, 6, 5, 9, 3, 2, 1, 0, 4],
    ![9, 8, 7, 6, 5, 4, 3, 2, 1, 0]]

def verhoeffTableP : Fin 8 → Fin 10 → Fin 10 :=
  ![![0, 1, 2, 3, 4, 5, 6, 7, 8, 9],
    ![1, 5, 7, 6, 2, 8, 3, 0, 9, 4],
    ![5, 8, 0, 3, 7, 9, 6, 1, 4, 2],
    ![8, 9, 1, 6, 0, 4, 3, 5, 2, 7],
    ![9, 4, 5, 3, 1, 2, 6, 8, 7, 0],
    ![4, 2, 8, 6, 5, 7, 3, 9, 0, 1],
    ![2, 7, 9, 3, 8, 0, 6, 4, 1, 5],
    ![7, 0, 4, 6, 9, 1, 3, 2, 5, 8]]

def verhoeffTableInv : Fin 10 → Fin 10 := ![0, 4, 3, 2, 1, 5, 6, 7, 8, 9]

/-- The character of a decimal digit. -/
def digitByte (d : Nat) : Byte := BitVec.ofNat 8 (0x30 + d)

/-- The decimal digit of a character. -/
def digitOf (ch : Byte) : Option (Fin 10) :=
  if 0x30 ≤ ch ∧ ch ≤ 0x39 then some (Fin.ofNat 10 (ch.toNat - 0x30)) else none

/-- The loop of `verhoeffCheck`, over the digits from the last to the first. -/
def verhoeffLoop : Nat → Fin 10 → List Byte → Except EncodeError (Fin 10)
  | _, c, [] => .ok c
  | i, c, ch :: rest =>
    match digitOf ch with
    | none => .error .nonDecimal
    | some d => verhoeffLoop (i + 1) (verhoeffTableD c (verhoeffTableP (Fin.ofNat 8 (i + 1)) d)) rest

def verhoeffCheck (digits : List Byte) : Except EncodeError (Fin 10) := do
  let c ← verhoeffLoop 0 0 digits.reverse
  pure (verhoeffTableInv c)

/-- `fmt.Sprintf` with the verb `%0wd`. -/
def sprintfDecimal (w v : Nat) : List Byte := (((Nat.digits 10 v).rightpad w 0).map digitByte).reverse

/-- The digits of `manualCode` without the check digit. -/
def manualDigits (discriminator : BitVec 16) (passcode : BitVec 32) (vendorProduct : Option (BitVec 16 × BitVec 16)) :
    Except EncodeError (List Byte) :=
  let upperDisc := (discriminator >>> 10).setWidth 32 &&& 0x3
  let upperDisc := if vendorProduct.isSome then upperDisc ||| (1 : BitVec 32) <<< 2 else upperDisc
  let midDisc := (discriminator >>> 8).setWidth 32 &&& 0x3
  let d2to6 := midDisc <<< 14 ||| (passcode &&& 0x3FFF)
  let d7to10 := passcode >>> 14
  let tenDigits := sprintfDecimal 1 upperDisc.toNat ++ sprintfDecimal 5 d2to6.toNat ++ sprintfDecimal 4 d7to10.toNat
  if tenDigits.length ≠ 10 then .error (.assembled tenDigits.length)
  else
    match vendorProduct with
    | none => .ok tenDigits
    | some (vendor, product) => .ok (tenDigits ++ (sprintfDecimal 5 vendor.toNat ++ sprintfDecimal 5 product.toNat))

def manualCode (discriminator : BitVec 16) (passcode : BitVec 32) (vendorProduct : Option (BitVec 16 × BitVec 16))
    (validate : Bool) : Except EncodeError (List Byte) :=
  if maxDiscriminator < discriminator then .error (.discriminator discriminator)
  else if 99999998 < passcode ∨ (validate = true ∧ isValidSetupPIN passcode = false) then .error (.passcode passcode)
  else do
    let digits ← manualDigits discriminator passcode vendorProduct
    let check ← verhoeffCheck digits
    pure (digits ++ [digitByte check.val])

end GF.Impl.Setup
