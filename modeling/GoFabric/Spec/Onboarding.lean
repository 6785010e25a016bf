import GoFabric.Impl.Setup.Decode

/-!
# What an onboarding code carries
-/

namespace GF.Spec.Onboarding

open GF.Impl.Setup

/-- The last character is the check digit of the others. -/
def checked (s : List Byte) : Bool :=
  match verhoeffCheck s.dropLast, s.getLast? with
  | .ok check, some ch => ch == digitByte check.val
  | _, _ => false

/-- The code of what was read from one: the lower bits of the discriminator,
which no manual code carries, are zero. -/
def manualCodeOf (mp : ManualPayload) (validate : Bool) : Except EncodeError (List Byte) :=
  manualCode (mp.shortDiscriminator.setWidth 16 <<< 8) mp.passcode
    (if mp.hasVendorProduct then some (mp.vendorID, mp.productID) else none) validate

/-- Digits 2 to 6 are a number of 16 bits. -/
def chunkFits (code : List Byte) : Bool := decide (num code 1 6 ≤ 0xFFFF)

/-- A payload that a code is made for: the discriminator has 12 bits, the
passcode is no trivial one, and the vendor and the product, if they are given,
are ones that an onboarding payload may name. -/
structure ValidManual (discriminator : BitVec 16) (passcode : BitVec 32)
    (vendorProduct : Option (BitVec 16 × BitVec 16)) : Prop where
  discriminator : discriminator ≤ maxDiscriminator
  passcode : isValidSetupPIN passcode = true
  identity : ∀ vp ∈ vendorProduct, assertValidPayloadIdentity (vp.1.setWidth 32) (vp.2.setWidth 32) = .ok ()

/-- What a manual code carries of a payload. -/
def manualPayload (discriminator : BitVec 16) (passcode : BitVec 32) (vendorProduct : Option (BitVec 16 × BitVec 16)) :
    ManualPayload :=
  { shortDiscriminator := (discriminator >>> 8).setWidth 8
    passcode := passcode
    vendorID := (vendorProduct.map Prod.fst).getD 0
    productID := (vendorProduct.map Prod.snd).getD 0
    hasVendorProduct := vendorProduct.isSome }

/-! ## QR codes -/

/-- The groups of a base-38 string, each with the number of its bytes. -/
def base38Groups : List Byte → List (List Byte × Nat)
  | a :: b :: c :: d :: e :: rest => ([a, b, c, d, e], 3) :: base38Groups rest
  | [a, b, c, d] => [([a, b, c, d], 2)]
  | [a, b] => [([a, b], 1)]
  | _ => []

/-- A base-38 string of whole groups of characters of the alphabet, none of which stands
for more than its bytes hold. -/
structure Canonical (s : List Byte) : Prop where
  length : s.length % 5 = 0 ∨ s.length % 5 = 2 ∨ s.length % 5 = 4
  chars : ∀ g ∈ base38Groups s, ∀ ch ∈ g.1, ch ∈ base38Alphabet
  values : ∀ g ∈ base38Groups s, Nat.ofDigits 38 (g.1.map base38Alphabet.idxOf) < 256 ^ g.2

/-- Several codes as one: the parts behind one prefix, with `*` between them. -/
def joined (codes : List (List Byte)) : List Byte :=
  qrPrefix ++ [0x2A].intercalate (codes.map fun code => code.drop qrPrefix.length)

/-- The same fields and the same tail. -/
def SameContent (p q : Payload) : Prop := { p with extra := none } = { q with extra := none } ∧ p.tail = q.tail

/-- The four bits behind the passcode are zero. -/
def paddingZero (s : List Byte) : Bool :=
  match base38Decode (s.drop qrPrefix.length) with
  | .ok data => decide (leNat (data.take 11) < 2 ^ 84)
  | .error _ => false

end GF.Spec.Onboarding
