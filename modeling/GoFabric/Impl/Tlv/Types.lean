import GoFabric.Framework.Bytes

/-!
# TLV elements and tags (`tlv/tlv.go`)
-/

namespace GF.Impl.Tlv

inductive ElementType
  | signedInt1 | signedInt2 | signedInt4 | signedInt8
  | unsignedInt1 | unsignedInt2 | unsignedInt4 | unsignedInt8
  | boolFalse | boolTrue
  | float4 | float8
  | utf8Str1 | utf8Str2 | utf8Str4 | utf8Str8
  | octetStr1 | octetStr2 | octetStr4 | octetStr8
  | null | struct | array | list
  | endContainer
deriving DecidableEq

/-- The value of an `ElementType`: the lower five bits of a control byte. -/
def ElementType.code : ElementType → Byte
  | .signedInt1 => 0x00
  | .signedInt2 => 0x01
  | .signedInt4 => 0x02
  | .signedInt8 => 0x03
  | .unsignedInt1 => 0x04
  | .unsignedInt2 => 0x05
  | .unsignedInt4 => 0x06
  | .unsignedInt8 => 0x07
  | .boolFalse => 0x08
  | .boolTrue => 0x09
  | .float4 => 0x0A
  | .float8 => 0x0B
  | .utf8Str1 => 0x0C
  | .utf8Str2 => 0x0D
  | .utf8Str4 => 0x0E
  | .utf8Str8 => 0x0F
  | .octetStr1 => 0x10
  | .octetStr2 => 0x11
  | .octetStr4 => 0x12
  | .octetStr8 => 0x13
  | .null => 0x14
  | .struct => 0x15
  | .array => 0x16
  | .list => 0x17
  | .endContainer => 0x18

/-- The types, by their values. -/
def ElementType.all : List ElementType :=
  [.signedInt1, .signedInt2, .signedInt4, .signedInt8, .unsignedInt1, .unsignedInt2, .unsignedInt4,
    .unsignedInt8, .boolFalse, .boolTrue, .float4, .float8, .utf8Str1, .utf8Str2, .utf8Str4, .utf8Str8,
    .octetStr1, .octetStr2, .octetStr4, .octetStr8, .null, .struct, .array, .list, .endContainer]

/-- The type of a value; 0x19 to 0x1F are none. -/
def ElementType.ofCode (b : Byte) : Option ElementType := ElementType.all[b.toNat]?

inductive TagKind
  | anonymous | context
  | commonProfile2 | commonProfile4
  | implicitProfile2 | implicitProfile4
  | fullyQualified6 | fullyQualified8
deriving DecidableEq

/-- The value of a `TagKind`: the upper three bits of a control byte. -/
def TagKind.code : TagKind → Byte
  | .anonymous => 0
  | .context => 1
  | .commonProfile2 => 2
  | .commonProfile4 => 3
  | .implicitProfile2 => 4
  | .implicitProfile4 => 5
  | .fullyQualified6 => 6
  | .fullyQualified8 => 7

/-- The kind of a value; there is none above 7. -/
def TagKind.ofCode (b : Byte) : Option TagKind :=
  [.anonymous, .context, .commonProfile2, .commonProfile4, .implicitProfile2, .implicitProfile4,
    .fullyQualified6, .fullyQualified8][b.toNat]?

structure Tag where
  kind : TagKind
  vendor : BitVec 16 := 0
  profile : BitVec 16 := 0
  number : BitVec 32 := 0
deriving DecidableEq

def anonymousTag : Tag := { kind := .anonymous }

def contextTag (n : BitVec 8) : Tag := { kind := .context, number := n.setWidth 32 }

def commonTag (n : BitVec 32) : Tag :=
  if n ≤ 0xFFFF then { kind := .commonProfile2, number := n } else { kind := .commonProfile4, number := n }

def fullyQualifiedTag (vendor profile : BitVec 16) (number : BitVec 32) : Tag :=
  { kind := if 0xFFFF < number then .fullyQualified8 else .fullyQualified6, vendor := vendor, profile := profile,
    number := number }

/-- A `float64`: the value of the bits of a float of either width. -/
inductive Float64
  | ofFloat32Bits (bits : BitVec 32)
  | ofBits (bits : BitVec 64)

structure Element where
  tag : Tag
  type : ElementType
  bool : Bool := false
  uint : BitVec 64 := 0
  int : BitVec 64 := 0
  float : Float64 := .ofBits 0
  string : List Byte := []
  octets : List Byte := []
  isNull : Bool := false
  isContainer : Bool := false
  isEndContainer : Bool := false
  rawLength : BitVec 32 := 0

/-- The errors of the codec, with what their texts report. -/
inductive TlvError
  | eof
  | truncated (need have_ : Nat)
  | stringTooLong (codeUnits : Nat)
  | invalidElementType (type : Byte) (pos : Nat)
  | invalidTagKind (control : Byte) (pos : Nat)
  | endContainerTag (kind : TagKind) (pos : Nat)
  | implicitProfileTag (kind : TagKind) (pos : Nat)
  | lengthOverflow (declared have_ : Nat)
  | unbalancedContainer (stillOpen : Option Nat)
deriving DecidableEq

end GF.Impl.Tlv
