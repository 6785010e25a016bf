import GoFabric.Impl.Tlv.Decode
import GoFabric.Impl.Tlv.Encode

/-!
# What a TLV stream carries

Each call of the encoder is one element for the decoder: a tag and a value.
`Call.value` is the value a call stands for, `Element.value` the one that a
reader takes from a decoded element by its type.
-/

namespace GF.Spec.Tlv

open GF.Impl.Tlv

/-- The text of a character string: what stands before its first IS1. -/
def textOf (s : List Byte) : List Byte := s.takeWhile (· != 0x1F)

/-- The well-formed sequences of UTF-8: the ranges of a first byte and of those behind it. -/
def sequences : List ((Byte × Byte) × List (Byte × Byte)) :=
  [((0x00, 0x7F), []), ((0xC2, 0xDF), [(0x80, 0xBF)]), ((0xE0, 0xE0), [(0xA0, 0xBF), (0x80, 0xBF)]),
    ((0xE1, 0xEC), [(0x80, 0xBF), (0x80, 0xBF)]), ((0xED, 0xED), [(0x80, 0x9F), (0x80, 0xBF)]),
    ((0xEE, 0xEF), [(0x80, 0xBF), (0x80, 0xBF)]), ((0xF0, 0xF0), [(0x90, 0xBF), (0x80, 0xBF), (0x80, 0xBF)]),
    ((0xF1, 0xF3), [(0x80, 0xBF), (0x80, 0xBF), (0x80, 0xBF)]),
    ((0xF4, 0xF4), [(0x80, 0x8F), (0x80, 0xBF), (0x80, 0xBF)])]

/-- What may stand behind a first byte. -/
def behind (c : Byte) : List (List (Byte × Byte)) :=
  (sequences.filter fun q => q.1.1 ≤ c && c ≤ q.1.2).map (·.2)

/-- How many bytes in a row are within the ranges. -/
def within : List (Byte × Byte) → List Byte → Nat
  | (lower, upper) :: ranges, b :: s => if lower ≤ b ∧ b ≤ upper then within ranges s + 1 else 0
  | _, _ => 0

/-- A well-formed sequence is kept. Otherwise the longest part that begins one, and at least a
byte, becomes U+FFFD. -/
def repairStep (c : Byte) (rest : List Byte) : List Byte × Nat :=
  let n := ((behind c).map (within · rest)).foldr max 0
  if ∃ ranges ∈ behind c, within ranges rest = ranges.length then (c :: rest.take n, n) else ([0xEF, 0xBF, 0xBD], n)

def repaired (s : List Byte) : List Byte := (chunks repairStep s).flatten

/-- The longest prefix of `s` that ends on a code point boundary and has at most `n` bytes. -/
structure LongestWithin (s : List Byte) (n : Int) (p : List Byte) : Prop where
  isPrefix : p <+: s
  boundary : utf8Valid p = true
  length_le : p.length ≤ n
  longest : ∀ q, q <+: s → utf8Valid q = true → (q.length : Int) ≤ n → q.length ≤ p.length

/-- The value of an element: integers as numbers, strings as bytes and whether
they were cut. -/
inductive Value
  | bool (v : Bool)
  | null
  | uint (v : Nat)
  | int (v : Int)
  | float (v : Float64)
  | utf8 (s : List Byte) (cut : Bool)
  | octets (b : List Byte)
  | struct
  | array
  | list
  | endContainer

/-- What a reader takes from an element; `none` when a flag does not go with
the type. -/
def elementValue (el : Element) : Option Value :=
  match el.type with
  | .boolFalse | .boolTrue => some (.bool el.bool)
  | .null => if el.isNull then some .null else none
  | .signedInt1 | .signedInt2 | .signedInt4 | .signedInt8 => some (.int el.int.toInt)
  | .unsignedInt1 | .unsignedInt2 | .unsignedInt4 | .unsignedInt8 => some (.uint el.uint.toNat)
  | .float4 | .float8 => some (.float el.float)
  | .utf8Str1 | .utf8Str2 | .utf8Str4 | .utf8Str8 => some (.utf8 el.string (el.rawLength != 0))
  | .octetStr1 | .octetStr2 | .octetStr4 | .octetStr8 => some (.octets el.octets)
  | .struct => if el.isContainer then some .struct else none
  | .array => if el.isContainer then some .array else none
  | .list => if el.isContainer then some .list else none
  | .endContainer => if el.isEndContainer then some .endContainer else none

/-- The value a call writes. -/
def callValue : Call → Value
  | .putBool _ v => .bool v
  | .putNull _ => .null
  | .putUint _ v | .putUint64 _ v | .putUintWidth _ v _ => .uint v.toNat
  | .putUint16 _ v => .uint v.toNat
  | .putUint32 _ v => .uint v.toNat
  | .putInt _ v | .putInt64 _ v => .int v.toInt
  | .putInt16 _ v => .int v.toInt
  | .putInt32 _ v => .int v.toInt
  | .putUTF8 _ s => .utf8 (repaired (textOf s)) (s.contains 0x1F)
  | .putOctets _ b => .octets b
  | .startStruct _ => .struct
  | .startArray _ => .array
  | .startList _ => .list
  | .endContainer => .endContainer

/-- The tag a call writes. -/
def callTag : Call → Tag
  | .putBool tag _ | .putNull tag | .putUint tag _ | .putUint16 tag _ | .putUint32 tag _ | .putUint64 tag _
  | .putUintWidth tag _ _ | .putInt tag _ | .putInt16 tag _ | .putInt32 tag _ | .putInt64 tag _
  | .putUTF8 tag _ | .putOctets tag _ | .startStruct tag | .startArray tag | .startList tag => tag
  | .endContainer => anonymousTag

/-- A tag of one of the constructors that a decoder can resolve. -/
inductive Resolvable : Tag → Prop
  | anonymous : Resolvable anonymousTag
  | context (n : BitVec 8) : Resolvable (contextTag n)
  | common (n : BitVec 32) : Resolvable (commonTag n)
  | fullyQualified (vendor profile : BitVec 16) (number : BitVec 32) :
      Resolvable (fullyQualifiedTag vendor profile number)

/-- A value given with its width fits that width. -/
def Fits : Call → Prop
  | .putUintWidth _ v widthBytes => v.toNat < 256 ^ widthBytes
  | _ => True

/-- A string that will be cut is short enough for its length to be kept. -/
def CutFits : Call → Prop
  | .putUTF8 _ s => 0x1F ∈ s → utf16Length (decodeUTF8 s) < 2 ^ 32
  | _ => True

/-- `bs` are the bytes of the elements `els`: `Next` reads them one after the
other, whatever stands before and behind. -/
inductive Spells : List Byte → List Element → Prop
  | nil : Spells [] []
  | cons {bs bs' el els} : Reads Decoder.next bs el → Spells bs' els → Spells (bs ++ bs') (el :: els)

/-! ## The strict grammar -/

/-- The type is that of a container. -/
def opens (t : ElementType) : Bool := t == .struct || t == .array || t == .list

def controlByte (kind : TagKind) (t : ElementType) : Byte := kind.code <<< 5 ||| t.code

/-- The bytes of a tag behind its control byte. A tag of an implicit profile has no form. -/
def tagWidth : TagKind → Option Nat
  | .anonymous => some 0
  | .context => some 1
  | .commonProfile2 => some 2
  | .commonProfile4 => some 4
  | .implicitProfile2 | .implicitProfile4 => none
  | .fullyQualified6 => some 6
  | .fullyQualified8 => some 8

/-- A length of `w` bytes, and as many bytes. -/
def Counted (w : Nat) (ok : List Byte → Prop) (bs : List Byte) : Prop :=
  ∃ body, bs = leBytes w body.length ++ body ∧ body.length < 256 ^ w ∧ ok body

/-- The bytes of a value behind its tag. What a character string may be is said by `text`. -/
def ValueWire (text : List Byte → Prop) : ElementType → List Byte → Prop
  | .boolFalse | .boolTrue | .null | .struct | .array | .list => (· = [])
  | .signedInt1 | .unsignedInt1 => (·.length = 1)
  | .signedInt2 | .unsignedInt2 => (·.length = 2)
  | .signedInt4 | .unsignedInt4 | .float4 => (·.length = 4)
  | .signedInt8 | .unsignedInt8 | .float8 => (·.length = 8)
  | .utf8Str1 => Counted 1 text
  | .utf8Str2 => Counted 2 text
  | .utf8Str4 => Counted 4 text
  | .utf8Str8 => Counted 8 text
  | .octetStr1 => Counted 1 fun _ => True
  | .octetStr2 => Counted 2 fun _ => True
  | .octetStr4 => Counted 4 fun _ => True
  | .octetStr8 => Counted 8 fun _ => True
  | .endContainer => fun _ => False

/-- The control byte, the tag and the value of an element. -/
def ElementWire (text : List Byte → Prop) (kind : TagKind) (t : ElementType) (bs : List Byte) : Prop :=
  ∃ tag value, bs = controlByte kind t :: (tag ++ value) ∧ tagWidth kind = some tag.length ∧ ValueWire text t value

/-- The tags that a member of the container may have, or an element of no container. -/
def Allowed (parent : Option ElementType) (kind : TagKind) : Prop :=
  (parent = none → kind ≠ .context) ∧ (parent = some .struct → kind ≠ .anonymous) ∧
    (parent = some .array → kind = .anonymous)

/-- Complete elements, as the members of a container or of none. -/
inductive Strict (text : List Byte → Prop) : Option ElementType → List Byte → Prop
  | nil {parent} : Strict text parent []
  | scalar {parent kind t bs rest} : ElementWire text kind t bs → Allowed parent kind → opens t = false →
      Strict text parent rest → Strict text parent (bs ++ rest)
  | container {parent kind t bs members rest} : ElementWire text kind t bs → Allowed parent kind → opens t = true →
      Strict text (some t) members → Strict text parent rest →
      Strict text parent (bs ++ (members ++ ElementType.endContainer.code :: rest))

/-- A string that is cut has a length that `RawLength` can hold. -/
def Cuttable (body : List Byte) : Prop := 0x1F ∈ body → utf16Length (decodeUTF8 body) < 2 ^ 32

end GF.Spec.Tlv
