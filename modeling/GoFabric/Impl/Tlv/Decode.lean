import GoFabric.Framework.Cursor
import GoFabric.Impl.Tlv.Types
import GoFabric.Impl.Tlv.Utf8

/-!
# The TLV decoder (`tlv/decode.go`)
-/

namespace GF.Impl.Tlv

/-- `Decoder`: a buffer and a position. -/
abbrev Decoder := Cursor

namespace Decoder

/-- `NewDecoder`. -/
def new (buf : List Byte) : Decoder := { buf := buf, pos := 0 }

def remaining (d : Decoder) : Nat := d.buf.length - d.pos

def need (n : Nat) : Reader TlvError Unit := do
  let d ← Reader.cursor
  if d.buf.length < d.pos + n then Reader.fail (.truncated n (d.buf.length - d.pos)) else pure ()

/-- A little-endian number of `n` bytes, behind `need`. -/
def readLE (n : Nat) : Reader TlvError Nat := do
  let bs ← Reader.take n
  pure (leNat bs)

def readTag (kind : TagKind) : Reader TlvError Tag :=
  match kind with
  | .anonymous => pure { kind := kind }
  | .context => do
    need 1
    let number ← readLE 1
    pure { kind := kind, number := BitVec.ofNat 32 number }
  | .implicitProfile2 | .implicitProfile4 => do
    let d ← Reader.cursor
    Reader.fail (.implicitProfileTag kind (d.pos - 1))
  | .commonProfile2 => do
    need 2
    let number ← readLE 2
    pure { kind := kind, number := BitVec.ofNat 32 number }
  | .commonProfile4 => do
    need 4
    let number ← readLE 4
    pure { kind := kind, number := BitVec.ofNat 32 number }
  | .fullyQualified6 => do
    need 6
    let vendor ← readLE 2
    let profile ← readLE 2
    let number ← readLE 2
    pure { kind := kind, vendor := BitVec.ofNat 16 vendor, profile := BitVec.ofNat 16 profile,
           number := BitVec.ofNat 32 number }
  | .fullyQualified8 => do
    need 8
    let vendor ← readLE 2
    let profile ← readLE 2
    let number ← readLE 4
    pure { kind := kind, vendor := BitVec.ofNat 16 vendor, profile := BitVec.ofNat 16 profile,
           number := BitVec.ofNat 32 number }

/-- `readU`, for a width of 1, 2, 4 or 8. -/
def readU (w : Nat) : Reader TlvError (BitVec 64) := do
  need w
  let v ← readLE w
  pure (BitVec.ofNat 64 v)

def readStringLike (w : Nat) : Reader TlvError (List Byte) := do
  let n ← readU w
  let d ← Reader.cursor
  if d.buf.length - d.pos < n.toNat then Reader.fail (.lengthOverflow n.toNat (d.buf.length - d.pos))
  else Reader.take n.toNat

/-- A signed integer of `w` bytes, sign-extended. -/
def readInt (el : Element) (w : Nat) : Reader TlvError Element := do
  let v ← readU w
  pure { el with int := (v.setWidth (8 * w)).signExtend 64 }

/-- An unsigned integer of `w` bytes. -/
def readUint (el : Element) (w : Nat) : Reader TlvError Element := do
  let v ← readU w
  pure { el with uint := v }

/-- A character string with a length of `w` bytes: cut at the first IS1, the
length of the whole in UTF-16 code units kept. -/
def readUTF8 (el : Element) (w : Nat) : Reader TlvError Element := do
  let body ← readStringLike w
  match body.findIdx? (· == 0x1F) with
  | some i =>
    let n := utf16Length (decodeUTF8 body)
    if 0xFFFFFFFF < n then Reader.fail (.stringTooLong n)
    else pure { el with rawLength := BitVec.ofNat 32 n, string := decodeUTF8 (body.take i) }
  | none => pure { el with string := decodeUTF8 body }

/-- An octet string with a length of `w` bytes. -/
def readOctets (el : Element) (w : Nat) : Reader TlvError Element := do
  let body ← readStringLike w
  pure { el with octets := body }

def readValue (el : Element) : Reader TlvError Element :=
  match el.type with
  | .boolFalse => pure { el with bool := false }
  | .boolTrue => pure { el with bool := true }
  | .null => pure { el with isNull := true }
  | .signedInt1 => readInt el 1
  | .signedInt2 => readInt el 2
  | .signedInt4 => readInt el 4
  | .signedInt8 => readInt el 8
  | .unsignedInt1 => readUint el 1
  | .unsignedInt2 => readUint el 2
  | .unsignedInt4 => readUint el 4
  | .unsignedInt8 => readUint el 8
  | .float4 => do
    let v ← readU 4
    pure { el with float := .ofFloat32Bits (v.setWidth 32) }
  | .float8 => do
    let v ← readU 8
    pure { el with float := .ofBits v }
  | .utf8Str1 => readUTF8 el 1
  | .utf8Str2 => readUTF8 el 2
  | .utf8Str4 => readUTF8 el 4
  | .utf8Str8 => readUTF8 el 8
  | .octetStr1 => readOctets el 1
  | .octetStr2 => readOctets el 2
  | .octetStr4 => readOctets el 4
  | .octetStr8 => readOctets el 8
  | .struct | .array | .list => pure { el with isContainer := true }
  | .endContainer => do
    let d ← Reader.cursor
    Reader.fail (.invalidElementType el.type.code (d.pos - 1))

/-- The element behind a control byte whose tag kind is known. -/
def readElement (control : Byte) (kind : TagKind) : Reader TlvError Element := do
  let tag ← readTag kind
  match ElementType.ofCode (control &&& 0x1F) with
  | some .endContainer =>
    if kind ≠ .anonymous then do
      let d ← Reader.cursor
      Reader.fail (.endContainerTag kind d.pos)
    else pure { type := .endContainer, isEndContainer := true, tag := anonymousTag }
  | some etype => readValue { tag := tag, type := etype }
  | none => do
    let d ← Reader.cursor
    Reader.fail (.invalidElementType (control &&& 0x1F) (d.pos - 1))

def next : Reader TlvError Element := do
  let d ← Reader.cursor
  if d.buf.length ≤ d.pos then Reader.fail .eof
  else
    let control := (← Reader.take 1).headD 0
    match TagKind.ofCode (control >>> 5) with
    | none => Reader.fail (.invalidTagKind control d.pos)
    | some kind => readElement control kind

end Decoder

/-! ## Strict validation -/

/-- Why a buffer is not valid: an error of `Next`, a tag that its container does not
allow (`ErrStrictTagViolation`), or an open container. -/
inductive ValidateError
  | next (cause : TlvError)
  | endOutside (pos : Nat)
  | contextAtTop (number : BitVec 32) (pos : Nat)
  | anonymousInStructure (type : Byte) (pos : Nat)
  | taggedInArray (kind : TagKind) (pos : Nat)
  | unclosed (containers : Nat)
deriving DecidableEq

/-- The loop of `Validate`, with the containers that are open, the innermost one
first. An element takes at least one byte. -/
def validateFrom : Nat → List ElementType → Decoder → Except ValidateError Unit
  | 0, _, _ => .ok ()
  | fuel + 1, containers, d =>
    if d.remaining = 0 then
      if containers = [] then .ok () else .error (.unclosed containers.length)
    else
      match Decoder.next d with
      | (.error e, _) => .error (.next e)
      | (.ok el, d') =>
        if el.isEndContainer then
          match containers with
          | [] => .error (.endOutside d'.pos)
          | _ :: containers => validateFrom fuel containers d'
        else if containers = [] ∧ el.tag.kind = .context then .error (.contextAtTop el.tag.number d'.pos)
        else if containers.head? = some .struct ∧ el.tag.kind = .anonymous then
          .error (.anonymousInStructure el.type.code d'.pos)
        else if containers.head? = some .array ∧ el.tag.kind ≠ .anonymous then .error (.taggedInArray el.tag.kind d'.pos)
        else validateFrom fuel (if el.isContainer then el.type :: containers else containers) d'

def validate (buf : List Byte) : Except ValidateError Unit := validateFrom (buf.length + 1) [] (Decoder.new buf)

end GF.Impl.Tlv
