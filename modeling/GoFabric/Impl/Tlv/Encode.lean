import GoFabric.Impl.Tlv.Types
import GoFabric.Impl.Tlv.Utf8

/-!
# The TLV encoder (`tlv/encode.go`)

A method that panics returns `none`.
-/

namespace GF.Impl.Tlv

/-- `Encoder`; the innermost open container is the first of its stack. -/
structure Encoder where
  buf : List Byte
  openCont : Nat
  containerStack : List ElementType
deriving DecidableEq

namespace Encoder

/-- `NewEncoder`. -/
def new : Encoder := { buf := [], openCont := 0, containerStack := [] }

variable (e : Encoder)

variable (tag : Tag)

def bytes : Except TlvError (List Byte) :=
  if e.openCont ≠ 0 then .error (.unbalancedContainer (some e.openCont)) else .ok e.buf

/-- `append`, to the buffer. -/
def append (bs : List Byte) : Encoder := { e with buf := e.buf ++ bs }

/-- `binary.LittleEndian.AppendUint16` and its wider forms. -/
def appendLE {w : Nat} (v : BitVec w) : Encoder := e.append (leBytes (w / 8) v.toNat)

/-- The tag bytes behind the control byte. -/
def writeTag : Encoder :=
  match tag.kind with
  | .anonymous => e
  | .context => e.append [tag.number.setWidth 8]
  | .commonProfile2 | .implicitProfile2 => e.appendLE (tag.number.setWidth 16)
  | .commonProfile4 | .implicitProfile4 => e.appendLE tag.number
  | .fullyQualified6 => ((e.appendLE tag.vendor).appendLE tag.profile).appendLE (tag.number.setWidth 16)
  | .fullyQualified8 => ((e.appendLE tag.vendor).appendLE tag.profile).appendLE tag.number

/-- `writeControlAndTag`: a context tag directly inside an array panics. -/
def writeControlAndTag (t : ElementType) (tag : Tag) : Option Encoder :=
  if e.containerStack.head? = some .array ∧ tag.kind = .context then none
  else some ((e.append [tag.kind.code <<< 5 ||| t.code]).writeTag tag)

def putBool (v : Bool) : Option Encoder :=
  e.writeControlAndTag (if v then .boolTrue else .boolFalse) tag

def putNull : Option Encoder := e.writeControlAndTag .null tag

/-- A control byte, a tag and a number behind them. -/
def putNumber {w : Nat} (t : ElementType) (tag : Tag) (v : BitVec w) : Option Encoder := do
  let e ← e.writeControlAndTag t tag
  pure (e.appendLE v)

def putUint16 (v : BitVec 16) : Option Encoder := e.putNumber .unsignedInt2 tag v

def putUint32 (v : BitVec 32) : Option Encoder := e.putNumber .unsignedInt4 tag v

def putUint (v : BitVec 64) : Option Encoder :=
  if v ≤ 0xFF then e.putNumber .unsignedInt1 tag (v.setWidth 8)
  else if v ≤ 0xFFFF then e.putNumber .unsignedInt2 tag (v.setWidth 16)
  else if v ≤ 0xFFFFFFFF then e.putNumber .unsignedInt4 tag (v.setWidth 32)
  else e.putNumber .unsignedInt8 tag v

def putUint64 (v : BitVec 64) : Option Encoder := e.putUint tag v

/-- `PutUintWidth`: any other width panics. -/
def putUintWidth (v : BitVec 64) (widthBytes : Nat) : Option Encoder :=
  match widthBytes with
  | 1 => e.putNumber .unsignedInt1 tag (v.setWidth 8)
  | 2 => e.putNumber .unsignedInt2 tag (v.setWidth 16)
  | 4 => e.putNumber .unsignedInt4 tag (v.setWidth 32)
  | 8 => e.putNumber .unsignedInt8 tag v
  | _ => none

def putInt16 (v : BitVec 16) : Option Encoder := e.putNumber .signedInt2 tag v

def putInt32 (v : BitVec 32) : Option Encoder := e.putNumber .signedInt4 tag v

def putInt64 (v : BitVec 64) : Option Encoder := e.putNumber .signedInt8 tag v

def putInt (v : BitVec 64) : Option Encoder :=
  if -0x80 ≤ v.toInt ∧ v.toInt ≤ 0x7F then e.putNumber .signedInt1 tag (v.setWidth 8)
  else if -0x8000 ≤ v.toInt ∧ v.toInt ≤ 0x7FFF then e.putNumber .signedInt2 tag (v.setWidth 16)
  else if -0x80000000 ≤ v.toInt ∧ v.toInt ≤ 0x7FFFFFFF then e.putNumber .signedInt4 tag (v.setWidth 32)
  else e.putNumber .signedInt8 tag v

/-- The control byte, the tag and the length of `writeStringLike`. -/
def writeLength (n : BitVec 64) (t1 t2 t4 t8 : ElementType) : Option Encoder :=
  if n ≤ 0xFF then e.putNumber t1 tag (n.setWidth 8)
  else if n ≤ 0xFFFF then e.putNumber t2 tag (n.setWidth 16)
  else if n ≤ 0xFFFFFFFF then e.putNumber t4 tag (n.setWidth 32)
  else e.putNumber t8 tag n

def writeStringLike (b : List Byte) (t1 t2 t4 t8 : ElementType) : Option Encoder := do
  let e ← e.writeLength tag (BitVec.ofNat 64 b.length) t1 t2 t4 t8
  pure (e.append b)

def putUTF8 (s : List Byte) : Option Encoder :=
  e.writeStringLike tag (validUTF8 s) .utf8Str1 .utf8Str2 .utf8Str4 .utf8Str8

/-- The trim loop of `PutUTF8WithMax` and of `PutUTF8Bounded`, with `n` bytes left. -/
def trimmed (s : List Byte) : Nat → List Byte
  | 0 => []
  | n + 1 => if utf8Valid (s.take (n + 1)) then s.take (n + 1) else trimmed s n

def putUTF8WithMax (s : List Byte) (maxBytes : Int) : Option Encoder :=
  let s := validUTF8 s
  let s := if 0 < maxBytes ∧ maxBytes < s.length then trimmed s maxBytes.toNat else s
  e.writeStringLike tag s .utf8Str1 .utf8Str2 .utf8Str4 .utf8Str8

def putUTF8Bounded (s : List Byte) (maxBytes : Int) : Option Encoder :=
  let b := validUTF8 s
  if maxBytes ≤ 0 ∨ b.length ≤ maxBytes then e.writeStringLike tag b .utf8Str1 .utf8Str2 .utf8Str4 .utf8Str8
  else e.writeStringLike tag (trimmed b maxBytes.toNat) .utf8Str1 .utf8Str2 .utf8Str4 .utf8Str8

def putOctets (b : List Byte) : Option Encoder :=
  e.writeStringLike tag b .octetStr1 .octetStr2 .octetStr4 .octetStr8

/-- `StartStruct`, `StartArray` and `StartList`, by the type of the
container. -/
def startContainer (t : ElementType) (tag : Tag) : Option Encoder := do
  let e ← e.writeControlAndTag t tag
  pure { e with openCont := e.openCont + 1, containerStack := t :: e.containerStack }

def startStruct : Option Encoder := e.startContainer .struct tag

def startArray : Option Encoder := e.startContainer .array tag

def startList : Option Encoder := e.startContainer .list tag

/-- `EndContainer`: its error, and the encoder after it. -/
def endContainer (e : Encoder) : Option TlvError × Encoder :=
  if e.openCont = 0 then (some (.unbalancedContainer none), e)
  else
    (none, { e with
      openCont := e.openCont - 1
      containerStack := e.containerStack.tail
      buf := e.buf ++ [ElementType.endContainer.code] })

end Encoder

/-- A call of one of the encoder's methods. -/
inductive Call
  | putBool (tag : Tag) (v : Bool)
  | putNull (tag : Tag)
  | putUint (tag : Tag) (v : BitVec 64)
  | putUint16 (tag : Tag) (v : BitVec 16)
  | putUint32 (tag : Tag) (v : BitVec 32)
  | putUint64 (tag : Tag) (v : BitVec 64)
  | putUintWidth (tag : Tag) (v : BitVec 64) (widthBytes : Nat)
  | putInt (tag : Tag) (v : BitVec 64)
  | putInt16 (tag : Tag) (v : BitVec 16)
  | putInt32 (tag : Tag) (v : BitVec 32)
  | putInt64 (tag : Tag) (v : BitVec 64)
  | putUTF8 (tag : Tag) (s : List Byte)
  | putOctets (tag : Tag) (b : List Byte)
  | startStruct (tag : Tag)
  | startArray (tag : Tag)
  | startList (tag : Tag)
  | endContainer

/-- The call's error, if it returned one, and the encoder after it. -/
def Encoder.call (e : Encoder) : Call → Option (Option TlvError × Encoder)
  | .putBool tag v => (e.putBool tag v).map (none, ·)
  | .putNull tag => (e.putNull tag).map (none, ·)
  | .putUint tag v => (e.putUint tag v).map (none, ·)
  | .putUint16 tag v => (e.putUint16 tag v).map (none, ·)
  | .putUint32 tag v => (e.putUint32 tag v).map (none, ·)
  | .putUint64 tag v => (e.putUint64 tag v).map (none, ·)
  | .putUintWidth tag v widthBytes => (e.putUintWidth tag v widthBytes).map (none, ·)
  | .putInt tag v => (e.putInt tag v).map (none, ·)
  | .putInt16 tag v => (e.putInt16 tag v).map (none, ·)
  | .putInt32 tag v => (e.putInt32 tag v).map (none, ·)
  | .putInt64 tag v => (e.putInt64 tag v).map (none, ·)
  | .putUTF8 tag s => (e.putUTF8 tag s).map (none, ·)
  | .putOctets tag b => (e.putOctets tag b).map (none, ·)
  | .startStruct tag => (e.startStruct tag).map (none, ·)
  | .startArray tag => (e.startArray tag).map (none, ·)
  | .startList tag => (e.startList tag).map (none, ·)
  | .endContainer => some e.endContainer

/-- Calls one after the other: what each returned, and the encoder after
them. -/
def Encoder.calls (e : Encoder) : List Call → Option (List (Option TlvError) × Encoder)
  | [] => some ([], e)
  | c :: cs => do
    let (err, e) ← e.call c
    let (errs, e) ← e.calls cs
    pure (err :: errs, e)

end GF.Impl.Tlv
