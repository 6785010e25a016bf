import GoFabric.Impl.Tlv.Decode
import GoFabric.Impl.Tlv.Encode

/-!
# Raw elements (`tlv/raw.go`)

Every element that `Next` returns takes at least one byte, so as many rounds
as the buffer has bytes are enough for the loops.
-/

namespace GF.Impl.Tlv

/-- The errors of `SplitArrayMembers`. -/
inductive RawError
  | tlv (e : TlvError)
  | notArray
  | notClosed (what : String)
  | trailing (bytes : Nat)

/-- `Next`, with the end of the buffer inside `what` reported as such. -/
def nextInside (what : String) : Reader RawError Element := fun c =>
  match Decoder.next c with
  | (.ok el, c') => (.ok el, c')
  | (.error .eof, c') => (.error (.notClosed what), c')
  | (.error e, c') => (.error (.tlv e), c')

/-- `skipContainer`, from inside `depth` containers. -/
def skipRaw : Nat → Nat → Reader RawError Unit
  | _, 0 => pure ()
  | 0, _ + 1 => Reader.fail (.notClosed "container")
  | fuel + 1, depth + 1 => do
    let el ← nextInside "container"
    if el.isEndContainer then skipRaw fuel depth
    else if el.isContainer then skipRaw fuel (depth + 2)
    else skipRaw fuel (depth + 1)

/-- The loop of `SplitArrayMembers`. -/
def splitMembers : Nat → Reader RawError (List (List Byte))
  | 0 => Reader.fail (.notClosed "array")
  | fuel + 1 => do
    let start ← Reader.cursor
    let el ← nextInside "array"
    if el.isEndContainer then do
      let c ← Reader.cursor
      if c.pos < c.buf.length then Reader.fail (.trailing (c.buf.length - c.pos)) else pure []
    else do
      skipRaw fuel (if el.isContainer then 1 else 0)
      let c ← Reader.cursor
      let rest ← splitMembers fuel
      pure ((c.buf.drop start.pos).take (c.pos - start.pos) :: rest)

def splitArrayMembers (encoded : List Byte) : Except RawError (List (List Byte)) :=
  match Decoder.next (Decoder.new encoded) with
  | (.error e, _) => .error (.tlv e)
  | (.ok el, c) =>
    if el.type ≠ .array ∧ el.type ≠ .list then .error .notArray
    else (splitMembers (encoded.length + 1) c).1

/-- What `PutRawElement` refuses. -/
inductive RawElementError
  | empty
  | notAnonymous (control : Byte)

/-- The type of a control byte as `PutRawElement` writes it: any value of the
lower five bits. -/
def Encoder.putRawElement (e : Encoder) (tag : Tag) : List Byte → Option (Option RawElementError × Encoder)
  | [] => some (some .empty, e)
  | control :: rest =>
    if control >>> 5 ≠ TagKind.anonymous.code then some (some (.notAnonymous control), e)
    else if e.containerStack.head? = some .array ∧ tag.kind = .context then none
    else some (none, ((e.append [tag.kind.code <<< 5 ||| (control &&& 0x1F)]).writeTag tag).append rest)

end GF.Impl.Tlv
