import GoFabric.Impl.Tcp.Frame

/-!
# Streams of frames

Which messages can be framed, and which streams make a receiver panic, by the width of `int`.
-/

namespace GF.Spec.Framing

open GF.Impl.Tcp

/-- A message that both ends take: not empty, within the limit, with a length that four bytes
hold, in a frame whose length an `int` holds. -/
def Sendable (w : IntSize) (maxPayloadSize : Int) (msg : List Byte) : Prop :=
  msg ≠ [] ∧ msg.length ≤ maxPayloadSize ∧ msg.length < 2 ^ 32 ∧ framingHeaderSize + msg.length ≤ w.maxInt

/-- A message behind its length. -/
def frame (msg : List Byte) : List Byte := leBytes framingHeaderSize msg.length ++ msg

/-- A header that passes the checks though the number it announces is negative as an `int` of 32
bits, or the end of the frame is. -/
def Faulting : IntSize → Int → List Byte → Prop
  | .bits32, maxPayloadSize, header =>
    2 ^ 31 ≤ leNat header ∧ leNat header - 2 ^ 32 ≤ maxPayloadSize ∨
      2 ^ 31 - 4 ≤ leNat header ∧ leNat header < 2 ^ 31 ∧ leNat header ≤ maxPayloadSize
  | .bits64, _, _ => False

/-- Such a header is reached, behind whole frames. -/
def Faults (w : IntSize) (maxPayloadSize : Int) (stream : List Byte) : Prop :=
  ∃ (msgs : List (List Byte)) (header rest : List Byte), (∀ msg ∈ msgs, Sendable w maxPayloadSize msg) ∧
    header.length = framingHeaderSize ∧ Faulting w maxPayloadSize header ∧
      stream = (msgs.map frame).flatten ++ (header ++ rest)

end GF.Spec.Framing
