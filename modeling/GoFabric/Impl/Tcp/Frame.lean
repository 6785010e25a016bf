import GoFabric.Framework.Bytes
import GoFabric.Framework.Stream

/-!
# TCP framing (`transport/tcp/frame.go`)

An `int` has 32 bits or 64; what depends on it takes the width.
-/

namespace GF.Impl.Tcp

/-- The width of `int`. -/
inductive IntSize
  | bits32
  | bits64
deriving DecidableEq

namespace IntSize

def bits : IntSize → Nat
  | .bits32 => 32
  | .bits64 => 64

def maxInt (w : IntSize) : Int := 2 ^ (w.bits - 1) - 1

/-- A number as an `int`, which wraps round. -/
def int (w : IntSize) (x : Int) : Int := x.bmod (2 ^ w.bits)

end IntSize

def framingHeaderSize : Nat := 4

/-- The errors of the framing, with what their texts report. -/
inductive FrameError
  | messageTooLarge (length : Nat) (maxPayloadSize : Int)
  | zeroLengthFrame
  | frameTooLarge (announced maxPayloadSize : Int)
deriving DecidableEq

/-- How a call fails: it returns an error, or it panics. -/
inductive Failure
  | error (e : FrameError)
  | panicked
deriving DecidableEq

def encodeFrame (w : IntSize) (msg : List Byte) (maxPayloadSize : Int) : Except Failure (List Byte) :=
  if msg.length > maxPayloadSize then .error (.error (.messageTooLarge msg.length maxPayloadSize))
  -- the length that `make` is given wraps round
  else if framingHeaderSize + msg.length > w.maxInt then .error .panicked
  else .ok (leBytes framingHeaderSize (msg.length % 2 ^ 32) ++ msg)

structure Assembler where
  maxPayloadSize : Int
  buf : List Byte
deriving DecidableEq

def newAssembler (maxPayloadSize : Int) : Assembler := { maxPayloadSize := maxPayloadSize, buf := [] }

/-- A round of the loop of `push`: the frame at the front of the buffer. -/
def nextFrame (w : IntSize) (maxPayloadSize : Int) (buf : List Byte) : Stream.Round Failure (List Byte) Byte :=
  if buf.length < framingHeaderSize then .more
  else
    let n := w.int (leNat (buf.take framingHeaderSize))
    if n = 0 then .stop (.error .zeroLengthFrame)
    else if n > maxPayloadSize then .stop (.error (.frameTooLarge n maxPayloadSize))
    else
      let total := w.int (framingHeaderSize + n)
      if buf.length < total then .more
      -- `make` of a negative length, or a slice that ends before its start
      else if n < 0 ∨ total < framingHeaderSize then .stop .panicked
      else .item ((buf.drop framingHeaderSize).take n.toNat) (buf.drop total.toNat)

/-- `push`: the messages the chunk completed, the error, and the assembler
after it; nothing when it panics. -/
def Assembler.push (w : IntSize) (a : Assembler) (chunk : List Byte) :
    Option ((List (List Byte) × Option FrameError) × Assembler) :=
  let o := Stream.drain (nextFrame w a.maxPayloadSize) (a.buf ++ chunk)
  match o.error with
  | none => some ((o.items, none), { a with buf := o.rest })
  | some (.error e) => some ((o.items, some e), { a with buf := o.rest })
  | some .panicked => none

/-- `push` of each chunk in order, until one fails: the messages returned and
how it failed. -/
def Assembler.pushAll (w : IntSize) (a : Assembler) : List (List Byte) → List (List Byte) × Option Failure
  | [] => ([], none)
  | chunk :: chunks =>
    match a.push w chunk with
    | none => ([], some .panicked)
    | some ((out, some e), _) => (out, some (.error e))
    | some ((out, none), a) =>
      let r := a.pushAll w chunks
      (out ++ r.1, r.2)

end GF.Impl.Tcp
