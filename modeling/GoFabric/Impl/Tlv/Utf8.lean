import GoFabric.Framework.Bytes
import GoFabric.Framework.Chunks

/-!
# UTF-8 in strings (`tlv/utf8.go`, and what it uses of `unicode/utf8`)

A Go string is its bytes.
-/

namespace GF.Impl.Tlv

/-- `utf8.RuneError`, as `WriteRune` encodes it. -/
def runeError : List Byte := [0xEF, 0xBF, 0xBD]

/-- What a lead byte announces: how many bytes follow it, and the range of the
first of them. -/
def leadByte (c : Byte) : Option (Nat × Byte × Byte) :=
  if 0xC2 ≤ c ∧ c ≤ 0xDF then some (1, 0x80, 0xBF)
  else if c = 0xE0 then some (2, 0xA0, 0xBF)
  else if c = 0xED then some (2, 0x80, 0x9F)
  else if 0xE1 ≤ c ∧ c ≤ 0xEF then some (2, 0x80, 0xBF)
  else if c = 0xF0 then some (3, 0x90, 0xBF)
  else if c = 0xF4 then some (3, 0x80, 0x8F)
  else if 0xF1 ≤ c ∧ c ≤ 0xF3 then some (3, 0x80, 0xBF)
  else none

/-- How many of the next `need` bytes continue the sequence: the first within
the given range, the others within 0x80 to 0xBF. -/
def continued : Nat → Byte → Byte → List Byte → Nat
  | 0, _, _, _ => 0
  | _ + 1, _, _, [] => 0
  | need + 1, lower, upper, b :: rest =>
    if b < lower ∨ upper < b then 0 else continued need 0x80 0xBF rest + 1

/-- The value of a rune from its lead byte and the bytes behind it. -/
def runeOf (c : Byte) (bs : List Byte) : Nat :=
  bs.foldl (fun r b => r * 64 + b.toNat % 64) (c.toNat % 2 ^ (6 - bs.length))

/-- `utf8.DecodeRune`: the rune at `c`, `none` for an ill-formed sequence, and
how many bytes of `rest` it takes. -/
def decodeRune (c : Byte) (rest : List Byte) : Option Nat × Nat :=
  if c < 0x80 then (some c.toNat, 0)
  else
    match leadByte c with
    | none => (none, 0)
    | some (need, lower, upper) =>
      if continued need lower upper rest = need then (some (runeOf c (rest.take need)), need) else (none, 0)

/-- `utf8.Valid`. -/
def utf8Valid (body : List Byte) : Bool := (chunks decodeRune body).all Option.isSome

/-- The loop body of `decodeUTF8`: what is written for the sequence at `c`,
and how many bytes of `rest` it takes. -/
def replaceStep (c : Byte) (rest : List Byte) : List Byte × Nat :=
  if c < 0x80 then ([c], 0)
  else
    match leadByte c with
    | none => (runeError, 0)
    | some (need, lower, upper) =>
      let k := continued need lower upper rest
      if k = need then (c :: rest.take k, k) else (runeError, k)

def decodeUTF8 (body : List Byte) : List Byte :=
  if utf8Valid body then body else (chunks replaceStep body).flatten

def validUTF8 (s : List Byte) : List Byte := if utf8Valid s then s else decodeUTF8 s

def utf16Length (s : List Byte) : Nat :=
  ((chunks decodeRune s).map fun r => if 0x10000 ≤ r.getD 0xFFFD then 2 else 1).sum

end GF.Impl.Tlv
