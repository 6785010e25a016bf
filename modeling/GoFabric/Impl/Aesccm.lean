import GoFabric.Framework.Bytes

/-!
# AES-CCM (`secure/aesccm/aesccm.go`)

Tag 16 bytes, nonce 13 bytes, length field 2 bytes. The block cipher is any
function on 16-byte blocks; the loops over a byte slice in steps of 16 are
folds over the block numbers.
-/

namespace GF.Impl.Aesccm

def nonceSize : Nat := 13
def tagSize : Nat := 16
def blockSize : Nat := 16
/-- `l`: the width of the length field. -/
def l : Nat := 15 - nonceSize

inductive Error
  | nonceSize (got : Nat)
  | authFailed
  | sealedTooShort (bytes : Nat)
  | plaintextTooLong (bytes : Nat)
deriving DecidableEq

abbrev Block := Vector Byte 16

/-- `CCM`: the block cipher under its key. -/
structure CCM where
  block : Block → Block

/-- `copy` of `src` into `n` zero bytes. -/
def copyTo (n : Nat) (src : List Byte) : List Byte := (List.range n).map fun i => src.getD i 0

/-- `copy` of `src` into a zero block. -/
def toBlock (src : List Byte) : Block := Vector.ofFn fun i => src.getD i 0

def xorBlock (a b : Block) : Block := Vector.zipWith (· ^^^ ·) a b

/-- How often a loop over `n` bytes in steps of `blockSize` runs. -/
def blockCount (n : Nat) : Nat := (n + (blockSize - 1)) / blockSize

/-- `data[i:end]` in round `k` of such a loop. -/
def chunk (data : List Byte) (k : Nat) : List Byte := (data.drop (blockSize * k)).take blockSize

def cbcMacBlocks (b : Block → Block) (state : Block) (data : List Byte) : Block :=
  (List.range (blockCount data.length)).foldl
    (fun state k => b (xorBlock state (toBlock (chunk data k)))) state

def CCM.cbcMAC (c : CCM) (nonce plaintext aad : List Byte) : Block :=
  let hasAAD : Bool := 0 < aad.length
  let flags : Byte := (BitVec.ofNat 8 ((tagSize - 2) / 2) <<< 3) ||| BitVec.ofNat 8 (l - 1)
  let flags : Byte := if hasAAD then flags ||| 0x40#8 else flags
  let b0 := toBlock ([flags] ++ copyTo nonceSize nonce ++ beBytes 2 plaintext.length)
  let state := c.block b0
  let state := if hasAAD then cbcMacBlocks c.block state (beBytes 2 aad.length ++ aad) else state
  cbcMacBlocks c.block state plaintext

/-- The counter block of `ctrCrypt` and `encryptTag`. -/
def ctrBlock (nonce : List Byte) (counter : BitVec 16) : Block :=
  toBlock ([BitVec.ofNat 8 (l - 1)] ++ copyTo nonceSize nonce ++ beBytes 2 counter.toNat)

/-- `ctrCrypt`, returning the data it changes in place: what is done so far,
and the counter. -/
def CCM.ctrCrypt (c : CCM) (nonce data : List Byte) : List Byte :=
  ((List.range (blockCount data.length)).foldl
    (fun (s : List Byte × BitVec 16) k =>
      let keystream := c.block (ctrBlock nonce s.2)
      (s.1 ++ List.zipWith (· ^^^ ·) (chunk data k) keystream.toList, s.2 + 1)) ([], 1)).1

def CCM.encryptTag (c : CCM) (nonce : List Byte) (tag : Block) : Block :=
  xorBlock (c.block (ctrBlock nonce 0)) tag

def CCM.seal (c : CCM) (dst nonce plaintext aad : List Byte) : Except Error (List Byte) :=
  if nonce.length ≠ nonceSize then .error (.nonceSize nonce.length)
  else if plaintext.length > 0xFFFF then .error (.plaintextTooLong plaintext.length)
  else
    let tag := c.cbcMAC nonce plaintext aad
    .ok (dst ++ c.ctrCrypt nonce plaintext ++ (c.encryptTag nonce tag).toList)

def CCM.open (c : CCM) (dst nonce sealed aad : List Byte) : Except Error (List Byte) :=
  if nonce.length ≠ nonceSize then .error (.nonceSize nonce.length)
  else if sealed.length < tagSize then .error (.sealedTooShort sealed.length)
  else
    let cipherTextLen := sealed.length - tagSize
    if cipherTextLen > 0xFFFF then .error (.plaintextTooLong cipherTextLen)
    else
      let plaintext := c.ctrCrypt nonce (sealed.take cipherTextLen)
      let encZero := c.encryptTag nonce (toBlock [])
      let wireTag := xorBlock (toBlock (sealed.drop cipherTextLen)) encZero
      let expected := c.cbcMAC nonce plaintext aad
      if wireTag = expected then .ok (dst ++ plaintext) else .error .authFailed

end GF.Impl.Aesccm
