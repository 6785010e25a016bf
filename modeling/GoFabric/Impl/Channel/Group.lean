import GoFabric.Impl.Channel.Session

/-!
# Group messages and header privacy (`secure/channel/group.go`, `privacy.go`)

The two directions of the privacy mask are separate functions: a sender masks
with `obfuscate`, a receiver takes the keystream first (`privacyKeystream`) and
applies it (`applyPrivacyMask`). `aes` is the block cipher.
-/

namespace GF.Impl.Channel

variable (aes : List Byte → Block → Block)

open GF.Impl.Aesccm (CCM Block toBlock blockCount chunk)
open GF.Impl.Message (Header MessageError SessionType DestSize)

def privacyKeySize : Nat := 16
def privacyNonceSize : Nat := 13
def privacyMICLength : Nat := 16
def privacyNonceMICBytes : Nat := privacyNonceSize - 2
def privacyCTRFlags : Byte := 0x01
def privacyHeaderOffset : Nat := 4

inductive PrivacyError
  | keySource (got : Nat)
  | micShort (got : Nat)
  | nonceSize (got : Nat)
  | maskShort (got : Nat)
  | sliceTooLong (slice mask : Nat)
deriving DecidableEq

/-! ## Receiving -/

/-- `PrivacyKeystream`, of a length that is not negative. -/
def privacyKeystream (privacyKey : List Byte) (sessionID : BitVec 16)
    (mic : List Byte) (n : Nat) : Except PrivacyError (List Byte) :=
  if privacyKey.length ≠ privacyKeySize then .error (.keySource privacyKey.length)
  else if mic.length < privacyMICLength then .error (.micShort mic.length)
  else
    let tag := mic.drop (mic.length - privacyMICLength)
    let block (counter : BitVec 16) := toBlock ([privacyCTRFlags] ++ beBytes 2 sessionID.toNat ++
      tag.drop (privacyMICLength - privacyNonceMICBytes) ++ beBytes 2 counter.toNat)
    let blocks := (n + privacyKeySize - 1) / privacyKeySize
    let blocks := if blocks = 0 then 1 else blocks
    .ok ((List.range blocks).flatMap fun i => (aes privacyKey (block (BitVec.ofNat 16 (i + 1)))).toList)

/-- `ApplyPrivacyMask`, returning the slice it changes in place. -/
def applyPrivacyMask (mask headerSlice : List Byte) : Except PrivacyError (List Byte) :=
  if mask.length < privacyKeySize then .error (.maskShort mask.length)
  else if headerSlice.length > mask.length then .error (.sliceTooLong headerSlice.length mask.length)
  else .ok (List.zipWith (· ^^^ ·) headerSlice mask)

/-- The loop of `ApplyPrivacyMask` over the `n` bytes of `buf` from `off` on, in place. -/
def maskLoop (mask : List Byte) (off n : Nat) (buf : List Byte) : List Byte :=
  (List.range n).foldl (fun buf i => buf.modify (off + i) (· ^^^ mask.getD i 0)) buf

/-! ## Sending -/

inductive GroupError
  | notGroupHeader
  | encode (e : MessageError)
  | sourceNodeMismatch (given header : BitVec 64)
  | groupKey (keyLen : Nat)
  | sealFailed (e : Aesccm.Error)
  | headerShort (bytes : Nat)
  | privacy (e : PrivacyError)
deriving DecidableEq

/-- `EncryptGroup`: the header bytes and the ciphertext. -/
def encryptGroup (operationalKey : List Byte) (sourceNodeID : BitVec 64)
    (header : Header) (payload : List Byte) : Except GroupError (List Byte × List Byte) :=
  if header.sessionType ≠ SessionType.group ∨ header.destSize ≠ DestSize.group then .error .notGroupHeader
  else
    match header.marshalPacket with
    | .error e => .error (.encode e)
    | .ok headerBytes =>
      if sourceNodeID ≠ header.sourceNodeID then .error (.sourceNodeMismatch sourceNodeID header.sourceNodeID)
      else if operationalKey.length ≠ 16 then .error (.groupKey operationalKey.length)
      else
        let nonce := buildNonce (headerBytes.getD 3 0) header.messageCounter header.sourceNodeID
        match (CCM.mk (aes operationalKey)).seal [] nonce payload headerBytes with
        | .error e => .error (.sealFailed e)
        | .ok ciphertext => .ok (headerBytes, ciphertext)

def privacyNonce (sessionID : BitVec 16) (mic : List Byte) : Except PrivacyError (List Byte) :=
  if mic.length ≠ privacyMICLength then .error (.micShort mic.length)
  else .ok (beBytes 2 sessionID.toNat ++ mic.drop (privacyMICLength - privacyNonceMICBytes))

/-- `Obfuscate`; its loop runs over the blocks of `data`. -/
def obfuscate (privacyKey data nonce : List Byte) : Except PrivacyError (List Byte) :=
  if privacyKey.length ≠ privacyKeySize then .error (.keySource privacyKey.length)
  else if nonce.length ≠ privacyNonceSize then .error (.nonceSize nonce.length)
  else
    let block (counter : BitVec 16) := toBlock ([privacyCTRFlags] ++ nonce ++ beBytes 2 counter.toNat)
    .ok ((List.range (blockCount data.length)).foldl
      (fun out k =>
        let stream := aes privacyKey (block (BitVec.ofNat 16 (k + 1)))
        out ++ List.zipWith (· ^^^ ·) (chunk data k) stream.toList) [])

def obfuscateGroupHeader (privacyKey : List Byte) (sessionID : BitVec 16)
    (headerBytes ciphertext : List Byte) : Except GroupError (List Byte) :=
  if headerBytes.length < privacyHeaderOffset then .error (.headerShort headerBytes.length)
  else if ciphertext.length < Aesccm.tagSize then .error (.privacy (.micShort ciphertext.length))
  else
    let mic := ciphertext.drop (ciphertext.length - Aesccm.tagSize)
    match privacyNonce sessionID mic with
    | .error e => .error (.privacy e)
    | .ok nonce =>
      match obfuscate aes privacyKey (headerBytes.drop privacyHeaderOffset) nonce with
      | .error e => .error (.privacy e)
      | .ok obfuscated => .ok (headerBytes.take privacyHeaderOffset ++ obfuscated)

end GF.Impl.Channel
