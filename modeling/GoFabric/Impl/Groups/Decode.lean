import GoFabric.Framework.Except
import GoFabric.Impl.Channel.Group
import Mathlib.Data.List.AList
import Mathlib.Data.List.Sort

/-!
# Group messages (`groups/keys.go`, `groups/manager.go`, `groups/decode.go`)

The group state of a node once every fabric is loaded, and `Decode`. AES and
HKDF are parameters; a map is an association list without duplicate keys, and
ranging over a sorted list of its keys is ranging over its sorted entries.
-/

namespace GF.Impl.Groups

open GF.Impl.Aesccm (CCM Block)
open GF.Impl.Channel (privacyKeystream applyPrivacyMask buildNonce PrivacyError)
open GF.Impl.Message (Header SessionType DestSize unmarshalHeader)
open GF.Impl.Mrp (Window newWindowEncryptedRollover)

/-- AES, and HKDF with SHA-256, which gives as many bytes as it is asked
for. -/
structure Crypto where
  aes : List Byte → Block → Block
  hkdf : (secret salt : List Byte) → (info : String) → (keyLength : Nat) → List Byte
  length_hkdf : ∀ secret salt info keyLength, (hkdf secret salt info keyLength).length = keyLength

/-- A map. -/
abbrev GoMap (κ ν : Type) := AList fun _ : κ => ν

variable (K : Crypto)

/-! ## Keys -/

def groupSecurityInfo : String := "GroupKey v1.0"
def groupKeyInfo : String := "GroupKeyHash"
def privacyHKDFInfo : String := "PrivacyKey"
def keySize : Nat := 16

inductive KeyError
  | epochKeyLength (got : Nat)
  | privacyKeySource (got : Nat)
  | ccmKeySize (got : Nat)
  | noEpochKey (keySet : BitVec 16)

def operationalKey (epochKey compressedFabricID : List Byte) : Except KeyError (List Byte) :=
  if epochKey.length ≠ keySize then .error (.epochKeyLength epochKey.length)
  else .ok (K.hkdf epochKey compressedFabricID groupSecurityInfo keySize)

def sessionID (operationalKey : List Byte) : BitVec 16 :=
  BitVec.ofNat 16 (leNat (K.hkdf operationalKey [] groupKeyInfo 2).reverse)

/-- `PrivacyKey`, which is `DerivePrivacyKey`. -/
def privacyKey (operationalKey : List Byte) : Except KeyError (List Byte) :=
  if operationalKey.length ≠ keySize then .error (.privacyKeySource operationalKey.length)
  else .ok (K.hkdf operationalKey [] privacyHKDFInfo keySize)

structure EpochKey where
  key : List Byte
  privacy : List Byte
  sessionID : BitVec 16
  ccm : CCM
  start : BitVec 64

/-- One round of `deriveKeySet`. -/
def deriveEpoch (epochKey compressed : List Byte) (start : BitVec 64) : Except KeyError EpochKey := do
  let op ← operationalKey K epochKey compressed
  let priv ← privacyKey K op
  if op.length ≠ 16 then .error (.ccmKeySize op.length)
  else pure { key := op, privacy := priv, sessionID := sessionID K op, ccm := ⟨K.aes op⟩, start := start }

/-- `store.GroupKeySet`: the slots with their start times. -/
structure GroupKeySet where
  groupKeySetID : BitVec 16
  epochs : Vector (List Byte × BitVec 64) 3

structure KeySet where
  id : BitVec 16
  epochs : List EpochKey

/-- The loop of `deriveKeySet`; an empty slot has no key. -/
def deriveEpochs (compressed : List Byte) : List (List Byte × BitVec 64) → Except KeyError (List EpochKey)
  | [] => .ok []
  | slot :: rest =>
    if slot.1.length = 0 then deriveEpochs compressed rest
    else do
      let e ← deriveEpoch K slot.1 compressed slot.2
      let es ← deriveEpochs compressed rest
      pure (e :: es)

def deriveKeySet (s : GroupKeySet) (compressed : List Byte) : Except KeyError KeySet := do
  let epochs ← deriveEpochs K compressed s.epochs.toList
  if epochs.length = 0 then .error (.noEpochKey s.groupKeySetID)
  else pure { id := s.groupKeySetID, epochs := epochs }

/-- The key was derived from an epoch key, for the fabric. -/
def EpochKey.Derived (compressed : List Byte) (e : EpochKey) : Prop :=
  ∃ epochKey start, deriveEpoch K epochKey compressed start = .ok e

theorem derived_of_deriveEpochs {compressed : List Byte} {slots : List (List Byte × BitVec 64)} {es : List EpochKey}
    (h : deriveEpochs K compressed slots = .ok es) : ∀ e ∈ es, e.Derived K compressed := by
  induction slots generalizing es with
  | nil =>
    obtain rfl := Except.ok.inj h
    nofun
  | cons slot rest ih =>
    unfold deriveEpochs at h
    split at h
    · exact ih h
    obtain ⟨e, he, h⟩ := except_bind_eq_ok.1 h
    obtain ⟨es', hes, h⟩ := except_bind_eq_ok.1 h
    obtain rfl := Except.ok.inj h
    intro x hx
    obtain rfl | hx := List.mem_cons.1 hx
    · exact ⟨slot.1, slot.2, he⟩
    · exact ih hes x hx

/-! ## The group state -/

/-- `fabricGroups`, as far as `Decode` reads it. Its keys were derived for the
fabric. -/
structure FabricGroups where
  index : BitVec 8
  compressed : List Byte
  keySets : GoMap (BitVec 16) KeySet
  idMap : GoMap (BitVec 16) (BitVec 16)
  /-- The endpoints of each group. -/
  table : GoMap (BitVec 16) (List (BitVec 16))
  derived : ∀ s ∈ keySets.entries, ∀ e ∈ s.2.epochs, e.Derived K compressed

/-- The key sets that `loadFabric` holds: one whose keys cannot be derived is
passed over, and so is key set 0, which is kept elsewhere. -/
def loadKeySets (compressed : List Byte) : List GroupKeySet → GoMap (BitVec 16) KeySet → GoMap (BitVec 16) KeySet
  | [], held => held
  | s :: rest, held =>
    match deriveKeySet K s compressed with
    | .error _ => loadKeySets compressed rest held
    | .ok ks => loadKeySets compressed rest (if s.groupKeySetID = 0 then held else held.insert s.groupKeySetID ks)

theorem derived_loadKeySets {compressed : List Byte} {sets : List GroupKeySet} {held : GoMap (BitVec 16) KeySet}
    (hheld : ∀ s ∈ held.entries, ∀ e ∈ s.2.epochs, e.Derived K compressed) :
    ∀ s ∈ (loadKeySets K compressed sets held).entries, ∀ e ∈ s.2.epochs, e.Derived K compressed := by
  induction sets generalizing held with
  | nil => exact hheld
  | cons s rest ih =>
    unfold loadKeySets
    split
    · exact ih hheld
    rename_i ks hks
    refine ih ?_
    split
    · exact hheld
    intro t ht
    rw [AList.entries_insert] at ht
    obtain rfl | ht := List.mem_cons.1 ht
    · obtain ⟨es, hes, h⟩ := except_bind_eq_ok.1 hks
      split at h
      · cases h
      · obtain rfl := Except.ok.inj h
        exact derived_of_deriveEpochs K hes
    · exact hheld t ((List.kerase_sublist _ _).subset ht)

/-- What the store has of a fabric. -/
structure StoredFabric where
  index : BitVec 8
  compressedID : List Byte
  groupKeySets : List GroupKeySet
  groupKeyMappings : List (BitVec 16 × BitVec 16)
  groupTable : List (BitVec 16 × List (BitVec 16))

/-- `loadFabric`, of what the store has returned; a later entry of a list
replaces an earlier one of its id. -/
def loadFabric (r : StoredFabric) : FabricGroups K where
  index := r.index
  compressed := r.compressedID
  keySets := loadKeySets K r.compressedID r.groupKeySets ∅
  idMap := r.groupKeyMappings.foldl (fun m g => m.insert g.1 g.2) ∅
  table := r.groupTable.foldl (fun m g => m.insert g.1 g.2) ∅
  derived := derived_loadKeySets K nofun

/-- `Manager`, with all fabrics loaded: at most one for an index. -/
structure Manager where
  fabrics : List (FabricGroups K)
  reception : List Byte × BitVec 64 → Option Window
  indexes : (fabrics.map FabricGroups.index).Nodup

/-! ## Decoding -/

/-- `Message`. -/
structure GroupMessage where
  header : Header
  payload : List Byte
  fabricIndex : BitVec 8
  groupID : BitVec 16
  sourceNodeID : BitVec 64
  keySetID : BitVec 16
  hasValidMapping : Bool
  endpoints : List (BitVec 16)
  duplicate : Bool
deriving DecidableEq

/-- The errors of `Decode`. -/
inductive DecodeError
  | tooShort (bytes : Nat)
  | notGroupMessage
  | noSourceNode
  /-- `NoKeyError`, with the fabric and the group that an unmapped key set
  revealed. -/
  | noKey (authenticated : Option (BitVec 8 × BitVec 16))
  | groupIDMissing
  | decrypt
deriving DecidableEq

structure Candidate where
  fabric : FabricGroups K
  keySetID : BitVec 16
  epoch : EpochKey

variable {K}

/-- The candidates of one fabric. -/
def FabricGroups.candidates (f : FabricGroups K) (sessionID : BitVec 16) (mapped : Bool) : List (Candidate K) :=
  let inMap (id : BitVec 16) : Bool := f.idMap.entries.any fun m => m.2 == id
  let sets := f.keySets.entries.insertionSort fun a b => a.1 ≤ b.1
  (sets.filter fun s => inMap s.1 == mapped).flatMap fun s =>
    (s.2.epochs.filter fun e => e.sessionID == sessionID).map fun e => { fabric := f, keySetID := s.1, epoch := e }

def Manager.candidates (m : Manager K) (sessionID : BitVec 16) (mapped : Bool) : List (Candidate K) :=
  (m.fabrics.insertionSort fun a b => a.index ≤ b.index).flatMap fun f => f.candidates sessionID mapped

def protectedHeaderEnd (buf : List Byte) : Nat :=
  let flags := buf.getD 0 0
  let len := if flags &&& 0x04 ≠ 0 then 8 + 8 else 8
  if flags &&& 0x03 = 1 then len + 8 else if flags &&& 0x03 = 2 then len + 2 else len

/-- `tryDecrypt` behind the privacy mask. -/
def openUnder (ccm : CCM) (buf : List Byte) : Option (Header × List Byte) :=
  match unmarshalHeader buf with
  | .error _ => none
  | .ok (hdr, hdrLen) =>
    if hdrLen > buf.length then none
    else
      let nonce := buildNonce hdr.nonceSecurityFlags hdr.messageCounter hdr.sourceNodeID
      match ccm.open [] nonce (buf.drop hdrLen) hdr.aad with
      | .error _ => none
      | .ok plain => some (hdr, plain)

variable (K) in
/-- The datagram without its privacy mask. -/
def unmask (buf : List Byte) (sessionID : BitVec 16) (privacyKey : List Byte) : Option (List Byte) :=
  let mic := buf.drop (buf.length - Aesccm.tagSize)
  let stop := protectedHeaderEnd buf
  if stop > buf.length - Aesccm.tagSize then none
  else
    let region := (buf.take stop).drop 4
    match privacyKeystream K.aes privacyKey sessionID mic region.length with
    | .error _ => none
    | .ok mask =>
      match applyPrivacyMask mask region with
      | .error _ => none
      | .ok region => some (buf.take 4 ++ region ++ buf.drop stop)

/-- `tryDecrypt`: the header and the plaintext. -/
def tryDecrypt (datagram : List Byte) (sessionID : BitVec 16) (privacy : Bool) (c : Candidate K) :
    Option (Header × List Byte) :=
  if datagram.length < 4 + Aesccm.tagSize then none
  else if privacy then
    match unmask K datagram sessionID c.epoch.privacy with
    | none => none
    | some buf => openUnder c.epoch.ccm buf
  else openUnder c.epoch.ccm datagram

/-- `completeMessage`: the message, and the reception window that it has moved. -/
def Manager.completeMessage (m : Manager K) (r : Header × List Byte) (c : Candidate K) : GroupMessage × Manager K :=
  let groupID := r.1.destGroupID
  let source := r.1.sourceNodeID
  let hasValidMapping :=
    match (c.fabric.idMap.lookup groupID).bind c.fabric.keySets.lookup with
    | some ks => ks.epochs.any fun e => e.key == c.epoch.key
    | none => false
  let window := (m.reception (c.epoch.key, source)).getD newWindowEncryptedRollover
  let accepted := window.accept r.1.messageCounter
  let msg : GroupMessage :=
    { header := r.1, payload := r.2, fabricIndex := c.fabric.index, groupID := groupID, sourceNodeID := source,
      keySetID := c.keySetID, hasValidMapping := hasValidMapping,
      endpoints := (c.fabric.table.lookup groupID).getD [], duplicate := !accepted.1 }
  (msg, { m with reception := fun k => if k = (c.epoch.key, source) then some accepted.2 else m.reception k })

/-- The first candidate that authenticates the datagram. -/
def firstMatch (datagram : List Byte) (sessionID : BitVec 16) (privacy : Bool) (cands : List (Candidate K)) :
    Option (Candidate K × Header × List Byte) :=
  cands.findSome? fun c => (tryDecrypt datagram sessionID privacy c).map fun r => (c, r)

/-- What a key set that no group is mapped to reveals. -/
def Manager.unmapped (m : Manager K) (datagram : List Byte) (sessionID : BitVec 16) (privacy : Bool) :
    Option (BitVec 8 × BitVec 16) :=
  (m.candidates sessionID false).findSome? fun c =>
    match tryDecrypt datagram sessionID privacy c with
    | some (hdr, _) => if hdr.destSize = DestSize.group then some (c.fabric.index, hdr.destGroupID) else none
    | none => none

def Manager.decode (m : Manager K) (datagram : List Byte) : Except DecodeError GroupMessage × Manager K :=
  if datagram.length < 4 then (.error (.tooShort datagram.length), m)
  else
    let secFlags := datagram.getD 3 0
    if secFlags &&& 0x03 ≠ SessionType.group then (.error .notGroupMessage, m)
    else
      let sessionID := BitVec.ofNat 16 (leNat ((datagram.drop 1).take 2))
      if datagram.getD 0 0 &&& 0x04 = 0 then (.error .noSourceNode, m)
      else
        let privacy := secFlags &&& 0x80 != 0
        let cands := m.candidates sessionID true
        if cands.length = 0 then (.error (.noKey (m.unmapped datagram sessionID privacy)), m)
        else
          match firstMatch datagram sessionID privacy cands with
          | none => (.error .decrypt, m)
          | some (c, hdr, plain) =>
            if hdr.destSize ≠ DestSize.group ∨ hdr.destGroupID = 0 then (.error .groupIDMissing, m)
            else
              let r := m.completeMessage (hdr, plain) c
              (.ok r.1, r.2)

end GF.Impl.Groups
