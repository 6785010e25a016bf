import GoFabric.Impl.Groups.Decode

/-!
# Group messages between a sender and a receiver

What a sender puts on the wire, and what it means for a receiver to hold the key
of a group.
-/

namespace GF.Spec.GroupMessage

open GF.Impl.Aesccm (Block)
open GF.Impl.Channel GF.Impl.Groups
open GF.Impl.Message (Header)

/-- The header on the wire, masked if it asks for privacy. -/
def wireHeader (aes : List Byte → Block → Block) (e : EpochKey) (header : Header) (headerBytes ciphertext : List Byte) :
    Except GroupError (List Byte) :=
  if header.privacy then obfuscateGroupHeader aes e.privacy header.sessionID headerBytes ciphertext
  else .ok headerBytes

/-- A group message as it goes on the wire. -/
def sentDatagram (aes : List Byte → Block → Block) (e : EpochKey) (source : BitVec 64) (header : Header)
    (payload : List Byte) : Except GroupError (List Byte) := do
  let r ← encryptGroup aes e.key source header payload
  let w ← wireHeader aes e header r.1 r.2
  pure (w ++ r.2)

variable {K : Crypto}

/-- The key set that the fabric maps the group to has this epoch key. -/
def MapsTo (f : FabricGroups K) (groupID : BitVec 16) (e : EpochKey) : Prop :=
  ∃ id ks, f.idMap.lookup groupID = some id ∧ f.keySets.lookup id = some ks ∧ e ∈ ks.epochs

/-- No candidate authenticates the datagram but with this key of this fabric. -/
def OnlyUnder (m : Manager K) (f : FabricGroups K) (e : EpochKey) (header : Header) (datagram : List Byte) : Prop :=
  ∀ c ∈ m.candidates header.sessionID true, (tryDecrypt datagram header.sessionID header.privacy c).isSome →
    c.fabric.index = f.index ∧ c.epoch.key = e.key
deriving Decidable

/-- The header as a receiver has it: with its bytes, and without a destination
node id, which a group message does not carry. -/
def receivedHeader (header : Header) : Header := { header with destNodeID := 0, raw := header.marshal }

end GF.Spec.GroupMessage
