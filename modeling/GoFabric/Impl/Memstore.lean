import Mathlib.Data.List.AList
import GoFabric.Framework.Bytes
import GoFabric.Framework.System

/-!
# The credential store (`store/memstore/memstore.go`)

Fabrics by index, the rows that belong to a fabric, and the resumption records. A map
is an association list; the order of its entries is not looked at. What a fabric has
in a table other than that of the resumption records is one value of the type
`Row table`.
-/

namespace GF.Impl.Memstore

structure FabricRecord where
  fabricIndex : Nat
  fabricID : BitVec 64
  nodeID : BitVec 64
  rootPublicKey : List Byte
  rootCert : List Byte
  vendorID : BitVec 16
  label : String
  compressedID : BitVec 64

/-- `store.ResumptionRecord`, as a store keeps it. -/
structure ResumptionRecord where
  fabricIndex : Nat
  peerNodeID : BitVec 64
  resumptionID : List Byte
  sharedSecret : List Byte
  caseAuthTags : List (BitVec 32)

/-- The tables that a fabric has rows in, but for the resumption records. -/
inductive Table
  | identities | acl | keySets | keyMap | groupTable | groupcast | otaDefault | icd
deriving DecidableEq

inductive StoreError
  | fabricExhausted
  | indexOutside (index : Nat)
  | indexTaken (index : Nat)
  | fabricExists (fabricID : BitVec 64) (index : Nat)
  | fabricNotFound
  | unknownFabric (index : Nat)
  | resumptionIDLength (length : Nat)
  | sharedSecretLength (length : Nat)
  | resumptionIDHeld
  | metadataOverflows (value : BitVec 64)

/-- `Store`. The counter is the entry `next_fabric_index` of the metadata. -/
structure Store (Row : Table → Type) where
  fabrics : AList fun _ : Nat => FabricRecord
  rows : (t : Table) → AList fun _ : Nat => Row t
  resumption : AList fun _ : Nat × BitVec 64 => ResumptionRecord
  nextFabricIndex : Nat

def nextIndex (i : Nat) : Nat := if i ≥ 254 then 1 else i + 1

namespace Store

variable {Row : Table → Type}

def new : Store Row := { fabrics := ∅, rows := fun _ => ∅, resumption := ∅, nextFabricIndex := 1 }

variable (s : Store Row)

variable (fabricIndex : Nat)

def hasFabric : Bool := (s.fabrics.lookup fabricIndex).isSome

def counter : Nat :=
  if s.nextFabricIndex < 1 ∨ 254 < s.nextFabricIndex then 1 else s.nextFabricIndex

/-- The loop of `nextFreeFrom`, with the turns that are left. -/
def nextFreeFromLoop (s : Store Row) : Nat → Nat → Nat
  | 0, candidate => candidate
  | n + 1, candidate => if s.hasFabric candidate then s.nextFreeFromLoop n (nextIndex candidate) else candidate

def nextFreeFrom (candidate : Nat) : Nat := s.nextFreeFromLoop 254 candidate

/-- The loop of `bumpCounter`, with the turns that are left. -/
def bumpCounterLoop (s : Store Row) : Nat → Nat → Store Row
  | 0, _ => s
  | n + 1, next =>
    if s.hasFabric (nextIndex next) then s.bumpCounterLoop n (nextIndex next)
    else { s with nextFabricIndex := nextIndex next }

def bumpCounter : Store Row := s.bumpCounterLoop 254 s.counter

/-- The stored fabric with the identifier and the root of the record. -/
def sameFabric (rec : FabricRecord) : Option FabricRecord :=
  (s.fabrics.entries.map (·.2)).find? fun f => f.fabricID = rec.fabricID ∧ f.rootPublicKey = rec.rootPublicKey

/-- The store with the fabric under the index. -/
def insertFabric (rec : FabricRecord) (idx : Nat) : Store Row :=
  { s with fabrics := s.fabrics.insert idx { rec with fabricIndex := idx } }

/-- `AddFabric`, from the index on. -/
def addFabricAt (rec : FabricRecord) (idx : Nat) : Except StoreError (Store Row) :=
  if idx < 1 ∨ 254 < idx then .error (.indexOutside idx)
  else if s.hasFabric idx then .error (.indexTaken idx)
  else
    match s.sameFabric rec with
    | some f => .error (.fabricExists rec.fabricID f.fabricIndex)
    | none => .ok (s.insertFabric rec idx)

def addFabric (rec : FabricRecord) : Except StoreError (Nat × Store Row) :=
  if rec.fabricIndex = 0 then
    if s.fabrics.keys.length ≥ 254 then .error .fabricExhausted
    else do
      let idx := s.nextFreeFrom s.counter
      let s ← s.addFabricAt rec idx
      pure (idx, s.bumpCounter)
  else do
    let s ← s.addFabricAt rec rec.fabricIndex
    pure (rec.fabricIndex, s)

def updateFabric (change : FabricRecord → FabricRecord) : Except StoreError (Store Row) :=
  match s.fabrics.lookup fabricIndex with
  | some f => .ok { s with fabrics := s.fabrics.insert fabricIndex (change f) }
  | none => .error .fabricNotFound

def updateFabricLabel (label : String) : Except StoreError (Store Row) :=
  s.updateFabric fabricIndex fun f => { f with label := label }

def updateFabricVendorID (vendorID : BitVec 16) : Except StoreError (Store Row) :=
  s.updateFabric fabricIndex fun f => { f with vendorID := vendorID }

def updateFabricNodeID (nodeID : BitVec 64) : Except StoreError (Store Row) :=
  s.updateFabric fabricIndex fun f => { f with nodeID := nodeID }

def removeResumptionsByFabric : Store Row :=
  { s with
    resumption :=
      ⟨s.resumption.entries.filter fun e => e.1.1 ≠ fabricIndex,
        List.NodupKeys.sublist List.filter_sublist s.resumption.nodupKeys⟩ }

def removeFabric : Except StoreError (Store Row) :=
  if s.hasFabric fabricIndex then
    .ok ({ s with
      fabrics := s.fabrics.erase fabricIndex
      rows := fun t => (s.rows t).erase fabricIndex }.removeResumptionsByFabric fabricIndex)
  else .error .fabricNotFound

/-- A write of what a fabric has in a table: `UpsertIdentity`, `ReplaceACL`,
`UpsertGroupKeySet`, `SetGroupKeyMapping`, `UpsertGroupTableEntry`,
`UpsertGroupcastGroup`, `ReplaceDefaultOTAProviders` and `ReplaceICDRegistrations`. -/
def writeRow (t : Table) (fabricIndex : Nat) (row : Row t) : Except StoreError (Store Row) :=
  if s.hasFabric fabricIndex then
    .ok { s with rows := Function.update s.rows t ((s.rows t).insert fabricIndex row) }
  else .error (.unknownFabric fabricIndex)

/-- A removal from what a fabric has in a table: the `Remove` functions of the groups, and
a replacement by nothing. It does not ask whether the fabric is stored. -/
def dropRow (t : Table) (fabricIndex : Nat) (keep : Row t → Option (Row t)) : Store Row :=
  match (s.rows t).lookup fabricIndex with
  | none => s
  | some row =>
    match keep row with
    | some row => { s with rows := Function.update s.rows t ((s.rows t).insert fabricIndex row) }
    | none => { s with rows := Function.update s.rows t ((s.rows t).erase fabricIndex) }

def upsertResumption (rec : ResumptionRecord) : Except StoreError (Store Row) :=
  if rec.resumptionID.length ≠ 16 then .error (.resumptionIDLength rec.resumptionID.length)
  else if rec.sharedSecret.length ≠ 32 then .error (.sharedSecretLength rec.sharedSecret.length)
  else if !s.hasFabric rec.fabricIndex then .error (.unknownFabric rec.fabricIndex)
  else if s.resumption.entries.any fun e =>
      e.1 ≠ (rec.fabricIndex, rec.peerNodeID) ∧ e.2.resumptionID = rec.resumptionID then
    .error .resumptionIDHeld
  else .ok { s with resumption := s.resumption.insert (rec.fabricIndex, rec.peerNodeID) rec }

def removeResumption (peerNodeID : BitVec 64) : Store Row :=
  { s with resumption := s.resumption.erase (fabricIndex, peerNodeID) }

/-- `SetMetadataCounter` of the key `next_fabric_index`. -/
def setMetadataCounter (value : BitVec 64) : Except StoreError (Store Row) :=
  if 2 ^ 62 < value.toNat then .error (.metadataOverflows value) else .ok { s with nextFabricIndex := value.toNat }

end Store

/-- A call on the store. -/
inductive Call (Row : Table → Type)
  | addFabric (rec : FabricRecord)
  | updateFabricLabel (fabricIndex : Nat) (label : String)
  | updateFabricVendorID (fabricIndex : Nat) (vendorID : BitVec 16)
  | updateFabricNodeID (fabricIndex : Nat) (nodeID : BitVec 64)
  | removeFabric (fabricIndex : Nat)
  | writeRow (t : Table) (fabricIndex : Nat) (row : Row t)
  | dropRow (t : Table) (fabricIndex : Nat) (keep : Row t → Option (Row t))
  | upsertResumption (rec : ResumptionRecord)
  | removeResumption (fabricIndex : Nat) (peerNodeID : BitVec 64)
  | removeResumptionsByFabric (fabricIndex : Nat)
  | setMetadataCounter (value : BitVec 64)
  | erase

variable {Row : Table → Type}

/-- The store after a call that may fail: a call that fails changes nothing. -/
def Store.orKeep (s : Store Row) : Except StoreError (Store Row) → Store Row
  | .ok s' => s'
  | .error _ => s

/-- The store after a call. -/
def Store.after (s : Store Row) : Call Row → Store Row
  | .addFabric rec => s.orKeep ((s.addFabric rec).map (·.2))
  | .updateFabricLabel i label => s.orKeep (s.updateFabricLabel i label)
  | .updateFabricVendorID i vendorID => s.orKeep (s.updateFabricVendorID i vendorID)
  | .updateFabricNodeID i nodeID => s.orKeep (s.updateFabricNodeID i nodeID)
  | .removeFabric i => s.orKeep (s.removeFabric i)
  | .writeRow t i row => s.orKeep (s.writeRow t i row)
  | .dropRow t i keep => s.dropRow t i keep
  | .upsertResumption rec => s.orKeep (s.upsertResumption rec)
  | .removeResumption i peer => s.removeResumption i peer
  | .removeResumptionsByFabric i => s.removeResumptionsByFabric i
  | .setMetadataCounter value => s.orKeep (s.setMetadataCounter value)
  | .erase => .new

/-- The calls on a store. -/
def system (Row : Table → Type) : System (Store Row) (Call Row) where
  step s call := some (s.after call)

end GF.Impl.Memstore
