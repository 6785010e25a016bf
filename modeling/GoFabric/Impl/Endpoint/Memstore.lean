import Mathlib.Data.List.AList
import GoFabric.Framework.System

/-!
# The endpoint store (`endpoint/memstore/memstore.go`)

Endpoint numbers by source key. A key is the one that `SourceKey.String` renders. A
map is an association list; the order of its entries is not looked at.
-/

namespace GF.Impl.Endpoints.Memstore

variable {κ : Type} [DecidableEq κ]

def endpointIDMin : Nat := 1

def allocMin : Nat := 2

def endpointIDMax : Nat := 65534

structure Record (κ : Type) where
  key : κ
  scope : String := ""
  endpointID : Nat := 0
  deviceType : BitVec 16 := 0

inductive StoreError (κ : Type)
  | notFound
  | outside (id : Nat)
  | held (id : Nat) (holder : κ)
  | exhausted

/-- `Store`: the rows by key, the keys by number, the counter, and the highest number
that a row holds. -/
structure Store (κ : Type) where
  rows : AList fun _ : κ => Record κ
  byID : AList fun _ : Nat => κ
  next : Nat
  highest : Nat

namespace Store

variable (s : Store κ)

def new : Store κ := { rows := ∅, byID := ∅, next := allocMin, highest := 0 }

/-- `firstFree`: 0 if there is none. -/
def firstFree (lo hi : Nat) : Nat :=
  ((List.range' lo (hi + 1 - lo)).find? fun n => (s.byID.lookup n).isNone).getD 0

/-- Where `allocate` begins. -/
def start : Nat := max s.next (s.highest + 1)

/-- The number that `allocate` takes: 0 if there is none. -/
def candidate : Nat :=
  if s.firstFree s.start endpointIDMax = 0 then s.firstFree allocMin (min (s.start - 1) endpointIDMax)
  else s.firstFree s.start endpointIDMax

def allocate : Except (StoreError κ) (Nat × Store κ) :=
  if s.candidate = 0 then .error .exhausted else .ok (s.candidate, { s with next := s.candidate + 1 })

/-- The row of a new key. -/
def insertRow (rec : Record κ) : Store κ :=
  { s with
    rows := s.rows.insert rec.key rec
    byID := s.byID.insert rec.endpointID rec.key
    highest := max s.highest rec.endpointID }

def upsertEndpointAssigning (rec : Record κ) : Except (StoreError κ) (Nat × Store κ) :=
  match s.rows.lookup rec.key with
  | some old =>
    .ok (old.endpointID, { s with rows := s.rows.insert rec.key { rec with endpointID := old.endpointID } })
  | none =>
    if rec.endpointID ≠ 0 then
      if rec.endpointID < endpointIDMin ∨ endpointIDMax < rec.endpointID then .error (.outside rec.endpointID)
      else
        match s.byID.lookup rec.endpointID with
        | some holder => .error (.held rec.endpointID holder)
        | none => .ok (rec.endpointID, { s with next := max s.next (rec.endpointID + 1) }.insertRow rec)
    else do
      let (id, s) ← s.allocate
      pure (id, s.insertRow { rec with endpointID := id })

def removeEndpoint (key : κ) : Store κ :=
  match s.rows.lookup key with
  | some rec =>
    let byID := s.byID.erase rec.endpointID
    { s with
      rows := s.rows.erase key
      byID := byID
      highest := if rec.endpointID = s.highest then byID.keys.foldl max 0 else s.highest }
  | none => s

end Store

/-- A call on the store. -/
inductive Call (κ : Type)
  | upsert (rec : Record κ)
  | remove (key : κ)

/-- The store after a call. A call that fails changes nothing. -/
def Store.after (s : Store κ) : Call κ → Store κ
  | .upsert rec =>
    match s.upsertEndpointAssigning rec with
    | .ok (_, s') => s'
    | .error _ => s
  | .remove key => s.removeEndpoint key

/-- The calls on a store. -/
def system (κ : Type) [DecidableEq κ] : System (Store κ) (Call κ) where
  step s call := some (s.after call)

end GF.Impl.Endpoints.Memstore
