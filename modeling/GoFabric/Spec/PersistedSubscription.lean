import GoFabric.Impl.Im.Persistence
import Mathlib.Algebra.Ring.Int.Defs

/-!
# What a persisted subscription keeps

Two records are of the same subscription when they agree on all that its reports
depend on. A value of a path whose flag is clear is not read.
-/

namespace GF.Spec.PersistedSubscription

open GF.Impl.Im
open GF.Impl.Im.Wire (ConcreteEventPath)

/-- The library reads back the shape that it wrote. -/
def Faithful {T E : Type} (json : JsonCodec T E) : Prop :=
  ∀ w, ∃ text, json.marshal w = .ok text ∧ json.unmarshal text = .ok w

/-- A value behind its flag. -/
def shown {n : Nat} (has : Bool) (v : BitVec n) : BitVec n := if has then v else 0

/-- An attribute path as it is read. -/
def seenAttributePath (a : ConcreteAttributePath) : ConcreteAttributePath :=
  { a with
    node := shown a.hasNode a.node
    endpoint := shown a.hasEndpoint a.endpoint
    cluster := shown a.hasCluster a.cluster
    attributeID := shown a.hasAttribute a.attributeID
    listIndex := shown a.hasListIndex a.listIndex
    wildcardFilterConfigurationVersion :=
      shown a.hasWildcardFilterConfigurationVersion a.wildcardFilterConfigurationVersion }

/-- An event path as it is read. -/
def seenEventPath (e : ConcreteEventPath) : ConcreteEventPath :=
  { e with
    node := shown e.hasNode e.node
    endpoint := shown e.hasEndpoint e.endpoint
    cluster := shown e.hasCluster e.cluster
    event := shown e.hasEvent e.event }

/-- A record with its paths as they are read. -/
def seen (p : PeerSubscription) : PeerSubscription :=
  { p with
    attributeRequests := p.attributeRequests.map seenAttributePath
    eventRequests := p.eventRequests.map seenEventPath }

/-- The records are of the same subscription. -/
def SameSubscription (p q : PeerSubscription) : Prop := seen p = seen q
deriving Decidable

/-- The record comes back from the store as the same subscription. -/
def Survives {T E : Type} (json : JsonCodec T E) (p : PeerSubscription) : Prop :=
  ∃ text q, marshalPeerSubscription json p = .ok text ∧ unmarshalPeerSubscription json text = .ok q ∧
    SameSubscription q p

/-- The path says nothing that the shape has no member for. -/
def Kept (a : ConcreteAttributePath) : Prop :=
  a.wildcardPathFlags = 0 ∧ a.hasWildcardFilterConfigurationVersion = false ∧ a.listAppend = false
deriving Decidable

end GF.Spec.PersistedSubscription
