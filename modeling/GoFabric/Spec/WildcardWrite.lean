import GoFabric.Impl.Endpoint.Dispatcher

/-!
# What a wildcard write is for

A write whose path leaves the endpoint open stands for one write to each
endpoint it matches. `Independent` says that `WriteAuthorized` does just
that: what it hands to an endpoint's server and answers for it is what the
call on the endpoint's own path would. The other definitions are about the
call's input alone: which endpoints it matches, and what a list append finds
there.
-/

namespace GF.Spec.WildcardWrite

open GF.Impl.Im GF.Impl.Endpoints

variable {S O : Type}

/-- The results that name the endpoint `e`. -/
def resultsAt (st : WriteLoop S O) (e : BitVec 16) : List WriteResult :=
  st.results.filter fun r => r.path.hasEndpoint && r.path.endpoint == e

/-- What the server on the endpoint `e` was handed. -/
def handedAt (st : WriteLoop S O) (e : BitVec 16) : List (Handed O) :=
  st.handed.filter fun h => h.endpoint == e

/-- `path` with the endpoint `e`. -/
def concretePath (path : ConcreteAttributePath) (e : BitVec 16) : ConcreteAttributePath :=
  { path with endpoint := e, hasEndpoint := true }

section

variable (d : TopologyDispatcher S O) (timed : Option Bool) (world : BitVec 16 → S)
  (path : ConcreteAttributePath) (v : AttributeValue (Any O)) (authorize : Option WriteAuthorizer)

/-- The attribute of `path` may be written on `srv` at `ep`. -/
def admits (ep : Endpoint) (srv : ClusterServer S O) : Bool :=
  !isGlobalAttribute path.attributeID && attributeListed srv path.attributeID &&
    d.attributeWritable srv.matterClusterID path.attributeID != some false &&
    (authorizeStatus authorize ep.id srv.matterClusterID path.attributeID).isSuccess &&
    !(timed == some false && d.isTimedWrite srv.matterClusterID path.attributeID)

/-- The server of `ep` that a path with a cluster and an attribute matches. -/
def matched (ep : Endpoint) : Option (ClusterServer S O) :=
  ((d.clusterServers ep).find? fun srv => srv.matterClusterID == path.cluster).filter
    (admits d timed path authorize ep)

/-- Every endpoint that the path matches is written as by a call of its own. -/
def Independent : Prop :=
  ∀ ep ∈ d.topology, matched d timed path authorize ep ≠ none →
    resultsAt (d.writeAuthorized timed world path v authorize) ep.id =
        (d.writeAuthorized timed world (concretePath path ep.id) v authorize).results ∧
      handedAt (d.writeAuthorized timed world path v authorize) ep.id =
        (d.writeAuthorized timed world (concretePath path ep.id) v authorize).handed

/-- An element that `ep`'s list takes: `ep` is matched, and its list and the
value are of one type. -/
def Appends (ep : Endpoint) : Prop :=
  ∃ srv, matched d timed path authorize ep = some srv ∧
    (appendListValue srv (world ep.id) path.attributeID v).isSome

/-- An element that `ep`'s list takes, where the list is not empty. -/
def Lengthens (ep : Endpoint) : Prop :=
  ∃ srv type item items, matched d timed path authorize ep = some srv ∧
    v.value = some (.slice type [item]) ∧
    currentValue srv (world ep.id) path.attributeID = some (some (.slice type items)) ∧ items ≠ []

/-- Of the endpoints that are matched, besides the root, number 1 is an aggregator and no
other is. -/
def AggregatorIsOne : Prop :=
  ∀ ep ∈ d.topology, matched d timed path authorize ep ≠ none → ep.id ≠ 0 → (ep.id = 1 ↔ ep.isAggregator = true)

/-- No list that the element is appended to follows one that was not empty. -/
def NoLongerListBefore : Prop :=
  ∀ before ep after, d.resolveEndpoints path = before ++ ep :: after → ∀ ep' ∈ before,
    Lengthens d timed world path v authorize ep' → ¬ Appends d timed world path v authorize ep

end

end GF.Spec.WildcardWrite
