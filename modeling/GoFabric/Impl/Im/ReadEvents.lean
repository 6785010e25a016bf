import GoFabric.Impl.Im.Subscription
import Mathlib.Data.List.Sort

/-!
# Event reads (`im/read.go`)

`BuildEventReports` asks the log for each path and merges the answers;
`AuthorizeEventReports` keeps of them what the accessing subject may see.
-/

namespace GF.Impl.Im

open GF.Impl.Im.Wire (ConcreteEventPath EventReport EventMinimumNumber)

/-! ## Selection -/

def minEventNumberFromFilters : List EventMinimumNumber → BitVec 64
  | [] => 0
  | f :: _ => f.eventMin

section Selection

variable {α : Type}

/-- The query of `BuildEventReports` for a path. -/
def queryPath (log : EventLog α) (path : ConcreteEventPath) (minNumber : BitVec 64) : List (EventRecord α) :=
  let ep := if path.hasEndpoint then path.endpoint else 0xFFFF
  let cl := if path.hasCluster then path.cluster else 0xFFFFFFFF
  let ev := if path.hasEvent then path.event else 0xFFFFFFFF
  log.query ep cl ev minNumber

/-- One record of the inner loop of `BuildEventReports`: the numbers seen, and `out`. -/
def addUnseen (acc : List (BitVec 64) × List (EventReport α)) (rec : EventRecord α) :
    List (BitVec 64) × List (EventReport α) :=
  if acc.1.contains rec.number then acc else (rec.number :: acc.1, acc.2 ++ [eventReport rec])

/-- `BuildEventReports`. The numbers in `out` differ, so that the sort has one
result. -/
def buildEventReports (paths : List ConcreteEventPath) (log : Option (EventLog α))
    (filters : List EventMinimumNumber) : List (EventReport α) :=
  match log with
  | none => []
  | some log =>
    if paths.isEmpty then []
    else
      let minNumber := minEventNumberFromFilters filters
      let out := (paths.foldl (fun acc path => (queryPath log path minNumber).foldl addUnseen acc) ([], [])).2
      out.insertionSort fun a b => a.number ≤ b.number

end Selection

/-! ## Authorization -/

/-- A field of a payload struct, by the kinds that `eventPayloadFabricIndex` tells
apart. -/
inductive PayloadField
  | uint (v : BitVec 64)
  | uint8 (v : BitVec 8)
  | uint16 (v : BitVec 16)
  | uint32 (v : BitVec 32)
  | uint64 (v : BitVec 64)
  | other

/-- A payload that is not nil: a pointer, a struct with the fields that `FieldByName`
finds, or a value of another kind. -/
inductive EventPayload
  | nilPointer
  | pointer (target : EventPayload)
  | record (fields : List (String × PayloadField))
  | other

/-- `f.Uint()`, for the kinds that have it. -/
def PayloadField.number : PayloadField → Option Nat
  | .uint v | .uint64 v => some v.toNat
  | .uint8 v => some v.toNat
  | .uint16 v => some v.toNat
  | .uint32 v => some v.toNat
  | .other => none

/-- `eventPayloadFabricIndex`, behind its test for nil. -/
def EventPayload.fabricIndex : EventPayload → Option (BitVec 8)
  | .nilPointer => none
  | .pointer target => target.fabricIndex
  | .record fields => do
    let f ← fields.lookup "FabricIndex"
    let n ← f.number
    pure (BitVec.ofNat 8 (n &&& 0xFF))
  | .other => none

def eventPayloadFabricIndex (payload : Option EventPayload) : Option (BitVec 8) :=
  payload.bind EventPayload.fabricIndex

def matterAccessControlClusterID : BitVec 32 := 0x001F
def matterGroupcastClusterID : BitVec 32 := 0x0065
def matterCommissionerControlClusterID : BitVec 32 := 0x0751
def matterMessagesClusterID : BitVec 32 := 0x0097
def matterAccountLoginClusterID : BitVec 32 := 0x050E

def eventReadPrivilege (clusterID : BitVec 32) : BitVec 8 :=
  if clusterID = matterAccessControlClusterID ∨ clusterID = matterGroupcastClusterID ∨
      clusterID = matterAccountLoginClusterID then 5
  else if clusterID = matterCommissionerControlClusterID then 4
  else 1

def isFabricSensitiveEventCluster (clusterID : BitVec 32) : Bool :=
  clusterID == matterAccessControlClusterID || clusterID == matterGroupcastClusterID ||
    clusterID == matterCommissionerControlClusterID || clusterID == matterMessagesClusterID ||
    clusterID == matterAccountLoginClusterID

/-- `EventReadAuthorizer`, but for `Paths`. -/
structure EventReadAuthorizer where
  checker : Option CheckACL
  fabricIndex : BitVec 8
  pase : Bool
  subjectNodeID : BitVec 64
  subjectCATs : List (BitVec 32)

/-- The subject that the checks of an authorizer are about. -/
def EventReadAuthorizer.subject (auth : EventReadAuthorizer) : Subject :=
  { fabricIndex := auth.fabricIndex, nodeID := auth.subjectNodeID, cats := auth.subjectCATs, pase := auth.pase }

/-- `AuthorizeEventReports`, where `ctxPASE` is what `IsPASEFromContext` says. -/
def authorizeEventReports (ctxPASE : Bool) (auth : EventReadAuthorizer) (events : List (EventReport EventPayload)) :
    List (EventReport EventPayload) :=
  match auth.checker with
  | none => events
  | some c =>
    if auth.pase ∨ ctxPASE then events
    else
      events.foldl
        (fun out ev =>
          let priv := eventReadPrivilege ev.path.cluster
          let status := checkSubjectACL c auth.subject ev.path.endpoint ev.path.cluster priv
          if !status.isSuccess then out
          else if isFabricSensitiveEventCluster ev.path.cluster then
            match eventPayloadFabricIndex ev.data.value with
            | none => out
            | some recFabric => if recFabric ≠ auth.fabricIndex then out else out ++ [ev]
          else out ++ [ev])
        []

end GF.Impl.Im
