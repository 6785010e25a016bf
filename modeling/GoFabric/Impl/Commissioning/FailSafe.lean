import GoFabric.Framework.Bytes

/-!
# The fail-safe (`cluster/core/general_commissioning.go`, `cluster/core/operational_credentials.go`, `node/root.go`)

What each call does while it holds the mutex of its cluster, and which callbacks
it makes once it has released it. A time is in nanoseconds. The gate of the terms and
conditions, the state of the commissioning window and the verdict on a
certificate chain are inputs of a call.
-/

namespace GF.Impl.Commissioning

abbrev FabricIndex := BitVec 8

def second : Int := 1000000000

/-- The callbacks that `node/root.go` wires, and the watcher goroutine. -/
inductive Callback
  /-- `onFailSafeArmed`: `ClearPendingState` -/
  | failSafeArmed
  /-- `onFailSafeExpired`: `OnFailSafeExpiry` -/
  | failSafeExpired
  /-- `onCommissioningComplete`: `ClearPendingState` -/
  | commissioned
  /-- `go watchFailSafeExpiry` -/
  | watch (expiresAt : Int)
deriving DecidableEq

/-- `CommissioningErrorEnum`. -/
inductive CommissioningError
  | ok
  | valueOutsideRange
  | invalidAuthentication
  | noFailSafe
  | busyWithOtherAdmin
  | requiredTCNotAccepted
  | tcAcknowledgementsNotReceived
  | tcMinVersionNotMet
deriving DecidableEq

/-- `ArmFailSafeResponse` and `CommissioningCompleteResponse`. -/
structure Response where
  errorCode : CommissioningError
  debugText : String := ""

/-! ## GeneralCommissioning -/

/-- `GeneralCommissioning`, with its fail-safe. -/
structure GeneralCommissioning where
  breadcrumb : BitVec 64
  failSafeArmed : Bool
  failSafeExpiresAt : Int
  failSafeFabricIndex : FabricIndex
  failSafeCumulativeStarted : Bool
  failSafeCumulativeDeadline : Int
  cumulativeFailSafeMaxSec : BitVec 16

namespace GeneralCommissioning

variable (g : GeneralCommissioning)

/-- The fields of a fail-safe that is disarmed. -/
def disarmed : GeneralCommissioning :=
  { g with failSafeArmed := false, failSafeFabricIndex := 0, failSafeCumulativeStarted := false }

/-- `handleArmFailSafe`, at the time `now`, of a session of the fabric
`sessFabric`. -/
def armFailSafe (now : Int) (sessFabric : FabricIndex) (expiryLengthSeconds : BitVec 16)
    (breadcrumb : BitVec 64) (windowOpen : Bool) : Response × GeneralCommissioning × List Callback :=
  if !g.failSafeArmed ∧ sessFabric ≠ 0 ∧ windowOpen then
    ({ errorCode := .busyWithOtherAdmin
       debugText := "cannot arm fail-safe over CASE while a commissioning window is open" }, g, [])
  else if g.failSafeArmed ∧ g.failSafeFabricIndex ≠ sessFabric then
    let owner := g.failSafeFabricIndex.toNat
    let asking := sessFabric.toNat
    ({ errorCode := .busyWithOtherAdmin
       debugText := s!"fail-safe owned by fabric {owner}; requesting fabric {asking} rejected" }, g, [])
  else if expiryLengthSeconds = 0 then
    ({ errorCode := .ok }, { g.disarmed with breadcrumb := if g.failSafeArmed then 0 else g.breadcrumb },
      if g.failSafeArmed then [.failSafeExpired] else [])
  else if g.failSafeCumulativeStarted ∧ now > g.failSafeCumulativeDeadline then
    let cap := g.cumulativeFailSafeMaxSec.toNat
    ({ errorCode := .busyWithOtherAdmin
       debugText := s!"cumulative fail-safe cap of {cap} s exceeded" }, g, [])
  else
    let deadline :=
      if !g.failSafeCumulativeStarted then now + g.cumulativeFailSafeMaxSec.toNat * second
      else g.failSafeCumulativeDeadline
    let expiresAt := min (now + expiryLengthSeconds.toNat * second) deadline
    ({ errorCode := .ok },
      { g with
        failSafeArmed := true, failSafeExpiresAt := expiresAt, failSafeFabricIndex := sessFabric
        failSafeCumulativeStarted := true, failSafeCumulativeDeadline := deadline, breadcrumb := breadcrumb },
      .watch expiresAt :: if !g.failSafeArmed then [.failSafeArmed] else [])

/-- `watchFailSafeExpiry` after its timer, at the time `now`. -/
def watchFailSafeExpiry (now : Int) : GeneralCommissioning × List Callback :=
  if g.failSafeArmed ∧ g.failSafeExpiresAt ≤ now then
    ({ g with failSafeArmed := false, breadcrumb := 0, failSafeCumulativeStarted := false }, [.failSafeExpired])
  else (g, [])

/-- `handleCommissioningComplete`; `terms` is what the gate of the terms and
conditions answers, and `committed` whether they were stored. -/
def commissioningComplete (sessFabric : FabricIndex) (pase : Bool)
    (terms : CommissioningError) (committed : Bool) : Option Response × GeneralCommissioning × List Callback :=
  if sessFabric = 0 ∨ pase then
    (some { errorCode := .invalidAuthentication, debugText := "Command must be executed over CASE session." }, g, [])
  else if !g.failSafeArmed then (some { errorCode := .noFailSafe, debugText := "fail-safe not armed" }, g, [])
  else if sessFabric ≠ g.failSafeFabricIndex then
    let asking := sessFabric.toNat
    let owner := g.failSafeFabricIndex.toNat
    (some { errorCode := .invalidAuthentication
            debugText := s!"session fabric {asking} != failsafe fabric {owner}" }, g, [])
  else if terms ≠ .ok then (some { errorCode := terms, debugText := "terms and conditions not accepted" }, g, [])
  else if !committed then (none, g, [])
  else (some { errorCode := .ok }, { g.disarmed with breadcrumb := 0 }, [.commissioned])

/-- The fail-safe is armed and its time is not up. -/
def inForce (now : Int) : Bool := g.failSafeArmed && decide (g.failSafeExpiresAt > now)

def armFailSafeFor (now : Int) (seconds : BitVec 32) (fabricIndex : FabricIndex) :
    GeneralCommissioning × List Callback :=
  if seconds = 0 then ({ g.disarmed with breadcrumb := 0 }, [])
  else
    let expiresAt := now + seconds.toNat * second
    ({ g with
       failSafeArmed := true, failSafeExpiresAt := expiresAt, breadcrumb := 0, failSafeFabricIndex := fabricIndex },
      .watch expiresAt :: if !g.inForce now then [.failSafeArmed] else [])

def paseSessionAutoArmSeconds : BitVec 32 := 60

def expireFailSafe : GeneralCommissioning × List Callback :=
  if !g.failSafeArmed then (g, []) else ({ g.disarmed with breadcrumb := 0 }, [.failSafeExpired])

def setCurrentFabric (idx : FabricIndex) : GeneralCommissioning :=
  { g with failSafeFabricIndex := idx }

def failSafeFabric (now : Int) : FabricIndex × Bool :=
  if g.inForce now then (g.failSafeFabricIndex, true) else (0, false)

/-- `FailSafeArmedFor`, over `FailSafeFabric`. -/
def failSafeArmedFor (now : Int) (accessing : FabricIndex) : Bool :=
  (g.failSafeFabric now).2 && (g.failSafeFabric now).1 == accessing

end GeneralCommissioning

/-! ## The store -/

structure IdentityRecord where
  noc : List Byte
  icac : List Byte
  privateKey : List Byte
  ipk : List Byte
deriving DecidableEq

/-- A fabric with the rows that go with it when it is removed. -/
structure FabricRow where
  nodeID : BitVec 64
  identity : Option IdentityRecord := none
  adminSubject : Option (BitVec 64) := none
deriving DecidableEq

/-- The fabrics of the store. -/
abbrev Store := FabricIndex → Option FabricRow

namespace Store

/-- `store` with another row at `idx`. -/
def put (store : Store) (idx : FabricIndex) (row : Option FabricRow) : Store :=
  fun i => if i = idx then row else store i

/-- `UpsertIdentity`, which needs the fabric. -/
def upsertIdentity (store : Store) (idx : FabricIndex) (identity : IdentityRecord) : Option Store :=
  (store idx).map fun row => store.put idx (some { row with identity := some identity })

end Store

/-! ## OperationalCredentials -/

/-- `nocUpdateRevert`, but for the vendor verification data. -/
structure NocUpdateRevert where
  fabricIndex : FabricIndex
  identity : IdentityRecord
  nodeID : BitVec 64

/-- `OperationalCredentials`, with what is pending. -/
structure OperationalCredentials where
  pendingPrivKey : Option (List Byte) := none
  pendingTrustRoot : Option (List Byte) := none
  pendingCSRSessionID : BitVec 16 := 0
  pendingCSRForUpdate : Bool := false
  nocWasInvoked : Bool := false
  pendingInstallFabricIndex : FabricIndex := 0
  pendingUpdateRevert : Option NocUpdateRevert := none
  currentFabric : FabricIndex := 0

namespace OperationalCredentials

variable (o : OperationalCredentials)

def clearPendingState : OperationalCredentials := { currentFabric := o.currentFabric }

/-- `OnFailSafeExpiry` under the mutex: the fabric and the update to revert. -/
def onFailSafeExpiry : FabricIndex × Option NocUpdateRevert × OperationalCredentials :=
  (o.pendingInstallFabricIndex, o.pendingUpdateRevert, o.clearPendingState)

/-- `notifyFabricRemoved` under the mutex. -/
def notifyFabricRemoved (idx : FabricIndex) : OperationalCredentials :=
  if o.currentFabric = idx then { o.clearPendingState with currentFabric := 0 } else o

/-- `handleCSRRequest`, its last section. -/
def csrRequest (priv : List Byte) (sessionID : BitVec 16) (forUpdate : Bool) : OperationalCredentials :=
  { o with pendingPrivKey := some priv, pendingCSRSessionID := sessionID, pendingCSRForUpdate := forUpdate }

/-- `handleAddTrustedRootCertificate`, its last section. -/
def addTrustedRootCertificate (root : List Byte) : OperationalCredentials :=
  { o with pendingTrustRoot := some root }

/-- `handleAddNOC`, its last section. -/
def nocAdded (idx : FabricIndex) : OperationalCredentials :=
  { o with
    nocWasInvoked := true, pendingPrivKey := none, pendingTrustRoot := none, pendingCSRForUpdate := false
    currentFabric := idx }

/-- `handleUpdateNOC`, its last section. -/
def nocUpdated : OperationalCredentials :=
  { o with nocWasInvoked := true, pendingPrivKey := none, pendingCSRForUpdate := false }

end OperationalCredentials

/-- `revertUpdateNOC`, on the store. -/
def revertUpdateNOC (store : Store) (r : NocUpdateRevert) : Store :=
  match store.upsertIdentity r.fabricIndex r.identity with
  | none => store
  | some s => s.put r.fabricIndex ((s r.fabricIndex).map fun row => { row with nodeID := r.nodeID })

def revertAddNOC (store : Store) (idx : FabricIndex) : Store := store.put idx none

end GF.Impl.Commissioning
