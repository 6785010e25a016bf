import GoFabric.Impl.Commissioning.Node

/-!
# Commissioning attempts

What an attempt that was not completed may leave, and how long one may last; with
the runs for which that holds.
-/

namespace GF.Spec.Commissioning

open GF.Impl.Commissioning

/-! ## No trace -/

/-- The call has nothing to do before something happens, or has not begun. -/
def AtRest : Call → Bool
  | .watching _ | .returned => true
  | c => c.Arrives

/-- The call has taken over something to revert. -/
def Reverts : Call → Bool
  | .restoring _ update install => update.isSome || install != 0
  | .removing _ => true
  | _ => false

/-- The context was completed. -/
def Completed (n : Node) (context : Nat) : Prop := n.outcomes[context]? = some .completed
deriving Decidable

/-- The context ended without having been completed. -/
def Abandoned (n : Node) (context : Nat) : Prop := n.outcomes[context]? = some .abandoned
deriving Decidable

/-- The context in which the fabric of an index was installed. -/
def contextOf (n : Node) (idx : FabricIndex) : Nat := n.installs.getD (n.installOf idx) 0

/-- No call is under way. -/
def Quiet (n : Node) : Prop := ∀ c ∈ n.calls, AtRest c = true

/-- What was installed or replaced in an abandoned context is gone or put back,
once, and nothing else is. -/
structure NoTrace (n : Node) : Prop where
  removed_once : n.removed.Nodup
  removed_abandoned : ∀ m ∈ n.removed, ∀ k, n.installs[m]? = some k → Abandoned n k
  restored_once : (n.restored.map Identified.context).Nodup
  restored_abandoned : ∀ e ∈ n.restored, Abandoned n e.context
  gone : Quiet n → ∀ m k, n.installs[m]? = some k → Abandoned n k →
    m ∈ n.removed ∧ ∀ idx, (n.store idx).isSome = true → n.installOf idx ≠ m
  back : Quiet n → ∀ e ∈ n.replaced, Abandoned n e.context → e ∈ n.restored

/-! ## Steps that are not overtaken -/

/-- What is pending, if anything is, belongs to contexts that satisfy `Q`. -/
def PendingOf (n : Node) (Q : Nat → Prop) : Prop :=
  (n.o.pendingInstallFabricIndex = 0 ∨ Q (contextOf n n.o.pendingInstallFabricIndex)) ∧
    (n.o.pendingUpdateRevert = none ∨ Q n.revertContext)

instance (n : Node) (Q : Nat → Prop) [DecidablePred Q] : Decidable (PendingOf n Q) := instDecidableAnd

/-- The pending update, if there is one, is that of the fabric in the
context. -/
def UpdateOf (n : Node) (context : Nat) (idx : FabricIndex) : Prop :=
  ∀ r ∈ n.o.pendingUpdateRevert, n.revertContext = context ∧ r.fabricIndex = idx
deriving Decidable

/-- The call is not overtaken by a context other than its own. -/
def Current (n : Node) : Call → Prop
  -- nothing that still may have to be reverted is forgotten
  | .failSafeArmed | .commissioned => PendingOf n (Completed n)
  | .notifying install => n.o.currentFabric = install → PendingOf n (Completed n)
  | .armFailSafeFor seconds _ =>
    n.g.failSafeArmed = true ∧ ¬(n.g.inForce n.now = true ∧ seconds ≠ 0) → PendingOf n (Completed n)
  -- nothing is reverted that may still be completed, or was
  | .failSafeExpired => PendingOf n (Abandoned n)
  -- the context that the call checked is still in force
  | .addNOCAdd context _ _ | .addNOCIdentity context _ _ _ | .updateNOCWrite context _ _ _ => n.Open context
  | .addNOCRecord context _ _ _ =>
    n.Open context ∧
      (n.o.pendingInstallFabricIndex = 0 ∨ Completed n (contextOf n n.o.pendingInstallFabricIndex))
  | .updateNOCRead context _ _ idx =>
    n.Open context ∧ UpdateOf n context idx ∧ (∀ c ∈ n.calls, Reverts c = false) ∧
      (n.o.pendingInstallFabricIndex = 0 ∨ ¬Abandoned n (contextOf n n.o.pendingInstallFabricIndex))
  | .updateNOCPending context _ _ r | .updateNOCRecord context _ _ r =>
    n.Open context ∧ UpdateOf n context r.fabricIndex
  | _ => True

instance (n : Node) (c : Call) : Decidable (Current n c) := by
  cases c <;> unfold Current <;> infer_instance

/-- The event is not a step of a call that was overtaken. -/
def Timely (n : Node) : Event → Prop
  | .step i _ => ∀ c ∈ n.calls[i]?, Current n c
  | _ => True

instance (n : Node) (e : Event) : Decidable (Timely n e) := by
  cases e <;> unfold Timely <;> infer_instance

/-! ## The cumulative limit of the fail-safe -/

/-- The calls that arm, extend or end the fail-safe, and the watcher. -/
inductive FailSafeCall
  | armFailSafe (sessFabric : FabricIndex) (expiry : BitVec 16) (breadcrumb : BitVec 64) (windowOpen : Bool)
  | armFailSafeFor (seconds : BitVec 32) (fabricIndex : FabricIndex)
  | commissioningComplete (sessFabric : FabricIndex) (pase : Bool) (terms : CommissioningError) (committed : Bool)
  | expireFailSafe
  | watchFailSafeExpiry

/-- The call at the time `now`. -/
def FailSafeCall.result (g : GeneralCommissioning) (now : Int) : FailSafeCall → GeneralCommissioning × List Callback
  | .armFailSafe sessFabric expiry breadcrumb windowOpen =>
    (g.armFailSafe now sessFabric expiry breadcrumb windowOpen).2
  | .armFailSafeFor seconds fabricIndex => g.armFailSafeFor now seconds fabricIndex
  | .commissioningComplete sessFabric pase terms committed =>
    (g.commissioningComplete sessFabric pase terms committed).2
  | .expireFailSafe => g.expireFailSafe
  | .watchFailSafeExpiry => g.watchFailSafeExpiry now

/-- The cluster, the last reading of the clock, and when the context was opened:
at the call that reported the fail-safe armed. -/
structure Clocked where
  g : GeneralCommissioning
  now : Int
  opened : Int

namespace Clocked

/-- Before the first call. -/
def start (maxSec : BitVec 16) (now : Int) : Clocked := ⟨⟨0, false, 0, 0, false, 0, maxSec⟩, now, now⟩

/-- The state with what a call at the time `now` leaves. -/
def after (s : Clocked) (now : Int) (r : GeneralCommissioning × List Callback) : Clocked where
  g := r.1
  now := now
  opened := if r.2.contains .failSafeArmed then now else s.opened

/-- The latest time at which the context may expire. -/
def limit (s : Clocked) : Int := s.opened + s.g.cumulativeFailSafeMaxSec.toNat * second

/-- While the fail-safe is armed, it expires within the limit. -/
def Limited (s : Clocked) : Prop := s.g.failSafeArmed = true → s.g.failSafeExpiresAt ≤ s.limit

/-- `ArmFailSafe` extends only what has a cumulative deadline, and what
`ArmFailSafeFor` asks for is within the limit. -/
def Within (s : Clocked) : Int × FailSafeCall → Prop
  | (_, .armFailSafe _ expiry _ _) =>
    expiry = 0 ∨ s.g.failSafeArmed = false ∨ s.g.failSafeCumulativeStarted = true
  | (now, .armFailSafeFor seconds _) =>
    seconds = 0 ∨ now + seconds.toNat * second ≤
      (if s.g.inForce now then s.opened else now) + s.g.cumulativeFailSafeMaxSec.toNat * second
  | _ => True

instance (s : Clocked) (e : Int × FailSafeCall) : Decidable (s.Within e) := by
  rcases e with ⟨_, _ | _⟩ <;> unfold Within <;> infer_instance

end Clocked

/-- The clock never goes back. -/
def clocked : System Clocked (Int × FailSafeCall) where
  step s e := if s.now ≤ e.1 then some (s.after e.1 (e.2.result s.g e.1)) else none

end GF.Spec.Commissioning
