import GoFabric.Impl.Im.WriteHolds

/-!
# Schedules of write interactions
-/

namespace GF.Spec.WriteHolds

open GF.Impl.Im

/-- Nobody takes an attribute between another transaction's test for BUSY and its hold, and
no transaction is released while it handles a message. -/
def Undisturbed (s : Writers) : WritersEvent → Prop
  | .hold i => ∀ more k, s.phase i = .tested more k → more = true ∨ (s.tx i).held ≠ [] →
    ∀ j more', j ≠ i → s.phase j ≠ .tested more' k
  | .release i => s.phase i = .idle
  | _ => True

end GF.Spec.WriteHolds
