import GoFabric.Impl.Bridge.Reply

/-!
# What a chunk of a report may carry
-/

namespace GF.Spec.ReportChunks

open GF.Impl.Bridge GF.Impl.Im.Wire

variable {O : Type}

/-- The number of entries of a report. -/
def entries (rd : ReportData (GoValue O)) : Nat := rd.reports.length + rd.eventReports.length

/-- One of the entries is a status. -/
def carriesStatus (rd : ReportData (GoValue O)) : Bool :=
  rd.reports.any (·.isStatus) || rd.eventReports.any (·.isStatus)

/-- A report of `size` bytes is within the budget, or it carries a single entry,
which is within the hard ceiling or a status. -/
def WithinLimits (budget hardCap size : Nat) (rd : ReportData (GoValue O)) : Prop :=
  size ≤ budget ∨ entries rd = 1 ∧ (size ≤ hardCap ∨ carriesStatus rd = true)
deriving Decidable

end GF.Spec.ReportChunks
