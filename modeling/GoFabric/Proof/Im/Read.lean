import GoFabric.Impl.Im.Read

/-!
# Reads disclose only what the subject may read

Two dispatchers with the same ACL verdicts and privileges whose results have
the same paths, and agree on each result the subject may read: every stage
of `HandleReadRequest` looks at the path of a result alone, until the ACL gate
has passed it (`reportResult_eq`), so the reports are the same.
-/

namespace GF.Proof.Im

open GF.Impl.Im GF.Impl.Im.Wire

variable {O : Type}

/-- The gate lets the subject read the path. -/
def authorized (ctx : ReadContext) (d : ReadDispatcher O) (p : ConcreteAttributePath) : Bool :=
  (readGate ctx d p).isSuccess

/-- Results for the same path, equal in value and status if the subject may
read it. -/
structure AgreeOnData (ctx : ReadContext) (d : ReadDispatcher O) (r r' : ReadResult O) : Prop where
  path : r.path = r'.path
  value : authorized ctx d r.path = true → r.value = r'.value
  status : authorized ctx d r.path = true → r.status = r'.status

/-- The same, and equal in the data version too. -/
structure Agree (ctx : ReadContext) (d : ReadDispatcher O) (r r' : ReadResult O) : Prop
    extends AgreeOnData ctx d r r' where
  dataVersion : authorized ctx d r.path = true → r.dataVersion = r'.dataVersion

theorem filterMap_eq_of_forall₂ {α β γ : Type} {R : α → β → Prop} {f : α → Option γ} {g : β → Option γ}
    (hfg : ∀ a b, R a b → f a = g b) {l : List α} {l' : List β} (h : List.Forall₂ R l l') :
    l.filterMap f = l'.filterMap g := by
  induction h with
  | nil => rfl
  | cons hab _ ih => simp only [List.filterMap_cons, hfg _ _ hab, ih]

section

variable {ctx : ReadContext} {d d' : ReadDispatcher O}

theorem readGate_congr (hacl : d.checkACL = d'.checkACL) (hpriv : d.minReadPrivilege = d'.minReadPrivilege)
    (p : ConcreteAttributePath) : readGate ctx d p = readGate ctx d' p := by
  simp only [readGate, readPrivilege, hacl, hpriv]

theorem flags_congr (d d' : ReadDispatcher O) {path : ConcreteAttributePath}
    (h : path.hasWildcardFilterConfigurationVersion = false) :
    effectiveWildcardPathFlags d path = effectiveWildcardPathFlags d' path := by
  simp [effectiveWildcardPathFlags, h]

/-- Results that agree on what may be read add the same to the report. -/
theorem reportResult_eq (hacl : d.checkACL = d'.checkACL) (hpriv : d.minReadPrivilege = d'.minReadPrivilege)
    (req : ReadRequest) (path : ConcreteAttributePath) {r r' : ReadResult O} (h : Agree ctx d r r') :
    reportResult ctx d req path r = reportResult ctx d' req path r' := by
  unfold reportResult
  rw [← readGate_congr hacl hpriv, ← h.path]
  cases hok : (readGate ctx d r.path).isSuccess with
  | false => simp [hok]
  | true => rw [h.value hok, h.status hok, h.dataVersion hok]

/-- The results of an expansion after the wildcard path flags, as what each
adds. -/
theorem report_path_eq (d : ReadDispatcher O) (req : ReadRequest) (path : ConcreteAttributePath)
    (results : List (ReadResult O)) :
    (applyWildcardPathFlags ctx d path results).filterMap (reportResult ctx d req path) =
      results.filterMap fun r =>
        if effectiveWildcardPathFlags d path ≠ 0 ∧
            wildcardPathSkipped ctx r.path (effectiveWildcardPathFlags d path) = true then none
        else reportResult ctx d req path r := by
  unfold applyWildcardPathFlags
  by_cases hf : effectiveWildcardPathFlags d path = 0
  · simp [hf]
  rw [if_neg hf, List.filterMap_filter]
  congr 1
  funext r
  cases wildcardPathSkipped ctx r.path (effectiveWildcardPathFlags d path) with
  | false => simp
  | true => rw [if_neg (by decide), if_pos ⟨hf, rfl⟩]

theorem mem_of_mem_dedup {paths : List ConcreteAttributePath} {p : ConcreteAttributePath}
    (h : p ∈ dedupAttributePaths paths) : p ∈ paths := by
  have hfold : ∀ (ps out : List ConcreteAttributePath),
      p ∈ ps.foldl (fun out p => if p ∈ out then out else out ++ [p]) out → p ∈ out ∨ p ∈ ps := by
    intro ps
    induction ps with
    | nil => intro out hp; exact .inl hp
    | cons q ps ih =>
      intro out hp
      rcases ih _ hp with hp | hp
      · dsimp only at hp
        split at hp
        · exact .inl hp
        · rcases List.mem_append.1 hp with hp | hp
          · exact .inl hp
          · exact .inr (List.mem_singleton.1 hp ▸ List.mem_cons_self)
      · exact .inr (List.mem_cons_of_mem q hp)
  unfold dedupAttributePaths at h
  split at h
  · exact h
  dsimp only at h
  split at h
  · exact h
  · exact (hfold paths [] h).resolve_left List.not_mem_nil

end

/-- Non-interference of reads: dispatchers with the same ACL verdicts and
privileges, whose results for the requested paths have the same paths and
agree on the value, the status and the data version of each attribute the
subject may read, give the same report, for requests whose paths name no
configuration version to filter by. -/
theorem read_noninterference (ctx : ReadContext) (d d' : ReadDispatcher O) (req : ReadRequest)
    (hacl : d.checkACL = d'.checkACL) (hpriv : d.minReadPrivilege = d'.minReadPrivilege)
    (hread : ∀ path ∈ req.attributeRequests, List.Forall₂ (Agree ctx d) (d.read path) (d'.read path))
    (hver : ∀ path ∈ req.attributeRequests, path.hasWildcardFilterConfigurationVersion = false) :
    handleReadRequest ctx d req = handleReadRequest ctx d' req := by
  have hpath : ∀ path ∈ dedupAttributePaths req.attributeRequests,
      (applyWildcardPathFlags ctx d path (d.read path)).filterMap (reportResult ctx d req path) =
        (applyWildcardPathFlags ctx d' path (d'.read path)).filterMap (reportResult ctx d' req path) := by
    intro path hmem
    have hmem' := mem_of_mem_dedup hmem
    rw [report_path_eq, report_path_eq, flags_congr d d' (hver path hmem')]
    refine filterMap_eq_of_forall₂ ?_ (hread path hmem')
    intro r r' hr
    rw [reportResult_eq hacl hpriv req path hr, hr.path]
  simp only [handleReadRequest, List.flatMap_congr hpath]

/-- A dispatcher with one cluster: an attribute anyone on the fabric may read,
and one that only an administrator may. -/
def secretDispatcher (secret version : BitVec 32) : ReadDispatcher Nat where
  read path := [⟨{ path with attributeID := 0, hasAttribute := true }, ⟨some (.uint32 5), false⟩, 0, version⟩,
    ⟨{ path with attributeID := 1, hasAttribute := true }, ⟨some (.uint32 secret), false⟩, 0, version⟩]
  checkACL := some fun _ _ _ _ _ privilege => if privilege ≤ 3 then StatusCode.success else StatusCode.unsupportedAccess
  minReadPrivilege := some fun _ _ attributeID => if attributeID = 1 then 5 else 1

/-- A subject on fabric 1, without model qualities. -/
def fabricContext : ReadContext :=
  { subject := { fabricIndex := 1, nodeID := 7, cats := [], pase := false }, qualities := none,
    attributeChangesOmitted := fun _ _ => false }

def wildcardRead : ReadRequest :=
  { attributeRequests := [{ endpoint := 1, hasEndpoint := true }], dataVersionFilters := [] }

theorem read_noninterference_secret :
    (handleReadRequest fabricContext (secretDispatcher 1 2) wildcardRead).reports.length = 1 ∧
    handleReadRequest fabricContext (secretDispatcher 1 2) wildcardRead =
      handleReadRequest fabricContext (secretDispatcher 99 2) wildcardRead := by
  refine ⟨by decide, read_noninterference fabricContext _ _ wildcardRead rfl rfl ?_ ?_⟩
  · intro path _
    refine .cons ⟨⟨rfl, fun _ => rfl, fun _ => rfl⟩, fun _ => rfl⟩ (.cons ⟨⟨rfl, ?_, fun _ => rfl⟩, fun _ => rfl⟩ .nil)
    intro h
    cases h
  · intro path hmem
    rw [List.mem_singleton.1 hmem]

/-- The data version of a cluster is reported, so that dispatchers that agree
on value and status alone may be told apart. -/
theorem read_discloses_dataVersion :
    (secretDispatcher 1 2).checkACL = (secretDispatcher 1 3).checkACL ∧
    (secretDispatcher 1 2).minReadPrivilege = (secretDispatcher 1 3).minReadPrivilege ∧
    (∀ path, List.Forall₂ (AgreeOnData fabricContext (secretDispatcher 1 2)) ((secretDispatcher 1 2).read path)
      ((secretDispatcher 1 3).read path)) ∧
    handleReadRequest fabricContext (secretDispatcher 1 2) wildcardRead ≠
      handleReadRequest fabricContext (secretDispatcher 1 3) wildcardRead := by
  refine ⟨rfl, rfl, ?_, ?_⟩
  · intro path
    exact .cons ⟨rfl, fun _ => rfl, fun _ => rfl⟩ (.cons ⟨rfl, fun _ => rfl, fun _ => rfl⟩ .nil)
  · intro h
    exact absurd (congrArg (·.reports.map (·.dataVersion)) h) (by decide)

end GF.Proof.Im
