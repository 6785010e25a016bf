import GoFabric.Spec.WildcardWrite
import Mathlib.Data.List.Nodup

/-!
# Wildcard writes and the writes they stand for

`WriteAuthorized` visits the endpoints of a wildcard path in one loop. A visit
that the checks let through is `WriteLoop.apply`, which reads and writes the
state of its own endpoint and the loop's `value`; every other visit changes
nothing (`writeEndpoint_wildcard`). So an endpoint is written as if it were
alone when no visit before it had the same endpoint (`visits_frame`) and the
value it meets still stands for the one of the call (`visits_value`).

* `wildcard_independent_iff`: exactly when the writes of a wildcard path are the
  independent writes that it stands for.
-/

namespace GF.Proof.Endpoint

open GF.Impl.Im GF.Impl.Endpoints GF.Spec.WildcardWrite List

variable {S O : Type} {srv : ClusterServer S O} {p path : ConcreteAttributePath} {value value' : AttributeValue (Any O)}
  {ep : Endpoint}

variable (st : WriteLoop S O)

/-! ## One write -/

/-- A write by itself, over the state of its endpoint. -/
def attempt (srv : ClusterServer S O) (p : ConcreteAttributePath) (s : S) (value : AttributeValue (Any O)) :
    WriteLoop S O :=
  { world := fun _ => s, value := value, results := [], handed := [] : WriteLoop S O }.apply srv p

theorem apply_value :
    (st.apply srv p).value =
      if p.listAppend then (appendListValue srv (st.world p.endpoint) p.attributeID st.value).getD st.value
      else st.value := by
  unfold WriteLoop.apply
  split
  · cases appendListValue srv (st.world p.endpoint) p.attributeID st.value <;> rfl
  · rfl

theorem apply_results :
    (st.apply srv p).results = st.results ++ (attempt srv p (st.world p.endpoint) st.value).results := by
  unfold attempt WriteLoop.apply
  split
  · cases appendListValue srv (st.world p.endpoint) p.attributeID st.value <;> rfl
  · rfl

theorem apply_handed :
    (st.apply srv p).handed = st.handed ++ (attempt srv p (st.world p.endpoint) st.value).handed := by
  unfold attempt WriteLoop.apply
  split
  · cases appendListValue srv (st.world p.endpoint) p.attributeID st.value with
    | none => exact (append_nil _).symm
    | some merged => rfl
  · rfl

theorem apply_world_of_ne {e : BitVec 16} (h : e ≠ p.endpoint) : (st.apply srv p).world e = st.world e := by
  unfold WriteLoop.apply
  split
  · cases appendListValue srv (st.world p.endpoint) p.attributeID st.value with
    | none => rfl
    | some merged => exact if_neg h
  · exact if_neg h

theorem attempt_results (srv : ClusterServer S O) (p : ConcreteAttributePath) (s : S) (value : AttributeValue (Any O)) :
    ∃ r, (attempt srv p s value).results = [r] ∧ r.path = p := by
  unfold attempt WriteLoop.apply
  split
  · cases appendListValue srv s p.attributeID value with
    | none | some merged => exact ⟨_, rfl, rfl⟩
  · exact ⟨_, rfl, rfl⟩

theorem attempt_handed (srv : ClusterServer S O) (p : ConcreteAttributePath) (s : S) (value : AttributeValue (Any O)) :
    ∀ h ∈ (attempt srv p s value).handed, h.endpoint = p.endpoint := by
  unfold attempt WriteLoop.apply
  split
  · cases appendListValue srv s p.attributeID value with
    | none => exact fun h hh => absurd hh not_mem_nil
    | some merged => exact fun h hh => by rw [mem_singleton.mp hh]
  · exact fun h hh => by rw [mem_singleton.mp hh]

/-- An append hands the whole list over, or nothing when there is none. -/
theorem attempt_handed_isEmpty (s : S) (value : AttributeValue (Any O)) (ha : p.listAppend = true) :
    (attempt srv p s value).handed = [] ↔ appendListValue srv s p.attributeID value = none := by
  unfold attempt WriteLoop.apply
  rw [if_pos ha]
  cases appendListValue srv s p.attributeID value with
  | none => exact iff_of_true rfl rfl
  | some merged => exact iff_of_false (cons_ne_nil _ _) (Option.some_ne_none _)

/-- An append depends on the list it builds alone. -/
theorem attempt_congr (s : S) (ha : p.listAppend = true)
    (h : appendListValue srv s p.attributeID value = appendListValue srv s p.attributeID value') :
    (attempt srv p s value).results = (attempt srv p s value').results ∧
      (attempt srv p s value).handed = (attempt srv p s value').handed := by
  unfold attempt WriteLoop.apply
  rw [if_pos ha, if_pos ha, h]
  cases appendListValue srv s p.attributeID value' with
  | none | some merged => exact ⟨rfl, rfl⟩

theorem appendListValue_congr (srv : ClusterServer S O) (s : S) (attrID : BitVec 32)
    (h : value.value = value'.value) :
    appendListValue srv s attrID value = appendListValue srv s attrID value' := by
  unfold appendListValue
  rw [h]

theorem appendListValue_eq_some {s : S} {attrID : BitVec 32} {merged : AttributeValue (Any O)}
    (h : appendListValue srv s attrID value = some merged) :
    ∃ type item items, value.value = some (.slice type [item]) ∧
      currentValue srv s attrID = some (some (.slice type items)) ∧
      merged = { value := some (.slice type (items ++ [item])), isNull := false } := by
  unfold appendListValue at h
  split at h
  · rename_i type items itemType item hc hv
    split at h
    · rename_i ht
      subst ht
      exact ⟨type, item, items, hv, hc, (Option.some.inj h).symm⟩
    · exact absurd h (Option.some_ne_none _).symm
  · exact absurd h (Option.some_ne_none _).symm

/-- A value that is no one-element list: nothing can be appended from it. -/
def Spoiled (value : AttributeValue (Any O)) : Prop := ∀ type item, value.value ≠ some (.slice type [item])

theorem Spoiled.appendListValue (h : Spoiled value) (srv : ClusterServer S O) (s : S) (attrID : BitVec 32) :
    appendListValue srv s attrID value = none := by
  cases hm : GF.Impl.Endpoints.appendListValue srv s attrID value with
  | none => rfl
  | some merged =>
    obtain ⟨type, item, items, hv, -, -⟩ := appendListValue_eq_some hm
    exact absurd hv (h type item)

/-! ## One visit -/

abbrev visitPath (path : ConcreteAttributePath) (ep : Endpoint) (srv : ClusterServer S O) : ConcreteAttributePath :=
  resolvedPath path ep.id srv.matterClusterID path.attributeID

section

variable {d : TopologyDispatcher S O} {timed : Option Bool} {authorize auth : Option WriteAuthorizer}

theorem writeAttribute_of_admits (h : admits d timed path auth ep srv = true) :
    d.writeAttribute timed auth p ep srv st path.attributeID =
      st.apply srv (resolvedPath p ep.id srv.matterClusterID path.attributeID) := by
  simp only [admits, Bool.and_eq_true, Bool.not_eq_true', bne_iff_ne, Bool.and_eq_false_iff, beq_eq_false_iff_ne] at h
  obtain ⟨⟨⟨⟨hg, hl⟩, hw⟩, hs⟩, ht⟩ := h
  unfold TopologyDispatcher.writeAttribute
  rw [if_neg (by rw [hg]; exact Bool.false_ne_true), if_neg (by rw [hl]; exact fun h => nomatch h.2),
    if_neg hw, if_neg (by rw [hs]; exact Bool.false_ne_true)]
  exact if_neg fun h => ht.elim (absurd h.1) fun hf => absurd h.2 (by rw [hf]; exact Bool.false_ne_true)

/-- On a wildcard path an attribute that the checks hold back is skipped. -/
theorem writeAttribute_of_not_admits (hw : path.hasEndpoint = false)
    (ha : path.hasAttribute = true) (h : admits d timed path auth ep srv = false) :
    d.writeAttribute timed auth path ep srv st path.attributeID = st := by
  simp only [admits, Bool.and_eq_false_iff, Bool.not_eq_false', bne_eq_false_iff_eq, Bool.and_eq_true,
    beq_iff_eq, or_assoc] at h
  unfold TopologyDispatcher.writeAttribute
  simp only [hw, ha, true_and, Bool.not_eq_true']
  repeat' refine ite_eq_left_iff.mpr fun hn => ?_
  obtain hg | hl | hr | hs | ht := h <;> contradiction

theorem writeEndpoint_wildcard (ep : Endpoint) (hw : path.hasEndpoint = false)
    (hc : path.hasCluster = true) (ha : path.hasAttribute = true) :
    d.writeEndpoint timed auth path st ep =
      match matched d timed path auth ep with
      | none => st
      | some srv => st.apply srv (visitPath path ep srv) := by
  unfold TopologyDispatcher.writeEndpoint TopologyDispatcher.serversFor matched attributesFor
  simp only [hw, hc, ha]
  cases (d.clusterServers ep).find? fun srv => srv.matterClusterID == path.cluster with
  | none => rfl
  | some srv =>
    cases h : admits d timed path auth ep srv with
    | false =>
      rw [Option.filter_some, h]
      exact writeAttribute_of_not_admits st hw ha h
    | true =>
      rw [Option.filter_some, h]
      exact writeAttribute_of_admits st h

theorem writeEndpoint_concrete (hc : path.hasCluster = true) (ha : path.hasAttribute = true)
    (h : matched d timed path auth ep = some srv) :
    d.writeEndpoint timed auth (concretePath path ep.id) st ep = st.apply srv (visitPath path ep srv) := by
  obtain ⟨hf, hs⟩ := Option.filter_eq_some_iff.mp h
  unfold TopologyDispatcher.writeEndpoint TopologyDispatcher.serversFor concretePath
  simp only [hc, ha, hf]
  exact writeAttribute_of_admits st hs

/-! ## The loop -/

variable (d timed authorize) in
/-- The loop of `WriteAuthorized` over a list of endpoints. -/
def visits (path : ConcreteAttributePath) (st : WriteLoop S O) (l : List Endpoint) : WriteLoop S O :=
  l.foldl (d.writeEndpoint timed authorize path) st

variable (hw : path.hasEndpoint = false) (hc : path.hasCluster = true) (ha : path.hasAttribute = true)

include hw hc ha

/-- What each visit that the checks let through keeps, the loop keeps. -/
theorem visits_keeps {P : WriteLoop S O → Prop} {st : WriteLoop S O} {l : List Endpoint} (h : P st)
    (hP : ∀ st ep srv, ep ∈ l → matched d timed path auth ep = some srv → P st →
      P (st.apply srv (visitPath path ep srv))) : P (visits d timed auth path st l) := by
  refine foldlRecOn l _ h fun st hst ep hmem => ?_
  rw [writeEndpoint_wildcard st ep hw hc ha]
  cases hm : matched d timed path auth ep with
  | none => exact hst
  | some srv => exact hP st ep srv hmem hm hst

theorem visits_cons_of_none {st : WriteLoop S O} {l : List Endpoint} (h : matched d timed path auth ep = none) :
    visits d timed auth path st (ep :: l) = visits d timed auth path st l := by
  unfold visits
  rw [foldl_cons, writeEndpoint_wildcard st ep hw hc ha, h]

theorem visits_cons_of_some {st : WriteLoop S O} {l : List Endpoint} (h : matched d timed path auth ep = some srv) :
    visits d timed auth path st (ep :: l) =
      visits d timed auth path
        (st.apply srv (visitPath path ep srv)) l := by
  unfold visits
  rw [foldl_cons, writeEndpoint_wildcard st ep hw hc ha, h]

omit hw hc ha in
theorem resultsAt_visit (srv : ClusterServer S O) (ep : Endpoint) (e : BitVec 16) :
    resultsAt (st.apply srv (visitPath path ep srv)) e = resultsAt st e ++
      if ep.id = e then (attempt srv (visitPath path ep srv) (st.world ep.id) st.value).results else [] := by
  obtain ⟨r, hr, hp⟩ := attempt_results srv (visitPath path ep srv) (st.world ep.id) st.value
  have hf : (r.path.hasEndpoint && r.path.endpoint == e) = (ep.id == e) := by rw [hp]; rfl
  unfold resultsAt
  rw [apply_results, filter_append]
  congr 1
  refine (congrArg _ hr).trans ?_
  rw [filter_cons, hf, hr]
  simp

omit hw hc ha in
theorem handedAt_visit (srv : ClusterServer S O) (ep : Endpoint) (e : BitVec 16) :
    handedAt (st.apply srv (visitPath path ep srv)) e = handedAt st e ++
      if ep.id = e then (attempt srv (visitPath path ep srv) (st.world ep.id) st.value).handed else [] := by
  have hh := attempt_handed srv (visitPath path ep srv) (st.world ep.id) st.value
  unfold handedAt
  rw [apply_handed, filter_append]
  congr 1
  split_ifs with he
  · exact filter_eq_self.mpr fun h hm => by rw [hh h hm]; exact beq_iff_eq.mpr he
  · exact filter_eq_nil_iff.mpr fun h hm => by rw [hh h hm, beq_iff_eq]; exact he

/-- Visits to other endpoints, and visits that are held back, leave an
endpoint's state, results and values as they were. -/
theorem visits_frame (e : BitVec 16) (l : List Endpoint) (st : WriteLoop S O)
    (h : ∀ ep ∈ l, matched d timed path auth ep ≠ none → ep.id ≠ e) :
    (visits d timed auth path st l).world e = st.world e ∧
      resultsAt (visits d timed auth path st l) e = resultsAt st e ∧
      handedAt (visits d timed auth path st l) e = handedAt st e := by
  refine visits_keeps (P := fun s => s.world e = st.world e ∧ resultsAt s e = resultsAt st e ∧
    handedAt s e = handedAt st e) hw hc ha ⟨rfl, rfl, rfl⟩ fun s ep srv hmem hm ⟨h1, h2, h3⟩ => ?_
  have he : ep.id ≠ e := h ep hmem (by rw [hm]; exact Option.some_ne_none srv)
  refine ⟨(apply_world_of_ne s he.symm).trans h1, ?_, ?_⟩
  · rw [resultsAt_visit, if_neg he, append_nil, h2]
  · rw [handedAt_visit, if_neg he, append_nil, h3]

/-- Each visit that the checks let through is answered once. -/
theorem visits_results_length (e : BitVec 16) (l : List Endpoint) (st : WriteLoop S O) :
    (resultsAt (visits d timed auth path st l) e).length =
      (resultsAt st e).length + l.countP fun ep => (matched d timed path auth ep).isSome && ep.id == e := by
  induction l generalizing st with
  | nil => rfl
  | cons ep l ih =>
    rw [countP_cons]
    cases hm : matched d timed path auth ep with
    | none =>
      rw [visits_cons_of_none hw hc ha hm, ih st]
      rfl
    | some srv =>
      obtain ⟨r, hr, -⟩ := attempt_results srv (visitPath path ep srv)
        (st.world ep.id) st.value
      rw [visits_cons_of_some hw hc ha hm, ih, resultsAt_visit, length_append]
      by_cases he : ep.id = e
      · rw [if_pos he, hr, if_pos (by rw [he]; simp), length_singleton]
        omega
      · rw [if_neg he, if_neg (by simp [he]), length_nil]
        omega

/-! ### The value -/

theorem visits_spoiled (l : List Endpoint) (st : WriteLoop S O) (h : Spoiled st.value) :
    (visits d timed auth path st l).value = st.value := by
  refine visits_keeps (P := (·.value = st.value)) hw hc ha rfl fun s ep srv _ _ hs => ?_
  rw [apply_value, hs, h.appendListValue]
  exact ite_self _

omit hw hc ha in
/-- A list that the element lengthens spoils the value. -/
theorem lengthens_iff {world : BitVec 16 → S} {v : AttributeValue (Any O)} (hm : matched d timed path auth ep = some srv) :
    Lengthens d timed world path v auth ep ↔
      ∃ merged, appendListValue srv (world ep.id) path.attributeID v = some merged ∧ Spoiled merged := by
  constructor
  · rintro ⟨srv', type, item, items, hm', hv, hcur, hne⟩
    obtain rfl : srv = srv' := Option.some.inj (hm.symm.trans hm')
    refine ⟨{ value := some (.slice type (items ++ [item])), isNull := false }, ?_, ?_⟩
    · unfold appendListValue
      rw [hcur, hv]
      exact if_pos rfl
    intro type' item' h
    obtain ⟨-, h⟩ := Any.slice.inj (Option.some.inj h)
    cases items with
    | nil => exact hne rfl
    | cons x xs => exact absurd (congrArg List.length h) (by simp)
  · rintro ⟨merged, hmer, hs⟩
    obtain ⟨type, item, items, hv, hcur, rfl⟩ := appendListValue_eq_some hmer
    refine ⟨srv, type, item, items, hm, hv, hcur, ?_⟩
    rintro rfl
    exact hs type item rfl

/-- The value after a loop of appends: spoiled by a list that it lengthened,
or still the element of the call. -/
theorem visits_value (world : BitVec 16 → S) (v : AttributeValue (Any O)) (happ : path.listAppend = true)
    (l : List Endpoint) (st : WriteLoop S O) (hp : l.Pairwise fun a b => matched d timed path auth a ≠ none →
      matched d timed path auth b ≠ none → a.id ≠ b.id)
    (hs : ∀ ep ∈ l, matched d timed path auth ep ≠ none → st.world ep.id = world ep.id)
    (hv : st.value.value = v.value) :
    (∃ ep ∈ l, Lengthens d timed world path v auth ep) ∧ Spoiled (visits d timed auth path st l).value ∨
      (∀ ep ∈ l, ¬ Lengthens d timed world path v auth ep) ∧
        (visits d timed auth path st l).value.value = v.value := by
  induction l generalizing st with
  | nil => exact .inr ⟨fun ep h => absurd h not_mem_nil, hv⟩
  | cons ep l ih =>
    obtain ⟨hpe, hpl⟩ := pairwise_cons.mp hp
    have hsl := fun a ha => hs a (mem_cons_of_mem ep ha)
    cases hm : matched d timed path auth ep with
    | none =>
      have hn : ¬ Lengthens d timed world path v auth ep := fun ⟨srv, _, _, _, h, _⟩ =>
        Option.some_ne_none srv (h.symm.trans hm)
      rw [visits_cons_of_none hw hc ha hm]
      exact (ih st hpl hsl hv).imp (.imp_left fun ⟨a, ha, h⟩ => ⟨a, mem_cons_of_mem ep ha, h⟩)
        (.imp_left fun h => forall_mem_cons.mpr ⟨hn, h⟩)
    | some srv =>
      have hme : matched d timed path auth ep ≠ none := by rw [hm]; exact Option.some_ne_none srv
      have hval : (st.apply srv (visitPath path ep srv)).value =
          (appendListValue srv (world ep.id) path.attributeID v).getD st.value := by
        rw [apply_value, ← hs ep mem_cons_self hme, ← appendListValue_congr srv (st.world ep.id) _ hv]
        exact if_pos happ
      have hwl : ∀ a ∈ l, matched d timed path auth a ≠ none →
          (st.apply srv (visitPath path ep srv)).world a.id = world a.id := fun a hal hma =>
        (apply_world_of_ne st (hpe a hal hme hma).symm).trans (hsl a hal hma)
      rw [visits_cons_of_some hw hc ha hm]
      by_cases hl : Lengthens d timed world path v auth ep
      · obtain ⟨merged, hmer, hsp⟩ := (lengthens_iff hm).mp hl
        rw [hmer] at hval
        refine .inl ⟨⟨ep, mem_cons_self, hl⟩, ?_⟩
        rw [visits_spoiled hw hc ha l _ (by rw [hval]; exact hsp), hval]
        exact hsp
      · have hval' : (st.apply srv (visitPath path ep srv)).value.value = v.value := by
          cases hmer : appendListValue srv (world ep.id) path.attributeID v with
          | none => rw [hval, hmer]; exact hv
          | some merged =>
            obtain ⟨type, item, items, hvv, hcur, rfl⟩ := appendListValue_eq_some hmer
            cases items with
            | nil => rw [hval, hmer, hvv]; rfl
            | cons x xs => exact absurd ⟨srv, type, item, x :: xs, hm, hvv, hcur, cons_ne_nil x xs⟩ hl
        exact (ih _ hpl hwl hval').imp (.imp_left fun ⟨a, ha, h⟩ => ⟨a, mem_cons_of_mem ep ha, h⟩)
          (.imp_left fun h => forall_mem_cons.mpr ⟨hl, h⟩)

theorem visits_value_of_write (happ : path.listAppend = false) (l : List Endpoint) (st : WriteLoop S O) :
    (visits d timed auth path st l).value = st.value := by
  refine visits_keeps (P := (·.value = st.value)) hw hc ha rfl fun s ep srv _ _ hs => ?_
  rw [apply_value, hs]
  exact if_neg (by rw [show (visitPath path ep srv).listAppend = false from happ]; exact Bool.false_ne_true)

/-! ## The endpoints of a path -/

omit hw hc ha in
theorem findByID_eq_some {e : BitVec 16} (h : d.topology.findByID e = some ep) : ep ∈ d.topology ∧ ep.id = e :=
  ⟨mem_of_find?_eq_some h, beq_iff_eq.mp (List.find?_some (p := fun ep : Endpoint => ep.id == e) h)⟩

omit hw hc ha in
theorem findByID_of_mem (h : ep ∈ d.topology) : d.topology.findByID ep.id = some ep := by
  cases hf : d.topology.findByID ep.id with
  | none => exact absurd (beq_self_eq_true ep.id) (List.find?_eq_none.mp hf ep h)
  | some ep' =>
    obtain ⟨hmem, hid⟩ := findByID_eq_some hf
    rw [inj_on_of_nodup_map d.unique hmem h hid]

omit hc ha in
theorem resolveEndpoints_wildcard :
    d.resolveEndpoints path = (d.topology.findByID 0).toList ++ (d.topology.findByID 1).toList ++
      d.topology.filter fun ep => !ep.isRoot && !ep.isAggregator := by
  unfold TopologyDispatcher.resolveEndpoints
  rw [hw]
  rfl

omit hc ha in
theorem mem_topology_of_resolved (h : ep ∈ d.resolveEndpoints path) : ep ∈ d.topology := by
  rw [resolveEndpoints_wildcard hw, mem_append, mem_append] at h
  obtain (h | h) | h := h
  · exact (findByID_eq_some (Option.mem_toList.mp h)).1
  · exact (findByID_eq_some (Option.mem_toList.mp h)).1
  · exact (mem_filter.mp h).1

omit hc ha in
/-- No endpoint that is matched is left out, as long as an aggregator has number 1. -/
theorem mem_resolveEndpoints (h : AggregatorIsOne d timed path auth) (he : ep ∈ d.topology)
    (hm : matched d timed path auth ep ≠ none) : ep ∈ d.resolveEndpoints path := by
  have hfind : d.topology.findByID ep.id = some ep := findByID_of_mem he
  rw [resolveEndpoints_wildcard hw, mem_append, mem_append]
  by_cases h0 : ep.id = 0
  · exact .inl (.inl (Option.mem_toList.mpr (h0 ▸ hfind)))
  by_cases h1 : ep.id = 1
  · exact .inl (.inr (Option.mem_toList.mpr (h1 ▸ hfind)))
  · have hagg : ep.isAggregator = false := Bool.eq_false_iff.mpr fun hagg => h1 ((h ep he hm h0).mpr hagg)
    refine .inr (mem_filter.mpr ⟨he, ?_⟩)
    rw [hagg, Endpoint.isRoot, beq_false_of_ne h0]
    rfl

omit hc ha in
/-- No endpoint is matched twice, as long as number 1 is an aggregator or not
matched. -/
theorem resolveEndpoints_pairwise (h : AggregatorIsOne d timed path auth) :
    (d.resolveEndpoints path).Pairwise fun a b => matched d timed path auth a ≠ none →
      matched d timed path auth b ≠ none → a.id ≠ b.id := by
  have single (e : BitVec 16) (R : Endpoint → Endpoint → Prop) : (d.topology.findByID e).toList.Pairwise R := by
    cases d.topology.findByID e with
    | none => exact .nil
    | some ep => exact pairwise_singleton R ep
  have rest : (d.topology.filter fun ep => !ep.isRoot && !ep.isAggregator).Pairwise fun a b => a.id ≠ b.id :=
    (pairwise_map.mp d.unique).sublist filter_sublist
  rw [resolveEndpoints_wildcard hw, pairwise_append, pairwise_append]
  refine ⟨⟨single 0 _, single 1 _, ?_⟩, rest.imp fun hne _ _ => hne, ?_⟩
  · intro a hma b hmb _ _
    rw [(findByID_eq_some (Option.mem_toList.mp hma)).2, (findByID_eq_some (Option.mem_toList.mp hmb)).2]
    decide
  intro a hma b hmb _ hb heq
  obtain ⟨hbt, hbf⟩ := mem_filter.mp hmb
  simp only [Bool.and_eq_true] at hbf
  obtain hma | hma := mem_append.mp hma
  · have hb0 : b.id = 0 := heq.symm.trans (findByID_eq_some (Option.mem_toList.mp hma)).2
    exact absurd hbf.1 (by rw [Endpoint.isRoot, hb0]; decide)
  · have hb1 : b.id = 1 := heq.symm.trans (findByID_eq_some (Option.mem_toList.mp hma)).2
    have hb0 : b.id ≠ 0 := by rw [hb1]; decide
    rw [(h b hbt hb hb0).mp hb1] at hbf
    exact absurd hbf.2 (by decide)

/-! ## The calls -/

variable (world : BitVec 16 → S) (v : AttributeValue (Any O))

/-- The loop's variables at its start. -/
def start : WriteLoop S O := { world := world, value := v, results := [], handed := [] }

omit hc ha in
theorem writeAuthorized_wildcard (e : BitVec 16) :
    resultsAt (d.writeAuthorized timed world path v auth) e =
        resultsAt (visits d timed auth path (start world v) (d.resolveEndpoints path)) e ∧
      handedAt (d.writeAuthorized timed world path v auth) e =
        handedAt (visits d timed auth path (start world v) (d.resolveEndpoints path)) e := by
  unfold TopologyDispatcher.writeAuthorized
  cases hr : d.resolveEndpoints path with
  | nil =>
    refine ⟨filter_eq_nil_iff.mpr fun r hm => ?_, rfl⟩
    rw [mem_singleton.mp hm]
    simp [hw]
  | cons ep l => exact ⟨rfl, rfl⟩

omit hw in
theorem writeAuthorized_concrete (he : ep ∈ d.topology) (h : matched d timed path auth ep = some srv) :
    d.writeAuthorized timed world (concretePath path ep.id) v auth =
      (start world v).apply srv (visitPath path ep srv) := by
  have hr : d.resolveEndpoints (concretePath path ep.id) = [ep] := by
    refine (if_pos rfl).trans ?_
    rw [show (concretePath path ep.id).endpoint = ep.id from rfl, findByID_of_mem he]
    rfl
  unfold TopologyDispatcher.writeAuthorized
  rw [hr]
  exact writeEndpoint_concrete (start world v) hc ha h

/-- What a wildcard call does at an endpoint it visits once. -/
theorem visits_at {before after : List Endpoint}
    (hp : (before ++ ep :: after).Pairwise fun a b => matched d timed path auth a ≠ none →
      matched d timed path auth b ≠ none → a.id ≠ b.id) (hm : matched d timed path auth ep = some srv) :
    resultsAt (visits d timed auth path (start world v) (before ++ ep :: after)) ep.id =
        (attempt srv (visitPath path ep srv) (world ep.id)
          (visits d timed auth path (start world v) before).value).results ∧
      handedAt (visits d timed auth path (start world v) (before ++ ep :: after)) ep.id =
        (attempt srv (visitPath path ep srv) (world ep.id)
          (visits d timed auth path (start world v) before).value).handed := by
  have hme : matched d timed path auth ep ≠ none := by rw [hm]; exact Option.some_ne_none srv
  obtain ⟨-, hpa, hpb⟩ := pairwise_append.mp hp
  obtain ⟨hw1, hr1, hh1⟩ := visits_frame hw hc ha ep.id before (start world v)
    fun a hma hna => hpb a hma ep mem_cons_self hna hme
  have hsplit : visits d timed auth path (start world v) (before ++ ep :: after) =
      visits d timed auth path
        ((visits d timed auth path (start world v) before).apply srv (visitPath path ep srv)) after := by
    rw [← visits_cons_of_some hw hc ha hm]
    exact foldl_append
  obtain ⟨-, hr2, hh2⟩ := visits_frame hw hc ha ep.id after
    ((visits d timed auth path (start world v) before).apply srv (visitPath path ep srv))
    fun a hma hna => ((pairwise_cons.mp hpa).1 a hma hme hna).symm
  rw [hsplit, hr2, hh2, resultsAt_visit, handedAt_visit, if_pos rfl, if_pos rfl, hr1, hh1, hw1]
  exact ⟨rfl, rfl⟩

/-! ## Independence -/

omit hw in
/-- What the call on the path of a matched endpoint does there. -/
theorem concrete_results (he : ep ∈ d.topology) (h : matched d timed path auth ep = some srv) :
    (d.writeAuthorized timed world (concretePath path ep.id) v auth).results =
        (attempt srv (visitPath path ep srv) (world ep.id) v).results ∧
      (d.writeAuthorized timed world (concretePath path ep.id) v auth).handed =
        (attempt srv (visitPath path ep srv) (world ep.id) v).handed := by
  rw [writeAuthorized_concrete hc ha world v he h, apply_results, apply_handed]
  exact ⟨rfl, rfl⟩

/-- A call whose endpoints are matched once, and whose element meets only
endpoints that take it as the call alone would. -/
theorem independent_of_visited_once (h1 : AggregatorIsOne d timed path auth)
    (h2 : path.listAppend = true → NoLongerListBefore d timed world path v auth) :
    Independent d timed world path v auth := by
  intro ep hep hmm
  have hp := resolveEndpoints_pairwise hw h1
  obtain ⟨hwr, hwh⟩ := writeAuthorized_wildcard hw world v ep.id
  rw [hwr, hwh]
  obtain ⟨srv, hm⟩ := Option.ne_none_iff_exists'.mp hmm
  obtain ⟨before, after, hsplit⟩ := append_of_mem (mem_resolveEndpoints hw h1 hep hmm)
  rw [hsplit] at hp ⊢
  obtain ⟨hr, hh⟩ := visits_at hw hc ha world v hp hm
  obtain ⟨hcr, hch⟩ := concrete_results hc ha world v hep hm
  rw [hr, hh, hcr, hch]
  cases happ : path.listAppend with
  | false =>
    rw [visits_value_of_write hw hc ha happ]
    exact ⟨rfl, rfl⟩
  | true =>
    refine attempt_congr (world ep.id) happ ?_
    obtain ⟨⟨a, hab, hl⟩, hsp⟩ | ⟨-, hv⟩ := visits_value hw hc ha world v happ before
      (start world v) (pairwise_append.mp hp).1 (fun _ _ _ => rfl) rfl
    · have hn : ¬ Appends d timed world path v auth ep := h2 happ before ep after hsplit a hab hl
      refine (hsp.appendListValue srv _ _).trans (Option.not_isSome_iff_eq_none.mp fun hs => hn ⟨srv, hm, hs⟩).symm
    · exact appendListValue_congr srv _ _ hv

/-- A matched endpoint number 1 that is no aggregator is written twice. -/
theorem two_le_results_of_bare (he : ep ∈ d.topology) (h1 : ep.id = 1) (hagg : ep.isAggregator = false)
    (hm : matched d timed path auth ep ≠ none) :
    2 ≤ (resultsAt (d.writeAuthorized timed world path v auth) ep.id).length := by
  have hmatch : ((matched d timed path auth ep).isSome && ep.id == ep.id) = true := by
    rw [Option.isSome_iff_ne_none.mpr hm, beq_self_eq_true]
    rfl
  have hfilter : ep ∈ d.topology.filter fun ep => !ep.isRoot && !ep.isAggregator :=
    mem_filter.mpr ⟨he, by rw [hagg, Endpoint.isRoot, h1]; decide⟩
  have hfind : d.topology.findByID 1 = some ep := h1 ▸ findByID_of_mem he
  have hcount : 0 < (d.topology.filter fun ep => !ep.isRoot && !ep.isAggregator).countP
      (fun a => (matched d timed path auth a).isSome && a.id == ep.id) :=
    countP_pos_iff.mpr ⟨ep, hfilter, hmatch⟩
  rw [(writeAuthorized_wildcard hw world v ep.id).1,
    visits_results_length hw hc ha, resolveEndpoints_wildcard hw, countP_append,
    countP_append, hfind, Option.toList_some, countP_singleton, if_pos hmatch]
  omega

/-- An aggregator with another number is not visited. -/
theorem no_results_of_aggregator (he : ep ∈ d.topology) (h0 : ep.id ≠ 0) (h1 : ep.id ≠ 1)
    (hagg : ep.isAggregator = true) : resultsAt (d.writeAuthorized timed world path v auth) ep.id = [] := by
  rw [(writeAuthorized_wildcard hw world v ep.id).1]
  refine (visits_frame hw hc ha ep.id _ (start world v) fun a hma _ hid => ?_).2.1
  obtain rfl : a = ep := inj_on_of_nodup_map d.unique (mem_topology_of_resolved hw hma) he hid
  rw [resolveEndpoints_wildcard hw, mem_append, mem_append] at hma
  obtain (hma | hma) | hma := hma
  · exact h0 (findByID_eq_some (Option.mem_toList.mp hma)).2
  · exact h1 (findByID_eq_some (Option.mem_toList.mp hma)).2
  · have hfilter := (mem_filter.mp hma).2
    rw [hagg, Bool.not_true, Bool.and_false] at hfilter
    exact Bool.false_ne_true hfilter

theorem aggregatorIsOne_of_independent (h : Independent d timed world path v auth) :
    AggregatorIsOne d timed path auth := by
  intro ep he hm h0
  obtain ⟨srv, hsrv⟩ := Option.ne_none_iff_exists'.mp hm
  obtain ⟨r, hr, -⟩ := attempt_results srv (visitPath path ep srv) (world ep.id) v
  have hone : (resultsAt (d.writeAuthorized timed world path v auth) ep.id).length = 1 := by
    rw [(h ep he hm).1, (concrete_results hc ha world v he hsrv).1, hr, length_singleton]
  constructor
  · intro h1
    by_contra hagg
    have htwo := two_le_results_of_bare hw hc ha world v he h1 (Bool.eq_false_iff.mpr hagg) hm
    omega
  · intro hagg
    by_contra h1
    rw [no_results_of_aggregator hw hc ha world v he h0 h1 hagg] at hone
    cases hone

theorem noLongerListBefore_of_independent (happ : path.listAppend = true)
    (h : Independent d timed world path v auth) : NoLongerListBefore d timed world path v auth := by
  rintro before ep after hsplit a hab hl ⟨srv, hm, hsome⟩
  have hp := resolveEndpoints_pairwise hw
    (aggregatorIsOne_of_independent hw hc ha world v h)
  have he : ep ∈ d.topology := mem_topology_of_resolved hw (by rw [hsplit]; exact mem_append_cons_self)
  rw [hsplit] at hp
  obtain ⟨-, hh⟩ := visits_at hw hc ha world v hp hm
  obtain ⟨-, hwh⟩ := writeAuthorized_wildcard hw world v ep.id
  rw [hsplit] at hwh
  obtain ⟨-, heq⟩ := h ep he (by rw [hm]; exact Option.some_ne_none srv)
  obtain ⟨-, hsp⟩ | ⟨hno, -⟩ := visits_value hw hc ha world v happ before (start world v)
    (pairwise_append.mp hp).1 (fun _ _ _ => rfl) rfl
  · have hnil := (attempt_handed_isEmpty (p := visitPath path ep srv) (world ep.id) _ happ).mpr
      (hsp.appendListValue srv (world ep.id) path.attributeID)
    rw [hwh, hh, hnil, (concrete_results hc ha world v he hm).2] at heq
    have hnone := (attempt_handed_isEmpty (p := visitPath path ep srv) (world ep.id) v happ).mp heq.symm
    exact absurd hsome (Option.not_isSome_iff_eq_none.mpr hnone)
  · exact hno a hab hl

variable (d timed authorize) in

/-- The writes of a path with an open endpoint are the writes to each endpoint
alone, exactly when, of the endpoints it matches, number 1 is the aggregator and,
appending to lists, no list is behind one that was not empty. -/
theorem wildcard_independent_iff :
    Independent d timed world path v authorize ↔
      AggregatorIsOne d timed path authorize ∧
        (path.listAppend = true → NoLongerListBefore d timed world path v authorize) := by
  constructor
  · intro h
    exact ⟨aggregatorIsOne_of_independent hw hc ha world v h,
      fun happ => noLongerListBefore_of_independent hw hc ha world v happ h⟩
  · rintro ⟨h1, h2⟩
    exact independent_of_visited_once hw hc ha world v h1 h2

end

/-! ## Two bound lists -/

/-- A server with one list, which a write replaces. -/
def bindingServer : ClusterServer (List Nat) Nat where
  matterClusterID := 0x001E
  matterAttributes := some [0]
  matterReportable := []
  attributeList := some (some [0, 0xFFFB])
  matterRead := fun s attrID => if attrID = 0 then some (some (.slice 0 s)) else none
  matterReadFiltered := none
  matterWrite := fun s _ attrID value =>
    match value with
    | some (.slice 0 items) => if attrID = 0 then (none, items) else (some .other, s)
    | _ => (some (.statusCode StatusCode.constraintError), s)

def endpointNumbered (id : BitVec 16) : Endpoint :=
  { id := id, aggregator := id == 1, part := false, deviceType := 0x0100, deviceTypes := [] }

/-- A bridge with the list on its endpoints 2 and 3. -/
def bindingBridge : TopologyDispatcher (List Nat) Nat where
  topology := [endpointNumbered 0, endpointNumbered 1, endpointNumbered 2, endpointNumbered 3]
  unique := by decide
  clusterServers := fun ep => if ep.id = 2 ∨ ep.id = 3 then [bindingServer] else []
  attributeWritable := fun _ _ => some true
  isTimedWrite := fun _ _ => false

/-- An append to the list on every endpoint. -/
def bindEverywhere : ConcreteAttributePath :=
  { cluster := 0x001E, hasCluster := true, attributeID := 0, hasAttribute := true, listAppend := true }

def boundElement : AttributeValue (Any Nat) := { value := some (.slice 0 [7]), isNull := false }

theorem bindingBridge_matched {srv : ClusterServer (List Nat) Nat}
    (h : matched bindingBridge none bindEverywhere none ep = some srv) : srv = bindingServer := by
  have hmem : srv ∈ if ep.id = 2 ∨ ep.id = 3 then [bindingServer] else [] :=
    mem_of_find?_eq_some (Option.filter_eq_some_iff.mp h).1
  split at hmem
  · exact mem_singleton.mp hmem
  · exact absurd hmem not_mem_nil

/-- Empty lists take the element each. -/
theorem wildcard_independent_empty :
    Independent bindingBridge none (fun _ => []) bindEverywhere boundElement none ∧
      handedAt (bindingBridge.writeAuthorized none (fun _ => []) bindEverywhere boundElement none) 3 ≠ [] := by
  refine ⟨(wildcard_independent_iff bindingBridge none none rfl rfl rfl (fun _ => []) boundElement).mpr
    ⟨?_, ?_⟩, by decide +kernel⟩
  · have hagg : ∀ ep ∈ bindingBridge.topology, ep.id = 1 ↔ ep.isAggregator = true := by decide
    exact fun ep he _ _ => hagg ep he
  · rintro - before ep after - a - ⟨srv, type, item, items, hm, -, hcur, hne⟩
    rw [bindingBridge_matched hm] at hcur
    exact absurd (Any.slice.inj (Option.some.inj (Option.some.inj hcur))).2.symm hne

/-- The list of endpoint 2 is not empty: endpoint 3 gets a constraint error in
the call on both, and the element in the call on its own path. -/
theorem wildcard_append_carried :
    ¬ Independent bindingBridge none (fun _ => [5]) bindEverywhere boundElement none := by
  intro h
  have h3 := (h (endpointNumbered 3) (by decide) (by decide +kernel)).2
  exact absurd h3 (by decide +kernel)

end GF.Proof.Endpoint
