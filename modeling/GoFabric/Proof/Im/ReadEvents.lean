import GoFabric.Spec.EventReports

/-!
# Event reads against event paths

A read takes each path to a query of the log, in which the largest number of a field
stands for a wildcard: what it finds are the records that the path matches once the
fields it states as the largest number are wildcards (`widened`). The merge reports
each of them once, by ascending number (`Gathered`). What the authorization keeps is
one test per record (`authorizeEventReports_eq`).
-/

namespace GF.Proof.Im

open GF.Impl.Im GF.Spec.EventReports List
open GF.Impl.Im.Wire (ConcreteEventPath EventReport EventMinimumNumber)

section Selection

variable {α : Type} {log : EventLog α} {rs : List (EventRecord α)} {acc : List (BitVec 64) × List (EventReport α)}
  {rec : EventRecord α} {minNumber : BitVec 64}

/-! ## One query -/

theorem eventPathMatches_iff (p other : ConcreteEventPath) :
    eventPathMatches p other = true ↔
      (p.hasEndpoint = true → p.endpoint = other.endpoint) ∧
        (p.hasCluster = true → p.cluster = other.cluster) ∧ (p.hasEvent = true → p.event = other.event) := by
  simp only [eventPathMatches, Bool.if_false_left, Bool.and_eq_true, Bool.not_eq_true', decide_eq_false_iff_not, not_and,
    not_not, and_true]

/-- What the path states it states as widened, the largest numbers apart. -/
theorem eventPathMatches_widened {p other : ConcreteEventPath} (h : eventPathMatches p other = true) :
    eventPathMatches (widened p) other = true := by
  rw [eventPathMatches_iff] at h ⊢
  simp only [widened, Bool.and_eq_true]
  exact ⟨fun he => h.1 he.1, fun hc => h.2.1 hc.1, fun hv => h.2.2 hv.1⟩

theorem matchRecord_iff (rec : EventRecord α) (endpoint : BitVec 16) (cluster eventID : BitVec 32)
    (minNumber : BitVec 64) :
    matchRecord rec endpoint cluster eventID minNumber = true ↔
      minNumber ≤ rec.number ∧ (endpoint ≠ 0xFFFF → endpoint = rec.endpoint) ∧
        (cluster ≠ 0xFFFFFFFF → cluster = rec.cluster) ∧ (eventID ≠ 0xFFFFFFFF → eventID = rec.eventID) := by
  simp only [matchRecord, Bool.if_false_left, Bool.and_eq_true, Bool.not_eq_true', decide_eq_false_iff_not, not_and,
    not_not, and_true, BitVec.not_lt, eq_comm (b := rec.endpoint), eq_comm (b := rec.cluster), eq_comm (b := rec.eventID)]

/-- A stated field against its place in a query. -/
theorem stated_iff {w : Nat} (has : Bool) (v top x : BitVec w) :
    ((if has then v else top) ≠ top → (if has then v else top) = x) ↔ ((has && v != top) = true → v = x) := by
  cases has with
  | false => simp
  | true => simp

theorem mem_queryPath {path : ConcreteEventPath} :
    rec ∈ queryPath log path minNumber ↔
      rec ∈ log.occurrences ∧ minNumber ≤ rec.number ∧ eventPathMatches (widened path) (recordPath rec) = true := by
  unfold queryPath EventLog.query
  rw [mem_filter, matchRecord_iff, eventPathMatches_iff, stated_iff, stated_iff, stated_iff]
  rfl

/-! ## The merge -/

/-- The reports gathered from the records `rs`: the numbers in them are the ones seen,
each is in one report, and the reports are of these records. -/
structure Gathered (rs : List (EventRecord α)) (acc : List (BitVec 64) × List (EventReport α)) : Prop where
  nodup : (acc.2.map (·.number)).Nodup
  seen : ∀ n, n ∈ acc.1 ↔ n ∈ acc.2.map (·.number)
  sound : ∀ ev ∈ acc.2, ∃ rec ∈ rs, ev = eventReport rec
  complete : ∀ rec ∈ rs, rec.number ∈ acc.2.map (·.number)

theorem gathered_nil : Gathered (α := α) [] ([], []) :=
  ⟨nodup_nil, fun n => by simp, fun _ h => absurd h not_mem_nil, fun _ h => absurd h not_mem_nil⟩

theorem Gathered.addUnseen (h : Gathered rs acc) (rec : EventRecord α) :
    Gathered (rs ++ [rec]) (addUnseen acc rec) := by
  have hsound : ∀ ev ∈ acc.2, ∃ r ∈ rs ++ [rec], ev = eventReport r := fun ev hev =>
    (h.sound ev hev).imp fun r hr => hr.imp_left (mem_append_left _)
  unfold GF.Impl.Im.addUnseen
  by_cases hseen : acc.1.contains rec.number = true
  · rw [if_pos hseen]
    have hin := (h.seen rec.number).1 (contains_iff_mem.mp hseen)
    exact ⟨h.nodup, h.seen, hsound, forall_mem_append.mpr ⟨h.complete, forall_mem_singleton.mpr hin⟩⟩
  · rw [if_neg hseen]
    have hnew : rec.number ∉ acc.2.map (·.number) := fun hin =>
      hseen (contains_iff_mem.mpr ((h.seen rec.number).2 hin))
    refine ⟨?_, fun n => ?_, forall_mem_append.mpr ⟨hsound, ?_⟩, fun r hr => ?_⟩
    · rw [map_append, nodup_append]
      refine ⟨h.nodup, nodup_singleton _, fun a ha b hb => ?_⟩
      exact ne_of_mem_of_not_mem ha (mem_singleton.mp hb ▸ hnew)
    · rw [mem_cons, h.seen, map_append, mem_append, or_comm]
      exact or_congr_right mem_singleton.symm
    · exact forall_mem_singleton.mpr ⟨rec, mem_append_right _ (mem_singleton_self rec), rfl⟩
    · rw [map_append, mem_append]
      exact (mem_append.mp hr).imp (h.complete r) fun hr => mem_singleton.mpr (congrArg _ (mem_singleton.mp hr))

theorem Gathered.foldl (h : Gathered rs acc) (more : List (EventRecord α)) :
    Gathered (rs ++ more) (more.foldl GF.Impl.Im.addUnseen acc) := by
  induction more generalizing rs acc with
  | nil => rwa [append_nil]
  | cons rec more ih =>
    have := ih (h.addUnseen rec)
    rwa [append_assoc] at this

theorem gathered_paths (log : EventLog α) (minNumber : BitVec 64) (paths : List ConcreteEventPath) :
    Gathered (paths.flatMap fun path => queryPath log path minNumber)
      (paths.foldl (fun acc path => (queryPath log path minNumber).foldl GF.Impl.Im.addUnseen acc) ([], [])) := by
  have := gathered_nil.foldl (paths.flatMap fun path => queryPath log path minNumber)
  rwa [foldl_flatMap] at this

/-- With a number for each record, a record is reported exactly if it was found. -/
theorem Gathered.mem_iff (h : Gathered rs acc) (hrs : ∀ a ∈ rs, ∀ b ∈ rs, a.number = b.number → a = b)
    (ev : EventReport α) : ev ∈ acc.2 ↔ ∃ rec ∈ rs, ev = eventReport rec := by
  refine ⟨h.sound ev, ?_⟩
  rintro ⟨rec, hrec, rfl⟩
  obtain ⟨ev, hev, hn⟩ := mem_map.mp (h.complete rec hrec)
  obtain ⟨rec', hrec', rfl⟩ := h.sound ev hev
  rwa [hrs rec hrec rec' hrec' hn.symm]

/-- Sorted by number, where the numbers differ. -/
theorem pairwise_sorted {out : List (EventReport α)} (h : (out.map (·.number)).Nodup) :
    (out.insertionSort fun a b => a.number ≤ b.number).Pairwise (·.number < ·.number) := by
  have hle := pairwise_insertionSort (fun a b : EventReport α => a.number ≤ b.number) out
  have hperm := perm_insertionSort (fun a b : EventReport α => a.number ≤ b.number) out
  have hne : ((out.insertionSort fun a b => a.number ≤ b.number).map (·.number)).Nodup :=
    (hperm.map _).nodup_iff.mpr h
  rw [List.Nodup, pairwise_map] at hne
  refine (hle.and hne).imp fun {a b} h => BitVec.lt_def.mpr ?_
  exact Nat.lt_of_le_of_ne (BitVec.le_def.mp h.1) fun he => h.2 (BitVec.eq_of_toNat_eq he)

/-- What a read reports: the records from the minimum on that a widened path matches,
by ascending number. -/
theorem buildEventReports_spec (hnumbers : (log.occurrences.map (·.number)).Nodup) (paths : List ConcreteEventPath)
    (filters : List EventMinimumNumber) :
    (buildEventReports paths (some log) filters).Pairwise (·.number < ·.number) ∧
      ∀ ev, ev ∈ buildEventReports paths (some log) filters ↔
        ∃ rec ∈ log.occurrences, ev = eventReport rec ∧ minEventNumberFromFilters filters ≤ rec.number ∧
          ∃ p ∈ paths, eventPathMatches (widened p) (recordPath rec) = true := by
  by_cases hempty : paths.isEmpty = true
  · obtain rfl := isEmpty_iff.mp hempty
    simp [buildEventReports]
  simp only [buildEventReports, if_neg hempty]
  have hg := gathered_paths log (minEventNumberFromFilters filters) paths
  refine ⟨pairwise_sorted hg.nodup, fun ev => ?_⟩
  have hinj : ∀ a ∈ log.occurrences, ∀ b ∈ log.occurrences, a.number = b.number → a = b :=
    fun a ha b hb he => inj_on_of_nodup_map hnumbers ha hb he
  have hfound : ∀ rec ∈ paths.flatMap (fun path => queryPath log path (minEventNumberFromFilters filters)),
      rec ∈ log.occurrences := fun rec hrec => by
    obtain ⟨p, -, hp⟩ := mem_flatMap.mp hrec
    exact (mem_queryPath.mp hp).1
  rw [mem_insertionSort, hg.mem_iff fun a ha b hb => hinj a (hfound a ha) b (hfound b hb)]
  constructor
  · rintro ⟨rec, hrec, he⟩
    obtain ⟨p, hp, hrec⟩ := mem_flatMap.mp hrec
    obtain ⟨hin, hmin, hmatch⟩ := mem_queryPath.mp hrec
    exact ⟨rec, hin, he, hmin, p, hp, hmatch⟩
  · rintro ⟨rec, hin, he, hmin, p, hp, hmatch⟩
    exact ⟨rec, mem_flatMap.mpr ⟨p, hp, mem_queryPath.mpr ⟨hin, hmin, hmatch⟩⟩, he⟩

/-! ## Reads and subscriptions -/

theorem mem_query_all :
    rec ∈ log.query 0xFFFF 0xFFFFFFFF 0xFFFFFFFF minNumber ↔ rec ∈ log.occurrences ∧ minNumber ≤ rec.number := by
  unfold EventLog.query
  rw [mem_filter, matchRecord_iff]
  simp

/-- What a subscription with owed events reports when it is drained by force. -/
theorem mem_drainEvents_force {s : Subscription} (hopen : s.closed = false) (hpending : s.eventsPending = true)
    (now : Int) (log : EventLog α) (ev : EventReport α) :
    ev ∈ (s.drainEvents now (some log) true).1 ↔
      ∃ rec ∈ log.occurrences, ev = eventReport rec ∧ s.eventsMin ≤ rec.number ∧
        s.selectsEvent (recordPath rec) = true := by
  simp only [Subscription.drainEvents, Subscription.drainSource, Option.map_some, hopen, hpending, Bool.or_true,
    Bool.false_eq_true, Bool.not_true, or_false, false_and, if_false]
  constructor
  · intro h
    split at h
    · exact absurd h not_mem_nil
    obtain ⟨rec, hrec, rfl⟩ := mem_map.mp h
    obtain ⟨hrec, hsel⟩ := mem_filter.mp hrec
    obtain ⟨hin, hmin⟩ := mem_query_all.mp hrec
    exact ⟨rec, hin, rfl, hmin, hsel⟩
  · rintro ⟨rec, hin, rfl, hmin, hsel⟩
    have hrec := mem_query_all.mpr ⟨hin, hmin⟩
    split
    · rename_i hnone
      rw [List.getLast?_eq_none_iff.mp hnone] at hrec
      exact absurd hrec not_mem_nil
    · exact mem_map.mpr ⟨rec, mem_filter.mpr ⟨hrec, hsel⟩, rfl⟩

/-- Paths mean the same to a read as they do to `Matches` exactly if no record is met by
way of a stated largest number alone. -/
theorem oneMeaning_iff_largestCovered (paths : List ConcreteEventPath) (log : EventLog α)
    (filters : List EventMinimumNumber) (hnumbers : (log.occurrences.map (·.number)).Nodup) :
    OneMeaning paths log filters ↔ LargestCovered paths log filters := by
  obtain ⟨hsorted, hmem⟩ := buildEventReports_spec hnumbers paths filters
  constructor
  · rintro ⟨-, hone, -⟩ rec hrec hmin p hp hmatch
    obtain ⟨rec', hrec', he, -, hq⟩ := (hone (eventReport rec)).mp ((hmem _).mpr ⟨rec, hrec, rfl, hmin, p, hp, hmatch⟩)
    have hnumber : rec.number = rec'.number := congrArg (·.number) he
    rwa [inj_on_of_nodup_map hnumbers hrec hrec' hnumber]
  · intro hcover
    have hone : ∀ ev, ev ∈ buildEventReports paths (some log) filters ↔
        ∃ rec ∈ log.occurrences, ev = eventReport rec ∧ minEventNumberFromFilters filters ≤ rec.number ∧
          ∃ p ∈ paths, eventPathMatches p (recordPath rec) = true := fun ev => by
      rw [hmem]
      constructor
      · rintro ⟨rec, hrec, he, hmin, p, hp, hmatch⟩
        exact ⟨rec, hrec, he, hmin, hcover rec hrec hmin p hp hmatch⟩
      · rintro ⟨rec, hrec, he, hmin, p, hp, hmatch⟩
        exact ⟨rec, hrec, he, hmin, p, hp, eventPathMatches_widened hmatch⟩
    refine ⟨hsorted, hone, fun s now hopen hpending hpaths hmin ev => ?_⟩
    rw [mem_drainEvents_force hopen hpending, hone, hmin]
    simp [Subscription.selectsEvent, hpaths]

def onEndpoint (number : BitVec 64) (endpoint : BitVec 16) : EventRecord Unit :=
  { number := number, priority := .info, endpoint := endpoint, cluster := 0x28, eventID := 0, epochMS := 7,
    payload := () }

def twoRecords : EventLog Unit := { newEventLog (α := Unit) with occurrences := [onEndpoint 1 0, onEndpoint 2 1] }

/-- A wildcard and a path within it: each record is reported once. -/
theorem oneMeaning_twoRecords :
    OneMeaning [{ hasEndpoint := true, endpoint := 1 }, {}] twoRecords [] :=
  (oneMeaning_iff_largestCovered _ twoRecords [] (by decide)).mpr fun _ _ _ _ _ _ =>
    ⟨{}, mem_cons_of_mem _ mem_cons_self, rfl⟩

/-- The endpoint 65535, which has no record, reads as every endpoint. -/
theorem buildEventReports_largest_endpoint :
    buildEventReports [{ hasEndpoint := true, endpoint := 0xFFFF }] (some twoRecords) [] =
        twoRecords.occurrences.map eventReport ∧
      (∀ rec ∈ twoRecords.occurrences,
        eventPathMatches { hasEndpoint := true, endpoint := 0xFFFF } (recordPath rec) = false) ∧
      ¬ OneMeaning [{ hasEndpoint := true, endpoint := 0xFFFF }] twoRecords [] := by
  have hnot : ∀ rec ∈ twoRecords.occurrences,
      eventPathMatches { hasEndpoint := true, endpoint := 0xFFFF } (recordPath rec) = false := by decide
  refine ⟨by decide, hnot, fun h => ?_⟩
  obtain ⟨rec, hrec, -, -, p, hp, hmatch⟩ := (h.2.1 (eventReport (onEndpoint 1 0))).mp (by decide)
  rw [mem_singleton.mp hp, hnot rec hrec] at hmatch
  exact absurd hmatch Bool.false_ne_true

end Selection

/-! ## Authorization -/

/-- The number in the `FabricIndex` field of a payload, behind its pointers. -/
def names : EventPayload → Option Nat
  | .nilPointer => none
  | .pointer target => names target
  | .record fields => (fields.lookup "FabricIndex").bind PayloadField.number
  | .other => none

/-- The fabric that a report's payload names. -/
def namedFabric (ev : EventReport EventPayload) : Option Nat := ev.data.value.bind names

theorem fabricIndex_eq (p : EventPayload) : p.fabricIndex = (names p).map (BitVec.ofNat 8) := by
  have hmask : ∀ n : Nat, BitVec.ofNat 8 (n &&& 0xFF) = BitVec.ofNat 8 n := fun n => by
    apply BitVec.eq_of_toNat_eq
    rw [BitVec.toNat_ofNat, BitVec.toNat_ofNat, show (0xFF : Nat) = 2 ^ 8 - 1 from rfl, Nat.and_two_pow_sub_one_eq_mod,
      Nat.mod_mod]
  induction p with
  | nilPointer => rfl
  | pointer target ih => exact ih
  | record fields =>
    simp only [EventPayload.fabricIndex, names]
    cases fields.lookup "FabricIndex" with
    | none => rfl
    | some f =>
      cases hf : f.number with
      | none => simp [hf]
      | some n => simp [hf, hmask]
  | other => rfl

theorem eventPayloadFabricIndex_eq (ev : EventReport EventPayload) :
    eventPayloadFabricIndex ev.data.value = (namedFabric ev).map (BitVec.ofNat 8) := by
  unfold namedFabric
  cases ev.data.value with
  | none => rfl
  | some p => exact fabricIndex_eq p

/-- Whether the checker lets the subject read the events of the report's cluster. -/
def permits (c : CheckACL) (auth : EventReadAuthorizer) (ev : EventReport EventPayload) : Bool :=
  (checkSubjectACL c auth.subject ev.path.endpoint ev.path.cluster (eventReadPrivilege ev.path.cluster)).isSuccess

/-- The record is of a cluster with fabric-sensitive events. -/
def sensitive (ev : EventReport EventPayload) : Bool := isFabricSensitiveEventCluster ev.path.cluster

/-- What the loop tests of each record. -/
def disclosed (c : CheckACL) (auth : EventReadAuthorizer) (ev : EventReport EventPayload) : Bool :=
  permits c auth ev && (!sensitive ev || (namedFabric ev).map (BitVec.ofNat 8) == some auth.fabricIndex)

section Authorization

variable {auth : EventReadAuthorizer} {c : CheckACL}

theorem foldl_append_of_test {β : Type} (test : β → Bool) (out l : List β) :
    l.foldl (fun out a => if test a = true then out ++ [a] else out) out = out ++ l.filter test := by
  induction l generalizing out with
  | nil => exact (append_nil out).symm
  | cons a l ih =>
    rw [foldl_cons, ih, filter_cons]
    split
    · rw [append_assoc, singleton_append]
    · rfl

theorem authorizeEventReports_eq (hchecker : auth.checker = some c) (hpase : auth.pase = false)
    (events : List (EventReport EventPayload)) :
    authorizeEventReports false auth events = events.filter (disclosed c auth) := by
  simp only [authorizeEventReports, hchecker, hpase]
  refine (foldl_ext _ (fun out ev => if disclosed c auth ev = true then out ++ [ev] else out) [] fun out ev _ => ?_).trans
    (foldl_append_of_test (disclosed c auth) [] events)
  rw [eventPayloadFabricIndex_eq]
  unfold disclosed permits sensitive
  cases (checkSubjectACL c auth.subject ev.path.endpoint ev.path.cluster
    (eventReadPrivilege ev.path.cluster)).isSuccess with
  | false => simp
  | true =>
    cases isFabricSensitiveEventCluster ev.path.cluster with
    | false => simp
    | true =>
      cases (namedFabric ev).map (BitVec.ofNat 8) with
      | none => simp
      | some b =>
        by_cases hb : b = auth.fabricIndex
        · simp [hb]
        · simp [hb]

/-- A record of another fabric may carry any payload of another fabric. -/
def SameToFabric (f : BitVec 8) (ev ev' : EventReport EventPayload) : Prop :=
  ev = ev' ∨ ∃ payload, ev' = { ev with data := { ev.data with value := payload } } ∧ sensitive ev = true ∧
    (∃ n, namedFabric ev = some n ∧ n ≠ f.toNat) ∧ ∃ n, namedFabric ev' = some n ∧ n ≠ f.toNat

/-- The fabrics that the fabric-sensitive records name are numbers of one byte. -/
def NamesBytes (events : List (EventReport EventPayload)) : Prop :=
  ∀ ev ∈ events, sensitive ev = true → ∀ n, namedFabric ev = some n → n < 256

theorem shown_iff {ev : EventReport EventPayload}
    (hbyte : sensitive ev = true → ∀ n, namedFabric ev = some n → n < 256) :
    disclosed c auth ev = true ↔
      permits c auth ev = true ∧ (sensitive ev = true → namedFabric ev = some auth.fabricIndex.toNat) := by
  unfold disclosed
  rw [Bool.and_eq_true, Bool.or_eq_true, Bool.not_eq_true', beq_iff_eq]
  refine and_congr_right fun _ => ?_
  cases hs : sensitive ev with
  | false => simp
  | true =>
    simp only [Bool.true_eq_false, false_or, forall_true_left]
    cases hn : namedFabric ev with
    | none => simp
    | some n =>
      have hlt := hbyte hs n hn
      rw [Option.map_some, Option.some.injEq, Option.some.injEq, ← BitVec.toNat_inj, BitVec.toNat_ofNat,
        Nat.mod_eq_of_lt hlt]

/-- Records that look alike to the fabric are both shown, and equal, or both withheld. -/
theorem filter_shown_of_same {events events' : List (EventReport EventPayload)}
    (h : List.Forall₂ (SameToFabric auth.fabricIndex) events events') (hb : NamesBytes events)
    (hb' : NamesBytes events') : events.filter (disclosed c auth) = events'.filter (disclosed c auth) := by
  induction h with
  | nil => rfl
  | @cons ev ev' events events' hev _ ih =>
    have htail := ih (fun e he => hb e (mem_cons_of_mem _ he)) fun e he => hb' e (mem_cons_of_mem _ he)
    rcases hev with rfl | ⟨payload, rfl, hs, ⟨n, hn, hne⟩, ⟨n', hn', hne'⟩⟩
    · rw [filter_cons, filter_cons, htail]
    have hs' : sensitive { ev with data := { ev.data with value := payload } } = true := hs
    rw [filter_cons_of_neg, filter_cons_of_neg, htail]
    · rw [shown_iff (hb' _ mem_cons_self)]
      intro hshown
      rw [hn', Option.some.injEq] at hshown
      exact hne' (hshown.2 hs')
    · rw [shown_iff (hb _ mem_cons_self)]
      intro hshown
      rw [hn, Option.some.injEq] at hshown
      exact hne (hshown.2 hs)

/-- For a requester on a fabric that is not commissioning: what is returned is a sublist,
without a fabric-sensitive record that names another fabric or a record that the checker
denies, and with every record that the checker permits and, if it is fabric-sensitive,
that names the fabric; records of other fabrics have no part in it. -/
theorem authorizeEventReports_on_fabric (auth : EventReadAuthorizer) (c : CheckACL) (hchecker : auth.checker = some c)
    (hpase : auth.pase = false) (events : List (EventReport EventPayload)) (hbytes : NamesBytes events) :
    (authorizeEventReports false auth events).Sublist events ∧
      (∀ ev ∈ authorizeEventReports false auth events, sensitive ev = true →
        ∀ n, namedFabric ev = some n → n = auth.fabricIndex.toNat) ∧
      (∀ ev ∈ authorizeEventReports false auth events, permits c auth ev = true) ∧
      authorizeEventReports false auth events = events.filter (fun ev =>
        permits c auth ev && (!sensitive ev || namedFabric ev == some auth.fabricIndex.toNat)) ∧
      ∀ events', List.Forall₂ (SameToFabric auth.fabricIndex) events events' → NamesBytes events' →
        authorizeEventReports false auth events' = authorizeEventReports false auth events := by
  rw [authorizeEventReports_eq hchecker hpase]
  have hshown : ∀ ev ∈ events.filter (disclosed c auth),
      permits c auth ev = true ∧ (sensitive ev = true → namedFabric ev = some auth.fabricIndex.toNat) := by
    intro ev hev
    obtain ⟨hin, hev⟩ := mem_filter.mp hev
    exact (shown_iff (hbytes ev hin)).mp hev
  refine ⟨filter_sublist, fun ev hev hs n hn => ?_, fun ev hev => (hshown ev hev).1, ?_, fun events' h hb' => ?_⟩
  · have := (hshown ev hev).2 hs
    rw [hn, Option.some.injEq] at this
    exact this
  · refine filter_congr fun ev hev => ?_
    rw [Bool.eq_iff_iff, shown_iff (hbytes ev hev), Bool.and_eq_true]
    refine and_congr_right fun _ => ?_
    cases sensitive ev with
    | false => simp
    | true => simp
  · rw [authorizeEventReports_eq hchecker hpase]
    exact (filter_shown_of_same h hbytes hb').symm

end Authorization

/-- An authorizer on fabric 1 whose checker permits everything. -/
def onFabricOne : EventReadAuthorizer :=
  { checker := some fun _ _ _ _ _ _ => StatusCode.success, fabricIndex := 1, pase := false, subjectNodeID := 5,
    subjectCATs := [] }

/-- A record of AccessControl with the fields as its payload. -/
def accessChanged (number : BitVec 64) (fields : List (String × PayloadField)) : EventReport EventPayload :=
  { path := { hasEndpoint := true, hasCluster := true, hasEvent := true, cluster := 0x1F }, number := number
    data := { value := some (.pointer (.record fields)) } }

/-- Of two records, the one of the other fabric is withheld, whatever is in it. -/
theorem authorizeEventReports_on_fabric_one :
    authorizeEventReports false onFabricOne
        [accessChanged 1 [("FabricIndex", .uint8 2)],
          accessChanged 2 [("AdminPasscodeID", .uint16 9), ("FabricIndex", .uint8 1)]] =
      authorizeEventReports false onFabricOne
        [accessChanged 1 [("FabricIndex", .uint8 3)],
          accessChanged 2 [("AdminPasscodeID", .uint16 9), ("FabricIndex", .uint8 1)]] := by
  have hbytes : ∀ k : BitVec 8, NamesBytes [accessChanged 1 [("FabricIndex", .uint8 k)],
      accessChanged 2 [("AdminPasscodeID", .uint16 9), ("FabricIndex", .uint8 1)]] := fun k ev hev _ n hn => by
    simp only [mem_cons, not_mem_nil, or_false] at hev
    rcases hev with rfl | rfl
    · have hk : some k.toNat = some n := hn
      rw [Option.some.injEq] at hk
      omega
    · have hk : some 1 = some n := hn
      rw [Option.some.injEq] at hk
      omega
  refine ((authorizeEventReports_on_fabric onFabricOne _ rfl rfl _ (hbytes 2)).2.2.2.2 _ ?_ (hbytes 3)).symm
  refine .cons (.inr ⟨some (.pointer (.record [("FabricIndex", .uint8 3)])), rfl, rfl, ⟨2, rfl, by decide⟩, ⟨3, rfl, ?_⟩⟩)
    (.cons (.inl rfl) .nil)
  decide

/-- A fabric-sensitive record that names no fabric passes both tests, and is withheld. -/
theorem authorizeEventReports_unnamed :
    permits (fun _ _ _ _ _ _ => StatusCode.success) onFabricOne (accessChanged 1 []) = true ∧
      namedFabric (accessChanged 1 []) = none ∧
      authorizeEventReports false onFabricOne [accessChanged 1 []] = [] := by
  decide

end GF.Proof.Im
