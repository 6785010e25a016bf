import GoFabric.Framework.AList
import GoFabric.Framework.Cyclic
import GoFabric.Impl.Endpoint.Memstore

/-!
# Endpoint numbers are stable and not recycled early

The two maps of the store are inverse to each other (`Tidy`), so that no two keys
share a number, and no call but the removal of a key changes its number. The counter
moves over the numbers that are held, and a number is handed out again after all others
have been held, if no call in between takes the counter over a free number
(`SkipsNoFree`).
-/

namespace GF.Proof.Endpoint.Memstore

open GF.Impl.Endpoints.Memstore List Option
open Cyclic (Advance Passed)

variable {κ : Type} [DecidableEq κ] {s s' : Store κ} {rec : Record κ} {id : Nat} {calls : List (Call κ)}
  {H : Nat → Prop} {n : Nat} {call : Call κ}

/-- Some key holds the number. -/
def Held (s : Store κ) (n : Nat) : Prop := ∃ k r, s.rows.lookup k = some r ∧ r.endpointID = n

instance (n : Nat) : DecidablePred fun s : Store κ => Held s n := fun s =>
  decidable_of_iff (∃ e ∈ s.rows.entries, e.2.endpointID = n)
    ⟨fun ⟨⟨k, r⟩, hmem, hn⟩ => ⟨k, r, AList.mem_lookup_iff.2 hmem, hn⟩,
      fun ⟨k, r, hr, hn⟩ => ⟨⟨k, r⟩, AList.mem_lookup_iff.1 hr, hn⟩⟩

/-- The call assigns the number to a new key, and the store chose the number. -/
def Assigns (n : Nat) (s : Store κ) (call : Call κ) : Prop :=
  ∃ rec s', call = .upsert rec ∧ s.rows.lookup rec.key = none ∧ rec.endpointID = 0 ∧
    s.upsertEndpointAssigning rec = .ok (n, s')

/-- A call that stores a new key does not take the counter over a free number: not over
one up to the highest that a key holds, nor over one below the number that the
caller chose. -/
def SkipsNoFree (s : Store κ) : Call κ → Prop
  | .upsert rec =>
    (s.upsertEndpointAssigning rec).isOk → s.rows.lookup rec.key = none →
      ∀ m, s.next ≤ m → m < (if rec.endpointID = 0 then s.start else rec.endpointID) → Held s m
  | .remove _ => True

/-! ## The free number -/

omit [DecidableEq κ] in
/-- What `firstFree` finds: the lowest free number, or 0 where all are held. -/
theorem firstFree_spec (s : Store κ) (lo hi : Nat) :
    (s.firstFree lo hi = 0 ∧ ∀ m, lo ≤ m → m ≤ hi → m ∈ s.byID) ∨
      (lo ≤ s.firstFree lo hi ∧ s.firstFree lo hi ≤ hi ∧ s.firstFree lo hi ∉ s.byID ∧
        ∀ m, lo ≤ m → m < s.firstFree lo hi → m ∈ s.byID) := by
  unfold Store.firstFree
  cases h : (List.range' lo (hi + 1 - lo)).find? fun n => (s.byID.lookup n).isNone with
  | none =>
    refine .inl ⟨rfl, fun m hm hm' => ?_⟩
    have := List.find?_eq_none.1 h m (mem_range'_1.2 ⟨hm, by omega⟩)
    rwa [isNone_iff_eq_none, AList.lookup_eq_none, not_not] at this
  | some n =>
    obtain ⟨hn, as, bs, heq, has⟩ := List.find?_eq_some_iff_append.1 h
    have hmem : n ∈ List.range' lo (hi + 1 - lo) := heq ▸ mem_append_right _ mem_cons_self
    rw [mem_range'_1] at hmem
    rw [isNone_iff_eq_none, AList.lookup_eq_none] at hn
    refine .inr ⟨hmem.1, by simp only [getD_some]; omega, hn, fun m hm hm' => ?_⟩
    simp only [getD_some] at hm'
    -- a number below `n` stands before it in the range
    have hmas : m ∈ as := by
      have hmr : m ∈ List.range' lo (hi + 1 - lo) := mem_range'_1.2 ⟨hm, by omega⟩
      have hsorted : (as ++ n :: bs).Pairwise (· < ·) := heq ▸ pairwise_lt_range'
      rw [heq, mem_append] at hmr
      rcases hmr with hmr | hmr
      · exact hmr
      have := (pairwise_append.1 hsorted).2.1
      rcases mem_cons.1 hmr with rfl | hmr
      · omega
      · exact absurd (rel_of_pairwise_cons this hmr) (by omega)
    have := has m hmas
    rwa [Bool.not_eq_true', isNone_eq_false_iff, AList.lookup_isSome] at this

omit [DecidableEq κ] in
/-- What `allocate` finds: a free number of the range, after a way over numbers that
are held, or none where all are held. -/
theorem candidate_spec (hlow : allocMin ≤ s.next) :
    (s.candidate = 0 ∧ ∀ m, allocMin ≤ m → m ≤ endpointIDMax → m ∈ s.byID) ∨
      (allocMin ≤ s.candidate ∧ s.candidate ≤ endpointIDMax ∧ s.candidate ∉ s.byID ∧
        Advance allocMin endpointIDMax (· ∈ s.byID) s.start s.candidate) := by
  have hstart : s.next ≤ s.start := Nat.le_max_left ..
  have hpos : 0 < allocMin := by decide
  unfold Store.candidate
  rcases firstFree_spec s s.start endpointIDMax with ⟨h0, hheld⟩ | ⟨hlo, hhi, hfree, hbelow⟩
  · rw [if_pos h0]
    rcases firstFree_spec s allocMin (min (s.start - 1) endpointIDMax) with ⟨h0', hheld'⟩ | ⟨hlo, hhi, hfree, hbelow⟩
    · refine .inl ⟨h0', fun m hm hm' => ?_⟩
      by_cases hms : s.start ≤ m
      · exact hheld m hms hm'
      · exact hheld' m hm (by omega)
    · exact .inr ⟨hlo, by omega, hfree, .around hheld hbelow⟩
  · rw [if_neg (by omega)]
    exact .inr ⟨by omega, hhi, hfree, .up hlo hbelow⟩

/-! ## What a call does -/

inductive Upserted (s : Store κ) (rec : Record κ) : Nat → Store κ → Prop
  | known (old : Record κ) (h : s.rows.lookup rec.key = some old) :
    Upserted s rec old.endpointID
      { s with rows := s.rows.insert rec.key { rec with endpointID := old.endpointID } }
  | chosen (hnew : s.rows.lookup rec.key = none) (h0 : rec.endpointID ≠ 0) (htop : rec.endpointID ≤ endpointIDMax)
    (hfree : s.byID.lookup rec.endpointID = none) :
    Upserted s rec rec.endpointID ({ s with next := max s.next (rec.endpointID + 1) }.insertRow rec)
  | allocated (hnew : s.rows.lookup rec.key = none) (h0 : rec.endpointID = 0) (hid : s.candidate ≠ 0) :
    Upserted s rec s.candidate
      ({ s with next := s.candidate + 1 }.insertRow { rec with endpointID := s.candidate })

theorem upserted (h : s.upsertEndpointAssigning rec = .ok (id, s')) : Upserted s rec id s' := by
  unfold Store.upsertEndpointAssigning at h
  cases hold : s.rows.lookup rec.key with
  | some old =>
    rw [hold] at h
    cases h
    exact .known old hold
  | none =>
    simp only [hold] at h
    by_cases h0 : rec.endpointID = 0
    · rw [if_neg (not_not.2 h0), Store.allocate] at h
      by_cases hc : s.candidate = 0
      · rw [if_pos hc] at h
        cases h
      · rw [if_neg hc] at h
        cases h
        exact .allocated hold h0 hc
    · rw [if_pos h0] at h
      by_cases hout : rec.endpointID < endpointIDMin ∨ endpointIDMax < rec.endpointID
      · rw [if_pos hout] at h
        cases h
      rw [if_neg hout] at h
      cases hb : s.byID.lookup rec.endpointID with
      | some holder =>
        rw [hb] at h
        cases h
      | none =>
        rw [hb] at h
        cases h
        exact .chosen hold h0 (by omega) hb

/-! ## The invariant -/

/-- The maps are inverse to each other, the counter is not below the first number, and
`highest` is the highest number held. -/
structure Tidy (s : Store κ) : Prop where
  number : ∀ k r, s.rows.lookup k = some r → s.byID.lookup r.endpointID = some k
  holder : ∀ n k, s.byID.lookup n = some k → ∃ r, s.rows.lookup k = some r ∧ r.endpointID = n
  low : allocMin ≤ s.next
  highest : ∀ n ∈ s.byID, n ≤ s.highest

theorem Tidy.held_iff (h : Tidy s) : Held s n ↔ n ∈ s.byID := by
  constructor
  · rintro ⟨k, r, hr, rfl⟩
    exact AList.lookup_isSome.1 (by rw [h.number k r hr]; rfl)
  intro hn
  obtain ⟨k, hk⟩ := isSome_iff_exists.1 (AList.lookup_isSome.2 hn)
  obtain ⟨r, hr, hrn⟩ := h.holder n k hk
  exact ⟨k, r, hr, hrn⟩

theorem tidy_new : Tidy (Store.new : Store κ) where
  number k r h := by cases h
  holder n k h := by cases h
  low := Nat.le_refl _
  highest n h := absurd h (AList.notMem_empty n)

theorem Tidy.insertRow (h : Tidy s) (rec : Record κ) (hnew : s.rows.lookup rec.key = none)
    (hfree : s.byID.lookup rec.endpointID = none) {next : Nat} (hlow : allocMin ≤ next) :
    Tidy ({ s with next }.insertRow rec) where
  number k r hr := by
    obtain ⟨rfl, rfl⟩ | ⟨-, hr⟩ := lookup_insert_some.1 hr
    · exact AList.lookup_insert ..
    · have hn := h.number k r hr
      have hne : r.endpointID ≠ rec.endpointID := fun he => by cases hn.symm.trans (he ▸ hfree)
      exact (AList.lookup_insert_ne hne).trans hn
  holder n k hn := by
    obtain ⟨rfl, rfl⟩ | ⟨-, hn⟩ := lookup_insert_some.1 hn
    · exact ⟨rec, AList.lookup_insert .., rfl⟩
    · obtain ⟨r, hr, hrn⟩ := h.holder n k hn
      have hk : k ≠ rec.key := fun he => by cases hr.symm.trans (he ▸ hnew)
      exact ⟨r, (AList.lookup_insert_ne hk).trans hr, hrn⟩
  low := hlow
  highest n hn := by
    rcases (AList.mem_insert _).1 hn with rfl | hn
    · exact Nat.le_max_right ..
    · exact Nat.le_trans (h.highest n hn) (Nat.le_max_left ..)

theorem Tidy.free_of_candidate (h : Tidy s) (hid : s.candidate ≠ 0) : s.candidate ∉ s.byID := by
  rcases candidate_spec h.low with ⟨h0, -⟩ | ⟨-, -, hfree, -⟩
  · exact absurd h0 hid
  · exact hfree

theorem Tidy.upserted (h : Tidy s) (hu : Upserted s rec id s') : Tidy s' := by
  cases hu with
  | known old hold =>
    have hsome := h.number rec.key old hold
    refine ⟨fun k r hr => ?_, fun n k hn => ?_, h.low, h.highest⟩
    · obtain ⟨rfl, rfl⟩ | ⟨-, hr⟩ := lookup_insert_some.1 hr
      · exact hsome
      · exact h.number k r hr
    · obtain ⟨r, hr, hrn⟩ := h.holder n k hn
      by_cases hk : k = rec.key
      · subst hk
        cases hold.symm.trans hr
        exact ⟨_, AList.lookup_insert .., hrn⟩
      · exact ⟨r, (AList.lookup_insert_ne hk).trans hr, hrn⟩
  | chosen hnew h0 htop hfree => exact h.insertRow rec hnew hfree (Nat.le_trans h.low (Nat.le_max_left ..))
  | allocated hnew h0 hid =>
    have hfree : s.byID.lookup s.candidate = none := AList.lookup_eq_none.2 (h.free_of_candidate hid)
    rcases candidate_spec h.low with ⟨h0, -⟩ | ⟨hlo, -⟩
    · exact absurd h0 hid
    · exact h.insertRow { rec with endpointID := s.candidate } hnew hfree (Nat.le_succ_of_le hlo)

theorem le_foldl_max (l : List Nat) (a : Nat) : a ≤ l.foldl max a ∧ ∀ n ∈ l, n ≤ l.foldl max a := by
  induction l generalizing a with
  | nil => exact ⟨Nat.le_refl a, fun n hn => absurd hn not_mem_nil⟩
  | cons b l ih =>
    obtain ⟨hmax, hl⟩ := ih (max a b)
    refine ⟨Nat.le_trans (Nat.le_max_left ..) hmax, fun n hn => ?_⟩
    rcases mem_cons.1 hn with rfl | hn
    · exact Nat.le_trans (Nat.le_max_right ..) hmax
    · exact hl n hn

theorem Tidy.removeEndpoint (h : Tidy s) (key : κ) : Tidy (s.removeEndpoint key) := by
  unfold Store.removeEndpoint
  cases hold : s.rows.lookup key with
  | none => exact h
  | some old =>
    have hsome := h.number key old hold
    refine ⟨fun k r hr => ?_, fun n k hn => ?_, h.low, fun n hn => ?_⟩
    · obtain ⟨hk, hr⟩ := lookup_erase_some.1 hr
      have hr' := h.number k r hr
      exact lookup_erase_some.2 ⟨fun he => hk (some.inj ((he ▸ hr').symm.trans hsome)), hr'⟩
    · obtain ⟨hne, hn⟩ := lookup_erase_some.1 hn
      obtain ⟨r, hr, hrn⟩ := h.holder n k hn
      have hk : k ≠ key := fun he => hne (by subst he; cases hold.symm.trans hr; exact hrn.symm)
      exact ⟨r, lookup_erase_some.2 ⟨hk, hr⟩, hrn⟩
    · dsimp only at ⊢
      split
      · exact (le_foldl_max _ 0).2 n (AList.mem_keys.1 hn)
      · exact h.highest n ((AList.mem_erase.1 hn).2)

theorem Tidy.after (h : Tidy s) (call : Call κ) : Tidy (s.after call) := by
  cases call with
  | remove key => exact h.removeEndpoint key
  | upsert rec =>
    simp only [Store.after]
    cases hu : s.upsertEndpointAssigning rec with
    | error e => exact h
    | ok p => exact h.upserted (Memstore.upserted hu)

theorem Tidy.run (h : Tidy s) (hrun : (system κ).run s calls = some s') : Tidy s' :=
  System.run_invariant (fun _ call _ h hstep => some.inj hstep ▸ h.after call) h hrun

/-! ## The counter -/

/-- A call takes the counter over numbers that are held before or after it. -/
theorem advance_after (h : Tidy s) (hskip : SkipsNoFree s call) :
    Advance allocMin endpointIDMax (fun m => Held s m ∨ Held (s.after call) m) s.next (s.after call).next := by
  cases call with
  | remove key =>
    have : (s.after (.remove key)).next = s.next := by
      simp only [Store.after, Store.removeEndpoint]
      cases s.rows.lookup key <;> rfl
    rw [this]
    exact .refl _
  | upsert rec =>
    simp only [Store.after]
    simp only [SkipsNoFree] at hskip
    cases hu : s.upsertEndpointAssigning rec with
    | error e => exact .refl _
    | ok p =>
      obtain ⟨id, s'⟩ := p
      rw [hu] at hskip
      have hs' : Tidy s' := h.upserted (upserted hu)
      cases upserted hu with
      | known old hold => exact .refl _
      | chosen hnew h0 htop hfree =>
        have hskip := hskip rfl hnew
        rw [if_neg h0] at hskip
        refine .up (Nat.le_max_left ..) fun m hm hm' => ?_
        have hm' : m < max s.next (rec.endpointID + 1) := hm'
        by_cases hmid : m = rec.endpointID
        · exact .inr (hs'.held_iff.2 ((AList.mem_insert _).2 (.inl hmid)))
        · exact .inl (hskip m hm (by omega))
      | allocated hnew h0 hid =>
        have hskip := hskip rfl hnew
        rw [if_pos h0] at hskip
        rcases candidate_spec h.low with ⟨h0, -⟩ | ⟨-, -, -, hway⟩
        · exact absurd h0 hid
        · refine .trans (.trans (.up (Nat.le_max_left ..) fun m hm hm' => .inl (hskip m hm hm'))
            (hway.mono fun m hm => .inl (h.held_iff.2 hm))) (.one (.inr ?_))
          exact hs'.held_iff.2 ((AList.mem_insert _).2 (.inl rfl))

/-! ## The results -/

/-- A call changes the number of a stored key only if it removes it. -/
theorem keeps_number {k : κ} {r : Record κ} (hr : s.rows.lookup k = some r) (hcall : call ≠ .remove k) :
    ∃ r', (s.after call).rows.lookup k = some r' ∧ r'.endpointID = r.endpointID := by
  cases call with
  | remove key =>
    have hk : k ≠ key := fun he => hcall (he ▸ rfl)
    refine ⟨r, ?_, rfl⟩
    simp only [Store.after, Store.removeEndpoint]
    cases s.rows.lookup key with
    | none => exact hr
    | some old => exact (AList.lookup_erase_ne hk).trans hr
  | upsert rec =>
    simp only [Store.after]
    cases hu : s.upsertEndpointAssigning rec with
    | error e => exact ⟨r, hr, rfl⟩
    | ok p =>
      obtain ⟨id, s'⟩ := p
      by_cases hk : k = rec.key
      · subst hk
        cases upserted hu with
        | known old hold =>
          cases hr.symm.trans hold
          exact ⟨_, AList.lookup_insert .., rfl⟩
        | chosen hnew | allocated hnew => cases hr.symm.trans hnew
      · refine ⟨r, ?_, rfl⟩
        cases upserted hu <;> exact (AList.lookup_insert_ne hk).trans hr

/-- The number that a call assigns, and the way of the counter to it and behind it. -/
theorem Assigns.spec (h : Tidy s) (ha : Assigns n s call) :
    (2 ≤ n ∧ n ≤ 65534 ∧ ¬ Held s n ∧ Held (s.after call) n) ∧ (s.after call).next = n + 1 ∧
      (SkipsNoFree s call → Advance allocMin endpointIDMax (Held s) s.next n) := by
  have hs' := h.after call
  obtain ⟨rec, s', rfl, hnew, h0, hu⟩ := ha
  have hskip (hskip : SkipsNoFree s (.upsert rec)) := hskip (by rw [hu]; rfl) hnew
  rw [if_pos h0] at hskip
  simp only [Store.after, hu] at hs' ⊢
  cases upserted hu with
  | known old hold => cases hnew.symm.trans hold
  | chosen hnew h0' htop hfree => exact absurd h0 h0'
  | allocated hnew h0 hid =>
    rcases candidate_spec h.low with ⟨h0, -⟩ | ⟨hlo, hhi, hfree, hway⟩
    · exact absurd h0 hid
    · refine ⟨⟨hlo, hhi, mt h.held_iff.1 hfree, hs'.held_iff.2 ((AList.mem_insert _).2 (.inl rfl))⟩, rfl, ?_⟩
      intro hno
      exact .trans (.up (Nat.le_max_left ..) (hskip hno)) (hway.mono fun m hm => h.held_iff.2 hm)

/-- Where the store cannot choose a number, all are held. -/
theorem held_of_error (h : Tidy s) {e : StoreError κ} (h0 : rec.endpointID = 0)
    (he : s.upsertEndpointAssigning rec = .error e) {m : Nat} (hlo : 2 ≤ m) (hhi : m ≤ 65534) : Held s m := by
  unfold Store.upsertEndpointAssigning at he
  cases hold : s.rows.lookup rec.key with
  | some old =>
    rw [hold] at he
    cases he
  | none =>
    simp only [hold] at he
    rw [if_neg (not_not.2 h0), Store.allocate] at he
    rcases candidate_spec h.low with ⟨-, hheld⟩ | ⟨hpos, -⟩
    · exact h.held_iff.2 (hheld m hlo hhi)
    · have hpos : 2 ≤ s.candidate := hpos
      rw [if_neg (by omega)] at he
      cases he

/-- In every state that calls lead to: no two keys share a number; a key keeps its number
until it is removed; the store chooses a free number from 2 to 65534, and fails to only
where none is free; and it chooses a number again after every other one has been held
in between, if no call in between has taken the counter over a free number. -/
theorem numbers_stable {calls : List (Call κ)} (hrun : (system κ).run .new calls = some s) :
    (∀ k k' r r', s.rows.lookup k = some r → s.rows.lookup k' = some r' → r.endpointID = r'.endpointID → k = k') ∧
    (∀ call k r, s.rows.lookup k = some r → call ≠ .remove k →
      ∃ r', (s.after call).rows.lookup k = some r' ∧ r'.endpointID = r.endpointID) ∧
    (∀ call n, Assigns n s call → 2 ≤ n ∧ n ≤ 65534 ∧ ¬ Held s n ∧ Held (s.after call) n) ∧
    (∀ rec e, rec.endpointID = 0 → s.upsertEndpointAssigning rec = .error e →
      ∀ m, 2 ≤ m → m ≤ 65534 → Held s m) ∧
    (∀ n call mid call' t, Assigns n s call → (system κ).run (s.after call) mid = some t → Assigns n t call' →
      (system κ).Meets SkipsNoFree (s.after call) (mid ++ [call']) →
      ∀ m, 2 ≤ m → m ≤ 65534 → m ≠ n → (system κ).Visits (Held · m) (s.after call) mid) := by
  have h := tidy_new.run hrun
  refine ⟨fun k k' r r' hr hr' heq => ?_, fun call k r hr hcall => keeps_number hr hcall, fun call n ha => (ha.spec h).1,
    fun rec e h0 he m hlo hhi => held_of_error h h0 he hlo hhi,
    fun n call mid call' t ha hmid ha' hskip m hlo hhi hne => ?_⟩
  · exact some.inj ((h.number k r hr).symm.trans (heq ▸ h.number k' r' hr'))
  have ht : Tidy t := (h.after call).run hmid
  rw [System.meets_append hmid] at hskip
  -- the counter stands after `n`, passes what is held, and comes to `n` again
  have hp : Passed allocMin endpointIDMax (fun m => (system κ).Visits (Held · m) (s.after call) mid) n t.next :=
    Passed.run (fun m s => Held s m) (fun s call t hs hq ht => some.inj ht ▸ ⟨hs.after call, advance_after hs hq⟩)
      (h.after call) hskip.1 hmid (fun m hm => hm) ((ha.spec h).2.1 ▸ .start n)
  exact hp.all (((ha'.spec ht).2.2 hskip.2.1).mono fun m hm => System.Visits.last hmid hm) hlo hhi hne

/-! A key for every number of the range, each removed before the next: the counter goes
around once, and the first number comes back. -/

def emptyAt (next : Nat) : Store Nat := { (Store.new : Store Nat) with next := next }

/-- The keys from `k` on, stored and removed. -/
def lap : Nat → Nat → List (Call Nat)
  | _, 0 => []
  | k, n + 1 => .upsert { key := k } :: .remove k :: lap (k + 1) n

theorem candidate_emptyAt {next : Nat} (hlo : 2 ≤ next) (hhi : next ≤ 65534) : (emptyAt next).candidate = next := by
  have hstart : (emptyAt next).start = next := Nat.max_eq_left (by simp only [emptyAt, Store.new]; omega)
  have hfree : (emptyAt next).firstFree next endpointIDMax = next := by
    rcases firstFree_spec (emptyAt next) next endpointIDMax with ⟨-, hheld⟩ | ⟨hle, -, -, hheld⟩
    · exact absurd (hheld next (Nat.le_refl _) hhi) (AList.notMem_empty _)
    · rcases Nat.eq_or_lt_of_le hle with heq | hlt
      · exact heq.symm
      · exact absurd (hheld next (Nat.le_refl _) hlt) (AList.notMem_empty _)
  rw [Store.candidate, hstart, hfree, if_neg (by omega)]

theorem upsert_emptyAt {next : Nat} (k : Nat) (hlo : 2 ≤ next) (hhi : next ≤ 65534) :
    (emptyAt next).upsertEndpointAssigning { key := k } =
      .ok (next, (emptyAt (next + 1)).insertRow { key := k, endpointID := next }) := by
  have hc := candidate_emptyAt hlo hhi
  have hal : (emptyAt next).allocate = .ok (next, emptyAt (next + 1)) := by
    rw [Store.allocate, hc, if_neg (by omega)]
    rfl
  simp only [Store.upsertEndpointAssigning, hal]
  rfl

theorem remove_insertRow (next k id : Nat) :
    ((emptyAt next).insertRow { key := k, endpointID := id }).removeEndpoint k = emptyAt next := by
  have erase_insert : ∀ {α β : Type} [DecidableEq α] (a : α) (b : β),
      ((∅ : AList fun _ : α => β).insert a b).erase a = ∅ := fun a b =>
    AList.ext (kerase_cons_eq rfl)
  have hrow : ((emptyAt next).insertRow { key := k, endpointID := id }).rows.lookup k =
      some { key := k, endpointID := id } := AList.lookup_insert ..
  rw [Store.removeEndpoint, hrow]
  simp only [Store.insertRow, emptyAt, Store.new, erase_insert, Nat.zero_max, if_true, AList.keys_empty, foldl_nil]

/-- The run of a lap, and that none of its calls takes the counter over a free number. -/
theorem run_lap (k n : Nat) {next : Nat} (hlo : 2 ≤ next) (hhi : next + n ≤ 65535) :
    (system Nat).run (emptyAt next) (lap k n) = some (emptyAt (next + n)) ∧
      (system Nat).Meets SkipsNoFree (emptyAt next) (lap k n) := by
  induction n generalizing k next with
  | zero => exact ⟨rfl, trivial⟩
  | succ n ih =>
    have hup := upsert_emptyAt k hlo (show next ≤ 65534 by omega)
    have hstart : (emptyAt next).start = next := Nat.max_eq_left (by simp only [emptyAt, Store.new]; omega)
    have hafter : (((emptyAt next).after (.upsert { key := k })).after (.remove k)) = emptyAt (next + 1) := by
      simp only [Store.after, hup, remove_insertRow]
    obtain ⟨hrun, hmeets⟩ := ih (k + 1) (show 2 ≤ next + 1 by omega) (by omega)
    refine ⟨?_, fun _ _ m hm hm' => ?_, ?_⟩
    · simp only [lap, System.run, system, bind_some, hafter]
      rw [show next + (n + 1) = next + 1 + n by omega]
      exact hrun
    · rw [hstart] at hm'
      exact absurd hm (Nat.not_le_of_lt hm')
    intro t ht
    cases ht
    refine ⟨trivial, fun t ht => ?_⟩
    cases ht
    exact hafter ▸ hmeets

/-- The first number comes back after the lap, and all others have been held. -/
theorem numbers_stable_lap :
    Assigns 2 (Store.new : Store Nat) (.upsert { key := 0 }) ∧
      Assigns 2 (emptyAt 65535) (.upsert { key := 65533 }) ∧
      ∀ m, 2 ≤ m → m ≤ 65534 → m ≠ 2 →
        (system Nat).Visits (Held · m) (Store.new.after (.upsert { key := 0 })) (.remove 0 :: lap 1 65532) := by
  have hfirst : Assigns 2 (Store.new : Store Nat) (.upsert { key := 0 }) :=
    ⟨_, _, rfl, rfl, rfl, upsert_emptyAt 0 (Nat.le_refl 2) (by decide)⟩
  have hagain : Assigns 2 (emptyAt 65535) (.upsert { key := 65533 }) := ⟨_, _, rfl, rfl, rfl, rfl⟩
  obtain ⟨hrun, hmeets⟩ := run_lap 1 65532 (show 2 ≤ 3 by decide) (by decide)
  have hafter : ((Store.new : Store Nat).after (.upsert { key := 0 })).after (.remove 0) = emptyAt 3 := by
    exact remove_insertRow 3 0 2
  have hmid : (system Nat).run (Store.new.after (.upsert { key := 0 })) (.remove 0 :: lap 1 65532) =
      some (emptyAt 65535) := by
    rw [System.run_cons]
    exact ⟨_, rfl, hafter ▸ hrun⟩
  obtain ⟨-, -, -, -, hreuse⟩ := numbers_stable (show (system Nat).run .new [] = some .new from rfl)
  refine ⟨hfirst, hagain, hreuse 2 _ _ _ _ hfirst hmid hagain ?_⟩
  rw [System.meets_append hmid]
  refine ⟨⟨trivial, ?_⟩, fun _ _ m hm hm' => ?_, fun _ _ => trivial⟩
  · intro t ht
    cases ht
    exact hafter ▸ hmeets
  · have hm : 65535 ≤ m := hm
    have hm' : m < 65535 := hm'
    omega

/-- A number comes back at once where a key holds the last number of the range, and where
a number that the caller chose has lifted the counter to its end. -/
theorem early_reuse :
    (let s := (Store.new : Store Nat).after (.upsert { key := 0, endpointID := 65534 })
     Assigns 2 s (.upsert { key := 1 }) ∧
      Assigns 2 ((s.after (.upsert { key := 1 })).after (.remove 1)) (.upsert { key := 2 }) ∧
      ¬ (system Nat).Visits (Held · 3) (s.after (.upsert { key := 1 })) [.remove 1]) ∧
    (let s := (Store.new : Store Nat)
     let mid := [.remove 1, .upsert { key := 0, endpointID := 65534 }, .remove 0]
     Assigns 2 s (.upsert { key := 1 }) ∧
      (∃ t, (system Nat).run (s.after (.upsert { key := 1 })) mid = some t ∧ Assigns 2 t (.upsert { key := 2 })) ∧
      ¬ (system Nat).Visits (Held · 3) (s.after (.upsert { key := 1 })) mid) := by
  refine ⟨⟨⟨_, _, rfl, by decide +kernel, rfl, rfl⟩, ⟨_, _, rfl, by decide +kernel, rfl, rfl⟩, by decide +kernel⟩,
    ⟨⟨_, _, rfl, by decide +kernel, rfl, rfl⟩, ⟨_, rfl, ⟨_, _, rfl, by decide +kernel, rfl, rfl⟩⟩, by decide +kernel⟩⟩

end GF.Proof.Endpoint.Memstore
