import GoFabric.Framework.AList
import GoFabric.Framework.Cyclic
import GoFabric.Framework.Except
import GoFabric.Impl.Memstore

/-!
# Fabric indexes are unique and go around

The counter of the store walks the indexes from 1 to 254 and around, over those that are
in use. A walk of 254 turns sees every index, so it ends at a free one if there is
one, and an index is handed out again after all others have been in use. The rows of a
fabric are there only while it is (`Tidy`).
-/

namespace GF.Proof.Memstore

open GF.Impl.Memstore List
open Cyclic (Advance Passed)

variable {Row : Table → Type} {s s' : Store Row} {rec f : FabricRecord} {c i n : Nat}

/-- The call adds a fabric, and the store chose the index. -/
def Assigns (n : Nat) (s : Store Row) (call : Call Row) : Prop :=
  ∃ rec s', call = .addFabric rec ∧ rec.fabricIndex = 0 ∧ s.addFabric rec = .ok (n, s')

/-- The call puts the counter elsewhere. -/
def Resets : Call Row → Prop
  | .setMetadataCounter _ | .erase => True
  | _ => False

/-- What the fabric of the index has left in the store. -/
def HasRows (s : Store Row) (n : Nat) : Prop := (∃ t, n ∈ s.rows t) ∨ ∃ peer, (n, peer) ∈ s.resumption

def Index (i : Nat) : Prop := 1 ≤ i ∧ i ≤ 254
deriving Decidable

/-! ## The walk around the indexes -/

theorem index_next : Index (nextIndex i) := by
  unfold nextIndex Index
  split <;> omega

theorem index_counter (s : Store Row) : Index s.counter := by
  unfold Store.counter Index
  split <;> omega

theorem advance_next {P : Nat → Prop} (hc : Index c) (h : P c) : Advance 1 254 P c (nextIndex c) := by
  obtain ⟨hlo, hhi⟩ := hc
  unfold nextIndex
  split
  · have heq : c = 254 := by omega
    subst heq
    exact .last h
  · exact .one h

theorem iterate_nextIndex (hc : Index c) (n : Nat) : nextIndex^[n] c = (c - 1 + n) % 254 + 1 := by
  obtain ⟨hlo, hhi⟩ := hc
  induction n with
  | zero =>
    simp only [Function.iterate_zero, id_eq]
    omega
  | succ n ih =>
    rw [Function.iterate_succ_apply', nextIndex]
    split <;> omega

/-- A walk of 254 turns comes to every index. -/
theorem exists_iterate (hc : Index c) (hi : Index i) : ∃ n < 254, nextIndex^[n] c = i := by
  refine ⟨(i + 254 - c) % 254, Nat.mod_lt _ (by decide), ?_⟩
  rw [iterate_nextIndex hc]
  obtain ⟨hlo, hhi⟩ := hc
  obtain ⟨hlo', hhi'⟩ := hi
  omega

/-- What `nextFreeFrom` finds: a free index, or none where all that it comes to are in use. -/
theorem nextFreeFromLoop_spec (s : Store Row) (fuel : Nat) (hc : Index c) :
    Index (s.nextFreeFromLoop fuel c) ∧
      Advance 1 254 (fun m => s.hasFabric m) c (s.nextFreeFromLoop fuel c) ∧
      (s.hasFabric (s.nextFreeFromLoop fuel c) = false ∨ ∀ n < fuel, s.hasFabric (nextIndex^[n] c)) := by
  induction fuel generalizing c with
  | zero => exact ⟨hc, .refl c, .inr fun n hn => absurd hn (Nat.not_lt_zero n)⟩
  | succ fuel ih =>
    rw [Store.nextFreeFromLoop]
    by_cases h : s.hasFabric c
    · rw [if_pos h]
      obtain ⟨hidx, hway, hfree⟩ := ih index_next
      refine ⟨hidx, (advance_next hc h).trans hway, hfree.imp_right fun hall n hn => ?_⟩
      cases n with
      | zero => exact h
      | succ n => exact hall n (by omega)
    · rw [if_neg h]
      exact ⟨hc, .refl c, .inl (Bool.eq_false_iff.2 h)⟩

/-- What `bumpCounter` does: it moves the counter to a free index, or leaves it where all
that it comes to are in use. -/
theorem bumpCounterLoop_spec (s : Store Row) (fuel : Nat) (hc : Index c) (h : s.hasFabric c) :
    (∃ d, s.bumpCounterLoop fuel c = { s with nextFabricIndex := d } ∧ Index d ∧ s.hasFabric d = false ∧
        Advance 1 254 (fun m => s.hasFabric m) c d) ∨
      (s.bumpCounterLoop fuel c = s ∧ ∀ n < fuel, s.hasFabric (nextIndex^[n] c)) := by
  induction fuel generalizing c with
  | zero => exact .inr ⟨rfl, fun n hn => absurd hn (Nat.not_lt_zero n)⟩
  | succ fuel ih =>
    rw [Store.bumpCounterLoop]
    by_cases hnext : s.hasFabric (nextIndex c)
    · rw [if_pos hnext]
      rcases ih index_next hnext with ⟨d, heq, hd, hfree, hway⟩ | ⟨heq, hall⟩
      · exact .inl ⟨d, heq, hd, hfree, (advance_next hc h).trans hway⟩
      refine .inr ⟨heq, fun n hn => ?_⟩
      cases n with
      | zero => exact h
      | succ n => exact hall n (by omega)
    · rw [if_neg hnext]
      exact .inl ⟨nextIndex c, rfl, index_next, Bool.eq_false_iff.2 hnext, advance_next hc h⟩

theorem mem_fabrics : i ∈ s.fabrics ↔ s.hasFabric i = true := AList.lookup_isSome.symm

/-- With fewer than 254 fabrics there is a free index, and `nextFreeFrom` finds it. -/
theorem hasFabric_nextFreeFrom (hlen : s.fabrics.keys.length < 254) (hc : Index c) :
    s.hasFabric (s.nextFreeFrom c) = false := by
  rcases (nextFreeFromLoop_spec s 254 hc).2.2 with hfree | hall
  · exact hfree
  have hsub : List.range' 1 254 ⊆ s.fabrics.keys := fun m hm => by
    obtain ⟨n, hn, heq⟩ := exists_iterate hc (by rw [mem_range'_1] at hm; exact ⟨hm.1, by omega⟩)
    exact AList.mem_keys.1 (mem_fabrics.2 (heq ▸ hall n hn))
  have hle := (subperm_of_subset (nodup_range' ..) hsub).length_le
  rw [length_range'] at hle
  omega

/-! ## What adding a fabric does -/

theorem addFabricAt_ok (h : s.addFabricAt rec i = .ok s') :
    Index i ∧ s.hasFabric i = false ∧ s.sameFabric rec = none ∧
      s' = s.insertFabric rec i := by
  unfold Store.addFabricAt at h
  by_cases hout : i < 1 ∨ 254 < i
  · rw [if_pos hout] at h
    cases h
  rw [if_neg hout] at h
  by_cases htaken : s.hasFabric i
  · rw [if_pos htaken] at h
    cases h
  rw [if_neg htaken] at h
  cases hsame : s.sameFabric rec with
  | some f =>
    rw [hsame] at h
    cases h
  | none =>
    rw [hsame] at h
    cases h
    exact ⟨⟨by omega, by omega⟩, Bool.eq_false_iff.2 htaken, rfl, rfl⟩

theorem sameFabric_eq_none (h : s.sameFabric rec = none) (hf : s.fabrics.lookup i = some f)
    (hid : f.fabricID = rec.fabricID) : f.rootPublicKey ≠ rec.rootPublicKey := by
  intro hroot
  have hmem : f ∈ s.fabrics.entries.map (·.2) := mem_map.2 ⟨⟨i, f⟩, AList.mem_lookup_iff.1 hf, rfl⟩
  exact List.find?_eq_none.1 h f hmem (decide_eq_true ⟨hid, hroot⟩)

/-- What adding a fabric that succeeds has done. -/
inductive Added (s : Store Row) (rec : FabricRecord) : Nat → Store Row → Prop
  | chosen (t : Store Row) (h0 : rec.fabricIndex ≠ 0) (h : s.addFabricAt rec rec.fabricIndex = .ok t) :
    Added s rec rec.fabricIndex t
  | allocated (t : Store Row) (h0 : rec.fabricIndex = 0) (hlen : s.fabrics.keys.length < 254)
    (h : s.addFabricAt rec (s.nextFreeFrom s.counter) = .ok t) :
    Added s rec (s.nextFreeFrom s.counter) t.bumpCounter

theorem added (h : s.addFabric rec = .ok (i, s')) : Added s rec i s' := by
  unfold Store.addFabric at h
  by_cases h0 : rec.fabricIndex = 0
  · rw [if_pos h0] at h
    by_cases hlen : s.fabrics.keys.length ≥ 254
    · rw [if_pos hlen] at h
      cases h
    rw [if_neg hlen] at h
    obtain ⟨t, ht, heq⟩ := except_bind_eq_ok.1 h
    cases heq
    exact .allocated t h0 (Nat.lt_of_not_le hlen) ht
  · rw [if_neg h0] at h
    obtain ⟨t, ht, heq⟩ := except_bind_eq_ok.1 h
    cases heq
    exact .chosen s' h0 ht

/-- `bumpCounter` changes the counter only. -/
theorem bumpCounterLoop_eq (s : Store Row) (fuel c : Nat) :
    ∃ d, s.bumpCounterLoop fuel c = { s with nextFabricIndex := d } := by
  induction fuel generalizing c with
  | zero => exact ⟨s.nextFabricIndex, rfl⟩
  | succ fuel ih =>
    rw [Store.bumpCounterLoop]
    split
    · exact ih (nextIndex c)
    · exact ⟨nextIndex c, rfl⟩

theorem bumpCounter_eq (s : Store Row) : ∃ d, s.bumpCounter = { s with nextFabricIndex := d } :=
  bumpCounterLoop_eq s 254 s.counter

/-- Where a fabric is added: at a free index, with no fabric of its identifier and root. -/
theorem Added.fabrics (h : Added s rec i s') :
    Index i ∧ s.hasFabric i = false ∧ s.sameFabric rec = none ∧
      s'.fabrics = s.fabrics.insert i { rec with fabricIndex := i } ∧ s'.rows = s.rows ∧
      s'.resumption = s.resumption := by
  cases h with
  | chosen t h0 h =>
    obtain ⟨hi, hfree, hsame, rfl⟩ := addFabricAt_ok h
    exact ⟨hi, hfree, hsame, rfl, rfl, rfl⟩
  | allocated t h0 hlen h =>
    obtain ⟨hi, hfree, hsame, rfl⟩ := addFabricAt_ok h
    obtain ⟨d, hd⟩ := bumpCounter_eq (s.insertFabric rec (s.nextFreeFrom s.counter))
    rw [hd]
    exact ⟨hi, hfree, hsame, rfl, rfl, rfl⟩

/-! ## The invariant -/

/-- A fabric is stored under its index, no two have the same identifier and root, and rows
belong to fabrics that are stored. -/
structure Tidy (s : Store Row) : Prop where
  index : ∀ i f, s.fabrics.lookup i = some f → f.fabricIndex = i
  unique : ∀ i j f g, s.fabrics.lookup i = some f → s.fabrics.lookup j = some g → f.fabricID = g.fabricID →
    f.rootPublicKey = g.rootPublicKey → i = j
  rows : ∀ t, ∀ i ∈ s.rows t, s.hasFabric i
  resumption : ∀ k ∈ s.resumption, s.hasFabric k.1

theorem tidy_new : Tidy (Store.new : Store Row) where
  index i f h := by cases h
  unique i j f g h := by cases h
  rows t i h := absurd h (AList.notMem_empty i)
  resumption k h := absurd h (AList.notMem_empty k)

theorem hasFabric_of_insert (hf : s'.fabrics = s.fabrics.insert i f) {m : Nat} :
    s'.hasFabric m = true ↔ m = i ∨ s.hasFabric m = true := by
  rw [← mem_fabrics, ← mem_fabrics, hf]
  exact AList.mem_insert _

theorem Tidy.added (h : Tidy s) (ha : Added s rec i s') : Tidy s' := by
  obtain ⟨hi, hfree, hsame, hfab, hrows, hres⟩ := ha.fabrics
  have hlook (j : Nat) (f : FabricRecord) (hf : s'.fabrics.lookup j = some f) := lookup_insert_some.1 (hfab ▸ hf)
  refine ⟨fun j f hf => ?_, fun j k f g hf hg hid hroot => ?_, fun t j hj => ?_, fun k hk => ?_⟩
  · rcases hlook j f hf with ⟨rfl, rfl⟩ | ⟨-, hf⟩
    · rfl
    · exact h.index j f hf
  · rcases hlook j f hf with ⟨rfl, rfl⟩ | ⟨-, hf⟩ <;> rcases hlook k g hg with ⟨rfl, rfl⟩ | ⟨-, hg⟩
    · rfl
    · exact absurd hroot.symm (sameFabric_eq_none hsame hg hid.symm)
    · exact absurd hroot (sameFabric_eq_none hsame hf hid)
    · exact h.unique j k f g hf hg hid hroot
  · exact (hasFabric_of_insert hfab).2 (.inr (h.rows t j (hrows ▸ hj)))
  · exact (hasFabric_of_insert hfab).2 (.inr (h.resumption k (hres ▸ hk)))

/-- An update of a fabric that keeps its index, identifier and root. -/
theorem Tidy.updateFabric (h : Tidy s) {change : FabricRecord → FabricRecord}
    (hkeep : ∀ f, (change f).fabricIndex = f.fabricIndex ∧ (change f).fabricID = f.fabricID ∧
      (change f).rootPublicKey = f.rootPublicKey) : Tidy (s.orKeep (s.updateFabric i change)) := by
  unfold Store.updateFabric
  cases hold : s.fabrics.lookup i with
  | none => exact h
  | some old =>
    have hlook : ∀ j f, (s.fabrics.insert i (change old)).lookup j = some f →
        ∃ g, s.fabrics.lookup j = some g ∧ f.fabricIndex = g.fabricIndex ∧ f.fabricID = g.fabricID ∧
          f.rootPublicKey = g.rootPublicKey := fun j f hf => by
      obtain ⟨rfl, rfl⟩ | ⟨-, hf⟩ := lookup_insert_some.1 hf
      · exact ⟨old, hold, hkeep old⟩
      · exact ⟨f, hf, rfl, rfl, rfl⟩
    have hfab : ∀ m, s.hasFabric m = true → { s with fabrics := s.fabrics.insert i (change old) }.hasFabric m = true :=
      fun m hm => (hasFabric_of_insert rfl).2 (.inr hm)
    refine ⟨fun j f hf => ?_, fun j k f g hf hg hid hroot => ?_, fun t j hj => ?_, fun k hk => ?_⟩
    · obtain ⟨g, hg, hidx, -⟩ := hlook j f hf
      exact hidx.trans (h.index j g hg)
    · obtain ⟨f', hf', -, hid', hroot'⟩ := hlook j f hf
      obtain ⟨g', hg', -, hid'', hroot''⟩ := hlook k g hg
      exact h.unique j k f' g' hf' hg' (hid' ▸ hid'' ▸ hid) (hroot' ▸ hroot'' ▸ hroot)
    · exact hfab j (h.rows t j hj)
    · exact hfab k.1 (h.resumption k hk)

/-! Fewer rows, and rows of a fabric that is stored. -/

theorem Tidy.setResumption (h : Tidy s) {resumption : AList fun _ : Nat × BitVec 64 => ResumptionRecord}
    (hres : ∀ k ∈ resumption, s.hasFabric k.1) : Tidy { s with resumption } :=
  ⟨h.index, h.unique, h.rows, hres⟩

theorem mem_removeResumptionsByFabric {k : Nat × BitVec 64} :
    k ∈ (s.removeResumptionsByFabric i).resumption ↔ k.1 ≠ i ∧ k ∈ s.resumption := by
  simp only [Store.removeResumptionsByFabric, AList.mem_keys, AList.keys, List.keys, mem_map,
    mem_filter, decide_eq_true_eq]
  constructor
  · rintro ⟨e, ⟨hmem, hne⟩, rfl⟩
    exact ⟨hne, e, hmem, rfl⟩
  · rintro ⟨hne, e, hmem, rfl⟩
    exact ⟨e, ⟨hmem, hne⟩, rfl⟩

section

variable (h : Tidy s)
include h

theorem Tidy.removeResumptionsByFabric (i : Nat) : Tidy (s.removeResumptionsByFabric i) :=
  h.setResumption fun k hk => h.resumption k (mem_removeResumptionsByFabric.1 hk).2

theorem Tidy.removeFabric (i : Nat) : Tidy (s.orKeep (s.removeFabric i)) := by
  unfold Store.removeFabric
  by_cases hi : s.hasFabric i
  · rw [if_pos hi]
    have hlook (j : Nat) (f : FabricRecord) (hf : (s.fabrics.erase i).lookup j = some f) := (lookup_erase_some.1 hf).2
    have hfab : ∀ m, m ≠ i → s.hasFabric m = true → ((s.fabrics.erase i).lookup m).isSome = true := fun m hne hm => by
      rwa [AList.lookup_erase_ne hne]
    refine ⟨fun j f hf => h.index j f (hlook j f hf), fun j k f g hf hg => ?_, fun t j hj => ?_, fun k hk => ?_⟩
    · exact h.unique j k f g (hlook j f hf) (hlook k g hg)
    · have hj := AList.mem_erase.1 hj
      exact hfab j hj.1 (h.rows t j hj.2)
    · have hk := mem_removeResumptionsByFabric.1 hk
      exact hfab k.1 hk.1 (h.resumption k hk.2)
  · rw [if_neg hi]
    exact h

theorem Tidy.updateRows {t : Table} {rows : AList fun _ : Nat => Row t} (hrows : ∀ i ∈ rows, s.hasFabric i) :
    Tidy { s with rows := Function.update s.rows t rows } := by
  refine ⟨h.index, h.unique, fun t' j hj => ?_, h.resumption⟩
  have hj : j ∈ Function.update s.rows t rows t' := hj
  by_cases ht : t' = t
  · subst ht
    rw [Function.update_self] at hj
    exact hrows j hj
  · rw [Function.update_of_ne ht] at hj
    exact h.rows t' j hj

theorem Tidy.writeRow (t : Table) (i : Nat) (row : Row t) : Tidy (s.orKeep (s.writeRow t i row)) := by
  unfold Store.writeRow
  by_cases hi : s.hasFabric i
  · rw [if_pos hi]
    refine h.updateRows fun j hj => ?_
    rcases (AList.mem_insert _).1 hj with rfl | hj
    · exact hi
    · exact h.rows t j hj
  · rw [if_neg hi]
    exact h

theorem Tidy.dropRow (t : Table) (i : Nat) (keep : Row t → Option (Row t)) : Tidy (s.dropRow t i keep) := by
  unfold Store.dropRow
  cases hrow : (s.rows t).lookup i with
  | none => exact h
  | some row =>
    have hi : i ∈ s.rows t := AList.lookup_isSome.1 (by rw [hrow]; rfl)
    cases hkeep : keep row with
    | some row' =>
      simp only [hkeep]
      refine h.updateRows fun j hj => ?_
      rcases (AList.mem_insert _).1 hj with rfl | hj
      · exact h.rows t j hi
      · exact h.rows t j hj
    | none =>
      simp only [hkeep]
      exact h.updateRows fun j hj => h.rows t j (AList.mem_erase.1 hj).2

theorem Tidy.upsertResumption (rec : ResumptionRecord) : Tidy (s.orKeep (s.upsertResumption rec)) := by
  unfold Store.upsertResumption
  split
  · exact h
  split
  · exact h
  split
  · exact h
  rename_i hfab
  split
  · exact h
  refine h.setResumption fun k hk => ?_
  rcases (AList.mem_insert _).1 hk with rfl | hk
  · simpa using hfab
  · exact h.resumption k hk

theorem Tidy.after (call : Call Row) : Tidy (s.after call) := by
  cases call with
  | addFabric rec =>
    simp only [Store.after]
    cases ha : s.addFabric rec with
    | error e => exact h
    | ok p => exact h.added (Memstore.added ha)
  | updateFabricLabel i label | updateFabricVendorID i vendorID
  | updateFabricNodeID i nodeID => exact h.updateFabric fun f => ⟨rfl, rfl, rfl⟩
  | removeFabric i => exact h.removeFabric i
  | writeRow t i row => exact h.writeRow t i row
  | dropRow t i keep => exact h.dropRow t i keep
  | upsertResumption rec => exact h.upsertResumption rec
  | removeResumption i peer => exact h.setResumption fun k hk => h.resumption k (AList.mem_erase.1 hk).2
  | removeResumptionsByFabric i => exact h.removeResumptionsByFabric i
  | setMetadataCounter value =>
    simp only [Store.after, Store.setMetadataCounter]
    split
    · exact h
    · exact { h with }
  | erase => exact tidy_new

theorem Tidy.run {calls : List (Call Row)} (hrun : (system Row).run s calls = some s') : Tidy s' :=
  System.run_invariant (fun _ call _ h hstep => Option.some.inj hstep ▸ h.after call) h hrun

end

/-! ## The counter -/

theorem counter_eq (hn : Index n) : { s with nextFabricIndex := n }.counter = n := by
  obtain ⟨hlo, hhi⟩ := hn
  simp only [Store.counter]
  rw [if_neg (by omega)]

/-- An automatic assignment: the counter comes to the index over indexes in use, and goes
on over such indexes. -/
theorem advance_allocated (h0 : rec.fabricIndex = 0) (h : s.addFabric rec = .ok (n, s')) :
    Advance 1 254 (fun m => s.hasFabric m) s.counter n ∧
      Advance 1 254 (fun m => s'.hasFabric m) s.counter s'.counter ∧
      Passed 1 254 (fun m => s'.hasFabric m) n s'.counter := by
  cases added h with
  | chosen t h0' => exact absurd h0 h0'
  | allocated t _ hlen hat =>
    obtain ⟨hn, hfree, -, rfl⟩ := addFabricAt_ok hat
    obtain ⟨-, hway, -⟩ := nextFreeFromLoop_spec s 254 (index_counter s)
    have hway : Advance 1 254 (fun m => s.hasFabric m) s.counter (s.nextFreeFrom s.counter) := hway
    generalize hidx : s.nextFreeFrom s.counter = n at *
    have hins : ∀ m, (s.insertFabric rec n).hasFabric m = true ↔ m = n ∨ s.hasFabric m = true := fun m =>
      hasFabric_of_insert rfl
    have hcount : (s.insertFabric rec n).counter = s.counter := rfl
    generalize s.insertFabric rec n = t at *
    have hstart : t.hasFabric s.counter = true := by
      by_cases hc : s.hasFabric s.counter
      · exact (hins _).2 (.inr hc)
      · refine (hins _).2 (.inl ?_)
        rw [← hidx, Store.nextFreeFrom, Store.nextFreeFromLoop, if_neg hc]
    refine ⟨hway, ?_⟩
    rw [Store.bumpCounter, hcount]
    rcases bumpCounterLoop_spec t 254 (index_counter s) hstart with ⟨d, heq, hd, hdfree, hdway⟩ | ⟨heq, hall⟩
    · rw [heq, counter_eq hd]
      refine ⟨hdway, .of_advance hway hdway (fun m hm => (hins m).2 (.inr hm)) ((hins n).2 (.inl rfl)) hn.1 ?_ hd.1 hd.2⟩
      exact Bool.eq_false_iff.1 hdfree
    have hfull : ∀ m, 1 ≤ m → m ≤ 254 → t.hasFabric m = true := fun m hlo hhi => by
      obtain ⟨k, hk, hkm⟩ := exists_iterate (index_counter s) ⟨hlo, hhi⟩
      exact hkm ▸ hall k hk
    rw [heq, hcount]
    exact ⟨.refl _, .of_all hfull hn.1 (Nat.le_succ_of_le (index_counter s).2)⟩

theorem after_addFabric (h : s.addFabric rec = .ok (n, s')) : s.after (.addFabric rec) = s' := by
  simp only [Store.after, h]
  rfl

/-- Else only the addition of a fabric moves the counter. -/
theorem nextFabricIndex_after {call : Call Row} (hadd : ∀ rec, call ≠ .addFabric rec) (hcall : ¬Resets call) :
    (s.after call).nextFabricIndex = s.nextFabricIndex := by
  cases call with
  | addFabric rec => exact absurd rfl (hadd rec)
  | setMetadataCounter | erase => exact absurd trivial hcall
  | _ =>
    simp only [Store.after, Store.updateFabricLabel, Store.updateFabricVendorID, Store.updateFabricNodeID,
      Store.updateFabric, Store.removeFabric, Store.writeRow, Store.dropRow, Store.upsertResumption]
    repeat' split
    all_goals rfl

/-- Every other call takes the counter over indexes that are in use after it. -/
theorem advance_after {call : Call Row} (hcall : ¬Resets call) :
    Advance 1 254 (fun m => (s.after call).hasFabric m) s.counter (s.after call).counter := by
  have hsame : (s.after call).nextFabricIndex = s.nextFabricIndex →
      Advance 1 254 (fun m => (s.after call).hasFabric m) s.counter (s.after call).counter := fun h => by
    rw [Store.counter, Store.counter, h]
    exact .refl _
  by_cases hadd : ∃ rec, call = .addFabric rec
  · obtain ⟨rec, rfl⟩ := hadd
    cases ha : s.addFabric rec with
    | error e => exact hsame (by simp only [Store.after, ha]; rfl)
    | ok p =>
      obtain ⟨i, s'⟩ := p
      rw [after_addFabric ha] at hsame ⊢
      cases added ha with
      | chosen t _ hat => exact hsame ((addFabricAt_ok hat).2.2.2 ▸ rfl)
      | allocated t h0 => exact (advance_allocated h0 ha).2.1
  · exact hsame (nextFabricIndex_after (not_exists.1 hadd) hcall)

/-! ## The results -/

theorem Added.free (h : Added s rec i s') :
    1 ≤ i ∧ i ≤ 254 ∧ s.hasFabric i = false ∧ s'.fabrics.lookup i = some { rec with fabricIndex := i } := by
  obtain ⟨hi, hfree, -, hfab, -⟩ := h.fabrics
  exact ⟨hi.1, hi.2, hfree, by rw [hfab, AList.lookup_insert]⟩

/-- A fabric that is not stored is added under an index that the store chooses if and only
if fewer than 254 are stored. -/
theorem addFabric_auto (h0 : rec.fabricIndex = 0)
    (hnew : ∀ i f, s.fabrics.lookup i = some f → ¬ (f.fabricID = rec.fabricID ∧ f.rootPublicKey = rec.rootPublicKey)) :
    (∃ i s', s.addFabric rec = .ok (i, s')) ↔ s.fabrics.keys.length < 254 := by
  constructor
  · rintro ⟨i, s', h⟩
    cases added h with
    | chosen t h0' => exact absurd h0 h0'
    | allocated t _ hlen => exact hlen
  · intro hlen
    have hfree := hasFabric_nextFreeFrom hlen (index_counter s)
    obtain ⟨⟨hlo, hhi⟩, -, -⟩ := nextFreeFromLoop_spec s 254 (index_counter s)
    have hsame : s.sameFabric rec = none := by
      refine List.find?_eq_none.2 fun f hf => ?_
      obtain ⟨⟨i, g⟩, hmem, rfl⟩ := mem_map.1 hf
      exact fun h => hnew i g (AList.mem_lookup_iff.2 hmem) (of_decide_eq_true h)
    have hat : s.addFabricAt rec (s.nextFreeFrom s.counter) =
        .ok (s.insertFabric rec (s.nextFreeFrom s.counter)) := by
      rw [Store.addFabricAt, if_neg (by rw [Store.nextFreeFrom]; omega), hfree, if_neg Bool.false_ne_true, hsame]
    refine ⟨s.nextFreeFrom s.counter, (s.insertFabric rec (s.nextFreeFrom s.counter)).bumpCounter, ?_⟩
    simp only [Store.addFabric, if_pos h0, if_neg (Nat.not_le_of_lt hlen), hat]
    rfl

/-- After the removal of a fabric, whether it was stored or not, nothing of it remains. -/
theorem not_hasRows_removeFabric (h : Tidy s) (i : Nat) : ¬ HasRows (s.orKeep (s.removeFabric i)) i := by
  unfold Store.removeFabric
  by_cases hi : s.hasFabric i
  · rw [if_pos hi]
    rintro (⟨t, hmem⟩ | ⟨peer, hmem⟩)
    · exact (AList.mem_erase.1 hmem).1 rfl
    · exact (mem_removeResumptionsByFabric.1 hmem).1 rfl
  · rw [if_neg hi]
    rintro (⟨t, hmem⟩ | ⟨peer, hmem⟩)
    · exact hi (h.rows t i hmem)
    · exact hi (h.resumption _ hmem)

/-- In every state that calls lead to: a new fabric gets an index of the store's choice if
and only if fewer than 254 are stored, and then a free one from 1 to 254; the store
chooses an index again, with no `Erase` in between and the counter not set, after every
other one has been in use; no two fabrics share an index, or an identifier and a root; and
nothing remains of a fabric that is removed. -/
theorem fabrics_cycle {calls : List (Call Row)} (hrun : (system Row).run .new calls = some s) :
    (∀ rec : FabricRecord, rec.fabricIndex = 0 →
      (∀ i f, s.fabrics.lookup i = some f →
        ¬ (f.fabricID = rec.fabricID ∧ f.rootPublicKey = rec.rootPublicKey)) →
      ((∃ i s', s.addFabric rec = .ok (i, s')) ↔ s.fabrics.keys.length < 254)) ∧
    (∀ rec i s', s.addFabric rec = .ok (i, s') →
      1 ≤ i ∧ i ≤ 254 ∧ s.hasFabric i = false ∧ s'.fabrics.lookup i = some { rec with fabricIndex := i }) ∧
    (∀ n call mid call' t, Assigns n s call → (∀ c ∈ mid, ¬Resets c) → (system Row).run (s.after call) mid = some t →
      Assigns n t call' →
      ∀ m, 1 ≤ m → m ≤ 254 → m ≠ n → (system Row).Visits (fun s => s.hasFabric m) (s.after call) mid) ∧
    (∀ i j f g, s.fabrics.lookup i = some f → s.fabrics.lookup j = some g →
      f.fabricIndex = g.fabricIndex ∨ (f.fabricID = g.fabricID ∧ f.rootPublicKey = g.rootPublicKey) → i = j) ∧
    (∀ i, ¬ HasRows (s.after (.removeFabric i)) i) := by
  have h := tidy_new.run hrun
  refine ⟨fun rec h0 hnew => addFabric_auto h0 hnew, fun rec i s' ha => (added ha).free,
    fun n call mid call' t ha hmid hrun' ha' m hlo hhi hne => ?_, fun i j f g hf hg hfg => ?_,
    fun i => not_hasRows_removeFabric h i⟩
  · obtain ⟨rec, s', rfl, h0, hadd⟩ := ha
    obtain ⟨rec', t', rfl, h0', hadd'⟩ := ha'
    rw [after_addFabric hadd] at hrun' ⊢
    have hstart : Passed 1 254 (fun m => (system Row).Visits (fun s => s.hasFabric m) s' mid) n s'.counter := by
      refine (advance_allocated h0 hadd).2.2.mono fun m hm => ?_
      exact System.Visits.start (Q := fun s : Store Row => s.hasFabric m = true) hm mid
    have hmeets : (system Row).Meets (fun _ call => ¬Resets call) s' mid := System.meets_of_forall hmid s'
    have hp := Passed.run (I := fun _ => True) (fun m s => s.hasFabric m) (fun s call t _ hcall ht =>
      Option.some.inj ht ▸ ⟨trivial, (advance_after hcall).mono fun m => .inr⟩) trivial hmeets hrun' (fun m hm => hm) hstart
    refine hp.all ((advance_allocated h0' hadd').1.mono fun m hm => ?_) hlo hhi hne
    exact System.Visits.last hrun' hm
  · rcases hfg with hidx | ⟨hid, hroot⟩
    · rw [← h.index i f hf, ← h.index j g hg, hidx]
    · exact h.unique i j f g hf hg hid hroot

/-! 254 fabrics, each removed before the next: the counter goes around once, and the first
index comes back. -/

/-- A fabric of the identifier, for an index of the store's choice. -/
def fabric (id : Nat) : FabricRecord :=
  { fabricIndex := 0, fabricID := .ofNat 64 id, nodeID := 1, rootPublicKey := [], rootCert := [], vendorID := 0,
    label := "", compressedID := 0 }

def emptyAt (c : Nat) : Store fun _ => Unit := { (Store.new : Store fun _ => Unit) with nextFabricIndex := c }

/-- Fabrics from the index on, added and removed. -/
def lap : Nat → Nat → List (Call fun _ => Unit)
  | _, 0 => []
  | c, n + 1 => .addFabric (fabric c) :: .removeFabric c :: lap (nextIndex c) n

theorem run_eq (s : Store Row) (calls : List (Call Row)) :
    (system Row).run s calls = some (calls.foldl Store.after s) := by
  induction calls generalizing s with
  | nil => rfl
  | cons call calls ih => exact ih (s.after call)

theorem addFabric_emptyAt (hc : Index c) (id : Nat) :
    (emptyAt c).addFabric (fabric id) = .ok (c, (emptyAt (nextIndex c)).insertFabric (fabric id) c) := by
  have hcount : (emptyAt c).counter = c := counter_eq hc
  have hfree : ∀ m, (emptyAt c).hasFabric m = false := fun _ => rfl
  have hnext : (emptyAt c).nextFreeFrom c = c := by
    rw [Store.nextFreeFrom, Store.nextFreeFromLoop, hfree, if_neg Bool.false_ne_true]
  have hat : (emptyAt c).addFabricAt (fabric id) c = .ok ((emptyAt c).insertFabric (fabric id) c) := by
    have hout : ¬ (c < 1 ∨ 254 < c) := by
      obtain ⟨hlo, hhi⟩ := hc
      omega
    rw [Store.addFabricAt, if_neg hout]
    rfl
  have hbump : ((emptyAt c).insertFabric (fabric id) c).bumpCounter =
      (emptyAt (nextIndex c)).insertFabric (fabric id) c := by
    have hne : nextIndex c ≠ c := by
      unfold nextIndex
      split <;> omega
    have hfree' : ((emptyAt c).insertFabric (fabric id) c).hasFabric (nextIndex c) = false := by
      rw [Bool.eq_false_iff, ne_eq, hasFabric_of_insert rfl, not_or]
      exact ⟨hne, Bool.false_ne_true⟩
    have hcount' : ((emptyAt c).insertFabric (fabric id) c).counter = c := hcount
    rw [Store.bumpCounter, hcount', Store.bumpCounterLoop, hfree']
    rfl
  simp only [Store.addFabric, hcount, hnext, hat]
  exact congrArg (fun t => Except.ok (c, t)) hbump

theorem after_add_remove (hc : Index c) (id : Nat) :
    ((emptyAt c).after (.addFabric (fabric id))).after (.removeFabric c) = emptyAt (nextIndex c) := by
  have hhas : ((emptyAt (nextIndex c)).insertFabric (fabric id) c).hasFabric c = true :=
    (hasFabric_of_insert rfl).2 (.inl rfl)
  have herase : ∀ f : FabricRecord, ((∅ : AList fun _ : Nat => FabricRecord).insert c f).erase c = ∅ := fun f =>
    AList.ext (kerase_cons_eq rfl)
  rw [after_addFabric (addFabric_emptyAt hc id)]
  simp only [Store.after, Store.removeFabric, hhas]
  simp only [Store.insertFabric, emptyAt, Store.new, herase]
  rfl

theorem foldl_lap (hc : Index c) (n : Nat) :
    (lap c n).foldl Store.after (emptyAt c) = emptyAt (nextIndex^[n] c) := by
  induction n generalizing c with
  | zero => rfl
  | succ n ih =>
    simp only [lap, foldl_cons, after_add_remove hc, ih index_next]
    rfl

theorem not_resets_lap (c n : Nat) : ∀ call ∈ lap c n, ¬Resets call := by
  induction n generalizing c with
  | zero => exact forall_mem_nil _
  | succ n ih => exact forall_mem_cons.2 ⟨id, forall_mem_cons.2 ⟨id, ih (nextIndex c)⟩⟩

/-- The first index comes back after the lap, and all others have been in use. -/
theorem fabrics_cycle_lap :
    Assigns 1 (emptyAt 1) (.addFabric (fabric 1)) ∧
      (system fun _ => Unit).run ((emptyAt 1).after (.addFabric (fabric 1))) (.removeFabric 1 :: lap 2 253) =
        some (emptyAt 1) ∧
      ∀ m, 1 ≤ m → m ≤ 254 → m ≠ 1 →
        (system fun _ => Unit).Visits (fun s => s.hasFabric m) ((emptyAt 1).after (.addFabric (fabric 1)))
          (.removeFabric 1 :: lap 2 253) := by
  have hone : Index 1 := by decide
  have hassign : Assigns 1 (emptyAt 1) (.addFabric (fabric 1)) := ⟨_, _, rfl, rfl, addFabric_emptyAt hone 1⟩
  have hrun : (system fun _ => Unit).run ((emptyAt 1).after (.addFabric (fabric 1))) (.removeFabric 1 :: lap 2 253) =
      some (emptyAt 1) := by
    rw [run_eq, foldl_cons, after_add_remove hone, show nextIndex 1 = 2 from rfl,
      foldl_lap (by decide) 253, iterate_nextIndex (by decide)]
  obtain ⟨-, -, hcycle, -⟩ := fabrics_cycle (show (system fun _ => Unit).run .new [] = some (emptyAt 1) from rfl)
  exact ⟨hassign, hrun, hcycle 1 _ _ _ _ hassign (forall_mem_cons.2 ⟨id, not_resets_lap 2 253⟩) hrun hassign⟩

/-- In every state that calls lead to, a fabric that is added is found under its index with nothing in the
tables, whatever the index was used for before, and all else is as it was. -/
theorem new_fabric_starts_empty {calls : List (Call Row)} (hrun : (system Row).run .new calls = some s)
    (h : s.addFabric rec = .ok (i, s')) :
    s'.fabrics.lookup i = some { rec with fabricIndex := i } ∧ ¬ HasRows s' i ∧
      (∀ j, j ≠ i → s'.fabrics.lookup j = s.fabrics.lookup j) ∧ s'.rows = s.rows ∧ s'.resumption = s.resumption := by
  have htidy := tidy_new.run hrun
  obtain ⟨-, hfree, -, hfab, hrows, hresumption⟩ := (added h).fabrics
  rw [hfab]
  refine ⟨AList.lookup_insert _, ?_, fun j hj => AList.lookup_insert_ne hj, hrows, hresumption⟩
  -- what an index has in a table belongs to a stored fabric, and the index was free
  unfold HasRows
  rw [hrows, hresumption]
  rintro (⟨t, hmem⟩ | ⟨peer, hmem⟩)
  · exact absurd (htidy.rows t i hmem) (Bool.eq_false_iff.1 hfree)
  · exact absurd (htidy.resumption _ hmem) (Bool.eq_false_iff.1 hfree)

/-- An index that had an identity before. -/
theorem new_fabric_starts_empty_again : ∃ s s' : Store fun _ => Unit,
    (system fun _ => Unit).run .new [.addFabric (fabric 1), .writeRow .identities 1 (), .removeFabric 1] = some s ∧
      s.addFabric { fabric 2 with fabricIndex := 1 } = .ok (1, s') ∧ ¬ HasRows s' 1 := by
  obtain ⟨s, s', hrun, h⟩ : ∃ s s' : Store fun _ => Unit,
      (system fun _ => Unit).run .new [.addFabric (fabric 1), .writeRow .identities 1 (), .removeFabric 1] = some s ∧
        s.addFabric { fabric 2 with fabricIndex := 1 } = .ok (1, s') := ⟨_, _, rfl, rfl⟩
  exact ⟨s, s', hrun, h, (new_fabric_starts_empty hrun h).2.1⟩

end GF.Proof.Memstore
