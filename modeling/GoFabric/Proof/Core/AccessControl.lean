import GoFabric.Spec.Isolation

/-!
# Fabrics are isolated in the AccessControl cluster

A read of a fabric shows the entries of another one by their number alone, so it is
the same in two states that the fabric cannot tell apart. A write changes the entries
of the fabric of its request, and of no other (`confined_matterWrite`).
-/

namespace GF.Proof.Core

open GF.Impl.Core GF.Spec.Isolation List
open GF.Impl.Endpoints (ACLEntry)

variable {backend : Backend} {faults : Faults} {ctx : Context} {a a' : AccessControl} {g entryFabric : BitVec 8}
  {l : List (BitVec 8)} {f : BitVec 8} {filtered : Bool} {α β : Type}

/-! ## Sorted lists of fabrics -/

/-- Over sorted lists, what yields nothing does not matter. -/
theorem flatMap_eq_of_mem {l' : List (BitVec 8)} (h : l.Pairwise (· < ·)) (h' : l'.Pairwise (· < ·))
    {r : BitVec 8 → List β} (hmem : ∀ f, r f ≠ [] → (f ∈ l ↔ f ∈ l')) : l.flatMap r = l'.flatMap r := by
  have hfilter (l : List (BitVec 8)) : l.flatMap r = (l.filter fun f => !(r f).isEmpty).flatMap r := by
    induction l with
    | nil => rfl
    | cons f l ih =>
      cases hf : (r f).isEmpty with
      | true =>
        rw [filter_cons_of_neg (by simp [hf]), flatMap_cons, isEmpty_iff.1 hf, ih]
        rfl
      | false => rw [filter_cons_of_pos (by simp [hf]), flatMap_cons, flatMap_cons, ih]
  have heq : l.filter (fun f => !(r f).isEmpty) = l'.filter fun f => !(r f).isEmpty := by
    refine List.Pairwise.eq_of_mem_iff (h.filter _) (h'.filter _) fun f => ?_
    rw [mem_filter, mem_filter]
    refine and_congr_left fun hf => hmem f ?_
    rintro hnil
    rw [hnil] at hf
    cases hf
  rw [hfilter l, hfilter l', heq]

theorem compact_cons (x : BitVec 8) (l : List (BitVec 8)) :
    compact (x :: l) = if l.head? = some x then compact l else x :: compact l := by
  cases l with
  | nil => rfl
  | cons y l =>
    rw [compact, List.head?_cons]
    by_cases h : x = y
    · rw [if_pos h, if_pos (congrArg some h.symm)]
    · rw [if_neg h, if_neg fun heq => h (Option.some.inj heq).symm]

theorem mem_compact : f ∈ compact l ↔ f ∈ l := by
  induction l with
  | nil => rfl
  | cons x l ih =>
    rw [compact_cons, mem_cons]
    by_cases h : l.head? = some x
    · rw [if_pos h, ih]
      refine ⟨Or.inr, fun hf => ?_⟩
      obtain rfl | hf := hf
      · exact mem_of_mem_head? h
      · exact hf
    · rw [if_neg h, mem_cons, ih]

theorem pairwise_compact (h : l.Pairwise (· ≤ ·)) : (compact l).Pairwise (· < ·) := by
  induction l with
  | nil => exact .nil
  | cons x l ih =>
    obtain ⟨hx, hrest⟩ := pairwise_cons.1 h
    rw [compact_cons]
    by_cases hhead : l.head? = some x
    · rw [if_pos hhead]
      exact ih hrest
    rw [if_neg hhead]
    refine pairwise_cons.2 ⟨fun f hf => ?_, ih hrest⟩
    rw [mem_compact] at hf
    -- the first of the rest is above `x`, and the others above that one
    cases l with
    | nil => exact absurd hf not_mem_nil
    | cons y l =>
      have hle : x ≤ y := hx y mem_cons_self
      have hne : x ≠ y := fun heq => hhead (congrArg some heq.symm)
      obtain rfl | hf := mem_cons.1 hf
      · bv_omega
      · have hle' : y ≤ f := (pairwise_cons.1 hrest).1 f hf
        bv_omega

/-! ## Reads -/

theorem mem_extensionKeys : f ∈ a.extensionKeys ↔ (a.extensions f).isSome = true := by
  rw [AccessControl.extensionKeys, mem_filter, and_iff_right_iff_imp]
  intro _
  refine mem_map.2 ⟨f.toNat, mem_range.2 f.isLt, ?_⟩
  rw [BitVec.ofNat_toNat, BitVec.setWidth_eq]

theorem isSome_of_extensionsOf (h : a.extensionsOf f ≠ []) : (a.extensions f).isSome = true := by
  cases hf : a.extensions f with
  | none =>
    rw [AccessControl.extensionsOf, hf] at h
    exact absurd rfl h
  | some es => rfl

/-- The fabrics of an unfiltered read are sorted, and there are no others than the
store's, those with extensions, and the reader's. -/
theorem unfilteredFabrics_spec (hlists : backend.listsFabrics = true)
    (h : unfilteredFabrics backend faults a g = some l) :
    l.Pairwise (· < ·) ∧
      ∀ f, f ∈ l ↔ (f ∈ a.store.fabrics ∨ ((a.extensions f).isSome = true ∧ f ≠ 0)) ∨ (f = g ∧ g ≠ 0) := by
  unfold unfilteredFabrics at h
  rw [hlists] at h
  split at h
  · rename_i hfalse
    cases hfalse
  split at h
  · cases h
  cases h
  refine ⟨pairwise_compact (pairwise_insertionSort _ _), fun f => ?_⟩
  rw [mem_compact, (perm_insertionSort _ _).mem_iff, mem_append, mem_append, mem_filter,
    mem_extensionKeys, decide_eq_true_eq]
  refine or_congr_right ?_
  by_cases hg : g ≠ 0
  · rw [if_pos hg, mem_singleton, and_iff_left hg]
  · rw [if_neg hg]
    exact ⟨fun h => absurd h not_mem_nil, fun h => absurd h.2 hg⟩

/-- The entries of `f`, as `g` reads them. -/
def aclShown (a : AccessControl) (g f : BitVec 8) : List AccessControlEntryStruct :=
  (a.store.acl f).map (shownEntry f g)

/-- The extensions of `f`, as `g` reads them. -/
def extensionsShown (a : AccessControl) (g f : BitVec 8) : List AccessControlExtensionEntry :=
  (a.extensionsOf f).map (shownExtension f g)

/-- Of another fabric's entries, the number is shown. -/
theorem aclShown_other (hf : f ≠ g) :
    aclShown a g f = List.replicate (a.store.acl f).length { fabricIndex := f, redacted := true } := by
  refine eq_replicate_iff.2 ⟨length_map _, ?_⟩
  intro e he
  obtain ⟨stored, hstored, rfl⟩ := mem_map.1 he
  rw [shownEntry, if_pos hf, a.store.owned f stored hstored]

theorem fabricIndex_of_mem {e : AccessControlExtensionEntry} (h : e ∈ a.extensionsOf f) : e.fabricIndex = f := by
  cases hf : a.extensions f with
  | none =>
    rw [AccessControl.extensionsOf, hf] at h
    exact absurd h not_mem_nil
  | some es =>
    rw [AccessControl.extensionsOf, hf] at h
    exact a.stamped f es hf e h

theorem extensionsShown_other (hf : f ≠ g) :
    extensionsShown a g f =
      List.replicate (a.extensionsOf f).length { data := [], fabricIndex := f, redacted := true } := by
  refine eq_replicate_iff.2 ⟨length_map _, ?_⟩
  intro e he
  obtain ⟨kept, hkept, rfl⟩ := mem_map.1 he
  rw [shownExtension, if_pos hf, fabricIndex_of_mem hkept]

theorem aclShown_eq (h : Indistinguishable g a a') (f : BitVec 8) : aclShown a g f = aclShown a' g f := by
  by_cases hf : f = g
  · subst hf
    have hown : shownEntry f f = aclEntryStruct := funext fun e => if_neg (not_not.2 rfl)
    rw [aclShown, aclShown, hown, h.entries]
  · rw [aclShown_other hf, aclShown_other hf, h.entry_count f hf]

theorem extensionsShown_eq (h : Indistinguishable g a a') (f : BitVec 8) :
    extensionsShown a g f = extensionsShown a' g f := by
  by_cases hf : f = g
  · subst hf
    rw [extensionsShown, extensionsShown, h.extensions]
  · rw [extensionsShown_other hf, extensionsShown_other hf, h.extension_count f hf]

/-- The lists of fabrics that a read covers in the two states agree on the fabrics
that have entries or extensions. -/
theorem fabricsOf_agree (backend : Backend) (faults : Faults) (h : Indistinguishable g a a') (filtered : Bool) :
    fabricsOf backend faults a filtered g = fabricsOf backend faults a' filtered g ∨
      ∃ l l', fabricsOf backend faults a filtered g = some l ∧ fabricsOf backend faults a' filtered g = some l' ∧
        faults.lists = false ∧ l.Pairwise (· < ·) ∧ l'.Pairwise (· < ·) ∧
        ∀ f, aclShown a g f ≠ [] ∨ extensionsShown a g f ≠ [] → (f ∈ l ↔ f ∈ l') := by
  cases filtered with
  | true => exact .inl rfl
  | false =>
    cases hlists : backend.listsFabrics with
    | false =>
      left
      simp only [fabricsOf, unfilteredFabrics, hlists]
      rfl
    | true =>
      cases hfaults : faults.lists with
      | true =>
        left
        simp only [fabricsOf, unfilteredFabrics, hfaults]
        rfl
      | false =>
        right
        obtain ⟨l, hl⟩ : ∃ l, unfilteredFabrics backend faults a g = some l := by
          rw [unfilteredFabrics, hlists, hfaults]
          exact ⟨_, rfl⟩
        obtain ⟨l', hl'⟩ : ∃ l', unfilteredFabrics backend faults a' g = some l' := by
          rw [unfilteredFabrics, hlists, hfaults]
          exact ⟨_, rfl⟩
        obtain ⟨hsorted, hmem⟩ := unfilteredFabrics_spec hlists hl
        obtain ⟨hsorted', hmem'⟩ := unfilteredFabrics_spec hlists hl'
        refine ⟨l, l', hl, hl', rfl, hsorted, hsorted', fun f hf => ?_⟩
        rw [hmem, hmem', h.fabrics]
        refine or_congr_left ?_
        -- a fabric with entries is one of the store, in both states
        obtain hf | hf := hf
        · have hstored : f ∈ a'.store.fabrics := by
            rw [← h.fabrics]
            refine a.store.foreign_key f fun hnil => hf ?_
            rw [aclShown, hnil]
            rfl
          exact ⟨fun _ => .inl hstored, fun _ => .inl hstored⟩
        · have hf' : extensionsShown a' g f ≠ [] := extensionsShown_eq h f ▸ hf
          have hsome {b : AccessControl} (hb : extensionsShown b g f ≠ []) : (b.extensions f).isSome = true :=
            isSome_of_extensionsOf fun hnil => hb (by rw [extensionsShown, hnil]; rfl)
          rw [hsome hf, hsome hf']

theorem mapM_listACL (hfaults : faults.lists = false) (a : AccessControl) (l : List (BitVec 8)) :
    (l.mapM fun fabric => do
      let entries ← listACL faults a fabric
      some (entries.map (shownEntry fabric g))) = some (l.map (aclShown a g)) := by
  induction l with
  | nil => rfl
  | cons f l ih =>
    rw [mapM_cons, ih, listACL, hfaults]
    rfl

/-- A read of `g` is the same in two states that `g` cannot tell apart. -/
theorem read_eq (h : Indistinguishable g a a') (hctx : ctx.fabricFilter = some (filtered, g)) (attr : Attribute) :
    matterReadFiltered backend faults ctx attr a = matterReadFiltered backend faults ctx attr a' := by
  simp only [matterReadFiltered, hctx]
  obtain heq | ⟨l, l', hl, hl', hfaults, hsorted, hsorted', hmem⟩ := fabricsOf_agree backend faults h filtered
  · -- the same fabrics are read, each with the same outcome
    rw [heq]
    refine congrArg _ (funext fun fabrics => ?_)
    cases attr with
    | acl =>
      have hlist : (fun fabric => listACL faults a fabric >>= fun entries => some (entries.map (shownEntry fabric g))) =
          fun fabric => listACL faults a' fabric >>= fun entries => some (entries.map (shownEntry fabric g)) := by
        funext fabric
        unfold listACL
        cases faults.lists with
        | true => rfl
        | false => exact congrArg some (aclShown_eq h fabric)
      simp only [hlist]
    | extension => exact congrArg (fun r => some (Value.extension (fabrics.flatMap r))) (funext (extensionsShown_eq h))
  · rw [hl, hl']
    cases attr with
    | acl =>
      show (l.mapM _ >>= _) = (l'.mapM (m := Option) _ >>= _)
      rw [mapM_listACL hfaults, mapM_listACL hfaults]
      show some (Value.acl (l.map (aclShown a g)).flatten) = some (Value.acl (l'.map (aclShown a' g)).flatten)
      rw [← flatMap_def, ← flatMap_def, ← funext (aclShown_eq h)]
      rw [flatMap_eq_of_mem hsorted hsorted' fun f hf => hmem f (.inl hf)]
    | extension =>
      show some (Value.extension (l.flatMap (extensionsShown a g))) =
        some (Value.extension (l'.flatMap (extensionsShown a' g)))
      rw [← funext (extensionsShown_eq h), flatMap_eq_of_mem hsorted hsorted' fun f hf => hmem f (.inr hf)]

/-! ## Writes -/

/-- The decimal digits of a fabric index tell it. -/
theorem repr_inj {m n : Nat} (hm : m < 256) (hn : n < 256) (h : m.repr = n.repr) : m = n := by
  have hdigits : ∀ n < 256, (Nat.toDigits 10 n).foldl (fun v c => v * 10 + (c.toNat - 48)) 0 = n := by
    decide +kernel
  have hlist : Nat.toDigits 10 m = Nat.toDigits 10 n := String.ofList_injective h
  rw [← hdigits m hm, ← hdigits n hn, hlist]

theorem aclExtensionSettingKey_inj {f' : BitVec 8} (h : aclExtensionSettingKey f = aclExtensionSettingKey f') :
    f = f' :=
  BitVec.eq_of_toNat_eq (repr_inj f.isLt f'.isLt ((String.append_right_inj _).1 h))

theorem unchanged_refl (f : BitVec 8) (a : AccessControl) : Unchanged f a a := ⟨rfl, rfl, rfl⟩

theorem unchanged_trans {a1 a2 a3 : AccessControl} (h : Unchanged f a1 a2) (h' : Unchanged f a2 a3) :
    Unchanged f a1 a3 where
  entries := h'.entries.trans h.entries
  extensions := h'.extensions.trans h.extensions
  persisted := h'.persisted.trans h.persisted

/-- What a method leaves of the fabrics but `g`, whether it fails or not. -/
def Confined {α : Type} (g : BitVec 8) (m : ClusterM α) : Prop := ∀ f ≠ g, ∀ a, Unchanged f a (m.run.run a).2

theorem confined_check (r : Except WriteError α) : Confined g (check r) := fun f _ a => unchanged_refl f a

theorem confined_throw (e : WriteError) : Confined g (throw e : ClusterM α) := fun f _ a => unchanged_refl f a

theorem Confined.bind {m : ClusterM α} {k : α → ClusterM β} (hm : Confined g m) (hk : ∀ x, Confined g (k x)) :
    Confined g (m >>= k) := by
  intro f hf a
  have hfirst := hm f hf a
  show Unchanged f a (((m >>= k).run).run a).2
  rw [ExceptT.run_bind, StateT.run_bind]
  cases hrun : m.run.run a with
  | mk r a' =>
    rw [hrun] at hfirst
    cases r with
    | error e => exact hfirst
    | ok x => exact unchanged_trans hfirst (hk x f hf a')

theorem confined_get : Confined g (get : ClusterM AccessControl) := fun f _ a => unchanged_refl f a

theorem confined_modify {k : AccessControl → AccessControl} (h : ∀ f ≠ g, ∀ a, Unchanged f a (k a)) :
    Confined g (modify k : ClusterM Unit) := h

theorem unchanged_report (f : BitVec 8) (a : AccessControl) (events : List Event) :
    Unchanged f a (a.report events) :=
  ⟨rfl, rfl, rfl⟩

theorem unchanged_setExtensions (hf : f ≠ g) (a : AccessControl) (data : List (List Byte)) :
    Unchanged f a (a.setExtensions g data) :=
  ⟨rfl, congrArg (fun es : Option (List AccessControlExtensionEntry) => es.getD []) (if_neg hf), rfl⟩

theorem replaceACL_other {s s' : Store} {entries : List ACLEntry} (h : s.replaceACL g entries = .ok s') :
    (∀ f ≠ g, s'.acl f = s.acl f) ∧ s'.settings = s.settings := by
  unfold Store.replaceACL at h
  split at h
  · cases h
  split at h
  · cases h
  · cases h
    exact ⟨fun f hf => if_neg hf, rfl⟩

theorem confined_get_bind {k : AccessControl → ClusterM α} (h : ∀ f ≠ g, ∀ a, Unchanged f a ((k a).run.run a).2) :
    Confined g (get >>= k) := h

/-- A call of the store that leaves the other fabrics alone, with its result set. -/
theorem confined_setStore {call : AccessControl → Except String Store} {what : String}
    (h : ∀ f ≠ g, ∀ a store, call a = .ok store → Unchanged f a { a with store }) :
    Confined g (do
      let a ← get
      match call a with
      | .error e => throw (.store what e)
      | .ok store => set { a with store } : ClusterM Unit) := by
  refine confined_get_bind fun f hf a => ?_
  cases hrun : call a with
  | error e => exact unchanged_refl f a
  | ok store => exact h f hf a store hrun

theorem confined_replaceACL (entries : List ACLEntry) : Confined g (replaceACL faults g entries) := by
  apply confined_setStore
  intro f hf a store hrun
  have hstore : a.store.replaceACL g entries = .ok store := (ite_error_eq_ok.1 hrun).2
  obtain ⟨hacl, hsettings⟩ := replaceACL_other hstore
  exact ⟨hacl f hf, rfl, congrFun hsettings _⟩

theorem confined_persistExtension (entries : List AccessControlExtensionEntry) :
    Confined g (persistExtension backend faults g entries) := by
  apply confined_setStore
  intro f hf a store hrun
  unfold persisted at hrun
  split at hrun
  · cases hrun
    exact unchanged_refl f a
  · obtain ⟨-, hset⟩ := ite_error_eq_ok.1 hrun
    cases hset
    refine ⟨rfl, rfl, if_neg fun hkey => hf (aclExtensionSettingKey_inj hkey)⟩

section

variable (hctx : ctx.fabricFilter = some (filtered, g))
include hctx

/-- The fabric of a request is the one that its write is for. -/
theorem writeFabric_eq {attr : String} {fabric : BitVec 8} (h : writeFabric a ctx attr entryFabric = .ok fabric) :
    fabric = g := by
  unfold writeFabric at h
  rw [hctx] at h
  exact (Except.ok.inj (ite_error_eq_ok.1 h).2).symm

/-- After a check that gives the fabric of the request. -/
theorem confined_writeFabric {attr : String} {k : BitVec 8 → ClusterM Unit} (hk : Confined g (k g)) :
    Confined g (check (writeFabric a ctx attr entryFabric) >>= k) := by
  cases hfabric : writeFabric a ctx attr entryFabric with
  | error e => exact fun f _ a => unchanged_refl f a
  | ok fabric =>
    cases writeFabric_eq hctx hfabric
    exact hk

theorem confined_matterWrite (attr : Attribute) (value : WriteValue) :
    Confined g (matterWrite backend faults ctx attr value) := by
  unfold matterWrite
  split
  · refine confined_get.bind fun a => confined_writeFabric hctx ?_
    refine (confined_check _).bind fun _ => (confined_replaceACL _).bind fun _ => ?_
    exact confined_modify fun f _ a => unchanged_report f a _
  · refine confined_get.bind fun a => confined_writeFabric hctx ?_
    refine (confined_check _).bind fun _ => (confined_persistExtension _).bind fun _ => ?_
    exact confined_modify fun f hf a =>
      unchanged_trans (unchanged_setExtensions hf a _) (unchanged_report f _ _)
  · exact confined_throw _
  · exact confined_throw _

end

/-- The reads of a fabric do not depend on the entries of the others, but for their
number, and its writes do not change them. -/
theorem fabrics_isolated (backend : Backend) (faults : Faults) (ctx : Context) (filtered : Bool) (g : BitVec 8)
    (hctx : ctx.fabricFilter = some (filtered, g)) :
    (∀ a a' attr, Indistinguishable g a a' →
      matterReadFiltered backend faults ctx attr a = matterReadFiltered backend faults ctx attr a') ∧
    ∀ a attr value, ∀ f ≠ g, Unchanged f a (afterWrite backend faults ctx attr value a) :=
  ⟨fun _ _ attr h => read_eq h hctx attr, fun a attr value f hf => confined_matterWrite hctx attr value f hf a⟩

/-! ## Two fabrics -/

/-- Fabrics 1 and 2, with an entry of fabric 2. -/
def exampleStore (subject : BitVec 64) : Store where
  fabrics := [1, 2]
  acl f := if f = 2 then
    [{ fabricIndex := 2, privilege := 5, authMode := 2, subjects := [subject], targets := [], position := 0 }] else []
  settings _ := none
  aclNextID := 1
  sorted := by decide
  foreign_key := by
    intro f hf
    by_cases h2 : f = 2
    · subst h2
      decide
    · exact absurd (if_neg h2) hf
  owned := by
    intro f e he
    by_cases h2 : f = 2
    · rw [if_pos h2] at he
      cases mem_singleton.1 he
      exact h2.symm
    · rw [if_neg h2] at he
      cases he

def exampleCluster (subject : BitVec 64) : AccessControl where
  store := exampleStore subject
  dataVersion := 7
  stamped f es hes := by cases hes

/-- Whoever the subject of fabric 2 is, fabric 1 reads the same, and its write, of
entries that say they are of fabric 2, leaves that of fabric 2 alone. -/
theorem fabrics_isolated_two :
    matterReadFiltered ⟨true, true⟩ {} { fabricFilter := some (false, 1) } .acl (exampleCluster 11) =
      matterReadFiltered ⟨true, true⟩ {} { fabricFilter := some (false, 1) } .acl (exampleCluster 12) ∧
    Unchanged 2 (exampleCluster 11) (afterWrite ⟨true, true⟩ {} { fabricFilter := some (false, 1) } .acl
      (.acl [{ privilege := 5, authMode := 2, subjects := [9], fabricIndex := 2 }]) (exampleCluster 11)) := by
  obtain ⟨hread, hwrite⟩ := fabrics_isolated ⟨true, true⟩ {} { fabricFilter := some (false, 1) } false 1 rfl
  refine ⟨hread _ _ .acl ?_, hwrite _ _ _ 2 (by decide)⟩
  exact {
    fabrics := rfl
    entries := rfl
    extensions := rfl
    entry_count := by
      intro f _
      by_cases h2 : f = 2
      · subst h2
        rfl
      · show (if f = 2 then _ else []).length = (if f = 2 then _ else []).length
        rw [if_neg h2, if_neg h2]
    extension_count _ _ := rfl }

/-- The write is done. -/
example : ((afterWrite ⟨true, true⟩ {} { fabricFilter := some (false, 1) } .acl
    (.acl [{ privilege := 5, authMode := 2, subjects := [9], fabricIndex := 2 }]) (exampleCluster 11)).store.acl 1).map
      (·.subjects) = [[9]] := by decide +kernel

end GF.Proof.Core
