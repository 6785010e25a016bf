import GoFabric.Proof.Commissioning.Books

/-!
# Abandoned commissioning leaves no trace, if no call is overtaken

The books of a node (`view`) follow its steps: a step of a call that was not
overtaken is a run of steps on the books, with the call's load taken out and the
load of what it does next put in. So their invariant holds in every state that a
run of such steps reaches, and with no call under way it says that nothing of an
abandoned context is left.
-/

namespace GF.Proof.Commissioning

open GF.Impl.Commissioning GF.Spec.Commissioning List Option

variable {s : Step} {install idx' : FabricIndex} {k : Nat} {priv : List Byte} {req : UpdateNOCRequest}
  {r : NocUpdateRevert}

/-! ## The books of a node -/

def load : Call → Option Load
  | .failSafeExpired => some .expired
  | .restoring context update install => some (.reverts (update.map fun r => (context, r)) install)
  | .removing install => some (.reverts none install)
  | .addNOCRecord context _ _ idx => some (.adding context idx false)
  | .addNOCIdentity context _ _ idx => some (.adding context idx true)
  | .updateNOCPending context _ _ r | .updateNOCRecord context _ _ r => some (.updating context r)
  | .updateNOCWrite context _ _ r => some (.writing context r.fabricIndex)
  | _ => none

def books (n : Node) (loads : List Load) : Books :=
  { armed := n.g.failSafeArmed, outcomes := n.outcomes, install := n.o.pendingInstallFabricIndex
    update := n.o.pendingUpdateRevert, updateContext := n.revertContext, store := n.store, installs := n.installs
    installOf := n.installOf, removed := n.removed, replaced := n.replaced, restored := n.restored, loads := loads }

def view (n : Node) : Books := books n (n.calls.filterMap load)

/-- What is kept by every step that is not overtaken. -/
structure Kept (n : Node) : Prop where
  books : (view n).Inv
  removing : ∀ x, .removing x ∈ n.calls → x ≠ 0

/-- The loads of the calls other than `i`. -/
def others (n : Node) (i : Nat) : List Load := (n.calls.eraseIdx i).filterMap load

def callbackLoads (callbacks : List Callback) : List Load := (callbacks.map Call.ofCallback).filterMap load

/-- The step of the call `c`, with the loads `rest` beside it, is one of the books. -/
structure Follows (n : Node) (rest : List Load) (c : Call) (s : Step) : Prop where
  calls : s.node.calls = n.calls
  steps : (books n ((load c).toList ++ rest)).Steps
    (books s.node (callbackLoads s.callbacks ++ ((load s.next).toList ++ rest)))

variable {n : Node} {i : Nat} {c : Call} {idx : FabricIndex}

/-- The loads of a list of calls, with that of one of them in front. -/
theorem filterMap_set_perm {calls : List Call} (hc : calls[i]? = some c) (c' : Call) :
    ((calls.set i c').filterMap load).Perm ((load c').toList ++ (calls.eraseIdx i).filterMap load) := by
  obtain ⟨hi, -⟩ := List.getElem?_eq_some_iff.1 hc
  have hp := (set_perm_cons_eraseIdx hi c').filterMap load
  rw [filterMap_cons] at hp
  cases hload : load c' with
  | none | some l =>
    rw [hload] at hp
    exact hp

theorem order_before (hc : n.calls[i]? = some c) : (view n).Step (books n ((load c).toList ++ others n i)) := by
  refine .order ?_
  have hp := filterMap_set_perm hc c
  obtain ⟨hi, rfl⟩ := List.getElem?_eq_some_iff.1 hc
  rw [set_getElem_self] at hp
  exact hp

theorem Follows.stepped (h : Follows n (others n i) c s) (hc : n.calls[i]? = some c) :
    (view n).Steps (view (Node.stepped i s)) := by
  refine .head (order_before hc) (h.steps.tail (.order ?_))
  have hp := filterMap_set_perm hc s.next
  simp only [Node.stepped, filterMap_append, h.calls]
  exact perm_append_comm.trans (hp.symm.append_right _)

/-! ## The fail-safe -/

/-- What a section of `GeneralCommissioning` does to the fail-safe. -/
inductive Turn (g g' : GeneralCommissioning) (callbacks : List Callback) : Prop
  | kept (armed : g'.failSafeArmed = g.failSafeArmed) (loads : callbackLoads callbacks = [])
  | arms (before : g.failSafeArmed = false) (after : g'.failSafeArmed = true) (loads : callbackLoads callbacks = [])
  | expires (before : g.failSafeArmed = true) (after : g'.failSafeArmed = false)
      (loads : callbackLoads callbacks = [.expired])

theorem turn_armFailSafe (g : GeneralCommissioning) (now : Int) (sessFabric : FabricIndex) (expiry : BitVec 16)
    (breadcrumb : BitVec 64) (windowOpen : Bool) :
    Turn g (g.armFailSafe now sessFabric expiry breadcrumb windowOpen).2.1
      (g.armFailSafe now sessFabric expiry breadcrumb windowOpen).2.2 := by
  unfold GeneralCommissioning.armFailSafe
  split
  · exact .kept rfl rfl
  split
  · exact .kept rfl rfl
  split
  · cases harmed : g.failSafeArmed with
    | false => exact .kept harmed.symm rfl
    | true => exact .expires harmed rfl rfl
  split
  · exact .kept rfl rfl
  · cases harmed : g.failSafeArmed with
    | false => exact .arms harmed rfl rfl
    | true => exact .kept harmed.symm rfl

theorem turn_watchFailSafeExpiry (g : GeneralCommissioning) (now : Int) :
    Turn g (g.watchFailSafeExpiry now).1 (g.watchFailSafeExpiry now).2 := by
  unfold GeneralCommissioning.watchFailSafeExpiry
  split_ifs with h
  · exact .expires h.1 rfl rfl
  · exact .kept rfl rfl

theorem turn_expireFailSafe (g : GeneralCommissioning) : Turn g g.expireFailSafe.1 g.expireFailSafe.2 := by
  unfold GeneralCommissioning.expireFailSafe
  cases harmed : g.failSafeArmed with
  | false => exact .kept rfl rfl
  | true => exact .expires harmed rfl rfl

variable {rest : List Load}

theorem steps_turn {g' : GeneralCommissioning} {callbacks : List Callback} (h : Turn n.g g' callbacks) :
    let after := books { (if g'.failSafeArmed then n else n.ended .abandoned) with g := g' }
      (callbackLoads callbacks ++ rest)
    (books n rest).Steps after := by
  intro after
  cases h with
  | kept armed loads =>
    have hn : (if g'.failSafeArmed then n else n.ended .abandoned) = n := by
      rw [armed]
      cases harmed : n.g.failSafeArmed with
      | false => simp [Node.ended, harmed]
      | true => rfl
    simp only [after, hn, loads]
    simp only [books, armed]
    exact .refl
  | arms before armed loads =>
    have hafter : after = { books n rest with armed := true } := by
      simp [after, books, loads, armed]
    rw [hafter]
    exact .single (.begin before)
  | expires before armed loads =>
    have hafter : after =
        { books n rest with
          armed := false, outcomes := n.outcomes ++ [.abandoned], loads := .expired :: rest } := by
      simp [after, books, loads, armed, Node.ended, before]
    rw [hafter]
    exact .single (.abandon before)

theorem steps_commissioningComplete (sessFabric : FabricIndex) (pase : Bool) (terms : CommissioningError)
    (committed : Bool) :
    let r := n.g.commissioningComplete sessFabric pase terms committed
    let after := books { (if r.2.1.failSafeArmed then n else n.ended .completed) with g := r.2.1 }
      (callbackLoads r.2.2 ++ rest)
    (books n rest).Steps after := by
  intro r after
  have hkept : r.2 = (n.g, []) ∨ n.g.failSafeArmed = true ∧ r.2.1.failSafeArmed = false ∧ r.2.2 = [.commissioned] := by
    simp only [r, GeneralCommissioning.commissioningComplete]
    split
    · exact .inl rfl
    split
    · exact .inl rfl
    rename_i harmed
    split
    · exact .inl rfl
    split
    · exact .inl rfl
    split
    · exact .inl rfl
    · rw [Bool.not_eq_true', Bool.not_eq_false] at harmed
      exact .inr ⟨harmed, rfl, rfl⟩
  obtain hr | ⟨before, armed, hcallbacks⟩ := hkept
  · have hafter : after = books n rest := by
      simp only [after, hr]
      cases harmed : n.g.failSafeArmed with
      | false => simp only [Node.ended, harmed]; rfl
      | true => rfl
    rw [hafter]
    exact .refl
  · have hafter : after = { books n rest with armed := false, outcomes := n.outcomes ++ [.completed] } := by
      simp only [after, books, hcallbacks, armed, Node.ended, before]
      rfl
    rw [hafter]
    exact .single (.complete before)

theorem steps_armFailSafeFor {seconds : BitVec 32} {fabricIndex : FabricIndex}
    (ht : Current n (.armFailSafeFor seconds fabricIndex)) :
    let r := n.g.armFailSafeFor n.now seconds fabricIndex
    let after := books { (if n.g.inForce n.now ∧ seconds ≠ 0 then n else n.ended .abandoned) with g := r.1 }
      (callbackLoads r.2 ++ rest)
    (books n rest).Steps after := by
  intro r after
  have hloads : callbackLoads r.2 = [] := by
    simp only [r, GeneralCommissioning.armFailSafeFor]
    split
    · rfl
    · cases n.g.inForce n.now <;> rfl
  have harmed : r.1.failSafeArmed = decide (seconds ≠ 0) := by
    simp only [r, GeneralCommissioning.armFailSafeFor]
    split <;> simp only [GeneralCommissioning.disarmed, *, ne_eq, not_true_eq_false, decide_false, not_false_eq_true,
      decide_true]
  by_cases hforce : n.g.inForce n.now = true ∧ seconds ≠ 0
  · have hafter : after = books n rest := by
      have hg : n.g.failSafeArmed = true := (Bool.and_eq_true_iff.1 hforce.1).1
      simp only [after, if_pos hforce, hloads, nil_append]
      simp only [books, harmed, hforce.2, hg, ne_eq, not_false_eq_true, decide_true]
    rw [hafter]
    exact .refl
  · cases hg : n.g.failSafeArmed with
    | true =>
      have hafter : after =
          { books n rest with armed := decide (seconds ≠ 0), outcomes := n.outcomes ++ [.abandoned] } := by
        simp only [after, books, hloads, harmed, if_neg hforce, Node.ended, hg, if_true, nil_append]
      rw [hafter]
      exact .single (.supersede _ hg (ht ⟨hg, hforce⟩))
    | false =>
      have hafter : after = { books n rest with armed := decide (seconds ≠ 0) } := by
        simp only [after, books, hloads, harmed, if_neg hforce, Node.ended, hg, Bool.false_eq_true, if_false,
          nil_append]
      rw [hafter]
      by_cases h0 : seconds = 0
      · simp only [h0, ne_eq, not_true_eq_false, decide_false]
        rw [← hg]
        exact .refl
      · simp only [ne_eq, h0]
        exact .single (.begin hg)

/-! ## The callbacks -/

theorem steps_clearPendingState (h : PendingOf n (Completed n)) (currentFabric : FabricIndex) :
    (books n rest).Steps
      (books { n with o := { n.o.clearPendingState with currentFabric } } rest) :=
  .single (.clear h)

theorem steps_notifyFabricRemoved (h : Current n (.notifying install)) :
    (books n rest).Steps (books { n with o := n.o.notifyFabricRemoved install } rest) := by
  by_cases hidx : n.o.currentFabric = install
  · simp only [OperationalCredentials.notifyFabricRemoved, if_pos hidx]
    exact steps_clearPendingState (h hidx) 0
  · simp only [OperationalCredentials.notifyFabricRemoved, if_neg hidx]
    exact .refl

/-- What `revertAddNOC` is left to do, once the update is reverted. -/
theorem steps_removing (n : Node) (install : FabricIndex) :
    (books n (.reverts none install :: rest)).Steps
      (books n ((load (if install = 0 then .returned else .removing install)).toList ++ rest)) := by
  by_cases h0 : install = 0
  · subst h0
    exact .single (.nothing rfl)
  · rw [if_neg h0]
    exact .refl

theorem steps_restoring {update : Option NocUpdateRevert}
    (h : (books n ((load (.restoring k update install)).toList ++ rest)).Inv)
    (hs : n.next idx (.restoring k update install) = some s) : Follows n rest (.restoring k update install) s := by
  obtain rfl := some.inj hs
  cases update with
  | none => exact ⟨rfl, steps_removing n install⟩
  | some r =>
    obtain ⟨-, hreverts, -⟩ := (h.fits (.reverts (some (k, r)) install) mem_cons_self).taken k r rfl
    obtain ⟨row, cur, hrow, -⟩ := hreverts.found
    have hsome : (n.store r.fabricIndex).isSome = true := by
      rw [show n.store r.fabricIndex = some row from hrow]
      rfl
    simp only [hsome]
    have hrestore : (books n (.reverts (some (k, r)) install :: rest)).Step
        (books
          { n with
            store := revertUpdateNOC n.store r
            restored := n.restored ++
              [{ context := k, install := n.installOf r.fabricIndex, identity := r.identity }] }
          (.reverts none install :: rest)) := .restore rfl
    exact ⟨rfl, .head hrestore (steps_removing _ install)⟩

theorem steps_removed (h : (books n ((load (.removing install)).toList ++ rest)).Inv) (h0 : install ≠ 0)
    (hs : n.next idx (.removing install) = some s) : Follows n rest (.removing install) s := by
  obtain rfl := some.inj hs
  have hsome : (n.store install).isSome = true := ((h.fits (.reverts none install) mem_cons_self).held h0).1
  simp only [hsome]
  exact ⟨rfl, .single (.remove rfl h0)⟩

/-! ## `AddNOC` -/

@[simp]
theorem put_self (store : Store) (idx : FabricIndex) (row : Option FabricRow) : store.put idx row idx = row :=
  if_pos rfl

@[simp]
theorem put_put (store : Store) (idx : FabricIndex) (row row' : Option FabricRow) :
    (store.put idx row).put idx row' = store.put idx row' := by
  funext i
  simp only [Store.put]
  split <;> rfl

theorem steps_addNOCAdd {req : AddNOCRequest} (ht : Current n (.addNOCAdd k req priv))
    (hs : n.next idx (.addNOCAdd k req priv) = some s) : Follows n rest (.addNOCAdd k req priv) s := by
  simp only [Node.next] at hs
  split at hs
  · cases hs
  rename_i hfree
  obtain rfl := some.inj hs
  rw [not_or, not_or, not_isSome_iff_eq_none] at hfree
  exact ⟨rfl, .single (.add ht hfree.1 hfree.2.2 rfl)⟩

theorem steps_addNOCIdentity {req : AddNOCRequest}
    (h : (books n ((load (.addNOCIdentity k req priv idx')).toList ++ rest)).Inv)
    (ht : Current n (.addNOCIdentity k req priv idx')) (hs : n.next idx (.addNOCIdentity k req priv idx') = some s) :
    Follows n rest (.addNOCIdentity k req priv idx') s := by
  obtain ⟨-, -, row, hrow, -⟩ := (h.fits (.adding k idx' true) mem_cons_self).adding k idx' true rfl ht
  simp only [Node.next, Store.upsertIdentity, show n.store idx' = some row from hrow, map_some, put_self,
    put_put] at hs
  obtain rfl := some.inj hs
  exact ⟨rfl, .single (.identify rfl ht)⟩

/-! ## `UpdateNOC` -/

/-- A call that has taken over nothing to revert. -/
theorem light_of_not_reverts {l : Load} (h : Reverts c = false) (hl : load c = some l) : l.Light := by
  cases c with
  | restoring k update install =>
    rw [Reverts, Bool.or_eq_false_iff, bne_eq_false_iff_eq, isSome_eq_false_iff,
      isNone_iff_eq_none] at h
    obtain rfl := some.inj hl
    exact ⟨h.2, by rw [h.1]; rfl⟩
  | removing install => cases h
  | failSafeExpired | addNOCRecord | addNOCIdentity | updateNOCPending | updateNOCRecord | updateNOCWrite =>
    obtain rfl := some.inj hl
    exact ⟨rfl, rfl⟩
  | _ => cases hl

theorem steps_updateNOCRead (ht : Current n (.updateNOCRead k req priv idx'))
    (hrest : ∀ l ∈ rest, ∃ c ∈ n.calls, load c = some l) (hs : n.next idx (.updateNOCRead k req priv idx') = some s) :
    Follows n rest (.updateNOCRead k req priv idx') s := by
  obtain ⟨hopen, hown, hcalm, hkept⟩ := ht
  simp only [Node.next] at hs
  split at hs
  · obtain rfl := some.inj hs
    exact ⟨rfl, .refl⟩
  rename_i row hrow
  split at hs
  · obtain rfl := some.inj hs
    exact ⟨rfl, .refl⟩
  rename_i existing hid
  split at hs
  · obtain rfl := some.inj hs
    exact ⟨rfl, .refl⟩
  obtain rfl := some.inj hs
  refine ⟨rfl, .single (.read hopen hown ?_ hkept hrow hid)⟩
  intro l hl
  obtain ⟨c, hc, hl⟩ := hrest l hl
  exact light_of_not_reverts (hcalm c hc) hl

theorem steps_updateNOCPending (ht : Current n (.updateNOCPending k req priv r))
    (hs : n.next idx (.updateNOCPending k req priv r) = some s) : Follows n rest (.updateNOCPending k req priv r) s := by
  simp only [Node.next] at hs
  split_ifs at hs with hsome
  · obtain rfl := some.inj hs
    exact ⟨rfl, .refl⟩
  obtain rfl := some.inj hs
  rw [isNone_iff_eq_none] at hsome
  obtain ⟨r', hr'⟩ := ne_none_iff_exists'.1 hsome
  exact ⟨rfl, .single (.remembered rfl ht.1 hr' ht.2)⟩

theorem steps_updateNOCRecord (ht : Current n (.updateNOCRecord k req priv r))
    (hs : n.next idx (.updateNOCRecord k req priv r) = some s) : Follows n rest (.updateNOCRecord k req priv r) s := by
  obtain rfl := some.inj hs
  cases hupdate : n.o.pendingUpdateRevert with
  | none => exact ⟨rfl, .single (.remember rfl ht.1 hupdate)⟩
  | some r' => exact ⟨rfl, .single (.remembered rfl ht.1 hupdate ht.2)⟩

theorem steps_updateNOCWrite (h : (books n ((load (.updateNOCWrite k req priv r)).toList ++ rest)).Inv)
    (ht : Current n (.updateNOCWrite k req priv r)) (hs : n.next idx (.updateNOCWrite k req priv r) = some s) :
    Follows n rest (.updateNOCWrite k req priv r) s := by
  have hopen : (books n ((load (.updateNOCWrite k req priv r)).toList ++ rest)).Open k := ht
  -- the old identity is recorded, so that the fabric is there and has one
  obtain ⟨r', hr', hk, hidx⟩ := (h.fits (.writing k r.fabricIndex) mem_cons_self).writing k r.fabricIndex rfl hopen
  obtain ⟨row, old, hrow, hold, -⟩ := (h.update r' hr' (hk ▸ hopen.not_completed)).found
  rw [hidx] at hrow
  simp only [Node.next, show n.store r.fabricIndex = some row from hrow, hold] at hs
  obtain rfl := some.inj hs
  exact ⟨rfl, .single (.write rfl ht hrow hold rfl)⟩

/-! ## All steps -/

theorem calls_ended (n : Node) (outcome : Outcome) : (n.ended outcome).calls = n.calls := by
  unfold Node.ended
  split <;> rfl

theorem calls_ite_ended (n : Node) (P : Prop) [Decidable P] (outcome : Outcome) :
    (if P then n else n.ended outcome).calls = n.calls := by
  split
  · rfl
  · exact calls_ended n outcome

/-- A step of a call that is not overtaken is a run of the books. -/
theorem steps_next (h : (books n ((load c).toList ++ rest)).Inv) (hpos : ∀ x, c = .removing x → x ≠ 0)
    (hrest : ∀ l ∈ rest, ∃ c ∈ n.calls, load c = some l) (ht : Current n c) (hs : n.next idx c = some s) :
    Follows n rest c s := by
  cases c with
  | armFailSafe sessFabric expiry breadcrumb windowOpen =>
    obtain rfl := some.inj hs
    exact ⟨calls_ite_ended n _ _, steps_turn (turn_armFailSafe ..)⟩
  | armFailSafeFor seconds fabricIndex =>
    obtain rfl := some.inj hs
    exact ⟨calls_ite_ended n _ _, steps_armFailSafeFor ht⟩
  | expireFailSafe =>
    obtain rfl := some.inj hs
    have hoff : n.g.expireFailSafe.1.failSafeArmed = false := by
      unfold GeneralCommissioning.expireFailSafe
      cases harmed : n.g.failSafeArmed with
      | false => exact harmed
      | true => rfl
    have hsteps := @steps_turn n rest _ _ (turn_expireFailSafe n.g)
    rw [hoff] at hsteps
    exact ⟨calls_ended n _, hsteps⟩
  | commissioningComplete sessFabric pase terms committed =>
    obtain rfl := some.inj hs
    exact ⟨calls_ite_ended n _ _, steps_commissioningComplete ..⟩
  | watching expiresAt =>
    simp only [Node.next] at hs
    split at hs
    · cases hs
    · obtain rfl := some.inj hs
      exact ⟨calls_ite_ended n _ _, steps_turn (turn_watchFailSafeExpiry ..)⟩
  | failSafeArmed | commissioned =>
    obtain rfl := some.inj hs
    exact ⟨rfl, steps_clearPendingState ht _⟩
  | failSafeExpired =>
    obtain rfl := some.inj hs
    exact ⟨rfl, .single (.take rfl ht)⟩
  | restoring k update install => exact steps_restoring h hs
  | removing install => exact steps_removed h (hpos install rfl) hs
  | notifying install =>
    obtain rfl := some.inj hs
    exact ⟨rfl, steps_notifyFabricRemoved ht⟩
  | addNOCAdd k req priv => exact steps_addNOCAdd ht hs
  | addNOCRecord k req priv idx' =>
    obtain rfl := some.inj hs
    exact ⟨rfl, .single (.record rfl ht.1 ht.2)⟩
  | addNOCIdentity k req priv idx' => exact steps_addNOCIdentity h ht hs
  | updateNOCRead k req priv idx' => exact steps_updateNOCRead ht hrest hs
  | updateNOCPending k req priv r => exact steps_updateNOCPending ht hs
  | updateNOCRecord k req priv r => exact steps_updateNOCRecord ht hs
  | updateNOCWrite k req priv r => exact steps_updateNOCWrite h ht hs
  | addNOC req | updateNOC req | addNOCDone idx' | addNOCRearm idx' | updateNOCDone =>
    obtain rfl := some.inj hs
    exact ⟨rfl, .refl⟩
  -- a check goes on or returns, and changes nothing
  | autoArm | addNOCArmed | addNOCPending | updateNOCArmed | updateNOCFabric | updateNOCCurrent =>
    simp only [Node.next] at hs
    repeat' split at hs
    all_goals
      obtain rfl := some.inj hs
      exact ⟨rfl, .refl⟩
  | returned => cases hs

/-- A call goes on to remove a fabric only if it has one to remove. -/
theorem next_removing {x : FabricIndex} (hs : n.next idx c = some s) (hx : s.next = .removing x) : x ≠ 0 := by
  cases c with
  | restoring k update install =>
    obtain rfl := some.inj hs
    simp only at hx
    split at hx
    · cases hx
    · rename_i h0
      exact Call.removing.inj hx ▸ h0
  | _ =>
    simp only [Node.next] at hs
    repeat' split at hs
    all_goals
      first
        | cases hs; done
        | obtain rfl := some.inj hs
          cases hx

theorem Kept.call (h : Kept n) (hc : n.calls[i]? = some c) (ht : Current n c) (hs : n.next idx c = some s) :
    Kept (Node.stepped i s) := by
  have hfront := h.books.step (order_before hc)
  have hmem : c ∈ n.calls := mem_of_getElem? hc
  have hrest : ∀ l ∈ others n i, ∃ c ∈ n.calls, load c = some l := by
    intro l hl
    obtain ⟨c, hc, hl⟩ := mem_filterMap.1 hl
    exact ⟨c, mem_of_mem_eraseIdx hc, hl⟩
  have hfollows := steps_next hfront (fun x hx => h.removing x (hx ▸ hmem)) hrest ht hs
  refine ⟨h.books.steps (hfollows.stepped hc), ?_⟩
  intro x hx
  obtain hx | hx := mem_append.1 hx
  · rw [hfollows.calls] at hx
    obtain hx | hx := mem_or_eq_of_mem_set hx
    · exact h.removing x hx
    · exact next_removing hs hx.symm
  · obtain ⟨cb, -, hcb⟩ := mem_map.1 hx
    cases cb <;> cases hcb

theorem Kept.step (h : Kept n) {e : Event} {n' : Node} (ht : Timely n e) (hs : n.step e = some n') : Kept n' := by
  cases e with
  | call c =>
    obtain ⟨harrives, rfl⟩ := ite_none_eq_some.1 hs
    have hload : load c = none := by cases c <;> first | rfl | cases harrives
    refine ⟨?_, ?_⟩
    · simp only [view, filterMap_append, filterMap_cons, hload, filterMap_nil, append_nil]
      exact h.books
    intro x hx
    obtain hx | hx := mem_append.1 hx
    · exact h.removing x hx
    · rw [← mem_singleton.1 hx] at harrives
      cases harrives
  | step i idx =>
    obtain ⟨c, hc, hs⟩ := bind_eq_some_iff.1 hs
    obtain ⟨s, hnext, hs⟩ := bind_eq_some_iff.1 hs
    obtain rfl := some.inj hs
    exact h.call hc (ht c hc) hnext
  | cancel i =>
    obtain ⟨c, hc, hs⟩ := bind_eq_some_iff.1 hs
    split at hs
    · obtain rfl := some.inj hs
      refine ⟨?_, ?_⟩
      · have hp := filterMap_set_perm hc .returned
        exact (h.books.step (order_before hc)).step (.order hp.symm)
      intro x hx
      obtain hx | hx := mem_or_eq_of_mem_set hx
      · exact h.removing x hx
      · cases hx
    · cases hs
  | tick now =>
    obtain ⟨-, rfl⟩ := ite_none_eq_some.1 hs
    exact ⟨h.books, h.removing⟩
  | csrRequest | addTrustedRootCertificate | setCurrentFabric =>
    obtain rfl := some.inj hs
    exact ⟨h.books, h.removing⟩

/-! ## Runs -/

theorem Kept.start (cumulativeFailSafeMaxSec : BitVec 16) (store : Store) (now : Int) :
    Kept (Node.start cumulativeFailSafeMaxSec store now) := by
  have hcompleted : ∀ idx, (view (Node.start cumulativeFailSafeMaxSec store now)).contextOf idx = 0 := by
    intro idx
    show (List.replicate 256 0).getD idx.toNat 0 = 0
    rw [getD_eq_getElem?_getD, List.getElem?_replicate]
    split <;> rfl
  refine ⟨?_, nofun⟩
  exact {
    known k hk := .inl (eq_of_mem_replicate hk ▸ Nat.zero_lt_one)
    numbered idx _ := by
      show idx.toNat < (List.replicate 256 0).length
      rw [length_replicate]
      exact idx.isLt
    distinct i j _ _ he := BitVec.eq_of_toNat_eq he
    present _ _ := not_mem_nil
    accounted m k hm := .inl (by
      have hk : k = 0 := eq_of_mem_replicate (mem_of_getElem? hm)
      rw [hk]
      rfl)
    removed_lt := nofun
    removed_once := .nil
    removed_abandoned := nofun
    covered idx _ := .inl (by rw [hcompleted]; rfl)
    pending h0 := absurd rfl h0
    fits := nofun
    apart := .nil
    due := .inr ⟨.inl rfl, .inl rfl⟩
    update := nofun
    replaced := nofun
    restored := nofun
    restored_once := .nil }

/-- The books of a node without a call under way have no loads. -/
theorem not_mem_loads (h : Quiet n) (l : Load) : l ∉ (view n).loads := by
  intro hl
  obtain ⟨c, hc, hl⟩ := mem_filterMap.1 hl
  have hrest := h c hc
  cases c <;> first | (cases hrest; done) | cases hl

theorem Kept.noTrace (h : Kept n) : NoTrace n where
  removed_once := h.books.removed_once
  removed_abandoned := h.books.removed_abandoned
  restored_once := h.books.restored_once
  restored_abandoned := h.books.restored
  gone hq m k hm ha := by
    have hloads := not_mem_loads hq
    have ha' : (view n).Abandoned k := ha
    have hdue := h.books.due.resolve_left (hloads _)
    -- a fabric of that install would be pending, and its revert due
    have hno : ∀ idx, (view n).Has idx → n.installOf idx ≠ m := by
      intro idx hidx he
      rw [← he] at hm
      have hk : (view n).contextOf idx = k := Books.contextOf_eq hm
      obtain hc | ⟨h0, hi⟩ | ⟨l, hl, -⟩ := h.books.covered idx hidx
      · exact ha'.not_completed (hk ▸ hc)
      · exact hdue.1.resolve_left (hi ▸ h0) (by rw [hi, hk]; exact ha')
      · exact hloads l hl
    obtain hc | hr | ⟨idx, hidx, he⟩ := h.books.accounted m k hm
    · exact absurd hc ha'.not_completed
    · exact ⟨hr, hno⟩
    · exact absurd he (hno idx hidx)
  back hq e he ha := by
    have hloads := not_mem_loads hq
    have ha' : (view n).Abandoned e.context := ha
    obtain hc | ⟨hu, hk⟩ | hs | ⟨l, hl, -⟩ := h.books.replaced e he
    · exact absurd hc ha'.not_completed
    · exact absurd (hk ▸ ha') ((h.books.due.resolve_left (hloads _)).2.resolve_left hu)
    · exact hs
    · exact absurd hl (hloads l)

/-- In every run whose steps are not overtaken, what an abandoned context
installed or replaced is reverted, once, and nothing else is. -/
theorem abandoned_leaves_no_trace (cumulativeFailSafeMaxSec : BitVec 16) (store : Store) (now : Int)
    (events : List Event) (n : Node)
    (htimely : commissioning.Meets Timely (Node.start cumulativeFailSafeMaxSec store now) events)
    (hrun : commissioning.run (Node.start cumulativeFailSafeMaxSec store now) events = some n) : NoTrace n := by
  have hkept : Kept n := System.run_invariant_meets (fun _ _ _ ht h hs => h.step ht hs) htimely
    (Kept.start cumulativeFailSafeMaxSec store now) hrun
  exact hkept.noTrace

/-! ## Two schedules -/

/-- A fabric that the node has from the start. -/
def commissionedStore : Store := fun idx =>
  if idx = 1 then some { nodeID := 3, identity := some { noc := [6], icac := [], privateKey := [7], ipk := [8] } }
  else none

def exampleAddNOC : AddNOCRequest :=
  { accessing := 0, sessionID := 5, noc := [1], icac := [], ipk := [2], nodeID := 7, caseAdminSubject := 9
    valid := true }

def exampleUpdateNOC : UpdateNOCRequest := { sessionFabric := 1, noc := [11], icac := [], nodeID := 8, valid := true }

/-- A fail-safe of 10 s is armed, its callback runs, and `AddNOC` installs the
fabric `idx` before the deadline passes. -/
def installing (idx : FabricIndex) : List Event :=
  [.call (.armFailSafe 0 10 1 false), .step 0 0, .step 2 0, .csrRequest [3] 5 false, .addTrustedRootCertificate [4],
    .call (.addNOC exampleAddNOC), .step 3 0, .step 3 0, .step 3 0, .step 3 idx, .step 3 0, .step 3 0, .step 3 0,
    .step 3 0, .tick (20 * second)]

/-- The watcher fires and its callback runs. Then `UpdateNOC` replaces an identity
under another fail-safe, which `ExpireFailSafe` ends. -/
def abandonedTwice : List Event :=
  installing 2 ++
    [.step 1 0, .step 4 0, .step 4 0, .step 4 0, .step 4 0,
      .call (.armFailSafe 1 10 1 false), .step 5 0, .step 7 0, .csrRequest [5] 6 true,
      .call (.updateNOC exampleUpdateNOC), .step 8 0, .step 8 0, .step 8 0, .step 8 0, .step 8 0, .step 8 0, .step 8 0,
      .step 8 0, .call .expireFailSafe, .step 9 0, .step 10 0, .step 10 0]

theorem abandoned_leaves_no_trace_twice :
    ∃ n, commissioning.run (Node.start 900 commissionedStore 0) abandonedTwice = some n ∧
      n.outcomes = [.completed, .abandoned, .abandoned] ∧ n.removed = [256] ∧ n.restored = n.replaced ∧
      n.restored.length = 1 ∧ NoTrace n := by
  have hsome : (commissioning.run (Node.start 900 commissionedStore 0) abandonedTwice).isSome = true := by
    decide +kernel
  have hend : ∀ n ∈ commissioning.run (Node.start 900 commissionedStore 0) abandonedTwice,
      n.outcomes = [.completed, .abandoned, .abandoned] ∧ n.removed = [256] ∧ n.restored = n.replaced ∧
        n.restored.length = 1 := by
    decide +kernel
  obtain ⟨n, hn⟩ := isSome_iff_exists.1 hsome
  obtain ⟨houtcomes, hremoved, hrestored, hlength⟩ := hend n hn
  exact ⟨n, hn, houtcomes, hremoved, hrestored, hlength,
    abandoned_leaves_no_trace 900 commissionedStore 0 abandonedTwice n (by decide +kernel) hn⟩

/-- The watcher fires, but before its callback runs the fail-safe is armed again,
and the callback of that clears what was pending. -/
def overtaken : List Event :=
  installing 1 ++
    [.step 1 0, .call (.armFailSafe 0 10 2 false), .step 5 0, .step 7 0, .step 4 0, .step 4 0, .call .expireFailSafe,
      .step 8 0, .step 9 0, .step 9 0]

/-- The fabric of the abandoned attempt then stays, with its administrator. -/
theorem overtaken_leaves_fabric :
    ∃ n, commissioning.run (Node.start 900 (fun _ => none) 0) overtaken = some n ∧ Quiet n ∧
      Abandoned n (contextOf n 1) ∧ (∃ row, n.store 1 = some row ∧ row.adminSubject = some 9) ∧ ¬NoTrace n := by
  have hsome : (commissioning.run (Node.start 900 (fun _ => none) 0) overtaken).isSome = true := by decide +kernel
  have hend : ∀ n ∈ commissioning.run (Node.start 900 (fun _ => none) 0) overtaken,
      (∀ c ∈ n.calls, AtRest c = true) ∧ Abandoned n 1 ∧ contextOf n 1 = 1 ∧ n.installs[256]? = some 1 ∧
        n.removed = [] ∧
        n.store 1 = some { nodeID := 7, identity := some (exampleAddNOC.identity [3]), adminSubject := some 9 } := by
    decide +kernel
  obtain ⟨n, hn⟩ := isSome_iff_exists.1 hsome
  obtain ⟨hquiet, habandoned, hcontext, hinstall, hremoved, hrow⟩ := hend n hn
  refine ⟨n, hn, hquiet, hcontext ▸ habandoned, ⟨_, hrow, rfl⟩, ?_⟩
  intro h
  have hgone := (h.gone hquiet 256 1 hinstall habandoned).1
  rw [hremoved] at hgone
  cases hgone

end GF.Proof.Commissioning
