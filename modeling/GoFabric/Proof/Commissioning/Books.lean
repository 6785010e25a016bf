import GoFabric.Spec.Commissioning
import Mathlib.Data.List.Nodup
import Mathlib.Data.List.Pairwise
import Mathlib.Data.List.Perm.Subperm

/-!
# The books of a commissionable node

Of a node, only this matters for what it still has to revert: which contexts
ended how, what is pending, which fabrics there are, and what the calls under
way answer for (`Load`). The steps on these books (`Books.Step`) keep an
invariant (`Books.Inv`): a fabric of a context that was not completed is pending,
or a call is about to record or to remove it; and so is, at most once, an
identity that was replaced.
-/

namespace GF.Proof.Commissioning

open GF.Impl.Commissioning GF.Spec.Commissioning List Option

variable {k : Nat} {idx x : FabricIndex} {l l' : Load} {rest loads : List Load} {row row' : FabricRow}
  {r : NocUpdateRevert}

theorem getElem?_concat_eq_some {α : Type} {l : List α} {a x : α} {m : Nat} :
    (l ++ [a])[m]? = some x ↔ l[m]? = some x ∨ a = x ∧ m = l.length := by
  rw [List.getElem?_append]
  split
  · rename_i hlt
    exact ⟨.inl, fun h => h.resolve_right fun he => absurd he.2 (Nat.ne_of_lt hlt)⟩
  rename_i hge
  rw [List.getElem?_eq_none (Nat.le_of_not_lt hge), List.getElem?_singleton]
  split_ifs with h0
  · simp only [some.injEq, false_or]
    exact ⟨fun h => ⟨h, by omega⟩, And.left⟩
  · simp only [false_or, false_iff]
    omega

/-- What a call under way answers for. -/
inductive Load
  /-- The expiry callback has to run. -/
  | expired
  /-- An update and a fabric have been taken over, to be reverted. -/
  | reverts (update : Option (Nat × NocUpdateRevert)) (install : FabricIndex)
  /-- `AddNOC` has added the fabric, and its identity is to be written. -/
  | adding (context : Nat) (idx : FabricIndex) (recorded : Bool)
  /-- `UpdateNOC` has read the identity that it replaces. -/
  | updating (context : Nat) (r : NocUpdateRevert)
  /-- `UpdateNOC` has seen to it that the old identity is recorded. -/
  | writing (context : Nat) (idx : FabricIndex)

namespace Load

/-- The fabric that is to be removed. -/
def install : Load → FabricIndex
  | reverts _ install => install
  | _ => 0

/-- The update that is to be reverted, with its context. -/
def update : Load → Option (Nat × NocUpdateRevert)
  | reverts update _ => update
  | _ => none

/-- The context that a command runs in. -/
def context : Load → Option Nat
  | adding k _ _ | updating k _ | writing k _ => some k
  | _ => none

/-- The fabric is to be recorded or to be removed. -/
def Answers : Load → FabricIndex → Prop
  | reverts _ install, idx => idx ≠ 0 ∧ install = idx
  | adding _ i recorded, idx => recorded = false ∧ i = idx
  | _, _ => False

/-- Nothing is to be reverted. -/
def Light (l : Load) : Prop := l.install = 0 ∧ l.update = none

end Load

/-- What of a node a commissioning can leave a trace in, and what its calls have under way. -/
structure Books where
  armed : Bool
  outcomes : List Outcome
  install : FabricIndex
  update : Option NocUpdateRevert
  updateContext : Nat
  store : Store
  installs : List Nat
  installOf : FabricIndex → Nat
  removed : List Nat
  replaced : List Identified
  restored : List Identified
  loads : List Load

namespace Books

def Open (b : Books) (k : Nat) : Prop := b.armed = true ∧ k = b.outcomes.length

def Completed (b : Books) (k : Nat) : Prop := b.outcomes[k]? = some .completed

def Abandoned (b : Books) (k : Nat) : Prop := b.outcomes[k]? = some .abandoned

/-- The context has ended or is in force. -/
def Known (b : Books) (k : Nat) : Prop := k < b.outcomes.length ∨ b.Open k

def contextOf (b : Books) (idx : FabricIndex) : Nat := b.installs.getD (b.installOf idx) 0

def Has (b : Books) (idx : FabricIndex) : Prop := (b.store idx).isSome = true

def PendingOf (b : Books) (Q : Nat → Prop) : Prop :=
  (b.install = 0 ∨ Q (b.contextOf b.install)) ∧ (b.update = none ∨ Q b.updateContext)

def UpdateOf (b : Books) (k : Nat) (idx : FabricIndex) : Prop :=
  ∀ r ∈ b.update, b.updateContext = k ∧ r.fabricIndex = idx

/-- The books without anything pending. -/
def cleared (b : Books) : Books := { b with install := 0, update := none }

/-- The log of replaced identities after one more was. -/
def replacing (b : Books) (k : Nat) (idx : FabricIndex) (old : IdentityRecord) : List Identified :=
  if b.replaced.any (fun e => e.context == k && e.install == b.installOf idx) then b.replaced
  else b.replaced ++ [{ context := k, install := b.installOf idx, identity := old }]

/-! ## Steps -/

/-- What one critical section of a call does to the books. -/
inductive Step (b : Books) : Books → Prop
  /-- The calls come in no order. -/
  | order {loads : List Load} (perm : b.loads.Perm loads) : Step b { b with loads := loads }
  | begin (closed : b.armed = false) : Step b { b with armed := true }
  | complete (opened : b.armed = true) :
      Step b { b with armed := false, outcomes := b.outcomes ++ [.completed] }
  | abandon (opened : b.armed = true) :
      Step b { b with armed := false, outcomes := b.outcomes ++ [.abandoned], loads := .expired :: b.loads }
  /-- `ArmFailSafeFor` ends a context without its callback. -/
  | supersede (armed : Bool) (opened : b.armed = true) (none_due : b.PendingOf b.Completed) :
      Step b { b with armed := armed, outcomes := b.outcomes ++ [.abandoned] }
  | clear (none_due : b.PendingOf b.Completed) : Step b b.cleared
  | take {rest : List Load} (loads : b.loads = .expired :: rest) (due : b.PendingOf b.Abandoned) :
      Step b { b.cleared with loads := .reverts (b.update.map fun r => (b.updateContext, r)) b.install :: rest }
  | restore {rest : List Load} {k : Nat} {r : NocUpdateRevert} {x : FabricIndex}
      (loads : b.loads = .reverts (some (k, r)) x :: rest) :
      Step b { b with
        store := revertUpdateNOC b.store r
        restored := b.restored ++ [{ context := k, install := b.installOf r.fabricIndex, identity := r.identity }]
        loads := .reverts none x :: rest }
  | remove {rest : List Load} {x : FabricIndex} (loads : b.loads = .reverts none x :: rest)
      (some_left : x ≠ 0) :
      Step b { b with
        store := revertAddNOC b.store x, removed := b.removed ++ [b.installOf x], loads := rest }
  | nothing {rest : List Load} (loads : b.loads = .reverts none 0 :: rest) :
      Step b { b with loads := rest }
  | add {k : Nat} {idx : FabricIndex} {row : FabricRow} (opened : b.Open k) (pos : idx ≠ 0)
      (free : b.store idx = none) (plain : row.identity = none) :
      Step b { b with
        store := b.store.put idx (some row)
        installs := b.installs ++ [k]
        installOf := fun i => if i = idx then b.installs.length else b.installOf i
        loads := .adding k idx false :: b.loads }
  | record {rest : List Load} {k : Nat} {idx : FabricIndex} (loads : b.loads = .adding k idx false :: rest)
      (opened : b.Open k) (none_due : b.install = 0 ∨ b.Completed (b.contextOf b.install)) :
      Step b { b with install := idx, loads := .adding k idx true :: rest }
  | identify {rest : List Load} {k : Nat} {idx : FabricIndex} {row : FabricRow}
      (loads : b.loads = .adding k idx true :: rest) (opened : b.Open k) :
      Step b { b with store := b.store.put idx (some row), loads := rest }
  | read {k : Nat} {r : NocUpdateRevert} {row : FabricRow} (opened : b.Open k)
      (own : b.UpdateOf k r.fabricIndex) (calm : ∀ l ∈ b.loads, l.Light)
      (kept : b.install = 0 ∨ ¬b.Abandoned (b.contextOf b.install)) (found : b.store r.fabricIndex = some row)
      (identity : row.identity = some r.identity) :
      Step b { b with loads := .updating k r :: b.loads }
  | remember {rest : List Load} {k : Nat} {r : NocUpdateRevert} (loads : b.loads = .updating k r :: rest)
      (opened : b.Open k) (unrecorded : b.update = none) :
      Step b { b with update := some r, updateContext := k, loads := .writing k r.fabricIndex :: rest }
  | remembered {rest : List Load} {k : Nat} {r r' : NocUpdateRevert} (loads : b.loads = .updating k r :: rest)
      (opened : b.Open k) (recorded : b.update = some r') (own : b.UpdateOf k r.fabricIndex) :
      Step b { b with loads := .writing k r.fabricIndex :: rest }
  | write {rest : List Load} {k : Nat} {idx : FabricIndex} {row row' : FabricRow} {old new : IdentityRecord}
      (loads : b.loads = .writing k idx :: rest) (opened : b.Open k) (found : b.store idx = some row)
      (was : row.identity = some old) (becomes : row'.identity = some new) :
      Step b { b with store := b.store.put idx (some row'), replaced := b.replacing k idx old, loads := rest }

def Steps : Books → Books → Prop := Relation.ReflTransGen Step

/-! ## The invariant -/

/-- The identity that `r` is to put back is the one that was replaced in the
context, or still the one there. -/
structure RevertsIn (store : Store) (installOf : FabricIndex → Nat) (replaced restored : List Identified) (k : Nat)
    (r : NocUpdateRevert) : Prop where
  found : ∃ row cur, store r.fabricIndex = some row ∧ row.identity = some cur ∧
    ((∀ e ∈ replaced, e.context ≠ k) → cur = r.identity)
  replaced : ∀ e ∈ replaced, e.context = k →
    e = { context := k, install := installOf r.fabricIndex, identity := r.identity }
  unrestored : ∀ e ∈ restored, e.context ≠ k

theorem RevertsIn.of_eq {store store' : Store} {installOf : FabricIndex → Nat} {replaced restored : List Identified}
    (h : RevertsIn store installOf replaced restored k r) (he : store' r.fabricIndex = store r.fabricIndex) :
    RevertsIn store' installOf replaced restored k r := ⟨he ▸ h.found, h.replaced, h.unrestored⟩

def Reverts (b : Books) (k : Nat) (r : NocUpdateRevert) : Prop :=
  RevertsIn b.store b.installOf b.replaced b.restored k r

/-- What two calls answer for does not overlap: one of them at most has an update to
revert, they do not remove the same fabric, nor one of them that of the other's update,
and they are not both adding one fabric; and while a command has read an identity, no
other call has anything to revert. `Op` are the contexts in force. -/
structure Apart (Op : Nat → Prop) (l l' : Load) : Prop where
  install : l.install ≠ 0 → l.install ≠ l'.install
  update : l.update = none ∨ l'.update = none
  fabric : ∀ p ∈ l.update, l'.install ≠ 0 → l'.install ≠ p.2.fabricIndex
  fabric' : ∀ p ∈ l'.update, l.install ≠ 0 → l.install ≠ p.2.fabricIndex
  adding : ∀ k idx rec rec', l = .adding k idx rec → l' = .adding k idx rec' → ¬Op k
  calm : ∀ k r, l = .updating k r → Op k → l'.Light
  calm' : ∀ k r, l' = .updating k r → Op k → l.Light

/-- What a call answers for is there, and of the context that it says. -/
structure Fits (b : Books) (l : Load) : Prop where
  held : l.install ≠ 0 → b.Has l.install ∧ b.Abandoned (b.contextOf l.install) ∧ b.install ≠ l.install
  command : ∀ k ∈ l.context, b.Known k
  adding : ∀ k idx rec, l = .adding k idx rec → b.Open k →
    idx ≠ 0 ∧ b.contextOf idx = k ∧ ∃ row, b.store idx = some row ∧ row.identity = none
  taken : ∀ k r, l.update = some (k, r) → b.Abandoned k ∧ b.Reverts k r ∧ (b.install ≠ 0 → b.install ≠ r.fabricIndex)
  pending : ∀ r ∈ b.update, ¬b.Completed b.updateContext →
    l.update = none ∧ (l.install ≠ 0 → l.install ≠ r.fabricIndex)
  updating : ∀ k r, l = .updating k r → b.Open k →
    (b.install = 0 ∨ ¬b.Abandoned (b.contextOf b.install)) ∧ (b.update ≠ none → b.updateContext = k) ∧
    (b.update = none → ∃ row, b.store r.fabricIndex = some row ∧ row.identity = some r.identity)
  writing : ∀ k idx, l = .writing k idx → b.Open k → ∃ r ∈ b.update, b.updateContext = k ∧ r.fabricIndex = idx

/-- What holds of the books after every step. -/
structure Inv (b : Books) : Prop where
  -- fabrics
  known : ∀ k ∈ b.installs, b.Known k
  numbered : ∀ idx, b.Has idx → b.installOf idx < b.installs.length
  distinct : ∀ i j, b.Has i → b.Has j → b.installOf i = b.installOf j → i = j
  present : ∀ idx, b.Has idx → b.installOf idx ∉ b.removed
  accounted : ∀ m k, b.installs[m]? = some k → b.Completed k ∨ m ∈ b.removed ∨ ∃ idx, b.Has idx ∧ b.installOf idx = m
  removed_lt : ∀ m ∈ b.removed, m < b.installs.length
  removed_once : b.removed.Nodup
  removed_abandoned : ∀ m ∈ b.removed, ∀ k, b.installs[m]? = some k → b.Abandoned k
  covered : ∀ idx, b.Has idx →
    b.Completed (b.contextOf idx) ∨ (idx ≠ 0 ∧ b.install = idx) ∨ ∃ l ∈ b.loads, l.Answers idx
  pending : b.install ≠ 0 → b.Has b.install
  -- calls
  fits : ∀ l ∈ b.loads, b.Fits l
  apart : b.loads.Pairwise (Apart b.Open)
  due : .expired ∈ b.loads ∨ b.PendingOf fun k => ¬b.Abandoned k
  -- identities
  update : ∀ r ∈ b.update, ¬b.Completed b.updateContext → b.Reverts b.updateContext r
  replaced : ∀ e ∈ b.replaced, b.Completed e.context ∨ (b.update ≠ none ∧ b.updateContext = e.context) ∨
    e ∈ b.restored ∨ ∃ l ∈ b.loads, ∃ r, l.update = some (e.context, r)
  restored : ∀ e ∈ b.restored, b.Abandoned e.context
  restored_once : (b.restored.map Identified.context).Nodup

/-! ## Contexts -/

variable {b : Books}

theorem PendingOf.imp {P Q : Nat → Prop} (h : b.PendingOf P) (hPQ : ∀ k, P k → Q k) : b.PendingOf Q :=
  ⟨h.1.imp_right (hPQ _), h.2.imp_right (hPQ _)⟩

theorem Completed.lt (h : b.Completed k) : k < b.outcomes.length := (List.getElem?_eq_some_iff.1 h).1

theorem Abandoned.lt (h : b.Abandoned k) : k < b.outcomes.length := (List.getElem?_eq_some_iff.1 h).1

theorem Open.not_completed (h : b.Open k) : ¬b.Completed k := by
  intro hc
  exact absurd hc.lt (by rw [h.2]; exact Nat.lt_irrefl _)

theorem Open.not_abandoned (h : b.Open k) : ¬b.Abandoned k := by
  intro ha
  exact absurd ha.lt (by rw [h.2]; exact Nat.lt_irrefl _)

theorem Abandoned.not_completed (h : b.Abandoned k) : ¬b.Completed k := by
  intro hc
  cases h.symm.trans hc

/-- A context of an installed fabric is the one listed for its install. -/
theorem contextOf_eq (h : b.installs[b.installOf idx]? = some k) : b.contextOf idx = k := by
  rw [contextOf, getD_eq_getElem?_getD, h, getD_some]

/-! ## The order of the loads -/

section

variable {Op : Nat → Prop}

theorem Apart.symm (h : Apart Op l l') : Apart Op l' l where
  install hl' he := h.install (he ▸ hl') he.symm
  update := h.update.symm
  fabric := h.fabric'
  fabric' := h.fabric
  adding k idx rec rec' hl' hl := h.adding k idx rec' rec hl hl'
  calm := h.calm'
  calm' := h.calm

theorem apart_of_light (hl : l.Light) (hadd : ∀ k idx rec rec', l = .adding k idx rec → l' = .adding k idx rec' → ¬Op k)
    (hcalm : ∀ k r, l = .updating k r → Op k → l'.Light) : Apart Op l l' where
  install hx := absurd hl.1 hx
  update := .inl hl.2
  fabric _ hp := nomatch hl.2.symm.trans hp
  fabric' _ _ hx := absurd hl.1 hx
  adding := hadd
  calm := hcalm
  calm' _ _ _ _ := hl

end

theorem fits_of_light (hl : l.Light) (hcommand : ∀ k ∈ l.context, b.Known k)
    (hadd : ∀ k idx rec, l = .adding k idx rec → b.Open k →
      idx ≠ 0 ∧ b.contextOf idx = k ∧ ∃ row, b.store idx = some row ∧ row.identity = none)
    (hupd : ∀ k r, l = .updating k r → b.Open k →
      (b.install = 0 ∨ ¬b.Abandoned (b.contextOf b.install)) ∧ (b.update ≠ none → b.updateContext = k) ∧
      (b.update = none → ∃ row, b.store r.fabricIndex = some row ∧ row.identity = some r.identity))
    (hwrite : ∀ k idx, l = .writing k idx → b.Open k → ∃ r ∈ b.update, b.updateContext = k ∧ r.fabricIndex = idx) :
    b.Fits l where
  held hx := absurd hl.1 hx
  command := hcommand
  adding := hadd
  taken _ _ hu := nomatch hl.2.symm.trans hu
  pending _ _ _ := ⟨hl.2, fun hx => absurd hl.1 hx⟩
  updating := hupd
  writing := hwrite

theorem Fits.beside (h : b.Fits l) (loads : List Load) : Fits { b with loads } l := { h with }

/-- While a command has read an identity, no call has anything to revert. -/
theorem Inv.calm (h : b.Inv) (hl : .updating k r ∈ b.loads) (ho : b.Open k) (l : Load) (hl' : l ∈ b.loads) : l.Light := by
  have : Std.Symm (Apart b.Open) := ⟨fun _ _ => Apart.symm⟩
  by_cases he : .updating k r = l
  · exact he ▸ ⟨rfl, rfl⟩
  · exact (h.apart.forall hl hl' he).calm k r rfl ho

/-- Nothing that has to be done is left when the call is done. -/
structure Spare (b : Books) (l : Load) : Prop where
  update : l.update = none
  done : l = .expired → b.PendingOf fun k => ¬b.Abandoned k
  recorded : ∀ idx, l.Answers idx → idx ≠ 0 ∧ b.install = idx

/-- The calls come in another order, and some that answer for nothing any more are done. -/
theorem Inv.fewer (h : b.Inv) (hsub : loads.Subperm b.loads) (hkeep : ∀ l ∈ b.loads, l ∈ loads ∨ b.Spare l) :
    Inv { b with loads } := by
  obtain ⟨loads', hp, hs⟩ := hsub
  have hm : ∀ l, l ∈ loads → l ∈ b.loads := fun l hl => hs.subset (hp.mem_iff.2 hl)
  exact {
    h with
    covered idx hidx := by
      obtain hc | hi | ⟨l, hl, ha⟩ := h.covered idx hidx
      · exact .inl hc
      · exact .inr (.inl hi)
      · obtain hl | hl := hkeep l hl
        · exact .inr (.inr ⟨l, hl, ha⟩)
        · exact .inr (.inl (hl.recorded idx ha))
    fits l hl := (h.fits l (hm l hl)).beside loads
    apart := (hp.pairwise_iff Apart.symm).1 (h.apart.sublist hs)
    due := h.due.elim (fun he => (hkeep _ he).imp_right fun he => he.done rfl) .inr
    replaced e he := by
      refine (h.replaced e he).imp_right (.imp_right (.imp_right ?_))
      rintro ⟨l, hl, r, hr⟩
      obtain hl | hl := hkeep l hl
      · exact ⟨l, hl, r, hr⟩
      · cases hl.update.symm.trans hr }

theorem Inv.perm (h : b.Inv) (hp : b.loads.Perm loads) : Inv { b with loads } :=
  h.fewer hp.symm.subperm fun _ hl => .inl (hp.mem_iff.1 hl)

theorem Inv.unload (h : b.Inv) (hl : b.loads = l :: rest) (hspare : b.Spare l) : Inv { b with loads := rest } := by
  refine h.fewer (hl ▸ (sublist_cons_self l rest).subperm) fun l' hl' => ?_
  obtain rfl | hl' := mem_cons.1 (hl ▸ hl')
  · exact .inr hspare
  · exact .inl hl'

theorem Inv.load (h : b.Inv) (hfits : b.Fits l) (hapart : ∀ l' ∈ b.loads, Apart b.Open l l') :
    Inv { b with loads := l :: b.loads } where
  __ := h
  covered idx hidx := (h.covered idx hidx).imp_right (.imp_right (exists_mem_cons_of_exists))
  fits l' hl' := by
    obtain rfl | hl' := mem_cons.1 hl'
    · exact hfits.beside _
    · exact (h.fits l' hl').beside _
  apart := pairwise_cons.2 ⟨hapart, h.apart⟩
  due := h.due.imp_left (mem_cons_of_mem _)
  replaced e he := (h.replaced e he).imp_right (.imp_right (.imp_right (exists_mem_cons_of_exists)))

/-! ## Contexts that begin and end -/

/-- The context in force ends, or another one begins: none that was known before
is in force afterwards. -/
theorem Inv.turn (h : b.Inv) {armed : Bool} {ends : List Outcome}
    (hknown : ∀ k, b.Known k → ({ b with armed, outcomes := b.outcomes ++ ends } : Books).Known k)
    (hover : ∀ k, b.Known k → ¬({ b with armed, outcomes := b.outcomes ++ ends } : Books).Open k)
    (hdue : .expired ∈ b.loads ∨ b.PendingOf fun k => (b.outcomes ++ ends)[k]? ≠ some .abandoned) :
    Inv { b with armed, outcomes := b.outcomes ++ ends } := by
  have hc : ∀ k, b.Completed k → (b.outcomes ++ ends)[k]? = some .completed := fun k hk => by
    rw [List.getElem?_append_left hk.lt]
    exact hk
  have ha : ∀ k, b.Abandoned k → (b.outcomes ++ ends)[k]? = some .abandoned := fun k hk => by
    rw [List.getElem?_append_left hk.lt]
    exact hk
  exact {
    h with
    known k hk := hknown k (h.known k hk)
    accounted m k hm := (h.accounted m k hm).imp (hc k) id
    removed_abandoned m hm k hk := ha k (h.removed_abandoned m hm k hk)
    covered idx hidx := (h.covered idx hidx).imp (hc _) id
    fits l hl := {
      held hx := ⟨((h.fits l hl).held hx).1, ha _ ((h.fits l hl).held hx).2.1, ((h.fits l hl).held hx).2.2⟩
      command k hk := hknown k ((h.fits l hl).command k hk)
      adding k idx rec he ho := absurd ho (hover k ((h.fits l hl).command k (he ▸ rfl)))
      taken k r hu := ⟨ha k ((h.fits l hl).taken k r hu).1, ((h.fits l hl).taken k r hu).2⟩
      pending r hr hcomp := (h.fits l hl).pending r hr fun hk => hcomp (hc _ hk)
      updating k r he ho := absurd ho (hover k ((h.fits l hl).command k (he ▸ rfl)))
      writing k idx he ho := absurd ho (hover k ((h.fits l hl).command k (he ▸ rfl))) }
    apart := h.apart.imp_of_mem fun {l l'} hl hl' hap =>
      { hap with
        adding k idx rec rec' he _ := hover k ((h.fits l hl).command k (he ▸ rfl))
        calm k r he ho := absurd ho (hover k ((h.fits l hl).command k (he ▸ rfl)))
        calm' k r he ho := absurd ho (hover k ((h.fits l' hl').command k (he ▸ rfl))) }
    due := hdue
    update r hr hcomp := h.update r hr fun hk => hcomp (hc _ hk)
    replaced e he := (h.replaced e he).imp (hc _) id
    restored e he := ha _ (h.restored e he) }

theorem Known.le (h : b.Known k) : k ≤ b.outcomes.length := by
  obtain h | h := h
  · exact Nat.le_of_lt h
  · exact Nat.le_of_eq h.2

theorem Inv.begin (h : b.Inv) (closed : b.armed = false) : Inv { b with armed := true } := by
  have hlt : ∀ k, b.Known k → k < b.outcomes.length := by
    intro k hk
    exact hk.resolve_right fun ho => nomatch closed.symm.trans ho.1
  have hinv := @Inv.turn b h true [] (fun k hk => .inl (by rw [append_nil]; exact hlt k hk))
    (fun k hk ho => absurd (hlt k hk) (by rw [ho.2, append_nil]; exact Nat.lt_irrefl _))
    (by rw [append_nil]; exact h.due)
  rw [append_nil] at hinv
  exact hinv

theorem known_end (h : b.Known k) (armed : Bool) (outcome : Outcome) :
    ({ b with armed, outcomes := b.outcomes ++ [outcome] } : Books).Known k := by
  refine .inl ?_
  rw [length_append]
  exact Nat.lt_succ_of_le h.le

theorem not_open_end (h : b.Known k) (armed : Bool) (outcome : Outcome) :
    ¬({ b with armed, outcomes := b.outcomes ++ [outcome] } : Books).Open k := by
  rintro ⟨-, hk⟩
  have hle := h.le
  rw [length_append, length_singleton] at hk
  omega

theorem Inv.complete (h : b.Inv) : Inv { b with armed := false, outcomes := b.outcomes ++ [.completed] } := by
  refine h.turn (fun k hk => known_end hk _ _) (fun k hk => not_open_end hk _ _) ?_
  refine h.due.imp_right fun hp => hp.imp fun k hna ha => hna ?_
  exact (getElem?_concat_eq_some.1 ha).resolve_right fun he => nomatch he.1

theorem Inv.abandon (h : b.Inv) :
    Inv { b with armed := false, outcomes := b.outcomes ++ [.abandoned], loads := .expired :: b.loads } := by
  have hexpired : Inv { b with loads := .expired :: b.loads } :=
    h.load (fits_of_light ⟨rfl, rfl⟩ nofun nofun nofun nofun) fun _ _ => apart_of_light ⟨rfl, rfl⟩ nofun nofun
  exact hexpired.turn (fun k hk => known_end hk _ _) (fun k hk => not_open_end hk _ _) (.inl mem_cons_self)

theorem Inv.supersede (h : b.Inv) (armed : Bool) (none_due : b.PendingOf b.Completed) :
    Inv { b with armed, outcomes := b.outcomes ++ [.abandoned] } := by
  refine h.turn (fun k hk => known_end hk _ _) (fun k hk => not_open_end hk _ _) (.inr (none_due.imp fun k hk ha => ?_))
  rw [List.getElem?_append_left hk.lt] at ha
  cases ha.symm.trans hk

/-! ## Clearing what is pending -/

theorem Fits.cleared (h : b.Fits l) (hover : b.update ≠ none → ¬b.Open b.updateContext) : b.cleared.Fits l where
  held hx := ⟨(h.held hx).1, (h.held hx).2.1, hx.symm⟩
  command := h.command
  adding := h.adding
  taken k r hu := ⟨(h.taken k r hu).1, (h.taken k r hu).2.1, fun h0 => absurd rfl h0⟩
  pending := nofun
  updating k r he ho := by
    obtain ⟨-, hown, hfound⟩ := h.updating k r he ho
    refine ⟨.inl rfl, fun hu => absurd rfl hu, fun _ => hfound ?_⟩
    by_contra hu
    exact hover hu (hown hu ▸ ho)
  writing k idx he ho := by
    obtain ⟨r, hr, hk, -⟩ := h.writing k idx he ho
    exact absurd (hk ▸ ho) (hover (by rw [hr]; exact nofun))

theorem Inv.clear (h : b.Inv) (none_due : b.PendingOf b.Completed) : b.cleared.Inv where
  __ := h
  covered idx hidx := by
    obtain hc | ⟨h0, rfl⟩ | hl := h.covered idx hidx
    · exact .inl hc
    · exact .inl (none_due.1.resolve_left h0)
    · exact .inr (.inr hl)
  pending h0 := absurd rfl h0
  fits l hl := (h.fits l hl).cleared fun hu ho => ho.not_completed (none_due.2.resolve_left hu)
  due := .inr ⟨.inl rfl, .inl rfl⟩
  update := nofun
  replaced e he := by
    obtain hc | ⟨hu, hk⟩ | hl := h.replaced e he
    · exact .inl hc
    · exact .inl (hk ▸ none_due.2.resolve_left hu)
    · exact .inr (.inr hl)

theorem mem_loads (h : loads = l :: rest) :
    l ∈ loads ∧ (∀ l', l' ∈ rest → l' ∈ loads) ∧ (∀ l', l' ∈ loads → l' = l ∨ l' ∈ rest) ∧
      ∀ p : Load → Prop, (∃ l' ∈ loads, p l') → p l ∨ ∃ l' ∈ rest, p l' := by
  subst h
  exact ⟨mem_cons_self, fun _ => mem_cons_of_mem _, fun _ => mem_cons.1, fun _ => or_exists_of_exists_mem_cons⟩

theorem Inv.take (h : b.Inv) (hl : b.loads = .expired :: rest) (due : b.PendingOf b.Abandoned) :
    Inv { b.cleared with loads := .reverts (b.update.map fun r => (b.updateContext, r)) b.install :: rest } := by
  obtain ⟨-, hm, -, hcons⟩ := mem_loads hl
  -- the update that was pending is that of an abandoned context
  have hupdate : ∀ r ∈ b.update, b.Abandoned b.updateContext ∧ b.Reverts b.updateContext r := by
    intro r hr
    have ha : b.Abandoned b.updateContext := due.2.resolve_left (by rw [hr]; exact nofun)
    exact ⟨ha, h.update r hr ha.not_completed⟩
  have htaken : ∀ p ∈ b.update.map fun r => (b.updateContext, r), p.1 = b.updateContext ∧ p.2 ∈ b.update := by
    intro p hp
    obtain ⟨r, hr, rfl⟩ := mem_map.1 hp
    exact ⟨rfl, hr⟩
  exact {
    h with
    covered idx hidx := by
      obtain hc | hi | hl := h.covered idx hidx
      · exact .inl hc
      · exact .inr (.inr ⟨_, mem_cons_self, hi⟩)
      · exact .inr (.inr (exists_mem_cons_of_exists ((hcons _ hl).resolve_left id)))
    pending h0 := absurd rfl h0
    fits l hl' := by
      obtain rfl | hl' := mem_cons.1 hl'
      · refine ⟨fun hx => ⟨h.pending hx, due.1.resolve_left hx, Ne.symm hx⟩, nofun, nofun, ?_, nofun, nofun, nofun⟩
        intro k r hu
        obtain ⟨rfl, hr⟩ := htaken _ hu
        exact ⟨(hupdate r hr).1, (hupdate r hr).2, fun h0 => absurd rfl h0⟩
      · have hover : b.update ≠ none → ¬b.Open b.updateContext := fun hu ho => ho.not_abandoned (due.2.resolve_left hu)
        exact ((h.fits l (hm l hl')).cleared hover).beside _
    apart := by
      refine pairwise_cons.2 ⟨?_, (pairwise_cons.1 (hl ▸ h.apart)).2⟩
      intro l hl'
      have hfits := h.fits l (hm l hl')
      have hpending := fun r hr => hfits.pending r hr (hupdate r hr).1.not_completed
      refine ⟨?_, ?_, fun p hp => (hpending p.2 (htaken p hp).2).2, fun p hp => (hfits.taken p.1 p.2 hp).2.2, nofun, nofun,
        ?_⟩
      · intro hx he
        exact (hfits.held (he ▸ hx)).2.2 he
      · cases hu : b.update with
        | none => exact .inl rfl
        | some r => exact .inr (hpending r hu).1
      · rintro k r rfl ho
        -- the command's context is in force, so that nothing of it was due
        obtain ⟨hinstall, hown, -⟩ := hfits.updating k r rfl ho
        have hnone : b.update = none := by
          by_contra hu
          exact ho.not_abandoned (hown hu ▸ due.2.resolve_left hu)
        refine ⟨?_, by simp [Load.update, hnone]⟩
        by_contra h0
        exact hinstall.resolve_left h0 (due.1.resolve_left h0)
    due := .inr ⟨.inl rfl, .inl rfl⟩
    update := nofun
    replaced e he := by
      obtain hc | ⟨hu, hk⟩ | hs | hl := h.replaced e he
      · exact .inl hc
      · obtain ⟨r, hr⟩ := ne_none_iff_exists'.1 hu
        refine .inr (.inr (.inr ⟨_, mem_cons_self, r, ?_⟩))
        rw [← hk]
        simp [Load.update, hr]
      · exact .inr (.inr (.inl hs))
      · exact .inr (.inr (.inr (exists_mem_cons_of_exists ((hcons _ hl).resolve_left nofun)))) }

/-! ## Reverting -/

theorem has_put {store : Store} {i : FabricIndex} (h : store idx = some row) :
    (store.put idx (some row') i).isSome = (store i).isSome := by
  simp only [Store.put]
  split_ifs with hi
  · rw [hi, h]
    rfl
  · rfl

theorem revertUpdateNOC_of_some {store : Store} (h : store r.fabricIndex = some row) :
    revertUpdateNOC store r =
      store.put r.fabricIndex (some { row with identity := some r.identity, nodeID := r.nodeID }) := by
  funext i
  simp only [revertUpdateNOC, Store.upsertIdentity, h, map_some, Store.put]
  split <;> rfl

section

variable (h : b.Inv)
include h

/-- A fabric gets another identity. None is being added to it, no call is about to
revert it or has read it, and if its revert is pending, then an identity of it was
replaced. -/
theorem Inv.put (hrow : b.store idx = some row)
    (hadd : ∀ k rec, .adding k idx rec ∈ b.loads → ¬b.Open k)
    (hupdate : ∀ r ∈ b.update, ¬b.Completed b.updateContext → r.fabricIndex = idx →
      (∃ cur, row'.identity = some cur) ∧ ∃ e ∈ b.replaced, e.context = b.updateContext)
    (htaken : ∀ l ∈ b.loads, ∀ k r, l.update = some (k, r) → r.fabricIndex ≠ idx)
    (hupdating : ∀ k r, .updating k r ∈ b.loads → b.Open k → b.update = none → r.fabricIndex ≠ idx) :
    Inv { b with store := b.store.put idx (some row') } := by
  have hhas : ∀ i, ({ b with store := b.store.put idx (some row') } : Books).Has i ↔ b.Has i := fun i => by
    simp only [Has, has_put hrow]
  have hother : ∀ i, i ≠ idx → b.store.put idx (some row') i = b.store i := fun i hi => if_neg hi
  have hreverts : ∀ k r, r.fabricIndex ≠ idx → b.Reverts k r →
      ({ b with store := b.store.put idx (some row') } : Books).Reverts k r := fun _ _ hne hr => hr.of_eq (hother _ hne)
  exact {
    h with
    numbered i hi := h.numbered i ((hhas i).1 hi)
    distinct i j hi hj := h.distinct i j ((hhas i).1 hi) ((hhas j).1 hj)
    present i hi := h.present i ((hhas i).1 hi)
    accounted m k hm := (h.accounted m k hm).imp id (Or.imp id fun ⟨i, hi, he⟩ => ⟨i, (hhas i).2 hi, he⟩)
    covered i hi := h.covered i ((hhas i).1 hi)
    pending h0 := (hhas _).2 (h.pending h0)
    fits l hl := {
      h.fits l hl with
      held hx := ⟨(hhas _).2 ((h.fits l hl).held hx).1, ((h.fits l hl).held hx).2⟩
      adding k i rec he ho := by
        have hne : i ≠ idx := by
          rintro rfl
          exact hadd k rec (he ▸ hl) ho
        simp only [hother i hne]
        exact (h.fits l hl).adding k i rec he ho
      taken k r hu := by
        obtain ⟨ha, hrev, hd⟩ := (h.fits l hl).taken k r hu
        exact ⟨ha, hreverts k r (htaken l hl k r hu) hrev, hd⟩
      updating k r he ho := by
        obtain ⟨hinstall, hown, hfound⟩ := (h.fits l hl).updating k r he ho
        refine ⟨hinstall, hown, fun hn => ?_⟩
        simp only [hother _ (hupdating k r (he ▸ hl) ho hn)]
        exact hfound hn }
    update r hr hc := by
      have hrev := h.update r hr hc
      by_cases hidx : r.fabricIndex = idx
      · obtain ⟨⟨cur, hcur⟩, e, he, hk⟩ := hupdate r hr hc hidx
        exact ⟨⟨row', cur, if_pos hidx, hcur, fun hno => absurd hk (hno e he)⟩, hrev.replaced, hrev.unrestored⟩
      · exact hreverts _ r hidx hrev }

/-- The fabric whose identity is to be put back is not one that `AddNOC` is still
adding: that one has no identity yet. -/
theorem Inv.not_adding (hr : b.Reverts k r) (k' : Nat) (rec : Bool)
    (hl : .adding k' r.fabricIndex rec ∈ b.loads) : ¬b.Open k' := by
  intro ho
  obtain ⟨row, cur, hrow, hcur, -⟩ := hr.found
  obtain ⟨-, -, row', hrow', hnone⟩ := (h.fits _ hl).adding k' _ rec rfl ho
  obtain rfl := some.inj (hrow.symm.trans hrow')
  cases hcur.symm.trans hnone

theorem Inv.restore (hl : b.loads = .reverts (some (k, r)) x :: rest) :
    Inv { b with
      store := revertUpdateNOC b.store r
      restored := b.restored ++ [{ context := k, install := b.installOf r.fabricIndex, identity := r.identity }]
      loads := .reverts none x :: rest } := by
  obtain ⟨hmem, hm, hcons, hsplit⟩ := mem_loads hl
  obtain ⟨ha, hr, -⟩ := (h.fits _ hmem).taken k r rfl
  obtain ⟨row, cur, hrow, hcur, -⟩ := hr.found
  -- no other call has an update to revert, and none is pending that still counts
  have hapart : ∀ l ∈ rest, Apart b.Open (.reverts (some (k, r)) x) l := (pairwise_cons.1 (hl ▸ h.apart)).1
  have hrest : ∀ l ∈ rest, l.update = none := fun l hl' => (hapart l hl').update.resolve_left nofun
  have hcompleted : ∀ r' ∈ b.update, b.Completed b.updateContext := by
    intro r' hr'
    by_contra hc
    cases ((h.fits _ hmem).pending r' hr' hc).1
  rw [revertUpdateNOC_of_some hrow]
  have hrestored : Inv { b with
      restored := b.restored ++ [{ context := k, install := b.installOf r.fabricIndex, identity := r.identity }]
      loads := .reverts none x :: rest } := {
    h with
    covered idx hidx := by
      refine (h.covered idx hidx).imp_right (.imp_right fun hl => (exists_mem_cons_iff _ _ _).2 ?_)
      exact hsplit (·.Answers idx) hl
    fits l hl' := by
      obtain rfl | hl' := mem_cons.1 hl'
      · refine ⟨(h.fits _ hmem).held, nofun, nofun, nofun, ?_, nofun, nofun⟩
        intro r' hr' hc
        exact absurd (hcompleted r' hr') hc
      · exact { h.fits l (hm l hl') with taken k' r' hu := nomatch (hrest l hl').symm.trans hu }
    apart := by
      refine pairwise_cons.2 ⟨?_, (pairwise_cons.1 (hl ▸ h.apart)).2⟩
      intro l hl'
      refine ⟨(hapart l hl').install, .inl rfl, nofun, (hapart l hl').fabric', nofun, nofun, ?_⟩
      intro k' r' he ho
      cases ((hapart l hl').calm' k' r' he ho).2
    due := h.due.imp_left fun he => mem_cons_of_mem _ ((hcons _ he).resolve_left nofun)
    update r' hr' hc := absurd (hcompleted r' hr') hc
    replaced e he := by
      refine (h.replaced e he).imp_right (.imp_right fun hl => .inl (mem_append.2 ?_))
      obtain hs | hl := hl
      · exact .inl hs
      obtain ⟨r', hr'⟩ | ⟨l, hl, r', hr'⟩ := hsplit _ hl
      · obtain ⟨hk, -⟩ := Prod.mk.inj (some.inj hr')
        exact .inr (mem_singleton.2 (hr.replaced e he hk.symm))
      · cases (hrest l hl).symm.trans hr'
    restored e he := by
      obtain he | he := mem_append.1 he
      · exact h.restored e he
      · rw [mem_singleton.1 he]
        exact ha
    restored_once := by
      rw [map_append, nodup_append]
      refine ⟨h.restored_once, nodup_singleton _, ?_⟩
      intro k1 hk1 k2 hk2 he
      obtain ⟨e, he', rfl⟩ := mem_map.1 hk1
      rw [map_singleton, mem_singleton] at hk2
      exact hr.unrestored e he' (he.trans hk2) }
  refine hrestored.put hrow ?_ ?_ ?_ ?_
  · intro k' rec hl'
    obtain hl' | hl' := mem_cons.1 hl'
    · cases hl'
    · exact h.not_adding hr k' rec (hm _ hl')
  · intro r' hr' hc
    exact absurd (hcompleted r' hr') hc
  · intro l hl' k' r' hu
    obtain rfl | hl' := mem_cons.1 hl'
    · cases hu
    · cases (hrest l hl').symm.trans hu
  · intro k' r' hl' ho
    obtain hl' | hl' := mem_cons.1 hl'
    · cases hl'
    · cases (h.calm (hm _ hl') ho _ hmem).2

theorem Inv.remove (hl : b.loads = .reverts none x :: rest) (some_left : x ≠ 0) :
    Inv { b with store := revertAddNOC b.store x, removed := b.removed ++ [b.installOf x], loads := rest } := by
  obtain ⟨hmem, hm, hcons, hsplit⟩ := mem_loads hl
  have hapart : ∀ l ∈ rest, Apart b.Open (.reverts none x) l := (pairwise_cons.1 (hl ▸ h.apart)).1
  obtain ⟨hx, ha, hi⟩ : b.Has x ∧ b.Abandoned (b.contextOf x) ∧ b.install ≠ x := (h.fits _ hmem).held some_left
  have hother : ∀ i, i ≠ x → revertAddNOC b.store x i = b.store i := fun i hi => if_neg hi
  have hhas : ∀ i, (revertAddNOC b.store x i).isSome = true ↔ i ≠ x ∧ b.Has i := by
    intro i
    by_cases hi : i = x
    · simp [revertAddNOC, Store.put, hi]
    · simp [hother i hi, hi, Has]
  have hreverts : ∀ k r, x ≠ r.fabricIndex → b.Reverts k r →
      RevertsIn (revertAddNOC b.store x) b.installOf b.replaced b.restored k r := fun _ _ hne hr =>
    hr.of_eq (hother _ hne.symm)
  exact {
    h with
    numbered i hi := h.numbered i ((hhas i).1 hi).2
    distinct i j hi hj := h.distinct i j ((hhas i).1 hi).2 ((hhas j).1 hj).2
    present i hi := by
      intro hr
      obtain hr | hr := mem_append.1 hr
      · exact h.present i ((hhas i).1 hi).2 hr
      · exact ((hhas i).1 hi).1 (h.distinct i x ((hhas i).1 hi).2 hx (mem_singleton.1 hr))
    accounted m k hk := by
      obtain hc | hr | ⟨i, hi, he⟩ := h.accounted m k hk
      · exact .inl hc
      · exact .inr (.inl (mem_append_left _ hr))
      by_cases hix : i = x
      · subst hix
        exact .inr (.inl (mem_append_right _ (he ▸ mem_singleton_self _)))
      · exact .inr (.inr ⟨i, (hhas i).2 ⟨hix, hi⟩, he⟩)
    removed_lt m hm := by
      obtain hm | hm := mem_append.1 hm
      · exact h.removed_lt m hm
      · exact mem_singleton.1 hm ▸ h.numbered x hx
    removed_once := by
      refine nodup_append.2 ⟨h.removed_once, nodup_singleton _, ?_⟩
      intro m hm m' hm' he
      rw [mem_singleton.1 hm'] at he
      exact h.present x hx (he ▸ hm)
    removed_abandoned m hm k hk := by
      obtain hm | hm := mem_append.1 hm
      · exact h.removed_abandoned m hm k hk
      · rw [mem_singleton.1 hm] at hk
        exact contextOf_eq hk ▸ ha
    covered i hi := by
      refine (h.covered i ((hhas i).1 hi).2).imp_right (.imp_right fun hl => (hsplit _ hl).resolve_left ?_)
      exact fun ha => ((hhas i).1 hi).1 ha.2.symm
    pending h0 := (hhas _).2 ⟨hi, h.pending h0⟩
    fits l hl' := {
      h.fits l (hm l hl') with
      held hlx := by
        obtain ⟨hi, ha, hd⟩ := (h.fits l (hm l hl')).held hlx
        exact ⟨(hhas _).2 ⟨((hapart l hl').install some_left).symm, hi⟩, ha, hd⟩
      adding k i rec he ho := by
        obtain ⟨h0, hk, hrow⟩ := (h.fits l (hm l hl')).adding k i rec he ho
        have hne : i ≠ x := by
          rintro rfl
          exact ho.not_abandoned (hk ▸ ha)
        simp only [hother i hne]
        exact ⟨h0, hk, hrow⟩
      taken k r hu := by
        obtain ⟨hk, hrev, hd⟩ := (h.fits l (hm l hl')).taken k r hu
        exact ⟨hk, hreverts k r ((hapart l hl').fabric' (k, r) hu some_left) hrev, hd⟩
      updating k r he ho := absurd ((hapart l hl').calm' k r he ho).1 some_left }
    apart := (pairwise_cons.1 (hl ▸ h.apart)).2
    due := h.due.imp_left fun he => (hcons _ he).resolve_left nofun
    update r hr hc := hreverts _ r (((h.fits _ hmem).pending r hr hc).2 some_left) (h.update r hr hc)
    replaced e he :=
      (h.replaced e he).imp_right (.imp_right (.imp_right fun hl => (hsplit _ hl).resolve_left nofun)) }

/-! ## `AddNOC` -/

theorem Inv.add (opened : b.Open k) (pos : idx ≠ 0) (free : b.store idx = none)
    (plain : row.identity = none) :
    Inv { b with
      store := b.store.put idx (some row)
      installs := b.installs ++ [k]
      installOf i := if i = idx then b.installs.length else b.installOf i
      loads := .adding k idx false :: b.loads } := by
  -- of the fabrics that were there, nothing changes
  have hne : ∀ i, b.Has i → i ≠ idx := by
    rintro i hi rfl
    rw [Has, free] at hi
    cases hi
  have hother : ∀ i, i ≠ idx → b.store.put idx (some row) i = b.store i := fun i hi => if_neg hi
  have hhas : ∀ i, (b.store.put idx (some row) i).isSome = true → i = idx ∨ b.Has i := by
    intro i hi
    by_cases hidx : i = idx
    · exact .inl hidx
    · rw [hother i hidx] at hi
      exact .inr hi
  have hhas' : ∀ i, b.Has i → (b.store.put idx (some row) i).isSome = true := by
    intro i hi
    rw [hother i (hne i hi)]
    exact hi
  have hcontext : ∀ i, b.Has i → (b.installs ++ [k]).getD (if i = idx then b.installs.length else b.installOf i) 0 =
      b.contextOf i := by
    intro i hi
    rw [if_neg (hne i hi), contextOf, getD_eq_getElem?_getD, List.getElem?_append_left (h.numbered i hi),
      getD_eq_getElem?_getD]
  have hcontext' : (b.installs ++ [k]).getD (if idx = idx then b.installs.length else b.installOf idx) 0 = k := by
    rw [if_pos rfl, getD_eq_getElem?_getD, List.getElem?_concat_length, getD_some]
  have hreverts : ∀ k' r, b.Reverts k' r → RevertsIn (b.store.put idx (some row))
      (fun i => if i = idx then b.installs.length else b.installOf i) b.replaced b.restored k' r := by
    intro k' r hr
    obtain ⟨row', cur, hrow, hcur, hno⟩ := hr.found
    have hr' : r.fabricIndex ≠ idx := hne _ (by rw [Has, hrow]; rfl)
    refine ⟨⟨row', cur, (hother _ hr').trans hrow, hcur, hno⟩, ?_, hr.unrestored⟩
    simp only [if_neg hr']
    exact hr.replaced
  exact {
    h with
    known k' hk' := by
      obtain hk' | hk' := mem_append.1 hk'
      · exact h.known k' hk'
      · exact .inr (mem_singleton.1 hk' ▸ opened)
    numbered i hi := by
      rw [length_append]
      obtain rfl | hi := hhas i hi
      · simp
      · simp only [if_neg (hne i hi)]
        exact Nat.lt_succ_of_lt (h.numbered i hi)
    distinct i j hi hj he := by
      obtain hi | hi := hhas i hi
      · obtain hj | hj := hhas j hj
        · exact hi.trans hj.symm
        · simp only [if_pos hi, if_neg (hne j hj)] at he
          exact absurd (h.numbered j hj) (by rw [he]; exact Nat.lt_irrefl _)
      · obtain hj | hj := hhas j hj
        · simp only [if_pos hj, if_neg (hne i hi)] at he
          exact absurd (h.numbered i hi) (by rw [he]; exact Nat.lt_irrefl _)
        · simp only [if_neg (hne i hi), if_neg (hne j hj)] at he
          exact h.distinct i j hi hj he
    present i hi := by
      obtain rfl | hi := hhas i hi
      · simp only [if_true]
        intro hr
        exact absurd (h.removed_lt _ hr) (Nat.lt_irrefl _)
      · simp only [if_neg (hne i hi)]
        exact h.present i hi
    accounted m k' hm := by
      obtain hm | ⟨-, rfl⟩ := getElem?_concat_eq_some.1 hm
      · obtain hc | hr | ⟨i, hi, he⟩ := h.accounted m k' hm
        · exact .inl hc
        · exact .inr (.inl hr)
        · exact .inr (.inr ⟨i, hhas' i hi, by simp only [if_neg (hne i hi), he]⟩)
      · exact .inr (.inr ⟨idx, by simp only [Has, Store.put, if_true, isSome_some], by simp⟩)
    removed_lt m hm := by
      rw [length_append]
      exact Nat.lt_add_right _ (h.removed_lt m hm)
    removed_abandoned m hm k' hk' := by
      rw [List.getElem?_append_left (h.removed_lt m hm)] at hk'
      exact h.removed_abandoned m hm k' hk'
    covered i hi := by
      obtain rfl | hi := hhas i hi
      · exact .inr (.inr ⟨_, mem_cons_self, rfl, rfl⟩)
      rw [contextOf, hcontext i hi]
      exact (h.covered i hi).imp_right (.imp_right (exists_mem_cons_of_exists))
    pending h0 := hhas' _ (h.pending h0)
    fits l hl := by
      obtain rfl | hl := mem_cons.1 hl
      · refine fits_of_light ⟨rfl, rfl⟩ ?_ ?_ nofun nofun
        · intro k' hk'
          exact .inr (some.inj hk' ▸ opened)
        · intro k' i rec he _
          cases he
          exact ⟨pos, hcontext', row, if_pos rfl, plain⟩
      have hfits := h.fits l hl
      exact {
        hfits with
        held hx := by
          obtain ⟨hi, ha, hd⟩ := hfits.held hx
          exact ⟨hhas' _ hi, by rw [contextOf, hcontext _ hi]; exact ha, hd⟩
        adding k' i rec he ho := by
          obtain ⟨h0, hk, row', hrow, hnone⟩ := hfits.adding k' i rec he ho
          have hi : b.Has i := by rw [Has, hrow]; rfl
          exact ⟨h0, by rw [contextOf, hcontext i hi]; exact hk, row', (hother i (hne i hi)).trans hrow, hnone⟩
        taken k' r hu := by
          obtain ⟨ha, hrev, hd⟩ := hfits.taken k' r hu
          exact ⟨ha, hreverts k' r hrev, hd⟩
        updating k' r he ho := by
          obtain ⟨hinstall, hown, hfound⟩ := hfits.updating k' r he ho
          refine ⟨?_, hown, ?_⟩
          · by_cases h0 : b.install = 0
            · exact .inl h0
            · rw [contextOf, hcontext _ (h.pending h0)]
              exact hinstall
          · intro hn
            obtain ⟨row', hrow, hid⟩ := hfound hn
            exact ⟨row', (hother _ (hne _ (by rw [Has, hrow]; rfl))).trans hrow, hid⟩ }
    apart := by
      refine pairwise_cons.2 ⟨fun l hl => apart_of_light ⟨rfl, rfl⟩ ?_ nofun, h.apart⟩
      intro k' i rec rec' he he' ho
      obtain ⟨-, -, row', hrow, -⟩ := (h.fits l hl).adding k' i rec' he' ho
      cases he
      cases free.symm.trans hrow
    due := by
      refine h.due.imp (mem_cons_of_mem _) fun hp => ⟨or_iff_not_imp_left.2 fun h0 => ?_, hp.2⟩
      rw [contextOf, hcontext _ (h.pending h0)]
      exact hp.1.resolve_left h0
    update r hr hc := hreverts _ r (h.update r hr hc)
    replaced e he := (h.replaced e he).imp_right (.imp_right (.imp_right (exists_mem_cons_of_exists))) }

theorem Inv.adding_alone {rec : Bool} (hl : b.loads = .adding k idx rec :: rest) (opened : b.Open k)
    (rec' : Bool) : .adding k idx rec' ∉ rest := by
  have hhead : ∀ l ∈ rest, Apart b.Open (.adding k idx rec) l := (pairwise_cons.1 (hl ▸ h.apart)).1
  intro hmem
  exact (hhead _ hmem).adding k idx rec rec' rfl rfl opened

theorem Inv.record (hl : b.loads = .adding k idx false :: rest) (opened : b.Open k)
    (none_due : b.install = 0 ∨ b.Completed (b.contextOf b.install)) :
    Inv { b with install := idx, loads := .adding k idx true :: rest } := by
  obtain ⟨hmem, hm, -⟩ := mem_loads hl
  obtain ⟨h0, hk, row, hrow, hnone⟩ := (h.fits _ hmem).adding k idx false rfl opened
  have hna : ¬b.Abandoned (b.contextOf idx) := hk ▸ opened.not_abandoned
  have hrecorded : Inv { b with install := idx } := {
    h with
    covered i hi := by
      obtain hc | ⟨hi0, rfl⟩ | hx := h.covered i hi
      · exact .inl hc
      · exact .inl (none_due.resolve_left hi0)
      · exact .inr (.inr hx)
    pending _ := by rw [Has, hrow]; rfl
    fits l hl' := {
      h.fits l hl' with
      held hx := by
        obtain ⟨hi, ha, -⟩ := (h.fits l hl').held hx
        refine ⟨hi, ha, ?_⟩
        intro he
        rw [← he] at ha
        exact hna ha
      taken k' r hu := by
        obtain ⟨ha, hrev, -⟩ := (h.fits l hl').taken k' r hu
        refine ⟨ha, hrev, ?_⟩
        rintro - rfl
        exact h.not_adding hrev k false hmem opened
      updating k' r he ho := ⟨.inr hna, ((h.fits l hl').updating k' r he ho).2⟩ }
    due := h.due.imp_right fun hp => ⟨.inr hna, hp.2⟩ }
  have hdone : Inv { b with install := idx, loads := rest } :=
    hrecorded.unload hl ⟨rfl, nofun, fun i ha => ⟨ha.2 ▸ h0, ha.2⟩⟩
  refine hdone.load (fits_of_light ⟨rfl, rfl⟩ ?_ ?_ nofun nofun) fun l hl' => apart_of_light ⟨rfl, rfl⟩ ?_ nofun
  · intro k' hk'
    exact .inr (some.inj hk' ▸ opened)
  · intro k' idx' rec he _
    cases he
    exact ⟨h0, hk, row, hrow, hnone⟩
  · intro k' idx' rec rec' he he' _
    cases he
    exact h.adding_alone hl opened rec' (he' ▸ hl')

theorem Inv.identify (hl : b.loads = .adding k idx true :: rest) (opened : b.Open k) :
    Inv { b with store := b.store.put idx (some row'), loads := rest } := by
  obtain ⟨hmem, hm, -⟩ := mem_loads hl
  obtain ⟨h0, hk, row, hrow, hnone⟩ := (h.fits _ hmem).adding k idx true rfl opened
  have hreverts : ∀ k' r, b.Reverts k' r → r.fabricIndex ≠ idx := by
    rintro k' r hr rfl
    exact h.not_adding hr k true hmem opened
  have hdone : Inv { b with loads := rest } := h.unload hl ⟨rfl, nofun, fun _ ha => nomatch ha.1⟩
  refine hdone.put hrow ?_ ?_ ?_ ?_
  · intro k' rec hl' ho
    rw [ho.2, ← opened.2] at hl'
    exact h.adding_alone hl opened rec hl'
  · intro r hr hc he
    exact absurd he (hreverts _ r (h.update r hr hc))
  · intro l hl' k' r hu
    exact hreverts k' r ((h.fits l (hm l hl')).taken k' r hu).2.1
  rintro k' r hl' ho hn rfl
  obtain ⟨row', hrow', hid⟩ := ((h.fits _ (hm _ hl')).updating k' r rfl ho).2.2 hn
  obtain rfl := some.inj (hrow.symm.trans hrow')
  cases hnone.symm.trans hid

/-! ## `UpdateNOC` -/

theorem Inv.read (opened : b.Open k) (own : b.UpdateOf k r.fabricIndex)
    (calm : ∀ l ∈ b.loads, l.Light)
    (kept : b.install = 0 ∨ ¬b.Abandoned (b.contextOf b.install)) (found : b.store r.fabricIndex = some row)
    (identity : row.identity = some r.identity) : Inv { b with loads := .updating k r :: b.loads } := by
  refine h.load (fits_of_light ⟨rfl, rfl⟩ ?_ nofun ?_ nofun) fun l hl =>
    apart_of_light ⟨rfl, rfl⟩ nofun fun _ _ _ _ => calm l hl
  · intro k' hk'
    exact .inr (some.inj hk' ▸ opened)
  intro k' r' he _
  cases he
  refine ⟨kept, ?_, fun _ => ⟨row, found, identity⟩⟩
  intro hu
  obtain ⟨r', hr'⟩ := ne_none_iff_exists'.1 hu
  exact (own r' hr').1

/-- `UpdateNOC` goes on to write, with the old identity recorded. -/
theorem Inv.toWrite {r' : NocUpdateRevert} (hl : b.loads = .updating k r :: rest) (opened : b.Open k)
    (recorded : b.update = some r') (own : b.UpdateOf k r.fabricIndex) :
    Inv { b with loads := .writing k r.fabricIndex :: rest } := by
  have hdone : Inv { b with loads := rest } := h.unload hl ⟨rfl, nofun, nofun⟩
  refine hdone.load (fits_of_light ⟨rfl, rfl⟩ ?_ nofun nofun ?_) fun _ _ => apart_of_light ⟨rfl, rfl⟩ nofun nofun
  · intro k' hk'
    exact .inr (some.inj hk' ▸ opened)
  · intro k' idx he _
    cases he
    exact ⟨r', recorded, own r' recorded⟩

theorem Inv.remember (hl : b.loads = .updating k r :: rest) (opened : b.Open k)
    (unrecorded : b.update = none) :
    Inv { b with update := some r, updateContext := k, loads := .writing k r.fabricIndex :: rest } := by
  obtain ⟨hmem, -, -⟩ := mem_loads hl
  have hcalm := h.calm hmem opened
  obtain ⟨hinstall, -, hfound⟩ := (h.fits _ hmem).updating k r rfl opened
  obtain ⟨row, hrow, hid⟩ := hfound unrecorded
  have hunrestored : ∀ e ∈ b.restored, e.context ≠ k := fun e he hk => opened.not_abandoned (hk ▸ h.restored e he)
  -- nothing has been replaced in this context: it would be pending
  have hunreplaced : ∀ e ∈ b.replaced, e.context ≠ k := by
    intro e he hk
    obtain hc | ⟨hu, -⟩ | hs | ⟨l, hl', r', hr'⟩ := h.replaced e he
    · exact opened.not_completed (hk ▸ hc)
    · exact hu unrecorded
    · exact hunrestored e hs hk
    · cases (hcalm l hl').2.symm.trans hr'
  have hrecorded : Inv { b with update := some r, updateContext := k } := {
    h with
    due := h.due.imp_right fun hp => ⟨hp.1, .inr opened.not_abandoned⟩
    fits l hl' := {
      h.fits l hl' with
      pending _ _ _ := ⟨(hcalm l hl').2, fun hx => absurd (hcalm l hl').1 hx⟩
      updating k' r' he ho :=
        ⟨((h.fits l hl').updating k' r' he ho).1, fun _ => opened.2.trans ho.2.symm, nofun⟩
      writing k' idx he ho := by
        obtain ⟨r', hr', -⟩ := (h.fits l hl').writing k' idx he ho
        cases unrecorded.symm.trans hr' }
    update r' hr' _ := by
      cases hr'
      refine ⟨⟨row, r.identity, hrow, hid, fun _ => rfl⟩, ?_, hunrestored⟩
      intro e he hk
      exact absurd hk (hunreplaced e he)
    replaced e he := by
      obtain hc | ⟨hu, -⟩ | hl' := h.replaced e he
      · exact .inl hc
      · exact absurd unrecorded hu
      · exact .inr (.inr hl') }
  refine hrecorded.toWrite hl opened rfl ?_
  intro r' hr'
  cases hr'
  exact ⟨rfl, rfl⟩

end

/-- A write adds to the log of replaced identities the one that is to be put back,
unless it is there. -/
theorem Reverts.mem_replacing {old : IdentityRecord} (h : b.Reverts k r) (found : b.store r.fabricIndex = some row)
    (was : row.identity = some old) :
    (∃ e ∈ b.replacing k r.fabricIndex old, e.context = k) ∧ ∀ e ∈ b.replacing k r.fabricIndex old, e ∈ b.replaced ∨
      e = { context := k, install := b.installOf r.fabricIndex, identity := r.identity } := by
  unfold replacing
  split_ifs with hany
  · obtain ⟨e, he, hk⟩ := any_eq_true.1 hany
    rw [Bool.and_eq_true, beq_iff_eq] at hk
    exact ⟨⟨e, he, hk.1⟩, fun e' he' => .inl he'⟩
  · have hno : ∀ e ∈ b.replaced, e.context ≠ k := by
      intro e he hk
      refine hany (any_eq_true.2 ⟨e, he, ?_⟩)
      rw [h.replaced e he hk, Bool.and_eq_true, beq_iff_eq, beq_iff_eq]
      exact ⟨rfl, rfl⟩
    obtain ⟨row', cur, hrow, hcur, hid⟩ := h.found
    obtain rfl := some.inj (found.symm.trans hrow)
    obtain rfl := some.inj (was.symm.trans hcur)
    refine ⟨⟨_, mem_append_right _ (mem_singleton_self _), rfl⟩, ?_⟩
    intro e he
    rw [mem_append, mem_singleton, hid hno] at he
    exact he

theorem Inv.write (h : b.Inv) {old new : IdentityRecord} (hl : b.loads = .writing k idx :: rest) (opened : b.Open k)
    (found : b.store idx = some row) (was : row.identity = some old) (becomes : row'.identity = some new) :
    Inv { b with store := b.store.put idx (some row'), replaced := b.replacing k idx old, loads := rest } := by
  obtain ⟨hmem, hm, -⟩ := mem_loads hl
  obtain ⟨r, hr, rfl, rfl⟩ := (h.fits _ hmem).writing k idx rfl opened
  have hrev := h.update r hr opened.not_completed
  have hlight : ∀ l ∈ b.loads, l.update = none := fun l hl' =>
    ((h.fits l hl').pending r hr opened.not_completed).1
  obtain ⟨hsome, hreplaced⟩ := hrev.mem_replacing found was
  have hlogged : Inv { b with replaced := b.replacing b.updateContext r.fabricIndex old } := {
    h with
    fits l hl' := { h.fits l hl' with taken k' r' hu := nomatch (hlight l hl').symm.trans hu }
    update r' hr' _ := by
      obtain rfl := some.inj (hr.symm.trans hr')
      obtain ⟨row0, cur, hrow0, hcur, -⟩ := hrev.found
      refine ⟨⟨row0, cur, hrow0, hcur, ?_⟩, ?_, hrev.unrestored⟩
      · intro hno
        obtain ⟨e, he, hk⟩ := hsome
        exact absurd hk (hno e he)
      · intro e he hk
        obtain he | he := hreplaced e he
        · exact hrev.replaced e he hk
        · exact he
    replaced e he := by
      obtain he | rfl := hreplaced e he
      · exact h.replaced e he
      · exact .inr (.inl ⟨by rw [hr]; exact nofun, rfl⟩) }
  have hdone : Inv { b with replaced := b.replacing b.updateContext r.fabricIndex old, loads := rest } :=
    hlogged.unload hl ⟨rfl, nofun, nofun⟩
  refine hdone.put found ?_ ?_ ?_ ?_
  · intro k' rec hl'
    exact h.not_adding hrev k' rec (hm _ hl')
  · intro r' _ _ _
    exact ⟨⟨new, becomes⟩, hsome⟩
  · intro l hl' k' r' hu
    cases (hlight l (hm l hl')).symm.trans hu
  · intro k' r' _ _ hn
    cases hr.symm.trans hn

/-! ## All steps -/

theorem Inv.step (h : b.Inv) {b' : Books} (hstep : b.Step b') : b'.Inv := by
  cases hstep with
  | order perm => exact h.perm perm
  | begin closed => exact h.begin closed
  | complete opened => exact h.complete
  | abandon opened => exact h.abandon
  | supersede armed opened none_due => exact h.supersede armed none_due
  | clear none_due => exact h.clear none_due
  | take loads due => exact h.take loads due
  | restore loads => exact h.restore loads
  | remove loads some_left => exact h.remove loads some_left
  | nothing loads => exact h.unload loads ⟨rfl, nofun, fun _ ha => absurd ha.2.symm ha.1⟩
  | add opened pos free plain => exact h.add opened pos free plain
  | record loads opened none_due => exact h.record loads opened none_due
  | identify loads opened => exact h.identify loads opened
  | read opened own calm kept found identity => exact h.read opened own calm kept found identity
  | remember loads opened unrecorded => exact h.remember loads opened unrecorded
  | remembered loads opened recorded own => exact h.toWrite loads opened recorded own
  | write loads opened found was becomes => exact h.write loads opened found was becomes

theorem Inv.steps (h : b.Inv) {b' : Books} (hsteps : b.Steps b') : b'.Inv := by
  induction hsteps with
  | refl => exact h
  | tail _ hstep ih => exact ih.step hstep

end Books

end GF.Proof.Commissioning
