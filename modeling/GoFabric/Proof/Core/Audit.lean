import GoFabric.Proof.Core.AccessControl

/-!
# The events of an ACL write

Whoever keeps the list of a fabric and applies the events of each write to it, in
order, has the list that is stored: a change overwrites the next position, an addition
appends, and a removal takes the last entry, which is the one it carries.
-/

namespace GF.Proof.Core

open Impl.Core Spec.Isolation List
open Impl.Endpoints (ACLEntry)

variable {admin : Admin} {f : BitVec 8} {i : Nat} {l es : List AccessControlEntryStruct} {a a' : AccessControl}
  {entries : List AccessControlEntryStruct}

/-! ## Changes, additions, removals -/

theorem run_changed (done : List AccessControlEntryStruct) (h : es.length ≤ l.length) :
    audit.run (done.length, done ++ l) (es.map (.entryChanged admin .changed · f)) =
      some (done.length + es.length, done ++ es ++ l.drop es.length) := by
  induction es generalizing done l with
  | nil => simp [System.run]
  | cons e es ih =>
    cases l with
    | nil => cases h
    | cons x l =>
      have hstep : audit.step (done.length, done ++ x :: l) (.entryChanged admin .changed e f) =
          some ((done ++ [e]).length, done ++ [e] ++ l) := by simp [audit]
      rw [map_cons, System.run, hstep, Option.bind_some, ih _ (Nat.le_of_succ_le_succ h)]
      simp
      omega

theorem run_changed_start (h : es.length ≤ l.length) :
    audit.run (0, l) (es.map (.entryChanged admin .changed · f)) = some (es.length, es ++ l.drop es.length) := by
  simpa using run_changed [] h

theorem run_added : audit.run (i, l) (es.map (.entryChanged admin .added · f)) = some (i, l ++ es) := by
  induction es generalizing l with
  | nil => rw [append_nil]; rfl
  | cons e es ih =>
    show audit.run (i, l ++ [e]) (es.map _) = _
    rw [ih, append_assoc, singleton_append]

theorem run_removed : audit.run (i, l ++ es) (es.reverse.map (.entryChanged admin .removed · f)) = some (i, l) := by
  induction es using reverseRecOn with
  | nil => rw [append_nil]; rfl
  | append_singleton es e ih =>
    have hstep : audit.step (i, l ++ (es ++ [e])) (.entryChanged admin .removed e f) = some (i, l ++ es) := by
      simp [audit]
    rw [reverse_append, reverse_singleton, singleton_append, map_cons, System.run, hstep, Option.bind_some, ih]

/-! ## The events of a write -/

/-- The positions of the old list are changed, those past its end added. -/
theorem map_zipIdx_eq (new : List ACLEntry) (m k : Nat) :
    (new.zipIdx k).map (fun p =>
        Event.entryChanged admin (if m ≤ p.2 then .added else .changed) (aclEntryStruct p.1) f) =
      ((new.map aclEntryStruct).take (m - k)).map (.entryChanged admin .changed · f) ++
        ((new.map aclEntryStruct).drop (m - k)).map (.entryChanged admin .added · f) := by
  induction new generalizing k with
  | nil => simp
  | cons e new ih =>
    rw [zipIdx_cons, map_cons, ih]
    by_cases hk : m ≤ k
    · simp [hk, Nat.le_succ_of_le hk]
    · have hsucc : m - k = m - (k + 1) + 1 := by omega
      simp [hk, hsucc]

theorem replay_entryEvents (ctx : Context) (old new : List ACLEntry)
    (happend : ctx.listAppend = true → old.map aclEntryStruct <+: new.map aclEntryStruct) :
    ∃ i, audit.run (0, old.map aclEntryStruct) (entryEvents ctx f old new) = some (i, new.map aclEntryStruct) := by
  unfold entryEvents
  split
  · next heq => exact ⟨0, by rw [heq]; rfl⟩
  extract_lets first event
  have hremoved : (old.drop new.length).reverse.map (event .removed) =
      ((old.map aclEntryStruct).drop new.length).reverse.map (.entryChanged (aclAdminFromContext ctx) .removed · f) := by
    rw [← map_drop, ← map_reverse, map_map]
    rfl
  rw [hremoved, map_drop, map_zipIdx_eq, Nat.sub_zero]
  simp only [first, ← length_map aclEntryStruct]
  generalize old.map aclEntryStruct = o at happend
  generalize new.map aclEntryStruct = n at happend
  obtain hle | hlt := le_or_gt o.length n.length
  · rw [drop_eq_nil_of_le hle, reverse_nil, map_nil, append_nil]
    split
    · next h =>
      -- an append: only what it adds
      obtain ⟨t, rfl⟩ := happend h.1
      refine ⟨0, ?_⟩
      rw [drop_left' (by simp), run_added, drop_left]
    · refine ⟨(n.take o.length).length, ?_⟩
      rw [drop_zero, System.run_append_of (run_changed_start (length_take_le o.length n)), run_added]
      simp [hle]
  · refine ⟨n.length, ?_⟩
    rw [if_neg (fun h => absurd h.2 hlt.not_gt), drop_zero, take_of_length_le hlt.le, drop_eq_nil_of_le hlt.le,
      map_nil, append_nil, System.run_append_of (run_changed_start hlt.le), run_removed]

/-! ## The write -/

theorem run_bind_ok {α β : Type} {m : ClusterM α} {k : α → ClusterM β} {x : β}
    (h : (m >>= k).run.run a = (.ok x, a')) : ∃ y b, m.run.run a = (.ok y, b) ∧ (k y).run.run b = (.ok x, a') := by
  rw [ExceptT.run_bind, StateT.run_bind] at h
  cases hrun : m.run.run a with
  | mk r b =>
    rw [hrun] at h
    cases r with
    | error e => cases h
    | ok y => exact ⟨y, b, rfl, h⟩

theorem listed_replaceACL {s s' : Store} (h : s.replaceACL f (stampedEntries f entries) = .ok s') :
    (s'.acl f).map aclEntryStruct = (stampedEntries f entries).map aclEntryStruct := by
  unfold Store.replaceACL at h
  split at h
  · cases h
  split at h
  · cases h
  · cases h
    refine ext_getElem (by simp [Store.numbered]) fun i _ _ => ?_
    simp [Store.numbered, stampedEntries, aclEntryStruct]

/-- The list that a write leaves, and the events it emits. -/
theorem writeACL_ok {faults : Faults} {ctx : Context}
    (hf : writeFabric a ctx "ACL" ((entries.head?.map (·.fabricIndex)).getD 0) = .ok f)
    (hwrite : (writeACL faults ctx entries).run.run a = (.ok (), a')) :
    listed a' f = (stampedEntries f entries).map aclEntryStruct ∧
      a'.events = a.events ++ if a.emitter then
        entryEvents ctx f ((listACL faults a f).getD []) (stampedEntries f entries) else [] := by
  obtain ⟨_, _, hget, hwrite⟩ := run_bind_ok hwrite
  cases hget
  rw [hf] at hwrite
  obtain ⟨_, _, hfabric, hwrite⟩ := run_bind_ok hwrite
  cases hfabric
  obtain ⟨_, b, hcheck, hwrite⟩ := run_bind_ok hwrite
  have hb : b = a := (congrArg Prod.snd hcheck).symm
  subst hb
  obtain ⟨_, b', hreplace, hwrite⟩ := run_bind_ok hwrite
  cases hwrite
  obtain ⟨_, _, hget, hreplace⟩ := run_bind_ok hreplace
  cases hget
  split at hreplace
  · cases hreplace
  · next store hstore =>
    cases hreplace
    exact ⟨listed_replaceACL (ite_error_eq_ok.1 hstore).2, rfl⟩

/-- The events of a write that succeeds replay, of an append if it leaves the entries it
found in place; without an emitter there are none. -/
theorem acl_events_replay (backend : Backend) (faults : Faults) (ctx : Context) (f : BitVec 8)
    (entries : List AccessControlEntryStruct) (a a' : AccessControl)
    (hf : writeFabric a ctx "ACL" ((entries.head?.map (·.fabricIndex)).getD 0) = .ok f)
    (hreadable : listACL faults a f = some (a.store.acl f))
    (happend : ctx.listAppend = true → listed a f <+: listed a' f)
    (hwrite : (matterWrite backend faults ctx .acl (.acl entries)).run.run a = (.ok (), a')) :
    if a.emitter then Replays f a a' else a'.events = a.events := by
  obtain ⟨hlisted, hevents⟩ := writeACL_ok hf hwrite
  rw [hreadable, Option.getD_some] at hevents
  split <;> rename_i hemitter
  swap
  · rw [hevents, if_neg hemitter, append_nil]
  rw [if_pos hemitter] at hevents
  rw [Replays, hlisted]
  rw [hlisted] at happend
  obtain ⟨i, hrun⟩ := replay_entryEvents (f := f) ctx (a.store.acl f) (stampedEntries f entries) happend
  refine ⟨_, i, hevents, hrun, ?_, ?_⟩
  · intro hnone
    rw [hnone] at hrun
    exact congrArg Prod.snd (Option.some.inj hrun)
  · exact fun h => if_pos h

def exampleEntry (subject : BitVec 64) : AccessControlEntryStruct :=
  { privilege := 5, authMode := 2, subjects := [subject], fabricIndex := 2 }

def exampleAppend : Context := { fabricFilter := some (false, 2), listAppend := true }

/-- An append to the entry of fabric 2, which is reported as added. -/
theorem acl_events_replay_append :
    ∃ a', (matterWrite ⟨true, true⟩ {} exampleAppend .acl (.acl [exampleEntry 11, exampleEntry 12])).run.run
        { exampleCluster 11 with emitter := true } = (.ok (), a') ∧
      a'.events = [.entryChanged ⟨none, some 0⟩ .added (exampleEntry 12) 2] ∧
      Replays 2 { exampleCluster 11 with emitter := true } a' := by
  refine ⟨_, rfl, rfl, ?_⟩
  exact acl_events_replay ⟨true, true⟩ {} exampleAppend 2 [exampleEntry 11, exampleEntry 12]
    { exampleCluster 11 with emitter := true } _ rfl rfl (fun _ => ⟨[exampleEntry 12], rfl⟩) rfl

end GF.Proof.Core
