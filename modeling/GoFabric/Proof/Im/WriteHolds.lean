import GoFabric.Spec.WriteHolds

/-!
# What the holds of chunked writes exclude

The table and the attributes that the transactions hold are one relation (`Holds`), and an
attribute that a transaction has tested stays free of the others until it is held (`Owns.free`):
the test for BUSY says so, and nobody takes it meanwhile (`Undisturbed`).
-/

namespace GF.Proof.Im

open GF.Impl.Im GF.Spec.WriteHolds

/-! ## Critical sections -/

/-- A transaction holds what the table says that it holds. -/
structure Holds (i : Nat) (t : WriteState Unit) : Prop where
  id : t.tx.id = i
  usesHolds : t.tx.usesHolds = true
  table : ∀ k, k ∈ t.tx.held ↔ t.world.holds k = some i

/-- The table names the other transactions where it did. -/
def KeepsOthers (i : Nat) (t t' : WriteState Unit) : Prop :=
  ∀ j, j ≠ i → ∀ k, t'.world.holds k = some j ↔ t.world.holds k = some j

/-- No transaction but `i` holds the attribute. -/
def FreeFor (i : Nat) (holds : WriteHolds) (k : WriteHoldKey) : Prop := ∀ j, holds k = some j → j = i

variable {i : Nat} {t : WriteState Unit} {k : WriteHoldKey}

theorem Holds.freeFor_of_test (h : Holds i t) (htest : t.heldByOther k = false) : FreeFor i t.world.holds k := by
  intro j hj
  simpa [WriteState.heldByOther, h.usesHolds, hj, h.id] using htest

theorem Holds.hold (h : Holds i t) (more : Bool) (hfree : FreeFor i t.world.holds k) :
    Holds i (t.hold k more) ∧ KeepsOthers i t (t.hold k more) ∧
      (k ∈ (t.hold k more).tx.held ∨ more = false ∧ (t.hold k more).tx.held = []) := by
  unfold WriteState.hold
  rw [if_neg (by simp [h.usesHolds])]
  split
  · rename_i hnone
    exact ⟨h, fun _ _ _ => Iff.rfl, .inr (by simpa using hnone)⟩
  refine ⟨⟨h.id, h.usesHolds, fun k' => ?_⟩, fun j hj k' => ?_, .inl ?_⟩
  · have := h.table k'
    have := h.id
    dsimp only
    split <;> split <;> simp_all
  · dsimp only
    split
    · rename_i hk
      simp only [hk, h.id, Option.some.injEq]
      exact ⟨fun he => absurd he.symm hj, fun he => absurd (hfree j he) hj⟩
    · exact Iff.rfl
  · split <;> simp_all

/-- A hold takes no attribute but its own, and that only in a chunk or next to another. -/
theorem taken_of_hold {k' : WriteHoldKey} {more : Bool} (h : (t.hold k more).world.holds k' = some i) :
    t.world.holds k' = some i ∨ k' = k ∧ (more = true ∨ t.tx.held ≠ []) := by
  unfold WriteState.hold at h
  split at h
  · exact .inl h
  split at h
  · exact .inl h
  · rename_i htakes
    dsimp only at h
    split at h
    · rename_i hk
      refine .inr ⟨hk, ?_⟩
      simp only [Bool.not_eq_true', List.length_eq_zero_iff, not_and_or, Bool.not_eq_false] at htakes
      exact htakes
    · exact .inl h

theorem Holds.releaseHolds (h : Holds i t) (keep : Option WriteHoldKey) :
    Holds i (t.releaseHolds keep) ∧ KeepsOthers i t (t.releaseHolds keep) ∧
      (keep = none → (t.releaseHolds keep).tx.held = []) := by
  unfold WriteState.releaseHolds
  rw [if_neg (by simp [h.usesHolds])]
  refine ⟨⟨h.id, h.usesHolds, fun k => ?_⟩, fun j hj k => ?_, fun hk => by simp [hk]⟩
  · have := h.table k
    simp only [h.id]
    split <;> simp_all
  simp only [h.id]
  split_ifs with hk
  · simp [hk.2, Ne.symm hj]
  · exact Iff.rfl

theorem held_of_releaseHolds {keep : Option WriteHoldKey} (h : (t.releaseHolds keep).world.holds k = some i) :
    t.world.holds k = some i := by
  unfold WriteState.releaseHolds at h
  split at h
  · exact h
  · dsimp only at h
    split at h
    · cases h
    · exact h

/-! ## Runs -/

/-- What the steps keep of a transaction. -/
structure Owns (s : Writers) (i : Nat) : Prop where
  holds : Holds i (s.view i)
  free : ∀ more k, s.phase i = .tested more k → FreeFor i s.holds k
  owned : ∀ more k, s.phase i = .dispatching more k → k ∈ (s.tx i).held ∨ more = false ∧ (s.tx i).held = []
  done : s.done i = true → (s.tx i).held = [] ∧ s.phase i = .idle

/-- The invariant: every transaction owns what it holds. -/
def Exclusive (s : Writers) : Prop := ∀ i, Owns s i

theorem exclusive_new : Exclusive Writers.new := fun _ =>
  ⟨⟨rfl, rfl, fun _ => ⟨nofun, nofun⟩⟩, fun _ _ => nofun, fun _ _ => nofun, fun _ => ⟨rfl, rfl⟩⟩

/-- A critical section of transaction `i` that keeps the invariant: what it leaves of the table,
and the phase it goes to. -/
structure Leaves (s : Writers) (i : Nat) (t : WriteState Unit) (p : WritePhase) (done : Bool) : Prop where
  holds : Holds i t
  others : KeepsOthers i (s.view i) t
  takes : ∀ k, t.world.holds k = some i → s.holds k = some i ∨ ∀ j more, j ≠ i → s.phase j ≠ .tested more k
  free : ∀ more k, p = .tested more k → FreeFor i t.world.holds k
  owned : ∀ more k, p = .dispatching more k → k ∈ t.tx.held ∨ more = false ∧ t.tx.held = []
  done : done = true → t.tx.held = [] ∧ p = .idle

variable {s s' : Writers} {p : WritePhase} {done : Bool}

/-- What another transaction has tested stays free for it. -/
theorem Leaves.free_other (hl : Leaves s i t p done) {j : Nat} (hj : j ≠ i) {more : Bool}
    (hphase : s.phase j = .tested more k) (hfree : FreeFor j s.holds k) : FreeFor j t.world.holds k := by
  intro m hm
  by_cases hmi : m = i
  · subst hmi
    exact (hl.takes k hm).elim (hfree m) fun hnone => absurd hphase (hnone j more hj)
  · exact hfree m ((hl.others m hmi k).1 hm)

theorem Exclusive.put (h : Exclusive s) (hl : Leaves s i t p done) : Exclusive (s.put i t p done) := by
  intro j
  by_cases hj : j = i
  · subst hj
    refine ⟨⟨?_, ?_, ?_⟩, ?_, ?_, ?_⟩ <;> simp only [Writers.put, Writers.view, Function.update_self]
    · exact hl.holds.id
    · exact hl.holds.usesHolds
    · exact hl.holds.table
    · exact hl.free
    · exact hl.owned
    · exact hl.done
  · refine ⟨⟨?_, ?_, fun k => ?_⟩, ?_, ?_, ?_⟩ <;> simp only [Writers.put, Writers.view, Function.update_of_ne hj]
    · exact (h j).holds.id
    · exact (h j).holds.usesHolds
    · exact ((h j).holds.table k).trans (hl.others j hj k).symm
    · exact fun more k hphase => hl.free_other hj hphase ((h j).free more k hphase)
    · exact (h j).owned
    · exact (h j).done

theorem Exclusive.goesOn (h : Exclusive s) (i : Nat) (hfree : ∀ more k, p = .tested more k → FreeFor i s.holds k)
    (hp : ∀ more k, p ≠ .dispatching more k) : Exclusive (s.put i (s.view i) p false) :=
  h.put
    { holds := (h i).holds
      others := fun _ _ _ => Iff.rfl
      takes := fun _ hk => .inl hk
      free := hfree
      owned := fun more k he => absurd he (hp more k)
      done := nofun }

theorem Exclusive.released (h : Exclusive s) (i : Nat) {keep : Option WriteHoldKey}
    (hdone : done = true → keep = none) : Exclusive (s.put i ((s.view i).releaseHolds keep) .idle done) := by
  obtain ⟨hholds, hothers, hnone⟩ := (h i).holds.releaseHolds keep
  exact h.put
    { holds := hholds
      others := hothers
      takes := fun _ hk => .inl (held_of_releaseHolds hk)
      free := nofun
      owned := nofun
      done := fun hd => ⟨hnone (hdone hd), rfl⟩ }

theorem Exclusive.step {e : WritersEvent} (ha : Undisturbed s e) (h : Exclusive s)
    (hstep : writers.step s e = some s') : Exclusive s' := by
  cases e with
  | message i more | written i =>
    simp only [writers, Writers.step] at hstep
    split at hstep <;> cases hstep <;> exact h.goesOn i nofun nofun
  | test i k =>
    simp only [writers, Writers.step] at hstep
    split at hstep <;> cases hstep
    split
    · exact h
    · rename_i htest
      refine h.goesOn i ?_ nofun
      rintro _ _ ⟨⟩
      exact (h i).holds.freeFor_of_test (Bool.eq_false_iff.2 htest)
  | expand i k =>
    simp only [writers, Writers.step] at hstep
    split at hstep <;> cases hstep
    split
    · exact h
    · exact h.goesOn i nofun nofun
  | hold i =>
    simp only [writers, Writers.step] at hstep
    split at hstep <;> cases hstep
    rename_i more k hi
    -- the test said that the attribute is free, and nobody has taken it since
    obtain ⟨hholds, hothers, hown⟩ := (h i).holds.hold more ((h i).free more k hi)
    refine h.put ⟨⟨hholds.id, hholds.usesHolds, hholds.table⟩, hothers, fun k' hk' => ?_, nofun, ?_, nofun⟩
    · rcases taken_of_hold hk' with hold | ⟨rfl, htakes⟩
      · exact .inl hold
      · exact .inr (ha more _ hi htakes)
    · rintro _ _ ⟨⟩
      exact hown
  | finish i =>
    simp only [writers, Writers.step] at hstep
    split at hstep <;> cases hstep
    exact h.released i (by simp +contextual)
  | release i =>
    cases hstep
    rw [show s.phase i = .idle from ha]
    exact h.released i fun _ => rfl

/-- In every interleaving that is `Undisturbed`, an attribute is held by one transaction at
most and by that exactly when the table names it, a transaction that writes an attribute of
a concrete path owns the hold of it if its message announces more or it holds any, and the
table is empty once every transaction is done. -/
theorem write_holds_exclude (s : Writers) (es : List WritersEvent) (hmeets : writers.Meets Undisturbed .new es)
    (hrun : writers.run .new es = some s) :
    (∀ i j k, k ∈ (s.tx i).held → k ∈ (s.tx j).held → i = j) ∧
      (∀ i k, k ∈ (s.tx i).held ↔ s.holds k = some i) ∧
      (∀ i more k, s.phase i = .dispatching more k → more = true ∨ (s.tx i).held ≠ [] →
        k ∈ (s.tx i).held ∧ s.holds k = some i) ∧
      ((∀ i, s.done i = true) → ∀ k, s.holds k = none) := by
  have h : Exclusive s := writers.run_invariant_meets (fun _ _ _ => Exclusive.step) hmeets exclusive_new hrun
  have htable : ∀ i k, k ∈ (s.tx i).held ↔ s.holds k = some i := fun i => (h i).holds.table
  refine ⟨fun i j k hi hj => ?_, htable, fun i more k hi htakes => ?_, fun hdone k => ?_⟩
  · rw [htable] at hi hj
    exact Option.some.inj (hi.symm.trans hj)
  · rw [← htable, and_self]
    exact ((h i).owned more k hi).resolve_right fun ⟨hm, he⟩ => htakes.elim (by simp [hm]) (· he)
  apply Option.eq_none_iff_forall_ne_some.mpr
  intro i hi
  rw [← htable, ((h i).done (hdone i)).1] at hi
  cases hi

/-- A chunk holds an attribute, and a second write is refused it. -/
theorem write_holds_exclude_chunk :
    let es := [.message 0 true, .test 0 ⟨1, 6, 0⟩, .hold 0, .message 1 true, .test 1 ⟨1, 6, 0⟩]
    ∃ s, writers.run .new es = some s ∧ s.phase 1 = .handling true ∧ s.holds ⟨1, 6, 0⟩ = some 0 := by
  have hmeets : writers.Meets Undisturbed .new
      [.message 0 true, .test 0 ⟨1, 6, 0⟩, .hold 0, .message 1 true, .test 1 ⟨1, 6, 0⟩] := by
    simp +contextual [System.Meets, writers, Writers.step, Undisturbed, Writers.new, Writers.put, Writers.view,
      WriteState.heldByOther]
  refine ⟨_, rfl, rfl, ?_⟩
  exact ((write_holds_exclude _ _ hmeets rfl).2.2.1 0 true ⟨1, 6, 0⟩ rfl (.inl rfl)).2

/-- A wildcard path of a chunk writes behind the test alone, so does the final message of a
write that holds nothing, and two transactions whose tests both come before their holds
both hold the attribute. -/
theorem write_holds_shared :
    let k : WriteHoldKey := ⟨1, 6, 0⟩
    ((writers.run .new [.message 0 true, .expand 0 k]).any fun s =>
        s.phase 0 = .expanding true k ∧ s.holds k = none) = true ∧
      ((writers.run .new [.message 0 true, .finish 0, .message 0 false, .test 0 k, .hold 0]).any fun s =>
        s.phase 0 = .dispatching false k ∧ s.holds k = none) = true ∧
      ((writers.run .new [.message 0 true, .message 1 true, .test 0 k, .test 1 k, .hold 0, .hold 1]).any fun s =>
        k ∈ (s.tx 0).held ∧ k ∈ (s.tx 1).held ∧ s.holds k = some 1) = true := by
  decide

end GF.Proof.Im
