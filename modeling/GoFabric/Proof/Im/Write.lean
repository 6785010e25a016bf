import GoFabric.Impl.Im.Write

/-!
# No write without its check

The log of an interaction is kept `Inv`: every logged concrete write came
after a successful check of its own location with the privilege of its
attribute, with nothing but successful writes of that attribute in between
(`Licensed`), and so would a write of the attribute in `lastWritten`. Each
operation of the handler only adds calls that dispatch nothing (`Quiet`), or
is the dispatch itself (`inv_dispatch`).
-/

namespace GF.Proof.Im

open GF.Impl.Im GF.Impl.Im.Wire List Option

variable {σ O : Type} {s s' : WriteState σ}

/-- The event is a call of `Write` or `WriteAuthorized`. -/
def isDispatch : WriteEvent → Bool
  | .minWritePrivilege .. => false
  | .checkACL .. => false
  | .write .. => true
  | .writeAuthorized .. => true

/-- The calls of a successful check for the path: its endpoint and cluster,
with the privilege the dispatcher answers for its attribute, or Operate if it
answers none. -/
def CheckOf (d : WriteDispatcher σ O) (p : ConcreteAttributePath) (chk : List WriteEvent) : Prop :=
  if d.minWritePrivilege.isSome then
    ∃ privilege, chk = [.minWritePrivilege p.endpoint p.cluster p.attributeID privilege,
      .checkACL p.endpoint p.cluster privilege .success]
  else chk = [.checkACL p.endpoint p.cluster 3 .success]

/-- The event is a write to the attribute of `p`, and it succeeded. -/
def SameSucceeded (p : ConcreteAttributePath) (e : WriteEvent) : Prop :=
  ∃ q results, e = .write q results ∧ q.holdKey = p.holdKey ∧ q.hasEndpoint = true ∧ results ≠ [] ∧
    allSucceeded results = true

/-- The path was checked, and what was dispatched since are successful writes
to the same attribute. -/
def Licensed (d : WriteDispatcher σ O) (log : List WriteEvent) (p : ConcreteAttributePath) : Prop :=
  ∃ pre chk post, log = pre ++ chk ++ post ∧ CheckOf d p chk ∧
    ∀ e ∈ post, isDispatch e = true → SameSucceeded p e

/-- Every concrete write of the log was licensed when it was made. -/
def AllLicensed (d : WriteDispatcher σ O) (log : List WriteEvent) : Prop :=
  ∀ pre q results post, log = pre ++ .write q results :: post → q.hasEndpoint = true → Licensed d pre q

/-- The invariant of the log and `lastWritten`. -/
structure Inv (d : WriteDispatcher σ O) (log : List WriteEvent) (last : Option ConcreteAttributePath) : Prop where
  writes : AllLicensed d log
  last : ∀ p, last = some p → Licensed d log p

section

variable {d : WriteDispatcher σ O} {log es : List WriteEvent} {p q : ConcreteAttributePath}

theorem Licensed.append (h : Licensed d log p) (hes : ∀ e ∈ es, isDispatch e = true → SameSucceeded p e) :
    Licensed d (log ++ es) p := by
  obtain ⟨pre, chk, post, rfl, hchk, hpost⟩ := h
  refine ⟨pre, chk, post ++ es, by simp only [append_assoc], hchk, ?_⟩
  intro e he
  rcases mem_append.1 he with he | he
  · exact hpost e he
  · exact hes e he

theorem Licensed.append_quiet (h : Licensed d log p) (hes : ∀ e ∈ es, isDispatch e = false) :
    Licensed d (log ++ es) p := by
  refine h.append ?_
  intro e he hd
  rw [hes e he] at hd
  cases hd

/-- A licence is for the attribute that the path names. -/
theorem Licensed.congr (h : Licensed d log p) (hk : p.holdKey = q.holdKey) : Licensed d log q := by
  obtain ⟨pre, chk, post, hlog, hchk, hpost⟩ := h
  obtain ⟨he, hc, ha⟩ : p.endpoint = q.endpoint ∧ p.cluster = q.cluster ∧ p.attributeID = q.attributeID := by
    simpa [ConcreteAttributePath.holdKey] using hk
  refine ⟨pre, chk, post, hlog, ?_, ?_⟩
  · unfold CheckOf at hchk
    rwa [he, hc, ha] at hchk
  · intro e hmem hd
    obtain ⟨r, results, hr, hrk, hrest⟩ := hpost e hmem hd
    exact ⟨r, results, hr, hrk.trans hk, hrest⟩

/-- An event at the end of the log, which needs a licence there if it is a
concrete write. -/
theorem AllLicensed.append_one (h : AllLicensed d log) {e : WriteEvent}
    (he : ∀ p results, e = .write p results → p.hasEndpoint = true → Licensed d log p) :
    AllLicensed d (log ++ [e]) := by
  intro pre q results post heq hq
  rcases eq_nil_or_concat post with rfl | ⟨post, e', rfl⟩
  · obtain ⟨hlog, hw⟩ := append_inj' heq rfl
    exact hlog ▸ he q results (List.cons.inj hw).1 hq
  have heq' : log ++ [e] = (pre ++ .write q results :: post) ++ [e'] := by
    rw [heq]
    simp
  exact h pre q results post (append_inj' heq' rfl).1 hq

theorem AllLicensed.append_quiet (h : AllLicensed d log) (hes : ∀ e ∈ es, isDispatch e = false) :
    AllLicensed d (log ++ es) := by
  induction es generalizing log with
  | nil => rwa [append_nil]
  | cons e es ih =>
    have hone : AllLicensed d (log ++ [e]) := by
      refine h.append_one ?_
      intro p results he
      have := hes e mem_cons_self
      rw [he] at this
      cases this
    rw [append_cons]
    exact ih hone fun x hx => hes x (mem_cons_of_mem e hx)

end

/-! ## Operations that dispatch nothing -/

/-- The operation keeps `lastWritten` and logs no dispatch. -/
def Quiet (s s' : WriteState σ) : Prop :=
  s'.lastWritten = s.lastWritten ∧ ∃ es, s'.log = s.log ++ es ∧ ∀ e ∈ es, isDispatch e = false

theorem Quiet.of_eq (hl : s'.lastWritten = s.lastWritten) (hlog : s'.log = s.log) : Quiet s s' :=
  ⟨hl, [], by rw [hlog, append_nil], by simp⟩

theorem Quiet.trans {s1 s2 s3 : WriteState σ} (h1 : Quiet s1 s2) (h2 : Quiet s2 s3) : Quiet s1 s3 := by
  obtain ⟨hl1, es1, hlog1, hes1⟩ := h1
  obtain ⟨hl2, es2, hlog2, hes2⟩ := h2
  refine ⟨hl2.trans hl1, es1 ++ es2, by rw [hlog2, hlog1, append_assoc], ?_⟩
  intro e he
  rcases mem_append.1 he with he | he
  · exact hes1 e he
  · exact hes2 e he

theorem Inv.quiet {d : WriteDispatcher σ O} (h : Inv d s.log s.lastWritten) (hq : Quiet s s') :
    Inv d s'.log s'.lastWritten := by
  obtain ⟨hl, es, hlog, hes⟩ := hq
  rw [hl, hlog]
  exact ⟨h.writes.append_quiet hes, fun p hp => (h.last p hp).append_quiet hes⟩

section

variable (s : WriteState σ) (ctx : WriteContext) (d : WriteDispatcher σ O)

theorem quiet_hold (k : WriteHoldKey) (more : Bool) : Quiet s (s.hold k more) := by
  unfold WriteState.hold
  split
  · exact .of_eq rfl rfl
  · split
    · exact .of_eq rfl rfl
    · exact .of_eq rfl rfl

theorem quiet_holdUnlessBusy (p : ConcreteAttributePath) (more : Bool) : Quiet s (s.holdUnlessBusy p more).2 := by
  unfold WriteState.holdUnlessBusy
  split
  · exact .of_eq rfl rfl
  · exact (quiet_hold s p.holdKey more).trans (.of_eq rfl rfl)

theorem quiet_releaseHolds (keep : Option WriteHoldKey) : Quiet s (s.releaseHolds keep) := by
  unfold WriteState.releaseHolds
  split
  · exact .of_eq rfl rfl
  · exact .of_eq rfl rfl

theorem quiet_writePrivilege (e : BitVec 16) (c a : BitVec 32) : Quiet s (s.writePrivilege d e c a).2 := by
  unfold WriteState.writePrivilege
  split
  · exact ⟨rfl, _, rfl, by simp [isDispatch]⟩
  · exact .of_eq rfl rfl

theorem quiet_checkLocation (e : BitVec 16) (c a : BitVec 32) : Quiet s (s.checkLocation ctx d e c a).2 := by
  unfold WriteState.checkLocation
  split
  · exact .of_eq rfl rfl
  have hq := quiet_writePrivilege s d e c a
  dsimp only
  split
  · exact hq
  · exact hq.trans ⟨rfl, _, rfl, by simp [isDispatch]⟩

theorem quiet_authorizeWildcard (e : BitVec 16) (c a : BitVec 32) :
    Quiet s (s.authorizeWildcard ctx d e c a).2 := by
  unfold WriteState.authorizeWildcard
  split
  · exact .of_eq rfl rfl
  · split
    · exact .of_eq rfl rfl
    · exact quiet_checkLocation s ctx d e c a

theorem quiet_runAuthorized (t : AuthorizedWrite σ) : Quiet s (s.runAuthorized ctx d t).2 := by
  induction t generalizing s with
  | done results w => exact .of_eq rfl rfl
  | ask w e c a next ih =>
    have hq := quiet_authorizeWildcard { s with world := w } ctx d e c a
    exact (Quiet.of_eq rfl rfl : Quiet s { s with world := w }).trans (hq.trans (ih _ _ _))

theorem checkLocation_success (p : ConcreteAttributePath) (hacl : d.checkACL.isSome = true)
    (hok : (s.checkLocation ctx d p.endpoint p.cluster p.attributeID).1.isSuccess = true) :
    ∃ chk, (s.checkLocation ctx d p.endpoint p.cluster p.attributeID).2.log = s.log ++ chk ∧ CheckOf d p chk := by
  obtain ⟨check, hcheck⟩ := isSome_iff_exists.1 hacl
  unfold WriteState.checkLocation at hok ⊢
  simp only [hcheck] at hok ⊢
  split at hok
  · cases hok
  next hfab =>
  rw [if_neg hfab]
  have hstatus := eq_of_beq hok
  unfold WriteState.writePrivilege CheckOf at *
  cases hmin : d.minWritePrivilege with
  | none =>
    simp only [hmin] at hstatus
    exact ⟨_, rfl, by rw [hstatus]; rfl⟩
  | some minWritePrivilege =>
    simp only [hmin] at hstatus
    refine ⟨_, by rw [append_assoc], ?_⟩
    rw [hstatus]
    exact ⟨_, rfl⟩

end

/-! ## The handler -/

section

variable {ctx : WriteContext} {d : WriteDispatcher σ O}

/-- What a concrete write leaves in the log and in `lastWritten`. -/
theorem dispatch_concrete (ctx : WriteContext) (d : WriteDispatcher σ O) (s : WriteState σ) (w : AttributeWrite O)
    (hend : w.path.hasEndpoint = true) :
    (s.dispatch ctx d w).log = s.log ++ [.write w.path (s.callWrite d w).1] ∧
      (s.dispatch ctx d w).lastWritten =
        if (s.callWrite d w).1.length > 0 ∧ allSucceeded (s.callWrite d w).1 = true then some w.path else none := by
  unfold WriteState.dispatch
  rw [if_pos hend]
  exact ⟨rfl, rfl⟩

section

variable (h : Inv d s.log s.lastWritten)
include h

/-- A concrete write that is licensed: the invariant holds after it. -/
theorem inv_dispatch_concrete (w : AttributeWrite O) (hend : w.path.hasEndpoint = true)
    (hlic : Licensed d s.log w.path) : Inv d (s.dispatch ctx d w).log (s.dispatch ctx d w).lastWritten := by
  obtain ⟨hlog, hlast⟩ := dispatch_concrete ctx d s w hend
  rw [hlog, hlast]
  refine ⟨h.writes.append_one ?_, ?_⟩
  · intro p results he _
    cases he
    exact hlic
  intro p hp
  split at hp
  · next hok =>
    obtain rfl := some.inj hp
    refine hlic.append ?_
    intro e he _
    obtain rfl := mem_singleton.1 he
    exact ⟨_, _, rfl, rfl, hend, ne_nil_of_length_pos hok.1, hok.2⟩
  · cases hp

section

variable (hacl : d.checkACL.isSome = true) (hpase : ctx.subject.pase = false) (w : AttributeWrite O)
include hacl hpase w

theorem inv_dispatch_wildcard (hend : w.path.hasEndpoint = false) :
    Inv d (s.dispatch ctx d w).log (s.dispatch ctx d w).lastWritten := by
  have hnone : ¬ (d.checkACL.isNone = true ∨ ctx.subject.pase = true) := by
    rw [hpase, isNone_eq_false_iff.2 hacl]
    decide
  unfold WriteState.dispatch
  rw [if_neg (by simp [hend])]
  split
  · next writeAuthorized _ =>
    have hq := h.quiet (quiet_runAuthorized s ctx d (writeAuthorized w.path w.value s.world))
    refine ⟨hq.writes.append_one ?_, fun p hp => by cases hp⟩
    intro p results he
    cases he
  · rw [if_neg hnone]
    exact h

theorem inv_versionedWrite (hlic : w.path.hasEndpoint = true → Licensed d s.log w.path) :
    Inv d (s.versionedWrite ctx d w).log (s.versionedWrite ctx d w).lastWritten := by
  unfold WriteState.versionedWrite
  dsimp only
  split
  · exact h
  cases hend : w.path.hasEndpoint with
  | true =>
    refine inv_dispatch_concrete ?_ w hend ?_
    · exact h
    · exact hlic hend
  | false =>
    refine inv_dispatch_wildcard ?_ hacl hpase w hend
    exact h

/-- The ACL gate: a concrete write that passes it is licensed, by the check
just made or by what `lastWritten` stands for. -/
theorem inv_gatedWrite :
    Inv d (s.gatedWrite ctx d w).log (s.gatedWrite ctx d w).lastWritten := by
  have h0 : Inv d s.log none := ⟨h.writes, fun p hp => by cases hp⟩
  unfold WriteState.gatedWrite
  cases hend : w.path.hasEndpoint with
  | false =>
    simp only [Bool.false_eq_true, false_and, and_false]
    refine inv_versionedWrite h0 hacl hpase w ?_
    rw [hend]
    nofun
  | true =>
    cases hsame : s.lastWritten.any fun last => last.holdKey == w.path.holdKey with
    | true =>
      obtain ⟨last, hlast, hkey⟩ := (any_eq_true _ _).1 hsame
      simp only [Bool.true_and, Bool.not_true, Bool.false_eq_true, and_false]
      exact inv_versionedWrite h hacl hpase w fun _ => (h.last last hlast).congr (eq_of_beq hkey)
    | false =>
      have hq := quiet_checkLocation { s with lastWritten := none } ctx d w.path.endpoint w.path.cluster
        w.path.attributeID
      have hinv := Inv.quiet h0 hq
      simp only [Bool.true_and, Bool.false_eq_true, if_false, hpase, Bool.not_false, and_self, if_true]
      split
      · exact hinv
      next hok =>
      refine inv_versionedWrite hinv hacl hpase w fun _ => ?_
      obtain ⟨chk, hlog, hchk⟩ :=
        checkLocation_success { s with lastWritten := none } ctx d w.path hacl (by simpa using hok)
      exact ⟨s.log, chk, [], by rw [hlog, append_nil], hchk, by simp⟩
end

end

/-- One round of the loop keeps the invariant, under an active gate. -/
theorem inv_handleWrite (hacl : d.checkACL.isSome = true) (hpase : ctx.subject.pase = false) (more : Bool)
    (s : WriteState σ) (w : AttributeWrite O) (h : Inv d s.log s.lastWritten) :
    Inv d (handleWrite ctx d more s w).log (handleWrite ctx d more s w).lastWritten := by
  unfold handleWrite
  split
  · exact h
  cases w.path.hasEndpoint with
  | false => exact inv_gatedWrite h hacl hpase w
  | true =>
    have hs := h.quiet (quiet_holdUnlessBusy s w.path more)
    simp only [if_true]
    split
    · exact hs
    · exact inv_gatedWrite hs hacl hpase w

theorem inv_handleWriteRequest (hacl : d.checkACL.isSome = true) (hpase : ctx.subject.pase = false)
    (world : World σ) (tx : WriteTransaction) (log : List WriteEvent) (req : WriteRequest O)
    (h : Inv d log tx.lastWritten) :
    Inv d (handleWriteRequest ctx d world tx log req).log
      (handleWriteRequest ctx d world tx log req).tx.lastWritten := by
  have hloop : ∀ (ws : List (AttributeWrite O)) (s : WriteState σ), Inv d s.log s.lastWritten →
      Inv d (ws.foldl (handleWrite ctx d req.moreChunkedMessages) s).log
        (ws.foldl (handleWrite ctx d req.moreChunkedMessages) s).lastWritten := by
    intro ws
    induction ws with
    | nil => exact fun s hs => hs
    | cons w ws ih => exact fun s hs => ih _ (inv_handleWrite hacl hpase _ s w hs)
  exact (hloop req.writes _ h).quiet (quiet_releaseHolds _ _)

/-- Every concrete write of an interaction is licensed when it is made: for
any dispatcher with an ACL checker, any session that is not PASE, and any
messages, whatever the dispatcher's calls and the time between messages do to
the state, the ACL and the holds. -/
theorem interaction_writes_licensed (ctx : WriteContext) (d : WriteDispatcher σ O)
    (hacl : d.checkACL.isSome = true) (hpase : ctx.subject.pase = false) (id : Nat) (usesHolds : Bool)
    (world : World σ) (msgs : List ((World σ → World σ) × WriteRequest O)) (pre : List WriteEvent)
    (p : ConcreteAttributePath) (results : List WriteResult) (post : List WriteEvent)
    (hlog : runInteraction ctx d world (newWriteTransaction id usesHolds) [] msgs =
      pre ++ .write p results :: post)
    (hp : p.hasEndpoint = true) : Licensed d pre p := by
  have hrun : ∀ (msgs : List ((World σ → World σ) × WriteRequest O)) (world : World σ) (tx : WriteTransaction)
      (log : List WriteEvent), Inv d log tx.lastWritten → AllLicensed d (runInteraction ctx d world tx log msgs) := by
    intro msgs
    induction msgs with
    | nil => exact fun world tx log h => h.writes
    | cons m msgs ih =>
      intro world tx log h
      exact ih _ _ _ (inv_handleWriteRequest hacl hpase (m.1 world) tx log m.2 h)
  refine hrun msgs world (newWriteTransaction id usesHolds) [] ⟨?_, fun p hp => by cases hp⟩ pre p results post hlog hp
  intro pre q rs post heq
  simp at heq

end

/-- A dispatcher that grants while its state is true; a write ends that. -/
def revokingDispatcher : WriteDispatcher Bool Nat where
  read _ w := ([], w)
  write p _ w := ([⟨p, .success, 0, false⟩], { w with state := false })
  checkACL := some fun _ _ _ _ _ _ w => (if w.state then .success else .unsupportedAccess, w)
  minWritePrivilege := none
  writeAuthorized := none
  currentDataVersion := none

/-- A chunked write of one attribute whose first element revokes the grant. -/
theorem interaction_writes_licensed_revoked :
    let p : ConcreteAttributePath :=
      { endpoint := 1, cluster := 6, attributeID := 0, hasEndpoint := true, hasCluster := true, hasAttribute := true }
    let ctx : WriteContext := ⟨⟨1, 7, [], false⟩, none, fun _ _ => none, fun _ _ => false⟩
    let msg (more : Bool) : (World Bool → World Bool) × WriteRequest Nat := (id, { writes := [{ path := p }], moreChunkedMessages := more })
    let ok : List WriteResult := [⟨p, .success, 0, false⟩]
    runInteraction ctx revokingDispatcher ⟨true, fun _ => none⟩ (newWriteTransaction 0 true) [] [msg true, msg false] =
      [.checkACL 1 6 3 .success, .write p ok] ++ .write p ok :: [] ∧
    Licensed revokingDispatcher [.checkACL 1 6 3 .success, .write p ok] p := by
  intro p ctx msg ok
  exact ⟨rfl, interaction_writes_licensed ctx revokingDispatcher rfl rfl 0 true ⟨true, fun _ => none⟩
    [msg true, msg false] _ p ok [] rfl rfl⟩

end GF.Proof.Im
