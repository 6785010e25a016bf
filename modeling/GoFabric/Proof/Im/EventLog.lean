import GoFabric.Spec.EventNumbers

/-!
# Event numbers survive crashes

While the numbers have not run out, a node is a ledger of event numbers. A call
that raises or settles the ceiling holds `ceilingMu`, and until its ceiling is
stored the log needs one, so that nothing is assigned; what is assigned is below
the ceiling in memory, and so below the one in the store (`Core.step`).
-/

namespace GF.Proof.Im

open GF.Impl.Im GF.Spec.EventNumbers List BitVec Option

variable {α : Type} {l : EventLog α} {s : LogStep α} {t : Traced α} {now : BitVec 64}

/-! ## Who holds `ceilingMu` -/

/-- The call holds `ceilingMu`. -/
def holds : LogCall α → Bool
  | .raiseCheck _ | .raisePersist _ _ | .raiseStore _ _ | .dropClear | .dropPersist _ => true
  | .check _ | .raiseLock _ | .appended _ | .dropLock | .dropped => false

/-- A step takes `ceilingMu` when it is free, and only its owner gives it
back. -/
theorem step_mutex {mu : Option Nat} {i : Nat} {call : LogCall α} (hown : holds call = true → mu = some i)
    (h : call.step l mu i now = some s) :
    (holds s.call = true → s.ceilingMu = some i) ∧ ∀ j, j ≠ i → mu = some j → s.ceilingMu = some j := by
  have hkeep : mu = some i → ∀ j, j ≠ i → mu = some j → (none : Option Nat) = some j := by
    intro hmu j hj hmu'
    exact absurd (some.inj (hmu'.symm.trans hmu)) hj
  cases call with
  | check rec =>
    simp only [LogCall.step] at h
    split at h
    all_goals
      obtain rfl := some.inj h
      exact ⟨nofun, fun _ _ hmu => hmu⟩
  | raiseLock rec | dropLock =>
    cases mu with
    | some j => cases h
    | none =>
      obtain rfl := some.inj h
      exact ⟨fun _ => rfl, nofun⟩
  | raiseCheck rec =>
    have hmu := hown rfl
    simp only [LogCall.step] at h
    split at h
    · obtain rfl := some.inj h
      exact ⟨nofun, hkeep hmu⟩
    · obtain rfl := some.inj h
      exact ⟨fun _ => hmu, fun _ _ h => h⟩
  | raisePersist rec c =>
    obtain rfl := some.inj h
    exact ⟨fun _ => hown rfl, fun _ _ h => h⟩
  | raiseStore rec c | dropPersist c =>
    obtain rfl := some.inj h
    exact ⟨nofun, hkeep (hown rfl)⟩
  | dropClear =>
    have hmu := hown rfl
    simp only [LogCall.step] at h
    split at h
    · obtain rfl := some.inj h
      exact ⟨fun _ => hmu, fun _ _ h => h⟩
    · obtain rfl := some.inj h
      exact ⟨nofun, hkeep hmu⟩
  | appended rec => cases h
  | dropped => cases h

/-! ## One step of a call -/

/-- What holds of a log, its store and the numbers assigned: a number that
needs no new ceiling is below the one in the store. -/
structure Core (l : EventLog α) (stored : Option (BitVec 64)) (assigned : List Assigned) : Prop where
  wired : l.persistFn = true
  counted : ∀ a ∈ assigned, a.number.toNat ≤ l.next.toNat
  covered : l.next.toNat + 1 < l.persistCeiling.toNat → ∃ c, stored = some c ∧ l.persistCeiling.toNat ≤ c.toNat

/-- What holds while a call moves the ceiling: the next number needs one, and
the ceiling on its way to the store covers the numbers assigned. -/
def Promised (l : EventLog α) (stored : Option (BitVec 64)) (assigned : List Assigned) : LogCall α → Prop
  | .raisePersist _ c | .dropPersist c =>
    l.persistCeiling.toNat ≤ l.next.toNat + 1 ∧ ∀ a ∈ assigned, a.number.toNat ≤ c.toNat
  | .raiseStore _ c => l.persistCeiling.toNat ≤ l.next.toNat + 1 ∧ stored = some c
  | _ => True

theorem promised_of_not_holds {stored : Option (BitVec 64)} {assigned : List Assigned} {call : LogCall α}
    (h : holds call = false) : Promised l stored assigned call := by
  cases call with
  | raisePersist rec c => cases h
  | raiseStore rec c => cases h
  | dropPersist c => cases h
  | _ => trivial

theorem next_succ_toNat (hroom : HasRoom l) : (l.next + 1).toNat = l.next.toNat + 1 := by
  have h := hroom.1
  rw [toNat_add, show (1 : BitVec 64).toNat = 1 from rfl, Nat.mod_eq_of_lt h]

theorem needsCeiling_iff (hw : l.persistFn = true) (hroom : HasRoom l) :
    l.needsCeiling = true ↔ l.persistCeiling.toNat ≤ l.next.toNat + 1 := by
  rw [EventLog.needsCeiling, hw, Bool.true_and, decide_eq_true_iff, ← next_succ_toNat hroom]
  exact le_def

/-- What a step of a call does: it keeps what holds of the log, does what the
call then promises, breaks no promise of a call that can hold `ceilingMu`
meanwhile, assigns only the next number, below the ceiling in the store, and
stores only ceilings that cover the numbers assigned. -/
structure StepSpec (l : EventLog α) (stored : Option (BitVec 64)) (assigned : List Assigned) (call : LogCall α)
    (s : LogStep α) : Prop where
  core : Core s.log (s.persisted.or stored) (assigned ++ assignedBy stored s.call)
  promised : Promised s.log (s.persisted.or stored) (assigned ++ assignedBy stored s.call) s.call
  others : holds call = true ∨ ∀ other, Promised l stored assigned other →
    Promised s.log (s.persisted.or stored) (assigned ++ assignedBy stored s.call) other
  fresh : ∀ a ∈ assignedBy stored s.call, a.Covered ∧ a.number.toNat = l.next.toNat + 1
  durable : ∀ c, s.persisted = some c → assignedBy stored s.call = [] ∧ ∀ a ∈ assigned, a.number.toNat ≤ c.toNat

section StepSpec

variable {stored : Option (BitVec 64)} {assigned : List Assigned} {mu : Option Nat} {i : Nat} {call : LogCall α}

theorem StepSpec.of_quiet (hquiet : assignedBy stored s.call = [])
    (hcore : Core s.log (s.persisted.or stored) assigned)
    (hpromised : Promised s.log (s.persisted.or stored) assigned s.call)
    (hothers : holds call = true ∨ ∀ other, Promised l stored assigned other →
      Promised s.log (s.persisted.or stored) assigned other)
    (hdurable : ∀ c, s.persisted = some c → ∀ a ∈ assigned, a.number.toNat ≤ c.toNat) :
    StepSpec l stored assigned call s := by
  refine ⟨?_, ?_, ?_, ?_, fun c hc => ⟨hquiet, hdurable c hc⟩⟩
  all_goals rw [hquiet]
  · rwa [append_nil]
  · rwa [append_nil]
  · rwa [append_nil]
  · nofun

/-- `AppendRecord` assigns a number: it needs no ceiling, so no call is moving
the ceiling. -/
theorem Core.assign (hcore : Core l stored assigned) (hroom : HasRoom l) (rec : EventRecord α)
    (hn : ¬l.needsCeiling = true) :
    StepSpec l stored assigned (.check rec)
      { log := (l.assign rec now).2, ceilingMu := mu, call := .appended (l.assign rec now).1 } := by
  have hlt : l.next.toNat + 1 < l.persistCeiling.toNat :=
    Nat.lt_of_not_le fun hle => hn ((needsCeiling_iff hcore.wired hroom).2 hle)
  have hnext := next_succ_toNat hroom
  obtain ⟨c, hc, hle⟩ := hcore.covered hlt
  refine ⟨⟨hcore.wired, ?_, fun _ => ⟨c, hc, hle⟩⟩, trivial, .inr ?_, ?_, nofun⟩
  · intro a ha
    show a.number.toNat ≤ (l.next + 1).toNat
    rw [hnext]
    obtain ha | ha := mem_append.1 ha
    · exact Nat.le_succ_of_le (hcore.counted a ha)
    · rw [mem_singleton.1 ha]
      exact Nat.le_of_eq hnext
  · intro other ho
    cases other with
    | raisePersist rec c | raiseStore rec c | dropPersist c => exact absurd ho.1 (Nat.not_le_of_lt hlt)
    | _ => trivial
  · intro a ha
    rw [mem_singleton.1 ha]
    refine ⟨⟨c, hc, ?_⟩, hnext⟩
    show (l.next + 1).toNat ≤ c.toNat
    omega

theorem Core.step (hcore : Core l stored assigned) (hp : Promised l stored assigned call) (hroom : HasRoom l)
    (h : call.step l mu i now = some s) : StepSpec l stored assigned call s := by
  cases call with
  | check rec =>
    simp only [LogCall.step] at h
    split at h
    · obtain rfl := some.inj h
      exact .of_quiet rfl hcore trivial (.inr fun _ h => h) nofun
    · rename_i hn
      obtain rfl := some.inj h
      exact hcore.assign hroom rec hn
  | raiseLock rec | dropLock =>
    cases mu with
    | some j => cases h
    | none =>
      obtain rfl := some.inj h
      exact .of_quiet rfl hcore trivial (.inr fun _ h => h) nofun
  | raiseCheck rec =>
    simp only [LogCall.step] at h
    split at h
    · obtain rfl := some.inj h
      exact .of_quiet rfl hcore trivial (.inl rfl) nofun
    rename_i hn
    have hn : l.needsCeiling = true := Decidable.not_not.1 hn
    obtain rfl := some.inj h
    have hc : (l.next + 1 + l.persistEpoch).toNat = l.next.toNat + 1 + l.persistEpoch.toNat := by
      rw [toNat_add, next_succ_toNat hroom, Nat.mod_eq_of_lt (hroom.2 hn)]
    refine .of_quiet rfl hcore ⟨(needsCeiling_iff hcore.wired hroom).1 hn, ?_⟩ (.inl rfl) nofun
    intro a ha
    have := hcore.counted a ha
    omega
  | raisePersist rec c =>
    obtain rfl := some.inj h
    refine .of_quiet rfl ⟨hcore.wired, hcore.counted, ?_⟩ ⟨hp.1, rfl⟩ (.inl rfl) ?_
    · exact fun hlt => absurd hp.1 (Nat.not_le_of_lt hlt)
    · exact fun _ hc => some.inj hc ▸ hp.2
  | raiseStore rec c =>
    obtain rfl := some.inj h
    refine .of_quiet rfl ?_ trivial (.inl rfl) nofun
    show Core (if c > l.persistCeiling then { l with persistCeiling := c } else l) stored assigned
    split
    · exact ⟨hcore.wired, hcore.counted, fun _ => ⟨c, hp.2, Nat.le_refl _⟩⟩
    · exact hcore
  | dropClear =>
    simp only [LogCall.step, hcore.wired] at h
    obtain rfl := some.inj h
    refine .of_quiet rfl ⟨rfl, hcore.counted, ?_⟩ ⟨Nat.le_succ _, hcore.counted⟩ (.inl rfl) nofun
    exact fun hlt => absurd hlt (Nat.not_lt_of_le (Nat.le_succ _))
  | dropPersist c =>
    obtain rfl := some.inj h
    refine .of_quiet rfl ⟨hcore.wired, hcore.counted, ?_⟩ trivial (.inl rfl) ?_
    · exact fun hlt => absurd hp.1 (Nat.not_le_of_lt hlt)
    · exact fun _ hc => some.inj hc ▸ hp.2
  | appended rec => cases h
  | dropped => cases h

end StepSpec

/-! ## One step of a node -/

/-- What holds of a node and the numbers it assigned. -/
structure LogInv (t : Traced α) : Prop where
  core : Core t.node.log t.node.stored t.assigned
  owner : ∀ i call, t.node.calls[i]? = some call → holds call = true → t.node.ceilingMu = some i
  promised : ∀ call ∈ t.node.calls, Promised t.node.log t.node.stored t.assigned call
  sound : t.ledger.Sound
  noted : ∀ a ∈ t.assigned, a.Covered

theorem inv_boot (stored : Option (BitVec 64)) (epoch : BitVec 64) (assigned : List Assigned)
    (hs : (Traced.mk (LogNode.boot (α := α) stored epoch) assigned).ledger.Sound) (hn : ∀ a ∈ assigned, a.Covered) :
    LogInv (Traced.mk (LogNode.boot (α := α) stored epoch) assigned) := by
  have hnext : (bootLog (α := α) stored epoch).next.toNat = ceilingOf stored := by
    cases stored with
    | none => rfl
    | some c =>
      show (if c > (0 : BitVec 64) then { newEventLog with next := c } else newEventLog).next.toNat = c.toNat
      split_ifs with h
      · rfl
      · rw [Nat.eq_zero_of_not_pos fun hpos => h (lt_def.2 hpos)]
        rfl
  have hceiling : (bootLog (α := α) stored epoch).persistCeiling = (bootLog (α := α) stored epoch).next := by
    cases stored <;> rfl
  refine ⟨⟨?_, ?_, ?_⟩, nofun, nofun, hs, hn⟩
  · cases stored <;> rfl
  · intro a ha
    exact Nat.le_trans (hs.below _ (mem_map_of_mem ha)) (Nat.le_of_eq hnext.symm)
  intro hlt
  simp only [LogNode.boot] at hlt
  rw [hceiling] at hlt
  omega

section

variable (hi : LogInv t)
include hi

/-- The next number and its ceiling, as steps of the ledger. -/
theorem StepSpec.reaches {call : LogCall α} {n : LogNode α}
    (h : StepSpec t.node.log t.node.stored t.assigned call s) (hn : n.stored = s.persisted.or t.node.stored) :
    t.ledger.Reaches (Traced.mk n (t.assigned ++ assignedBy t.node.stored s.call)).ledger := by
  simp only [Traced.ledger, hn]
  cases hp : s.persisted with
  | some c =>
    obtain ⟨hquiet, hcovers⟩ := h.durable c hp
    rw [hquiet, append_nil]
    refine .single (.settle c.toNat ?_)
    intro m hm
    obtain ⟨a, ha, rfl⟩ := mem_map.1 hm
    exact hcovers a ha
  | none =>
    have hfresh := h.fresh
    cases hc : s.call with
    | appended rec =>
      rw [hc] at hfresh
      obtain ⟨⟨c, hc, hle⟩, hnumber⟩ := hfresh _ mem_cons_self
      have hnumber : rec.number.toNat = t.node.log.next.toNat + 1 := hnumber
      simp only [map_append]
      refine .single (.issue _ ?_ ?_)
      · intro m hm
        obtain ⟨a, ha, rfl⟩ := mem_map.1 hm
        have := hi.core.counted a ha
        show a.number.toNat < rec.number.toNat
        omega
      · show rec.number.toNat ≤ (t.node.stored.getD 0).toNat
        rw [show t.node.stored = some c from hc]
        exact hle
    | _ =>
      simp only [assignedBy, append_nil]
      exact .refl

theorem LogInv.call {i : Nat} {call : LogCall α} (hroom : Room t) (hc : t.node.calls[i]? = some call)
    (hs : call.step t.node.log t.node.ceilingMu i now = some s) :
    LogInv { node := { log := s.log, ceilingMu := s.ceilingMu, calls := t.node.calls.set i s.call,
                       stored := s.persisted.or t.node.stored }
             assigned := t.assigned ++ assignedBy t.node.stored s.call } := by
  have hspec := hi.core.step (hi.promised call (mem_of_getElem? hc)) hroom hs
  obtain ⟨hmine, hothers⟩ := step_mutex (hi.owner i call hc) hs
  have hlt : i < t.node.calls.length := (List.getElem?_eq_some_iff.1 hc).1
  refine ⟨hspec.core, ?_, ?_, hi.sound.reaches (hspec.reaches hi rfl), ?_⟩
  · intro j other hj hholds
    obtain rfl | hne := Decidable.eq_or_ne j i
    · rw [List.getElem?_set_self hlt] at hj
      exact hmine (some.inj hj ▸ hholds)
    · rw [List.getElem?_set_ne (Ne.symm hne)] at hj
      exact hothers j hne (hi.owner j other hj hholds)
  · intro other ho
    obtain ⟨j, hj⟩ := mem_iff_getElem?.1 ho
    obtain rfl | hne := Decidable.eq_or_ne j i
    · rw [List.getElem?_set_self hlt] at hj
      exact some.inj hj ▸ hspec.promised
    rw [List.getElem?_set_ne (Ne.symm hne)] at hj
    obtain hholds | hkeep := hspec.others
    · -- the call that steps owns `ceilingMu`, so this one promises nothing
      refine promised_of_not_holds (Bool.eq_false_iff.2 fun h => hne ?_)
      exact some.inj ((hi.owner j other hj h).symm.trans (hi.owner i call hc hholds))
    · exact hkeep other (hi.promised other (mem_of_getElem? hj))
  · intro a ha
    obtain ha | ha := mem_append.1 ha
    · exact hi.noted a ha
    · exact (hspec.fresh a ha).1

/-- A call is made, which waits at its first step. -/
theorem LogInv.make {call : LogCall α} (hc : holds call = false) :
    LogInv { node := { t.node with calls := t.node.calls ++ [call] }, assigned := t.assigned } := by
  refine ⟨hi.core, ?_, ?_, hi.sound, hi.noted⟩
  · intro i other hi' hholds
    obtain hlt | hle := Nat.lt_or_ge i t.node.calls.length
    · rw [List.getElem?_append_left hlt] at hi'
      exact hi.owner i other hi' hholds
    · rw [List.getElem?_append_right hle] at hi'
      rw [mem_singleton.1 (mem_of_getElem? hi'), hc] at hholds
      cases hholds
  · intro other ho
    obtain ho | ho := mem_append.1 ho
    · exact hi.promised other ho
    · rw [mem_singleton.1 ho]
      exact promised_of_not_holds hc

theorem LogInv.seed (base : BitVec 64) :
    LogInv { node := { t.node with log := t.node.log.seedNumber base }, assigned := t.assigned } := by
  unfold EventLog.seedNumber
  split_ifs with hgt
  · have hup : t.node.log.next.toNat < base.toNat := lt_def.1 hgt
    refine ⟨⟨hi.core.wired, ?_, ?_⟩, hi.owner, ?_, hi.sound, hi.noted⟩
    · intro a ha
      exact Nat.le_of_lt (Nat.lt_of_le_of_lt (hi.core.counted a ha) hup)
    · intro hlt
      refine hi.core.covered (Nat.lt_trans ?_ hlt)
      exact Nat.succ_lt_succ hup
    intro call hcall
    have hold := hi.promised call hcall
    have hle : t.node.log.next.toNat + 1 ≤ base.toNat + 1 := Nat.succ_le_succ (Nat.le_of_lt hup)
    cases call with
    | raisePersist rec c | raiseStore rec c | dropPersist c => exact ⟨Nat.le_trans hold.1 hle, hold.2⟩
    | _ => trivial
  · exact hi

/-- The process dies: a ceiling that reaches the store late covers the numbers
assigned. -/
theorem LogInv.crash (late : Option (BitVec 64)) (epoch : BitVec 64)
    (hlate : ∀ c, late = some c → ∃ call ∈ t.node.calls, call.persisting = some c) :
    LogInv (α := α) { node := .boot (late.or t.node.stored) epoch, assigned := t.assigned } := by
  refine inv_boot _ _ _ ?_ hi.noted
  refine ⟨hi.sound.increasing, ?_⟩
  cases late with
  | none => exact hi.sound.below
  | some c =>
    obtain ⟨call, hcall, hc⟩ := hlate c rfl
    have hp := hi.promised call hcall
    intro m hm
    obtain ⟨a, ha, rfl⟩ := mem_map.1 hm
    cases call with
    | raisePersist rec c' | dropPersist c' =>
      obtain rfl := some.inj hc
      exact hp.2 a ha
    | _ => cases hc

theorem LogInv.step {t' : Traced α} {e : LogEvent α} (hroom : Room t) (h : t.step e = some t') : LogInv t' := by
  obtain ⟨n, hn, rfl⟩ := map_eq_some_iff.1 h
  cases e with
  | appendRecord rec | dropBuffered =>
    obtain rfl := some.inj hn
    simp only [assignedIn, append_nil]
    exact hi.make rfl
  | seedNumber base =>
    obtain rfl := some.inj hn
    simp only [assignedIn, append_nil]
    exact hi.seed base
  | step i now =>
    obtain ⟨call, hc, hn⟩ := bind_eq_some_iff.1 hn
    obtain ⟨s, hs, hn⟩ := bind_eq_some_iff.1 hn
    obtain rfl := some.inj hn
    have hlt : i < t.node.calls.length := (List.getElem?_eq_some_iff.1 hc).1
    simp only [assignedIn, List.getElem?_set_self hlt]
    exact hi.call hroom hc hs
  | crash written epoch =>
    obtain rfl := some.inj hn
    simp only [assignedIn, append_nil]
    refine hi.crash _ epoch ?_
    intro c hc
    obtain ⟨i, -, hc⟩ := bind_eq_some_iff.1 hc
    obtain ⟨call, hcall, hc⟩ := bind_eq_some_iff.1 hc
    exact ⟨call, mem_of_getElem? hcall, hc⟩

end

/-! ## Every run -/

/-- Over every run of appends, drops and seeds, interleaved by the mutexes of
the log, and of crashes at any point, in which the numbers do not run out, the
numbers assigned increase, over all restarts, and each was covered by a ceiling
that `persistFn` had stored. -/
theorem event_numbers_crash_safe (stored : Option (BitVec 64)) (epoch : BitVec 64) (events : List (LogEvent α))
    (t : Traced α) (hroom : (tracedSystem α).Along Room (Traced.boot stored epoch) events)
    (hrun : (tracedSystem α).run (Traced.boot stored epoch) events = some t) :
    t.assigned.Pairwise (fun a b => a.number.toNat < b.number.toNat) ∧ ∀ a ∈ t.assigned, a.Covered := by
  have hi : LogInv t := by
    refine System.run_invariant_along (fun s e s' hr hi h => hi.step hr h) hroom ?_ hrun
    exact inv_boot stored epoch [] ⟨List.Pairwise.nil, nofun⟩ nofun
  exact ⟨pairwise_map.1 hi.sound.increasing, hi.noted⟩

def blank : EventRecord Unit :=
  { number := 0, priority := .info, endpoint := 0, cluster := 0, eventID := 0, epochMS := 0, payload := () }

/-- `AppendRecord` as call `i`, which takes `k` steps. -/
def appendSteps (i k : Nat) : List (LogEvent Unit) := .appendRecord blank :: List.replicate k (.step i 7)

/-- Three numbers, two of them by calls that wait for each other; a drop that
dies before its ceiling is stored; a number after the restart, and a crash while
a ceiling is on its way to the store, which it reaches. -/
def crashedLog : List (LogEvent Unit) :=
  appendSteps 0 2 ++ appendSteps 1 1 ++ List.replicate 4 (.step 0 7) ++ [.step 1 7, .step 1 7, .step 1 7] ++
    appendSteps 2 1 ++ [.dropBuffered, .step 3 7, .step 3 7, .crash none 4] ++ appendSteps 0 6 ++
    [.seedNumber 70000] ++ appendSteps 1 3 ++ [.crash (some 1) 0] ++ appendSteps 0 6

theorem event_numbers_crash_safe_restart :
    ((tracedSystem Unit).run (Traced.boot none 0) crashedLog).map (fun t => t.assigned.map Assigned.number) =
        some [1, 2, 3, 65538, 70006] ∧
      ∀ t, (tracedSystem Unit).run (Traced.boot none 0) crashedLog = some t →
        t.assigned.Pairwise (fun a b => a.number.toNat < b.number.toNat) ∧ ∀ a ∈ t.assigned, a.Covered := by
  have hroom : (tracedSystem Unit).Along Room (Traced.boot none 0) crashedLog := by decide +kernel
  exact ⟨by decide +kernel, fun t ht => event_numbers_crash_safe none 0 crashedLog t hroom ht⟩

/-! ## Numbers that run out -/

/-- After a seed with the largest number the next one is 0. After a seed just
below it the ceiling wraps, so that a crash takes the numbers back. -/
theorem event_numbers_run_out :
    ((tracedSystem Unit).run (Traced.boot none 0)
        (appendSteps 0 6 ++ [.seedNumber 0xFFFFFFFFFFFFFFFF] ++ appendSteps 1 1)).map
      (fun t => t.assigned.map Assigned.number) = some [1, 0] ∧
    ((tracedSystem Unit).run (Traced.boot none 0)
        ([.seedNumber 100000] ++ appendSteps 0 6 ++ [.seedNumber 0xFFFFFFFFFFFFFFF6] ++ appendSteps 1 4 ++
          [.crash none 0] ++ appendSteps 0 6)).map
      (fun t => t.assigned.map Assigned.number) = some [100001, 65528] := by
  decide +kernel

end GF.Proof.Im
