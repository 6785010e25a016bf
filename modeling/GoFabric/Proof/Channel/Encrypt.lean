import GoFabric.Impl.Channel.Session

/-!
# Message counters of a session: never handed out twice

`Encrypt` and `Close` calls interleave access by access. `Inv` says that the
counters handed out lie below the session's counter and are pairwise
distinct; one access of one call keeps it (`EncryptCall.step_cases`,
`step_inv`), so it holds on every run. Once the counter stands at its last
value, no call gets one any more (`Exhausted`), and a call that has none
returns an error after two more steps of its own.
-/

namespace GF.Proof.Channel

open GF.Impl.Channel GF.Impl.Mrp BitVec

variable {c : BitVec 32} {s₀ s : Session} {t : EncryptCall} {cs : List Call} {i n k : Nat} {st st' : Calls}

/-! ## Nonces -/

theorem buildNonce_inj {f g : Byte} {d : BitVec 32} {m n : BitVec 64} (h : buildNonce f c m = buildNonce g d n) :
    f = g ∧ c = d ∧ m = n := by
  obtain ⟨hfc, hm⟩ := List.append_inj h (by simp)
  obtain ⟨hf, hc⟩ := List.append_inj hfc (by simp)
  refine ⟨(List.cons.inj hf).1, eq_of_toNat_eq ?_, eq_of_toNat_eq ?_⟩
  · exact leBytes_inj c.isLt d.isLt hc
  · exact leBytes_inj m.isLt n.isLt hm

/-! ## One call -/

/-- A call of `Encrypt` on a session that started as `s₀` and whose counter
is now `out`. -/
structure CallOk (s₀ : Session) (out : Counter) (t : EncryptCall) : Prop where
  lower : ∀ c, t.counter = some c → s₀.out.toNat ≤ c.toNat
  upper : ∀ c, t.counter = some c → c.toNat < out.toNat
  start : t.pc = .start → t.counter = none
  load : t.pc = .load → t.counter = none
  cas : ∀ cur, t.pc = .cas cur → t.counter = none ∧ cur ≠ 0xFFFFFFFF#32
  sealing : ∀ c, t.pc = .sealing c → t.counter = some c
  sealed : ∀ r, t.pc = .returned (.ok r) → t.counter = some r.counter ∧ ∃ k, s₀.encCipher = some k ∧
    k.seal [] (buildNonce t.secFlags r.counter s₀.localNodeID) t.plaintext t.header.marshal = .ok r.ciphertext

theorem CallOk.mono {out out' : Counter} (h : CallOk s₀ out t) (hle : out.toNat ≤ out'.toNat) : CallOk s₀ out' t :=
  { h with upper := fun c hc => Nat.lt_of_lt_of_le (h.upper c hc) hle }

/-- The fields of the session `Encrypt` only reads. -/
structure SessionOk (s₀ s : Session) : Prop where
  node : s.localNodeID = s₀.localNodeID
  cipher : ∀ k, s.encCipher = some k → s₀.encCipher = some k
  lower : s₀.out.toNat ≤ s.out.toNat

theorem sealWith_ok {h : Impl.Message.Header} {f : Byte} {p : List Byte} {r : EncryptResult}
    (hr : s.sealWith h f p c = .ok r) :
    r.counter = c ∧ ∃ k, s.encCipher = some k ∧
      k.seal [] (buildNonce f c s.localNodeID) p h.marshal = .ok r.ciphertext := by
  unfold Session.sealWith at hr
  cases hk : s.encCipher with
  | none => rw [hk] at hr; cases hr
  | some k =>
    rw [hk] at hr
    cases hs : k.seal [] (buildNonce f c s.localNodeID) p h.marshal with
    | error e => simp only [hs, reduceCtorEq] at hr
    | ok ct =>
      simp only [hs, Except.ok.injEq] at hr
      subst hr
      exact ⟨rfl, k, rfl, hs⟩

theorem toNat_succ {v : BitVec 32} (h : v ≠ 0xFFFFFFFF#32) : (v + 1).toNat = v.toNat + 1 := by
  have hne : v.toNat ≠ 0xFFFFFFFF := by
    intro he
    exact h (eq_of_toNat_eq he)
  rw [toNat_add, show (1 : BitVec 32).toNat = 1 from rfl]
  omega

/-- What one access of a call can do: the counter stays, or the call has none
and is handed the session's, which was not the last. -/
theorem EncryptCall.step_cases (hs : SessionOk s₀ s) (ht : CallOk s₀ s.out t) :
    SessionOk s₀ (t.step s).1 ∧ CallOk s₀ (t.step s).1.out (t.step s).2 ∧
    (((t.step s).1.out = s.out ∧ (t.step s).2.counter = t.counter) ∨
      (t.counter = none ∧ s.out ≠ 0xFFFFFFFF#32 ∧ (t.step s).1.out = s.out + 1 ∧
        (t.step s).2.counter = some s.out)) := by
  obtain ⟨header, secFlags, plaintext, counter, pc⟩ := t
  cases pc with
  | start =>
    have hn := ht.start rfl
    subst hn
    cases hc : s.closed
    · simp only [EncryptCall.step, hc, Bool.false_eq_true, if_false]
      refine ⟨hs, ⟨nofun, nofun, nofun, fun _ => rfl, nofun, nofun, nofun⟩, .inl ⟨trivial, trivial⟩⟩
    · simp only [EncryptCall.step, hc, if_true]
      refine ⟨hs, ⟨nofun, nofun, nofun, nofun, nofun, nofun, nofun⟩, .inl ⟨trivial, trivial⟩⟩
  | load =>
    have hn := ht.load rfl
    subst hn
    by_cases hmax : s.out = 0xFFFFFFFF#32
    · simp only [EncryptCall.step, if_pos hmax]
      refine ⟨hs, ⟨nofun, nofun, nofun, nofun, nofun, nofun, nofun⟩, .inl ⟨trivial, trivial⟩⟩
    simp only [EncryptCall.step, if_neg hmax]
    refine ⟨hs, ⟨nofun, nofun, nofun, nofun, ?_, nofun, nofun⟩, .inl ⟨trivial, trivial⟩⟩
    intro cur hcur
    cases hcur
    exact ⟨rfl, hmax⟩
  | cas cur =>
    obtain ⟨hn, hmax⟩ := ht.cas cur rfl
    subst hn
    by_cases heq : s.out = cur
    · subst heq
      have hsucc := toNat_succ hmax
      have hlow := hs.lower
      simp only [EncryptCall.step, if_true]
      refine ⟨⟨hs.node, hs.cipher, ?_⟩, ⟨?_, ?_, nofun, nofun, nofun, ?_, nofun⟩,
        .inr ⟨trivial, hmax, trivial, trivial⟩⟩
      · show s₀.out.toNat ≤ (s.out + 1).toNat
        omega
      · intro c hc
        cases hc
        exact hlow
      · intro c hc
        cases hc
        show s.out.toNat < (s.out + 1).toNat
        omega
      · intro c hc
        cases hc
        rfl
    · simp only [EncryptCall.step, if_neg heq]
      refine ⟨hs, ⟨nofun, nofun, nofun, fun _ => rfl, nofun, nofun, nofun⟩, .inl ⟨trivial, trivial⟩⟩
  | sealing c =>
    have hc := ht.sealing c rfl
    subst hc
    simp only [EncryptCall.step]
    refine ⟨hs, ⟨ht.lower, ht.upper, nofun, nofun, nofun, nofun, ?_⟩, .inl ⟨trivial, trivial⟩⟩
    intro r hr
    obtain ⟨hrc, k, hk, hseal⟩ := sealWith_ok (EncryptPc.returned.inj hr)
    rw [hs.node] at hseal
    exact ⟨by rw [hrc], k, hs.cipher k hk, by rw [hrc]; exact hseal⟩
  | returned r => exact ⟨hs, ht, .inl ⟨rfl, rfl⟩⟩

theorem ClosePc.step_session (hs : SessionOk s₀ s) (pc : ClosePc) :
    SessionOk s₀ (pc.step s).1 ∧ (pc.step s).1.out = s.out := by
  cases pc with
  | start | decCipher => exact ⟨⟨hs.node, hs.cipher, hs.lower⟩, rfl⟩
  | encCipher => exact ⟨⟨hs.node, nofun, hs.lower⟩, rfl⟩
  | returned => exact ⟨hs, rfl⟩

/-! ## All calls -/

/-- Call number `i` is the call `t` of `Encrypt`. -/
def IsCall (st : Calls) (i : Nat) (t : EncryptCall) : Prop := st.calls[i]? = some (.encrypt t)

/-- The calls on a session that started as `s₀`. -/
structure Inv (s₀ : Session) (st : Calls) : Prop where
  session : SessionOk s₀ st.session
  call : ∀ i t, IsCall st i t → CallOk s₀ st.session.out t
  distinct : ∀ i j t u c, IsCall st i t → IsCall st j u → t.counter = some c → u.counter = some c → i = j

theorem inv_new (s : Session) : Inv s ⟨s, []⟩ where
  session := ⟨rfl, fun _ h => h, Nat.le_refl _⟩
  call := by
    intro i t h
    simp [IsCall] at h
  distinct := by
    intro i j t u c h
    simp [IsCall] at h

theorem isCall_append {c : Call} (h : IsCall ⟨s, cs ++ [c]⟩ i t) :
    IsCall ⟨s, cs⟩ i t ∨ (i = cs.length ∧ c = .encrypt t) := by
  unfold IsCall at *
  simp only [List.getElem?_append] at h
  split at h
  · exact .inl h
  next hi =>
  rw [List.getElem?_singleton] at h
  split at h
  · exact .inr ⟨by omega, Option.some.inj h⟩
  · cases h

theorem isCall_set {s' : Session} {c : Call} {j : Nat} (h : IsCall ⟨s', cs.set i c⟩ j t) :
    (j ≠ i ∧ IsCall ⟨s, cs⟩ j t) ∨ (j = i ∧ c = .encrypt t) := by
  unfold IsCall at *
  simp only [List.getElem?_set] at h
  split at h
  · next he =>
    split at h
    · exact .inr ⟨he.symm, Option.some.inj h⟩
    · cases h
  · next hne => exact .inl ⟨fun he => hne he.symm, h⟩

/-- One access of one `Encrypt`. A counter that is handed out is the
session's, and those handed out before lie below it. -/
theorem step_inv_encrypt (h : Inv s₀ ⟨s, cs⟩) (hk : IsCall ⟨s, cs⟩ k t) :
    Inv s₀ ⟨(t.step s).1, cs.set k (.encrypt (t.step s).2)⟩ := by
  obtain ⟨hs, ht, hcases⟩ := EncryptCall.step_cases h.session (h.call k t hk)
  have hle : s.out.toNat ≤ (t.step s).1.out.toNat := by
    rcases hcases with ⟨ho, _⟩ | ⟨_, hmax, ho, _⟩
    · rw [ho]
    · rw [ho, toNat_succ hmax]
      exact Nat.le_succ _
  -- what the stepping call holds after the step, no other call holds
  have hnew : ∀ j u c, j ≠ k → IsCall ⟨s, cs⟩ j u → u.counter = some c → (t.step s).2.counter ≠ some c := by
    intro j u c hj hu hc he
    rcases hcases with ⟨_, hsame⟩ | ⟨_, _, _, hgot⟩
    · exact hj (h.distinct j k u t c hu hk hc (hsame ▸ he))
    have := (h.call j u hu).upper c hc
    rw [hgot] at he
    cases he
    exact Nat.lt_irrefl _ this
  refine ⟨hs, ?_, ?_⟩
  · intro i u hi
    rcases isCall_set hi with ⟨_, hi⟩ | ⟨_, hu⟩
    · exact (h.call i u hi).mono hle
    · cases hu
      exact ht
  · intro i j u v c hi hj hc hd
    rcases isCall_set hi with ⟨hik, hi'⟩ | ⟨hik, hu⟩
    · rcases isCall_set hj with ⟨_, hj'⟩ | ⟨_, hv⟩
      · exact h.distinct i j u v c hi' hj' hc hd
      · cases hv
        exact absurd hd (hnew i u c hik hi' hc)
    · rcases isCall_set hj with ⟨hjk, hj'⟩ | ⟨hjk, hv⟩
      · cases hu
        exact absurd hc (hnew j v c hjk hj' hd)
      · exact hik.trans hjk.symm

/-- Calls that are new, or stay as they are, and have no counter of their own
keep the invariant. -/
theorem Inv.of_calls (h : Inv s₀ st) (hs : SessionOk s₀ st'.session) (hout : st'.session.out = st.session.out)
    (hcalls : ∀ i t, IsCall st' i t → IsCall st i t ∨ (CallOk s₀ st.session.out t ∧ t.counter = none)) :
    Inv s₀ st' := by
  refine ⟨hs, ?_, ?_⟩
  · intro i t hi
    rw [hout]
    rcases hcalls i t hi with hi | ⟨ht, _⟩
    · exact h.call i t hi
    · exact ht
  · intro i j t u c hi hj hc hd
    rcases hcalls i t hi with hi | ⟨_, ht⟩
    · rcases hcalls j u hj with hj | ⟨_, hu⟩
      · exact h.distinct i j t u c hi hj hc hd
      · rw [hu] at hd
        cases hd
    · rw [ht] at hc
      cases hc

theorem step_inv (st : Calls) (e : Event) (st' : Calls) (h : Inv s₀ st) (hstep : callSystem.step st e = some st') :
    Inv s₀ st' := by
  cases e with
  | encrypt header secFlags plaintext =>
    cases hstep
    refine h.of_calls h.session rfl fun i t hi => ?_
    rcases isCall_append hi with hi | ⟨_, ht⟩
    · exact .inl hi
    · cases ht
      exact .inr ⟨⟨nofun, nofun, fun _ => rfl, nofun, nofun, nofun, nofun⟩, rfl⟩
  | close =>
    cases hstep
    refine h.of_calls h.session rfl fun i t hi => ?_
    rcases isCall_append hi with hi | ⟨_, ht⟩
    · exact .inl hi
    · cases ht
  | step k =>
    simp only [callSystem, Calls.step] at hstep
    split at hstep
    · cases hstep
    · next t hk =>
      cases hstep
      exact step_inv_encrypt h hk
    next pc hk =>
    cases hstep
    obtain ⟨hs, hout⟩ := ClosePc.step_session h.session pc
    refine h.of_calls hs hout fun i t hi => ?_
    rcases isCall_set hi with ⟨_, hi⟩ | ⟨_, ht⟩
    · exact .inl hi
    · cases ht

/-! ## After the last counter -/

/-- How many more steps a call without a counter takes once the session's
counter stands at its last value. -/
def stepsLeft : EncryptPc → Nat
  | .start => 2
  | .load => 1
  | .cas _ => 2
  | .sealing _ => 0
  | .returned _ => 0

/-- The session's counter stands at its last value, call `i` has no counter
and has taken `n` of the two steps it may need. -/
structure Exhausted (s₀ : Session) (i n : Nat) (st : Calls) : Prop where
  inv : Inv s₀ st
  out : st.session.out = 0xFFFFFFFF#32
  none : ∀ t, IsCall st i t → t.counter = none
  left : ∀ t, IsCall st i t → stepsLeft t.pc ≤ 2 - n
  unmade : st.calls.length ≤ i → n = 0

/-- A call without a counter, on an exhausted session: it gets none, and is a
step closer to its return. -/
theorem EncryptCall.step_exhausted (hs : SessionOk s₀ s) (ht : CallOk s₀ s.out t) (hout : s.out = 0xFFFFFFFF#32)
    (hn : t.counter = none) : (t.step s).2.counter = none ∧ stepsLeft (t.step s).2.pc ≤ stepsLeft t.pc - 1 := by
  obtain ⟨_, _, hcases⟩ := EncryptCall.step_cases hs ht
  refine ⟨?_, ?_⟩
  · rcases hcases with ⟨_, hc⟩ | ⟨_, hmax, _⟩
    · rw [hc, hn]
    · exact absurd hout hmax
  obtain ⟨header, secFlags, plaintext, counter, pc⟩ := t
  cases pc with
  | start =>
    simp only [EncryptCall.step]
    split <;> simp [stepsLeft]
  | load =>
    simp [EncryptCall.step, if_pos hout, stepsLeft]
  | cas cur =>
    have hne : s.out ≠ cur := fun he => (ht.cas cur rfl).2 (he ▸ hout)
    simp [EncryptCall.step, if_neg hne, stepsLeft]
  | sealing c | returned r => exact Nat.le_refl _

theorem isCall_lt (h : IsCall st i t) : i < st.calls.length :=
  (List.getElem?_eq_some_iff.1 h).1

theorem Exhausted.of_call (hinv : Inv s₀ st) (hout : st.session.out = 0xFFFFFFFF#32)
    (hcall : ∀ t, IsCall st i t → t.counter = .none ∧ stepsLeft t.pc ≤ 2 - n)
    (hunmade : st.calls.length ≤ i → n = 0) : Exhausted s₀ i n st :=
  ⟨hinv, hout, fun t ht => (hcall t ht).1, fun t ht => (hcall t ht).2, hunmade⟩

theorem step_exhausted_encrypt (h : Exhausted s₀ i n ⟨s, cs⟩) (hk : IsCall ⟨s, cs⟩ k t)
    (hinv : Inv s₀ ⟨(t.step s).1, cs.set k (.encrypt (t.step s).2)⟩) :
    Exhausted s₀ i (n + [Event.step k].count (.step i))
      ⟨(t.step s).1, cs.set k (.encrypt (t.step s).2)⟩ := by
  have hout : (t.step s).1.out = 0xFFFFFFFF#32 := by
    rcases (EncryptCall.step_cases h.inv.session (h.inv.call k t hk)).2.2 with ⟨ho, _⟩ | ⟨_, hmax, _⟩
    · exact ho.trans h.out
    · exact absurd h.out hmax
  have hlt := isCall_lt hk
  by_cases hik : i = k
  · subst hik
    obtain ⟨hc, hl⟩ :=
      EncryptCall.step_exhausted (s := s) h.inv.session (h.inv.call i t hk) h.out (h.none t hk)
    have hleft := h.left t hk
    refine .of_call hinv hout (fun u hu => ?_) fun hle => ?_
    · rcases isCall_set (s := s) hu with ⟨hne, _⟩ | ⟨_, hu⟩
      · exact absurd rfl hne
      cases hu
      refine ⟨hc, ?_⟩
      simp only [List.count_singleton_self]
      omega
    · simp only [List.length_set] at hle
      exact absurd hlt (Nat.not_lt.2 hle)
  · have hne : k ≠ i := Ne.symm hik
    refine .of_call hinv hout (fun u hu => ?_) fun hle => ?_
    · rcases isCall_set hu with ⟨_, hu⟩ | ⟨he, _⟩
      · exact ⟨h.none u hu, by simpa [hne] using h.left u hu⟩
      · exact absurd he hik
    · simp only [List.length_set] at hle
      simpa [hne] using h.unmade hle

theorem step_exhausted {e : Event} (h : Exhausted s₀ i n st) (hstep : callSystem.step st e = some st') :
    Exhausted s₀ i (n + [e].count (.step i)) st' := by
  have hinv := step_inv st e st' h.inv hstep
  obtain ⟨s, cs⟩ := st
  cases e with
  | encrypt header secFlags plaintext =>
    cases hstep
    refine .of_call hinv h.out (fun t hi => ?_) fun hl => ?_
    · rcases isCall_append hi with hi | ⟨rfl, ht⟩
      · exact ⟨h.none t hi, by simpa using h.left t hi⟩
      · cases ht
        exact ⟨rfl, by simp [stepsLeft, h.unmade (Nat.le_refl _)]⟩
    · simpa using h.unmade (Nat.le_of_succ_le (by simpa using hl))
  | close =>
    cases hstep
    refine .of_call hinv h.out (fun t hi => ?_) fun hl => ?_
    · rcases isCall_append hi with hi | ⟨_, ht⟩
      · exact ⟨h.none t hi, by simpa using h.left t hi⟩
      · cases ht
    · simpa using h.unmade (Nat.le_of_succ_le (by simpa using hl))
  | step k =>
    simp only [callSystem, Calls.step] at hstep
    split at hstep
    · cases hstep
    · next t hk =>
      cases hstep
      exact step_exhausted_encrypt h hk hinv
    next pc hk =>
    cases hstep
    obtain ⟨_, hout⟩ := ClosePc.step_session h.inv.session pc
    have hlt : k < cs.length := (List.getElem?_eq_some_iff.1 hk).1
    refine .of_call hinv (hout.trans h.out) (fun t hi => ?_) fun hl => ?_
    · rcases isCall_set hi with ⟨hne, hi⟩ | ⟨_, ht⟩
      · exact ⟨h.none t hi, by simpa [Ne.symm hne] using h.left t hi⟩
      · cases ht
    · simp only [List.length_set] at hl
      have hne : k ≠ i := by omega
      simpa [hne] using h.unmade hl

theorem run_exhausted {es : List Event} (h : Exhausted s₀ i n st) (hrun : callSystem.run st es = some st') :
    Exhausted s₀ i (n + es.count (.step i)) st' := by
  induction es generalizing st n with
  | nil => exact Option.some.inj hrun ▸ h
  | cons e es ih =>
    obtain ⟨t, ht, hrun⟩ := System.run_cons.1 hrun
    have := ih (step_exhausted h ht) hrun
    rwa [Nat.add_assoc, ← List.count_append] at this

/-- A call that has no counter when the session's stands at its last value
does not succeed, and after two steps of its own has failed. -/
theorem Exhausted.fails (h : Exhausted s₀ i n st) (ht : IsCall st i t) :
    (∀ r, t.pc ≠ .returned (.ok r)) ∧ (2 ≤ n → ∃ e, t.pc = .returned (.error e)) := by
  have hok := h.inv.call i t ht
  have hn := h.none t ht
  have hsucc : ∀ r, t.pc ≠ .returned (.ok r) := by
    intro r hr
    rw [(hok.sealed r hr).1] at hn
    cases hn
  refine ⟨hsucc, ?_⟩
  intro h2
  have hl := h.left t ht
  cases hpc : t.pc with
  | start | load | cas cur => rw [hpc, stepsLeft] at hl; omega
  | sealing c =>
    rw [hok.sealing c hpc] at hn
    cases hn
  | returned r =>
    cases r with
    | error e => exact ⟨e, rfl⟩
    | ok r => exact absurd hpc (hsucc r)

/-! ## Every interleaving -/

theorem run_inv {es : List Event} (h : callSystem.run ⟨s, []⟩ es = some st) : Inv s st :=
  System.run_invariant step_inv (inv_new s) h

/-- A counter from the last two values on has been handed out: the session's
counter stands at its last value. -/
theorem Inv.out_eq_last (h : Inv s₀ st) (ht : IsCall st i t) (hc : t.counter = some c)
    (hlast : 2 ^ 32 - 2 ≤ c.toNat) : st.session.out = 0xFFFFFFFF#32 := by
  have hlt := (h.call i t ht).upper c hc
  refine eq_of_toNat_eq ?_
  simp only [toNat_ofNat]
  omega

/-- Counters and nonces of a session, in every interleaving of `Encrypt` and
`Close` calls, access by access. Every counter handed out lies between the
session's first and its current counter, and no two calls, failed ones
included, are handed the same; so two calls that succeed sealed under
different nonces of the session's own node. From where the last value is
reached, no call that has no counter yet succeeds, and each returns an error
after at most two steps of its own. -/
theorem encrypt_counters_unique (s : Session) (es : List Event) (st : Calls)
    (h : callSystem.run ⟨s, []⟩ es = some st) :
    (∀ i j t u c, i ≠ j → IsCall st i t → IsCall st j u → t.counter = some c → u.counter ≠ some c) ∧
    (∀ i t r, IsCall st i t → t.pc = .returned (.ok r) →
      t.counter = some r.counter ∧ ∃ k, s.encCipher = some k ∧
        k.seal [] (buildNonce t.secFlags r.counter s.localNodeID) t.plaintext t.header.marshal =
          .ok r.ciphertext) ∧
    (∀ i j t u r q, i ≠ j → IsCall st i t → IsCall st j u → t.pc = .returned (.ok r) →
      u.pc = .returned (.ok q) → r.counter ≠ q.counter ∧
        buildNonce t.secFlags r.counter s.localNodeID ≠ buildNonce u.secFlags q.counter s.localNodeID) ∧
    (∀ i t c, IsCall st i t → t.counter = some c →
      s.out.toNat ≤ c.toNat ∧ c.toNat < st.session.out.toNat) ∧
    ((st.session.out = 0xFFFFFFFF#32 ∨
        ∃ i t c, IsCall st i t ∧ t.counter = some c ∧ 2 ^ 32 - 2 ≤ c.toNat) →
      ∀ fs st' i t', callSystem.run st fs = some st' → (∀ t, IsCall st i t → t.counter = none) →
        IsCall st' i t' → t'.counter = none ∧ (∀ r, t'.pc ≠ .returned (.ok r)) ∧
          (2 ≤ fs.count (.step i) → ∃ e, t'.pc = .returned (.error e))) := by
  have hinv := run_inv h
  have hdistinct : ∀ i j t u c, i ≠ j → IsCall st i t → IsCall st j u → t.counter = some c →
      u.counter ≠ some c := by
    intro i j t u c hij hi hj hc hd
    exact hij (hinv.distinct i j t u c hi hj hc hd)
  refine ⟨hdistinct, ?_, ?_, ?_, ?_⟩
  · intro i t r hi hr
    exact (hinv.call i t hi).sealed r hr
  · intro i j t u r q hij hi hj hr hq
    have hc := ((hinv.call i t hi).sealed r hr).1
    have hd := ((hinv.call j u hj).sealed q hq).1
    have hne : r.counter ≠ q.counter := by
      intro he
      exact hdistinct i j t u r.counter hij hi hj hc (he ▸ hd)
    exact ⟨hne, fun he => hne (buildNonce_inj he).2.1⟩
  · intro i t c hi hc
    exact ⟨(hinv.call i t hi).lower c hc, (hinv.call i t hi).upper c hc⟩
  intro hlast fs st' i t' hrun hnone ht'
  have hout : st.session.out = 0xFFFFFFFF#32 := by
    rcases hlast with hout | ⟨j, u, c, hj, hc, hle⟩
    · exact hout
    · exact hinv.out_eq_last hj hc hle
  have hex : Exhausted s i 0 st := by
    refine ⟨hinv, hout, hnone, ?_, fun _ => rfl⟩
    intro t _
    cases t.pc <;> simp [stepsLeft]
  have hex' := run_exhausted hex hrun
  rw [Nat.zero_add] at hex'
  exact ⟨hex'.none t' ht', hex'.fails ht'⟩

/-- Two calls race for the counter of a session that has one value left. -/
theorem encrypt_counters_unique_race :
    let s : Session := ⟨some ⟨id⟩, some ⟨id⟩, 1, 2, 0xFFFFFFFE#32, newWindowNoRollover, false⟩
    let call : Event := .encrypt .zero 0 [1, 2, 3]
    let es : List Event := [call, call, .step 0, .step 1, .step 0, .step 1, .step 0, .step 1]
    ∃ st, callSystem.run ⟨s, []⟩ es = some st ∧ st.session.out = 0xFFFFFFFF#32 ∧
      ∀ st' t, callSystem.run st [.step 1, .step 1] = some st' → IsCall st' 1 t →
        ∃ e, t.pc = .returned (.error e) := by
  intro s call es
  refine ⟨_, rfl, rfl, ?_⟩
  intro st' t hrun ht
  refine ((encrypt_counters_unique s es _ rfl).2.2.2.2 (.inl rfl) _ st' 1 t hrun ?_ ht).2.2 (by decide)
  intro u hu
  cases hu
  rfl

end GF.Proof.Channel
