import GoFabric.Spec.GroupCounter

/-!
# The group data counter survives crashes

As long as fewer than 2^32 - 1001 calls of `next` fail in a row, a node is a
ledger of positions: what `next` hands out is above everything before it and
not above the mark in the store (`Inv.step`), so the positions increase over
all its crashes.
-/

namespace GF.Proof.Groups

open GF.Impl.Groups GF.Spec.GroupCounter List Option

variable {t t' : Traced} {w : Write} {random : Option (BitVec 32)} {e : CounterEvent}

/-! ## What a step can do -/

/-- The mark that `reserveAhead` stores at a position. -/
def markAt (position : Nat) : Nat := min (position % 2 ^ 32 + groupDataCounterReserve) maxCounterValue

/-- The position of that mark. -/
def ceilingAt (position : Nat) : Nat := markPosition position (markAt position)

theorem ceilingAt_spec (q : Nat) :
    q ≤ ceilingAt q ∧ ceilingAt q ≤ q + groupDataCounterReserve ∧ markAt q = ceilingAt q % 2 ^ 32 ∧
      groupDataCounterReserve ≤ markAt q ∧ markAt q ≤ maxCounterValue := by
  unfold ceilingAt markPosition markAt groupDataCounterReserve maxCounterValue
  omega

/-- Only the last value before the wrap is its own mark. -/
theorem lt_ceilingAt {q : Nat} (h : q % 2 ^ 32 ≠ maxCounterValue) : q < ceilingAt q ∧ q % 2 ^ 32 < markAt q := by
  unfold ceilingAt markPosition markAt groupDataCounterReserve maxCounterValue at *
  omega

theorem ceilingAt_mono (q : Nat) : ceilingAt q ≤ ceilingAt (q + 1) := by
  unfold ceilingAt markPosition markAt maxCounterValue
  omega

/-- What holds of a node and its positions: the values are the positions modulo
2^32; the counter has not come round to the window below its mark again. -/
structure Inv (t : Traced) : Prop where
  fresh : t.node.stored = none → t.node.counter = none ∧ t.log = [] ∧ t.ceiling = 0
  invalid : ∀ v, t.node.stored = some v → maxCounterValue < v → t.node.counter = none
  stored : ∀ v, t.node.stored = some v → v ≤ maxCounterValue → v = t.ceiling % 2 ^ 32
  counter : ∀ c, t.node.counter = some c →
    c.value = t.position % 2 ^ 32 ∧ c.reserved = t.mark % 2 ^ 32 ∧ groupDataCounterReserve ≤ c.reserved
  window : ∀ c, t.node.counter = some c → t.mark ≤ t.position + groupDataCounterReserve ∧
    t.position ≤ t.mark + t.failures ∧ ∀ h ∈ t.log, h.position ≤ t.position
  ceiling : ∀ c, t.node.counter = some c →
    t.ceiling = t.mark ∨ (t.mark ≤ t.position ∧ t.mark ≤ t.ceiling ∧ t.ceiling ≤ ceilingAt t.position)

/-- What `next` does: it hands out a value of its window, or reserves one and
hands it out, or fails at that. -/
theorem next_cases (hi : Inv t) (hf : FewFailures t) (h : t.step (.next w) = some t') :
    ∃ c, t.node.counter = some c ∧
      let q := t.position + 1
      let c' : DataCounter := { c with value := q % 2 ^ 32 }
      let ceiling := ceilingAt q
      (q < t.mark ∧ t' = { t with
          node := { t.node with counter := some c' }, position := q, failures := 0,
          log := t.log ++ [⟨q, BitVec.ofNat 32 (q % 2 ^ 32), t.node.stored, t.ceiling⟩] }) ∨
      (t.mark ≤ q ∧ t' =
        { node := { stored := some (markAt q), counter := some { c' with reserved := markAt q } }, position := q,
          mark := ceiling, ceiling, failures := 0,
          log := t.log ++ [⟨q, BitVec.ofNat 32 (q % 2 ^ 32), some (markAt q), ceiling⟩] }) ∨
      (t.mark ≤ q ∧ ∃ durable crashed : Bool, t' = { t with
          node := { stored := if durable then some (markAt q) else t.node.stored,
                    counter := if crashed then none else some c' },
          position := q, ceiling := if durable then ceiling else t.ceiling, failures := t.failures + 1 }) := by
  cases hc : t.node.counter with
  | none =>
    simp only [Traced.step, Node.step, hc] at h
    cases h
  | some c =>
    refine ⟨c, rfl, ?_⟩
    obtain ⟨hv, hr, hres⟩ := hi.counter c hc
    obtain ⟨hm1, hm2, -⟩ := hi.window c hc
    have hf : t.failures < 2 ^ 32 - 1001 := hf
    simp only [groupDataCounterReserve] at hres hm1
    -- the value that follows, and when it is outside of the window
    have hvalue : (if c.value + 1 > maxCounterValue then 0 else c.value + 1) = (t.position + 1) % 2 ^ 32 := by
      unfold maxCounterValue
      split <;> omega
    have hout : ((t.position + 1) % 2 ^ 32 ≥ c.reserved ∨
        (t.position + 1) % 2 ^ 32 + groupDataCounterReserve < c.reserved) ↔ t.mark ≤ t.position + 1 := by
      unfold groupDataCounterReserve
      omega
    simp only [Traced.step, Node.step, hc, DataCounter.next, hvalue] at h
    by_cases hq : t.mark ≤ t.position + 1
    · refine .inr ?_
      simp only [if_pos (hout.2 hq), DataCounter.reserveAhead] at h
      cases w with
      | ok =>
        refine .inl ⟨hq, ?_⟩
        exact (some.inj h).symm
      | failed durable =>
        refine .inr ⟨hq, durable, false, ?_⟩
        cases durable <;> exact (some.inj h).symm
      | crashed durable =>
        refine .inr ⟨hq, durable, true, ?_⟩
        cases durable <;> exact (some.inj h).symm
    · refine .inl ⟨by omega, ?_⟩
      simp only [if_neg (fun ho => hq (hout.1 ho))] at h
      exact (some.inj h).symm

/-- `newDataCounter` fails before it writes, or reserves from the value in the
store or the random start. -/
theorem newDataCounter_cases (stored : Option Nat) (load : Bool) (random : Option (BitVec 32)) (w : Write) :
    (∃ e, newDataCounter stored load random w = (.error e, none)) ∨
      ∃ v, newDataCounter stored load random w = DataCounter.reserveAhead ⟨v, 0⟩ w ∧
        ((stored = some v ∧ v ≤ maxCounterValue) ∨ (stored = none ∧ v = (random.getD 0).toNat)) := by
  unfold newDataCounter
  split
  · exact .inl ⟨.load, rfl⟩
  split
  · rename_i v
    split
    · exact .inl ⟨.invalidValue v, rfl⟩
    · rename_i hle
      exact .inr ⟨v, rfl, .inl ⟨rfl, Nat.le_of_not_lt hle⟩⟩
  · split
    · exact .inl ⟨.seed, rfl⟩
    · rename_i start
      exact .inr ⟨start.toNat, rfl, .inr ⟨rfl, rfl⟩⟩

/-- Where a start that reserves takes the counter from. -/
theorem startPosition_mod {v : Nat} (hi : Inv t)
    (hv : (t.node.stored = some v ∧ v ≤ maxCounterValue) ∨ (t.node.stored = none ∧ v = (random.getD 0).toNat)) :
    v = startPosition t random % 2 ^ 32 ∧ t.ceiling ≤ startPosition t random := by
  unfold startPosition
  obtain ⟨hs, hle⟩ | ⟨hs, rfl⟩ := hv
  · rw [hs]
    exact ⟨hi.stored v hs hle, Nat.le_refl _⟩
  · rw [hs, (hi.fresh hs).2.2]
    exact ⟨(Nat.mod_eq_of_lt (random.getD 0).isLt).symm, Nat.zero_le _⟩

/-- What a start does: nothing, or it stores a mark ahead of where it starts,
and the counter is there when that is reported. -/
theorem start_cases {load : Bool} (hi : Inv t) (h : t.step (.start load random w) = some t') :
    t.node.counter = none ∧
      let b := startPosition t random
      let ceiling := ceilingAt b
      (t' = { t with position := b, mark := t.ceiling, failures := 0 }) ∨
      (t.ceiling ≤ b ∧ ∃ reported : Bool, t' = { t with
          node := { stored := some (markAt b),
                    counter := if reported then some { value := b % 2 ^ 32, reserved := markAt b } else none },
          position := b, mark := ceiling, ceiling, failures := 0 }) := by
  cases hc : t.node.counter with
  | some c =>
    simp only [Traced.step, Node.step, hc] at h
    cases h
  | none =>
    have hnode : t.node = ⟨t.node.stored, none⟩ := by rw [← hc]
    refine ⟨rfl, ?_⟩
    obtain ⟨e, hnew⟩ | ⟨v, hnew, hv⟩ := newDataCounter_cases t.node.stored load random w
    · refine .inl ?_
      simp only [Traced.step, Node.step, hc, hnew] at h
      rw [← some.inj h, hnode]
      rfl
    · obtain ⟨rfl, hle⟩ := startPosition_mod hi hv
      simp only [Traced.step, Node.step, hc, hnew, DataCounter.reserveAhead] at h
      cases w with
      | ok => exact .inr ⟨hle, true, (some.inj h).symm⟩
      | failed durable | crashed durable =>
        cases durable with
        | true => exact .inr ⟨hle, false, (some.inj h).symm⟩
        | false =>
          refine .inl ?_
          rw [← some.inj h, hnode]
          rfl

/-! ## What every step keeps -/

theorem inv_init (stored : Option Nat) : Inv (Traced.init stored) where
  fresh := by
    intro h
    obtain rfl : stored = none := h
    exact ⟨rfl, rfl, rfl⟩
  invalid _ _ _ := rfl
  stored := by
    intro v h hle
    obtain rfl : stored = some v := h
    show v = v % 2 ^ 32
    unfold maxCounterValue at hle
    omega
  counter := nofun
  window := nofun
  ceiling := nofun

theorem mem_log_append {log : List Handed} {e : Handed} {q : Nat} (hlog : ∀ h ∈ log, h.position ≤ q)
    (he : e.position = q) : ∀ h ∈ log ++ [e], h.position ≤ q := by
  intro h hh
  obtain hh | hh := mem_append.1 hh
  · exact hlog h hh
  · rw [mem_singleton.1 hh, he]

theorem Inv.next (hi : Inv t) (hf : FewFailures t) (h : t.step (.next w) = some t') : Inv t' := by
  obtain ⟨c, hc, hcases⟩ := next_cases hi hf h
  obtain ⟨-, hr, hres⟩ := hi.counter c hc
  obtain ⟨hm1, hm2, hlog⟩ := hi.window c hc
  have hceil := hi.ceiling c hc
  have hmono := ceilingAt_mono t.position
  obtain ⟨hq1, hq2, hq3, hq4, hq5⟩ := ceilingAt_spec (t.position + 1)
  have hlog' : ∀ h ∈ t.log, h.position ≤ t.position + 1 := fun h hh => Nat.le_succ_of_le (hlog h hh)
  have hstored : t.node.stored ≠ none := fun hn => by
    rw [(hi.fresh hn).1] at hc
    cases hc
  have hvalid : ∀ v, t.node.stored = some v → ¬maxCounterValue < v := fun v hv hlt => by
    rw [hi.invalid v hv hlt] at hc
    cases hc
  have hmark : ∀ v, some (markAt (t.position + 1)) = some v →
      ¬maxCounterValue < v ∧ v = ceilingAt (t.position + 1) % 2 ^ 32 := by
    intro v hv
    rw [← some.inj hv]
    exact ⟨Nat.not_lt.2 hq5, hq3⟩
  obtain ⟨hq, rfl⟩ | ⟨hq, rfl⟩ | ⟨hq, durable, crashed, rfl⟩ := hcases
  · refine ⟨fun hn => absurd hn hstored, fun v hv hlt => absurd hlt (hvalid v hv), hi.stored, ?_, ?_, ?_⟩
    · rintro _ ⟨⟩
      exact ⟨rfl, hr, hres⟩
    · rintro _ -
      exact ⟨by show t.mark ≤ t.position + 1 + _; omega, by show t.position + 1 ≤ t.mark + 0; omega,
        mem_log_append hlog' rfl⟩
    · rintro _ -
      exact .inl (show t.ceiling = t.mark by omega)
  · refine ⟨nofun, fun v hv hlt => absurd hlt (hmark v hv).1, fun v hv _ => (hmark v hv).2, ?_, ?_, ?_⟩
    · rintro _ ⟨⟩
      exact ⟨rfl, hq3, hq4⟩
    · rintro _ -
      exact ⟨hq2, by show t.position + 1 ≤ ceilingAt (t.position + 1) + 0; omega, mem_log_append hlog' rfl⟩
    · rintro _ -
      exact .inl rfl
  · -- the counter is as it was but for its value; the store may have the new mark
    refine ⟨?_, ?_, ?_, ?_, ?_, ?_⟩
    · cases durable
      · exact fun hn => absurd hn hstored
      · exact nofun
    · cases durable
      · exact fun v hv hlt => absurd hlt (hvalid v hv)
      · exact fun v hv hlt => absurd hlt (hmark v hv).1
    · cases durable
      · exact hi.stored
      · exact fun v hv _ => (hmark v hv).2
    all_goals cases crashed <;> rintro _ ⟨⟩
    · exact ⟨rfl, hr, hres⟩
    · exact ⟨by show t.mark ≤ t.position + 1 + _; omega, by show t.position + 1 ≤ t.mark + (t.failures + 1); omega,
        hlog'⟩
    cases durable
    · show t.ceiling = t.mark ∨ (t.mark ≤ t.position + 1 ∧ t.mark ≤ t.ceiling ∧ t.ceiling ≤ ceilingAt (t.position + 1))
      omega
    · exact .inr ⟨hq, Nat.le_trans hq hq1, Nat.le_refl _⟩

theorem Inv.start {load : Bool} (hi : Inv t) (hs : t.ledger.Sound) (h : t.step (.start load random w) = some t') :
    Inv t' := by
  obtain ⟨hc, rfl | ⟨hb, reported, rfl⟩⟩ := start_cases hi h
  · refine ⟨hi.fresh, hi.invalid, hi.stored, ?_, ?_, ?_⟩
    all_goals intro c hc'; rw [hc] at hc'; cases hc'
  obtain ⟨hq1, hq2, hq3, hq4, hq5⟩ := ceilingAt_spec (startPosition t random)
  refine ⟨nofun, ?_, ?_, ?_, ?_, ?_⟩
  · intro v hv hlt
    rw [← some.inj hv] at hlt
    omega
  · intro v hv _
    rw [← some.inj hv]
    exact hq3
  all_goals cases reported <;> rintro _ ⟨⟩
  · exact ⟨rfl, hq3, hq4⟩
  · refine ⟨hq2, by show startPosition t random ≤ ceilingAt (startPosition t random) + 0; omega, ?_⟩
    intro h hh
    exact Nat.le_trans (hs.below h.position (mem_map_of_mem hh)) hb
  · exact .inl rfl

theorem Inv.crash (hi : Inv t) (h : t.step .crash = some t') : Inv t' := by
  obtain rfl := some.inj h
  exact ⟨fun hn => ⟨rfl, (hi.fresh hn).2⟩, fun _ _ _ => rfl, hi.stored, nofun, nofun, nofun⟩

/-- A step issues positions below the ceiling and does not lower it. -/
theorem Inv.ledger (hi : Inv t) (hf : FewFailures t) (h : t.step e = some t') : t.ledger.Reaches t'.ledger := by
  cases e with
  | start load random w =>
    obtain ⟨-, rfl | ⟨hb, reported, rfl⟩⟩ := start_cases hi h
    · exact .refl
    · exact .single (.raise _ (Nat.le_trans hb (ceilingAt_spec _).1))
  | crash =>
    obtain rfl := some.inj h
    exact .refl
  | next w =>
    obtain ⟨c, hc, hcases⟩ := next_cases hi hf h
    obtain ⟨-, -, hlog⟩ := hi.window c hc
    have hceil := hi.ceiling c hc
    have hmono := ceilingAt_mono t.position
    have hq1 := (ceilingAt_spec (t.position + 1)).1
    have habove : ∀ m ∈ t.ledger.issued, m < t.position + 1 := by
      intro m hm
      obtain ⟨h, hh, rfl⟩ := mem_map.1 hm
      exact Nat.lt_succ_of_le (hlog h hh)
    have hup : t.mark ≤ t.position + 1 → t.ceiling ≤ ceilingAt (t.position + 1) := by omega
    obtain ⟨hq, rfl⟩ | ⟨hq, rfl⟩ | ⟨hq, durable, crashed, rfl⟩ := hcases
    · simp only [Traced.ledger, map_append, map_cons, map_nil]
      exact .single (.issue (t.position + 1) habove (show t.position + 1 ≤ t.ceiling by omega))
    · simp only [Traced.ledger, map_append, map_cons, map_nil]
      exact Ledger.reaches_issue (hup hq) habove hq1
    · cases durable
      · exact .refl
      · exact .single (.raise _ (hup hq))

theorem Inv.step (hi : Inv t) (hs : t.ledger.Sound) (hf : FewFailures t) (h : t.step e = some t') : Inv t' := by
  cases e with
  | start load random w => exact hi.start hs h
  | next w => exact hi.next hf h
  | crash => exact hi.crash h

theorem Inv.covered (hi : Inv t) (hf : FewFailures t) (h : t.step e = some t') (hl : ∀ a ∈ t.log, Covered a) :
    ∀ a ∈ t'.log, Covered a := by
  have happend : ∀ a : Handed, Covered a → ∀ b ∈ t.log ++ [a], Covered b := by
    intro a ha b hb
    obtain hb | hb := mem_append.1 hb
    · exact hl b hb
    · rw [mem_singleton.1 hb]
      exact ha
  cases e with
  | start load random w =>
    obtain ⟨-, rfl | ⟨-, reported, rfl⟩⟩ := start_cases hi h
    all_goals exact hl
  | crash =>
    obtain rfl := some.inj h
    exact hl
  | next w =>
    obtain ⟨c, hc, hcases⟩ := next_cases hi hf h
    have hvalue : (BitVec.ofNat 32 ((t.position + 1) % 2 ^ 32)).toNat = (t.position + 1) % 2 ^ 32 := by
      rw [BitVec.toNat_ofNat, Nat.mod_mod]
    obtain ⟨hq, rfl⟩ | ⟨hq, rfl⟩ | ⟨-, durable, crashed, rfl⟩ := hcases
    · -- in the window, the mark in the store is the reserved one
      refine happend _ ⟨hvalue, ?_⟩
      obtain ⟨-, hr, hres⟩ := hi.counter c hc
      have hw := (hi.window c hc).1
      have hceil := hi.ceiling c hc
      obtain ⟨v, hv⟩ : ∃ v, t.node.stored = some v := ne_none_iff_exists'.1 fun hn => by
        rw [(hi.fresh hn).1] at hc
        cases hc
      have hvalid : v ≤ maxCounterValue := Nat.le_of_not_lt fun hlt => by
        rw [hi.invalid v hv hlt] at hc
        cases hc
      have hmod := hi.stored v hv hvalid
      simp only [hvalue]
      refine ⟨v, hv, hmod, ?_⟩
      omega
    · refine happend _ ⟨hvalue, markAt (t.position + 1), rfl, (ceilingAt_spec _).2.2.1, ?_⟩
      have hlt := lt_ceilingAt (q := t.position + 1)
      have hle := (ceilingAt_spec (t.position + 1)).1
      simp only [hvalue]
      refine ⟨?_, hle, fun hne => ⟨(hlt hne).2, (hlt hne).1⟩⟩
      unfold markAt groupDataCounterReserve maxCounterValue
      omega
    · exact hl

/-! ## Every run -/

/-- Over every run of starts, calls, store failures and crashes in which fewer
than 2^32 - 1001 calls fail in a row, the positions handed out increase, so that
a value comes again only 2^32 positions later, and each of them was covered by
the store when it was handed out. -/
theorem group_counter_crash_safe (stored : Option Nat) (events : List CounterEvent) (t : Traced)
    (hfew : tracedSystem.Along FewFailures (Traced.init stored) events)
    (hrun : tracedSystem.run (Traced.init stored) events = some t) :
    t.log.Pairwise (fun a b => a.position < b.position ∧ (a.value = b.value → a.position + 2 ^ 32 ≤ b.position)) ∧
      ∀ a ∈ t.log, Covered a := by
  have hall : Inv t ∧ t.ledger.Sound ∧ ∀ a ∈ t.log, Covered a := by
    refine System.run_invariant_along (P := fun t => Inv t ∧ t.ledger.Sound ∧ ∀ a ∈ t.log, Covered a) ?_ hfew
      ⟨inv_init stored, ⟨List.Pairwise.nil, nofun⟩, nofun⟩ hrun
    rintro s e s' hf ⟨hi, hs, hl⟩ h
    exact ⟨hi.step hs hf h, hs.reaches (hi.ledger hf h), hi.covered hf h hl⟩
  obtain ⟨-, hs, hl⟩ := hall
  refine ⟨?_, hl⟩
  have hpos : t.log.Pairwise fun a b => a.position < b.position := pairwise_map.1 hs.increasing
  refine hpos.imp_of_mem ?_
  intro a b ha hb hlt
  refine ⟨hlt, fun hv => ?_⟩
  have hva := (hl a ha).1
  have hvb := (hl b hb).1
  rw [hv] at hva
  omega

/-- A first start, two messages, a crash, a restart and a third message. -/
def crashRun : List CounterEvent :=
  [.start true (some 5) .ok, .next .ok, .next .ok, .crash, .start true none .ok, .next .ok]

theorem group_counter_crash_safe_restart :
    (tracedSystem.run (Traced.init none) crashRun).map (fun t => t.log.map Handed.position) = some [6, 7, 1006] ∧
      ∀ t, tracedSystem.run (Traced.init none) crashRun = some t →
        t.log.Pairwise (fun a b => a.position < b.position ∧ (a.value = b.value → a.position + 2 ^ 32 ≤ b.position)) ∧
          ∀ a ∈ t.log, Covered a := by
  have hfew : tracedSystem.Along FewFailures (Traced.init none) crashRun := by decide +kernel
  exact ⟨by decide +kernel, fun t ht => group_counter_crash_safe none crashRun t hfew ht⟩

/-! ## A counter that comes round -/

/-- After the value 0xFFFFFFFF, `j + 1` calls of `next` have failed. -/
def comingRound (log : List Handed) (j : Nat) : Traced :=
  { node := { stored := some maxCounterValue, counter := some { value := j, reserved := maxCounterValue } }
    position := 2 ^ 32 + j, mark := maxCounterValue, ceiling := maxCounterValue, failures := j + 1, log := log }

theorem step_comingRound (log : List Handed) {j : Nat} (h : j + 1 + 1000 < maxCounterValue) :
    (comingRound log j).step (.next (.failed false)) = some (comingRound log (j + 1)) := by
  have hvalue : ¬j + 1 > maxCounterValue := by omega
  have hout : j + 1 ≥ maxCounterValue ∨ j + 1 + groupDataCounterReserve < maxCounterValue := .inr h
  simp only [Traced.step, Node.step, comingRound, DataCounter.next, if_neg hvalue, if_pos hout,
    DataCounter.reserveAhead]
  rfl

theorem run_comingRound (log : List Handed) (k : Nat) (h : k + 1000 < maxCounterValue) :
    tracedSystem.run (comingRound log 0) (List.replicate k (.next (.failed false))) = some (comingRound log k) := by
  induction k with
  | zero => rfl
  | succ k ih =>
    rw [replicate_succ', System.run_append_of (ih (by omega))]
    exact System.run_cons.2 ⟨comingRound log (k + 1), step_comingRound log h, rfl⟩

/-- A node that hands out 0xFFFFFFFF, fails 2^32 - 1001 times, hands out a value,
crashes and hands out another. -/
def longFailure : List CounterEvent :=
  [.start true none .ok, .next .ok, .next (.failed false)] ++ List.replicate (2 ^ 32 - 1002) (.next (.failed false)) ++
    [.next .ok, .crash, .start true none .ok, .next .ok]

/-- What it handed out: a value with no mark above it, one that is behind it and
covered by no new mark, and, after the crash, the one that followed the first. -/
def longFailureLog : List Handed :=
  [⟨2 ^ 32 - 1, 0xFFFFFFFF, some 0xFFFFFFFF, 2 ^ 32 - 1⟩,
    ⟨2 ^ 32 + (2 ^ 32 - 1001), 0xFFFFFC17, some 0xFFFFFFFF, 2 ^ 32 - 1⟩,
    ⟨2 ^ 32, 0, some 1000, 2 ^ 32 + 1000⟩]

/-- The mark in the store is not above the value 0xFFFFFFFF; and after 2^32 - 1001
failures in a row positions go backwards. -/
theorem group_counter_comes_round :
    (tracedSystem.run (Traced.init (some 0xFFFFFFFE)) longFailure).map Traced.log = some longFailureLog ∧
      ¬longFailureLog.Pairwise (fun a b => a.position < b.position) ∧
      ∃ a ∈ longFailureLog, ∀ m, a.stored = some m → ¬a.value.toNat < m := by
  refine ⟨?_, by decide, _, mem_cons_self, by rintro m ⟨⟩; decide⟩
  have hfirst : tracedSystem.run (Traced.init (some 0xFFFFFFFE))
      [.start true none .ok, .next .ok, .next (.failed false)] =
        some (comingRound [⟨2 ^ 32 - 1, 0xFFFFFFFF, some 0xFFFFFFFF, 2 ^ 32 - 1⟩] 0) := by decide +kernel
  have hround := run_comingRound [⟨2 ^ 32 - 1, 0xFFFFFFFF, some 0xFFFFFFFF, 2 ^ 32 - 1⟩] (2 ^ 32 - 1002) (by decide)
  rw [longFailure, append_assoc, System.run_append_of hfirst, System.run_append_of hround]
  decide +kernel

end GF.Proof.Groups
