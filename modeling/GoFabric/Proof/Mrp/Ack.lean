import GoFabric.Framework.AList
import GoFabric.Spec.Acks

/-!
# No acknowledgement is lost

At every moment the obligations begun are those pending, those displaced and those that a
call took out, each counted once (`Accounted`). Every call moves obligations from one of
these groups to another.
-/

namespace GF.Proof.Mrp

open GF.Impl.Mrp GF.Spec.Acks List

/-! ## The table -/

section Table

variable {p : AList fun _ : ExchangeKey => AckObligation} {key : ExchangeKey}

/-- The obligation of an exchange, and the others. -/
theorem count_owedIn (p : AList fun _ : ExchangeKey => AckObligation) (key : ExchangeKey) (x : Owed) :
    (owedIn p).count x =
      ((p.lookup key).map fun obl => (key, obl.ackCounter)).toList.count x + (owedIn (p.erase key)).count x := by
  cases hl : p.lookup key with
  | none =>
    have herase : (p.erase key).entries = p.entries := kerase_of_notMem_keys (AList.lookup_eq_none.mp hl)
    rw [owedIn, owedIn, herase]
    exact (Nat.zero_add _).symm
  | some obl =>
    obtain ⟨obl', l₁, l₂, -, hentries, herase⟩ := exists_of_kerase (AList.lookup_isSome.mp (by rw [hl]; rfl))
    have hobl : p.lookup key = some obl' := AList.mem_lookup_iff.mpr (by rw [hentries]; simp)
    rw [hl] at hobl
    rw [owedIn, owedIn, hentries, show (p.erase key).entries = l₁ ++ l₂ from herase, hobl, ← count_append]
    exact (perm_middle.map _).count_eq x

theorem owedIn_insert (p : AList fun _ : ExchangeKey => AckObligation) (key : ExchangeKey) (obl : AckObligation) :
    owedIn (p.insert key obl) = (key, obl.ackCounter) :: owedIn (p.erase key) := rfl

/-- An obligation is stored under its exchange. -/
def Keyed (p : AList fun _ : ExchangeKey => AckObligation) : Prop := ∀ k obl, p.lookup k = some obl → obl.key = k

theorem Keyed.erase (h : Keyed p) (key : ExchangeKey) : Keyed (p.erase key) := fun k obl hl =>
  h k obl (lookup_erase_some.1 hl).2

theorem Keyed.insert (h : Keyed p) {obl : AckObligation} (hobl : obl.key = key) : Keyed (p.insert key obl) :=
  fun k obl' hl => by
    obtain ⟨rfl, rfl⟩ | ⟨-, hl⟩ := lookup_insert_some.1 hl
    · exact hobl
    · exact h k obl' hl

/-- The loop of `Due` moves obligations from the table to what it returns. -/
theorem due_loop (now : Int) (es : List (Sigma fun _ : ExchangeKey => AckObligation)) (hes : es.NodupKeys)
    (out : List AckObligation) (hkeyed : Keyed p) (hin : ∀ e ∈ es, p.lookup e.1 = some e.2) :
    let r := es.foldl (fun (acc : List AckObligation × AList fun _ : ExchangeKey => AckObligation) e =>
      if now < e.2.dueAt then acc else (acc.1 ++ [e.2], acc.2.erase e.1)) (out, p)
    Keyed r.2 ∧ out <+: r.1 ∧
      ∀ x, (r.1.map owedOf).count x + (owedIn r.2).count x = (out.map owedOf).count x + (owedIn p).count x := by
  induction es generalizing out p with
  | nil => exact ⟨hkeyed, prefix_refl _, fun _ => rfl⟩
  | cons e es ih =>
    obtain ⟨hnew, hes⟩ := nodupKeys_cons.mp hes
    have htail : ∀ x ∈ es, p.lookup x.1 = some x.2 := fun x hx => hin x (mem_cons_of_mem _ hx)
    simp only [foldl_cons]
    by_cases hlt : now < e.2.dueAt
    · rw [if_pos hlt]
      exact ih hes out hkeyed htail
    have hl := hin e mem_cons_self
    rw [if_neg hlt]
    obtain ⟨h1, h2, h3⟩ := ih hes (out ++ [e.2]) (hkeyed.erase e.1) fun x hx => by
      have hne : x.1 ≠ e.1 := fun he => hnew (he ▸ mem_keys_of_mem hx)
      rw [AList.lookup_erase_ne hne]
      exact htail x hx
    refine ⟨h1, (prefix_append out _).trans h2, fun x => ?_⟩
    have hx := h3 x
    have hp := count_owedIn p e.1 x
    rw [map_append, count_append, map_singleton, show owedOf e.2 = (e.1, e.2.ackCounter) from
      Prod.ext (hkeyed e.1 e.2 hl) rfl] at hx
    rw [hl, Option.map_some, Option.toList_some] at hp
    omega

end Table

/-! ## The account -/

/-- What was begun is pending, displaced or taken out, each in one of these. -/
structure Accounted (a : Account) : Prop where
  keyed : Keyed a.tracker.pending
  count : ∀ x, a.begun.count x = (owedIn a.tracker.pending).count x + (a.tracker.displaced.map owedOf).count x +
    a.collected.count x + a.lookedUp.count x + a.discharged.count x

theorem accounted_new (delay : Int) : Accounted (Account.new delay) :=
  ⟨fun k _ hl => (by cases hl),
    fun _ => rfl⟩

namespace Accounted

variable {a : Account}

/-- `Owe` of a counter that is not pending. -/
theorem begins (h : Accounted a) {c : BitVec 32} {key : ExchangeKey} (now : Int)
    (hnew : pendingOn a.tracker key ≠ some (key, c)) :
    Accounted { a with tracker := a.tracker.owe c key now, begun := (key, c) :: a.begun } := by
  have hp := count_owedIn a.tracker.pending key
  simp only [AckTracker.owe]
  split
  · rename_i prev hl
    have hc : prev.ackCounter ≠ c := fun hc => hnew (by rw [pendingOn, hl, ← hc]; rfl)
    have hkey : owedOf { prev with dueAt := 0 } = (key, prev.ackCounter) := Prod.ext (h.keyed key prev hl) rfl
    rw [if_neg hc]
    refine ⟨h.keyed.insert rfl, fun x => ?_⟩
    have hx := h.count x
    have hp := hp x
    simp only [hl, Option.map_some, Option.toList_some, owedIn_insert, count_cons, map_append,
      map_singleton, hkey, count_append] at hp ⊢
    omega
  · rename_i hl
    refine ⟨h.keyed.insert rfl, fun x => ?_⟩
    have hx := h.count x
    have hp := hp x
    simp only [hl, Option.map_none, Option.toList_none, owedIn_insert, count_cons, count_nil] at hp ⊢
    omega

/-- A call takes the obligation of the exchange out of the table. -/
theorem takes (h : Accounted a) (key : ExchangeKey) {a' : Account}
    (ht : a'.tracker = { a.tracker with pending := a.tracker.pending.erase key }) (hb : a'.begun = a.begun)
    (hout : ∀ x, a'.collected.count x + a'.lookedUp.count x + a'.discharged.count x =
      (pendingOn a.tracker key).toList.count x + a.collected.count x + a.lookedUp.count x + a.discharged.count x) :
    Accounted a' := by
  refine ⟨by rw [ht]; exact h.keyed.erase key, fun x => ?_⟩
  have hx := h.count x
  have hp := count_owedIn a.tracker.pending key x
  have hx' := hout x
  rw [pendingOn] at hx'
  simp only [hb, ht]
  omega

theorem step (h : Accounted a) (call : AckCall) : Accounted (a.step call) := by
  cases call with
  | owe c key now =>
    by_cases hp : pendingOn a.tracker key = some (key, c)
    · have hsame : a.tracker.owe c key now = a.tracker := by
        obtain ⟨obl, hl, he⟩ := Option.map_eq_some_iff.mp hp
        simp only [AckTracker.owe, hl, if_pos (congrArg Prod.snd he)]
      simp only [Account.step, ackMachine, if_pos hp, hsame]
      exact h
    · simp only [Account.step, if_neg hp]
      exact h.begins now hp
  | discharge key =>
    cases hl : a.tracker.pending.lookup key with
    | none =>
      simp only [Account.step, ackMachine, AckTracker.discharge, hl]
      exact h
    | some obl =>
      simp only [Account.step, ackMachine, AckTracker.discharge, hl]
      refine h.takes key rfl rfl fun x => ?_
      simp only [count_append]
      omega
  | lookupAndDischarge key =>
    cases hl : a.tracker.pending.lookup key with
    | none =>
      simp only [Account.step, ackMachine, AckTracker.lookupAndDischarge, hl]
      exact h
    | some obl =>
      simp only [Account.step, ackMachine, AckTracker.lookupAndDischarge, hl]
      refine h.takes key rfl rfl fun x => ?_
      simp only [pendingOn, hl, Option.map_some, Option.toList_some, count_cons, count_nil]
      omega
  | expediteDue key =>
    cases hl : a.tracker.pending.lookup key with
    | none =>
      simp only [Account.step, ackMachine, AckTracker.expediteDue, hl]
      exact h
    | some obl =>
      simp only [Account.step, ackMachine, AckTracker.expediteDue, hl]
      refine ⟨h.keyed.insert (h.keyed key obl hl), fun x => ?_⟩
      have hx := h.count x
      have hp := count_owedIn a.tracker.pending key x
      simp only [hl, Option.map_some, Option.toList_some, owedIn_insert, count_cons, count_nil] at hp ⊢
      omega
  | due now =>
    obtain ⟨hkeyed, -, hcount⟩ := due_loop now a.tracker.pending.entries a.tracker.pending.nodupKeys a.tracker.displaced
      h.keyed fun e he => AList.mem_lookup_iff.mpr he
    refine ⟨hkeyed, fun x => ?_⟩
    have hx := h.count x
    have hc := hcount x
    simp only [Account.step, ackMachine, AckTracker.due, map_nil, count_nil, count_append]
    omega

theorem run (h : Accounted a) (calls : List AckCall) : Accounted (a.run calls) := by
  induction calls generalizing a with
  | nil => exact h
  | cons call calls ih => exact ih (h.step call)

end Accounted

/-- After every run of calls: an obligation begun is pending, displaced, returned by `Due`,
returned by `LookupAndDischarge` or removed by `Discharge`, counted once; each exchange has
at most one pending; `Owe` leaves its counter pending, and changes nothing if it was; and
what is displaced is returned by the next `Due`, whatever its time. -/
theorem acks_accounted (delay : Int) (calls : List AckCall) :
    let a := (Account.new delay).run calls
    (∀ x, a.begun.count x = (owedIn a.tracker.pending).count x + (a.tracker.displaced.map owedOf).count x +
        a.collected.count x + a.lookedUp.count x + a.discharged.count x) ∧
      ((owedIn a.tracker.pending).map Prod.fst).Nodup ∧
      (∀ c key now, pendingOn (a.tracker.owe c key now) key = some (key, c) ∧
        (pendingOn a.tracker key = some (key, c) → a.tracker.owe c key now = a.tracker)) ∧
      ∀ now, a.tracker.displaced <+: (a.tracker.due now).1 ∧ (a.tracker.due now).2.displaced = [] := by
  have h := (accounted_new delay).run calls
  intro a
  refine ⟨h.count, ?_, fun c key now => ?_, fun now => ⟨?_, rfl⟩⟩
  · rw [owedIn, map_map]
    exact a.tracker.pending.nodupKeys
  · cases hl : a.tracker.pending.lookup key with
    | none => simp [AckTracker.owe, pendingOn, hl]
    | some obl =>
      by_cases hc : obl.ackCounter = c
      · simp [AckTracker.owe, pendingOn, hl, hc]
      · simp [AckTracker.owe, pendingOn, hl, hc]
  · exact (due_loop now a.tracker.pending.entries a.tracker.pending.nodupKeys a.tracker.displaced h.keyed
      fun e he => AList.mem_lookup_iff.mpr he).2.1

/-- A displaced counter is not pending and was not returned to anyone: `Owe` returns nothing, and no `Due` was
called. -/
theorem owe_displaced_waits :
    let key : ExchangeKey := ⟨1, 7, false⟩
    let calls : List AckCall := [.owe 1 key 10, .owe 2 key 11]
    let a := (Account.new 5).run calls
    ackMachine.outputs (newAckTracker 5) calls = [.nothing, .nothing] ∧ a.begun = [(key, 2), (key, 1)] ∧
      owedIn a.tracker.pending = [(key, 2)] ∧ a.tracker.displaced.map owedOf = [(key, 1)] := by
  decide

end GF.Proof.Mrp
