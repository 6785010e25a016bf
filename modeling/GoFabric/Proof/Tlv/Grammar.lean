import GoFabric.Proof.Tlv.Elements

/-!
# What `Validate` accepts

`Next` reads the bytes of one element and fails on all others (`next_cases`), so the loop of
`Validate` goes over the bytes as the strict grammar is built up. With containers open, what is left
has to close them one by one (`Closing`).

* `validate_strict`: `Validate` accepts the strict grammar, in which a string that is cut has a
  length that `RawLength` can hold.
-/

namespace GF.Proof.Tlv

open GF.Impl.Tlv GF.Impl.Tlv.Decoder GF.Spec.Tlv List

variable {n w : Nat} {bs : List Byte} {kind : TagKind} {t : ElementType} {el : Element}

/-! ## The loop -/

/-- What has to follow when these containers are open. -/
def Closing : List ElementType → List Byte → Prop
  | [], bs => Strict Cuttable none bs
  | t :: containers, bs => ∃ members rest, bs = members ++ (endWire ++ rest) ∧ Strict Cuttable (some t) members ∧
      Closing containers rest

variable {ts : List ElementType} {rest : List Byte}

theorem Closing.scalar (h : ElementWire Cuttable kind t bs) (ha : Allowed ts.head? kind) (ho : opens t = false)
    (hc : Closing ts rest) : Closing ts (bs ++ rest) := by
  cases ts with
  | nil => exact .scalar h ha ho hc
  | cons c ts =>
    obtain ⟨members, rest', rfl, hm, hc⟩ := hc
    exact ⟨bs ++ members, rest', by simp, .scalar h ha ho hm, hc⟩

theorem Closing.container (h : ElementWire Cuttable kind t bs) (ha : Allowed ts.head? kind) (ho : opens t = true)
    (hc : Closing (t :: ts) rest) : Closing ts (bs ++ rest) := by
  obtain ⟨members, rest', rfl, hm, hc⟩ := hc
  cases ts with
  | nil => exact .container h ha ho hm hc
  | cons c ts =>
    obtain ⟨members', rest', rfl, hm', hc⟩ := hc
    exact ⟨bs ++ (members ++ (endWire ++ members')), rest', by simp, .container h ha ho hm hm', hc⟩

/-- What follows begins with an element, or it ends the innermost container. -/
theorem Closing.cases (h : Closing ts rest) : (rest = [] ∧ ts = []) ∨
    (∃ c cs after, ts = c :: cs ∧ rest = endWire ++ after ∧ Closing cs after) ∨
    ∃ kind t bs after, rest = bs ++ after ∧ ElementWire Cuttable kind t bs ∧ Allowed ts.head? kind ∧
      Closing (if opens t then t :: ts else ts) after := by
  cases ts with
  | nil =>
    cases h with
    | nil => exact .inl ⟨rfl, rfl⟩
    | scalar hw ha ho h => exact .inr (.inr ⟨_, _, _, _, rfl, hw, ha, by rw [ho]; exact h⟩)
    | container hw ha ho hm h => exact .inr (.inr ⟨_, _, _, _, rfl, hw, ha, by rw [ho]; exact ⟨_, _, rfl, hm, h⟩⟩)
  | cons c cs =>
    obtain ⟨members, after, rfl, hm, h⟩ := h
    cases hm with
    | nil => exact .inr (.inl ⟨c, cs, after, rfl, rfl, h⟩)
    | scalar hw ha ho hm =>
      exact .inr (.inr ⟨_, _, _, _, append_assoc .., hw, ha, by rw [ho]; exact ⟨_, _, rfl, hm, h⟩⟩)
    | container hw ha ho hm hm' =>
      refine .inr (.inr ⟨_, _, _, _, append_assoc .., hw, ha, ?_⟩)
      rw [ho]
      exact ⟨_, _, by simp [endWire], hm, _, _, rfl, hm', h⟩

section Loop

variable {fuel : Nat} {before after : List Byte}

theorem next_turn (h : Reads next bs el) (before after : List Byte) :
    remaining ⟨before ++ (bs ++ after), before.length⟩ ≠ 0 ∧
      next ⟨before ++ (bs ++ after), before.length⟩ = (.ok el, ⟨before ++ bs ++ after, (before ++ bs).length⟩) := by
  have hlen := length_pos_iff.2 fun hnil : bs = [] => reads_next_ne_nil (hnil ▸ h)
  constructor
  · simp only [remaining, length_append]
    omega
  · rw [← append_assoc, h before after, length_append]

theorem validateFrom_end : validateFrom (fuel + 1) ts ⟨before ++ (endWire ++ after), before.length⟩ =
    match ts with
    | [] => .error (.endOutside (before ++ endWire).length)
    | _ :: cs => validateFrom fuel cs ⟨before ++ endWire ++ after, (before ++ endWire).length⟩ := by
  obtain ⟨hrem, hrun⟩ := next_turn reads_end before after
  rw [validateFrom, if_neg hrem, hrun]
  rfl

theorem validateFrom_element (h : ElementWire Cuttable kind t bs) :
    (Allowed ts.head? kind →
      validateFrom (fuel + 1) ts ⟨before ++ (bs ++ after), before.length⟩ =
        validateFrom fuel (if opens t then t :: ts else ts)
          ⟨before ++ bs ++ after, (before ++ bs).length⟩) ∧
    (¬ Allowed ts.head? kind →
      ∃ e, validateFrom (fuel + 1) ts ⟨before ++ (bs ++ after), before.length⟩ = .error e) := by
  obtain ⟨el, hr, rfl, rfl, hopen, hend, -⟩ := reads_of_wire h
  obtain ⟨hrem, hrun⟩ := next_turn hr before after
  have hend : el.isEndContainer = false := by
    obtain ⟨_, _, -, -, hvalue⟩ := h
    rw [hend, beq_eq_false_iff_ne]
    intro ht
    rw [ht] at hvalue
    exact hvalue
  rw [validateFrom, if_neg hrem, hrun]
  simp only [hend, Bool.false_eq_true, if_false, hopen]
  constructor
  · rintro ⟨htop, hstruct, harray⟩
    rw [if_neg (fun h => htop (by rw [h.1]; rfl) h.2), if_neg fun h => hstruct h.1 h.2,
      if_neg fun h => h.2 (harray h.1)]
  intro ha
  split
  · exact ⟨_, rfl⟩
  split
  · exact ⟨_, rfl⟩
  split
  · exact ⟨_, rfl⟩
  · rename_i h1 h2 h3
    exact absurd ⟨fun h hk => h1 ⟨List.head?_eq_none_iff.1 h, hk⟩, fun h hk => h2 ⟨h, hk⟩,
      fun h => not_not.1 fun hk => h3 ⟨h, hk⟩⟩ ha

/-- What the loop accepts closes the containers. -/
theorem closing_of_ok (hf : rest.length < fuel) (h : validateFrom fuel ts ⟨before ++ rest, before.length⟩ = .ok ()) :
    Closing ts rest := by
  induction fuel generalizing ts before rest with
  | zero => omega
  | succ fuel ih =>
    by_cases hrest : rest = []
    · subst hrest
      rw [validateFrom, if_pos (by simp [remaining])] at h
      split at h
      · rename_i hnil
        rw [hnil]
        exact .nil
      · cases h
    · rcases next_cases before rest with ⟨e, k, -, he⟩ | ⟨after, rfl⟩ | ⟨kind, t, bs, after, rfl, hw⟩
      · have hlen := length_pos_iff.2 hrest
        rw [validateFrom, if_neg (by simp only [remaining, length_append]; omega), he] at h
        cases h
      · rw [validateFrom_end] at h
        cases ts with
        | nil => cases h
        | cons c cs => exact ⟨[], after, rfl, .nil, ih (Nat.lt_of_succ_lt_succ hf) h⟩
      · by_cases ha : Allowed ts.head? kind
        · rw [(validateFrom_element hw).1 ha] at h
          have hlen : after.length < fuel := by
            obtain ⟨_, _, rfl, -⟩ := hw
            simp only [length_append, length_cons] at hf
            omega
          have hc := ih hlen h
          cases ho : opens t with
          | false => exact Closing.scalar hw ha ho (by simpa [ho] using hc)
          | true => exact Closing.container hw ha ho (by simpa [ho] using hc)
        · obtain ⟨e, he⟩ := (validateFrom_element hw).2 ha
          cases he.symm.trans h

theorem ok_of_closing (hf : rest.length < fuel) (h : Closing ts rest) :
    validateFrom fuel ts ⟨before ++ rest, before.length⟩ = .ok () := by
  induction fuel generalizing ts before rest with
  | zero => omega
  | succ fuel ih =>
    rcases h.cases with ⟨rfl, rfl⟩ | ⟨c, cs, after, rfl, rfl, hc⟩ | ⟨kind, t, bs, after, rfl, hw, ha, hc⟩
    · rw [validateFrom, if_pos (by simp [remaining])]
      rfl
    · rw [validateFrom_end]
      exact ih (Nat.lt_of_succ_lt_succ hf) hc
    · rw [(validateFrom_element hw).1 ha]
      obtain ⟨_, _, rfl, -⟩ := hw
      exact ih (by simp only [length_append, length_cons] at hf; omega) hc

end Loop

/-- Complete elements are what `Next` returns one by one. -/
theorem exists_reads {parent : Option ElementType} (h : Strict Cuttable parent bs) : ∃ els, Spells bs els := by
  induction h with
  | nil => exact ⟨[], .nil⟩
  | scalar hw _ _ _ ih =>
    obtain ⟨el, hr, -⟩ := reads_of_wire hw
    obtain ⟨els, hs⟩ := ih
    exact ⟨el :: els, .cons hr hs⟩
  | container hw _ _ _ _ ihm ih =>
    obtain ⟨el, hr, -⟩ := reads_of_wire hw
    obtain ⟨members, hm⟩ := ihm
    obtain ⟨els, hs⟩ := ih
    exact ⟨_, .cons hr (Spells.append hm (.cons reads_end hs))⟩

theorem reads_times_of_spells {els : List Element} (h : Spells bs els) : Reads (next.times els.length) bs els := by
  induction h with
  | nil => exact Reads.pure []
  | cons hr _ ih => exact hr.bind (ih.bind_pure rfl)

/-- `Validate` accepts the strict grammar, and `Next` goes over what it accepts. -/
theorem validate_strict (b : List Byte) :
    (validate b = .ok () ↔ Strict Cuttable none b) ∧
    (∀ pos, pos ≤ b.length → ∃ r pos', next ⟨b, pos⟩ = (r, ⟨b, pos'⟩) ∧ pos ≤ pos' ∧ pos' ≤ b.length ∧
      ∀ el, r = .ok el → pos < pos') ∧
    (validate b = .ok () → ∃ els, next.times els.length (Decoder.new b) = (.ok els, ⟨b, b.length⟩)) := by
  have hiff : validate b = .ok () ↔ Strict Cuttable none b :=
    ⟨@closing_of_ok [] b _ [] (Nat.lt_succ_self _), @ok_of_closing [] b _ [] (Nat.lt_succ_self _)⟩
  refine ⟨hiff, fun pos hp => ?_, fun h => ?_⟩
  · obtain ⟨r, pos', hrun, hle, hlen, hok⟩ := next_within hp
    exact ⟨r, pos', hrun, hle, hlen, fun el h => (hok el h).1⟩
  obtain ⟨els, hs⟩ := exists_reads (hiff.1 h)
  have hread := reads_times_of_spells hs [] []
  exact ⟨els, by simpa [Decoder.new] using hread⟩

/-- An element with the text. -/
def textElement (n : Nat) : List Byte :=
  controlByte .anonymous .utf8Str8 :: (leBytes 8 (longText n).length ++ longText n)

theorem textElement_refused {n : Nat} (h32 : 2 ^ 32 ≤ n) (h64 : n + 1 < 2 ^ 64) :
    Strict (fun _ => True) none (textElement n) ∧ ∃ e, validate (textElement n) = .error e := by
  obtain ⟨hl, -⟩ := longText_spec n
  have hwire : ElementWire (fun _ => True) .anonymous .utf8Str8 (textElement n) :=
    ⟨[], _, rfl, rfl, longText n, rfl, by omega, trivial⟩
  constructor
  · have h : Strict (fun _ => True) none (textElement n ++ []) :=
      .scalar hwire ⟨fun _ => nofun, nofun, nofun⟩ rfl .nil
    rwa [List.append_nil] at h
  obtain ⟨err, hfail⟩ := fails_longText (w := 8) h32 (by omega) h64 { tag := anonymousTag, type := .utf8Str8 }
  have hnext := fails_element (t := .utf8Str8) (by decide) readable_anonymous hfail [] []
  rw [List.append_nil] at hnext
  have hnext : (next (Decoder.new (textElement n))).1 = .error err := hnext
  refine ⟨.next err, ?_⟩
  unfold validate
  rw [validateFrom, if_neg (by exact Nat.succ_ne_zero _)]
  split
  · rename_i h
    rw [h] at hnext
    rw [Except.error.inj hnext]
  · rename_i h
    rw [h] at hnext
    cases hnext

/-- A string of 2³² + 1 code units that is cut is a complete element, and is refused. -/
theorem validate_longText : Strict (fun _ => True) none (textElement (2 ^ 32)) ∧
    ∃ e, validate (textElement (2 ^ 32)) = .error e := textElement_refused (Nat.le_refl _) (by decide)

end GF.Proof.Tlv
