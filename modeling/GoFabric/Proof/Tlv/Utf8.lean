import GoFabric.Spec.Tlv

/-!
# Replacing ill-formed UTF-8

`decodeUTF8` is its loop on every string (`decodeUTF8_eq`), since the loop
copies a well-formed one. What it writes is well formed (`valid_replaced`), so
replacing twice is replacing once (`decodeUTF8_idem`). A byte below 0x80 is
never part of a longer sequence, so the replacement may be cut at one before
or after (`decodeUTF8_cut`).
-/

namespace GF.Proof.Tlv

open GF.Impl.Tlv GF.Spec.Tlv List

variable {need : Nat} {lower upper c : Byte} {rest s : List Byte}

/-! ## Sequences -/

theorem continued_le_length (need : Nat) (lower upper : Byte) (rest : List Byte) :
    continued need lower upper rest ≤ rest.length := by
  induction need generalizing lower upper rest with
  | zero => exact Nat.zero_le _
  | succ need ih =>
    cases rest with
    | nil => exact Nat.le_refl 0
    | cons b rest =>
      rw [continued]
      split
      · exact Nat.zero_le _
      · exact Nat.succ_le_succ (ih _ _ _)

/-- Whether a sequence is continued depends on its own bytes alone. -/
theorem continued_append (h : continued need lower upper rest = need) (after : List Byte) :
    continued need lower upper (rest.take need ++ after) = need := by
  induction need generalizing lower upper rest with
  | zero => rfl
  | succ need ih =>
    cases rest with
    | nil => exact absurd h (Nat.succ_ne_zero need).symm
    | cons b rest =>
      rw [continued] at h
      rw [take_succ_cons, cons_append, continued]
      split at h
      · exact absurd h (Nat.succ_ne_zero need).symm
      · rename_i hb
        rw [if_neg hb, ih (Nat.succ.inj h)]

/-- The bytes that continue a sequence are 0x80 or above. -/
theorem continued_high (hl : 0x80 ≤ lower) : ∀ b ∈ rest.take (continued need lower upper rest), 0x80 ≤ b := by
  induction need generalizing lower upper rest with
  | zero => exact fun b hb => absurd hb not_mem_nil
  | succ need ih =>
    cases rest with
    | nil => exact fun b hb => absurd hb (by exact not_mem_nil)
    | cons b rest =>
      rw [continued]
      split_ifs with hb
      · exact fun b hb => absurd hb not_mem_nil
      refine forall_mem_cons.mpr ⟨?_, ih (by decide)⟩
      have hlow : lower ≤ b := BitVec.not_lt.mp fun h => hb (.inl h)
      exact BitVec.le_trans hl hlow

theorem leadByte_lower (h : leadByte c = some (need, lower, upper)) : 0x80 ≤ lower := by
  have hall : ∀ c : Byte, ∀ p ∈ leadByte c, (0x80 : Byte) ≤ p.2.1 := by decide +kernel
  exact hall c _ h

/-! ## The loop on well-formed strings -/

/-- At a well-formed sequence the loop copies what `DecodeRune` reads. -/
theorem replaceStep_of_isSome (h : (decodeRune c rest).1.isSome = true) :
    replaceStep c rest = (c :: rest.take (decodeRune c rest).2, (decodeRune c rest).2) := by
  unfold decodeRune at h ⊢
  unfold replaceStep
  split_ifs at h with hc
  · rw [if_pos hc, if_pos hc]
    rfl
  rw [if_neg hc, if_neg hc]
  cases hl : leadByte c with
  | none => rw [hl] at h; exact absurd h Bool.false_ne_true
  | some p =>
    rw [hl] at h
    dsimp only at h ⊢
    split_ifs at h with hn
    · rw [if_pos hn, if_pos hn, hn]
    · exact absurd h Bool.false_ne_true

theorem utf8Valid_cons (c : Byte) (rest : List Byte) :
    utf8Valid (c :: rest) = ((decodeRune c rest).1.isSome && utf8Valid (rest.drop (decodeRune c rest).2)) := by
  unfold utf8Valid
  rw [chunks_cons, all_cons]

theorem replaced_of_valid (h : utf8Valid s = true) : (chunks replaceStep s).flatten = s := by
  induction s using chunk_induction fun c rest => (decodeRune c rest).2 with
  | nil => rfl
  | cons c rest ih =>
    rw [utf8Valid_cons, Bool.and_eq_true] at h
    rw [chunks_cons, replaceStep_of_isSome h.1, flatten_cons, ih h.2, cons_append,
      take_append_drop]

theorem decodeUTF8_eq (s : List Byte) : decodeUTF8 s = (chunks replaceStep s).flatten := by
  unfold decodeUTF8
  split_ifs with h
  · exact (replaced_of_valid h).symm
  · rfl

/-! ## What the loop writes -/

theorem replaceStep_cases (c : Byte) (rest : List Byte) :
    (c < 0x80 ∧ replaceStep c rest = ([c], 0)) ∨
    (0x80 ≤ c ∧ ∃ need lower upper, leadByte c = some (need, lower, upper) ∧
      continued need lower upper rest = need ∧ replaceStep c rest = (c :: rest.take need, need)) ∨
    (0x80 ≤ c ∧ leadByte c = none ∧ replaceStep c rest = (runeError, 0)) ∨
    (0x80 ≤ c ∧ ∃ need lower upper, leadByte c = some (need, lower, upper) ∧
      continued need lower upper rest ≠ need ∧
      replaceStep c rest = (runeError, continued need lower upper rest)) := by
  unfold replaceStep
  by_cases hc : c < 0x80
  · exact .inl ⟨hc, if_pos hc⟩
  have hc' : 0x80 ≤ c := BitVec.not_lt.mp hc
  rw [if_neg hc]
  cases hl : leadByte c with
  | none => exact .inr (.inr (.inl ⟨hc', rfl, rfl⟩))
  | some p =>
    obtain ⟨need, lower, upper⟩ := p
    dsimp only
    by_cases hn : continued need lower upper rest = need
    · exact .inr (.inl ⟨hc', need, lower, upper, rfl, hn, by rw [if_pos hn, hn]⟩)
    · exact .inr (.inr (.inr ⟨hc', need, lower, upper, rfl, hn, if_neg hn⟩))

/-- What a turn takes in is one byte below 0x80, or bytes above. -/
theorem replaceStep_high (rest : List Byte) (hc : 0x80 ≤ c) : ∀ b ∈ rest.take (replaceStep c rest).2, 0x80 ≤ b := by
  obtain ⟨hlow, -⟩ | ⟨-, need, lower, upper, hl, hn, hs⟩ | ⟨-, -, hs⟩ | ⟨-, need, lower, upper, hl, -, hs⟩ :=
    replaceStep_cases c rest
  · exact absurd hlow (BitVec.not_lt.mpr hc)
  · rw [hs, ← hn]
    exact continued_high (leadByte_lower hl)
  · rw [hs]
    exact fun b hb => absurd hb not_mem_nil
  · rw [hs]
    exact continued_high (leadByte_lower hl)

theorem decodeRune_of_continued (hc : 0x80 ≤ c) (hl : leadByte c = some (need, lower, upper))
    (hn : continued need lower upper rest = need) :
    decodeRune c rest = (some (runeOf c (rest.take need)), need) := by
  unfold decodeRune
  rw [if_neg (BitVec.not_lt.mpr hc), hl]
  exact if_pos hn

/-- What a turn writes is one rune for `DecodeRune`. -/
theorem decodeRune_replaced (c : Byte) (rest after : List Byte) :
    utf8Valid ((replaceStep c rest).1 ++ after) = utf8Valid after := by
  have error : utf8Valid (runeError ++ after) = utf8Valid after := by
    show utf8Valid (0xEF :: 0xBF :: 0xBD :: after) = _
    rw [utf8Valid_cons]
    rfl
  obtain ⟨hlow, hs⟩ | ⟨hc, need, lower, upper, hl, hn, hs⟩ | ⟨-, -, hs⟩ | ⟨-, need, lower, upper, hl, -, hs⟩ :=
    replaceStep_cases c rest
  · have hr : decodeRune c after = (some c.toNat, 0) := if_pos hlow
    rw [hs, singleton_append, utf8Valid_cons, hr]
    rfl
  · have hlen : (rest.take need).length = need := by
      rw [length_take, ← hn]
      exact Nat.min_eq_left (continued_le_length _ _ _ _)
    rw [hs, cons_append, utf8Valid_cons, decodeRune_of_continued hc hl (continued_append hn after),
      drop_left' hlen]
    rfl
  · rw [hs]
    exact error
  · rw [hs]
    exact error

/-- The replacement is well formed. -/
theorem valid_replaced (s : List Byte) : utf8Valid (decodeUTF8 s) = true := by
  rw [decodeUTF8_eq]
  induction s using chunk_induction fun c rest => (replaceStep c rest).2 with
  | nil => rfl
  | cons c rest ih => rw [chunks_cons, flatten_cons, decodeRune_replaced, ih]

theorem decodeUTF8_of_valid (h : utf8Valid s = true) : decodeUTF8 s = s := if_pos h

theorem decodeUTF8_idem (s : List Byte) : decodeUTF8 (decodeUTF8 s) = decodeUTF8 s :=
  decodeUTF8_of_valid (valid_replaced s)

theorem validUTF8_eq (s : List Byte) : validUTF8 s = decodeUTF8 s := by
  unfold validUTF8
  split_ifs with h
  · exact (decodeUTF8_of_valid h).symm
  · rfl

theorem behind_eq (c : Byte) : behind c = if c < 0x80 then [[]] else
    (leadByte c).toList.map fun q => (q.2 :: replicate q.1 (0x80, 0xBF)).take q.1 := by
  decide +kernel +revert

theorem within_eq (need : Nat) (first : Byte × Byte) (rest : List Byte) :
    within ((first :: replicate need (0x80, 0xBF)).take need) rest = continued need first.1 first.2 rest := by
  induction need generalizing first rest with
  | zero => rfl
  | succ need ih =>
    rw [take_succ_cons, replicate_succ]
    cases rest with
    | nil => rfl
    | cons b rest =>
      rw [within, continued, ih]
      simp only [← BitVec.not_lt, ← not_or, ite_not]

/-- A turn of the loop replaces as the sequences say. -/
theorem repairStep_eq (c : Byte) (rest : List Byte) : repairStep c rest = replaceStep c rest := by
  unfold repairStep replaceStep
  rw [behind_eq]
  by_cases hc : c < 0x80
  · rw [if_pos hc, if_pos hc]
    exact if_pos ⟨[], mem_singleton_self [], rfl⟩
  rw [if_neg hc, if_neg hc]
  cases leadByte c with
  | none => rfl
  | some q =>
    have hlen : ((q.2 :: replicate q.1 (0x80, 0xBF)).take q.1).length = q.1 := by
      rw [length_take, length_cons, length_replicate, Nat.min_eq_left (Nat.le_succ _)]
    simp only [Option.toList_some, map_cons, map_nil, foldr, mem_singleton, exists_eq_left, within_eq, hlen,
      Nat.max_zero]
    rfl

theorem repaired_eq (s : List Byte) : repaired s = decodeUTF8 s := by
  rw [decodeUTF8_eq, repaired, funext₂ repairStep_eq]

/-! ## Cutting at an IS1 -/

theorem runeError_text : (0x1F : Byte) ∉ runeError := by decide

theorem mem_replaceStep (c : Byte) (rest : List Byte) :
    0x1F ∈ (replaceStep c rest).1 ↔ 0x1F ∈ c :: rest.take (replaceStep c rest).2 := by
  have high {c : Byte} {l : List Byte} (hc : 0x80 ≤ c) (hl : ∀ b ∈ l, 0x80 ≤ b) : (0x1F : Byte) ∉ c :: l := by
    intro h
    have := forall_mem_cons.mpr ⟨hc, hl⟩ _ h
    exact absurd this (by decide)
  have hsteps := replaceStep_cases c rest
  by_cases hc : 0x80 ≤ c
  · have hh := replaceStep_high rest hc
    refine iff_of_false ?_ (high hc hh)
    obtain ⟨hlow, -⟩ | ⟨-, need, lower, upper, -, -, hs⟩ | ⟨-, -, hs⟩ | ⟨-, need, lower, upper, -, -, hs⟩ := hsteps
    · exact absurd hlow (BitVec.not_lt.mpr hc)
    · rw [hs] at hh ⊢
      exact high hc hh
    · rw [hs]
      exact runeError_text
    · rw [hs]
      exact runeError_text
  · have hs : replaceStep c rest = ([c], 0) := if_pos (BitVec.not_le.mp hc)
    rw [hs]
    rfl

theorem mem_decodeUTF8 (s : List Byte) : 0x1F ∈ decodeUTF8 s ↔ 0x1F ∈ s := by
  rw [decodeUTF8_eq]
  induction s using chunk_induction fun c rest => (replaceStep c rest).2 with
  | nil => rfl
  | cons c rest ih =>
    rw [chunks_cons, flatten_cons, mem_append, mem_replaceStep, ih, ← mem_append,
      cons_append, take_append_drop]

theorem findIdx?_of_mem (h : 0x1F ∈ s) : s.findIdx? (· == 0x1F) = some (s.findIdx (· == 0x1F)) :=
  List.findIdx?_eq_some_iff_findIdx_eq.mpr
    ⟨findIdx_lt_length_of_exists ⟨0x1F, h, beq_self_eq_true _⟩, rfl⟩

theorem textOf_eq_take (s : List Byte) : textOf s = s.take (s.findIdx (· == 0x1F)) := by
  unfold textOf
  rw [takeWhile_eq_take_findIdx_not]
  congr 2
  funext b
  exact Bool.not_not _

theorem textOf_append {l : List Byte} (h : 0x1F ∉ l) (after : List Byte) :
    textOf (l ++ after) = l ++ textOf after := by
  refine takeWhile_append_of_pos fun b hb => bne_iff_ne.mpr ?_
  rintro rfl
  exact h hb

theorem continued_textOf (rest : List Byte) (hl : 0x80 ≤ lower) :
    continued need lower upper (textOf rest) = continued need lower upper rest := by
  induction need generalizing lower upper rest with
  | zero => rfl
  | succ need ih =>
    cases rest with
    | nil => rfl
    | cons b rest =>
      by_cases hb : b = 0x1F
      · have hlow : b < lower := by
          bv_omega
        have ht : textOf (b :: rest) = [] := by rw [hb]; rfl
        rw [ht, continued, continued, if_pos (.inl hlow)]
      · have ht : textOf (b :: rest) = b :: textOf rest := takeWhile_cons_of_pos (bne_iff_ne.mpr hb)
        rw [ht, continued, continued, ih rest (by decide)]

theorem replaceStep_le_length (c : Byte) (rest : List Byte) : (replaceStep c rest).2 ≤ rest.length := by
  obtain ⟨-, hs⟩ | ⟨-, need, lower, upper, -, hn, hs⟩ | ⟨-, -, hs⟩ | ⟨-, need, lower, upper, -, -, hs⟩ :=
    replaceStep_cases c rest
  · rw [hs]
    exact Nat.zero_le _
  · rw [hs, ← hn]
    exact continued_le_length need lower upper rest
  · rw [hs]
    exact Nat.zero_le _
  · rw [hs]
    exact continued_le_length need lower upper rest

/-- A turn at a byte of 0x80 or above ends before the first IS1 behind it. -/
theorem textOf_split (rest : List Byte) (hc : 0x80 ≤ c) :
    textOf rest = rest.take (replaceStep c rest).2 ++ textOf (rest.drop (replaceStep c rest).2) := by
  have hno : (0x1F : Byte) ∉ rest.take (replaceStep c rest).2 := fun h =>
    absurd (replaceStep_high rest hc _ h) (by decide)
  rw [← textOf_append hno, take_append_drop]

theorem length_take_replaceStep (c : Byte) (rest : List Byte) :
    (rest.take (replaceStep c rest).2).length = (replaceStep c rest).2 := by
  rw [length_take]
  exact Nat.min_eq_left (replaceStep_le_length c rest)

/-- So it does the same when the string was cut there. -/
theorem replaceStep_textOf (rest : List Byte) (hc : 0x80 ≤ c) :
    replaceStep c (textOf rest) = replaceStep c rest := by
  have htake : (textOf rest).take (replaceStep c rest).2 = rest.take (replaceStep c rest).2 := by
    rw [textOf_split rest hc, take_left' (length_take_replaceStep c rest)]
  unfold replaceStep at htake ⊢
  rw [if_neg (BitVec.not_lt.mpr hc)] at htake ⊢
  rw [if_neg (BitVec.not_lt.mpr hc)]
  cases hl : leadByte c with
  | none => rfl
  | some p =>
    rw [hl] at htake
    dsimp only at htake ⊢
    rw [continued_textOf rest (leadByte_lower hl)]
    split_ifs with hn
    · rw [if_pos hn] at htake
      rw [htake]
    · rfl

/-- Cutting a string and replacing what is ill formed in it commute. -/
theorem decodeUTF8_textOf (s : List Byte) : decodeUTF8 (textOf s) = textOf (decodeUTF8 s) := by
  rw [decodeUTF8_eq, decodeUTF8_eq]
  induction s using chunk_induction fun c rest => (replaceStep c rest).2 with
  | nil => rfl
  | cons c rest ih =>
    by_cases hc : 0x80 ≤ c
    · have ht : textOf (c :: rest) = c :: textOf rest :=
        takeWhile_cons_of_pos (bne_iff_ne.mpr (by rintro rfl; exact absurd hc (by decide)))
      have hno : (0x1F : Byte) ∉ (replaceStep c rest).1 := by
        rw [mem_replaceStep]
        intro h
        exact absurd (forall_mem_cons.mpr ⟨hc, replaceStep_high rest hc⟩ _ h) (by decide)
      rw [ht, chunks_cons, chunks_cons, replaceStep_textOf rest hc, flatten_cons, flatten_cons,
        textOf_append hno, ← ih]
      rw [textOf_split rest hc, drop_left' (length_take_replaceStep c rest)]
    · have hs : ∀ l, replaceStep c l = ([c], 0) := fun l => if_pos (BitVec.not_le.mp hc)
      by_cases h1F : c = 0x1F
      · rw [h1F]
        rfl
      have ht : textOf (c :: rest) = c :: textOf rest := takeWhile_cons_of_pos (bne_iff_ne.mpr h1F)
      rw [hs] at ih
      rw [ht, chunks_cons, chunks_cons, hs, hs, flatten_cons, flatten_cons,
        textOf_append (by simpa using Ne.symm h1F), ← ih]
      rfl

/-! ## Trimming -/

theorem trimmed_longest (s : List Byte) (n : Nat) : LongestWithin s n (Encoder.trimmed s n) := by
  induction n with
  | zero =>
    refine ⟨List.nil_prefix, rfl, Int.le_refl 0, fun q _ _ hq => ?_⟩
    exact Int.ofNat_le.mp hq
  | succ n ih =>
    rw [Encoder.trimmed]
    split_ifs with hvalid
    · refine ⟨List.take_prefix _ s, hvalid, by rw [length_take]; omega, fun q hq _ hlen => ?_⟩
      have hle := hq.length_le
      rw [length_take]
      omega
    · refine ⟨ih.isPrefix, ih.boundary, Int.le_trans ih.length_le (by omega), fun q hq hv hlen => ?_⟩
      by_cases hn : q.length = n + 1
      · -- the prefix of this length was not on a boundary
        rw [prefix_iff_eq_take.mp hq, hn] at hv
        exact absurd hv hvalid
      · exact ih.longest q hq hv (by omega)

theorem putUTF8_of_valid (e : Encoder) (tag : Tag) (h : utf8Valid s = true) :
    e.putUTF8 tag s = e.writeStringLike tag s .utf8Str1 .utf8Str2 .utf8Str4 .utf8Str8 := by
  rw [Encoder.putUTF8, validUTF8_eq, decodeUTF8_of_valid h]

/-- Replacing ill-formed sequences is a closure that can be cut at an IS1, and both bounded
writers write the longest prefix of the replacement within a bound; zero and below is none. -/
theorem utf8_closure :
    (∀ b, utf8Valid (decodeUTF8 b) = true) ∧ (∀ b, decodeUTF8 b = b ↔ utf8Valid b = true) ∧
    (∀ b, decodeUTF8 (decodeUTF8 b) = decodeUTF8 b) ∧
    (∀ b i, b.findIdx? (· == 0x1F) = some i → ∃ j, (decodeUTF8 b).findIdx? (· == 0x1F) = some j ∧
      decodeUTF8 (b.take i) = (decodeUTF8 b).take j) ∧
    ∀ (e : Encoder) tag s n, ∃ p, (0 < n → LongestWithin (decodeUTF8 s) n p) ∧ (n ≤ 0 → p = decodeUTF8 s) ∧
      e.putUTF8WithMax tag s n = e.putUTF8 tag p ∧ e.putUTF8Bounded tag s n = e.putUTF8 tag p := by
  refine ⟨valid_replaced, fun b => ⟨fun h => h ▸ valid_replaced b, decodeUTF8_of_valid⟩, decodeUTF8_idem, ?_, ?_⟩
  · intro b i hi
    obtain ⟨hlt, rfl⟩ := List.findIdx?_eq_some_iff_findIdx_eq.mp hi
    have hmem : 0x1F ∈ b := by
      obtain ⟨x, hx, h1F⟩ := findIdx_lt_length.mp hlt
      exact beq_iff_eq.mp h1F ▸ hx
    refine ⟨_, findIdx?_of_mem ((mem_decodeUTF8 b).mpr hmem), ?_⟩
    rw [← textOf_eq_take, ← textOf_eq_take]
    exact decodeUTF8_textOf b
  · intro e tag s n
    unfold Encoder.putUTF8WithMax Encoder.putUTF8Bounded
    simp only [validUTF8_eq]
    by_cases hn : 0 < n ∧ n < (decodeUTF8 s).length
    · have hlong := trimmed_longest (decodeUTF8 s) n.toNat
      rw [Int.toNat_of_nonneg (Int.le_of_lt hn.1)] at hlong
      refine ⟨_, fun _ => hlong, fun h => absurd hn.1 (Int.not_lt.mpr h), ?_, ?_⟩
      · rw [if_pos hn, putUTF8_of_valid e tag hlong.boundary]
      · rw [if_neg (by omega), putUTF8_of_valid e tag hlong.boundary]
    · refine ⟨decodeUTF8 s, fun h => ?_, fun _ => rfl, ?_, ?_⟩
      · exact ⟨prefix_rfl, valid_replaced s, by omega, fun q hq _ _ => hq.length_le⟩
      · rw [if_neg hn, putUTF8_of_valid e tag (valid_replaced s)]
      · rw [if_pos (by omega), putUTF8_of_valid e tag (valid_replaced s)]

/-- A bound of zero is none. -/
theorem putUTF8WithMax_zero :
    ¬ ∃ p, LongestWithin (decodeUTF8 [0x41]) 0 p ∧
      Encoder.new.putUTF8WithMax anonymousTag [0x41] 0 = Encoder.new.putUTF8 anonymousTag p := by
  rintro ⟨p, h, heq⟩
  obtain rfl : p = [] := eq_nil_of_length_eq_zero (by have := h.length_le; omega)
  exact absurd heq (by decide)

end GF.Proof.Tlv
