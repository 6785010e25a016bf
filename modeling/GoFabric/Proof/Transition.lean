import GoFabric.Spec.Transition

/-!
# Ways round the colour wheel

Upwards, `hueDistance` is the one distance in range that leads to the target.
Downwards it is one hue short, for a wheel of `maxHue + 1` hues is taken to have
`maxHue`. A way that wraps round bounds ends at the mirror image of the target, for
`directionalDistance` measures both its parts from one bound. All of this is about
integers so small that no operation rounds.
-/

namespace GF.Proof.Transition

open GF.Impl.Transition GF.Spec.Transition

variable {maxHue c t lo m n : ℤ} {dir : HueDirection}

/-! ## Hues -/

theorem reaches_unique (hn : Reaches maxHue c t lo n) (hm : Reaches maxHue c t lo m) : m = n := by
  have hdvd : maxHue + 1 ∣ m - n := (hn.2.2.trans hm.2.2.symm).dvd
  have hlt : |m - n| < maxHue + 1 := by
    obtain ⟨hn1, hn2, -⟩ := hn
    obtain ⟨hm1, hm2, -⟩ := hm
    rw [abs_lt]
    omega
  exact sub_eq_zero.1 (Int.eq_zero_of_abs_lt_dvd hdvd hlt)

theorem isWay_intCast : IsWay maxHue c t lo n ↔ Reaches maxHue c t lo n := by
  constructor
  · rintro ⟨k, hk, hr, -⟩
    rwa [Int.cast_inj.1 hk]
  · intro hr
    exact ⟨n, rfl, hr, fun m hm => reaches_unique hr hm⟩

section Wheel

variable (hbig : maxHue < 2 ^ 52) (hc : 0 ≤ c ∧ c ≤ maxHue) (ht : 0 ≤ t ∧ t ≤ maxHue)
include hc ht

theorem reaches_wayUp : Reaches maxHue c t 1 (wayUp maxHue c t) := by
  unfold wayUp
  split
  · exact ⟨by omega, by omega, rfl⟩
  · refine ⟨by omega, by omega, Int.modEq_iff_dvd.2 ⟨-1, ?_⟩⟩
    ring

/-- What is taken for the way down leads to another hue. -/
theorem not_reaches_wayDown (hmax : 1 ≤ maxHue) (lo : ℤ) : ¬Reaches maxHue c t lo (wayUp maxHue c t - maxHue) := by
  rintro ⟨-, -, hmod⟩
  have hdvd := (hmod.trans (reaches_wayUp hc ht).2.2.symm).dvd
  have hle := Int.le_of_dvd (by omega) hdvd
  omega

include hbig

/-- No operation rounds. -/
theorem hueDistance_eq (hd : dir ≠ .unknown) : hueDistance c t dir maxHue =
    (if goesUp maxHue c t dir then wayUp maxHue c t else wayUp maxHue c t - maxHue : ℤ) := by
  obtain ⟨hpos, hle, -⟩ := reaches_wayUp hc ht
  have hpos' : (1 : ℚ) ≤ wayUp maxHue c t := Int.cast_one.symm.trans_le (Int.cast_le.2 hpos)
  have hdistance : (if (t : ℚ) > c then float64 (t - c) else float64 (float64 (float64 (maxHue + t) + 1) - c)) =
      wayUp maxHue c t := by
    unfold wayUp
    simp only [Int.cast_lt]
    split
    · exact float64_sub (by rw [abs_lt]; omega)
    · rw [float64_add (by rw [abs_lt]; omega), ← Int.cast_one, float64_add (by rw [abs_lt]; omega)]
      exact float64_sub (by rw [abs_lt]; omega)
  have hhalf : |(wayUp maxHue c t : ℚ)| > float64 (maxHue / 2) ↔ maxHue < 2 * wayUp maxHue c t := by
    rw [float64_half (by rw [abs_lt]; omega), abs_of_pos (by linarith), gt_iff_lt, div_lt_iff₀ two_pos, mul_comm]
    exact_mod_cast Iff.rfl
  have hdown : -float64 (maxHue - wayUp maxHue c t) = (wayUp maxHue c t - maxHue : ℤ) := by
    rw [float64_sub (by rw [abs_lt]; omega), ← Int.cast_neg, neg_sub]
  unfold hueDistance
  simp only [hdistance, hhalf, if_neg (show (wayUp maxHue c t : ℚ) ≠ 0 by linarith), hdown]
  cases dir with
  | unknown => exact absurd rfl hd
  | up | down => rfl
  | shortest => simp only [goesUp, decide_eq_true_eq, ← not_lt, ite_not, apply_ite Int.cast]
  | longest => simp only [goesUp, decide_eq_true_eq, apply_ite Int.cast]

theorem leads_iff (hmax : 1 ≤ maxHue) (hd : dir ≠ .unknown) :
    Leads maxHue c t dir ↔ goesUp maxHue c t dir = true := by
  have hup := isWay_intCast.2 (reaches_wayUp hc ht)
  have hdown : ∀ lo, ¬IsWay maxHue c t lo (wayUp maxHue c t - maxHue : ℤ) := fun lo h =>
    not_reaches_wayDown hc ht hmax lo (isWay_intCast.1 h)
  unfold Leads
  rw [hueDistance_eq hbig hc ht hd]
  cases h : goesUp maxHue c t dir with
  | true =>
    refine iff_of_true ?_ rfl
    cases dir with
    | up => exact hup
    | shortest | longest => exact .inl hup
    | down | unknown => cases h
  | false =>
    refine iff_of_false ?_ Bool.false_ne_true
    cases dir with
    | up => nomatch h
    | unknown => exact absurd rfl hd
    | down => exact hdown _
    | shortest | longest => exact fun hor => hor.elim (hdown _) (hdown _)

theorem abs_shortest_le : |hueDistance c t .shortest maxHue| ≤ |hueDistance c t .longest maxHue| := by
  rw [hueDistance_eq hbig hc ht (by decide), hueDistance_eq hbig hc ht (by decide)]
  norm_cast
  simp only [goesUp, decide_eq_true_eq, Int.abs_eq_natAbs]
  split <;> split <;> omega

end Wheel

/-! ## Values between two bounds -/

section Bounds

variable {lower upper a b : ℤ} {rate : ℚ} (ha : Between lower upper a) (hb : Between lower upper b)
include ha hb

theorem directionalDistance_eq : directionalDistance a b rate lower upper =
    (if rate > 0 then if b < a then upper - a + (upper - b) else b - a
      else if a < b then a - lower + (b - lower) else a - b : ℤ) := by
  obtain ⟨⟨hl, hu, ha1, ha2⟩, -, -, hb1, hb2⟩ := And.intro ha hb
  have hdist : |float64 (a - b)| = (|a - b| : ℤ) := by
    rw [float64_sub (by rw [abs_lt]; omega), Int.cast_abs]
  have hsum : ∀ m, lower ≤ m → m ≤ upper → float64 (|float64 (a - m)| + |float64 (m - b)|) = (|a - m| + |m - b| : ℤ) := by
    intro m hm1 hm2
    rw [float64_sub (by rw [abs_lt]; omega), float64_sub (by rw [abs_lt]; omega), ← Int.cast_abs, ← Int.cast_abs]
    refine float64_add ?_
    simp only [Int.abs_eq_natAbs]
    omega
  unfold directionalDistance
  rw [hdist, hsum upper (by omega) le_rfl, hsum lower le_rfl (by omega)]
  simp only [Int.cast_lt, ← apply_ite Int.cast, Int.cast_inj, Int.abs_eq_natAbs]
  split_ifs <;> omega

theorem arrival_eq : arrival a b rate lower upper =
    (if (if rate > 0 then a ≤ b else b ≤ a) then b else lower + upper - b : ℤ) := by
  -- the sum before it is wrapped
  have hsum : ∀ d : ℤ, |a + d| < 3 * 2 ^ 51 → addWithOverflow a d lower upper =
      (if a + d < lower then a + d - lower + upper else if a + d > upper then a + d - upper + lower else a + d : ℤ) := by
    obtain ⟨hl, hu, ha1, ha2⟩ := ha
    intro d hd
    rw [abs_lt] at hd
    unfold addWithOverflow
    rw [float64_add (by rw [abs_lt]; omega)]
    simp only [Int.cast_lt]
    split_ifs
    · rw [float64_sub (by rw [abs_lt]; omega), float64_add (by rw [abs_lt]; omega)]
    · rw [float64_sub (by rw [abs_lt]; omega), float64_add (by rw [abs_lt]; omega)]
    · rfl
  obtain ⟨⟨hl, hu, ha1, ha2⟩, -, -, hb1, hb2⟩ := And.intro ha hb
  unfold arrival
  rw [directionalDistance_eq ha hb]
  by_cases hr : rate > 0
  · split_ifs with h1 h2 h2
    all_goals rw [hsum _ (by rw [abs_lt]; omega), Int.cast_inj]
    all_goals split_ifs <;> omega
  · simp only [← Int.cast_neg]
    split_ifs with h1 h2 h2
    all_goals rw [hsum _ (by rw [abs_lt]; omega), Int.cast_inj]
    all_goals split_ifs <;> omega

end Bounds

/-- The distances lead to the target upwards, and where the shortest or the longest way
is the way up; and between bounds without wrapping, to the middle and to the bounds. -/
theorem hue_distances_lead (maxHue c t lower upper a b : ℤ) (rate : ℚ) (hmax : 1 ≤ maxHue) (hbig : maxHue < 2 ^ 52)
    (hc : 0 ≤ c ∧ c ≤ maxHue) (ht : 0 ≤ t ∧ t ≤ maxHue) (ha : Between lower upper a) (hb : Between lower upper b) :
    (∀ direction, direction ≠ .unknown →
      (Leads maxHue c t direction ↔ goesUp maxHue c t direction = true)) ∧
    |hueDistance c t .shortest maxHue| ≤ |hueDistance c t .longest maxHue| ∧
    (SamePoint lower upper (arrival a b rate lower upper) b ↔
      (if rate > 0 then a ≤ b else b ≤ a) ∨ 2 * b = lower + upper ∨ b = lower ∨ b = upper) := by
  refine ⟨fun direction hd => leads_iff hbig hc ht hmax hd, abs_shortest_le hbig hc ht, ?_⟩
  rw [arrival_eq ha hb]
  unfold SamePoint
  simp only [Int.cast_inj]
  by_cases h : if rate > 0 then a ≤ b else b ≤ a
  · rw [if_pos h]
    exact iff_of_true (.inl rfl) (.inl h)
  · rw [if_neg h, or_iff_right h]
    omega

/-- Of the ways from hue 0 to 100, the longest misses it. -/
theorem hue_distances_lead_shortest :
    Leads 254 0 100 .shortest ∧ ¬Leads 254 0 100 .longest ∧
      SamePoint (0 : ℤ) (254 : ℤ) (arrival (100 : ℤ) (200 : ℤ) 1 (0 : ℤ) (254 : ℤ)) (200 : ℤ) := by
  obtain ⟨hleads, -, hsame⟩ := hue_distances_lead 254 0 100 0 254 100 200 1 (by decide) (by decide) (by decide)
    (by decide) ⟨by decide, by decide, by decide, by decide⟩ ⟨by decide, by decide, by decide, by decide⟩
  refine ⟨(hleads .shortest (by decide)).2 (by decide), ?_, hsame.2 (by decide)⟩
  exact fun h => absurd ((hleads .longest (by decide)).1 h) (by decide)

/-- From hue 0 to 254 there is no way down; and the way up from 200 to 100 ends at 154. -/
theorem hue_distances_miss :
    hueDistance 0 254 .down 254 = 0 ∧ ¬Leads 254 0 254 .down ∧
      arrival 200 100 1 0 254 = 154 ∧ ¬SamePoint 0 254 (arrival 200 100 1 0 254) 100 := by
  have hdown : hueDistance (0 : ℤ) (254 : ℤ) .down (254 : ℤ) = (0 : ℤ) :=
    hueDistance_eq (by decide) (by decide) (by decide) (by decide)
  have harrival : arrival (200 : ℤ) (100 : ℤ) 1 (0 : ℤ) (254 : ℤ) = (154 : ℤ) :=
    (arrival_eq ⟨by decide, by decide, by decide, by decide⟩ ⟨by decide, by decide, by decide, by decide⟩).trans (by
      rfl)
  norm_cast at harrival
  refine ⟨hdown, ?_, harrival, ?_⟩
  · rw [leads_iff (by decide) (by decide) (by decide) (by decide) (by decide)]
    decide
  · rw [harrival]
    unfold SamePoint
    decide

end GF.Proof.Transition
