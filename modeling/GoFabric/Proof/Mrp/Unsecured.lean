import GoFabric.Proof.Mrp.Window

/-!
# The unsecured window

The window of unsecured sessions folds a distance into `[-32, 2 ^ 32 - 33]`, so every
counter stands for one position around the maximum and, unlike for the other windows,
a counter further back than the bitmap reaches stands for a position ahead. The
positions only grow, and none is accepted twice (`Placed.accept`); a counter is seen
again only at a position a whole lap of `2 ^ 32` further (`Placed.not_accepted`).
-/

namespace GF.Proof.Mrp

open GF.Impl.Mrp

variable {w : Window}

/-! ## The fold -/

/-- The settings of the window of unsecured sessions. -/
structure Unsecured (w : Window) : Prop where
  initialBitmap : w.initialBitmap = 0#32
  rollover : w.rollover = true
  encRollover : w.encRollover = false

theorem unsecured_newWindow : Unsecured newWindow := ⟨rfl, rfl, rfl⟩

/-- `Accept` touches the maximum, the bitmap and the anchor only. -/
theorem Unsecured.accept (h : Unsecured w) (c : BitVec 32) : Unsecured (w.accept c).2 := by
  unfold Window.accept
  dsimp only
  split_ifs <;> exact ⟨h.initialBitmap, h.rollover, h.encRollover⟩

theorem unsecured_final (cs : List (BitVec 32)) : Unsecured (windowMachine.final newWindow cs) :=
  Machine.final_of_step windowMachine (fun _ c h => h.accept c) unsecured_newWindow cs

section

variable (h : Unsecured w) (c : BitVec 32)
include h c

/-- The folded distance, without the cases of the other windows. -/
theorem Unsecured.diff_eq :
    w.diff c = if (c.toNat : Int) - w.max.toNat > 2 ^ 32 - 33 then (c.toNat : Int) - w.max.toNat - 2 ^ 32
      else if (c.toNat : Int) - w.max.toNat < -32 then (c.toNat : Int) - w.max.toNat + 2 ^ 32
      else (c.toNat : Int) - w.max.toNat := by
  have hsize : windowSize = 32 := rfl
  have htop : maxCounter32 = 2 ^ 32 - 1 := rfl
  simp only [Window.diff, h.encRollover, h.rollover, Bool.false_eq_true, if_false, Bool.not_true]
  split_ifs <;> omega

theorem Unsecured.diff_bounds : -32 ≤ w.diff c ∧ w.diff c ≤ 2 ^ 32 - 33 := by
  rw [h.diff_eq]
  split_ifs <;> omega

theorem Unsecured.diff_congr : (2 ^ 32 : Int) ∣ w.diff c - ((c.toNat : Int) - w.max.toNat) := by
  rw [h.diff_eq]
  split_ifs <;> omega

theorem Unsecured.diff_eq_zero : w.diff c = 0 ↔ c = w.max := by
  rw [h.diff_eq, ← BitVec.toNat_inj]
  split_ifs <;> omega

theorem Unsecured.shifts_bounds : ∀ n ∈ w.shifts c, 0 ≤ n ∧ n ≤ 31 := by
  have hsize : windowSize = 32 := rfl
  have hz := h.diff_eq_zero c
  intro n hn
  unfold Window.shifts at hn
  dsimp only at hn
  split_ifs at hn with hp hmax hout hle hlt
  all_goals simp only [List.mem_append, List.mem_cons, List.not_mem_nil, or_false, false_or] at hn
  all_goals have hne : w.diff c ≠ 0 := fun he => hmax (hz.1 he)
  all_goals omega

end

/-- A counter is behind the maximum only as one of the 32 values directly below it. -/
theorem Unsecured.below_of_neg (h : Unsecured w) {c : BitVec 32} (hd : w.diff c < 0) :
    ∃ k : Nat, 1 ≤ k ∧ k ≤ 32 ∧ c = w.max - BitVec.ofNat 32 k := by
  have hb := h.diff_bounds c
  obtain ⟨q, hq⟩ := h.diff_congr c
  refine ⟨(-w.diff c).toNat, by omega, by omega, BitVec.eq_of_toNat_eq ?_⟩
  rw [BitVec.toNat_sub, BitVec.toNat_ofNat]
  omega

/-! ## Positions -/

/-- The maximum of the window stands for the position `m`, and `R` are the positions
accepted so far. -/
structure Placed (w : Window) (m : Int) (R : Int → Prop) : Prop extends Unsecured w where
  primed : w.primed = true
  max : (w.max.toNat : Int) = m % 2 ^ 32
  bits : Bits w.bitmap m R
  mem : R m
  le : ∀ y, R y → y ≤ m

/-- The first counter anchors the window, with nothing below it received. -/
theorem placed_anchor (h : Unsecured w) (hp : w.primed = false) (c : BitVec 32) :
    Placed (w.accept c).2 c.toNat (· = (c.toNat : Int)) := by
  simp only [Window.accept, hp, Bool.not_false, if_true, h.initialBitmap]
  refine ⟨⟨rfl, h.rollover, h.encRollover⟩, rfl, ?_, fun i hi => ?_, rfl, fun y hy => le_of_eq hy⟩
  · show (c.toNat : Int) = _
    omega
  · simp only [BitVec.getLsbD_zero, Bool.false_eq_true, false_iff]
    omega

namespace Placed

variable {m : Int} {R : Int → Prop} {c : BitVec 32}

/-- One `Accept`: the position of the counter is not accepted again and recorded, or the
window stays as it is. -/
theorem accept (h : Placed w m R) (c : BitVec 32) :
    (¬ R (m + w.diff c) ∧ (w.accept c).1 = true ∧
        Placed (w.accept c).2 (m + w.advance c) fun y => R y ∨ y = m + w.diff c) ∨
      (R (m + w.diff c) ∧ (w.accept c).1 = false ∧ (w.accept c).2 = w) := by
  have hlo := (h.diff_bounds c).1
  have hmax := h.max
  have hcong := h.diff_congr c
  have hz := h.diff_eq_zero c
  have hcm : c = w.max ↔ m + w.diff c = m := by
    rw [← hz]
    omega
  rcases accept_position h.primed (by omega) hcm h.bits h.mem
    (fun y hy hr => absurd (h.le y hr) (by omega)) with ⟨-, hr, b, hb, heq⟩ | ⟨hno, heq⟩
  · refine .inl ⟨hr, by rw [heq], ?_⟩
    rw [heq]
    have hadv : (if m < m + w.diff c then m + w.diff c else m) = m + w.advance c := by
      unfold Window.advance
      split_ifs <;> omega
    rw [hadv] at hb
    refine ⟨⟨h.initialBitmap, h.rollover, h.encRollover⟩, h.primed, ?_, hb, ?_, fun y hy => ?_⟩
    · -- the new maximum stands for its position
      show (((if m < m + w.diff c then c else w.max).toNat : Nat) : Int) = _
      split_ifs <;> omega
    · unfold Window.advance
      split_ifs
      · exact .inr rfl
      · exact .inl (by rw [add_zero]; exact h.mem)
    · unfold Window.advance
      rcases hy with hy | hy
      · have := h.le y hy
        split_ifs <;> omega
      · split_ifs <;> omega
  · refine .inr ⟨?_, by rw [heq], by rw [heq]⟩
    by_contra hr
    exact hno ⟨by omega, hr⟩

theorem accept_of_pos (h : Placed w m R) (hd : 0 < w.diff c) : (w.accept c).1 = true := by
  rcases h.accept c with ⟨-, ht, -⟩ | ⟨hr, -, -⟩
  · exact ht
  · exact absurd (h.le _ hr) (by omega)

theorem travel_nonneg (w : Window) (cs : List (BitVec 32)) : 0 ≤ w.travel cs := by
  induction cs generalizing w with
  | nil => exact le_refl _
  | cons c cs ih =>
    have htail := ih (w.accept c).2
    have hadv : 0 ≤ w.advance c := by
      unfold Window.advance
      split_ifs <;> omega
    show 0 ≤ w.advance c + Window.travel (w.accept c).2 cs
    omega

/-- A counter that was accepted at the position `x` is not accepted again while the
maximum stays below the position a lap further. -/
theorem not_accepted (h : Placed w m R) {x : Int} (hx : R x) (hcx : (2 ^ 32 : Int) ∣ x - c.toNat)
    (cs : List (BitVec 32)) (hlap : m + w.travel cs < x + 2 ^ 32) : c ∉ windowMachine.accepted w cs := by
  induction cs generalizing w m R with
  | nil => exact List.not_mem_nil
  | cons c' cs ih =>
    have hsum : w.travel (c' :: cs) = w.advance c' + Window.travel (w.accept c').2 cs := rfl
    have htail := travel_nonneg (w.accept c').2 cs
    have hadv : w.diff c' ≤ w.advance c' ∧ 0 ≤ w.advance c' := by
      unfold Window.advance
      split_ifs <;> omega
    rcases h.accept c' with ⟨hr, ht, hp⟩ | ⟨-, hf, hs⟩
    · rw [Machine.accepted_cons_of_true ht, List.mem_cons, not_or]
      refine ⟨fun he => hr ?_, ih (w := (w.accept c').2) hp (.inl hx) (by omega)⟩
      -- the position of the counter is in the same lap as `x`
      have hcong := h.diff_congr c'
      have hmax := h.max
      have hle := h.le x hx
      have hlo := (h.diff_bounds c').1
      have hsame : m + w.diff c' = x := by
        subst he
        omega
      rwa [hsame]
    · rw [Machine.accepted_cons_of_false hf, show (windowMachine.step w c').2 = w from hs]
      rw [hs] at hsum
      exact ih h hx (by omega)

end Placed

theorem placed_final (cs : List (BitVec 32)) :
    (windowMachine.final newWindow cs).primed = false ∨
      ∃ m R, Placed (windowMachine.final newWindow cs) m R := by
  refine (Machine.final_of_step windowMachine
    (P := fun w => Unsecured w ∧ (w.primed = false ∨ ∃ m R, Placed w m R)) (fun w c h => ?_)
    ⟨unsecured_newWindow, .inl rfl⟩ cs).2
  obtain ⟨hu, hp | ⟨m, R, hp⟩⟩ := h
  · exact ⟨hu.accept c, .inr ⟨_, _, placed_anchor hu hp c⟩⟩
  refine ⟨hu.accept c, .inr ?_⟩
  rcases hp.accept c with ⟨-, -, hq⟩ | ⟨-, -, hs⟩
  · exact ⟨_, _, hq⟩
  · exact ⟨m, R, by rw [show (windowMachine.step w c).2 = w from hs]; exact hp⟩

/-- After an accepted counter the maximum is at most 32 positions past it. -/
theorem placed_after (hu : Unsecured w) (hw : w.primed = false ∨ ∃ m R, Placed w m R) {c : BitVec 32}
    (hc : (w.accept c).1 = true) :
    ∃ m R x, Placed (w.accept c).2 m R ∧ R x ∧ m ≤ x + 32 ∧ (2 ^ 32 : Int) ∣ x - c.toNat := by
  rcases hw with hp | ⟨m, R, hp⟩
  · exact ⟨_, _, c.toNat, placed_anchor hu hp c, rfl, by omega, by omega⟩
  rcases hp.accept c with ⟨-, -, hq⟩ | ⟨-, hf, -⟩
  · have hlo := (hp.diff_bounds c).1
    have hcong := hp.diff_congr c
    have hmax := hp.max
    refine ⟨_, _, m + w.diff c, hq, .inr rfl, ?_, by omega⟩
    unfold Window.advance
    split_ifs <;> omega
  · rw [hf] at hc
    exact absurd hc Bool.false_ne_true

/-- In every state of every run of the unsecured window: the folded distance of a counter
other than the maximum is in range and congruent to the plain one, and the shifts are by
0 to 31; an accepted counter is not accepted again before the maximum has gone
`2 ^ 32 - 32` further; and everything but the maximum and the 32 counters below it is
accepted. -/
theorem unsecured_window_folds {cs : List (BitVec 32)} {w : Window} (hrun : windowMachine.final newWindow cs = w) :
    (∀ c, c ≠ w.max → -32 ≤ w.diff c ∧ w.diff c ≤ 2 ^ 32 - 33 ∧
        (2 ^ 32 : Int) ∣ w.diff c - ((c.toNat : Int) - w.max.toNat)) ∧
      (∀ c, ∀ n ∈ w.shifts c, 0 ≤ n ∧ n ≤ 31) ∧
      (∀ c, (w.accept c).1 = true → ∀ cs', Window.travel (w.accept c).2 cs' < 2 ^ 32 - 32 →
        c ∉ windowMachine.accepted (w.accept c).2 cs') ∧
      ∀ c, c ≠ w.max → (∀ k : Nat, 1 ≤ k → k ≤ 32 → c ≠ w.max - BitVec.ofNat 32 k) →
        (w.accept c).1 = true := by
  have hu := unsecured_final cs
  have hw := placed_final cs
  rw [hrun] at hu hw
  refine ⟨fun c _ => ?_, hu.shifts_bounds, fun c hc cs' hlap => ?_, fun c hne hbelow => ?_⟩
  · exact ⟨(hu.diff_bounds c).1, (hu.diff_bounds c).2, hu.diff_congr c⟩
  · obtain ⟨m, R, x, hp, hx, hm, hcx⟩ := placed_after hu hw hc
    exact hp.not_accepted hx hcx cs' (by omega)
  have hz : w.diff c ≠ 0 := fun he => hne ((hu.diff_eq_zero c).1 he)
  have hneg : ¬ w.diff c < 0 := fun hlt => by
    obtain ⟨k, hk1, hk2, he⟩ := hu.below_of_neg hlt
    exact hbelow k hk1 hk2 he
  rcases hw with hp | ⟨m, R, hp⟩
  · simp [Window.accept, hp]
  · exact hp.accept_of_pos (by omega)

/-- After the counter 5, the counter 7 is accepted, and not again after 9. -/
theorem unsecured_window_folds_five :
    ((windowMachine.final newWindow [5#32]).accept 7#32).1 = true ∧
      7#32 ∉ windowMachine.accepted ((windowMachine.final newWindow [5#32]).accept 7#32).2 [9#32, 7#32] :=
  ⟨by decide, (unsecured_window_folds rfl).2.2.1 7#32 (by decide) [9#32, 7#32] (by decide)⟩

/-! ## A whole lap -/

/-- `n` counters, each 32 past the one before. -/
def strides (s n : Nat) : List (BitVec 32) := (List.range' s n 32).map (BitVec.ofNat 32)

theorem diff_stride (h : Unsecured w) {s : Nat} (hmax : w.max = BitVec.ofNat 32 s) :
    w.diff (BitVec.ofNat 32 (s + 32)) = 32 := by
  rw [h.diff_eq, hmax, BitVec.toNat_ofNat, BitVec.toNat_ofNat]
  split_ifs <;> omega

/-- Strides are accepted for ever, without a jump. -/
theorem strides_accepted {m : Int} {R : Int → Prop} (h : Placed w m R) {s : Nat} (hmax : w.max = BitVec.ofNat 32 s)
    (n : Nat) :
    w.Smooth (strides (s + 32) n) ∧ windowMachine.accepted w (strides (s + 32) n) = strides (s + 32) n := by
  induction n generalizing w m R s with
  | zero => exact ⟨trivial, rfl⟩
  | succ n ih =>
    have hd := diff_stride h.toUnsecured hmax
    have hpos : 0 < w.diff (BitVec.ofNat 32 (s + 32)) := by omega
    have ht := h.accept_of_pos hpos
    have hnext : (w.accept (BitVec.ofNat 32 (s + 32))).2.max = BitVec.ofNat 32 (s + 32) := by
      have hne : BitVec.ofNat 32 (s + 32) ≠ w.max := fun he => by
        rw [(h.diff_eq_zero _).2 he] at hd
        omega
      simp [Window.accept, h.primed, hne, hd, windowSize]
    rcases h.accept (BitVec.ofNat 32 (s + 32)) with ⟨-, -, hp⟩ | ⟨-, hf, -⟩
    · obtain ⟨hsmooth, hacc⟩ := ih hp hnext
      have hcons : strides (s + 32) (n + 1) = BitVec.ofNat 32 (s + 32) :: strides (s + 32 + 32) n := rfl
      rw [hcons]
      refine ⟨⟨fun hj => ?_, hsmooth⟩, ?_⟩
      · have hlt := hj.2
        rw [hd] at hlt
        exact absurd hlt (by decide)
      · rw [Machine.accepted_cons_of_true ht]
        exact congrArg _ hacc
    · rw [hf] at ht
      exact absurd ht Bool.false_ne_true

/-- The counters 0, 32, 64, ... are all accepted without a jump, and the last one of a lap
is the counter 0 again. -/
theorem strides_accept_zero_twice :
    newWindow.Smooth (strides 0 (2 ^ 27 + 1)) ∧
      windowMachine.accepted newWindow (strides 0 (2 ^ 27 + 1)) = strides 0 (2 ^ 27 + 1) ∧
      ¬ (strides 0 (2 ^ 27 + 1)).Nodup := by
  have hcons : strides 0 (2 ^ 27 + 1) = 0#32 :: strides (0 + 32) (2 ^ 27) := rfl
  have hp : Placed (newWindow.accept 0#32).2 _ _ := placed_anchor unsecured_newWindow rfl 0#32
  obtain ⟨hsmooth, hacc⟩ := strides_accepted hp rfl (2 ^ 27)
  rw [hcons]
  refine ⟨⟨fun hj => Bool.false_ne_true hj.1, hsmooth⟩, ?_, fun hnodup => ?_⟩
  · rw [Machine.accepted_cons_of_true rfl]
    exact congrArg _ hacc
  · refine (List.nodup_cons.mp hnodup).1 (List.mem_map.mpr ⟨2 ^ 32, ?_, by decide⟩)
    rw [List.mem_range']
    exact ⟨2 ^ 27 - 1, by decide, by decide⟩

end GF.Proof.Mrp
