import GoFabric.Impl.Mrp.Window
import GoFabric.Spec.Replay
import Mathlib.Data.BitVec

/-!
# The reception windows refine their references

A window keeps 32 bits and the maximum; the reference keeps everything it accepted.
Bit `i` is set exactly when position `max - (i + 1)` counts as received (`Bits`), which
every position up to the first one accepted does (the window anchors with all bits
set). One `Accept` of a counter that stands for a position decides on that position
and keeps the bits (`accept_position`). For the secure-session window a counter is its
own position (`window_refines_reference`); for the group window it is a position of an
unbounded counter space (`group_window_unwraps`).
-/

namespace GF.Proof.Mrp

open GF.Impl.Mrp GF.Spec.Replay List

variable {seen : List (BitVec 32)} {c m : BitVec 32} {x : Int} {w : Window} {u : Unwrapped} {k i : Nat}

/-! ## The reference -/

theorem le_maxOf {s : BitVec 32} (h : s ∈ seen) : s.toNat ≤ maxOf seen := by
  induction seen with
  | nil => simp at h
  | cons a seen ih =>
    rcases mem_cons.mp h with rfl | h
    · exact Nat.le_max_left _ _
    · exact (ih h).trans (Nat.le_max_right _ _)

theorem maxOf_le {n : Nat} (h : ∀ s ∈ seen, s.toNat ≤ n) : maxOf seen ≤ n := by
  induction seen with
  | nil => exact Nat.zero_le n
  | cons a seen ih =>
    exact Nat.max_le.mpr ⟨h a mem_cons_self, ih fun s hs => h s (mem_cons_of_mem _ hs)⟩

theorem maxOf_eq (hm : m ∈ seen) (h : ∀ s ∈ seen, s.toNat ≤ m.toNat) : maxOf seen = m.toNat :=
  Nat.le_antisymm (maxOf_le h) (le_maxOf hm)

theorem not_mem_of_fresh (h : Fresh seen c) : c ∉ seen := by
  rcases h with rfl | h | ⟨-, -, h⟩
  · exact not_mem_nil
  · exact fun hc => absurd (le_maxOf hc) (by omega)
  · exact h

theorem nodup_reference (h : seen.Nodup) (cs : List (BitVec 32)) : (reference.final seen cs).Nodup := by
  refine Machine.final_of_step reference (fun seen c h => ?_) h cs
  simp only [reference]
  split_ifs with hf
  · exact nodup_append.mpr ⟨h, nodup_singleton c, fun a ha b hb =>
      fun e => not_mem_of_fresh hf (by rw [mem_singleton] at hb; rw [← hb, ← e]; exact ha)⟩
  · exact h

/-- Counter `x` counts as received after `seen`: it is not above the first
accepted counter, or it was accepted. An integer, since the bits of a young
window reach below 0. -/
def Received (seen : List (BitVec 32)) (x : Int) : Prop :=
  (∃ f ∈ seen.head?, x ≤ (f.toNat : Int)) ∨ ∃ s ∈ seen, (s.toNat : Int) = x

theorem received_append (hne : seen ≠ []) (c : BitVec 32) (x : Int) :
    Received (seen ++ [c]) x ↔ Received seen x ∨ x = c.toNat := by
  obtain ⟨f, rest, rfl⟩ := exists_cons_of_ne_nil hne
  simp only [Received, cons_append, mem_cons, mem_append, not_mem_nil, or_false]
  constructor
  · rintro (h | ⟨s, (rfl | h | rfl), hs⟩)
    · exact .inl (.inl h)
    · exact .inl (.inr ⟨s, .inl rfl, hs⟩)
    · exact .inl (.inr ⟨s, .inr h, hs⟩)
    · exact .inr hs.symm
  · rintro ((h | ⟨s, h, hs⟩) | h)
    · exact .inl h
    · exact .inr ⟨s, by tauto, hs⟩
    · exact .inr ⟨c, by tauto, h.symm⟩

theorem not_received_of_gt {m : Nat} (h : ∀ s ∈ seen, s.toNat ≤ m) (hx : m < x) : ¬ Received seen x := by
  rintro (⟨f, hf, hle⟩ | ⟨s, hs, rfl⟩)
  · have := h f (mem_of_mem_head? hf)
    omega
  · have := h s hs
    omega

/-- Once a counter was accepted, the reference's verdict is the window's question: not
further behind than 32, and not received. -/
theorem fresh_iff (hm : m ∈ seen) (hmax : ∀ s ∈ seen, s.toNat ≤ m.toNat) (c : BitVec 32) :
    Fresh seen c ↔ (m.toNat : Int) - 32 ≤ c.toNat ∧ ¬ Received seen c.toNat := by
  have hmem : (∃ s ∈ seen, (s.toNat : Int) = c.toNat) ↔ c ∈ seen := by
    constructor
    · rintro ⟨s, hs, he⟩
      rwa [show c = s from BitVec.eq_of_toNat_eq (by omega)]
    · exact fun h => ⟨c, h, rfl⟩
  simp only [Fresh, maxOf_eq hm hmax, ne_nil_of_mem hm]
  by_cases hlt : m.toNat < c.toNat
  · have hno : ¬ Received seen c.toNat := not_received_of_gt hmax (by omega)
    simp only [hno, not_false_eq_true, and_true]
    omega
  simp only [hlt, false_or, Received, hmem, not_or, not_exists, not_and, not_le, Int.ofNat_lt]
  constructor
  · rintro ⟨⟨hlo, -⟩, hfirst, hnew⟩
    exact ⟨hlo, hfirst, hnew⟩
  · rintro ⟨hlo, hfirst, hnew⟩
    have hne : c.toNat ≠ m.toNat := fun he => hnew (BitVec.eq_of_toNat_eq he ▸ hm)
    exact ⟨⟨hlo, by omega⟩, hfirst, hnew⟩

/-! ## The bitmap -/

theorem getLsbD_one_shiftLeft (hi : i < 32) : (1#32 <<< k).getLsbD i = decide (i = k) := by
  simp only [BitVec.getLsbD_shiftLeft, hi]
  rcases Nat.lt_trichotomy i k with h | rfl | h
  · simp [h, Nat.ne_of_lt h]
  · simp
  · simp [show i - k ≠ 0 by omega, show i ≠ k by omega]

/-- The bit test of `Accept`. -/
theorem and_one_shiftLeft_ne_zero (b : BitVec 32) (hk : k < 32) : b &&& 1#32 <<< k ≠ 0#32 ↔ b.getLsbD k = true := by
  constructor
  · intro h
    by_contra hb
    refine h (BitVec.eq_of_getLsbD_eq fun i hi => ?_)
    rw [BitVec.getLsbD_and, getLsbD_one_shiftLeft hi]
    by_cases he : i = k
    · subst he; simp [hb]
    · simp [he]
  · intro h h0
    have := congrArg (·.getLsbD k) h0
    simp [getLsbD_one_shiftLeft hk, h] at this

section Bits

variable {b : BitVec 32} {m : Int} {R : Int → Prop}

/-- Bit `i` of a bitmap under the maximum `m` records whether position `m - (i + 1)` was
received. -/
def Bits (b : BitVec 32) (m : Int) (R : Int → Prop) : Prop := ∀ i < 32, b.getLsbD i = true ↔ R (m - (i + 1))

theorem Bits.congr {R' : Int → Prop} (h : Bits b m R) (hR : ∀ y, R y ↔ R' y) : Bits b m R' :=
  fun i hi => (h i hi).trans (hR _)

/-- With all bits set, everything below the maximum counts as received. -/
theorem bits_full (h : ∀ y < m, R y) : Bits (~~~0#32) m R := fun i hi => by
  simp only [BitVec.getLsbD_not, hi, decide_true, Bool.true_and, BitVec.getLsbD_zero, Bool.not_false, true_iff]
  exact h _ (by omega)

theorem Bits.test (h : Bits b m R) (hlo : m - 32 ≤ x) (hhi : x < m) :
    b &&& 1#32 <<< (m - x - 1).toNat ≠ 0#32 ↔ R x := by
  rw [and_one_shiftLeft_ne_zero b (by omega), h _ (by omega)]
  rw [show m - ((m - x - 1).toNat + 1 : Int) = x by omega]

theorem Bits.set (h : Bits b m R) (hhi : x < m) :
    Bits (b ||| 1#32 <<< (m - x - 1).toNat) m fun y => R y ∨ y = x := fun i hi => by
  rw [BitVec.getLsbD_or, getLsbD_one_shiftLeft hi, Bool.or_eq_true, h i hi, decide_eq_true_iff]
  have : i = (m - x - 1).toNat ↔ m - (i + 1) = x := by omega
  rw [this]

theorem getLsbD_shifted (b : BitVec 32) (d : Int) (hi : i < 32) (hd : 0 < d) :
    (if d < 32 then b <<< d.toNat else 0#32).getLsbD i = true ↔ d ≤ i ∧ b.getLsbD (i - d.toNat) = true := by
  split
  · simp only [BitVec.getLsbD_shiftLeft, hi]
    by_cases hid : i < d.toNat
    · simp [show ¬ d ≤ i by omega]
    · simp [show d ≤ i by omega]
  · simp only [BitVec.getLsbD_zero, Bool.false_eq_true, false_iff]
    omega

/-- The maximum moves by up to the size of the window. -/
theorem Bits.shift (h : Bits b m R) (hm : R m) (hno : ∀ y, m < y → ¬ R y) (hx : m < x) :
    Bits ((if x - m < 32 then b <<< (x - m).toNat else 0#32) ||| 1#32 <<< (x - m - 1).toNat) x
      fun y => R y ∨ y = x := fun i hi => by
  have hR : (R (x - (i + 1)) ∨ x - (i + 1) = x) ↔ R (x - (i + 1)) := ⟨fun h => h.resolve_right (by omega), .inl⟩
  show _ ↔ (R (x - (i + 1)) ∨ x - (i + 1) = x)
  rw [BitVec.getLsbD_or, getLsbD_one_shiftLeft hi, Bool.or_eq_true, decide_eq_true_iff,
    getLsbD_shifted b _ hi (by omega), hR]
  rcases Int.lt_trichotomy m (x - (i + 1)) with hlt | heq | hgt
  · -- between the old and the new maximum: nothing was received
    simp only [hno _ hlt, iff_false]
    omega
  · -- the old maximum
    simp only [← heq, hm, iff_true]
    exact .inr (by omega)
  · rw [h _ (by omega), show m - ((i - (x - m).toNat : Nat) + 1) = x - (i + 1) by omega]
    exact ⟨fun h => h.elim And.right (by omega), fun h => .inl ⟨by omega, h⟩⟩

/-- The maximum moves further: nothing that the window covers was received. -/
theorem bits_jump (hno : ∀ y, m < y → ¬ R y) (hx : m + 32 < x) : Bits 0#32 x fun y => R y ∨ y = x := fun i hi => by
  have h1 : ¬ R (x - (i + 1)) := hno _ (by omega)
  have h2 : x - (i + 1 : Int) ≠ x := by omega
  simp [h1, h2]

/-- One `Accept` of a window whose maximum stands for the position `m`, of a counter that
stands for `x`: it is accepted if it is not further behind than 32 and was not received,
and then it is recorded. -/
theorem accept_position (hp : w.primed = true) (hd : w.diff c = x - m) (hc : c = w.max ↔ x = m)
    (hb : Bits w.bitmap m R) (hm : R m) (hno : ∀ y, m < y → ¬ R y) :
    (m - 32 ≤ x ∧ ¬ R x ∧ ∃ b, Bits b (if m < x then x else m) (fun y => R y ∨ y = x) ∧
        w.accept c = (true, { w with max := if m < x then c else w.max, bitmap := b })) ∨
      (¬ (m - 32 ≤ x ∧ ¬ R x) ∧ w.accept c = (false, w)) := by
  simp only [Window.accept, hp, hc, hd, windowSize]
  rcases Int.lt_trichotomy x m with hlt | heq | hgt
  · -- behind: answered from the bit
    rw [if_neg (Int.ne_of_lt hlt), if_pos (Int.sub_neg_of_lt hlt)]
    simp only [if_neg (Int.lt_asymm hlt)]
    by_cases hout : x - m < -32
    · rw [if_pos hout]
      exact .inr ⟨by omega, rfl⟩
    have htest := hb.test (show m - 32 ≤ x by omega) hlt
    rw [if_neg hout, show -(x - m) - 1 = m - x - 1 by omega]
    by_cases hr : R x
    · rw [if_pos (htest.2 hr)]
      exact .inr ⟨fun h => h.2 hr, rfl⟩
    · rw [if_neg (mt htest.1 hr)]
      exact .inl ⟨by omega, hr, _, hb.set hlt, rfl⟩
  · rw [if_pos heq]
    exact .inr ⟨fun h => h.2 (heq ▸ hm), rfl⟩
  -- ahead: the maximum moves
  rw [if_neg (Int.ne_of_gt hgt), if_neg (show ¬ x - m < 0 by omega)]
  simp only [if_pos hgt]
  by_cases hle : x - m ≤ 32
  · rw [if_pos hle]
    exact .inl ⟨by omega, hno x hgt, _, hb.shift hm hno hgt, rfl⟩
  · rw [if_neg hle]
    exact .inl ⟨by omega, hno x hgt, _, bits_jump hno (by omega), rfl⟩

end Bits

/-! ## The relation -/

/-- The window `w` after the reference accepted `seen`. -/
structure Tracks (w : Window) (seen : List (BitVec 32)) : Prop where
  initialBitmap : w.initialBitmap = ~~~0#32
  rollover : w.rollover = false
  encRollover : w.encRollover = false
  primed : w.primed = !seen.isEmpty
  mem : seen ≠ [] → w.max ∈ seen
  max : ∀ s ∈ seen, s.toNat ≤ w.max.toNat
  bits : seen ≠ [] → Bits w.bitmap w.max.toNat (Received seen)

theorem tracks_new : Tracks newWindowNoRollover [] where
  initialBitmap := rfl
  rollover := rfl
  encRollover := rfl
  primed := rfl
  mem h := absurd rfl h
  max _ h := absurd h not_mem_nil
  bits h := absurd rfl h

namespace Tracks

theorem diff_eq (h : Tracks w seen) (c : BitVec 32) : w.diff c = (c.toNat : Int) - w.max.toNat := by
  simp [Window.diff, h.encRollover, h.rollover]

theorem primed_of_ne (h : Tracks w seen) (hne : seen ≠ []) : w.primed = true := by
  simp [h.primed, hne]

/-- The first counter anchors the window, with every counter below it marked
as received. -/
theorem anchor (h : Tracks w []) (c : BitVec 32) : (w.accept c).1 = true ∧ Tracks (w.accept c).2 [c] := by
  have hp : w.primed = false := h.primed
  refine ⟨by simp [Window.accept, hp], ?_⟩
  simp only [Window.accept, hp, Bool.not_false, if_true]
  refine ⟨h.initialBitmap, h.rollover, h.encRollover, rfl, fun _ => mem_singleton_self c, ?_, ?_⟩
  · intro s hs
    rw [mem_singleton] at hs
    rw [hs]
  · intro _
    rw [h.initialBitmap]
    exact bits_full fun y hy => .inl ⟨c, rfl, Int.le_of_lt hy⟩

/-- One `Accept` answers as the reference does and keeps the relation. -/
theorem accept (h : Tracks w seen) (c : BitVec 32) :
    (w.accept c).1 = decide (Fresh seen c) ∧
      Tracks (w.accept c).2 (if Fresh seen c then seen ++ [c] else seen) := by
  by_cases hne : seen = []
  · subst hne
    obtain ⟨hr, ht⟩ := h.anchor c
    exact ⟨hr, ht⟩
  have hmax := h.mem hne
  have hfresh := fresh_iff hmax h.max c
  have hcm : c = w.max ↔ (c.toNat : Int) = w.max.toNat := by
    rw [← BitVec.toNat_inj]
    omega
  rcases accept_position (h.primed_of_ne hne) (h.diff_eq c) hcm (h.bits hne) (.inr ⟨w.max, hmax, rfl⟩)
    fun y hy => not_received_of_gt h.max hy with ⟨hlo, hr, b, hb, heq⟩ | ⟨hno, heq⟩
  · have hf : Fresh seen c := hfresh.2 ⟨hlo, hr⟩
    rw [heq, if_pos hf, decide_eq_true hf]
    refine ⟨rfl, h.initialBitmap, h.rollover, h.encRollover, ?_, fun _ => ?_, fun s hs => ?_, fun _ => ?_⟩
    · simp [h.primed_of_ne hne]
    · split
      · exact mem_append_right _ (mem_singleton_self c)
      · exact mem_append_left _ hmax
    · dsimp only
      have hs : s.toNat ≤ w.max.toNat ∨ s = c := by
        rcases mem_append.mp hs with hs | hs
        · exact .inl (h.max s hs)
        · exact .inr (mem_singleton.mp hs)
      split <;> rcases hs with hs | rfl <;> omega
    · refine Bits.congr ?_ fun y => (received_append hne c y).symm
      split
      · rwa [if_pos (by assumption)] at hb
      · rwa [if_neg (by assumption)] at hb
  · have hf : ¬ Fresh seen c := fun hf => hno (hfresh.1 hf)
    rw [heq, if_neg hf, decide_eq_false hf]
    exact ⟨rfl, h⟩

end Tracks

theorem window_sim : Machine.Sim windowMachine reference Tracks := by
  intro w seen c h
  obtain ⟨hr, ht⟩ := h.accept c
  simp only [reference]
  by_cases hf : Fresh seen c
  · simp only [hf] at hr ht ⊢
    exact ⟨hr, ht⟩
  · simp only [hf] at hr ht ⊢
    exact ⟨hr, ht⟩

/-- The secure-session window decides every counter of every run as the
reference does that stores all accepted counters, so it accepts no counter
twice. -/
theorem window_refines_reference (cs : List (BitVec 32)) :
    windowMachine.outputs newWindowNoRollover cs = reference.outputs [] cs ∧
      (∀ c, ((windowMachine.final newWindowNoRollover cs).accept c).1 = true ↔
        Fresh (windowMachine.accepted newWindowNoRollover cs) c) ∧
      (windowMachine.accepted newWindowNoRollover cs).Nodup := by
  have hacc : windowMachine.accepted newWindowNoRollover cs = reference.final [] cs := by
    rw [window_sim.accepted_eq tracks_new, final_reference, nil_append]
  refine ⟨window_sim.outputs_eq tracks_new cs, fun c => ?_, ?_⟩
  · have ht : Tracks (windowMachine.final newWindowNoRollover cs) (reference.final [] cs) :=
      window_sim.final tracks_new cs
    rw [hacc, (ht.accept c).1, decide_eq_true_iff]
  · rw [hacc]
    exact nodup_reference nodup_nil cs

/-! ## The group window and unbounded positions -/

/-- A position is the only one of its counter in the half-open range around the maximum. -/
theorem position_iff {m : Int} :
    x = position m c ↔ (x - c.toNat) % 2 ^ 32 = 0 ∧ m - 2 ^ 31 ≤ x ∧ x < m + 2 ^ 31 := by
  unfold position
  omega

/-- What counts as received: the first accepted position and all below it, and the
accepted ones. -/
def UnwrappedReceived (u : Unwrapped) (x : Int) : Prop := x ≤ u.first ∨ x ∈ u.accepted

/-- The group window `w` after the reference came to the state. -/
structure Unwraps (w : Window) (u : Unwrapped) : Prop where
  encRollover : w.encRollover = true
  primed : w.primed = true
  max : (w.max.toNat : Int) = u.max % 2 ^ 32
  first : u.first ≤ u.max
  head : u.accepted.head? = some u.first
  mem : u.max ∈ u.accepted
  le : ∀ x ∈ u.accepted, x ≤ u.max
  nodup : u.accepted.Nodup
  bits : Bits w.bitmap u.max (UnwrappedReceived u)

theorem Unwraps.fresh_iff (h : Unwraps w u) : u.Fresh x ↔ u.max - 32 ≤ x ∧ ¬ UnwrappedReceived u x := by
  unfold UnwrappedReceived
  rw [not_or, not_le]
  have hle := h.le x
  have hfirst := h.first
  have hne : x ∉ u.accepted → x ≠ u.max := fun hx he => hx (he ▸ h.mem)
  constructor
  · rintro (hgt | ⟨hlo, hlt, hf, hx⟩)
    · exact ⟨by omega, by omega, fun hx => absurd (hle hx) (by omega)⟩
    · exact ⟨hlo, hf, hx⟩
  rintro ⟨hlo, hf, hx⟩
  rcases Int.lt_trichotomy x u.max with hlt | heq | hgt
  · exact .inr ⟨hlo, hlt, hf, hx⟩
  · exact absurd heq (hne hx)
  · exact .inl hgt

/-- The folded distance is the distance of the positions. -/
theorem Unwraps.diff_eq (h : Unwraps w u) (c : BitVec 32) : w.diff c = position u.max c - u.max := by
  have hmax := h.max
  have hhalf : maxCounterIncrease2pow31 = 2 ^ 31 := rfl
  have htop : maxCounter32 = 2 ^ 32 - 1 := rfl
  simp only [Window.diff, h.encRollover, if_true, position]
  split
  · omega
  · split <;> omega

/-- One `Accept` answers as the reference does and keeps the relation. -/
theorem Unwraps.accept (h : Unwraps w u) (c : BitVec 32) :
    (w.accept c).1 = decide (u.Fresh (position u.max c)) ∧
      Unwraps (w.accept c).2 (if u.Fresh (position u.max c) then u.add (position u.max c) else u) := by
  have hmax := h.max
  have hpos := position_iff.1 (rfl : position u.max c = position u.max c)
  have hc : c = w.max ↔ position u.max c = u.max := by
    rw [← BitVec.toNat_inj]
    omega
  have hno : ∀ y, u.max < y → ¬ UnwrappedReceived u y := fun y hy hr => by
    have := h.first
    rcases hr with hr | hr
    · omega
    · exact absurd (h.le y hr) (by omega)
  generalize hx : position u.max c = x at *
  rcases accept_position h.primed (hx ▸ h.diff_eq c) hc h.bits (.inr h.mem) hno with ⟨hlo, hr, b, hb, heq⟩ | ⟨hno, heq⟩
  · have hf : u.Fresh x := h.fresh_iff.2 ⟨hlo, hr⟩
    rw [heq, if_pos hf, decide_eq_true hf]
    refine ⟨rfl, h.encRollover, h.primed, ?_, ?_, ?_, ?_, fun y hy => ?_, ?_, hb.congr fun y => ?_⟩
    · dsimp only [Unwrapped.add]
      split <;> omega
    · have := h.first
      dsimp only [Unwrapped.add]
      split <;> omega
    · exact List.head?_append_of_ne_nil _ (ne_nil_of_mem h.mem) ▸ h.head
    · dsimp only [Unwrapped.add]
      split
      · exact mem_append_right _ (mem_singleton_self x)
      · exact mem_append_left _ h.mem
    · have hy : y ≤ u.max ∨ y = x := by
        rcases mem_append.mp hy with hy | hy
        · exact .inl (h.le y hy)
        · exact .inr (mem_singleton.mp hy)
      dsimp only [Unwrapped.add]
      split <;> omega
    · refine nodup_append.2 ⟨h.nodup, nodup_singleton x, fun y hy z hz => ?_⟩
      rw [mem_singleton.1 hz]
      exact fun he => hr (.inr (he ▸ hy))
    · simp only [UnwrappedReceived, Unwrapped.add, mem_append, mem_singleton, or_assoc]
  · have hf : ¬ u.Fresh x := fun hf => hno (h.fresh_iff.1 hf)
    rw [heq, if_neg hf, decide_eq_false hf]
    exact ⟨rfl, h⟩

/-- The group window before its first counter, and after. -/
def UnwrapsOption (w : Window) : Option Unwrapped → Prop
  | none => w = newWindowEncryptedRollover
  | some u => Unwraps w u

theorem unwraps_anchor (c : BitVec 32) :
    Unwraps (newWindowEncryptedRollover.accept c).2 { first := c.toNat, max := c.toNat, accepted := [(c.toNat : Int)] } where
  encRollover := rfl
  primed := rfl
  max := by
    show (c.toNat : Int) = (c.toNat : Int) % 2 ^ 32
    omega
  first := Int.le_refl _
  head := rfl
  mem := mem_singleton_self _
  le x hx := Int.le_of_eq (mem_singleton.1 hx)
  nodup := nodup_singleton _
  bits := bits_full fun _ hy => .inl (Int.le_of_lt hy)

theorem unwraps_sim : Machine.Sim windowMachine unwrapped UnwrapsOption := by
  intro w u c h
  cases u with
  | none =>
    cases h
    exact ⟨rfl, unwraps_anchor c⟩
  | some u =>
    obtain ⟨hr, ht⟩ := Unwraps.accept h c
    simp only [unwrapped]
    by_cases hf : u.Fresh (position u.max c)
    · simp only [hf] at hr ht ⊢
      exact ⟨hr, ht⟩
    · simp only [hf] at hr ht ⊢
      exact ⟨hr, ht⟩

/-- The group window decides every counter of every run on unbounded positions: as the
reference does, whose maximum the window keeps modulo `2 ^ 32`, and which takes a
counter for its only position in the half-open range around the maximum. No position
is accepted twice. -/
theorem group_window_unwraps (cs : List (BitVec 32)) :
    windowMachine.outputs newWindowEncryptedRollover cs = unwrapped.outputs none cs ∧
      (∀ u ∈ unwrapped.final none cs,
        ((windowMachine.final newWindowEncryptedRollover cs).max.toNat : Int) = u.max % 2 ^ 32 ∧
        u.max ∈ u.accepted ∧ (∀ x ∈ u.accepted, x ≤ u.max) ∧ u.accepted.head? = some u.first ∧
        u.accepted.Nodup ∧
        ∀ c, ((windowMachine.final newWindowEncryptedRollover cs).accept c).1 = true ↔
          ∃ x : Int, (x - c.toNat) % 2 ^ 32 = 0 ∧ u.max - 2 ^ 31 ≤ x ∧ x < u.max + 2 ^ 31 ∧
            (u.max < x ∨ (u.max - 32 ≤ x ∧ x < u.max ∧ u.first < x ∧ x ∉ u.accepted))) := by
  have hnew : UnwrapsOption newWindowEncryptedRollover none := rfl
  refine ⟨unwraps_sim.outputs_eq hnew cs, fun u hu => ?_⟩
  have h := unwraps_sim.final hnew cs
  rw [Option.mem_def.1 hu] at h
  refine ⟨h.max, h.mem, h.le, h.head, h.nodup, fun c => ?_⟩
  rw [(Unwraps.accept h c).1, decide_eq_true_iff]
  constructor
  · intro hf
    obtain ⟨hmod, hlo, hhi⟩ := position_iff.1 (rfl : position u.max c = position u.max c)
    exact ⟨position u.max c, hmod, hlo, hhi, hf⟩
  · rintro ⟨x, hmod, hlo, hhi, hf⟩
    rwa [← position_iff.2 ⟨hmod, hlo, hhi⟩]

end GF.Proof.Mrp
