import GoFabric.Framework.System

/-!
# Numbers handed out around a range

A counter walks the numbers from `lo` to `hi` and around. It moves over the numbers
that are in use (`Advance`). Between two times that it hands out the same number,
every other number of the range has been in use (`Passed.all`), because the counter
had to pass it.
-/

namespace GF.Cyclic

variable {lo hi : Nat} {P H : Nat → Prop} {n c c' c'' : Nat}

/-- The counter moves from `c` to `c'`, upwards or around the end of the range, over
numbers with the property. -/
inductive Advance (lo hi : Nat) (P : Nat → Prop) (c c' : Nat) : Prop
  | up (hle : c ≤ c') (h : ∀ m, c ≤ m → m < c' → P m)
  | around (htop : ∀ m, c ≤ m → m ≤ hi → P m) (h : ∀ m, lo ≤ m → m < c' → P m)

/-- Below `c` and from there on. -/
theorem join {A B : Nat → Prop} (h : ∀ m, A m → m < c → P m) (h' : ∀ m, c ≤ m → B m → P m) (m : Nat) (hm : A m)
    (hm' : B m) : P m := by
  by_cases hlt : m < c
  · exact h m hm hlt
  · exact h' m (Nat.le_of_not_lt hlt) hm'

namespace Advance

theorem refl (c : Nat) : Advance lo hi P c c := .up (Nat.le_refl c) fun _ h h' => absurd h (Nat.not_le_of_lt h')

/-- Over one number. -/
theorem one (h : P c) : Advance lo hi P c (c + 1) := by
  refine .up (Nat.le_succ c) fun m hm hm' => ?_
  rwa [show m = c by omega]

theorem mono {Q : Nat → Prop} (h : Advance lo hi P c c') (hPQ : ∀ m, P m → Q m) : Advance lo hi Q c c' := by
  cases h with
  | up hle h => exact .up hle fun m hm hm' => hPQ m (h m hm hm')
  | around htop h => exact .around (fun m hm hm' => hPQ m (htop m hm hm')) fun m hm hm' => hPQ m (h m hm hm')

theorem trans (h : Advance lo hi P c c') (h' : Advance lo hi P c' c'') : Advance lo hi P c c'' := by
  cases h with
  | up hle h =>
    cases h' with
    | up hle' h' => exact .up (Nat.le_trans hle hle') (join h h')
    | around htop' h' => exact .around (join h htop') h'
  | around htop h =>
    cases h' with
    | up hle' h' => exact .around htop (join h h')
    | around htop' h' => exact .around htop h'

/-- Over the last number of the range. -/
theorem last (h : P hi) : Advance lo hi P hi lo := by
  refine .around (fun m hm hm' => ?_) fun m hm hm' => absurd hm (Nat.not_le_of_lt hm')
  rwa [Nat.le_antisymm hm' hm]

end Advance

/-- Since `n` was handed out, the counter has come to `c` over numbers with the
property: it is still above `n`, or it has been around. -/
inductive Passed (lo hi : Nat) (H : Nat → Prop) (n c : Nat) : Prop
  | up (hlt : n < c) (h : ∀ m, n < m → m < c → H m)
  | around (htop : ∀ m, n < m → m ≤ hi → H m) (h : ∀ m, lo ≤ m → m < c → m ≠ n → H m)

namespace Passed

theorem start (n : Nat) : Passed lo hi H n (n + 1) := .up (Nat.lt_succ_self n) fun _ h h' => absurd h (by omega)

theorem mono {H' : Nat → Prop} (h : Passed lo hi H n c) (hH : ∀ m, H m → H' m) : Passed lo hi H' n c := by
  cases h with
  | up hlt h => exact .up hlt fun m hm hm' => hH m (h m hm hm')
  | around htop h => exact .around (fun m hm hm' => hH m (htop m hm hm')) fun m hm hm' hne => hH m (h m hm hm' hne)

/-- Where all numbers have the property, it does not matter where the counter is. -/
theorem of_all (h : ∀ m, lo ≤ m → m ≤ hi → H m) (hlo : lo ≤ n) (hc : c ≤ hi + 1) : Passed lo hi H n c :=
  .around (fun m hm hm' => h m (by omega) hm') fun m hm hm' _ => h m hm (by omega)

/-- The counter has come to `n`, the first number of its way without `P`, and on from
there to the first without `H`. -/
theorem of_advance {P : Nat → Prop} (hn : Advance lo hi P c n) (hc : Advance lo hi H c c') (hPH : ∀ m, P m → H m)
    (hHn : H n) (hlon : lo ≤ n) (hfree : ¬ H c') (hlo : lo ≤ c') (hhi : c' ≤ hi) : Passed lo hi H n c' := by
  have hne : c' ≠ n := fun he => hfree (he ▸ hHn)
  cases hn with
  | up hle hn =>
    cases hc with
    | up hle' hc =>
      have hlt : n < c' := by
        rcases Nat.lt_or_gt_of_ne hne with hlt | hlt
        · exact absurd (hPH c' (hn c' hle' hlt)) hfree
        · exact hlt
      exact .up hlt fun m hm hm' => hc m (by omega) hm'
    | around htop hc => exact .around (fun m hm hm' => htop m (by omega) hm') fun m hm hm' _ => hc m hm hm'
  | around htop hn =>
    cases hc with
    | up hle' hc => exact absurd (hPH c' (htop c' hle' hhi)) hfree
    | around htop' hc =>
      have hlt : n < c' := by
        rcases Nat.lt_or_gt_of_ne hne with hlt | hlt
        · exact absurd (hPH c' (hn c' hlo hlt)) hfree
        · exact hlt
      exact .up hlt fun m hm hm' => hc m (by omega) hm'

theorem advance (h : Passed lo hi H n c) (ha : Advance lo hi H c c') : Passed lo hi H n c' := by
  cases h with
  | up hlt h =>
    cases ha with
    | up hle ha => exact .up (Nat.lt_of_lt_of_le hlt hle) (join h ha)
    | around htop ha => exact .around (join h htop) fun m hm hm' _ => ha m hm hm'
  | around htop h =>
    cases ha with
    | up hle ha => exact .around htop (join h fun m hm hm' _ => ha m hm hm')
    | around htop' ha => exact .around htop fun m hm hm' _ => ha m hm hm'

/-- The counter comes to `n` again: all other numbers have the property. -/
theorem all (h : Passed lo hi H n c) (ha : Advance lo hi H c n) {m : Nat} (hlo : lo ≤ m) (hhi : m ≤ hi) (hne : m ≠ n) :
    H m := by
  cases h with
  | up hlt h =>
    cases ha with
    | up hle ha => omega
    | around htop ha =>
      rcases Nat.lt_or_gt_of_ne hne with hmn | hmn
      · exact ha m hlo hmn
      · exact join h htop m hmn hhi
  | around htop h =>
    rcases Nat.lt_or_gt_of_ne hne with hmn | hmn
    · cases ha with
      | up hle ha => exact join h (fun m hm hm' _ => ha m hm hm') m hlo hmn hne
      | around htop' ha => exact ha m hlo hmn
    · exact htop m hmn hhi

/-- Along a run whose steps take the counter over numbers that are held before or after them, what
the counter has passed since `n` was handed out has been held. -/
theorem run {σ ε : Type _} {S : System σ ε} {counter : σ → Nat} (Held : Nat → σ → Prop) {I : σ → Prop}
    {Q : σ → ε → Prop}
    (hstep : ∀ s e t, I s → Q s e → S.step s e = some t →
      I t ∧ Advance lo hi (fun m => Held m s ∨ Held m t) (counter s) (counter t))
    {s s' : σ} {es : List ε} (hs : I s) (hq : S.Meets Q s es) (hrun : S.run s es = some s')
    (hH : ∀ m, S.Visits (Held m) s es → H m) (hp : Passed lo hi H n (counter s)) :
    Passed lo hi H n (counter s') := by
  induction es generalizing s with
  | nil => exact Option.some.inj hrun ▸ hp
  | cons e es ih =>
    obtain ⟨t, ht, hrun⟩ := System.run_cons.1 hrun
    have hHt : ∀ m, S.Visits (Held m) t es → H m := fun m hm => hH m (hm.step ht)
    obtain ⟨hIt, hway⟩ := hstep s e t hs hq.1 ht
    refine ih hIt (hq.2 t ht) hrun hHt (hp.advance (hway.mono fun m hm => ?_))
    rcases hm with hm | hm
    · exact hH m (.start hm _)
    · exact hHt m (.start hm _)

end Passed

end GF.Cyclic
