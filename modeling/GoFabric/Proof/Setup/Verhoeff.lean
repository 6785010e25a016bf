import GoFabric.Framework.CheckDigit
import GoFabric.Spec.Onboarding
import Mathlib.Algebra.Group.MinimalAxioms

/-!
# The check digit

The table of `verhoeffCheck` is the multiplication of a group, and a string ends
in its check digit when its digits, each permuted by its position from the
right, multiply to one (`checked_iff`).
-/

namespace GF.Proof.Setup

open GF.Impl.Setup GF.Spec.Onboarding List

variable {l s : List Byte}

theorem mod_eight_lt (k : Nat) : k % 8 < 8 := Nat.mod_lt k (by decide)

/-- The digits, with the table as multiplication. -/
def Symbol := Fin 10
deriving DecidableEq, Fintype

/-- A digit as an element of the group. -/
def symbol (d : Fin 10) : Symbol := d

instance : Mul Symbol := ⟨verhoeffTableD⟩
instance : One Symbol := ⟨⟨0, by decide⟩⟩
instance : Inv Symbol := ⟨verhoeffTableInv⟩

instance : Group Symbol :=
  Group.ofLeftAxioms (by decide +kernel) (by decide +kernel) (by decide +kernel)

/-- The permutation at a position. -/
def permuted (k : Nat) (d : Symbol) : Symbol := verhoeffTableP ⟨k % 8, mod_eight_lt k⟩ d

theorem permuted_eq (k : Nat) (d : Symbol) : permuted k d = verhoeffTableP (Fin.ofNat 8 k) d := rfl

theorem permuted_injective (k : Nat) : Function.Injective (permuted k) := by
  have h : ∀ r : Fin 8, Function.Injective (verhoeffTableP r) := by decide
  exact h (Fin.ofNat 8 k)

theorem permuted_antisymmetric (k : Nat) (x y : Symbol) (h : x ≠ y) :
    permuted k x * permuted (k + 1) y ≠ permuted k y * permuted (k + 1) x := by
  have hall : ∀ (r : Fin 8) (x y : Fin 10), x ≠ y →
      verhoeffTableD (verhoeffTableP r x) (verhoeffTableP (r + 1) y) ≠
        verhoeffTableD (verhoeffTableP r y) (verhoeffTableP (r + 1) x) := by decide +kernel
  have hnext : (Fin.ofNat 8 (k + 1)) = Fin.ofNat 8 k + 1 := by
    apply Fin.ext
    simp [Fin.val_add]
  simp only [permuted_eq, hnext]
  exact hall (Fin.ofNat 8 k) x y h

/-! ## Digits -/

def symbolByte (d : Symbol) : Byte := digitByte (Fin.val d)

theorem digitOf_symbolByte (d : Symbol) : digitOf (symbolByte d) = some d := by
  have h : ∀ d : Fin 10, digitOf (digitByte d.val) = some d := by decide
  exact h d

theorem symbolByte_of_digitOf {ch : Byte} {d : Symbol} (h : digitOf ch = some d) : ch = symbolByte d := by
  have hall : ∀ ch : Byte, ∀ d ∈ digitOf ch, ch = digitByte d.val := by decide +kernel
  exact hall ch d h

theorem symbolByte_injective : Function.Injective symbolByte := fun x y h =>
  Option.some.inj (((digitOf_symbolByte x).symm.trans (congrArg digitOf h)).trans (digitOf_symbolByte y))

theorem verhoeffLoop_cons {ch : Byte} {d : Fin 10} (h : digitOf ch = some d) (i : Nat) (c : Fin 10) (l : List Byte) :
    verhoeffLoop i c (ch :: l) =
      verhoeffLoop (i + 1) (verhoeffTableD c (verhoeffTableP (Fin.ofNat 8 (i + 1)) d)) l := by
  rw [verhoeffLoop, h]

theorem verhoeffLoop_digits (ds : List Symbol) (i : Nat) (c : Symbol) :
    verhoeffLoop i c (ds.map symbolByte) = .ok (c * weight permuted (i + 1) ds : Symbol) := by
  induction ds generalizing i c with
  | nil => exact congrArg Except.ok (mul_one c).symm
  | cons d ds ih =>
    refine (verhoeffLoop_cons (digitOf_symbolByte d) i c _).trans ?_
    refine (ih (i + 1) (c * permuted (i + 1) d)).trans ?_
    rw [weight, mul_assoc]

theorem digits_of_verhoeffLoop {i : Nat} {c r : Fin 10} (h : verhoeffLoop i c l = .ok r) :
    ∃ ds : List Symbol, l = ds.map symbolByte := by
  induction l generalizing i c with
  | nil => exact ⟨[], rfl⟩
  | cons ch l ih =>
    rw [verhoeffLoop] at h
    split at h
    · cases h
    rename_i d hd
    obtain ⟨ds, rfl⟩ := ih h
    have hch : ch = symbolByte (symbol d) := symbolByte_of_digitOf hd
    exact ⟨symbol d :: ds, by rw [map_cons, hch]⟩

theorem verhoeffCheck_digits (ds : List Symbol) :
    verhoeffCheck (ds.map symbolByte) = .ok ((weight permuted 1 ds.reverse)⁻¹ : Symbol) := by
  unfold verhoeffCheck
  rw [← map_reverse]
  show (verhoeffLoop 0 (1 : Symbol) _).bind _ = _
  rw [verhoeffLoop_digits, one_mul]
  rfl

theorem digits_of_verhoeffCheck {r : Fin 10} (h : verhoeffCheck l = .ok r) :
    ∃ ds : List Symbol, l = ds.map symbolByte := by
  unfold verhoeffCheck at h
  cases hl : verhoeffLoop 0 0 l.reverse with
  | error e =>
    rw [hl] at h
    cases h
  | ok c =>
    obtain ⟨ds, hds⟩ := digits_of_verhoeffLoop hl
    exact ⟨ds.reverse, by rw [map_reverse, ← hds, reverse_reverse]⟩

/-- The product of a string is that of its last digit and the others. -/
theorem weight_concat (ds : List Symbol) (check : Symbol) :
    weight permuted 0 (ds ++ [check]).reverse = check * weight permuted 1 ds.reverse := by
  have hfirst : permuted 0 check = check := by
    have h : ∀ d : Fin 10, verhoeffTableP 0 d = d := by decide
    exact h check
  rw [reverse_append, reverse_singleton, singleton_append, weight, hfirst]

/-- A string ends in its check digit exactly when it is digits that multiply to
one. -/
theorem checked_iff :
    checked s = true ↔ ∃ ds : List Symbol, ds ≠ [] ∧ s = ds.map symbolByte ∧ weight permuted 0 ds.reverse = 1 := by
  constructor
  · intro h
    unfold checked at h
    split at h
    · rename_i check ch hcheck hlast
      obtain ⟨ds, hds⟩ := digits_of_verhoeffCheck hcheck
      have hinv : (weight permuted 1 ds.reverse)⁻¹ = symbol check := by
        rw [hds, verhoeffCheck_digits] at hcheck
        exact Except.ok.inj hcheck
      have hs : s = ds.map symbolByte ++ [symbolByte (symbol check)] := by
        have happ := dropLast_append_getLast? ch hlast
        rw [hds, beq_iff_eq.mp h] at happ
        exact happ.symm
      refine ⟨ds ++ [symbol check], by simp, by rw [hs, map_append, map_singleton], ?_⟩
      rw [weight_concat, ← hinv]
      exact inv_mul_cancel _
    · cases h
  · rintro ⟨ds, hne, rfl, hone⟩
    obtain ⟨ds, check, rfl⟩ : ∃ ds' d, ds = ds' ++ [d] := ⟨_, _, (dropLast_append_getLast hne).symm⟩
    rw [weight_concat] at hone
    have hinv : (weight permuted 1 ds.reverse)⁻¹ = check := (eq_inv_of_mul_eq_one_left hone).symm
    unfold checked
    rw [map_append, map_singleton, dropLast_concat, List.getLast?_concat, verhoeffCheck_digits, hinv]
    exact beq_self_eq_true _

/-- Two strings that both end in their check digits do not differ in one digit,
nor by the order of two neighbours. -/
theorem checked_ne {ds : List Symbol} (h : checked (ds.map symbolByte) = true) (ds' : List Symbol)
    (hne : weight permuted 0 ds.reverse ≠ weight permuted 0 ds'.reverse) :
    checked (ds'.map symbolByte) = false := by
  have hone {ds : List Symbol} (h : checked (ds.map symbolByte) = true) : weight permuted 0 ds.reverse = 1 := by
    obtain ⟨ds₁, -, heq, hone⟩ := checked_iff.mp h
    rwa [← symbolByte_injective.list_map heq] at hone
  rw [← Bool.not_eq_true]
  exact fun h' => hne ((hone h).trans (hone h').symm)

theorem digits_of_checked (h : checked s = true) : ∃ ds : List Symbol, s = ds.map symbolByte := by
  obtain ⟨ds, -, hs, -⟩ := checked_iff.mp h
  exact ⟨ds, hs⟩

theorem map_symbolByte_cons {ds : List Symbol} {before after : List Byte} {x : Byte}
    (h : before ++ x :: after = ds.map symbolByte) :
    ∃ b d a, ds = b ++ d :: a ∧ before = b.map symbolByte ∧ x = symbolByte d ∧ after = a.map symbolByte := by
  obtain ⟨b, rest, rfl, rfl, hrest⟩ := append_eq_map_iff.mp h
  obtain ⟨d, a, rfl, rfl, rfl⟩ := map_eq_cons_iff.mp hrest
  exact ⟨b, d, a, rfl, rfl, rfl, rfl⟩

/-- In a string that ends in its check digit, one digit that is replaced and two
neighbours that change places are noticed. -/
theorem verhoeff_detects_errors {s : List Byte} (h : checked s = true) :
    (∀ before x y after, s = before ++ x :: after → y ≠ x → checked (before ++ y :: after) = false) ∧
    (∀ before x y after, s = before ++ x :: y :: after → x ≠ y → checked (before ++ y :: x :: after) = false) := by
  obtain ⟨ds, rfl⟩ := digits_of_checked h
  constructor
  · intro before x y after heq hne
    obtain ⟨b, dx, a, rfl, rfl, rfl, rfl⟩ := map_symbolByte_cons heq.symm
    -- A character that is no digit is no check digit's string either.
    by_contra hc
    have hc := Bool.eq_true_of_not_eq_false hc
    obtain ⟨ds', hds'⟩ := digits_of_checked hc
    obtain ⟨b', dy, a', -, -, rfl, -⟩ := map_symbolByte_cons hds'
    have hxy : dx ≠ dy := fun hd => hne (congrArg symbolByte hd.symm)
    have hw := weight_replace_ne permuted_injective hxy 0 a.reverse b.reverse
    refine absurd (checked_ne h (b ++ dy :: a) ?_) ?_
    · simpa using hw
    · simpa using hc
  · intro before x y after heq hne
    obtain ⟨b, dx, rest, rfl, rfl, rfl, hrest⟩ := map_symbolByte_cons heq.symm
    obtain ⟨dy, a, rfl, rfl, rfl⟩ := map_eq_cons_iff.mp hrest.symm
    have hxy : dy ≠ dx := fun hd => hne (congrArg symbolByte hd.symm)
    have hw := weight_swap_ne permuted_antisymmetric hxy 0 a.reverse b.reverse
    have hd := checked_ne h (b ++ dy :: dx :: a) (by simpa using hw)
    simpa using hd

/-- In `2363`, one wrong digit, two digits that changed places, and a wrong
check digit. -/
theorem verhoeff_detects_errors_2363 :
    checked [0x32, 0x33, 0x36, 0x33] = true ∧ checked [0x32, 0x33, 0x37, 0x33] = false ∧
      checked [0x33, 0x32, 0x36, 0x33] = false ∧ checked [0x32, 0x33, 0x36, 0x34] = false := by
  have h : checked [0x32, 0x33, 0x36, 0x33] = true := by decide
  refine ⟨h, ?_, ?_, ?_⟩
  · exact (verhoeff_detects_errors h).1 [0x32, 0x33] 0x36 0x37 [0x33] rfl (by decide)
  · exact (verhoeff_detects_errors h).2 [] 0x32 0x33 [0x36, 0x33] rfl (by decide)
  · exact (verhoeff_detects_errors h).1 [0x32, 0x33, 0x36] 0x33 0x34 [] rfl (by decide)

end GF.Proof.Setup
