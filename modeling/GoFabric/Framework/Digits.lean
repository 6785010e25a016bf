import Mathlib.Data.Nat.Digits.Lemmas

/-!
# Numbers as a fixed count of digits

`lowDigits b n v` are the `n` low digits of `v` in base `b`, least significant
first. Below `b ^ n` they determine the number (`ofDigits_lowDigits`), and every
list of `n` digits is the digits of its number (`lowDigits_ofDigits`).
-/

namespace GF

/-- A list is read back from what its items are written as. -/
theorem map_map_cancel {α β : Type _} {f : α → β} {g : β → α} {l : List α} (h : ∀ a ∈ l, g (f a) = a) :
    (l.map f).map g = l := by
  rw [List.map_map]
  exact (List.map_congr_left h).trans l.map_id

/-- The `n` low digits of `v` in base `b`, least significant first. -/
def lowDigits (b : Nat) : Nat → Nat → List Nat
  | 0, _ => []
  | n + 1, v => v % b :: lowDigits b n (v / b)

@[simp] theorem length_lowDigits (b n v : Nat) : (lowDigits b n v).length = n := by
  induction n generalizing v with
  | zero => rfl
  | succ n ih => rw [lowDigits, List.length_cons, ih]

theorem lowDigits_lt {b : Nat} (hb : 0 < b) {n v : Nat} : ∀ d ∈ lowDigits b n v, d < b := by
  induction n generalizing v with
  | zero => exact fun d hd => absurd hd List.not_mem_nil
  | succ n ih => exact List.forall_mem_cons.mpr ⟨Nat.mod_lt v hb, ih⟩

theorem ofDigits_lowDigits {b n v : Nat} (h : v < b ^ n) : Nat.ofDigits b (lowDigits b n v) = v := by
  induction n generalizing v with
  | zero =>
    rw [Nat.pow_zero] at h
    rw [lowDigits, Nat.ofDigits_nil]
    omega
  | succ n ih =>
    have hdiv : v / b < b ^ n := Nat.div_lt_of_lt_mul (by rwa [← Nat.pow_succ'])
    rw [lowDigits, Nat.ofDigits_cons, ih hdiv]
    exact Nat.mod_add_div v b

theorem lowDigits_ofDigits {b : Nat} {l : List Nat} (h : ∀ d ∈ l, d < b) :
    lowDigits b l.length (Nat.ofDigits b l) = l := by
  induction l with
  | nil => rfl
  | cons d l ih =>
    obtain ⟨hd, hl⟩ := List.forall_mem_cons.mp h
    have hpos : 0 < b := Nat.lt_of_le_of_lt (Nat.zero_le d) hd
    rw [List.length_cons, lowDigits, Nat.ofDigits_cons]
    rw [Nat.add_mul_mod_self_left, Nat.mod_eq_of_lt hd, Nat.add_mul_div_left d _ hpos, Nat.div_eq_of_lt hd,
      Nat.zero_add, ih hl]

/-- Padded with zeros, the digits of a number are as many as they need to be. -/
theorem rightpad_digits {b : Nat} (hb : 1 < b) {n v : Nat} (h : v < b ^ n) :
    (Nat.digits b v).rightpad n 0 = lowDigits b n v := by
  have hlen : (Nat.digits b v).length ≤ n := (Nat.digits_length_le_iff hb v).mpr h
  refine Nat.ofDigits_inj_of_len_eq hb ?_ ?_ (lowDigits_lt (by omega)) ?_
  · rw [List.length_rightpad, length_lowDigits]
    omega
  · intro d hd
    rcases List.mem_append.mp hd with hd | hd
    · exact Nat.digits_lt_base hb hd
    · rw [List.eq_of_mem_replicate hd]
      omega
  · rw [ofDigits_lowDigits h, List.rightpad, Nat.ofDigits_append, Nat.ofDigits_digits,
      Nat.ofDigits_replicate_zero, Nat.mul_zero, Nat.add_zero]

end GF
