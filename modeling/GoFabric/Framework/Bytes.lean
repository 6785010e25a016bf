import Mathlib.Data.List.Basic
import Mathlib.Tactic.Ring

/-!
# Byte strings: fixed-width integers, little- and big-endian

A number as `n` bytes, least significant byte first (`leBytes`), and back
(`leNat`); the big-endian form (`beBytes`) is the same bytes in reverse. Reading what
was written gives the number modulo `256 ^ n` (`leNat_leBytes`), so distinct
numbers below that bound have distinct bytes (`leBytes_inj`).
-/

namespace GF

abbrev Byte := BitVec 8

/-- The `n` low bytes of `v`, least significant first. -/
def leBytes : Nat → Nat → List Byte
  | 0, _ => []
  | n + 1, v => BitVec.ofNat 8 v :: leBytes n (v / 256)

/-- The number whose little-endian bytes these are. -/
def leNat : List Byte → Nat
  | [] => 0
  | b :: bs => b.toNat + 256 * leNat bs

/-- The `n` low bytes of `v`, most significant first. -/
def beBytes (n v : Nat) : List Byte := (leBytes n v).reverse

@[simp] theorem length_leBytes (n v : Nat) : (leBytes n v).length = n := by
  induction n generalizing v with
  | zero => rfl
  | succ n ih => simp [leBytes, ih]

@[simp] theorem length_beBytes (n v : Nat) : (beBytes n v).length = n := by
  simp [beBytes, length_leBytes]

theorem leNat_leBytes (n v : Nat) : leNat (leBytes n v) = v % 256 ^ n := by
  induction n generalizing v with
  | zero => simp [leBytes, leNat, Nat.mod_one]
  | succ n ih =>
    simp only [leBytes, leNat, ih, BitVec.toNat_ofNat]
    rw [show 256 ^ (n + 1) = 256 * 256 ^ n from Nat.pow_succ', Nat.mod_mul]

theorem leNat_leBytes_of_lt {n v : Nat} (h : v < 256 ^ n) : leNat (leBytes n v) = v := by
  rw [leNat_leBytes, Nat.mod_eq_of_lt h]

theorem leBytes_inj {n v w : Nat} (hv : v < 256 ^ n) (hw : w < 256 ^ n)
    (h : leBytes n v = leBytes n w) : v = w := by
  rw [← leNat_leBytes_of_lt hv, h, leNat_leBytes_of_lt hw]

theorem leNat_lt (bs : List Byte) : leNat bs < 256 ^ bs.length := by
  induction bs with
  | nil => exact Nat.one_pos
  | cons b bs ih =>
    simp only [leNat, List.length_cons, Nat.pow_succ']
    omega

theorem leNat_append (bs cs : List Byte) : leNat (bs ++ cs) = leNat bs + 256 ^ bs.length * leNat cs := by
  induction bs with
  | nil => simp [leNat]
  | cons b bs ih =>
    simp only [List.cons_append, leNat, ih, List.length_cons, Nat.pow_succ]
    ring

/-- The bytes of the number that bytes stand for are these bytes. -/
theorem leBytes_leNat (bs : List Byte) : leBytes bs.length (leNat bs) = bs := by
  induction bs with
  | nil => rfl
  | cons b bs ih =>
    have hlow : BitVec.ofNat 8 (b.toNat + 256 * leNat bs) = b := by
      apply BitVec.eq_of_toNat_eq
      rw [BitVec.toNat_ofNat]
      omega
    have hhigh : (b.toNat + 256 * leNat bs) / 256 = leNat bs := by omega
    simp [leBytes, leNat, hlow, hhigh, ih]

theorem beBytes_inj {n v w : Nat} (hv : v < 256 ^ n) (hw : w < 256 ^ n)
    (h : beBytes n v = beBytes n w) : v = w :=
  leBytes_inj hv hw (List.reverse_injective h)

/-! ## Bytes at the front of a buffer -/

theorem length_take_drop {α : Type} {l : List α} {pos n : Nat} (h : pos + n ≤ l.length) :
    ((l.drop pos).take n).length = n := by
  rw [List.length_take, List.length_drop]
  omega

theorem append_prefix_iff {α : Type} {a b l : List α} : a ++ b <+: l ↔ a <+: l ∧ b <+: l.drop a.length := by
  constructor
  · rintro ⟨rest, rfl⟩
    refine ⟨⟨b ++ rest, by rw [List.append_assoc]⟩, ⟨rest, ?_⟩⟩
    rw [List.append_assoc, List.drop_left]
  · rintro ⟨⟨m, rfl⟩, hb⟩
    rw [List.drop_left] at hb
    obtain ⟨rest, rfl⟩ := hb
    exact ⟨rest, by rw [List.append_assoc]⟩

/-! ## A block behind its length -/

theorem leNat_take_block {k : Nat} {body : List Byte} (h : body.length < 256 ^ k) (rest : List Byte) :
    leNat ((leBytes k body.length ++ body ++ rest).take k) = body.length := by
  rw [List.append_assoc, List.take_left' (length_leBytes k _), leNat_leBytes_of_lt h]

theorem drop_block (k : Nat) (body rest : List Byte) : (leBytes k body.length ++ body ++ rest).drop k = body ++ rest := by
  rw [List.append_assoc, List.drop_left' (length_leBytes k _)]

/-- The block that the first `k` bytes announce. -/
theorem block_eq {k : Nat} (buf : List Byte) (h : k + leNat (buf.take k) ≤ buf.length) :
    leNat (buf.take k) < 256 ^ k ∧ ((buf.drop k).take (leNat (buf.take k))).length = leNat (buf.take k) ∧
      leBytes k (leNat (buf.take k)) = buf.take k := by
  have hlt := leNat_lt (buf.take k)
  have hback := leBytes_leNat (buf.take k)
  rw [List.length_take_of_le (Nat.le_of_add_right_le h)] at hlt hback
  exact ⟨hlt, length_take_drop h, hback⟩

end GF
