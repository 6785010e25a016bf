import GoFabric.Framework.Except
import GoFabric.Proof.Setup.Verhoeff

/-!
# Manual pairing codes

A code is read in slices of decimal digits (`decodeDigits_iff`), and a slice is
the digits of its number (`sprintfDecimal_decimal`).
-/

namespace GF.Proof.Setup

open GF.Impl.Setup GF.Spec.Onboarding List

variable {ch : Byte} {w v a b f m : Nat} {code l : List Byte}

/-! ## Decimal numbers -/

def IsDigit (ch : Byte) : Prop := 0x30 ≤ ch ∧ ch ≤ 0x39

/-- The number that decimal digits stand for. -/
def decimal (chunk : List Byte) : Nat := Nat.ofDigits 10 (chunk.reverse.map fun ch => ch.toNat - 0x30)

theorem digitByte_sub (h : IsDigit ch) : digitByte (ch.toNat - 0x30) = ch := by
  obtain ⟨hge, hle⟩ := h
  unfold digitByte
  bv_omega

theorem isDigit_lt (h : IsDigit ch) : ch.toNat - 0x30 < 10 := by
  obtain ⟨-, hle⟩ := h
  bv_omega

theorem isDigit_digitByte {d : Nat} (h : d < 10) : IsDigit (digitByte d) ∧ (digitByte d).toNat - 0x30 = d := by
  have hall : ∀ d : Fin 10, (0x30 ≤ digitByte d.val ∧ digitByte d.val ≤ 0x39) ∧ (digitByte d.val).toNat - 0x30 = d.val := by
    decide
  exact hall ⟨d, h⟩

theorem sprintfDecimal_eq (h : v < 10 ^ w) : sprintfDecimal w v = ((lowDigits 10 w v).map digitByte).reverse := by
  rw [sprintfDecimal, rightpad_digits (by decide) h]

theorem length_sprintfDecimal (h : v < 10 ^ w) : (sprintfDecimal w v).length = w := by
  rw [sprintfDecimal_eq h, length_reverse, length_map, length_lowDigits]

theorem isDigit_sprintfDecimal (h : v < 10 ^ w) : ∀ ch ∈ sprintfDecimal w v, IsDigit ch := by
  intro ch hch
  rw [sprintfDecimal_eq h, mem_reverse] at hch
  obtain ⟨d, hd, rfl⟩ := mem_map.mp hch
  exact (isDigit_digitByte (lowDigits_lt (by decide) d hd)).1

theorem decimal_sprintfDecimal (h : v < 10 ^ w) : decimal (sprintfDecimal w v) = v := by
  rw [sprintfDecimal_eq h, decimal, reverse_reverse,
    map_map_cancel fun d hd => (isDigit_digitByte (lowDigits_lt (by decide) d hd)).2, ofDigits_lowDigits h]

section

variable {chunk : List Byte} (h : ∀ ch ∈ chunk, IsDigit ch)
include h

theorem values_lt : ∀ d ∈ chunk.reverse.map fun ch => ch.toNat - 0x30, d < 10 := by
  intro d hd
  obtain ⟨ch, hch, rfl⟩ := mem_map.mp hd
  exact isDigit_lt (h ch (mem_reverse.mp hch))

theorem decimal_lt : decimal chunk < 10 ^ chunk.length := by
  have hlt := Nat.ofDigits_lt_base_pow_length (by decide : 1 < 10) (values_lt h)
  rwa [length_map, length_reverse] at hlt

theorem sprintfDecimal_decimal : sprintfDecimal chunk.length (decimal chunk) = chunk := by
  have hlow := lowDigits_ofDigits (values_lt h)
  rw [length_map, length_reverse] at hlow
  rw [sprintfDecimal_eq (decimal_lt h), decimal, hlow,
    map_map_cancel fun ch hch => digitByte_sub (h ch (mem_reverse.1 hch)), reverse_reverse]

end

/-! ## Slices -/

def slice (code : List Byte) (a b : Nat) : List Byte := (code.take b).drop a

theorem slice_append {c : Nat} (hab : a ≤ b) (hbc : b ≤ c) (hc : c ≤ code.length) :
    slice code a b ++ slice code b c = slice code a c := by
  have hlen : a ≤ ((code.take c).take b).length := by
    rw [length_take, length_take]
    omega
  have htake : (code.take c).take b = code.take b := by rw [take_take, Nat.min_eq_left hbc]
  show _ = (code.take c).drop a
  rw [← take_append_drop b (code.take c), drop_append_of_le_length hlen, htake]
  rfl

theorem length_slice (h : b ≤ code.length) : (slice code a b).length = b - a := by
  rw [slice, length_drop, length_take, Nat.min_eq_left h]

theorem slice_middle (x y z : List Byte) : slice (x ++ (y ++ z)) x.length (x.length + y.length) = y := by
  rw [slice, ← append_assoc, ← length_append, take_left, drop_left]

theorem mem_slice (h : ch ∈ slice code a b) : ch ∈ code := mem_of_mem_take (mem_of_mem_drop h)

theorem toNat_num (h : ∀ ch ∈ code, IsDigit ch) (hb : b ≤ code.length) (hw : b - a ≤ 5) :
    (num code a b).toNat = decimal (slice code a b) := by
  have hdigits : ∀ ch ∈ slice code a b, IsDigit ch := fun ch hch => h ch (mem_slice hch)
  have hlt : decimal (slice code a b) < 10 ^ 5 := by
    have hd := decimal_lt hdigits
    rw [length_slice hb] at hd
    exact Nat.lt_of_lt_of_le hd (Nat.pow_le_pow_right (by decide) hw)
  show (BitVec.ofNat 32 (decimal (slice code a b))).toNat = _
  exact Nat.mod_eq_of_lt (by omega)

theorem sprintfDecimal_num (h : ∀ ch ∈ code, IsDigit ch) (hb : b ≤ code.length) (hw : b - a ≤ 5) :
    sprintfDecimal (b - a) (num code a b).toNat = slice code a b := by
  have hdigits : ∀ ch ∈ slice code a b, IsDigit ch := fun ch hch => h ch (mem_slice hch)
  rw [toNat_num h hb hw, ← length_slice hb, sprintfDecimal_decimal hdigits]

/-! ## Fields of digits -/

/-- Numbers written one after another, each with its width. -/
def fieldDigits (fs : List (Nat × Nat)) : List Byte := fs.flatMap fun f => sprintfDecimal f.1 f.2

/-- Every number has a place in its width. -/
def Fit (fs : List (Nat × Nat)) : Prop := ∀ f ∈ fs, f.2 < 10 ^ f.1

theorem isDigit_fieldDigits {fs : List (Nat × Nat)} (h : Fit fs) : ∀ ch ∈ fieldDigits fs, IsDigit ch := by
  intro ch hch
  obtain ⟨f, hf, hch⟩ := mem_flatMap.mp hch
  exact isDigit_sprintfDecimal (h f hf) ch hch

theorem length_fieldDigits {fs : List (Nat × Nat)} (h : Fit fs) :
    (fieldDigits fs).length = (fs.map Prod.fst).sum := by
  rw [fieldDigits, length_flatMap]
  exact congrArg List.sum (map_congr_left fun f hf => length_sprintfDecimal (h f hf))

/-- A field is read where it was written. -/
theorem num_fieldDigits (before : List (Nat × Nat)) {after : List (Nat × Nat)} (h : Fit (before ++ (w, v) :: after))
    (z : List Byte) (ha : (before.map Prod.fst).sum = a) (hb : a + w = b) :
    num (fieldDigits (before ++ (w, v) :: after) ++ z) a b = BitVec.ofNat 32 v := by
  obtain ⟨hbefore, hv, -⟩ := forall_mem_append.mp h |>.imp_right forall_mem_cons.mp
  have hsplit : fieldDigits (before ++ (w, v) :: after) ++ z =
      fieldDigits before ++ (sprintfDecimal w v ++ (fieldDigits after ++ z)) := by
    simp [fieldDigits]
  have hmiddle := slice_middle (fieldDigits before) (sprintfDecimal w v) (fieldDigits after ++ z)
  rw [length_fieldDigits hbefore, length_sprintfDecimal hv, ha, hb] at hmiddle
  show BitVec.ofNat 32 (decimal (slice _ a b)) = _
  rw [hsplit, hmiddle, decimal_sprintfDecimal hv]

/-! ## Reading a code -/

section

variable (code : List Byte)

def firstDigit : Nat := (code.headD 0 - 0x30).toNat

def passcodeOf : BitVec 32 := (num code 1 6 &&& 0x3FFF) ||| num code 6 10 <<< 14

def vendorOf : BitVec 32 := if code.length = 21 then num code 10 15 else 0

def productOf : BitVec 32 := if code.length = 21 then num code 15 20 else 0

/-- What the digits of a code stand for. -/
def payloadOf : ManualPayload :=
  { shortDiscriminator :=
      BitVec.ofNat 8 ((firstDigit code &&& 0x03) <<< 2) ||| ((num code 1 6 >>> 14) &&& 0x3).setWidth 8
    passcode := passcodeOf code
    vendorID := (vendorOf code).setWidth 16
    productID := (productOf code).setWidth 16
    hasVendorProduct := decide (code.length = 21) }

def vendorProductOf : Option (BitVec 16 × BitVec 16) :=
  if code.length = 21 then some ((payloadOf code).vendorID, (payloadOf code).productID) else none

structure Accepted : Prop where
  length : code.length = 11 ∨ code.length = 21
  first : firstDigit code < 8
  check : ∃ check : Fin 10, verhoeffCheck code.dropLast = .ok check ∧ check.val = (code.getLastD 0 - 0x30).toNat
  form : (firstDigit code &&& 4 != 0) = decide (code.length = 21)
  passcode : isValidPasscode (passcodeOf code) = true
  identity : assertValidPayloadIdentity (vendorOf code) (productOf code) = .ok ()

end

theorem bounds_of_identity {vid pid : BitVec 32} (h : assertValidPayloadIdentity vid pid = .ok ()) :
    vid ≤ 0xFFF4 ∧ pid ≤ 0xFFFF ∧ (pid = 0 → vid = 0) := by
  unfold assertValidPayloadIdentity at h
  split_ifs at h with hv hp hm
  refine ⟨?_, BitVec.not_lt.mp hp, fun hz => by_contra fun hne => hm ⟨hz, hne⟩⟩
  by_cases hz : vid = 0
  · subst hz
    decide
  · exact BitVec.not_lt.mp fun hlt => hv ⟨hz, hlt⟩

theorem decodeDigits_iff {mp : ManualPayload} :
    decodeDigits code = .ok mp ↔ Accepted code ∧ mp = payloadOf code := by
  unfold decodeDigits
  rw [ite_error_eq_ok, ite_error_eq_ok]
  cases hv : verhoeffCheck code.dropLast with
  | error e =>
    constructor
    · rintro ⟨-, -, h⟩
      cases h
    rintro ⟨h, -⟩
    obtain ⟨check, hcheck, -⟩ := h.check
    rw [hv] at hcheck
    cases hcheck
  | ok check =>
    simp only [ite_error_eq_ok, except_bind_eq_ok, Bool.not_eq_true, bne_eq_false_iff_eq, not_not, Nat.not_le,
      Bool.not_eq_false']
    constructor
    · rintro ⟨hlen, hfirst, hlast, hform, h⟩
      simp only [hform, decide_eq_true_eq] at h
      obtain ⟨hpass, u, hid, -, ⟨⟩⟩ := h
      exact ⟨⟨by omega, hfirst, ⟨check, hv, hlast⟩, hform, hpass, hid⟩, rfl⟩
    · rintro ⟨h, rfl⟩
      have hform : ((code.headD 0 - 0x30).toNat &&& 1 <<< 2 != 0) = decide (code.length = 21) := h.form
      obtain ⟨check', hcheck, hlast⟩ := h.check
      obtain rfl : check = check' := Except.ok.inj (hv.symm.trans hcheck)
      obtain ⟨hvid, hpid, -⟩ := bounds_of_identity h.identity
      have hwide : ¬ (0xFFFF < vendorOf code ∨ 0xFFFF < productOf code) := by
        rw [not_or, BitVec.not_lt, BitVec.not_lt]
        exact ⟨BitVec.le_trans hvid (by decide), hpid⟩
      have hlen := h.length
      refine ⟨by omega, h.first, hlast, hform, ?_⟩
      simp only [hform, decide_eq_true_eq]
      exact ⟨h.passcode, (), h.identity, hwide, rfl⟩

/-! ## The numbers of a code -/

/-- Fourteen bits below others. -/
theorem toNat_joined (a b : BitVec 32) (hb : b.toNat < 2 ^ 18) :
    ((a &&& 0x3FFF) ||| b <<< 14).toNat = a.toNat % 2 ^ 14 + b.toNat * 2 ^ 14 := by
  have hlow : a.toNat &&& 0x3FFF = a.toNat % 2 ^ 14 := Nat.and_two_pow_sub_one_eq_mod a.toNat 14
  have hhigh : b.toNat <<< 14 % 2 ^ 32 = b.toNat <<< 14 := by
    omega
  have hlt : a.toNat % 2 ^ 14 < 2 ^ 14 := Nat.mod_lt _ (by decide)
  rw [BitVec.toNat_or, BitVec.toNat_shiftLeft, hhigh]
  show a.toNat &&& 0x3FFF ||| _ = _
  rw [hlow, Nat.or_comm, ← Nat.shiftLeft_add_eq_or_of_lt hlt, Nat.shiftLeft_eq, Nat.add_comm]

theorem toNat_shifted (a : BitVec 32) : (a >>> 14).toNat = a.toNat / 2 ^ 14 := by
  rw [BitVec.toNat_ushiftRight, Nat.shiftRight_eq_div_pow]

/-- The two bits of the discriminator in digits 2 to 6, when they are 16 bits. -/
theorem middle_bits {a : BitVec 32} (h : a ≤ 0xFFFF) : (a >>> 14) &&& 0x3 = BitVec.ofNat 32 (a.toNat / 2 ^ 14) := by
  have hle : a.toNat ≤ 0xFFFF := h
  apply BitVec.eq_of_toNat_eq
  rw [BitVec.toNat_and, toNat_shifted, BitVec.toNat_ofNat]
  have hlow : a.toNat / 2 ^ 14 &&& 3 = a.toNat / 2 ^ 14 % 2 ^ 2 := Nat.and_two_pow_sub_one_eq_mod _ 2
  show a.toNat / 2 ^ 14 &&& 3 = _
  omega

/-! ## Writing a code -/

/-- The first digit of `manualCode`. -/
def upperDigit (discriminator : BitVec 16) (long : Bool) : BitVec 32 :=
  let upperDisc := (discriminator >>> 10).setWidth 32 &&& 0x3
  if long then upperDisc ||| (1 : BitVec 32) <<< 2 else upperDisc

/-- The digits 2 to 6 of `manualCode`. -/
def middleDigits (discriminator : BitVec 16) (passcode : BitVec 32) : BitVec 32 :=
  ((discriminator >>> 8).setWidth 32 &&& 0x3) <<< 14 ||| (passcode &&& 0x3FFF)

def upperNat (discriminator : BitVec 16) (long : Bool) : Nat := discriminator.toNat / 2 ^ 10 + (if long then 4 else 0)

def middleNat (discriminator : BitVec 16) (passcode : BitVec 32) : Nat :=
  passcode.toNat % 2 ^ 14 + discriminator.toNat / 2 ^ 8 % 4 * 2 ^ 14

/-- The vendor and the product, of five digits each. -/
def vendorFields (vp : Option (BitVec 16 × BitVec 16)) : List (Nat × Nat) :=
  vp.toList.flatMap fun p => [(5, p.1.toNat), (5, p.2.toNat)]

/-- A discriminator of four bits: those in the first digit `f` and, `m`, those in
digits 2 to 6. -/
theorem discriminator_bits (hf : f < 8) (hm : m < 4) :
    let short := BitVec.ofNat 8 ((f &&& 0x03) <<< 2) ||| BitVec.ofNat 8 m
    let d := short.setWidth 16 <<< 8
    d ≤ maxDiscriminator ∧ (upperDigit d (f &&& 4 != 0)).toNat = f ∧
      (d >>> 8).setWidth 32 &&& 0x3 = BitVec.ofNat 32 m := by
  have h : ∀ (f : Fin 8) (m : Fin 4), let short := BitVec.ofNat 8 ((f.val &&& 0x03) <<< 2) ||| BitVec.ofNat 8 m.val
      let d := short.setWidth 16 <<< 8
      d ≤ maxDiscriminator ∧ (upperDigit d (f.val &&& 4 != 0)).toNat = f.val ∧
        (d >>> 8).setWidth 32 &&& 0x3 = BitVec.ofNat 32 m.val := by decide
  exact h ⟨f, hf⟩ ⟨m, hm⟩

theorem num_lt (hd : ∀ ch ∈ code, IsDigit ch) (hb : b ≤ code.length) (hw : b - a ≤ 5) :
    (num code a b).toNat < 10 ^ (b - a) := by
  rw [toNat_num hd hb hw]
  have hdec := decimal_lt fun ch (hch : ch ∈ slice code a b) => hd ch (mem_slice hch)
  rwa [length_slice hb] at hdec

theorem toNat_sub_digit (h : IsDigit ch) : (ch - 0x30).toNat = ch.toNat - 0x30 := by
  obtain ⟨hge, -⟩ := h
  bv_omega

theorem toNat_two_bits (d : BitVec 16) (k : Nat) :
    ((d >>> k).setWidth 32 &&& (0x3 : BitVec 32)).toNat = d.toNat / 2 ^ k % 4 := by
  have hlow : d.toNat / 2 ^ k &&& 3 = d.toNat / 2 ^ k % 2 ^ 2 := Nat.and_two_pow_sub_one_eq_mod _ 2
  have hlt : d.toNat / 2 ^ k < 2 ^ 32 := Nat.lt_of_le_of_lt (Nat.div_le_self _ _) (by omega)
  rw [BitVec.toNat_and, BitVec.toNat_setWidth, BitVec.toNat_ushiftRight, Nat.shiftRight_eq_div_pow,
    Nat.mod_eq_of_lt hlt]
  exact hlow

theorem toNat_upperDigit {d : BitVec 16} (h : d ≤ maxDiscriminator) (long : Bool) :
    (upperDigit d long).toNat = upperNat d long := by
  have hle : d.toNat ≤ 0x0FFF := h
  have hbits := toNat_two_bits d 10
  have hmod : d.toNat / 2 ^ 10 % 4 = d.toNat / 2 ^ 10 := by omega
  rw [hmod] at hbits
  cases long with
  | false => exact hbits
  | true =>
    show ((_ : BitVec 32) ||| 4).toNat = _
    have hor := Nat.shiftLeft_add_eq_or_of_lt (i := 2) (b := d.toNat / 2 ^ 10) (by omega) 1
    rw [BitVec.toNat_or, hbits, Nat.or_comm]
    exact hor.symm.trans (Nat.add_comm _ _)

theorem toNat_middleDigits (d : BitVec 16) (p : BitVec 32) :
    (middleDigits d p).toNat = middleNat d p := by
  have hbits := toNat_two_bits d 8
  have hjoined := toNat_joined p ((d >>> 8).setWidth 32 &&& 0x3) (by omega)
  rw [hbits] at hjoined
  rw [middleDigits, BitVec.or_comm]
  exact hjoined

theorem passcode_le {p : BitVec 32} (h : isValidSetupPIN p = true) : p.toNat ≤ 99999998 := by
  unfold isValidSetupPIN at h
  split at h
  · cases h
  · rename_i hn
    exact Nat.not_lt.mp fun hlt => hn (.inr hlt)

theorem symbols_of_digits (h : ∀ ch ∈ l, IsDigit ch) : ∃ ds : List Symbol, l = ds.map symbolByte := by
  induction l with
  | nil => exact ⟨[], rfl⟩
  | cons ch l ih =>
    obtain ⟨hch, hl⟩ := forall_mem_cons.mp h
    obtain ⟨ds, rfl⟩ := ih hl
    have hd : digitOf ch = some _ := if_pos hch
    have heq : ch = symbolByte (symbol _) := symbolByte_of_digitOf hd
    exact ⟨_ :: ds, by rw [map_cons, heq]⟩

theorem verhoeffCheck_of_digits (h : ∀ ch ∈ l, IsDigit ch) : ∃ check, verhoeffCheck l = .ok check := by
  obtain ⟨ds, rfl⟩ := symbols_of_digits h
  exact ⟨_, verhoeffCheck_digits ds⟩

section Written

variable {d : BitVec 16} {p : BitVec 32} {vp : Option (BitVec 16 × BitVec 16)}

/-- The numbers that are written before the check digit. -/
def writtenFields (discriminator : BitVec 16) (passcode : BitVec 32) (vp : Option (BitVec 16 × BitVec 16)) :
    List (Nat × Nat) :=
  [(1, upperNat discriminator vp.isSome), (5, middleNat discriminator passcode), (4, passcode.toNat / 2 ^ 14)] ++
    vendorFields vp

def writtenCode (discriminator : BitVec 16) (passcode : BitVec 32) (vp : Option (BitVec 16 × BitVec 16))
    (check : Fin 10) : List Byte :=
  fieldDigits (writtenFields discriminator passcode vp) ++ [digitByte check.val]

theorem middleNat_lt (d : BitVec 16) (p : BitVec 32) : middleNat d p < 2 ^ 16 := by
  unfold middleNat
  omega

theorem toNat_ofNat_middleNat : (BitVec.ofNat 32 (middleNat d p)).toNat = middleNat d p := by
  have h := middleNat_lt d p
  rw [BitVec.toNat_ofNat]
  omega

variable (hv : ValidManual d p vp)
include hv

theorem upperNat_lt : upperNat d vp.isSome < 8 := by
  have hle : d.toNat ≤ 0x0FFF := hv.discriminator
  unfold upperNat
  split <;> omega

theorem upperPasscode_lt : p.toNat / 2 ^ 14 < 10 ^ 4 := by
  have hle := passcode_le hv.passcode
  omega

theorem fit_writtenFields : Fit (writtenFields d p vp) := by
  have h1 := upperNat_lt hv
  have h2 := middleNat_lt d p
  have hvendor : Fit (vendorFields vp) := by
    intro f hf
    obtain ⟨p, -, hf⟩ := mem_flatMap.mp hf
    obtain rfl | rfl := by simpa using hf
    all_goals exact Nat.lt_trans (BitVec.isLt _) (show 2 ^ 16 < 10 ^ 5 by decide)
  refine forall_mem_append.mpr ⟨?_, hvendor⟩
  simp only [forall_mem_cons]
  exact ⟨by omega, by omega, upperPasscode_lt hv, nofun⟩

theorem manualDigits_valid : manualDigits d p vp = .ok (fieldDigits (writtenFields d p vp)) := by
  have hten : fieldDigits [(1, upperNat d vp.isSome), (5, middleNat d p), (4, p.toNat / 2 ^ 14)] =
      sprintfDecimal 1 (upperDigit d vp.isSome).toNat ++ sprintfDecimal 5 (middleDigits d p).toNat ++
        sprintfDecimal 4 (p >>> 14).toNat := by
    rw [toNat_upperDigit hv.discriminator, toNat_middleDigits, toNat_shifted]
    simp [fieldDigits]
  have hlen := length_fieldDigits (forall_mem_append.mp (fit_writtenFields hv)).1
  rw [hten] at hlen
  rw [writtenFields, fieldDigits, flatMap_append]
  show _ = Except.ok (fieldDigits _ ++ fieldDigits _)
  rw [hten]
  refine (if_neg (not_not.mpr hlen)).trans ?_
  cases vp with
  | none => exact congrArg Except.ok (append_nil _).symm
  | some p =>
    have hvendor : fieldDigits (vendorFields (some p)) = sprintfDecimal 5 p.1.toNat ++ sprintfDecimal 5 p.2.toNat := by
      simp [vendorFields, fieldDigits]
    rw [hvendor]
    rfl

theorem manualCode_valid {check : Fin 10} (hcheck : verhoeffCheck (fieldDigits (writtenFields d p vp)) = .ok check)
    (validate : Bool) : manualCode d p vp validate = .ok (writtenCode d p vp check) := by
  have hpass : ¬ (99999998 < p ∨ validate = true ∧ isValidSetupPIN p = false) := by
    rintro (hbig | ⟨-, hbad⟩)
    · exact absurd (passcode_le hv.passcode) (Nat.not_le.mpr hbig)
    · rw [hv.passcode] at hbad
      cases hbad
  unfold manualCode
  rw [if_neg (BitVec.not_lt.mpr hv.discriminator)]
  refine (if_neg hpass).trans ?_
  refine (except_bind_ok (manualDigits_valid hv)).trans ?_
  exact except_bind_ok hcheck

section Slices

variable (check : Fin 10)

theorem num_written_middle : num (writtenCode d p vp check) 1 6 = BitVec.ofNat 32 (middleNat d p) :=
  num_fieldDigits [_] (fit_writtenFields hv) _ rfl rfl

theorem num_written_last : num (writtenCode d p vp check) 6 10 = BitVec.ofNat 32 (p.toNat / 2 ^ 14) :=
  num_fieldDigits [_, _] (fit_writtenFields hv) _ rfl rfl

theorem firstDigit_written : firstDigit (writtenCode d p vp check) = upperNat d vp.isSome := by
  have hlt := upperNat_lt hv
  have hone : ∀ d : Fin 8, sprintfDecimal 1 d.val = [digitByte d.val] ∧ (digitByte d.val - 0x30).toNat = d.val := by
    decide
  obtain ⟨hs, hb⟩ := hone ⟨_, hlt⟩
  unfold writtenCode writtenFields fieldDigits
  rw [cons_append, flatMap_cons, hs]
  exact hb

theorem length_written : (writtenCode d p vp check).length = if vp.isSome then 21 else 11 := by
  rw [writtenCode, length_append, length_fieldDigits (fit_writtenFields hv)]
  cases vp <;> rfl

theorem identity_written :
    vendorOf (writtenCode d p vp check) = ((vp.map Prod.fst).getD 0).setWidth 32 ∧
      productOf (writtenCode d p vp check) = ((vp.map Prod.snd).getD 0).setWidth 32 := by
  have hlen := length_written hv check
  cases vp with
  | none =>
    have hne : ¬ (writtenCode d p none check).length = 21 := by
      rw [hlen]
      decide
    exact ⟨if_neg hne, if_neg hne⟩
  | some p =>
    have hfit := fit_writtenFields hv
    have hv5 := num_fieldDigits [_, _, _] hfit [digitByte check.val] rfl rfl
    have hp5 := num_fieldDigits [_, _, _, _] hfit [digitByte check.val] rfl rfl
    rw [BitVec.ofNat_toNat] at hv5 hp5
    exact ⟨(if_pos hlen).trans hv5, (if_pos hlen).trans hp5⟩

theorem passcodeOf_written : passcodeOf (writtenCode d p vp check) = p := by
  unfold passcodeOf
  rw [num_written_middle hv, num_written_last hv]
  apply BitVec.eq_of_toNat_eq
  have hl : (BitVec.ofNat 32 (p.toNat / 2 ^ 14)).toNat = p.toNat / 2 ^ 14 := by
    rw [BitVec.toNat_ofNat]
    omega
  refine (toNat_joined _ _ (by omega)).trans ?_
  rw [toNat_ofNat_middleNat, middleNat]
  omega

theorem accepted_written (hcheck : verhoeffCheck (fieldDigits (writtenFields d p vp)) = .ok check) :
    Accepted (writtenCode d p vp check) := by
  have hlen := length_written hv check
  refine ⟨?_, ?_, ⟨check, ?_, ?_⟩, ?_, ?_, ?_⟩
  · rw [hlen]
    split <;> decide
  · rw [firstDigit_written hv]
    exact upperNat_lt hv
  · rw [writtenCode, dropLast_concat]
    exact hcheck
  · obtain ⟨hd, hval⟩ := isDigit_digitByte check.isLt
    rw [writtenCode, getLastD_concat, toNat_sub_digit hd, hval]
  · have hall : ∀ (d : Fin 4) (long : Bool),
        (d.val + (if long then 4 else 0) &&& 4 != 0) = decide ((if long then 21 else 11) = 21) := by decide
    have hle : d.toNat ≤ 0x0FFF := hv.discriminator
    rw [firstDigit_written hv, hlen]
    exact hall ⟨d.toNat / 2 ^ 10, by omega⟩ vp.isSome
  · rw [passcodeOf_written hv]
    exact hv.passcode
  obtain ⟨hvid, hpid⟩ := identity_written hv check
  rw [hvid, hpid]
  cases vp with
  | none => rfl
  | some p => exact hv.identity p rfl

omit hv in
/-- The two bits of either group of digits make up the upper four bits. -/
theorem short_of_bits (h : d ≤ maxDiscriminator) (long : Bool) :
    BitVec.ofNat 8 ((upperNat d long &&& 0x03) <<< 2) |||
        BitVec.ofNat 8 (d.toNat / 2 ^ 8 % 4) = (d >>> 8).setWidth 8 := by
  have hle : d.toNat ≤ 0x0FFF := h
  have hall : ∀ (d m : Fin 4) (long : Bool),
      BitVec.ofNat 8 ((d.val + (if long then 4 else 0) &&& 0x03) <<< 2) ||| BitVec.ofNat 8 m.val =
        BitVec.ofNat 8 (d.val * 4 + m.val) := by decide
  refine (hall ⟨d.toNat / 2 ^ 10, by omega⟩ ⟨d.toNat / 2 ^ 8 % 4, by omega⟩ long).trans ?_
  apply BitVec.eq_of_toNat_eq
  rw [BitVec.toNat_setWidth, BitVec.toNat_ushiftRight]
  show (d.toNat / 2 ^ 10 * 4 + d.toNat / 2 ^ 8 % 4) % 2 ^ 8 = _
  omega

omit hv in
theorem middle_of_middleNat : ((BitVec.ofNat 32 (middleNat d p) >>> 14) &&& 0x3).setWidth 8 =
    BitVec.ofNat 8 (d.toNat / 2 ^ 8 % 4) := by
  have h2 := middleNat_lt d p
  have hm := @toNat_ofNat_middleNat d p
  have hfits : BitVec.ofNat 32 (middleNat d p) ≤ 0xFFFF := by
    show (BitVec.ofNat 32 (middleNat d p)).toNat ≤ 0xFFFF
    omega
  have hmid : middleNat d p / 2 ^ 14 = d.toNat / 2 ^ 8 % 4 := by
    unfold middleNat
    omega
  rw [middle_bits hfits, hm, hmid, BitVec.setWidth_ofNat_of_le (by decide)]

theorem payloadOf_written : payloadOf (writtenCode d p vp check) = manualPayload d p vp := by
  have hlen := length_written hv check
  obtain ⟨hvid, hpid⟩ := identity_written hv check
  have hlong : decide ((if vp.isSome then 21 else 11) = 21) = vp.isSome := by cases vp <;> rfl
  unfold payloadOf manualPayload
  rw [firstDigit_written hv, passcodeOf_written hv, num_written_middle hv, middle_of_middleNat,
    short_of_bits hv.discriminator, hvid, hpid, hlen, hlong, BitVec.setWidth_setWidth_of_le _ (by decide),
    BitVec.setWidth_setWidth_of_le _ (by decide), BitVec.setWidth_eq, BitVec.setWidth_eq]

end Slices

end Written

section Canonical

variable (hd : ∀ ch ∈ code, IsDigit ch) (h : Accepted code)
include hd h

theorem sprintfDecimal_firstDigit : sprintfDecimal 1 (firstDigit code) = slice code 0 1 := by
  have hlen := h.length
  cases code with
  | nil => simp at hlen
  | cons ch rest =>
    have hch : IsDigit ch := hd ch mem_cons_self
    have hfirst : firstDigit (ch :: rest) = decimal [ch] := by
      refine (toNat_sub_digit hch).trans ?_
      exact Nat.ofDigits_singleton.symm
    rw [hfirst]
    exact @sprintfDecimal_decimal [ch] fun c hc => by rwa [mem_singleton.mp hc]

theorem toNat_passcodeOf :
    (passcodeOf code).toNat = (num code 1 6).toNat % 2 ^ 14 + (num code 6 10).toNat * 2 ^ 14 := by
  have hlen := h.length
  have hlt : (num code 6 10).toNat < 10 ^ (10 - 6) := num_lt hd (by omega) (by omega)
  exact toNat_joined _ _ (by omega)

omit hd h in
theorem widened {v : BitVec 32} (hle : v ≤ 0xFFFF) : (v.setWidth 16).setWidth 32 = v := by
  have hle : v.toNat ≤ 0xFFFF := hle
  apply BitVec.eq_of_toNat_eq
  rw [BitVec.toNat_setWidth, BitVec.toNat_setWidth]
  omega

/-- The digits of the vendor and the product are those of the code. -/
theorem vendorFields_payloadOf :
    fieldDigits (vendorFields (vendorProductOf code)) = slice code 10 (code.length - 1) := by
  obtain ⟨hvid, hpid, -⟩ := bounds_of_identity h.identity
  unfold vendorProductOf
  rcases h.length with hlen | hlen
  · rw [hlen, slice, drop_eq_nil_of_le (by rw [length_take]; omega)]
    rfl
  have hv : (payloadOf code).vendorID.setWidth 32 = num code 10 15 :=
    (widened (BitVec.le_trans hvid (by decide))).trans (if_pos hlen)
  have hp : (payloadOf code).productID.setWidth 32 = num code 15 20 := (widened hpid).trans (if_pos hlen)
  have h5 : sprintfDecimal 5 (num code 10 15).toNat = slice code 10 15 := sprintfDecimal_num hd (by omega) (by decide)
  have h6 : sprintfDecimal 5 (num code 15 20).toNat = slice code 15 20 := sprintfDecimal_num hd (by omega) (by decide)
  rw [← hv, BitVec.toNat_setWidth_of_le (by decide)] at h5
  rw [← hp, BitVec.toNat_setWidth_of_le (by decide)] at h6
  rw [hlen, ← slice_append (b := 15) (by decide) (by decide) (by omega), ← h5, ← h6]
  simp [vendorFields, fieldDigits]

variable (hfits : chunkFits code = true)
include hfits

/-- The numbers of what was read are those it was read from. -/
theorem numbers_payloadOf :
    let d := (payloadOf code).shortDiscriminator.setWidth 16 <<< 8
    d ≤ maxDiscriminator ∧ upperNat d (vendorProductOf code).isSome = firstDigit code ∧
      middleNat d (passcodeOf code) = (num code 1 6).toNat := by
  have hfits : num code 1 6 ≤ 0xFFFF := of_decide_eq_true hfits
  have hfits' : (num code 1 6).toNat ≤ 0xFFFF := hfits
  have hpass := toNat_passcodeOf hd h
  have hshort : (payloadOf code).shortDiscriminator =
      BitVec.ofNat 8 ((firstDigit code &&& 0x03) <<< 2) ||| BitVec.ofNat 8 ((num code 1 6).toNat / 2 ^ 14) := by
    show _ ||| ((num code 1 6 >>> 14) &&& 0x3).setWidth 8 = _
    rw [middle_bits hfits, BitVec.setWidth_ofNat_of_le (by decide)]
  obtain ⟨hmax, hupper, hmiddle⟩ := discriminator_bits h.first (m := (num code 1 6).toNat / 2 ^ 14) (by omega)
  rw [← hshort] at hmax hupper hmiddle
  have hflag : (vendorProductOf code).isSome = (firstDigit code &&& 4 != 0) := by
    rw [h.form]
    by_cases hl : code.length = 21 <;> simp [vendorProductOf, hl]
  refine ⟨hmax, ?_, ?_⟩
  · rw [hflag, ← toNat_upperDigit hmax, hupper]
  have hbits := toNat_two_bits ((payloadOf code).shortDiscriminator.setWidth 16 <<< 8) 8
  rw [hmiddle, BitVec.toNat_ofNat] at hbits
  unfold middleNat
  omega

theorem valid_payloadOf :
    ValidManual ((payloadOf code).shortDiscriminator.setWidth 16 <<< 8) (passcodeOf code) (vendorProductOf code) := by
  refine ⟨(numbers_payloadOf hd h hfits).1, h.passcode, fun vp hvp => ?_⟩
  obtain ⟨hvid, hpid, -⟩ := bounds_of_identity h.identity
  obtain ⟨-, hvp⟩ := Option.ite_none_right_eq_some.1 hvp
  obtain rfl := Option.some.inj hvp
  have hid := h.identity
  rwa [← widened (BitVec.le_trans hvid (by decide)), ← widened hpid] at hid

/-- The digits of what was read are the digits it was read from. -/
theorem fieldDigits_payloadOf :
    fieldDigits (writtenFields ((payloadOf code).shortDiscriminator.setWidth 16 <<< 8) (passcodeOf code)
      (vendorProductOf code)) = code.dropLast := by
  have hlen := h.length
  obtain ⟨-, hupper, hmiddle⟩ := numbers_payloadOf hd h hfits
  have hpass := toNat_passcodeOf hd h
  have hlast : (passcodeOf code).toNat / 2 ^ 14 = (num code 6 10).toNat := by omega
  have h0 := sprintfDecimal_firstDigit hd h
  have h1 : sprintfDecimal 5 (num code 1 6).toNat = slice code 1 6 := sprintfDecimal_num hd (by omega) (by decide)
  have h2 : sprintfDecimal 4 (num code 6 10).toNat = slice code 6 10 := sprintfDecimal_num hd (by omega) (by decide)
  have h3 := vendorFields_payloadOf hd h
  rw [fieldDigits] at h3
  rw [writtenFields, fieldDigits, flatMap_append, hupper, hmiddle, hlast]
  simp only [flatMap_cons, flatMap_nil, append_nil, h0, h1, h2, h3]
  rw [slice_append (by decide) (by decide) (by omega), slice_append (by decide) (by decide) (by omega),
    slice_append (by decide) (by omega) (by omega), dropLast_eq_take]
  rfl

/-- The code of what was read is the code it was read from. -/
theorem manualCodeOf_payloadOf (validate : Bool) :
    manualCodeOf (payloadOf code) validate = .ok code := by
  obtain ⟨check, hcheck, hlast⟩ := h.check
  have hdigits := fieldDigits_payloadOf hd h hfits
  have hne : code ≠ [] := by
    rintro rfl
    have := h.length
    simp at this
  have hcode : code.dropLast ++ [digitByte check.val] = code := by
    have hmem : IsDigit (code.getLast hne) := hd _ (getLast_mem hne)
    rw [hlast, getLastD_eq_getLast?, List.getLast?_eq_some_getLast hne, Option.getD_some,
      toNat_sub_digit hmem, digitByte_sub hmem, dropLast_append_getLast]
  have hvp : (if (payloadOf code).hasVendorProduct = true then
      some ((payloadOf code).vendorID, (payloadOf code).productID) else none) = vendorProductOf code :=
    if_congr decide_eq_true_iff rfl rfl
  unfold manualCodeOf
  rw [hvp]
  refine (manualCode_valid (valid_payloadOf hd h hfits) (hdigits ▸ hcheck) validate).trans ?_
  rw [writtenCode, hdigits, hcode]

end Canonical

theorem isDigit_digitsOf (s : List Byte) : ∀ ch ∈ digitsOf s, IsDigit ch := by
  intro ch hch
  show 0x30 ≤ ch ∧ ch ≤ 0x39
  exact of_decide_eq_true (mem_filter.mp hch).2

/-- Codes whose digits 2 to 6 are a number of 16 bits are canonical, and every
valid payload is read back from its code, whatever stands between the digits. -/
theorem manual_code_canonical :
    (∀ s mp, decodeManualCode s = .ok mp → chunkFits (digitsOf s) = true →
      ∀ validate, manualCodeOf mp validate = .ok (digitsOf s)) ∧
    (∀ s t mp, decodeManualCode s = .ok mp → decodeManualCode t = .ok mp → chunkFits (digitsOf s) = true →
      chunkFits (digitsOf t) = true → digitsOf s = digitsOf t) ∧
    (∀ discriminator passcode vendorProduct, ValidManual discriminator passcode vendorProduct →
      ∃ code, (∀ validate, manualCode discriminator passcode vendorProduct validate = .ok code) ∧
        ∀ s, digitsOf s = code → decodeManualCode s = .ok (manualPayload discriminator passcode vendorProduct)) := by
  have hcanonical : ∀ s mp, decodeManualCode s = .ok mp → chunkFits (digitsOf s) = true →
      ∀ validate, manualCodeOf mp validate = .ok (digitsOf s) := by
    intro s mp h hfits validate
    obtain ⟨haccepted, rfl⟩ := decodeDigits_iff.mp h
    exact manualCodeOf_payloadOf (isDigit_digitsOf s) haccepted hfits validate
  refine ⟨hcanonical, ?_, ?_⟩
  · intro s t mp hs ht hfs hft
    exact Except.ok.inj ((hcanonical s mp hs hfs true).symm.trans (hcanonical t mp ht hft true))
  intro discriminator passcode vendorProduct hv
  obtain ⟨check, hcheck⟩ := verhoeffCheck_of_digits (isDigit_fieldDigits (fit_writtenFields hv))
  refine ⟨_, manualCode_valid hv hcheck, fun s hs => ?_⟩
  unfold decodeManualCode
  rw [hs, decodeDigits_iff]
  exact ⟨accepted_written hv check hcheck, (payloadOf_written hv check).symm⟩

/-- `7497-0112-3365521327687`: the long form of discriminator 0xF00 and passcode
20202021 for vendor 0xFFF1 and product 0x8000. -/
def longCode : List Byte :=
  [0x37, 0x34, 0x39, 0x37, 0x2D, 0x30, 0x31, 0x31, 0x32, 0x2D, 0x33, 0x33, 0x36, 0x35, 0x35, 0x32, 0x31, 0x33, 0x32,
    0x37, 0x36, 0x38, 0x37]

theorem manual_code_canonical_long :
    manualCodeOf (manualPayload 0xF00 20202021 (some (0xFFF1, 0x8000))) true = .ok (digitsOf longCode) ∧
      decodeManualCode longCode = .ok (manualPayload 0xF00 20202021 (some (0xFFF1, 0x8000))) := by
  have hv : ValidManual 0xF00 20202021 (some (0xFFF1, 0x8000)) := by
    refine ⟨by decide, by decide, ?_⟩
    rintro vp ⟨⟩
    rfl
  obtain ⟨hback, -, hread⟩ := manual_code_canonical
  obtain ⟨code, hcode, hread⟩ := hread _ _ _ hv
  have hlong : digitsOf longCode = code := by
    have hc := hcode true
    exact Except.ok.inj (Eq.trans (by decide +kernel) hc)
  have hdecode := hread longCode hlong
  exact ⟨hback longCode _ hdecode (by decide +kernel) true, hdecode⟩

/-- `06553700001` and `00000100007`, which differ in digits 2 to 6 by 2 ^ 16. -/
def wideCode : List Byte := [0x30, 0x36, 0x35, 0x35, 0x33, 0x37, 0x30, 0x30, 0x30, 0x30, 0x31]

def narrowCode : List Byte := [0x30, 0x30, 0x30, 0x30, 0x30, 0x31, 0x30, 0x30, 0x30, 0x30, 0x37]

/-- Both are accepted, as the same payload, whose code is the second. -/
theorem manual_code_aliased :
    decodeManualCode wideCode = .ok { passcode := 1 } ∧ decodeManualCode narrowCode = .ok { passcode := 1 } ∧
      digitsOf wideCode ≠ digitsOf narrowCode ∧ manualCodeOf { passcode := 1 } true = .ok narrowCode := by
  decide +kernel

end GF.Proof.Setup
