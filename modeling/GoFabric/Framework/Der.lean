import GoFabric.Framework.Bytes
import GoFabric.Framework.Parser

/-!
# DER

An element is an identifier octet, the length of its contents and the contents
(`element`). Reading one (`rawValue`) takes exactly the octets of the element, in
front of anything, and no element starts another one; so elements in sequence can
be told apart (`flatten_inj`), and the contents of an element are determined by
it (`element_inj`).
-/

namespace GF.Der

open List

variable {n m : Nat} {c ts e rest r : List Byte} {ident : Byte}

/-! ## Writing -/

/-- The octets that a number takes. -/
def width (n : Nat) : Nat := n.log2 / 8 + 1

/-- The length octets: the length itself below 128, else how many octets it takes
and the octets. -/
def lengthOctets (n : Nat) : List Byte :=
  if n < 128 then [BitVec.ofNat 8 n] else BitVec.ofNat 8 (128 + min (width n) 127) :: beBytes (width n) n

/-- An element with an identifier of one octet. -/
def element (identifier : Byte) (contents : List Byte) : List Byte :=
  identifier :: (lengthOctets contents.length ++ contents)

def boolean (b : Bool) : List Byte := element 0x01 [if b then 0xFF else 0x00]

/-- A non-negative INTEGER, in as few octets as it takes. -/
def integer (n : Nat) : List Byte :=
  let octets := beBytes (width n) n
  element 0x02 (if octets.headD 0 &&& 0x80 = 0 then octets else 0x00 :: octets)

/-- A BIT STRING, and how many bits of its last octet it does not use. -/
def bitString (unused : Nat) (octets : List Byte) : List Byte := element 0x03 (BitVec.ofNat 8 unused :: octets)

def octetString (octets : List Byte) : List Byte := element 0x04 octets

def sequence (members : List (List Byte)) : List Byte := element 0x30 members.flatten

def set (members : List (List Byte)) : List Byte := element 0x31 members.flatten

/-- A number in groups of seven bits, all but the last one marked. -/
def base128 (n : Nat) : List Byte :=
  let groups := n.log2 / 7 + 1
  (List.range groups).reverse.map fun i => BitVec.ofNat 8 (n / 2 ^ (7 * i) % 128 + if i = 0 then 0 else 128)

/-- An OBJECT IDENTIFIER of at least two numbers. -/
def objectIdentifier : List Nat → List Byte
  | a :: b :: rest => element 0x06 (base128 (40 * a + b) ++ rest.flatMap base128)
  | _ => element 0x06 []

/-! ## Times -/

/-- A date and a time of day. -/
structure Civil where
  year : Int
  month : Nat
  day : Nat
  hour : Nat
  minute : Nat
  second : Nat

/-- The time that many seconds after the beginning of 1970, in UTC. -/
def civil (seconds : Int) : Civil :=
  -- days since 1 March of the year 0, in eras of 400 years
  let z := seconds / 86400 + 719468
  let era := z / 146097
  let dayOfEra := (z % 146097).toNat
  let yearOfEra := (dayOfEra - dayOfEra / 1460 + dayOfEra / 36524 - dayOfEra / 146096) / 365
  let dayOfYear := dayOfEra - (365 * yearOfEra + yearOfEra / 4 - yearOfEra / 100)
  let monthFromMarch := (5 * dayOfYear + 2) / 153
  let month := if monthFromMarch < 10 then monthFromMarch + 3 else monthFromMarch - 9
  let secondOfDay := (seconds % 86400).toNat
  { year := yearOfEra + era * 400 + if month ≤ 2 then 1 else 0
    month := month
    day := dayOfYear - (153 * monthFromMarch + 2) / 5 + 1
    hour := secondOfDay / 3600
    minute := secondOfDay / 60 % 60
    second := secondOfDay % 60 }

/-- Two decimal digits. -/
def twoDigits (n : Nat) : List Byte := [BitVec.ofNat 8 (0x30 + n / 10 % 10), BitVec.ofNat 8 (0x30 + n % 10)]

/-- A time: a UTCTime from 1950 to 2049, a GeneralizedTime in other years of four
digits. -/
def time (seconds : Int) : Option (List Byte) :=
  let t := civil seconds
  let rest := twoDigits t.month ++ (twoDigits t.day ++ (twoDigits t.hour ++ (twoDigits t.minute ++
    (twoDigits t.second ++ [0x5A]))))
  if 1950 ≤ t.year ∧ t.year < 2050 then some (element 0x17 (twoDigits (t.year.toNat % 100) ++ rest))
  else if 0 ≤ t.year ∧ t.year ≤ 9999 then
    some (element 0x18 (twoDigits (t.year.toNat / 100) ++ (twoDigits (t.year.toNat % 100) ++ rest)))
  else none

/-! ## Reading -/

/-- Why there is no element. -/
inductive SyntaxError
  | truncated
  | notMinimal
  | indefiniteLength
  | tooLarge

abbrev Reading := Parser Byte SyntaxError

/-- The number of an identifier that takes more octets: in groups of seven bits,
five of them at most. -/
def tagNumber : Nat → Nat → Reading Nat
  | 0, _ => do
    let _ ← Parser.next .truncated
    .fail .tooLarge
  | groups + 1, n => do
    let b ← Parser.next .truncated
    if n = 0 ∧ b = 0x80 then .fail .notMinimal
    else if b &&& 0x80 = 0 then
      if 2 ^ 31 ≤ n * 128 + b.toNat then .fail .tooLarge else pure (n * 128 + b.toNat)
    else tagNumber groups (n * 128 + (b.toNat - 128))

/-- `octets` more octets of a length. -/
def longLength : Nat → Nat → Reading Nat
  | 0, n => if n < 128 then .fail .notMinimal else pure n
  | octets + 1, n => do
    let b ← Parser.next .truncated
    if 2 ^ 23 ≤ n then .fail .tooLarge
    else if n * 256 + b.toNat = 0 then .fail .notMinimal
    else longLength octets (n * 256 + b.toNat)

/-- The tag number behind an identifier octet, which is below 31 unless it takes
more octets. -/
def longTag (identifier : Byte) : Reading Unit :=
  if identifier &&& 0x1F = 0x1F then do
    let number ← tagNumber 5 0
    if number < 31 then .fail .notMinimal else pure ()
  else pure ()

/-- The length that begins with this octet. -/
def lengthFrom (b : Byte) : Reading Nat :=
  if b &&& 0x80 = 0 then pure b.toNat
  else if b = 0x80 then .fail .indefiniteLength
  else longLength (b.toNat - 128) 0

/-- The octets in front of the contents; the answer is how long those are. -/
def header : Reading Nat := do
  let identifier ← Parser.next .truncated
  longTag identifier
  let b ← Parser.next .truncated
  lengthFrom b

/-- One element, of any kind: its octets. -/
def rawValue : Reading (List Byte) :=
  Parser.consumed do
    let n ← header
    Parser.drop .truncated n

/-! ## Elements are read as they are written -/

theorem lt_width (n : Nat) : n < 256 ^ width n := by
  have hlt : n < 2 ^ (n.log2 + 1) := Nat.lt_log2_self
  have hle : 2 ^ (n.log2 + 1) ≤ 2 ^ (8 * width n) := Nat.pow_le_pow_right (by decide) (by unfold width; omega)
  rw [Nat.pow_mul] at hle
  exact Nat.lt_of_lt_of_le hlt hle

/-- There is no octet too many. -/
theorem le_width (h : n ≠ 0) : 256 ^ (width n - 1) ≤ n := by
  have hlog : 2 ^ n.log2 ≤ n := Nat.log2_self_le h
  have hle : 2 ^ (8 * (width n - 1)) ≤ 2 ^ n.log2 := Nat.pow_le_pow_right (by decide) (by unfold width; omega)
  rw [Nat.pow_mul] at hle
  exact Nat.le_trans hle hlog

theorem width_le_width (h : m ≤ n) : width m ≤ width n := by
  have hlog : m.log2 ≤ n.log2 := by
    by_cases h0 : m = 0
    · subst h0
      exact Nat.zero_le _
    · exact (Nat.le_log2 (by omega)).2 (Nat.le_trans (Nat.log2_self_le h0) h)
  unfold width
  omega

theorem length_lengthOctets_le (h : m ≤ n) : (lengthOctets m).length ≤ (lengthOctets n).length := by
  have hw := width_le_width h
  unfold lengthOctets
  split
  · split
    · exact Nat.le_refl _
    · exact Nat.succ_le_succ (Nat.zero_le _)
  · split
    · omega
    · simp only [length_cons, length_beBytes]
      omega

theorem element_inj {i i' : Byte} {c' : List Byte} (h : element i c = element i' c') : i = i' ∧ c = c' := by
  obtain ⟨rfl, hrest⟩ := List.cons.inj h
  -- a longer one would have as many length octets
  have hlen : c.length = c'.length := by
    have htotal := congrArg List.length hrest
    simp only [length_append] at htotal
    by_contra hne
    obtain hlt | hlt : c.length < c'.length ∨ c'.length < c.length := by omega
    · have := length_lengthOctets_le (Nat.le_of_lt hlt)
      omega
    · have := length_lengthOctets_le (Nat.le_of_lt hlt)
      omega
  rw [hlen] at hrest
  exact ⟨rfl, append_cancel_left hrest⟩

theorem sequence_inj {ms ms' : List (List Byte)} (h : sequence ms = sequence ms') : ms.flatten = ms'.flatten :=
  (element_inj h).2

theorem local_tagNumber (groups n : Nat) : Local (tagNumber groups n) := by
  induction groups generalizing n with
  | zero => exact (local_next _).bind fun _ => local_fail _
  | succ groups ih =>
    refine (local_next _).bind fun b => ?_
    exact local_ite (local_fail _) (local_ite (local_ite (local_fail _) (local_pure _)) (ih _))

theorem local_longLength (octets n : Nat) : Local (longLength octets n) := by
  induction octets generalizing n with
  | zero => exact local_ite (local_fail _) (local_pure _)
  | succ octets ih =>
    exact (local_next _).bind fun b => local_ite (local_fail _) (local_ite (local_fail _) (ih _))

theorem local_header : Local header := by
  refine (local_next _).bind fun ident => Local.bind ?_ fun _ => (local_next _).bind fun b => ?_
  · exact local_ite ((local_tagNumber 5 0).bind fun _ => local_ite (local_fail _) (local_pure ())) (local_pure ())
  · exact local_ite (local_pure _) (local_ite (local_fail _) (local_longLength _ _))

/-- The octets are one element. -/
def Whole (e : List Byte) : Prop := Answers rawValue e (.ok e)

theorem whole_of_rawValue (h : rawValue.run ts = .ok (e, rest)) : ts = e ++ rest ∧ Whole e :=
  Local.consumed (local_header.bind fun n => local_drop _ n) h

theorem Whole.append_inj {e' r' : List Byte} (h : Whole e) (h' : Whole e') (heq : e ++ r = e' ++ r') :
    e = e' ∧ r = r' := by
  have hrun : Except.ok (e, r) = Except.ok (e', r') := (h r).symm.trans (heq ▸ h' r')
  exact Prod.mk.inj (Except.ok.inj hrun)

theorem not_whole_nil : ¬Whole [] := by
  intro h
  cases h []

/-- Elements in sequence are told apart. -/
theorem flatten_inj {es es' : List (List Byte)} (h : ∀ e ∈ es, Whole e) (h' : ∀ e ∈ es', Whole e)
    (heq : es.flatten = es'.flatten) : es = es' := by
  induction es generalizing es' with
  | nil =>
    cases es' with
    | nil => rfl
    | cons e' es' =>
      obtain ⟨rfl, -⟩ := append_eq_nil_iff.1 heq.symm
      exact absurd (h' [] mem_cons_self) not_whole_nil
  | cons e es ih =>
    cases es' with
    | nil =>
      obtain ⟨rfl, -⟩ := append_eq_nil_iff.1 heq
      exact absurd (h [] mem_cons_self) not_whole_nil
    | cons e' es' =>
      obtain ⟨he, hes⟩ := forall_mem_cons.1 h
      obtain ⟨he', hes'⟩ := forall_mem_cons.1 h'
      obtain ⟨rfl, hrest⟩ := he.append_inj he' heq
      rw [ih hes hes' hrest]

theorem longLength_run {octets : Nat} (h : (longLength octets n).run ts = .ok (m, rest)) :
    ∃ used, ts = used ++ rest ∧ used.length = octets ∧ m = n * 256 ^ octets + leNat used.reverse ∧
      (0 < octets → m < 2 ^ 31) := by
  induction octets generalizing n ts with
  | zero =>
    unfold longLength at h
    split at h
    · cases h
    · cases h
      exact ⟨[], rfl, rfl, by simp [leNat], nofun⟩
  | succ octets ih =>
    obtain ⟨⟨t, ts'⟩, ht, hrun⟩ := except_bind_eq_ok.1 h
    cases ts with
    | nil => cases ht
    | cons t ts =>
      cases ht
      split at hrun
      · cases hrun
      dsimp only at hrun
      split at hrun
      · cases hrun
      obtain ⟨used, rfl, hlen, hm, hlt⟩ := ih hrun
      refine ⟨t :: used, rfl, congrArg Nat.succ hlen, ?_, fun _ => ?_⟩
      · rw [hm, reverse_cons, leNat_append, length_reverse, hlen]
        simp only [leNat]
        ring
      by_cases h0 : octets = 0
      · subst h0
        rw [length_eq_zero_iff.1 hlen] at hm
        simp only [reverse_nil, leNat] at hm
        omega
      · exact hlt (by omega)

/-- The octets in front of the contents of an element of one identifier octet. -/
theorem header_run (hid : ident &&& 0x1F ≠ 0x1F) (b : Byte) (ts : List Byte) :
    header.run (ident :: b :: ts) = (lengthFrom b).run ts := by
  have htag : longTag ident = pure () := if_neg hid
  show (longTag ident >>= fun _ => Parser.next .truncated >>= lengthFrom).run (b :: ts) = _
  rw [htag]
  rfl

theorem high_bit {b : Byte} : b &&& 0x80 = 0 ↔ b.toNat < 128 := by
  revert b
  decide

section

variable (hid : ident &&& 0x1F ≠ 0x1F)
include hid

theorem header_short (hn : n < 128) (ts : List Byte) :
    header.run (ident :: (lengthOctets n ++ ts)) = .ok (n, ts) := by
  have hb : (BitVec.ofNat 8 n).toNat = n := by
    rw [BitVec.toNat_ofNat]
    omega
  rw [lengthOctets, if_pos hn, singleton_append, header_run hid, lengthFrom,
    if_pos (high_bit.2 (by omega)), hb]
  rfl

theorem header_inv
    (h : header.run (ident :: (lengthOctets n ++ ts)) = .ok (m, rest)) : m = n ∧ rest = ts := by
  by_cases hn : n < 128
  · rw [header_short hid hn] at h
    cases h
    exact ⟨rfl, rfl⟩
  have hw : 1 ≤ width n := Nat.succ_le_succ (Nat.zero_le _)
  have hb : (BitVec.ofNat 8 (128 + min (width n) 127)).toNat = 128 + min (width n) 127 := by
    rw [BitVec.toNat_ofNat]
    omega
  rw [lengthOctets, if_neg hn, cons_append, header_run hid, lengthFrom] at h
  generalize BitVec.ofNat 8 (128 + min (width n) 127) = b at h hb
  have hb' : b ≠ 0x80 := by
    rintro rfl
    change 128 = _ at hb
    omega
  rw [if_neg (mt high_bit.1 (by omega)), if_neg hb', hb, Nat.add_sub_cancel_left] at h
  obtain ⟨used, heq, hlen, hm, hlt⟩ := longLength_run h
  have hvalue : leNat (beBytes (width n) n).reverse = n := by
    rw [beBytes, reverse_reverse, leNat_leBytes_of_lt (lt_width n)]
  by_cases hwide : width n ≤ 127
  · rw [Nat.min_eq_left hwide] at hlen
    obtain ⟨rfl, rfl⟩ := append_inj heq (by rw [length_beBytes, hlen])
    rw [hm, hvalue, Nat.zero_mul, Nat.zero_add]
    exact ⟨rfl, rfl⟩
  -- 127 octets without a leading zero are too large a length
  · rw [Nat.min_eq_right (by omega)] at hlen hlt
    obtain ⟨tail, htail⟩ : ∃ tail, beBytes (width n) n = used ++ tail := by
      refine ⟨(beBytes (width n) n).drop 127, ?_⟩
      have htake := congrArg (List.take 127) heq
      rw [take_append_of_le_length (by rw [length_beBytes]; omega), take_left' hlen] at htake
      rw [← htake, take_append_drop]
    have htl : tail.length = width n - 127 := by
      have := congrArg List.length htail
      rw [length_beBytes, length_append] at this
      omega
    rw [htail, reverse_append, leNat_append, length_reverse, htl] at hvalue
    have hrest := leNat_lt tail.reverse
    rw [length_reverse, htl] at hrest
    have hmin := le_width (show n ≠ 0 by omega)
    rw [show width n - 1 = (width n - 127) + 126 by omega, Nat.pow_add] at hmin
    have hbound : 256 ^ (width n - 127) * (leNat used.reverse + 1) ≤ 256 ^ (width n - 127) * 256 ^ 126 :=
      Nat.mul_le_mul_left _ (by omega)
    rw [Nat.mul_add] at hbound
    omega

theorem rawValue_element
    (h : rawValue.run (element ident c ++ r) = .ok (e, rest)) : e = element ident c ∧ rest = r := by
  obtain ⟨heq, -⟩ := whole_of_rawValue h
  obtain ⟨⟨u, rest'⟩, hrun, hans⟩ := except_bind_eq_ok.1 h
  obtain ⟨⟨m, ts⟩, hheader, hdrop⟩ := except_bind_eq_ok.1 hrun
  rw [element, cons_append, append_assoc] at hheader
  obtain ⟨rfl, rfl⟩ := header_inv hid hheader
  change (if (c ++ r).length < c.length then _ else _) = _ at hdrop
  rw [if_neg (by rw [length_append]; omega), drop_left] at hdrop
  cases hdrop
  cases hans
  exact ⟨(append_cancel_right heq).symm, rfl⟩

theorem whole_element (hc : c.length < 128) : Whole (element ident c) := by
  have hrun : ∃ e, rawValue.run (element ident c) = .ok (e, []) := by
    have hheader : header.run (element ident c) = .ok (c.length, c) := header_short hid hc c
    refine ⟨(element ident c).take ((element ident c).length - 0), ?_⟩
    show (header.run (element ident c) >>= fun r => (Parser.drop .truncated r.1).run r.2) >>= _ = _
    rw [hheader]
    show (if c.length < c.length then _ else _) >>= _ = _
    rw [if_neg (Nat.lt_irrefl _), drop_length]
    rfl
  obtain ⟨e, hrun⟩ := hrun
  obtain ⟨heq, hwhole⟩ := whole_of_rawValue hrun
  rw [append_nil] at heq
  rwa [heq]

end

/-! ## Particular elements -/

theorem element_ne_nil (ident : Byte) (c : List Byte) : element ident c ≠ [] := cons_ne_nil _ _

theorem leNat_reverse_beBytes (n v : Nat) : leNat (beBytes n v).reverse = v % 256 ^ n := by
  rw [beBytes, reverse_reverse, leNat_leBytes]

/-- The contents of an INTEGER. -/
theorem integer_eq (n : Nat) : ∃ c, integer n = element 0x02 c ∧ leNat c.reverse = n ∧ c.length ≤ width n + 1 := by
  have hvalue : leNat (beBytes (width n) n).reverse = n := by
    rw [leNat_reverse_beBytes, Nat.mod_eq_of_lt (lt_width n)]
  by_cases h : (beBytes (width n) n).headD 0 &&& 0x80 = 0
  · exact ⟨beBytes (width n) n, congrArg (element 0x02) (if_pos h), hvalue, by rw [length_beBytes]; omega⟩
  refine ⟨0x00 :: beBytes (width n) n, congrArg (element 0x02) (if_neg h), ?_, ?_⟩
  · rw [reverse_cons, leNat_append, hvalue]
    rfl
  · rw [length_cons, length_beBytes]

theorem integer_inj (h : integer m = integer n) : m = n := by
  obtain ⟨c, hc, hm, -⟩ := integer_eq m
  obtain ⟨c', hc', hn, -⟩ := integer_eq n
  rw [hc, hc'] at h
  rw [← hm, ← hn, (element_inj h).2]

theorem width_le_of_lt {k : Nat} (hk : 0 < k) (h : n < 256 ^ k) : width n ≤ k := by
  by_cases h0 : n = 0
  · subst h0
    exact hk
  · have hlt : 256 ^ (width n - 1) < 256 ^ k := Nat.lt_of_le_of_lt (le_width h0) h
    have := (Nat.pow_lt_pow_iff_right (by decide)).1 hlt
    omega

theorem whole_integer (h : n < 256 ^ 126) : Whole (integer n) := by
  obtain ⟨c, hc, -, hlen⟩ := integer_eq n
  have := width_le_of_lt (by decide) h
  rw [hc]
  exact whole_element (by decide) (by omega)

theorem length_element (hc : c.length < 128) : (element ident c).length = c.length + 2 := by
  rw [element, lengthOctets, if_pos hc]
  simp only [length_cons, length_append, length_nil]
  omega

theorem length_le_element (ident : Byte) (c : List Byte) : c.length < (element ident c).length := by
  rw [element, length_cons, length_append]
  omega

theorem whole_of_length (hid : ident &&& 0x1F ≠ 0x1F) (h : (element ident c).length ≤ 128) :
    Whole (element ident c) :=
  whole_element hid (Nat.lt_of_lt_of_le (length_le_element ident c) h)

theorem whole_objectIdentifier {oid : List Nat} (h : (objectIdentifier oid).length ≤ 128) :
    Whole (objectIdentifier oid) := by
  unfold objectIdentifier at h ⊢
  split at h
  · exact whole_of_length (by decide) h
  · exact whole_of_length (by decide) h

/-- A time takes at most 15 octets. -/
theorem time_eq {seconds : Int} {t : List Byte} (h : time seconds = some t) :
    ∃ ident c, t = element ident c ∧ c.length ≤ 15 := by
  unfold time at h
  dsimp only at h
  split at h
  · cases h
    exact ⟨_, _, rfl, by simp [twoDigits]⟩
  split at h
  · cases h
    exact ⟨_, _, rfl, by simp [twoDigits]⟩
  · cases h

end GF.Der
