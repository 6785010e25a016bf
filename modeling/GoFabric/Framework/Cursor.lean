import GoFabric.Framework.Bytes

/-!
# Reading from a buffer

A reader runs on a buffer with a position in it, and returns a value or an
error with the position it stopped at. `Reads m bs a` says that `m` reads
exactly the bytes `bs`, whatever stands before and behind them, and returns
`a`; readers in sequence read bytes in sequence (`Reads.bind`). `Fails m bs e`
says that `m` fails on `bs`, and `Yields m P` that what it returns is `P`. `Takes m D P` says
which bytes `m` reads at all, and that it never leaves the buffer.
-/

namespace GF

open List

/-- A buffer and a position in it. -/
structure Cursor where
  buf : List Byte
  pos : Nat

/-- A reader with errors `ε`: an error keeps the position it was found at. -/
def Reader (ε α : Type) := Cursor → Except ε α × Cursor

variable {ε α β : Type}

namespace Reader

variable {m : Reader ε α} {f : α → Reader ε β} {c : Cursor} {a : α} {e : ε}

/-- The reader that returns `a` and reads nothing. -/
protected def pure (a : α) : Reader ε α := fun c => (.ok a, c)

/-- `m`, then `f` on what it returned. -/
protected def bind (m : Reader ε α) (f : α → Reader ε β) : Reader ε β := fun c =>
  match m c with
  | (.ok a, c') => f a c'
  | (.error e, c') => (.error e, c')

instance : Monad (Reader ε) where
  pure := Reader.pure
  bind := Reader.bind

/-- The reader that fails. -/
def fail (e : ε) : Reader ε α := fun c => (.error e, c)

/-- The buffer and the position. -/
def cursor : Reader ε Cursor := fun c => (.ok c, c)

/-- The next `n` bytes. -/
def take (n : Nat) : Reader ε (List Byte) := fun c => (.ok ((c.buf.drop c.pos).take n), { c with pos := c.pos + n })

theorem bind_ok {c' : Cursor} (h : m c = (.ok a, c')) : (m >>= f) c = f a c' := by
  show Reader.bind m f c = f a c'
  unfold Reader.bind
  rw [h]

theorem bind_error (h : (m c).1 = .error e) : ((m >>= f) c).1 = .error e := by
  show (Reader.bind m f c).1 = .error e
  unfold Reader.bind
  split
  · rename_i a c' hm
    rw [hm] at h
    cases h
  · rename_i e' c' hm
    rw [hm] at h
    exact congrArg Except.error (Except.error.inj h)

/-- `n` values, one after the other. -/
def times (m : Reader ε α) : Nat → Reader ε (List α)
  | 0 => pure []
  | n + 1 => do
    let a ← m
    let as ← times m n
    pure (a :: as)

end Reader

variable {m : Reader ε α} {f : α → Reader ε β} {a : α} {b : β} {e : ε}

/-- Whatever `m` returns is `P`. -/
def Yields (m : Reader ε α) (P : α → Prop) : Prop := ∀ c a c', m c = (.ok a, c') → P a

section Yields

variable {P : β → Prop}

theorem yields_pure (h : P b) : Yields (pure b : Reader ε β) P := by
  rintro c a c' ⟨⟩
  exact h

theorem yields_fail (e : ε) : Yields (Reader.fail e : Reader ε β) P := by
  rintro c a c' ⟨⟩

theorem yields_bind_of {Q : α → Prop} (hm : Yields m Q) (h : ∀ a, Q a → Yields (f a) P) : Yields (m >>= f) P := by
  intro c b c' hrun
  cases hr : m c with
  | mk r c1 =>
    cases r with
    | ok a =>
      rw [Reader.bind_ok hr] at hrun
      exact h a (hm c a c1 hr) c1 b c' hrun
    | error e =>
      have herr : ((m >>= f) c).1 = .error e := Reader.bind_error (by rw [hr])
      rw [hrun] at herr
      cases herr

theorem yields_bind (h : ∀ a, Yields (f a) P) : Yields (m >>= f) P :=
  yields_bind_of (fun _ _ _ _ => trivial) fun a _ => h a

end Yields

/-- `m` reads exactly `bs` and returns `a`. -/
def Reads (m : Reader ε α) (bs : List Byte) (a : α) : Prop :=
  ∀ before after : List Byte,
    m ⟨before ++ bs ++ after, before.length⟩ = (.ok a, ⟨before ++ bs ++ after, before.length + bs.length⟩)

/-- `m` fails on `bs` with the error `e`. -/
def Fails (m : Reader ε α) (bs : List Byte) (e : ε) : Prop :=
  ∀ before after : List Byte, (m ⟨before ++ bs ++ after, before.length⟩).1 = .error e

namespace Reads

variable {bs bs' : List Byte}

theorem pure (a : α) : Reads (Pure.pure a : Reader ε α) [] a := fun _ _ => rfl

theorem bind (hm : Reads m bs a) (hf : Reads (f a) bs' b) : Reads (m >>= f) (bs ++ bs') b := by
  intro before after
  have h1 := hm before (bs' ++ after)
  have h2 := hf (before ++ bs) after
  rw [← append_assoc, append_assoc before] at h1
  rw [length_append] at h2
  rw [Reader.bind_ok h1, ← append_assoc before, h2, length_append, Nat.add_assoc]

theorem bind_fails (hm : Reads m bs a) (hf : Fails (f a) bs' e) : Fails (m >>= f) (bs ++ bs') e := by
  intro before after
  have h1 := hm before (bs' ++ after)
  have h2 := hf (before ++ bs) after
  rw [← append_assoc, append_assoc before] at h1
  rw [length_append] at h2
  rw [Reader.bind_ok h1, ← append_assoc before, h2]

theorem bind_pure (hm : Reads m bs a) (hf : f a = Pure.pure b) : Reads (m >>= f) bs b := by
  have h : Reads (m >>= f) (bs ++ []) b := hm.bind (by rw [hf]; exact Reads.pure b)
  rwa [append_nil] at h

theorem take (bs : List Byte) : Reads (Reader.take bs.length : Reader ε (List Byte)) bs bs := by
  intro before after
  show (Except.ok (((before ++ bs ++ after).drop before.length).take bs.length), _) = _
  rw [append_assoc, drop_left, take_left]

/-- `n` values in a row read their bytes in a row. -/
theorem times {items : List (List Byte × α)} (h : ∀ p ∈ items, Reads m p.1 p.2) :
    Reads (m.times items.length) (items.flatMap Prod.fst) (items.map Prod.snd) := by
  induction items with
  | nil => exact Reads.pure []
  | cons p items ih =>
    have hp := h p mem_cons_self
    have hrest := ih fun q hq => h q (mem_cons_of_mem p hq)
    exact hp.bind (hrest.bind_pure rfl)

end Reads

/-- `m` fails at its position or behind it, within the buffer. -/
def FailsIn (m : Reader ε α) (before rest : List Byte) : Prop :=
  ∃ e k, k ≤ rest.length ∧ m ⟨before ++ rest, before.length⟩ = (.error e, ⟨before ++ rest, before.length + k⟩)

theorem FailsIn.bind {before rest : List Byte} (h : FailsIn m before rest) : FailsIn (m >>= f) before rest := by
  obtain ⟨e, k, hk, he⟩ := h
  refine ⟨e, k, hk, ?_⟩
  show Reader.bind m f _ = _
  unfold Reader.bind
  rw [he]

theorem Reads.failsIn {before bs after : List Byte} (hr : Reads m bs a) (h : FailsIn (f a) (before ++ bs) after) :
    FailsIn (m >>= f) before (bs ++ after) := by
  obtain ⟨e, k, hk, he⟩ := h
  refine ⟨e, bs.length + k, by rw [length_append]; omega, ?_⟩
  rw [length_append] at he
  rw [← append_assoc, Reader.bind_ok (hr before after), he, Nat.add_assoc]

/-- `m` reads the strings of `D` and returns what is `P`: at every position of a buffer it reads
one, or it fails. -/
structure Takes (m : Reader ε α) (D : List Byte → Prop) (P : α → Prop) : Prop where
  reads : ∀ {bs}, D bs → ∃ a, Reads m bs a ∧ P a
  decides : ∀ before rest, (∃ bs after, rest = bs ++ after ∧ D bs) ∨ FailsIn m before rest

namespace Takes

variable {D D' : List Byte → Prop} {P : α → Prop} {Q : β → Prop}

theorem pure (h : P a) : Takes (Pure.pure a : Reader ε α) (· = []) P where
  reads hbs := ⟨a, hbs ▸ Reads.pure a, h⟩
  decides _ rest := .inl ⟨[], rest, rfl, rfl⟩

theorem fail (h : ∀ c, ∃ e, m c = (.error e, c)) : Takes m (fun _ => False) P where
  reads := False.elim
  decides _ _ := .inr ((h _).imp fun _ he => ⟨0, Nat.zero_le _, he⟩)

theorem congr (h : Takes m D P) (hD : ∀ bs, D' bs ↔ D bs) : Takes m D' P := by
  rwa [show D' = D from funext fun bs => propext (hD bs)]

theorem bind (hm : Takes m D P) (hf : ∀ a, P a → Takes (f a) D' Q) :
    Takes (m >>= f) (fun bs => ∃ bs1 bs2, bs = bs1 ++ bs2 ∧ D bs1 ∧ D' bs2) Q where
  reads := by
    rintro _ ⟨bs1, bs2, rfl, h1, h2⟩
    obtain ⟨a, ha, hP⟩ := hm.reads h1
    obtain ⟨b, hb, hQ⟩ := (hf a hP).reads h2
    exact ⟨b, ha.bind hb, hQ⟩
  decides before rest := by
    rcases hm.decides before rest with ⟨bs, after, rfl, hD⟩ | h
    · obtain ⟨a, ha, hP⟩ := hm.reads hD
      rcases (hf a hP).decides (before ++ bs) after with ⟨bs', after', rfl, hD'⟩ | h
      · exact .inl ⟨bs ++ bs', after', (append_assoc bs bs' after').symm, bs, bs', rfl, hD, hD'⟩
      · exact .inr (ha.failsIn h)
    · exact .inr h.bind

theorem bind_pure {g : α → β} (hm : Takes m D P) (h : ∀ a, P a → Q (g a)) :
    Takes (m >>= fun a => Pure.pure (g a)) D Q := by
  refine (hm.bind fun a ha => Takes.pure (h a ha)).congr fun bs => ?_
  constructor
  · intro h
    exact ⟨bs, [], (append_nil bs).symm, h, rfl⟩
  · rintro ⟨bs1, _, rfl, h, rfl⟩
    rwa [append_nil]

end Takes

end GF
