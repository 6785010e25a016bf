import Mathlib.Data.Nat.Init

/-!
# Splitting a stream into items

A splitter looks at the bytes that have arrived and finds an item at their
front, or an error, or that more bytes are needed. Draining a buffer takes
items until it stops; what stays is waited on. When more bytes change nothing
that was found (`Splits`), a stream that arrives in pieces gives the items of
the whole (`feed_eq_drain`), so how it was cut does not matter.
-/

namespace GF.Stream

variable {ε μ β : Type} {buf : List β}

/-- What the bytes at hand give. -/
inductive Round (ε μ β : Type)
  | more
  | stop (e : ε)
  | item (m : μ) (rest : List β)
deriving DecidableEq

/-- What a buffer gave: the items, the error that stopped it, and the bytes
that stay. -/
structure Out (ε μ β : Type) where
  items : List μ
  error : Option ε
  rest : List β

/-- `m`, before what the rest gave. -/
def Out.cons (m : μ) (o : Out ε μ β) : Out ε μ β := { o with items := m :: o.items }

/-- Rounds on `buf` until one needs more or stops. An item takes at least one
byte, so `buf.length` rounds are enough. -/
def rounds (next : List β → Round ε μ β) : Nat → List β → Out ε μ β
  | 0, buf => ⟨[], none, buf⟩
  | fuel + 1, buf =>
    match next buf with
    | .more => ⟨[], none, buf⟩
    | .stop e => ⟨[], some e, buf⟩
    | .item m rest => (rounds next fuel rest).cons m

/-- Everything the buffer gives. -/
def drain (next : List β → Round ε μ β) (buf : List β) : Out ε μ β := rounds next buf.length buf

/-- The pieces of a stream, one after the other, until the first error. -/
def feed (next : List β → Round ε μ β) (buf : List β) : List (List β) → Out ε μ β
  | [] => ⟨[], none, buf⟩
  | c :: cs =>
    let o := drain next (buf ++ c)
    match o.error with
    | some e => ⟨o.items, some e, o.rest⟩
    | none =>
      let r := feed next o.rest cs
      ⟨o.items ++ r.items, r.error, r.rest⟩

/-- An item takes bytes, and bytes that come later change nothing that was
found. -/
structure Splits (next : List β → Round ε μ β) : Prop where
  nil : next [] = .more
  shorter : ∀ {buf m rest}, next buf = .item m rest → rest.length < buf.length
  item_append : ∀ {buf m rest}, next buf = .item m rest → ∀ later, next (buf ++ later) = .item m (rest ++ later)
  stop_append : ∀ {buf e}, next buf = .stop e → ∀ later, next (buf ++ later) = .stop e

section Drain

variable {next : List β → Round ε μ β} (S : Splits next)

include S

theorem rounds_of_le {fuel : Nat} (h : buf.length ≤ fuel) : rounds next fuel buf = drain next buf := by
  unfold drain
  induction fuel using Nat.strong_induction_on generalizing buf with
  | _ fuel ih =>
    match fuel, buf with
    | 0, [] => rfl
    | fuel + 1, [] => simp [rounds, S.nil]
    | fuel + 1, b :: buf =>
      simp only [rounds, List.length_cons]
      cases hn : next (b :: buf) with
      | more => rfl
      | stop e => rfl
      | item m rest =>
        have hs := S.shorter hn
        simp only [List.length_cons] at hs h
        have h₁ : rounds next fuel rest = rounds next rest.length rest := ih fuel (by omega) (by omega)
        have h₂ : rounds next buf.length rest = rounds next rest.length rest := ih buf.length (by omega) (by omega)
        simp only [h₁, h₂]

theorem drain_more (h : next buf = .more) : drain next buf = ⟨[], none, buf⟩ := by
  rw [← rounds_of_le S (Nat.le_succ _)]
  simp only [rounds, h]

theorem drain_stop {e : ε} (h : next buf = .stop e) : drain next buf = ⟨[], some e, buf⟩ := by
  rw [← rounds_of_le S (Nat.le_succ _)]
  simp only [rounds, h]

theorem drain_item {rest : List β} {m : μ} (h : next buf = .item m rest) :
    drain next buf = (drain next rest).cons m := by
  rw [← rounds_of_le S (Nat.le_succ _)]
  simp only [rounds, h, rounds_of_le S (Nat.le_of_lt (S.shorter h))]

/-- Induction over the rounds of a buffer. -/
theorem drain_induction {motive : List β → Out ε μ β → Prop} (more : ∀ buf, next buf = .more → motive buf ⟨[], none, buf⟩)
    (stop : ∀ buf e, next buf = .stop e → motive buf ⟨[], some e, buf⟩)
    (item : ∀ buf m rest, next buf = .item m rest → motive rest (drain next rest) →
      motive buf ((drain next rest).cons m)) (buf : List β) : motive buf (drain next buf) := by
  induction hn : buf.length using Nat.strong_induction_on generalizing buf with
  | _ n ih =>
    subst hn
    cases hr : next buf with
    | more => exact drain_more S hr ▸ more buf hr
    | stop e => exact drain_stop S hr ▸ stop buf e hr
    | item m rest => exact drain_item S hr ▸ item buf m rest hr (ih rest.length (S.shorter hr) rest rfl)

/-- What stays in a drained buffer is waited on. -/
theorem next_of_drain (h : (drain next buf).error = none) : next (drain next buf).rest = .more :=
  drain_induction S (motive := fun _ o => o.error = none → next o.rest = .more) (fun _ hr _ => hr) (fun _ _ _ => nofun)
    (fun _ _ _ _ ih => ih) buf h

/-- What stays behind an error begins with it. -/
theorem next_of_drain_error {e : ε} (h : (drain next buf).error = some e) : next (drain next buf).rest = .stop e :=
  drain_induction S (motive := fun _ o => o.error = some e → next o.rest = .stop e) (fun _ _ => nofun)
    (fun _ _ hr he => Option.some.inj he ▸ hr) (fun _ _ _ _ ih => ih) buf h

/-- Bytes that come later are drained behind what stayed. -/
theorem drain_append_of_none (later : List β) (h : (drain next buf).error = none) :
    drain next (buf ++ later) =
      { drain next ((drain next buf).rest ++ later) with
        items := (drain next buf).items ++ (drain next ((drain next buf).rest ++ later)).items } := by
  refine drain_induction S (motive := fun buf o => o.error = none → drain next (buf ++ later) =
    { drain next (o.rest ++ later) with items := o.items ++ (drain next (o.rest ++ later)).items })
    (fun _ _ _ => rfl) (fun _ _ _ => nofun) (fun buf m rest hr ih h => ?_) buf h
  rw [drain_item S (S.item_append hr later), ih h]
  rfl

/-- After an error nothing more is found. -/
theorem drain_append_of_some {e : ε} (later : List β) (h : (drain next buf).error = some e) :
    drain next (buf ++ later) = { drain next buf with rest := (drain next buf).rest ++ later } := by
  refine drain_induction S (motive := fun buf o => o.error = some e → drain next (buf ++ later) =
    { o with rest := o.rest ++ later })
    (fun _ _ => nofun) (fun _ _ hr _ => drain_stop S (S.stop_append hr later)) (fun buf m rest hr ih h => ?_) buf h
  rw [drain_item S (S.item_append hr later), ih h]
  rfl

/-- A stream that arrives in pieces gives the items and the error of the
whole. -/
theorem feed_eq_drain (h : next buf = .more) (cs : List (List β)) :
    (feed next buf cs).items = (drain next (buf ++ cs.flatten)).items ∧
      (feed next buf cs).error = (drain next (buf ++ cs.flatten)).error := by
  induction cs generalizing buf with
  | nil => simp only [List.flatten_nil, List.append_nil, drain_more S h, feed, and_self]
  | cons c cs ih =>
    rw [List.flatten_cons, ← List.append_assoc]
    cases hd : (drain next (buf ++ c)).error with
    | some e => simp only [feed, hd, drain_append_of_some S cs.flatten hd, and_self]
    | none =>
      obtain ⟨hitems, herror⟩ := ih (next_of_drain S hd)
      simp only [feed, hd, drain_append_of_none S cs.flatten hd, hitems, herror, and_self]

end Drain

end GF.Stream
