import GoFabric.Framework.Parser

/-!
# Brackets

Some tokens open a bracket and some close one. `Closes n ts` says that every
bracket opened in `ts` is closed in it, and that `ts` closes `n` more. Skipping
a bracket takes the tokens up to the one that closes it (`answers_skip`).

A loop that passes over an opening token without its contents reads the contents
as members of its own, and then ends where the bracket ends. How far it can go
is said by `Stays p ts n`: `p` answers within `ts`, and leaves at least `n`
closing tokens of `ts`. When every member stays, a loop answers within tokens
that close its bracket, or it has taken them all and goes on
(`stays_or_goes_on`).
-/

namespace GF

open List

variable {m n : Nat}

/-- Which tokens open a bracket and which close one. -/
structure Brackets (τ : Type) where
  opens : τ → Bool
  closes : τ → Bool

namespace Brackets

variable {τ ε σ α β : Type} (B : Brackets τ)

/-- Every bracket opened in the tokens is closed in them, and they close `n`
more. -/
inductive Closes : Nat → List τ → Prop
  | nil : Closes 0 []
  | leaf {n t ts} : B.opens t = false → B.closes t = false → Closes n ts → Closes n (t :: ts)
  | opened {n t ts} : B.opens t = true → B.closes t = false → Closes (n + 1) ts → Closes n (t :: ts)
  | closed {n t ts} : B.opens t = false → B.closes t = true → Closes n ts → Closes (n + 1) (t :: ts)

variable {B}

theorem Closes.append {us ts : List τ} (hu : B.Closes m us) (ht : B.Closes n ts) : B.Closes (m + n) (us ++ ts) := by
  induction hu with
  | nil => simpa using ht
  | leaf ho hc _ ih => exact .leaf ho hc ih
  | opened ho hc _ ih => exact .opened ho hc (by rwa [Nat.add_right_comm])
  | closed ho hc _ ih =>
    rw [Nat.add_right_comm]
    exact .closed ho hc ih

/-- The token that closes the bracket around the tokens. -/
theorem Closes.split {ts : List τ} (h : B.Closes (n + 1) ts) :
    ∃ inner c rest, ts = inner ++ c :: rest ∧ B.Closes 0 inner ∧ B.opens c = false ∧ B.closes c = true ∧
      B.Closes n rest := by
  induction hlen : ts.length using Nat.strong_induction_on generalizing n ts with
  | _ len ih =>
    cases h with
    | leaf ho hc h =>
      obtain ⟨inner, c, rest, rfl, hi, hrest⟩ := ih _ (by simp [← hlen]) h rfl
      exact ⟨_ :: inner, c, rest, rfl, .leaf ho hc hi, hrest⟩
    | closed ho hc h => exact ⟨[], _, _, rfl, .nil, ho, hc, h⟩
    | opened ho hc h =>
      -- the bracket opened here is closed first
      obtain ⟨inner1, c1, rest1, rfl, hi1, ho1, hc1, h1⟩ := ih _ (by simp [← hlen]) h rfl
      obtain ⟨inner, c, rest, rfl, hi, hrest⟩ := ih rest1.length
        (by simp only [length_cons, length_append] at hlen; omega) h1 rfl
      refine ⟨_ :: (inner1 ++ c1 :: inner), c, rest, by simp, .opened ho hc ?_, hrest⟩
      have happ := hi1.append (Closes.closed ho1 hc1 hi)
      rwa [Nat.zero_add] at happ

/-! ## Skipping -/

section Skip

variable (B) (eof : ε)

/-- The tokens after `depth` brackets are closed. -/
def skipRun : Nat → List τ → Except ε (Unit × List τ)
  | 0, ts => .ok ((), ts)
  | _ + 1, [] => .error eof
  | depth + 1, t :: ts =>
    skipRun (depth + 1 + (if B.opens t then 1 else 0) - (if B.closes t then 1 else 0)) ts

/-- Takes the tokens up to the one that closes the bracket around them. -/
def skip : Parser τ ε Unit where
  run := B.skipRun eof 1
  suffix {ts a rest} h := by
    suffices ∀ depth, B.skipRun eof depth ts = .ok (a, rest) → rest <:+ ts from this 1 h
    clear h
    induction ts with
    | nil =>
      intro depth h
      cases depth with
      | zero =>
        cases h
        exact suffix_refl _
      | succ depth => cases h
    | cons t ts ih =>
      intro depth h
      cases depth with
      | zero =>
        cases h
        exact suffix_refl _
      | succ depth => exact (ih _ h).trans (suffix_cons t ts)

variable {B eof}

theorem skipRun_append {d : Nat} {ts : List τ} (h : B.Closes n ts) (hn : n ≤ d) (rest : List τ) :
    B.skipRun eof (d + 1) (ts ++ rest) = B.skipRun eof (d + 1 - n) rest := by
  induction h generalizing d with
  | nil => rfl
  | leaf ho hc _ ih =>
    rw [cons_append, skipRun, ho, hc]
    exact ih hn
  | opened ho hc _ ih =>
    rw [cons_append, skipRun, ho, hc]
    refine (ih (by omega)).trans (congrArg (B.skipRun eof · rest) ?_)
    omega
  | closed ho hc _ ih =>
    obtain ⟨d, rfl⟩ : ∃ k, d = k + 1 := ⟨d - 1, by omega⟩
    rw [cons_append, skipRun, ho, hc]
    refine (ih (by omega)).trans (congrArg (B.skipRun eof · rest) ?_)
    omega

/-- Skipping takes what stands in a bracket and the token that closes it. -/
theorem answers_skip {inner : List τ} {c : τ} (h : B.Closes 0 inner) (ho : B.opens c = false)
    (hc : B.closes c = true) : Answers (B.skip eof) (inner ++ [c]) (.ok ()) := by
  intro rest
  show B.skipRun eof 1 (inner ++ [c] ++ rest) = _
  rw [append_assoc, skipRun_append h (Nat.le_refl 0), singleton_append, skipRun, ho, hc]
  simp only [Bool.false_eq_true, ↓reduceIte, Nat.sub_self, skipRun, Except.map]

end Skip

/-! ## Where a parser stops -/

/-- `p` answers within `ts`, whatever follows, and leaves at least `n` closing
tokens. -/
def Stays (B : Brackets τ) (p : Parser τ ε α) (ts : List τ) (n : Nat) : Prop :=
  (∃ e, ∀ r, p.run (ts ++ r) = .error e) ∨
    ∃ a rest m, n ≤ m ∧ B.Closes m rest ∧ ∀ r, p.run (ts ++ r) = .ok (a, rest ++ r)

section Stays

variable {p : Parser τ ε α} {ts : List τ}

/-- A parser that takes nothing stays. -/
theorem stays_of_decides_nil (h : Decides p []) (hts : B.Closes m ts) (hn : n ≤ m) : B.Stays p ts n := by
  obtain ⟨r, hr⟩ := h
  cases r with
  | error e => exact .inl ⟨e, fun r => hr (ts ++ r)⟩
  | ok a => exact .inr ⟨a, ts, m, hn, hts, fun r => hr (ts ++ r)⟩

theorem stays_ofExcept (r : Except ε α) (h : B.Closes m ts) (hn : n ≤ m) :
    B.Stays (Parser.ofExcept r : Parser τ ε α) ts n := stays_of_decides_nil ⟨r, answers_ofExcept r⟩ h hn

theorem Stays.bind_ofExcept {f : α → Except ε β} (h : B.Stays p ts n) :
    B.Stays (p >>= fun a => Parser.ofExcept (f a)) ts n := by
  rcases h with ⟨e, h⟩ | ⟨a, rest, m, hn, hm, h⟩
  · refine .inl ⟨e, fun r => ?_⟩
    rw [Parser.run_bind, h]
    rfl
  cases hf : f a with
  | error e =>
    refine .inl ⟨e, fun r => ?_⟩
    rw [Parser.run_bind, h]
    show (f a).map _ = _
    rw [hf]
    rfl
  | ok b =>
    refine .inr ⟨b, rest, m, hn, hm, fun r => ?_⟩
    rw [Parser.run_bind, h]
    show (f a).map _ = _
    rw [hf]
    rfl

/-- A parser that takes a bracket's contents exactly stays. -/
theorem stays_of_decides (hts : B.Closes (n + 1) ts)
    (h : ∀ inner c, B.Closes 0 inner → B.opens c = false → B.closes c = true → Decides p (inner ++ [c])) :
    B.Stays p ts n := by
  obtain ⟨inner, c, rest, rfl, hi, ho, hc, hrest⟩ := hts.split
  obtain ⟨r, hr⟩ := h inner c hi ho hc
  have hsplit : ∀ r', inner ++ c :: rest ++ r' = inner ++ [c] ++ (rest ++ r') := fun r' => by simp
  cases r with
  | error e => exact .inl ⟨e, fun r' => by rw [hsplit, hr]; rfl⟩
  | ok a => exact .inr ⟨a, rest, n, Nat.le_refl n, hrest, fun r' => by rw [hsplit, hr]; rfl⟩

end Stays

/-- Every member of the loop stays, on tokens that are `ok`. -/
def Careful (B : Brackets τ) (ok : τ → Prop) (l : Loop τ ε σ α) : Prop :=
  l.closes = B.closes ∧
    ∀ t s n ts, (∀ u ∈ t :: ts, ok u) → B.closes t = false → B.Closes n (t :: ts) → B.Stays (l.member t s) ts n

section Careful

variable {ok : τ → Prop} {l : Loop τ ε σ α} {ts : List τ}

/-- A loop answers within tokens that close what they open, or it takes them all
and goes on from another state. -/
theorem stays_or_goes_on (hl : B.Careful ok l) (h : B.Closes n ts) (hok : ∀ u ∈ ts, ok u) (s : σ) :
    B.Stays (l.parser s) ts (n - 1) ∨ n = 0 ∧ ∃ s', ∀ r, (l.parser s).run (ts ++ r) = (l.parser s').run r := by
  induction hlen : ts.length using Nat.strong_induction_on generalizing n ts s with
  | _ len ih =>
    cases ts with
    | nil =>
      cases h
      exact .inr ⟨rfl, s, fun _ => rfl⟩
    | cons t ts =>
      cases hc : B.closes t with
      | true =>
        have hl' : l.closes t = true := by rw [hl.1, hc]
        refine .inl ?_
        have hts : B.Closes (n - 1) ts := by
          cases h with
          | leaf _ hc' _ | opened _ hc' _ => exact absurd (hc.symm.trans hc') (by decide)
          | closed _ _ h => exact h
        rcases stays_ofExcept (l.finish s) hts (Nat.le_refl _) with ⟨e, h⟩ | ⟨a, rest, m, hn, hm, h⟩
        · exact .inl ⟨e, fun r => (Loop.run_close hl' _).trans (h r)⟩
        · exact .inr ⟨a, rest, m, hn, hm, fun r => (Loop.run_close hl' _).trans (h r)⟩
      | false =>
        have hl' : ¬ l.closes t = true := by rw [hl.1, hc]; decide
        have hstep : ∀ r, (l.parser s).run (t :: ts ++ r) =
            (l.member t s).run (ts ++ r) >>= fun q => (l.parser q.1).run q.2 := by
          intro r
          rw [cons_append, Loop.run_cons, if_neg hl']
        rcases hl.2 t s n ts hok hc h with ⟨e, hm⟩ | ⟨s1, rest, m, hnm, hrest, hm⟩
        · refine .inl (.inl ⟨e, fun r => ?_⟩)
          rw [hstep, hm]
          rfl
        have hgo : ∀ r, (l.parser s).run (t :: ts ++ r) = (l.parser s1).run (rest ++ r) := by
          intro r
          rw [hstep, hm]
          rfl
        have hsuf : rest <:+ ts := by
          have hsuf := (l.member t s).suffix (hm [])
          simpa using hsuf
        have hle := hsuf.length_le
        have hrec := ih rest.length (by simp only [length_cons] at hlen; omega) hrest
          (fun u hu => hok u (mem_cons_of_mem t (hsuf.mem hu))) s1 rfl
        rcases hrec with (⟨e, h⟩ | ⟨a, rest', m', hm', hr', h⟩) | ⟨hzero, s', h⟩
        · exact .inl (.inl ⟨e, fun r => (hgo r).trans (h r)⟩)
        · exact .inl (.inr ⟨a, rest', m', by omega, hr', fun r => (hgo r).trans (h r)⟩)
        · exact .inr ⟨by omega, s', fun r => (hgo r).trans (h r)⟩

/-- Where the bracket of the loop is closed, the loop answers. -/
theorem stays_loop (hl : B.Careful ok l) (h : B.Closes (n + 1) ts) (hok : ∀ u ∈ ts, ok u) (s : σ) :
    B.Stays (l.parser s) ts n := by
  rcases stays_or_goes_on hl h hok s with h | ⟨hzero, -⟩
  · exact h
  · omega

/-- `p` answers within `ts`, or it fails, whichever of `T` follows. -/
def Settles (B : Brackets τ) (ok : τ → Prop) (T : List τ → Prop) (p : Parser τ ε α) (ts : List τ) : Prop :=
  (∀ after, T after → ∃ e, p.run (ts ++ after) = .error e) ∨
    ∃ a rest m, B.Closes m rest ∧ (∀ u ∈ rest, ok u) ∧ ∀ after, T after → p.run (ts ++ after) = .ok (a, rest ++ after)

variable {T : List τ → Prop}

theorem Stays.settles {p : Parser τ ε α} (h : B.Stays p ts n) (hok : ∀ u ∈ ts, ok u) : B.Settles ok T p ts := by
  rcases h with ⟨e, h⟩ | ⟨a, rest, m, -, hm, h⟩
  · exact .inl fun after _ => ⟨e, h after⟩
  have hsuf : rest <:+ ts := by
    have hsuf := p.suffix (h [])
    simpa using hsuf
  exact .inr ⟨a, rest, m, hm, fun u hu => hok u (hsuf.mem hu), fun after _ => h after⟩

theorem Settles.bind {p : Parser τ ε α} {f : α → Parser τ ε β} (hp : B.Settles ok T p ts)
    (hf : ∀ a m rest, B.Closes m rest → (∀ u ∈ rest, ok u) → B.Settles ok T (f a) rest) :
    B.Settles ok T (p >>= f) ts := by
  rcases hp with h | ⟨a, rest, m, hm, hok, h⟩
  · refine .inl fun after hT => ?_
    obtain ⟨e, he⟩ := h after hT
    exact ⟨e, by rw [Parser.run_bind, he]; rfl⟩
  have hrun : ∀ after, T after → (p >>= f).run (ts ++ after) = (f a).run (rest ++ after) := by
    intro after hT
    rw [Parser.run_bind, h after hT]
    rfl
  rcases hf a m rest hm hok with h' | ⟨b, rest', m', hm', hok', h'⟩
  · exact .inl fun after hT => by rw [hrun after hT]; exact h' after hT
  · exact .inr ⟨b, rest', m', hm', hok', fun after hT => by rw [hrun after hT, h' after hT]⟩

/-- A loop that cannot go on with what follows settles. -/
theorem settles_loop (hl : B.Careful ok l) (hT : ∀ s after, T after → ∃ e, (l.parser s).run after = .error e)
    (h : B.Closes n ts) (hok : ∀ u ∈ ts, ok u) (s : σ) : B.Settles ok T (l.parser s) ts := by
  rcases stays_or_goes_on hl h hok s with h | ⟨-, s', h⟩
  · exact h.settles hok
  · exact .inl fun after hafter => by rw [h]; exact hT s' after hafter

end Careful

end Brackets

end GF
