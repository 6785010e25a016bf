import GoFabric.Framework.Except
import Mathlib.Data.List.Infix

/-!
# Parsers of bracketed tokens

A parser takes tokens from the front of a list and can only move forward
(`Parser.suffix`). A `Loop` is the form of every hand-written decoder of a
container whose opening token is taken: it takes one token after the other,
ends at a closing token, and hands every other one to `member`, which may take
more.

`Answers p used r` says that `p` takes exactly `used` and answers `r`, whatever
follows. A member that does so is one step of its loop (`Loop.run_member`), so
the answer of a loop is put together member by member (`Loop.answers_member`).
-/

namespace GF

open List

variable {ε' : Type}

/-- A parser of tokens `τ` with errors `ε`: its answer and the tokens that are
left. -/
@[ext]
structure Parser (τ ε α : Type) where
  run : List τ → Except ε (α × List τ)
  suffix : ∀ {ts a rest}, run ts = .ok (a, rest) → rest <:+ ts

namespace Parser

variable {τ ε α β : Type}

/-- The parser that answers `r` and takes nothing. -/
def ofExcept (r : Except ε α) : Parser τ ε α where
  run ts := r.map (·, ts)
  suffix {ts a rest} h := by
    cases r with
    | error e => cases h
    | ok a =>
      cases h
      exact suffix_refl _

/-- `p`, then `f` on its answer. -/
protected def bind (p : Parser τ ε α) (f : α → Parser τ ε β) : Parser τ ε β where
  run ts := p.run ts >>= fun r => (f r.1).run r.2
  suffix {ts b rest} h := by
    obtain ⟨r, h₁, h₂⟩ := except_bind_eq_ok.1 h
    exact ((f r.1).suffix h₂).trans (p.suffix h₁)

instance : Monad (Parser τ ε) where
  pure a := ofExcept (.ok a)
  bind := Parser.bind

/-- The parser that fails. -/
def fail (e : ε) : Parser τ ε α := ofExcept (.error e)

/-- `p`, with other errors. -/
def mapError (f : ε → ε') (p : Parser τ ε α) : Parser τ ε' α where
  run ts := (p.run ts).mapError f
  suffix {ts a rest} h := by
    cases hp : p.run ts with
    | error e =>
      rw [hp] at h
      cases h
    | ok r =>
      rw [hp] at h
      cases h
      exact p.suffix hp

/-- `p`, with its errors among the answers. -/
def attempt (p : Parser τ ε α) : Parser τ ε' (Except ε α) where
  run ts :=
    match p.run ts with
    | .ok (a, rest) => .ok (.ok a, rest)
    | .error e => .ok (.error e, ts)
  suffix {ts a rest} h := by
    split at h
    · rename_i hp
      cases h
      exact p.suffix hp
    · cases h
      exact suffix_refl _

/-- The next token; `eof` when there is none. -/
def next (eof : ε) : Parser τ ε τ where
  run
    | [] => .error eof
    | t :: ts => .ok (t, ts)
  suffix {ts a rest} h := by
    cases ts with
    | nil => cases h
    | cons t ts =>
      cases h
      exact suffix_cons _ _

/-- Takes `n` tokens; `eof` when there are fewer. -/
def drop (eof : ε) (n : Nat) : Parser τ ε Unit where
  run ts := if ts.length < n then .error eof else .ok ((), ts.drop n)
  suffix {ts a rest} h := by
    split at h
    · cases h
    · cases h
      exact drop_suffix _ _

/-- The tokens that `p` takes. -/
def consumed (p : Parser τ ε α) : Parser τ ε (List τ) where
  run ts := p.run ts >>= fun r => .ok (ts.take (ts.length - r.2.length), r.2)
  suffix {ts a rest} h := by
    obtain ⟨r, h₁, h₂⟩ := except_bind_eq_ok.1 h
    cases h₂
    exact p.suffix h₁

@[simp] theorem run_ofExcept (r : Except ε α) (ts : List τ) :
    (ofExcept r : Parser τ ε α).run ts = r.map (·, ts) := rfl

@[simp] theorem run_pure (a : α) (ts : List τ) : (pure a : Parser τ ε α).run ts = .ok (a, ts) := rfl

@[simp] theorem run_fail (e : ε) (ts : List τ) : (fail e : Parser τ ε α).run ts = .error e := rfl

theorem run_bind (p : Parser τ ε α) (f : α → Parser τ ε β) (ts : List τ) :
    (p >>= f).run ts = p.run ts >>= fun r => (f r.1).run r.2 := rfl

@[simp] theorem run_next_cons (eof : ε) (t : τ) (ts : List τ) : (next eof).run (t :: ts) = .ok (t, ts) := rfl

theorem run_mapError (f : ε → ε') (p : Parser τ ε α) (ts : List τ) :
    (p.mapError f).run ts = (p.run ts).mapError f := rfl

theorem length_le (p : Parser τ ε α) {ts rest : List τ} {a : α} (h : p.run ts = .ok (a, rest)) :
    rest.length ≤ ts.length := (p.suffix h).length_le

end Parser

variable {τ ε α β : Type} {p : Parser τ ε α}

/-! ## Answers that depend on the tokens taken alone -/

/-- `p` takes exactly `used`, and its answer is `r` whatever follows. -/
def Answers (p : Parser τ ε α) (used : List τ) (r : Except ε α) : Prop :=
  ∀ rest, p.run (used ++ rest) = r.map (·, rest)

/-- What `p` answers to `used` does not depend on what follows. -/
def Decides (p : Parser τ ε α) (used : List τ) : Prop := ∃ r, Answers p used r

variable {q : Parser τ ε α} {f : α → Parser τ ε β} {used used' : List τ} {a : α}

theorem answers_ofExcept (r : Except ε α) : Answers (Parser.ofExcept r : Parser τ ε α) [] r := fun _ => rfl

theorem answers_pure : Answers (pure a : Parser τ ε α) [] (.ok a) := fun _ => rfl

theorem answers_fail (e : ε) (used : List τ) :
    Answers (Parser.fail e : Parser τ ε α) used (.error e) := fun _ => rfl

theorem answers_next (eof : ε) (t : τ) : Answers (Parser.next eof) [t] (.ok t) := fun _ => rfl

theorem Answers.bind {r : Except ε β} (hp : Answers p used (.ok a)) (hf : Answers (f a) used' r) :
    Answers (p >>= f) (used ++ used') r := by
  intro rest
  rw [Parser.run_bind, append_assoc, hp]
  exact hf rest

theorem Answers.bind_pure {f : α → β} (hp : Answers p used (.ok a)) :
    Answers (p >>= fun a => pure (f a)) used (.ok (f a)) := by
  have h := hp.bind (f := fun a => pure (f a)) answers_pure
  rwa [append_nil] at h

/-- An answer is passed on, an error ends the run. -/
theorem Decides.bind_ofExcept {f : α → Except ε β} (hp : Decides p used) :
    Decides (p >>= fun a => Parser.ofExcept (f a)) used := by
  obtain ⟨r, hr⟩ := hp
  refine ⟨r >>= f, fun rest => ?_⟩
  rw [Parser.run_bind, hr]
  cases r with
  | error e => rfl
  | ok a => rfl

theorem Answers.attempt (hp : Answers p used (.ok a)) :
    Answers (p.attempt : Parser τ ε' (Except ε α)) used (.ok (.ok a)) := by
  intro rest
  show (match p.run (used ++ rest) with | .ok (a, rest) => _ | .error e => _) = _
  rw [hp]
  rfl

theorem Answers.mapError {f : ε → ε'} (hp : Answers p used (.ok a)) : Answers (p.mapError f) used (.ok a) := by
  intro rest
  rw [Parser.run_mapError, hp]
  rfl

theorem Decides.mapError {f : ε → ε'} (hp : Decides p used) : Decides (p.mapError f) used := by
  obtain ⟨r, hr⟩ := hp
  refine ⟨r.mapError f, fun rest => ?_⟩
  rw [Parser.run_mapError, hr]
  cases r with
  | error e => rfl
  | ok a => rfl

/-! ## What a parser gives -/

variable {P : α → Prop} {Q : β → Prop}

/-- Whatever `p` gives has the property. -/
def Gives (P : α → Prop) (p : Parser τ ε α) : Prop := ∀ ts a rest, p.run ts = .ok (a, rest) → P a

theorem gives_pure (h : P a) : Gives P (pure a : Parser τ ε α) := by
  intro ts a' rest hrun
  cases hrun
  exact h

theorem Gives.imp {P' : α → Prop} (hp : Gives P p) (h : ∀ a, P a → P' a) : Gives P' p := fun ts a rest hrun =>
  h a (hp ts a rest hrun)

theorem gives_fail {e : ε} : Gives P (Parser.fail e : Parser τ ε α) := nofun

theorem Gives.bind (hp : Gives P p) (hf : ∀ a, P a → Gives Q (f a)) : Gives Q (p >>= f) := by
  intro ts b rest h
  obtain ⟨⟨a, mid⟩, h1, h2⟩ := except_bind_eq_ok.1 h
  exact hf a (hp ts a mid h1) mid b rest h2

/-- What `p` gives does not matter. -/
theorem gives_bind (hf : ∀ a, Gives Q (f a)) : Gives Q (p >>= f) :=
  Gives.bind (fun _ _ _ _ => trivial) fun a _ => hf a

theorem Gives.mapError {f : ε → ε'} (hp : Gives P p) : Gives P (p.mapError f) := fun ts a rest h =>
  hp ts a rest (mapError_eq_ok.1 h)

theorem gives_ite {c : Prop} [Decidable c] (hp : c → Gives P p) (hq : ¬c → Gives P q) :
    Gives P (if c then p else q) := by
  split
  · exact hp ‹c›
  · exact hq ‹¬c›

/-! ## Parsers that look at what they take alone -/

/-- What `p` answers, it answers to the tokens that it takes, whatever follows. -/
def Local (p : Parser τ ε α) : Prop :=
  ∀ ts a rest, p.run ts = .ok (a, rest) → ∃ used, ts = used ++ rest ∧ Answers p used (.ok a)

theorem local_pure (a : α) : Local (pure a : Parser τ ε α) := by
  intro ts a' rest h
  cases h
  exact ⟨[], rfl, answers_pure⟩

theorem local_fail (e : ε) : Local (Parser.fail e : Parser τ ε α) := nofun

theorem local_next (eof : ε) : Local (Parser.next eof : Parser τ ε τ) := by
  intro ts a rest h
  cases ts with
  | nil => cases h
  | cons t ts =>
    cases h
    exact ⟨[_], rfl, answers_next eof _⟩

theorem local_drop (eof : ε) (n : Nat) : Local (Parser.drop eof n : Parser τ ε Unit) := by
  intro ts a rest h
  change (if ts.length < n then _ else _) = _ at h
  split at h
  · cases h
  rename_i hn
  cases h
  refine ⟨ts.take n, (take_append_drop n ts).symm, ?_⟩
  intro rest
  have hlen : (ts.take n).length = n := length_take_of_le (Nat.le_of_not_lt hn)
  show (if (ts.take n ++ rest).length < n then _ else _) = _
  rw [if_neg (by rw [length_append]; omega), drop_left' hlen]
  rfl

theorem Local.bind (hp : Local p) (hf : ∀ a, Local (f a)) : Local (p >>= f) := by
  intro ts b rest h
  obtain ⟨⟨a, mid⟩, h1, h2⟩ := except_bind_eq_ok.1 h
  obtain ⟨used, rfl, hused⟩ := hp _ _ _ h1
  obtain ⟨used', rfl, hused'⟩ := hf a _ _ _ h2
  exact ⟨used ++ used', (append_assoc ..).symm, hused.bind hused'⟩

theorem local_ite {c : Prop} [Decidable c] (hp : Local p) (hq : Local q) : Local (if c then p else q) := by
  split
  · exact hp
  · exact hq

/-- What is consumed stands in front of what is left, and would be consumed in
front of anything. -/
theorem Local.consumed (hp : Local p) {ts rest : List τ} (h : p.consumed.run ts = .ok (used, rest)) :
    ts = used ++ rest ∧ Answers p.consumed used (.ok used) := by
  obtain ⟨⟨a, rest'⟩, h1, h2⟩ := except_bind_eq_ok.1 h
  obtain ⟨used', rfl, hused⟩ := hp _ _ _ h1
  have htake : ∀ rest, (used' ++ rest).take ((used' ++ rest).length - rest.length) = used' := by
    intro rest
    rw [length_append, Nat.add_sub_cancel, take_left]
  simp only [htake, Except.ok.injEq, Prod.mk.injEq] at h2
  obtain ⟨rfl, rfl⟩ := h2
  refine ⟨rfl, ?_⟩
  intro rest
  show p.run (used' ++ rest) >>= _ = _
  rw [hused]
  show Except.ok (_, rest) = _
  rw [htake]
  rfl

/-! ## Loops -/

/-- A loop over the members of a container. -/
structure Loop (τ ε σ α : Type) where
  /-- The error at the end of the tokens. -/
  eof : ε
  /-- The token ends the container. -/
  closes : τ → Bool
  /-- The answer at the end of the container. -/
  finish : σ → Except ε α
  /-- One member. -/
  member : τ → σ → Parser τ ε σ

namespace Loop

variable {σ : Type} (l : Loop τ ε σ α)

/-- At most `fuel` rounds of the loop. -/
def rounds : Nat → σ → List τ → Except ε (α × List τ)
  | 0, _, _ => .error l.eof
  | _ + 1, _, [] => .error l.eof
  | fuel + 1, s, t :: ts =>
    if l.closes t then (l.finish s).map (·, ts)
    else (l.member t s).run ts >>= fun r => rounds fuel r.1 r.2

theorem rounds_suffix {fuel : Nat} {s : σ} {ts rest : List τ} (h : l.rounds fuel s ts = .ok (a, rest)) :
    rest <:+ ts := by
  induction fuel generalizing s ts with
  | zero => cases h
  | succ fuel ih =>
    cases ts with
    | nil => cases h
    | cons t ts =>
      unfold rounds at h
      split at h
      · exact ((Parser.ofExcept (l.finish s)).suffix h).trans (suffix_cons t ts)
      · obtain ⟨r, h1, h2⟩ := except_bind_eq_ok.1 h
        exact (ih h2).trans (((l.member t s).suffix h1).trans (suffix_cons t ts))

/-- The loop from the state `s`. Every round takes a token, so as many rounds as
there are tokens are enough. -/
def parser (s : σ) : Parser τ ε α where
  run ts := l.rounds (ts.length + 1) s ts
  suffix := l.rounds_suffix

theorem rounds_eq {fuel fuel' : Nat} {s : σ} {ts : List τ} (h : ts.length < fuel) (h' : ts.length < fuel') :
    l.rounds fuel s ts = l.rounds fuel' s ts := by
  induction fuel generalizing fuel' s ts with
  | zero => omega
  | succ fuel ih =>
    obtain ⟨fuel', rfl⟩ : ∃ n, fuel' = n + 1 := ⟨fuel' - 1, by omega⟩
    cases ts with
    | nil => rfl
    | cons t ts =>
      simp only [rounds]
      split
      · rfl
      cases hm : (l.member t s).run ts with
      | error e => rfl
      | ok r =>
        have hle := (l.member t s).length_le hm
        simp only [length_cons] at h h'
        exact ih (by omega) (by omega)

@[simp] theorem run_nil (s : σ) : (l.parser s).run [] = .error l.eof := rfl

/-- One round. -/
theorem run_cons (s : σ) (t : τ) (ts : List τ) :
    (l.parser s).run (t :: ts) =
      if l.closes t then (l.finish s).map (·, ts)
      else (l.member t s).run ts >>= fun r => (l.parser r.1).run r.2 := by
  show l.rounds (ts.length + 1 + 1) s (t :: ts) = _
  simp only [rounds]
  split
  · rfl
  cases hm : (l.member t s).run ts with
  | error e => rfl
  | ok r =>
    have hle := (l.member t s).length_le hm
    exact l.rounds_eq (by omega) (Nat.lt_succ_self _)

variable {l} {s s' : σ} {t : τ} {r : Except ε σ}

/-- A loop goes on with a member and then itself. -/
theorem run_step (h : l.closes t = false) (ts : List τ) :
    (l.parser s).run (t :: ts) = (l.member t s >>= l.parser).run ts := by
  rw [run_cons, if_neg (by simp [h])]
  rfl

theorem run_close (h : l.closes t = true) (ts : List τ) :
    (l.parser s).run (t :: ts) = (l.finish s).map (·, ts) := by
  rw [run_cons, if_pos h]

/-- A member that takes `used` and answers `r` is one step of the loop. -/
theorem run_member (h : l.closes t = false) (hm : Answers (l.member t s) used r) (ts : List τ) :
    (l.parser s).run (t :: (used ++ ts)) = r >>= fun s' => (l.parser s').run ts := by
  rw [run_cons, if_neg (by simp [h]), hm]
  cases r with
  | error e => rfl
  | ok s' => rfl

/-- From the state `s`, the loop takes `used` and goes on from the state that `r`
is, or fails as `r` does. -/
def Runs (l : Loop τ ε σ α) (s : σ) (used : List τ) (r : Except ε σ) : Prop :=
  ∀ ts, (l.parser s).run (used ++ ts) = r >>= fun s' => (l.parser s').run ts

theorem runs_nil : l.Runs s [] (.ok s) := fun _ => rfl

theorem Runs.append (h : l.Runs s used (.ok s')) (h' : l.Runs s' used' r) : l.Runs s (used ++ used') r := by
  intro ts
  rw [append_assoc, h]
  exact h' ts

theorem Runs.append_error {e : ε} (h : l.Runs s used (.error e)) (used' : List τ) :
    l.Runs s (used ++ used') (.error e) := by
  intro ts
  rw [append_assoc, h]
  rfl

theorem runs_member (h : l.closes t = false) (hm : Answers (l.member t s) used r) :
    l.Runs s (t :: used) r := run_member h hm

/-- At its closing token, a loop answers. -/
theorem Runs.answers (h : l.Runs s used (.ok s')) (hc : l.closes t = true) (hf : l.finish s' = .ok a) :
    Answers (l.parser s) (used ++ [t]) (.ok a) := by
  intro rest
  rw [append_assoc, h]
  exact (run_close hc rest).trans (by rw [hf])

/-- A member that decides, and then what every state goes on with. -/
theorem runs_cons {rest : List τ} (h : l.closes t = false) (hm : Decides (l.member t s) used)
    (hrest : ∀ s', ∃ r, l.Runs s' rest r) : ∃ r, l.Runs s (t :: (used ++ rest)) r := by
  obtain ⟨r, hr⟩ := hm
  cases r with
  | error e => exact ⟨_, (runs_member h hr).append_error rest⟩
  | ok s' =>
    obtain ⟨r', hr'⟩ := hrest s'
    exact ⟨r', (runs_member h hr).append hr'⟩

/-- At its closing token, a loop decides. -/
theorem Runs.decides (h : l.Runs s used r) (hc : l.closes t = true) : Decides (l.parser s) (used ++ [t]) := by
  refine ⟨r >>= l.finish, fun rest => ?_⟩
  rw [append_assoc, h]
  cases r with
  | error e => rfl
  | ok s' => exact run_close hc rest

/-- What every member keeps holds in the end. -/
theorem gives {P : σ → Prop} {Q : α → Prop} (hmember : ∀ t s, P s → Gives P (l.member t s))
    (hfinish : ∀ s a, P s → l.finish s = .ok a → Q a) (hs : P s) : Gives Q (l.parser s) := by
  intro ts a rest h
  induction hlen : ts.length using Nat.strong_induction_on generalizing s ts with
  | _ n ih =>
    cases ts with
    | nil => cases h
    | cons t ts =>
      rw [run_cons] at h
      split at h
      · cases hf : l.finish s with
        | error e =>
          rw [hf] at h
          cases h
        | ok a' =>
          rw [hf] at h
          cases h
          exact hfinish s _ hs hf
      · obtain ⟨⟨s', mid⟩, h1, h2⟩ := except_bind_eq_ok.1 h
        have hle := (l.member t s).length_le h1
        rw [length_cons] at hlen
        exact ih mid.length (by omega) (hmember t s hs ts s' mid h1) mid h2 rfl

end Loop

end GF
