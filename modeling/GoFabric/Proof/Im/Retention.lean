import GoFabric.Proof.Im.Subscription
import Mathlib.Algebra.Ring.Nat

/-!
# What the event buffer retains

A harvest takes from each priority its oldest records: as many Debug records as it has
to, up to the floor, then Info records up to theirs, then Critical ones (`harvest_class`).
So the buffered records of a priority are always the last ones of those that were
appended (`Retained`), and what is guaranteed of the buffer is counting.
-/

namespace GF.Proof.Im

open GF.Impl.Im List

variable {α : Type} {p : EventPriority}

theorem priorities_ne : EventPriority.debug ≠ .info ∧ EventPriority.debug ≠ .critical ∧ EventPriority.info ≠ .debug ∧
    EventPriority.info ≠ .critical ∧ EventPriority.critical ≠ .debug ∧ EventPriority.critical ≠ .info := by decide

def ofPriority (p : EventPriority) (l : List (EventRecord α)) : List (EventRecord α) := l.filter (·.priority = p)

/-! ## One pass of a harvest -/

def unmarked (l : List (EventRecord α × Bool)) : List (EventRecord α) := (l.filter fun m => !m.2).map Prod.fst

/-- The marked and unmarked records of a priority. -/
def marksOf (p : EventPriority) (l : List (EventRecord α × Bool)) : List (EventRecord α × Bool) :=
  l.filter (·.1.priority = p)

theorem ofPriority_unmarked (p : EventPriority) (l : List (EventRecord α × Bool)) :
    ofPriority p (unmarked l) = unmarked (marksOf p l) := by
  unfold ofPriority unmarked marksOf
  rw [filter_map, filter_filter, filter_filter]
  refine congrArg _ (filter_congr fun m _ => ?_)
  exact Bool.and_comm _ _

theorem marksOf_dropPass_of_ne {q : EventPriority} (hne : p ≠ q) (limit i : Nat) (toDrop : Int)
    (l : List (EventRecord α × Bool)) : marksOf q (dropPass p limit i toDrop l).1 = marksOf q l := by
  induction l generalizing i toDrop with
  | nil => rfl
  | cons m l ih =>
    obtain ⟨rec, drop⟩ := m
    simp only [dropPass]
    split_ifs with hc
    · have hq : ¬ rec.priority = q := fun h => hne (hc.2.2.1.symm.trans h)
      simp only [marksOf, filter_cons, hq] at ⊢
      exact ih _ _
    · simp only [marksOf, filter_cons] at ih ⊢
      rw [ih]

/-- How many records of the priority are before the limit. -/
def reach (p : EventPriority) (limit : Nat) (l : List (EventRecord α)) : Nat :=
  (l.take limit).countP (·.priority = p)

theorem reach_zero (p : EventPriority) (l : List (EventRecord α)) : reach p 0 l = 0 := rfl

theorem reach_cons (p : EventPriority) (limit : Nat) (rec : EventRecord α) (l : List (EventRecord α)) :
    reach p limit (rec :: l) = if limit = 0 then 0 else reach p (limit - 1) l + if rec.priority = p then 1 else 0 := by
  cases limit with
  | zero => rfl
  | succ limit => simp [reach, countP_cons]

/-- A pass over a priority that has no marks yet: the oldest records in reach are marked,
as many as there are to drop. -/
theorem dropPass_class (p : EventPriority) (limit i : Nat) (toDrop : Int) (l : List (EventRecord α × Bool))
    (hl : ∀ m ∈ l, m.1.priority = p → m.2 = false) :
    unmarked (marksOf p (dropPass p limit i toDrop l).1) =
        (ofPriority p (l.map Prod.fst)).drop (min toDrop.toNat (reach p (limit - i) (l.map Prod.fst))) ∧
      (dropPass p limit i toDrop l).2 = toDrop - (min toDrop.toNat (reach p (limit - i) (l.map Prod.fst)) : Nat) := by
  induction l generalizing i toDrop with
  | nil => simp [dropPass, marksOf, unmarked, ofPriority, reach]
  | cons m l ih =>
    obtain ⟨rec, drop⟩ := m
    have htail : ∀ m ∈ l, m.1.priority = p → m.2 = false := fun m hm => hl m (mem_cons_of_mem _ hm)
    have hreach := reach_cons p (limit - i) rec (l.map Prod.fst)
    have hnone := reach_zero p (l.map Prod.fst)
    rw [Nat.sub_sub] at hreach
    simp only [dropPass, map_cons]
    by_cases hp : rec.priority = p
    · have hdrop : drop = false := hl _ mem_cons_self hp
      have hof : ofPriority p (rec :: l.map Prod.fst) = rec :: ofPriority p (l.map Prod.fst) := by simp [ofPriority, hp]
      rw [hof]
      rw [if_pos hp] at hreach
      by_cases hc : i < limit ∧ 0 < toDrop
      · -- the record is marked
        obtain ⟨h1, h2⟩ := ih (i + 1) (toDrop - 1) htail
        have hmin : min toDrop.toNat (reach p (limit - i) (rec :: l.map Prod.fst)) =
            min (toDrop - 1).toNat (reach p (limit - (i + 1)) (l.map Prod.fst)) + 1 := by
          split at hreach <;> omega
        rw [if_pos ⟨hc.1, hc.2, hp, by simp [hdrop]⟩, hmin]
        refine ⟨?_, by omega⟩
        rw [drop_succ_cons, ← h1]
        simp [marksOf, unmarked]
      · -- out of reach, or nothing left to drop
        obtain ⟨h1, h2⟩ := ih (i + 1) toDrop htail
        have hzero : min toDrop.toNat (reach p (limit - i) (rec :: l.map Prod.fst)) = 0 ∧
            min toDrop.toNat (reach p (limit - (i + 1)) (l.map Prod.fst)) = 0 := by
          by_cases hi : i < limit
          · omega
          · rw [if_pos (by omega)] at hreach
            rw [hreach, show limit - (i + 1) = 0 by omega, hnone]
            omega
        rw [hzero.2] at h1 h2
        rw [if_neg fun h => hc ⟨h.1, h.2.1⟩, hzero.1]
        refine ⟨?_, h2⟩
        rw [drop_zero] at h1 ⊢
        rw [← h1]
        simp [marksOf, unmarked, hp, hdrop]
    · -- a record of another priority
      obtain ⟨h1, h2⟩ := ih (i + 1) toDrop htail
      rw [if_neg hp] at hreach
      have hsame : reach p (limit - i) (rec :: l.map Prod.fst) = reach p (limit - (i + 1)) (l.map Prod.fst) := by
        split at hreach
        · rw [hreach, show limit - (i + 1) = 0 by omega, hnone]
        · exact hreach
      rw [if_neg fun h => hp h.2.2.1, hsame]
      refine ⟨?_, h2⟩
      rw [show ofPriority p (rec :: l.map Prod.fst) = ofPriority p (l.map Prod.fst) by simp [ofPriority, hp], ← h1]
      simp [marksOf, hp]

/-- A pass over a priority, from marks on the records `l` that are on others. -/
structure PassSpec (p : EventPriority) (limit : Nat) (l : List (EventRecord α)) (before after : List (EventRecord α × Bool))
    (toDrop left : Int) : Prop where
  records : after.map Prod.fst = l
  class_ : unmarked (marksOf p after) = (ofPriority p l).drop (min toDrop.toNat (reach p limit l))
  others : ∀ q, p ≠ q → marksOf q after = marksOf q before
  left_eq : left = toDrop - (min toDrop.toNat (reach p limit l) : Nat)

theorem passSpec (p : EventPriority) (limit : Nat) {l : List (EventRecord α)} {before : List (EventRecord α × Bool)}
    (toDrop : Int) (hrecords : before.map Prod.fst = l) (hfresh : ∀ m ∈ marksOf p before, m.2 = false) :
    PassSpec p limit l before (dropPass p limit 0 toDrop before).1 toDrop (dropPass p limit 0 toDrop before).2 := by
  obtain ⟨h1, h2⟩ := dropPass_class p limit 0 toDrop before fun m hm hp =>
    hfresh m (mem_filter.mpr ⟨hm, decide_eq_true hp⟩)
  rw [hrecords] at h1 h2
  exact ⟨(map_fst_dropPass p limit 0 toDrop before).trans hrecords, h1,
    fun q hq => marksOf_dropPass_of_ne hq limit 0 toDrop before, h2⟩

/-! ## The floors -/

/-- The walk backwards over records and their indices. -/
def walk (p : EventPriority) (floor : Int) (n : Nat) (l : List (EventRecord α × Nat)) : Int × Nat :=
  l.foldr (fun x acc => if x.1.priority = p ∧ acc.1 < floor then (acc.1 + 1, x.2) else acc) (0, n)

/-- The walk has counted up to the floor, and before where it stands is the rest of the
priority. -/
theorem walk_spec (p : EventPriority) (floor : Int) (l : List (EventRecord α)) (k : Nat) :
    let r := walk p floor (k + l.length) (l.zipIdx k)
    r.1 = (min floor.toNat (l.countP (·.priority = p)) : Nat) ∧ k ≤ r.2 ∧ r.2 ≤ k + l.length ∧
      (reach p (r.2 - k) l : Int) = l.countP (·.priority = p) - r.1 := by
  induction l generalizing k with
  | nil => simp [walk, reach]
  | cons rec l ih =>
    obtain ⟨h1, h2, h3, h4⟩ := ih (k + 1)
    rw [show k + 1 + l.length = k + (rec :: l).length by simp; omega] at h1 h2 h3 h4
    simp only [zipIdx_cons, walk, foldr_cons] at *
    generalize (l.zipIdx (k + 1)).foldr _ _ = r at *
    have hcount := countP_cons (p := fun rec : EventRecord α => decide (rec.priority = p)) (a := rec) (l := l)
    have hreach := reach_cons p (r.2 - k) rec l
    rw [Nat.sub_sub, if_neg (by omega)] at hreach
    simp only [decide_eq_true_eq] at hcount
    by_cases hp : rec.priority = p
    · rw [if_pos hp] at hcount hreach
      by_cases hlt : r.1 < floor
      · rw [if_pos ⟨hp, hlt⟩]
        have hnone : reach p (k - k) (rec :: l) = 0 := by rw [Nat.sub_self, reach_zero]
        exact ⟨by simp only [hcount]; omega, Nat.le_refl k, Nat.le_add_right k _, by simp only [hcount]; omega⟩
      · rw [if_neg fun h => hlt h.2]
        exact ⟨by omega, by omega, h3, by omega⟩
    · rw [if_neg hp] at hcount hreach
      rw [if_neg fun h => hp h.1, hcount, hreach]
      exact ⟨h1, by omega, h3, h4⟩

/-- Before the protected records of a priority are all but the floor. -/
theorem reach_protectedFrom (p : EventPriority) (floor : Int) (l : List (EventRecord α)) :
    reach p (protectedFrom l p floor) l = (ofPriority p l).length - floor.toNat := by
  have heq : protectedFrom l p floor = (walk p floor (0 + l.length) (l.zipIdx 0)).2 := by
    unfold protectedFrom walk
    rw [foldl_reverse, Nat.zero_add]
  rw [heq]
  obtain ⟨h1, -, -, h4⟩ := walk_spec p floor l 0
  rw [Nat.sub_zero] at h4
  rw [ofPriority, ← countP_eq_length_filter]
  omega

theorem reach_all (p : EventPriority) (l : List (EventRecord α)) :
    reach p l.length l = (ofPriority p l).length := by
  rw [reach, take_length, ofPriority, ← countP_eq_length_filter]

/-! ## A harvest -/

/-- A harvest drops this many records of a priority that has `count`, of which `floor` are
protected, when `toDrop` are still to be dropped. -/
def taken (toDrop count floor : Nat) : Nat := min toDrop (count - floor)

section Harvest

variable (buf : BufferConfig) (l : List (EventRecord α))

def excess : Nat :=
  if (l.length : Int) ≤ buf.maxEventAllowance then 0 else ((l.length : Int) - buf.minEventAllowance).toNat

def takenDebug : Nat := taken (excess buf l) (ofPriority .debug l).length buf.minDebugAllowance.toNat

def takenInfo : Nat :=
  taken (excess buf l - takenDebug buf l) (ofPriority .info l).length buf.minInfoAllowance.toNat

def takenCritical : Nat :=
  taken (excess buf l - takenDebug buf l - takenInfo buf l) (ofPriority .critical l).length 0

/-- What a harvest drops of each priority, the oldest records first. -/
theorem harvest_class :
    ofPriority .debug (harvest buf l) = (ofPriority .debug l).drop (takenDebug buf l) ∧
      ofPriority .info (harvest buf l) = (ofPriority .info l).drop (takenInfo buf l) ∧
      ofPriority .critical (harvest buf l) = (ofPriority .critical l).drop (takenCritical buf l) := by
  by_cases hquiet : (l.length : Int) ≤ buf.maxEventAllowance ∨ (l.length : Int) - buf.minEventAllowance ≤ 0
  · have hzero : excess buf l = 0 := by
      unfold excess
      split <;> omega
    have hharvest : harvest buf l = l := by simp only [harvest, if_pos hquiet]
    simp [hharvest, takenDebug, takenInfo, takenCritical, taken, hzero]
  · have hexcess : excess buf l = ((l.length : Int) - buf.minEventAllowance).toNat := by
      unfold excess
      rw [if_neg fun h => hquiet (.inl h)]
    obtain ⟨hdi, hdc, hid, hic, hcd, hci⟩ := priorities_ne
    have hrecords : (l.map fun rec => (rec, false)).map Prod.fst = l := by simp [Function.comp_def]
    have hfresh : ∀ q, ∀ m ∈ marksOf q (l.map fun rec => (rec, false)), m.2 = false := fun q m hm => by
      obtain ⟨rec, -, rfl⟩ := mem_map.mp (mem_of_mem_filter hm)
      rfl
    simp only [harvest, if_neg hquiet]
    have hd := passSpec .debug (protectedFrom l .debug buf.minDebugAllowance)
      ((l.length : Int) - buf.minEventAllowance) hrecords (hfresh _)
    generalize dropPass .debug (protectedFrom l .debug buf.minDebugAllowance) 0
      ((l.length : Int) - buf.minEventAllowance) (l.map fun rec => (rec, false)) = d at hd ⊢
    have hi := passSpec .info (protectedFrom l .info buf.minInfoAllowance) d.2 hd.records
      fun m hm => hfresh .info m (by rwa [hd.others .info hdi] at hm)
    generalize dropPass .info (protectedFrom l .info buf.minInfoAllowance) 0 d.2 d.1 = i at hi ⊢
    have hc := passSpec .critical l.length i.2 hi.records
      fun m hm => hfresh .critical m (by rwa [hi.others .critical hic, hd.others .critical hdc] at hm)
    generalize dropPass .critical l.length 0 i.2 i.1 = c at hc ⊢
    -- the marks of a priority are those of its own pass
    have hdebug := hd.class_
    have hinfo := hi.class_
    have hcritical := hc.class_
    have hleft := (congrArg Int.toNat hd.left_eq).trans (Int.toNat_sub' _ _)
    have hleft' := (congrArg Int.toNat hi.left_eq).trans (Int.toNat_sub' _ _)
    rw [reach_protectedFrom] at hdebug hinfo hleft hleft'
    rw [reach_all, hleft', hleft] at hcritical
    rw [hleft] at hinfo
    rw [← hi.others .debug hid, ← hc.others .debug hcd] at hdebug
    rw [← hc.others .info hci] at hinfo
    show ofPriority .debug (unmarked c.1) = _ ∧ ofPriority .info (unmarked c.1) = _ ∧
      ofPriority .critical (unmarked c.1) = _
    rw [ofPriority_unmarked, ofPriority_unmarked, ofPriority_unmarked, hdebug, hinfo, hcritical]
    unfold takenCritical takenInfo takenDebug taken
    rw [hexcess]
    exact ⟨rfl, rfl, rfl⟩

end Harvest

/-! ## Counting -/

/-- One of the three named priorities. -/
def Named (p : EventPriority) : Prop := p = .debug ∨ p = .info ∨ p = .critical

/-- The floor of a priority; Critical records have none. -/
def floorOf (buf : BufferConfig) (p : EventPriority) : Nat :=
  if p = .debug then buf.minDebugAllowance.toNat else if p = .info then buf.minInfoAllowance.toNat else 0

theorem length_of_named {l : List (EventRecord α)} (h : ∀ r ∈ l, Named r.priority) :
    l.length = (ofPriority .debug l).length + (ofPriority .info l).length + (ofPriority .critical l).length := by
  induction l with
  | nil => rfl
  | cons r l ih =>
    have htail := ih fun x hx => h x (mem_cons_of_mem _ hx)
    rw [length_cons, htail]
    rcases h r mem_cons_self with hr | hr | hr
    all_goals simp [ofPriority, hr, priorities_ne]
    all_goals omega

/-- A configuration as `normalized` leaves it: a harvest has room. -/
structure Normal (buf : BufferConfig) : Prop where
  min_pos : 0 < buf.minEventAllowance
  max_gt : buf.minEventAllowance < buf.maxEventAllowance
  info_nonneg : 0 ≤ buf.minInfoAllowance
  debug_nonneg : 0 ≤ buf.minDebugAllowance

theorem normal_normalized (cfg : BufferConfig) : Normal cfg.normalized := by
  have hdefault : defaultBufferConfig.minEventAllowance = 2000 := rfl
  refine ⟨?_, ?_, ?_, ?_⟩
  all_goals simp only [BufferConfig.normalized, hdefault]
  all_goals split_ifs <;> omega

section Harvest

variable {buf : BufferConfig} {l : List (EventRecord α)}

/-- Of each priority the oldest records are dropped, and the floor stays. -/
theorem harvest_drop (buf : BufferConfig) (l : List (EventRecord α)) (hp : Named p) : ∃ k,
    ofPriority p (harvest buf l) = (ofPriority p l).drop k ∧ k ≤ (ofPriority p l).length - floorOf buf p := by
  obtain ⟨hd, hi, hc⟩ := harvest_class buf l
  rcases hp with rfl | rfl | rfl
  · exact ⟨_, hd, Nat.min_le_right _ _⟩
  · exact ⟨_, hi, Nat.min_le_right _ _⟩
  · exact ⟨_, hc, Nat.min_le_right _ _⟩

/-- What is left has at most the larger of the minimum and the floors. -/
theorem length_harvest_le (hbuf : Normal buf) (hl : ∀ r ∈ l, Named r.priority)
    (hfloors : buf.minInfoAllowance + buf.minDebugAllowance ≤ buf.maxEventAllowance) :
    ((harvest buf l).length : Int) ≤ buf.maxEventAllowance := by
  obtain ⟨hd, hi, hc⟩ := harvest_class buf l
  have hlength := length_of_named hl
  have hnamed := length_of_named fun r hr => hl r ((harvest_sublist buf l).subset hr)
  rw [hd, hi, hc, length_drop, length_drop, length_drop] at hnamed
  have := hbuf.max_gt
  have := hbuf.info_nonneg
  have := hbuf.debug_nonneg
  simp only [takenCritical, takenInfo, takenDebug, taken, excess] at hnamed
  split_ifs at hnamed <;> omega

/-- The newest record stays if its priority has a floor, or if it is Critical and the
minimum has room beside the floors. -/
theorem newest_mem_harvest (hbuf : Normal buf) {r : EventRecord α} (hl : ∀ x ∈ l ++ [r], Named x.priority)
    (hr : r.priority = .info ∧ 0 < buf.minInfoAllowance ∨ r.priority = .debug ∧ 0 < buf.minDebugAllowance ∨
      r.priority = .critical ∧ buf.minInfoAllowance + buf.minDebugAllowance < buf.minEventAllowance) :
    r ∈ harvest buf (l ++ [r]) := by
  -- the newest record is the last of its priority
  have hlast : ∀ {k : Nat}, ofPriority r.priority (harvest buf (l ++ [r])) = (ofPriority r.priority (l ++ [r])).drop k →
      k < (ofPriority r.priority (l ++ [r])).length → r ∈ harvest buf (l ++ [r]) := fun {k} heq hk => by
    have hclass : ofPriority r.priority (l ++ [r]) = ofPriority r.priority l ++ [r] := by simp [ofPriority]
    have hmem : r ∈ (ofPriority r.priority (l ++ [r])).drop k := by
      rw [hclass] at hk ⊢
      rw [length_append, length_singleton] at hk
      rw [drop_append_of_le_length (by omega)]
      exact mem_append_right _ (mem_singleton_self r)
    rw [← heq] at hmem
    exact mem_of_mem_filter hmem
  have hpos : 0 < (ofPriority r.priority (l ++ [r])).length := by
    simp [ofPriority]
  obtain ⟨k, hk, hle⟩ := harvest_drop buf (l ++ [r]) (hl r (mem_append_right l (mem_singleton_self r)))
  rcases hr with ⟨hp, hfloor⟩ | ⟨hp, hfloor⟩ | ⟨hp, hfloor⟩
  · have hinfo : floorOf buf r.priority = buf.minInfoAllowance.toNat := by rw [hp]; rfl
    exact hlast hk (by omega)
  · have hdebug : floorOf buf r.priority = buf.minDebugAllowance.toNat := by rw [hp]; rfl
    exact hlast hk (by omega)
  · have hlength := length_of_named hl
    have := hbuf.info_nonneg
    have := hbuf.debug_nonneg
    rw [hp] at hlast hpos
    refine hlast (harvest_class buf (l ++ [r])).2.2 ?_
    simp only [takenCritical, takenInfo, takenDebug, taken, excess]
    split_ifs <;> omega

/-- A Critical record is dropped only if the other priorities are down to their floors. -/
theorem floors_of_critical_dropped {r : EventRecord α} (hr : r ∈ l) (hp : r.priority = .critical)
    (hdropped : r ∉ harvest buf l) :
    (ofPriority .info (harvest buf l)).length ≤ buf.minInfoAllowance.toNat ∧
      (ofPriority .debug (harvest buf l)).length ≤ buf.minDebugAllowance.toNat := by
  obtain ⟨hd, hi, hc⟩ := harvest_class buf l
  have htaken : 0 < takenCritical buf l := by
    by_contra hzero
    rw [show takenCritical buf l = 0 by omega, drop_zero] at hc
    have hmem : r ∈ ofPriority .critical l := mem_filter.mpr ⟨hr, decide_eq_true hp⟩
    rw [← hc] at hmem
    exact hdropped (mem_of_mem_filter hmem)
  rw [hd, hi, length_drop, length_drop]
  unfold takenCritical takenInfo takenDebug taken at *
  omega

end Harvest

/-! ## Runs of AppendRecord -/

/-- Successive calls of `AppendRecord`, each with the time it reads: the records as
stamped, and the log. -/
def appendAll (l : EventLog α) : List (EventRecord α × BitVec 64) → List (EventRecord α) × EventLog α
  | [] => ([], l)
  | (rec, now) :: calls =>
    let r := appendAll (l.assign rec now).2 calls
    ((l.assign rec now).1 :: r.1, r.2)

theorem next_assign {l : EventLog α} (hroom : l.next.toNat + 1 < 2 ^ 64) (rec : EventRecord α) (now : BitVec 64) :
    (l.assign rec now).2.next.toNat = l.next.toNat + 1 := by
  show (l.next + 1#64).toNat = _
  exact Nat.mod_eq_of_lt hroom

def recent (n : Nat) (l : List (EventRecord α)) : List (EventRecord α) := l.drop (l.length - n)

/-- The log after the records `h` were appended. -/
structure Retained (buf : BufferConfig) (h : List (EventRecord α)) (l : EventLog α) : Prop where
  buf_eq : l.buf = buf
  named : ∀ r ∈ h, Named r.priority
  sublist : l.occurrences.Sublist h
  suffix_ : ∀ p, Named p → ofPriority p l.occurrences <:+ ofPriority p h
  floor : ∀ p, Named p → min (floorOf buf p) (ofPriority p h).length ≤ (ofPriority p l.occurrences).length
  le_next : ∀ r ∈ h, r.number.toNat ≤ l.next.toNat
  ascending : h.Pairwise (·.number < ·.number)

theorem retained_nil {l : EventLog α} (hl : l.occurrences = []) : Retained l.buf [] l where
  buf_eq := rfl
  named _ h := absurd h not_mem_nil
  sublist := by rw [hl]
  suffix_ p _ := hl ▸ suffix_refl _
  floor p _ := by rw [hl]; exact Nat.min_le_right _ _
  le_next _ h := absurd h not_mem_nil
  ascending := List.Pairwise.nil

namespace Retained

variable {buf : BufferConfig} {h : List (EventRecord α)} {l : EventLog α} {rec : EventRecord α}

theorem ofPriority_append (p : EventPriority) (h h' : List (EventRecord α)) :
    ofPriority p (h ++ h') = ofPriority p h ++ ofPriority p h' := filter_append h h'

theorem named_append (hr : Retained buf h l) (hrec : Named rec.priority) (now : BitVec 64) :
    ∀ r ∈ l.occurrences ++ [(l.assign rec now).1], Named r.priority := fun r hmem => by
  rcases mem_append.mp hmem with hmem | hmem
  · exact hr.named r (hr.sublist.subset hmem)
  · rw [mem_singleton.mp hmem]
    exact hrec

theorem assign (hr : Retained buf h l) (hrec : Named rec.priority) (now : BitVec 64)
    (hroom : l.next.toNat + 1 < 2 ^ 64) : Retained buf (h ++ [(l.assign rec now).1]) (l.assign rec now).2 := by
  have hocc : (l.assign rec now).2.occurrences = harvest buf (l.occurrences ++ [(l.assign rec now).1]) := by
    rw [← hr.buf_eq]
    rfl
  have hnext := next_assign hroom rec now
  have hnumber : (l.assign rec now).1.number.toNat = l.next.toNat + 1 := hnext
  have hp : Named (l.assign rec now).1.priority := hrec
  generalize (l.assign rec now).1 = stamped at *
  have hsuffix : ∀ p, Named p →
      ofPriority p (l.occurrences ++ [stamped]) <:+ ofPriority p (h ++ [stamped]) := fun p hq => by
    rw [ofPriority_append, ofPriority_append]
    obtain ⟨front, hfront⟩ := hr.suffix_ p hq
    exact ⟨front, by rw [← hfront, append_assoc]⟩
  have hlength : ∀ p, (ofPriority p (l.occurrences ++ [stamped])).length =
      (ofPriority p l.occurrences).length + (ofPriority p [stamped]).length ∧
        (ofPriority p (h ++ [stamped])).length = (ofPriority p h).length + (ofPriority p [stamped]).length :=
    fun p => by rw [ofPriority_append, ofPriority_append, length_append, length_append]; exact ⟨rfl, rfl⟩
  refine ⟨hr.buf_eq, fun r hmem => ?_, ?_, fun p hq => ?_, fun p hq => ?_, fun r hmem => ?_, ?_⟩
  · rcases mem_append.mp hmem with hmem | hmem
    · exact hr.named r hmem
    · rw [mem_singleton.mp hmem]
      exact hp
  · rw [hocc]
    exact (harvest_sublist buf _).trans (hr.sublist.append_right [stamped])
  · rw [hocc]
    obtain ⟨k, hk, -⟩ := harvest_drop buf (l.occurrences ++ [stamped]) hq
    rw [hk]
    exact (drop_suffix _ _).trans (hsuffix p hq)
  · obtain ⟨k, hk, hle⟩ := harvest_drop buf (l.occurrences ++ [stamped]) hq
    have := hlength p
    have := hr.floor p hq
    rw [hocc, hk, length_drop]
    omega
  · rcases mem_append.mp hmem with hmem | hmem
    · have := hr.le_next r hmem
      omega
    · rw [mem_singleton.mp hmem]
      omega
  · refine pairwise_append.mpr ⟨hr.ascending, pairwise_singleton _ _, fun a ha b hb => ?_⟩
    rw [mem_singleton.mp hb, BitVec.lt_def]
    have := hr.le_next a ha
    omega

theorem appendAll (hr : Retained buf h l) {calls : List (EventRecord α × BitVec 64)}
    (hcalls : ∀ c ∈ calls, Named c.1.priority) (hroom : l.next.toNat + calls.length < 2 ^ 64) :
    Retained buf (h ++ (appendAll l calls).1) (GF.Proof.Im.appendAll l calls).2 ∧
      (GF.Proof.Im.appendAll l calls).2.next.toNat = l.next.toNat + calls.length := by
  induction calls generalizing h l with
  | nil => exact ⟨by simpa [GF.Proof.Im.appendAll] using hr, rfl⟩
  | cons c calls ih =>
    obtain ⟨rec, now⟩ := c
    rw [length_cons] at hroom
    have hrec : Named rec.priority := hcalls (rec, now) mem_cons_self
    have hstep := hr.assign hrec now (by omega)
    have hnext := next_assign (show l.next.toNat + 1 < 2 ^ 64 by omega) rec now
    obtain ⟨hrun, hnext'⟩ := ih hstep (fun c hc => hcalls c (mem_cons_of_mem _ hc)) (by omega)
    rw [append_assoc] at hrun
    refine ⟨hrun, ?_⟩
    simp only [GF.Proof.Im.appendAll, length_cons]
    omega

/-- The most recent records of a priority are buffered, up to its floor. -/
theorem recent_mem (h' : Retained buf h l) (hp : Named p) :
    ∀ r ∈ recent (floorOf buf p) (ofPriority p h), r ∈ l.occurrences := fun r hr => by
  have hfloor := h'.floor p hp
  have hsuffix : recent (floorOf buf p) (ofPriority p h) <:+ ofPriority p l.occurrences := by
    refine suffix_of_suffix_length_le (drop_suffix _ _) (h'.suffix_ p hp) ?_
    rw [recent, length_drop]
    omega
  exact mem_of_mem_filter (hsuffix.subset hr)

/-- Where no more than the floor of a priority is buffered, that is the most recent records. -/
theorem mem_recent (h' : Retained buf h l) (hp : Named p) {floor : Nat} (hfloor : (ofPriority p l.occurrences).length ≤ floor) :
    ∀ r ∈ l.occurrences, r.priority = p → r ∈ recent floor (ofPriority p h) := fun r hr hpr => by
  have hs := h'.suffix_ p hp
  have hle := hs.length_le
  have hsuffix : ofPriority p l.occurrences <:+ recent floor (ofPriority p h) := by
    refine suffix_of_suffix_length_le hs (drop_suffix _ _) ?_
    rw [recent, length_drop]
    omega
  exact hsuffix.subset (mem_filter.mpr ⟨hr, decide_eq_true hpr⟩)

end Retained

/-- After every call of `AppendRecord` in every run of calls with the named priorities,
before the numbers run out: the buffer has at most the maximum, in ascending order; the
newest record is in it if its priority has a floor, or if it is Critical and the floors
are below the minimum; the most recent Info and Debug records up to the floors are in it;
a Critical record is dropped only if all Info and Debug records left are such; and each
priority loses its oldest records. -/
theorem event_buffer_retention (cfg : BufferConfig)
    (hfloors : cfg.normalized.minInfoAllowance + cfg.normalized.minDebugAllowance ≤ cfg.normalized.maxEventAllowance)
    (l : EventLog α) (hempty : l.occurrences = []) (hbuf : l.buf = cfg.normalized)
    (calls : List (EventRecord α × BitVec 64)) (rec : EventRecord α) (now : BitVec 64)
    (hcalls : ∀ c ∈ calls, Named c.1.priority) (hrec : Named rec.priority)
    (hroom : l.next.toNat + calls.length + 1 < 2 ^ 64) :
    let before := (appendAll l calls).2
    let newest := (before.assign rec now).1
    let appended := (appendAll l calls).1 ++ [newest]
    let kept := (before.assign rec now).2.occurrences
    let info := recent cfg.normalized.minInfoAllowance.toNat (ofPriority .info appended)
    let debug := recent cfg.normalized.minDebugAllowance.toNat (ofPriority .debug appended)
    (kept.length : Int) ≤ cfg.normalized.maxEventAllowance ∧
      kept.Pairwise (·.number < ·.number) ∧
      ((rec.priority = .info ∧ 0 < cfg.normalized.minInfoAllowance ∨
          rec.priority = .debug ∧ 0 < cfg.normalized.minDebugAllowance ∨
          rec.priority = .critical ∧
            cfg.normalized.minInfoAllowance + cfg.normalized.minDebugAllowance < cfg.normalized.minEventAllowance) →
        newest ∈ kept) ∧
      (∀ r ∈ info, r ∈ kept) ∧ (∀ r ∈ debug, r ∈ kept) ∧
      (∀ r ∈ before.occurrences ++ [newest], r.priority = .critical → r ∉ kept →
        ∀ r' ∈ kept, (r'.priority = .info → r' ∈ info) ∧ (r'.priority = .debug → r' ∈ debug)) ∧
      ∀ p, Named p → ofPriority p kept <:+ ofPriority p appended := by
  have hnormal := normal_normalized cfg
  have hstart := retained_nil hempty
  rw [hbuf] at hstart
  obtain ⟨hbefore, hnext⟩ := hstart.appendAll hcalls (by omega)
  have hafter := hbefore.assign hrec now (by omega)
  have hnamed := hbefore.named_append hrec now
  intro before newest appended kept info debug
  have hkept : kept = harvest cfg.normalized (before.occurrences ++ [newest]) := by
    rw [← hbefore.buf_eq]
    rfl
  refine ⟨?_, hafter.ascending.sublist hafter.sublist, fun h => ?_, ?_, ?_, fun r hr hp hdropped r' hr' => ?_,
    hafter.suffix_⟩
  · rw [hkept]
    exact length_harvest_le hnormal hnamed hfloors
  · rw [hkept]
    exact newest_mem_harvest hnormal hnamed h
  · exact hafter.recent_mem (.inr (.inl rfl))
  · exact hafter.recent_mem (.inl rfl)
  obtain ⟨hi, hd⟩ := floors_of_critical_dropped hr hp (hkept ▸ hdropped)
  rw [← hkept] at hi hd
  exact ⟨hafter.mem_recent (.inr (.inl rfl)) hi r' hr', hafter.mem_recent (.inl rfl) hd r' hr'⟩

def plain (p : EventPriority) : EventRecord Unit :=
  { number := 0, priority := p, endpoint := 0, cluster := 0x28, eventID := 0, epochMS := 7, payload := () }

/-- An empty log with the configuration, from a number on. -/
def logFrom (next : BitVec 64) (cfg : BufferConfig) : EventLog Unit :=
  { newEventLog (α := Unit) with next := next, buf := cfg.normalized }

/-- With floors of one, a Debug record behind two Info records is kept. -/
theorem event_buffer_retention_three :
    let cfg : BufferConfig := ⟨1, 2, 1, 1⟩
    let before := (appendAll (logFrom 0 cfg) [(plain .info, 5), (plain .info, 5)]).2
    (before.assign (plain .debug) 5).1 ∈ (before.assign (plain .debug) 5).2.occurrences :=
  (event_buffer_retention ⟨1, 2, 1, 1⟩ (by decide) (logFrom 0 ⟨1, 2, 1, 1⟩) rfl rfl [(plain .info, 5), (plain .info, 5)]
    (plain .debug) 5 (by
      intro c hc
      simp only [mem_cons, not_mem_nil, or_false, or_self] at hc
      rw [hc]
      exact .inr (.inl rfl)) (.inl rfl) (by decide)).2.2.1 (.inr (.inl ⟨rfl, by decide⟩))

/-- The newest record is dropped: a Debug record without a floor behind Critical ones, and
a Critical one where the floors take the whole minimum. Records of a fourth priority are
never dropped, and numbers go round at the end of 64 bits. -/
theorem event_buffer_drops_newest :
    ((appendAll (logFrom 0 ⟨1, 2, 0, 0⟩) [(plain .critical, 5), (plain .critical, 5), (plain .debug, 5)]).2.occurrences.map
        (·.number)) = [2] ∧
      ((appendAll (logFrom 0 ⟨1, 2, 2, 0⟩) [(plain .info, 5), (plain .info, 5), (plain .critical, 5)]).2.occurrences.map
        (·.number)) = [1, 2] ∧
      (appendAll (logFrom 0 ⟨1, 2, 0, 0⟩) [(plain 3, 5), (plain 3, 5), (plain 3, 5)]).2.occurrences.length = 3 ∧
      ((appendAll (logFrom 0xFFFFFFFFFFFFFFFE ⟨1, 2, 0, 0⟩) [(plain .info, 5), (plain .info, 5)]).2.occurrences.map
        (·.number)) = [0xFFFFFFFFFFFFFFFF, 0] := by
  decide +kernel

end GF.Proof.Im
