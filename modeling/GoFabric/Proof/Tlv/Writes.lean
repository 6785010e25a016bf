import GoFabric.Proof.Tlv.Elements

/-!
# The elements that a run of encoder calls writes

`Writes put els` says that `put` appends bytes that spell the elements `els`,
wherever a field may stand. It composes as `Appends` does: calls in sequence
write elements in sequence, and a container is its opening, its members and its
end (`writes_container`). `Conveys l put s s'` says that the loop `l` of a decoder
goes from `s` to `s'` over what `put` writes, so that a message and the fields of
its decoder are followed together.
-/

namespace GF.Proof.Tlv

open GF.Impl.Tlv GF.Impl.Im.Wire GF.Spec.Tlv

/-- `put` writes `els` where a field may stand. -/
def Writes (put : Encoder → Option Encoder) (els : List Element) : Prop := ∃ bs, Appends put bs ∧ Spells bs els

def WritesAny (put : Encoder → Option Encoder) (els : List Element) : Prop := ∃ bs, AppendsAny put bs ∧ Spells bs els

/-- `k` writes `els` where a field may stand, and closes the container. -/
def Ends (k : Encoder → Option Encoder) (els : List Element) : Prop := ∃ bs, Finishes k bs ∧ Spells bs els

/-- `k` writes `els` and closes the container. -/
def EndsAny (k : Encoder → Option Encoder) (els : List Element) : Prop := ∃ bs, FinishesAny k bs ∧ Spells bs els

section Sequence

variable {f k : Encoder → Option Encoder} {els els' : List Element}

theorem writes_bind (hf : Writes f els) (hk : Writes k els') : Writes (fun e => f e >>= k) (els ++ els') := by
  obtain ⟨bs, happ, hs⟩ := hf
  obtain ⟨bs', happ', hs'⟩ := hk
  exact ⟨_, appends_bind happ happ', Spells.append hs hs'⟩

theorem ends_bind (hf : Writes f els) (hk : Ends k els') : Ends (fun e => f e >>= k) (els ++ els') := by
  obtain ⟨bs, happ, hs⟩ := hf
  obtain ⟨bs', hfin, hs'⟩ := hk
  exact ⟨_, finishes_bind happ hfin, Spells.append hs hs'⟩

theorem ends_last (hf : Writes f els) : Ends (fun e => f e >>= fun e => pure e.endContainer.2) els := by
  obtain ⟨bs, happ, hs⟩ := hf
  exact ⟨bs, finishes_last happ, hs⟩

theorem endsAny_last (hf : WritesAny f els) : EndsAny (fun e => f e >>= fun e => pure e.endContainer.2) els := by
  obtain ⟨bs, happ, hs⟩ := hf
  exact ⟨bs, finishesAny_last happ, hs⟩

theorem writesAny_putAll {α : Type} {put : Encoder → α → Option Encoder} {toElements : α → List Element}
    {items : List α} (h : ∀ a ∈ items, WritesAny (put · a) (toElements a)) :
    WritesAny (putAll put · items) (items.flatMap toElements) := by
  induction items with
  | nil => exact ⟨[], fun e => congrArg some (append_nil e).symm, .nil⟩
  | cons a items ih =>
    obtain ⟨ha, hrest⟩ := List.forall_mem_cons.mp h
    obtain ⟨bs, happ, hs⟩ := ha
    obtain ⟨bs', happ', hs'⟩ := ih hrest
    refine ⟨bs ++ bs', fun e => ?_, Spells.append hs hs'⟩
    have hput : put e a = some (e.append bs) := happ e
    show (put e a).bind (fun e => items.foldlM put e) = _
    rw [hput, ← append_append]
    exact happ' (e.append bs)

end Sequence

/-! ## Elements -/

section Elements

variable (n : BitVec 8)

theorem writes_bool (v : Bool) : Writes (·.putBool (contextTag n) v) [boolElement (contextTag n) v] :=
  ⟨_, appends_putBool (contextTag n) v, spells_bool (readable_context n) v⟩

theorem writes_null : Writes (·.putNull (contextTag n)) [nullElement (contextTag n)] :=
  ⟨_, appends_putNull (contextTag n), spells_null (readable_context n)⟩

def fieldElement {w : Nat} (v : BitVec w) : Element := uintElement (contextTag n) (v.setWidth 64)

theorem writes_field {w : Nat} (v : BitVec w) : Writes (putField · n v) [fieldElement n v] :=
  ⟨_, appends_putField n v, spells_uint (readable_context n) (v.setWidth 64)⟩

def numberElement (t : ElementType) {w : Nat} (v : BitVec w) : Element :=
  { tag := contextTag n, type := t, uint := v.setWidth 64 }

theorem writes_uint16 (v : BitVec 16) :
    Writes (·.putUint16 (contextTag n) v) [numberElement n .unsignedInt2 v] := by
  refine ⟨_, appends_putNumber .unsignedInt2 (contextTag n) v, ?_⟩
  have hv : (v.setWidth 64).toNat = v.toNat := BitVec.toNat_setWidth_of_le (by decide)
  rw [← hv]
  exact spells_number (readable_context n) (by decide) rfl v.isLt

theorem writes_uint32 (v : BitVec 32) :
    Writes (·.putUint32 (contextTag n) v) [numberElement n .unsignedInt4 v] := by
  refine ⟨_, appends_putNumber .unsignedInt4 (contextTag n) v, ?_⟩
  have hv : (v.setWidth 64).toNat = v.toNat := BitVec.toNat_setWidth_of_le (by decide)
  rw [← hv]
  exact spells_number (readable_context n) (by decide) rfl v.isLt

theorem writes_octets {b : List Byte} (hb : b.length < 2 ^ 64) :
    Writes (·.putOctets (contextTag n) b) [octetsElement (contextTag n) b] :=
  ⟨_, appends_putOctets (contextTag n) hb, spells_octets (readable_context n) hb⟩

end Elements

/-! ## Containers -/

def containerElements (t : ElementType) (tag : Tag) (members : List Element) : List Element :=
  openElement t tag :: (members ++ [endElement])

section Containers

variable {t : ElementType} {tag : Tag} {k : Encoder → Option Encoder} {els : List Element}

theorem writes_container (ht : t = .struct ∨ t = .list) (htag : Readable tag) (hk : Ends k els) :
    Writes (fun e => e.startContainer t tag >>= k) (containerElements t tag els) := by
  obtain ⟨bs, hfin, hs⟩ := hk
  refine ⟨_, appends_container tag (by rcases ht with rfl | rfl <;> decide) hfin, spells_container ?_ htag hs⟩
  rcases ht with rfl | rfl <;> decide

/-- A structure or a list without a context tag may stand in an array. -/
theorem writesAny_container (ht : t = .struct ∨ t = .list) (hk : Ends k els) :
    WritesAny (fun e => e.startContainer t anonymousTag >>= k) (containerElements t anonymousTag els) := by
  obtain ⟨bs, hfin, hs⟩ := hk
  refine ⟨_, appendsAny_container anonymousTag (by rcases ht with rfl | rfl <;> decide) (by decide) hfin,
    spells_container ?_ readable_anonymous hs⟩
  rcases ht with rfl | rfl <;> decide

theorem writes_array (n : BitVec 8) (hk : EndsAny k els) :
    Writes (fun e => e.startContainer .array (contextTag n) >>= k) (containerElements .array (contextTag n) els) := by
  obtain ⟨bs, hfin, hs⟩ := hk
  exact ⟨_, appends_array (contextTag n) hfin, spells_container (by decide) (readable_context n) hs⟩

end Containers

/-- What is written to a new encoder is what its bytes spell. -/
theorem Writes.elements {put : Encoder → Option Encoder} {els : List Element} (h : Writes put els) :
    ∃ enc bs, put Encoder.new = some enc ∧ enc.bytes = .ok bs ∧ (elements bs).1 = els := by
  obtain ⟨bs, happ, hs⟩ := h
  refine ⟨Encoder.new.append bs, bs, happ Encoder.new (by decide), ?_, elements_of_spells hs⟩
  show Except.ok (Encoder.new.append bs).buf = _
  rfl

/-! ## Loops that read what is written -/

section Conveys

variable {ε σ α β : Type} {l : Loop Element ε σ α} {f k : Encoder → Option Encoder} {s s' s'' : σ} {t : ElementType}

/-- The loop goes from `s` to `s'` over what `put` writes. -/
def Conveys (l : Loop Element ε σ α) (put : Encoder → Option Encoder) (s s' : σ) : Prop :=
  ∃ els, Writes put els ∧ l.Runs s els (.ok s')

/-- The same, where `k` also closes the container. -/
def ConveysAll (l : Loop Element ε σ α) (k : Encoder → Option Encoder) (s s' : σ) : Prop :=
  ∃ els, Ends k els ∧ l.Runs s els (.ok s')

/-- `put` writes a container, and the parser reads `a` behind its opening. -/
def Packs (p : Parser Element ε α) (t : ElementType) (tag : Tag) (put : Encoder → Option Encoder) (a : α) : Prop :=
  ∃ els, Writes put (containerElements t tag els) ∧ Answers p (els ++ [endElement]) (.ok a)

/-- The same wherever the container stands. -/
def PacksAny (p : Parser Element ε α) (t : ElementType) (put : Encoder → Option Encoder) (a : α) : Prop :=
  ∃ els, WritesAny put (containerElements t anonymousTag els) ∧ Answers p (els ++ [endElement]) (.ok a)

theorem Conveys.bind (h : Conveys l f s s') (h' : Conveys l k s' s'') : Conveys l (fun e => f e >>= k) s s'' := by
  obtain ⟨els, hw, hr⟩ := h
  obtain ⟨els', hw', hr'⟩ := h'
  exact ⟨_, writes_bind hw hw', hr.append hr'⟩

theorem Conveys.andThen (h : Conveys l f s s') (h' : ConveysAll l k s' s'') :
    ConveysAll l (fun e => f e >>= k) s s'' := by
  obtain ⟨els, hw, hr⟩ := h
  obtain ⟨els', he, hr'⟩ := h'
  exact ⟨_, ends_bind hw he, hr.append hr'⟩

theorem Conveys.last (h : Conveys l f s s') : ConveysAll l (fun e => f e >>= fun e => pure e.endContainer.2) s s' := by
  obtain ⟨els, hw, hr⟩ := h
  exact ⟨els, ends_last hw, hr⟩

theorem conveys_nothing : Conveys l some s s :=
  ⟨[], ⟨[], fun e _ => congrArg some (append_nil e).symm, .nil⟩, Loop.runs_nil⟩

theorem conveys_putIf {c : Bool} (h : c = true → Conveys l f s s') (hnot : c = false → s = s') :
    Conveys l (putIf c f) s s' := by
  cases c with
  | true => exact h rfl
  | false =>
    obtain rfl := hnot rfl
    exact conveys_nothing

/-- A member of the loop that is one element, with what stands in it. -/
theorem conveys_member {el : Element} {used : List Element} (hw : Writes f (el :: used)) (hc : l.closes el = false)
    (h : Answers (l.member el s) used (.ok s')) : Conveys l f s s' := ⟨_, hw, Loop.runs_member hc h⟩

/-- A member of the loop that is a container. -/
theorem Packs.conveys {p : Parser Element ε β} {tag : Tag} {b : β} (h : Packs p t tag f b) {g : β → σ}
    (hc : l.closes (openElement t tag) = false)
    (hm : l.member (openElement t tag) s = p >>= fun b => pure (g b)) : Conveys l f s (g b) := by
  obtain ⟨els, hw, ha⟩ := h
  refine conveys_member hw hc ?_
  rw [hm]
  exact ha.bind_pure

section Containers

variable {a : α} (h : ConveysAll l k s s') (ht : t = .struct ∨ t = .list) (hc : l.closes endElement = true)
  (hf : l.finish s' = .ok a)
include h ht hc hf

theorem ConveysAll.packs {tag : Tag} (htag : Readable tag) :
    Packs (l.parser s) t tag (fun e => e.startContainer t tag >>= k) a := by
  obtain ⟨els, he, hr⟩ := h
  exact ⟨els, writes_container ht htag he, hr.answers hc hf⟩

theorem ConveysAll.packsAny : PacksAny (l.parser s) t (fun e => e.startContainer t anonymousTag >>= k) a := by
  obtain ⟨els, he, hr⟩ := h
  exact ⟨els, writesAny_container ht he, hr.answers hc hf⟩

end Containers

end Conveys

end GF.Proof.Tlv
