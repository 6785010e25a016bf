import GoFabric.Impl.Im.Marshal
import GoFabric.Proof.Tlv.RoundTrip

/-!
# What a run of encoder calls appends

`Appends put bs` says that `put` appends exactly the bytes `bs` wherever a
field may stand, which is everywhere but directly inside an array;
`AppendsAny put bs` says so of every place. Both compose along `++`
(`appends_bind`), and `Finishes k bs` is the same for a run that also closes
the container it stands in, so a container is its head, its members and its
end (`appends_container`).
-/

namespace GF.Proof.Tlv

open GF.Impl.Tlv GF.Impl.Im.Wire

/-- `put` appends `bs` where a field may stand. -/
def Appends (put : Encoder → Option Encoder) (bs : List Byte) : Prop :=
  ∀ e, e.containerStack.head? ≠ some .array → put e = some (e.append bs)

def AppendsAny (put : Encoder → Option Encoder) (bs : List Byte) : Prop := ∀ e, put e = some (e.append bs)

/-- `e` after the end of the container it stands in. -/
def closed (e : Encoder) : Encoder := e.endContainer.2

/-- `k` appends `bs` where a field may stand, and closes the container. -/
def Finishes (k : Encoder → Option Encoder) (bs : List Byte) : Prop :=
  ∀ e, e.containerStack.head? ≠ some .array → k e = some (closed (e.append bs))

/-- `k` appends `bs` and closes the container. -/
def FinishesAny (k : Encoder → Option Encoder) (bs : List Byte) : Prop := ∀ e, k e = some (closed (e.append bs))

@[simp] theorem append_nil (e : Encoder) : e.append [] = e := by
  simp [Encoder.append]

@[simp] theorem containerStack_append (e : Encoder) (bs : List Byte) :
    (e.append bs).containerStack = e.containerStack := rfl

@[simp] theorem openCont_append (e : Encoder) (bs : List Byte) : (e.append bs).openCont = e.openCont := rfl

section Sequence

variable {f k : Encoder → Option Encoder} {bs bs' : List Byte}

theorem appends_bind (hf : Appends f bs) (hk : Appends k bs') : Appends (fun e => f e >>= k) (bs ++ bs') := by
  intro e he
  show (f e).bind k = _
  rw [hf e he, ← append_append]
  exact hk (e.append bs) he

theorem finishes_bind (hf : Appends f bs) (hk : Finishes k bs') : Finishes (fun e => f e >>= k) (bs ++ bs') := by
  intro e he
  show (f e).bind k = _
  rw [hf e he, ← append_append]
  exact hk (e.append bs) he

theorem finishes_last (hf : Appends f bs) : Finishes (fun e => f e >>= fun e => pure e.endContainer.2) bs := by
  intro e he
  show (f e).bind _ = _
  rw [hf e he]
  rfl

theorem finishesAny_last (hf : AppendsAny f bs) : FinishesAny (fun e => f e >>= fun e => pure e.endContainer.2) bs := by
  intro e
  show (f e).bind _ = _
  rw [hf e]
  rfl

theorem appends_putIf {c : Bool} (h : c = true → Appends f bs) :
    Appends (putIf c f) (if c then bs else []) := by
  intro e he
  cases c with
  | true => exact h rfl e he
  | false => exact congrArg some (append_nil e).symm

theorem appendsAny_putAll {α : Type} {put : Encoder → α → Option Encoder} {wire : α → List Byte} {items : List α}
    (h : ∀ a ∈ items, AppendsAny (put · a) (wire a)) : AppendsAny (putAll put · items) (items.flatMap wire) := by
  induction items with
  | nil => exact fun e => congrArg some (append_nil e).symm
  | cons a items ih =>
    obtain ⟨ha, hrest⟩ := List.forall_mem_cons.mp h
    intro e
    have hput : put e a = some (e.append (wire a)) := ha e
    show (put e a).bind (fun e => items.foldlM put e) = _
    rw [hput, List.flatMap_cons, ← append_append]
    exact ih hrest (e.append (wire a))

end Sequence

/-! ## Elements -/

def endWire : List Byte := [ElementType.endContainer.code]

def boolType (v : Bool) : ElementType := if v then .boolTrue else .boolFalse

theorem appends_putBool (tag : Tag) (v : Bool) : Appends (·.putBool tag v) (headWire (boolType v) tag) :=
  fun _ he => writeControlAndTag_eq _ (.inl he)

theorem appends_putNull (tag : Tag) : Appends (·.putNull tag) (headWire .null tag) :=
  fun _ he => writeControlAndTag_eq _ (.inl he)

theorem appends_putNumber {w : Nat} (t : ElementType) (tag : Tag) (v : BitVec w) :
    Appends (·.putNumber t tag v) (headWire t tag ++ leBytes (w / 8) v.toNat) := fun _ he => putNumber_eq t v (.inl he)

def uintWire (tag : Tag) (v : BitVec 64) : List Byte :=
  if v ≤ 0xFF then headWire .unsignedInt1 tag ++ leBytes 1 (v.setWidth 8).toNat
  else if v ≤ 0xFFFF then headWire .unsignedInt2 tag ++ leBytes 2 (v.setWidth 16).toNat
  else if v ≤ 0xFFFFFFFF then headWire .unsignedInt4 tag ++ leBytes 4 (v.setWidth 32).toNat
  else headWire .unsignedInt8 tag ++ leBytes 8 v.toNat

theorem appends_putUint (tag : Tag) (v : BitVec 64) : Appends (·.putUint tag v) (uintWire tag v) := by
  intro e he
  unfold Encoder.putUint uintWire
  split_ifs
  · exact appends_putNumber .unsignedInt1 tag (v.setWidth 8) e he
  · exact appends_putNumber .unsignedInt2 tag (v.setWidth 16) e he
  · exact appends_putNumber .unsignedInt4 tag (v.setWidth 32) e he
  · exact appends_putNumber .unsignedInt8 tag v e he

theorem appends_putField {w : Nat} (tag : BitVec 8) (v : BitVec w) :
    Appends (putField · tag v) (uintWire (contextTag tag) (v.setWidth 64)) :=
  appends_putUint (contextTag tag) (v.setWidth 64)

def octetsWire (tag : Tag) (b : List Byte) : List Byte :=
  headWire (octetType (lengthWidth b.length)) tag ++ (leBytes (lengthWidth b.length) b.length ++ b)

theorem appends_putOctets (tag : Tag) {b : List Byte} (hb : b.length < 2 ^ 64) :
    Appends (·.putOctets tag b) (octetsWire tag b) := fun _ he => writeStringLike_eq (.inl he) hb

/-! ## Containers -/

def containerWire (t : ElementType) (tag : Tag) (members : List Byte) : List Byte :=
  headWire t tag ++ members ++ endWire

theorem closed_append (e : Encoder) (t : ElementType) (bs : List Byte) :
    closed ({ e with openCont := e.openCont + 1, containerStack := t :: e.containerStack }.append bs) =
      e.append (bs ++ endWire) := by
  unfold closed Encoder.endContainer
  simp [Encoder.append, endWire]

theorem startContainer_eq {e : Encoder} (t : ElementType) {tag : Tag}
    (h : e.containerStack.head? ≠ some .array ∨ tag.kind ≠ .context) :
    e.startContainer t tag = some { e.append (headWire t tag) with
      openCont := e.openCont + 1, containerStack := t :: e.containerStack } := by
  show (e.writeControlAndTag t tag).bind _ = _
  rw [writeControlAndTag_eq t h]
  rfl

section Containers

variable {t : ElementType} {tag : Tag} {k : Encoder → Option Encoder} {bs : List Byte} {e : Encoder}

theorem container_eq (h : e.containerStack.head? ≠ some .array ∨ tag.kind ≠ .context)
    (hk : k { e.append (headWire t tag) with openCont := e.openCont + 1, containerStack := t :: e.containerStack } =
      some (closed ({ e.append (headWire t tag) with
        openCont := e.openCont + 1, containerStack := t :: e.containerStack }.append bs))) :
    (e.startContainer t tag >>= k) = some (e.append (containerWire t tag bs)) := by
  show (e.startContainer t tag).bind k = _
  rw [startContainer_eq t h]
  refine hk.trans (congrArg some ?_)
  have hc := closed_append (e.append (headWire t tag)) t bs
  rw [append_append] at hc
  exact hc.trans (by rw [containerWire, List.append_assoc])

/-- A structure or a list: its head, its fields and its end. -/
theorem appends_container (tag : Tag) (ht : t ≠ .array) (hk : Finishes k bs) :
    Appends (fun e => e.startContainer t tag >>= k) (containerWire t tag bs) := fun _ he =>
  container_eq (.inl he) (hk _ (by simpa using ht))

/-- A structure or a list without a context tag may stand in an array. -/
theorem appendsAny_container (tag : Tag) (ht : t ≠ .array) (htag : tag.kind ≠ .context) (hk : Finishes k bs) :
    AppendsAny (fun e => e.startContainer t tag >>= k) (containerWire t tag bs) := fun _ =>
  container_eq (.inr htag) (hk _ (by simpa using ht))

theorem appends_array (tag : Tag) (hk : FinishesAny k bs) :
    Appends (fun e => e.startContainer .array tag >>= k) (containerWire .array tag bs) := fun _ he =>
  container_eq (.inl he) (hk _)

end Containers

/-- The bytes of an array at a context tag, nothing for an empty list. -/
def listWire {α : Type} (tag : BitVec 8) (wire : α → List Byte) (items : List α) : List Byte :=
  if items.isEmpty then [] else containerWire .array (contextTag tag) (items.flatMap wire)

theorem appends_marshalList {α : Type} {put : Encoder → α → Option Encoder} {wire : α → List Byte} (tag : BitVec 8)
    {items : List α} (h : ∀ a ∈ items, AppendsAny (put · a) (wire a)) :
    Appends (marshalList put · tag items) (listWire tag wire items) := by
  intro e he
  unfold marshalList listWire
  split
  · exact congrArg some (append_nil e).symm
  · exact appends_array (contextTag tag) (finishesAny_last (appendsAny_putAll h)) e he

end GF.Proof.Tlv
