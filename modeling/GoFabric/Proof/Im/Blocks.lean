import GoFabric.Proof.Tlv.Elements
import GoFabric.Spec.UnknownFields

/-!
# The members of the request decoders

A block of a request is decoded by a loop (`Block.loop`). Each member is a
container that is a block itself and is entered (`enters`), or it is handled on
its own (`Handles`): a scalar takes no further element, a container that the
block drains takes its contents, and any other is left to the loop. A field
that the block does not know changes nothing (`PassesOver`).
-/

namespace GF.Proof.Im

open GF.Impl.Tlv GF.Impl.Im.Wire GF.Spec.UnknownFields
open GF.Proof.Tlv (Genuine)
open GF.Impl.Im (StatusCode ConcreteAttributePath DataVersionFilter)

variable {E V F σ α : Type} {f : DecodeError E → DecodeError E} {c : Element}

/-! ## One member -/

def IsEnd (c : Element) : Prop := c.isContainer = false ∧ c.isEndContainer = true

/-- What a member that is no block does with its element: with a scalar it is
done, a container that is drained it takes whole, and any other container it
leaves to the loop. -/
structure Handles (p : Decode E σ) (el : Element) (drained : Bool) : Prop where
  scalar : el.isContainer = false → Decides p []
  whole : el.isContainer = true → drained = true → ∀ inner c, containers.Closes 0 inner → IsEnd c →
    Decides p (inner ++ [c])
  left : el.isContainer = true → drained = false → ∃ r, p = Parser.ofExcept r

/-- A member that changes nothing. -/
structure PassesOver (p : Decode E σ) (el : Element) (s : σ) (drained : Bool) : Prop where
  scalar : el.isContainer = false → Answers p [] (.ok s)
  whole : el.isContainer = true → drained = true → ∀ inner c, containers.Closes 0 inner → IsEnd c →
    Answers p (inner ++ [c]) (.ok s)
  left : el.isContainer = true → drained = false → p = pure s

section Handles

variable {p : Decode E σ} {el : Element} {d : Bool} {s : σ}

theorem handles_fail {e : DecodeError E} : Handles (Parser.fail e : Decode E σ) el d :=
  ⟨fun _ => ⟨_, answers_fail e []⟩, fun _ _ _ _ _ _ => ⟨_, answers_fail e _⟩, fun _ _ => ⟨.error e, rfl⟩⟩

theorem handles_ofExcept (r : Except (DecodeError E) σ) (h : el.isContainer = true → d = true → ∃ e, r = .error e) :
    Handles (Parser.ofExcept r) el d := by
  refine ⟨fun _ => ⟨r, answers_ofExcept r⟩, fun hc hd _ _ _ _ => ?_, fun _ _ => ⟨r, rfl⟩⟩
  obtain ⟨e, rfl⟩ := h hc hd
  exact ⟨_, answers_fail e _⟩

theorem handles_pure (s : σ) (h : d = false) : Handles (pure s : Decode E σ) el d :=
  handles_ofExcept (.ok s) fun _ hd => absurd (h.symm.trans hd) (by decide)

theorem isUnsigned_of_container (hg : Genuine el) (hc : el.isContainer = true) : isUnsigned el = false := by
  rcases (hg hc).2 with h | h | h <;> simp [isUnsigned, h]

theorem handles_uint {w : Nat} (hg : Genuine el) (f : BitVec w → σ) :
    Handles (setField (uintField w el) f : Decode E σ) el d := by
  refine handles_ofExcept _ fun hc _ => ?_
  exact ⟨_, by rw [uintField, if_neg (by simp [isUnsigned_of_container hg hc])]; rfl⟩

theorem isBool_of_container (hg : Genuine el) (hc : el.isContainer = true) : isBool el = false := by
  rcases (hg hc).2 with h | h | h <;> simp [isBool, h]

theorem handles_bool (hg : Genuine el) (f : Bool → σ) : Handles (setField (boolField el) f : Decode E σ) el d := by
  refine handles_ofExcept _ fun hc _ => ?_
  exact ⟨_, by rw [boolField, if_neg (by simp [isBool_of_container hg hc])]; rfl⟩

theorem handles_mapError {E' : Type} {p : Parser Element E' σ} {f : E' → DecodeError E}
    (hs : el.isContainer = false → Decides p [])
    (hw : el.isContainer = true → d = true → ∀ inner c, containers.Closes 0 inner → IsEnd c → Decides p (inner ++ [c]))
    (hl : el.isContainer = true → d = false → ∃ r, p = Parser.ofExcept r) : Handles (p.mapError f) el d := by
  refine ⟨fun hc => (hs hc).mapError, fun hc hd inner c hi hend => (hw hc hd inner c hi hend).mapError,
    fun hc hd => ?_⟩
  obtain ⟨r, rfl⟩ := hl hc hd
  exact ⟨r.mapError f, Parser.ext (funext fun ts => by cases r <;> rfl)⟩

theorem Handles.wrapped (h : Handles p el d) :
    Handles (p.mapError f) el d := handles_mapError h.scalar h.whole h.left

theorem answers_skipField {inner : List Element} (hc : el.isContainer = true) (hi : containers.Closes 0 inner)
    (hend : IsEnd c) (s : σ) : Answers (skipField el s : Decode E σ) (inner ++ [c]) (.ok s) := by
  unfold skipField
  rw [if_pos hc]
  have h : Answers (skipContainer : Decode E Unit) (inner ++ [c]) (.ok ()) := Brackets.answers_skip hi hend.1 hend.2
  exact h.bind_pure

theorem passesOver_skipField (s : σ) (h : el.isContainer = true → d = true) :
    PassesOver (skipField el s : Decode E σ) el s d := by
  refine ⟨fun hc => ?_, fun hc _ inner c hi hend => answers_skipField hc hi hend s, fun hc hd =>
    absurd ((h hc).symm.trans hd) (by decide)⟩
  unfold skipField
  rw [if_neg (by simp [hc])]
  exact answers_pure

theorem passesOver_pure (s : σ) (h : el.isContainer = true → d = false) : PassesOver (pure s : Decode E σ) el s d :=
  ⟨fun _ => answers_pure, fun hc hd => absurd ((h hc).symm.trans hd) (by decide), fun _ _ => rfl⟩

theorem PassesOver.wrapped (h : PassesOver p el s d) : PassesOver (p.mapError f) el s d := by
  refine ⟨fun hc => (h.scalar hc).mapError, fun hc hd inner c hi hend => (h.whole hc hd inner c hi hend).mapError,
    fun hc hd => ?_⟩
  rw [h.left hc hd]
  exact Parser.ext (funext fun ts => rfl)

theorem PassesOver.handles (h : PassesOver p el s d) : Handles p el d :=
  ⟨fun hc => ⟨_, h.scalar hc⟩, fun hc hd inner c hi hend => ⟨_, h.whole hc hd inner c hi hend⟩,
    fun hc hd => ⟨.ok s, h.left hc hd⟩⟩

theorem handles_skipField (s : σ) (h : el.isContainer = true → d = true) :
    Handles (skipField el s : Decode E σ) el d :=
  (passesOver_skipField s h).handles

end Handles

/-! ## The loops of the blocks -/

/-- What the loop of a block keeps: the result so far, and in some blocks the fields
seen. -/
abbrev State (V F : Type) : Block → Type
  | .readRequest => Seen ReadRequest
  | .subscribeRequest => Seen SubscribeRequest
  | .timedRequest => Seen TimedRequest
  | .eventFilter => Seen EventMinimumNumber
  | .dataVersionFilter => Seen DataVersionFilter
  | .clusterPath => Seen (BitVec 16 × BitVec 32)
  | b => b.Result V F

section Loops

variable (valueReader : Option (AttributeValueReader E V)) (fieldsReader : Option (CommandFieldsReader E F))

def loop : (b : Block) → Loop Element (DecodeError E) (State V F b) (b.Result V F)
  | .readRequest => readRequestLoop
  | .subscribeRequest => subscribeRequestLoop
  | .writeRequest => writeRequestLoop valueReader
  | .invokeRequest => invokeRequestLoop fieldsReader
  | .timedRequest => timedRequestLoop
  | .attributePaths => pathArrayLoop
  | .attributePath => attributePathLoop
  | .eventPaths => eventPathArrayLoop
  | .eventPath => eventPathLoop
  | .eventFilters => eventFilterArrayLoop
  | .eventFilter => eventFilterLoop
  | .dataVersionFilters => dataVersionFilterArrayLoop
  | .dataVersionFilter => dataVersionFilterLoop
  | .clusterPath => clusterPathLoop
  | .attributeWrites => attributeWritesLoop valueReader
  | .attributeData => attributeDataLoop valueReader
  | .commandData => commandDataLoop fieldsReader
  | .commandInvocation => commandInvocationLoop fieldsReader
  | .commandPath => commandPathLoop
  | .delayReportData => delayReportDataLoop

def start : (b : Block) → State V F b
  | .readRequest | .subscribeRequest | .timedRequest | .eventFilter => ⟨{}, []⟩
  | .dataVersionFilter => ⟨⟨0, 0, 0⟩, []⟩
  | .clusterPath => ⟨(0, 0), []⟩
  | .attributePaths | .eventPaths | .eventFilters | .dataVersionFilters | .attributeWrites | .commandData => []
  | .writeRequest | .invokeRequest | .attributePath | .eventPath | .attributeData | .commandInvocation | .commandPath
  | .delayReportData => {}

/-- The decoder of a block whose opening element is taken. -/
def body (b : Block) : Decode E (b.Result V F) := (loop valueReader fieldsReader b).parser (start b)

end Loops

/-! ## Members of a block -/

section Member

variable (valueReader : Option (AttributeValueReader E V)) (fieldsReader : Option (CommandFieldsReader E F))

/-- The member decodes a block. -/
def Enters (b : Block) (p : Decode E σ) : Prop :=
  ∃ f : b.Result V F → σ, p = body valueReader fieldsReader b >>= fun a => pure (f a)

/-- What a member of the block `b` does with `el` in the state `s`. -/
structure Member (b : Block) (el : Element) (s : σ) (p : Decode E σ) : Prop where
  enters : ∀ b', b.child el = some b' → Enters valueReader fieldsReader b' p
  handles : b.child el = none → Handles p el (b.drains el)
  passes : b.hasFields = true → b.knows el = false → PassesOver p el s (b.drains el)

variable {vr : Option (AttributeValueReader E V)} {fr : Option (CommandFieldsReader E F)} {b : Block} {el : Element}
  {s : σ} {p q : Decode E σ} {n : BitVec 8} {t : ElementType}

theorem Member.ite {c : Prop} [Decidable c] (hp : c → Member vr fr b el s p) (hq : ¬ c → Member vr fr b el s q) :
    Member vr fr b el s (if c then p else q) := by
  split
  · exact hp ‹c›
  · exact hq ‹¬ c›

theorem child_eq_none (h : ∀ c ∈ b.children, c.1.all (isField el) = false) : b.child el = none := by
  unfold Block.child
  rw [List.filter_eq_nil_iff.2 fun c hc => by simp [h c hc]]
  rfl

section

variable (hk : ¬ el.tag.kind ≠ .context) (hn : fieldTag el = n)
include hk hn

theorem isField_eq : isField el = (n == ·) := by
  funext m
  simp [isField, not_not.1 hk, hn]

theorem knows_of_field (hb : b.knownTags.contains n = true) : b.knows el = true := by
  refine List.any_eq_true.2 ⟨n, List.contains_iff_mem.1 hb, ?_⟩
  rw [isField_eq hk hn]
  exact beq_self_eq_true n

/-- A field that is read from its own elements. -/
theorem member_field (h : Handles p el (b.drains el))
    (hb : (b.knownTags.contains n && b.children.all (!·.1.all (n == ·))) = true) : Member vr fr b el s p := by
  obtain ⟨hb, hc⟩ := Bool.and_eq_true_iff.mp hb
  have hnone : b.child el = none := by
    refine child_eq_none fun c hmem => ?_
    rw [isField_eq hk hn]
    exact (Bool.not_eq_true' _).mp (List.all_eq_true.mp hc c hmem)
  have hknown : b.knows el = true := knows_of_field hk hn hb
  exact ⟨fun _ hb' => by simp [hnone] at hb', fun _ => h, fun _ hn => by simp [hknown] at hn⟩
end

theorem member_ignored (hc : ∀ c ∈ b.children, c.1.all (isField el) = false) (h : PassesOver p el s (b.drains el)) :
    Member vr fr b el s p :=
  ⟨fun _ hb' => by simp [child_eq_none hc] at hb', fun _ => h.handles, fun _ _ => h⟩

/-- A field without a context tag. -/
theorem member_foreign (hk : el.tag.kind ≠ .context) (h : PassesOver p el s (b.drains el))
    (hb : b.children.all (·.1.isSome) = true) : Member vr fr b el s p := by
  refine member_ignored (fun c hc => ?_) h
  obtain ⟨n, hn⟩ := Option.isSome_iff_exists.1 (List.all_eq_true.mp hb c hc)
  simp [hn, isField, hk]

/-- A member that is a block when it opens a container of type `t`. -/
theorem member_enters (b' : Block) (hc : b.child el = if opens t el then some b' else none)
    (hk : b.hasFields = true → b.knows el = true) (f : b'.Result V F → σ)
    (hq : opens t el = false → Handles q el (b.drains el)) :
    Member vr fr b el s
      (ifContainer t el q (body vr fr b' >>= fun a => pure (f a))) := by
  unfold ifContainer
  cases ho : opens t el with
  | true =>
    rw [ho] at hc
    refine ⟨fun b'' hb => ?_, fun h => by simp [hc] at h, fun hf hn => by simp [hk hf] at hn⟩
    obtain rfl := Option.some.inj (hc.symm.trans hb)
    exact ⟨f, if_pos ho⟩
  | false =>
    rw [ho] at hc
    have ho' : (el.isContainer && el.type == t) = false := ho
    rw [if_neg (by simp [ho'])]
    exact ⟨fun _ hb' => by simp [hc] at hb', fun _ => hq ho, fun hf hn => by simp [hk hf] at hn⟩

/-- A field that is a block when it opens a container of type `t`. -/
theorem member_block (b' : Block) (hk : ¬ el.tag.kind ≠ .context) (hn : fieldTag el = n) (f : b'.Result V F → σ)
    (hq : opens t el = false → Handles q el (b.drains el)) (hb : b.knownTags.contains n = true)
    (hc : b.children.filter (·.1.all (n == ·)) = [(some n, t, b')]) :
    Member vr fr b el s
      (ifContainer t el q (body vr fr b' >>= fun a => pure (f a))) := by
  refine member_enters b' ?_ (fun _ => knows_of_field hk hn hb) f hq
  unfold Block.child
  rw [isField_eq hk hn, hc]
  cases ho : opens t el <;> simp [ho]

theorem member_item (b' : Block) (hf : b.hasFields = false) (hb : b.children = [(none, t, b')])
    (f : b'.Result V F → σ) (hq : opens t el = false → Handles q el (b.drains el)) :
    Member vr fr b el s
      (ifContainer t el q (body vr fr b' >>= fun a => pure (f a))) := by
  refine member_enters b' ?_ (fun h => absurd (hf.symm.trans h) (by decide)) f hq
  unfold Block.child
  rw [hb]
  cases ho : opens t el <;> simp [ho]

end Member

section Blocks

variable {vr : Option (AttributeValueReader E V)} {fr : Option (CommandFieldsReader E F)} {el : Element}

theorem member_readRequest (s : Seen ReadRequest) (hg : Genuine el) :
    Member vr fr .readRequest el s (readRequestField el s) := by
  unfold readRequestField
  split_ifs with hk h0 h1 h2 h3 h4
  · exact member_foreign hk (passesOver_pure s (by simp [hk])) rfl
  · exact member_block .attributePaths hk h0 _ (fun _ => handles_fail) rfl rfl
  · exact member_block .eventPaths hk h1 _ (fun _ => handles_fail) rfl rfl
  · exact member_block .eventFilters hk h2 _
      (fun _ => handles_skipField s (by simp [not_not.1 hk])) rfl rfl
  · exact member_field hk h3 (handles_bool hg _).wrapped rfl
  · exact member_block .dataVersionFilters hk h4 _ (fun _ => handles_fail) rfl rfl
  · refine member_ignored (by simp [isField, h0, h1, h2, h4]) ?_
    exact passesOver_skipField s (by simp [not_not.1 hk])

theorem member_subscribeRequest (s : Seen SubscribeRequest) (hg : Genuine el) :
    Member vr fr .subscribeRequest el s (subscribeRequestField el s) := by
  refine .ite (fun hk => member_foreign hk (passesOver_pure s (by simp [hk])) rfl) fun hk => ?_
  refine .ite (fun h0 => member_field hk h0 (handles_bool hg _).wrapped rfl) fun _ => ?_
  refine .ite (fun h1 => member_field hk h1 (handles_uint hg _).wrapped rfl) fun _ => ?_
  refine .ite (fun h2 => member_field hk h2 (handles_uint hg _).wrapped rfl) fun _ => ?_
  refine .ite (fun h3 => member_block .attributePaths hk h3 _ (fun _ => handles_fail) rfl rfl) fun h3 => ?_
  refine .ite (fun h4 => member_block .eventPaths hk h4 _ (fun _ => handles_fail) rfl rfl) fun h4 => ?_
  refine .ite (fun h5 => member_block .eventFilters hk h5 _ (fun _ => ?_) rfl rfl) fun h5 => ?_
  · exact handles_skipField s (by simp [not_not.1 hk])
  refine .ite (fun h7 => member_field hk h7 (handles_bool hg _).wrapped rfl) fun _ => ?_
  refine .ite (fun h8 => member_block .dataVersionFilters hk h8 _ (fun _ => handles_fail) rfl rfl) fun h8 => ?_
  refine member_ignored (by simp [isField, h3, h4, h5, h8]) ?_
  exact passesOver_skipField s (by simp [not_not.1 hk])

theorem member_timedRequest (s : Seen TimedRequest) (hg : Genuine el) :
    Member vr fr .timedRequest el s (timedRequestField el s) := by
  unfold timedRequestField
  split_ifs with hk h0
  · exact member_foreign hk (passesOver_pure s (by simp [isField, hk])) rfl
  · exact member_field hk h0 (handles_uint hg _).wrapped rfl
  · exact member_ignored (by simp) (passesOver_pure s (by simp [isField, h0]))

theorem member_attributePath (p : ConcreteAttributePath) (hg : Genuine el) :
    Member vr fr .attributePath el p (readAttributePathField el p) := by
  refine .ite (fun hk => member_foreign hk (passesOver_skipField p fun _ => rfl) rfl) fun hk => ?_
  refine .ite (fun h1 => member_field hk h1 (handles_uint hg _) rfl) fun _ => ?_
  refine .ite (fun h2 => member_field hk h2 (handles_uint hg _) rfl) fun _ => ?_
  refine .ite (fun h3 => member_field hk h3 (handles_uint hg _) rfl) fun _ => ?_
  refine .ite (fun h4 => member_field hk h4 (handles_uint hg _) rfl) fun _ => ?_
  refine .ite (fun h5 => .ite (fun hnull => ?_) fun _ => member_field hk h5 (handles_uint hg _) rfl) fun _ => ?_
  · refine member_field hk h5 (handles_ofExcept _ fun hc _ => ?_) rfl
    exact absurd (hnull.symm.trans (hg hc).1) (by decide)
  refine .ite (fun h6 => member_field hk h6 (handles_uint hg _) rfl) fun _ => ?_
  refine .ite (fun h7 => member_field hk h7 (handles_uint hg _) rfl) fun _ => ?_
  exact member_ignored (by simp) (passesOver_skipField p fun _ => rfl)

theorem member_eventPath (p : ConcreteEventPath) (hg : Genuine el) :
    Member vr fr .eventPath el p (readEventPathField el p) := by
  unfold readEventPathField
  split_ifs with hk h0 h1 h2 h3 h4
  · exact member_foreign hk (passesOver_skipField p (by simp [isField, hk])) rfl
  · exact member_field hk h0 (handles_uint hg _) rfl
  · exact member_field hk h1 (handles_uint hg _) rfl
  · exact member_field hk h2 (handles_uint hg _) rfl
  · exact member_field hk h3 (handles_uint hg _) rfl
  · exact member_field hk h4 (handles_pure _ (by simp [isField_eq hk h4])) rfl
  · exact member_ignored (by simp) (passesOver_skipField p (by simp [isField, h4]))

theorem member_commandPath (p : ConcreteCommandPath) (hg : Genuine el) :
    Member vr fr .commandPath el p (readCommandPathField el p) := by
  unfold readCommandPathField
  split_ifs with hk h0 h1 h2
  · exact member_foreign hk (passesOver_skipField p fun _ => rfl) rfl
  · exact member_field hk h0 (handles_uint hg _) rfl
  · exact member_field hk h1 (handles_uint hg _) rfl
  · exact member_field hk h2 (handles_uint hg _) rfl
  · exact member_ignored (by simp) (passesOver_skipField p fun _ => rfl)

theorem member_clusterPath (s : Seen (BitVec 16 × BitVec 32)) (hg : Genuine el) :
    Member vr fr .clusterPath el s (readClusterPathField el s) := by
  unfold readClusterPathField
  split_ifs with hk h1 h2
  · exact member_foreign hk (passesOver_skipField s fun _ => rfl) rfl
  · exact member_field hk h1 (handles_uint hg _) rfl
  · exact member_field hk h2 (handles_uint hg _) rfl
  · exact member_ignored (by simp) (passesOver_skipField s fun _ => rfl)

theorem member_dataVersionFilter (s : Seen DataVersionFilter) (hg : Genuine el) :
    Member vr fr .dataVersionFilter el s (readDataVersionFilterField el s) := by
  unfold readDataVersionFilterField
  split_ifs with hk h0 h1
  · exact member_foreign hk (passesOver_skipField s fun _ => rfl) rfl
  · exact member_block .clusterPath hk h0 _ (fun _ => handles_fail) rfl rfl
  · exact member_field hk h1 (handles_uint hg _) rfl
  · refine member_ignored ?_ (passesOver_skipField s fun _ => rfl)
    simpa [isField] using fun _ => h0

theorem member_eventFilter (s : Seen EventMinimumNumber) (hg : Genuine el) :
    Member vr fr .eventFilter el s (readEventFilterField el s) := by
  unfold readEventFilterField
  split_ifs with hk h0 h1
  · exact member_foreign hk (passesOver_skipField s fun _ => rfl) rfl
  · exact member_field hk h0 (handles_uint hg _) rfl
  · exact member_field hk h1 (handles_uint hg _) rfl
  · exact member_ignored (by simp) (passesOver_skipField s fun _ => rfl)

/-- A container is drained before its tag is looked at. -/
theorem member_delayReportData (d : DelayReportData) :
    Member vr fr .delayReportData el d (delayReportDataField el d) := by
  have hskip : PassesOver (skipField el () : Decode E Unit) el () true := passesOver_skipField () fun _ => rfl
  have hc : Block.child .delayReportData el = none := child_eq_none (by simp)
  refine ⟨fun _ h => by simp [hc] at h, fun _ => ?_, fun _ hn => ?_⟩
  · exact ⟨fun h => (hskip.handles.scalar h).bind_ofExcept, fun h _ inner c hi hend =>
      (hskip.handles.whole h rfl inner c hi hend).bind_ofExcept, fun _ h => absurd h (by simp)⟩
  have hv : delayReportValue (E := E) el d = .ok d := by
    unfold delayReportValue
    rw [if_pos]
    by_contra hcon
    rw [not_or, Nat.not_lt] at hcon
    have hnum : el.tag.number = 0 ∨ el.tag.number = 1 := by
      rcases Nat.le_one_iff_eq_zero_or_eq_one.1 hcon.2 with h | h
      · exact .inl (BitVec.eq_of_toNat_eq h)
      · exact .inr (BitVec.eq_of_toNat_eq h)
    rcases hnum with h | h <;> simp [Block.knows, Block.knownTags, isField, hcon.1, fieldTag, h] at hn
  unfold delayReportDataField
  rw [hv]
  refine ⟨fun h => ?_, fun h _ inner c hi hend => ?_, fun _ h => absurd h (by simp)⟩
  · exact (hskip.scalar h).bind answers_pure
  · have h := (hskip.whole h rfl inner c hi hend).bind (f := fun _ => pure d) answers_pure
    rwa [List.append_nil] at h

theorem handles_value {read : AttributeValueReader E V} (hv : ReadsValue read) (w : AttributeWrite V) :
    Handles (do
      let v ← (read w.path el).mapError (.wrap .invalidWriteRequest "value" ∘ .reader)
      pure { w with value := v } : Decode E (AttributeWrite V)) el true := by
  refine ⟨fun hc => ?_, fun hc _ inner c hi hend => ?_, fun _ h => absurd h (by decide)⟩
  · exact (((hv w.path el).1 hc).mapError).bind_ofExcept
  · exact (((hv w.path el).2 hc inner c hi hend.1 hend.2).mapError).bind_ofExcept

theorem member_attributeData (hv : ∀ read ∈ vr, ReadsValue read) (w : AttributeWrite V) (hg : Genuine el) :
    Member vr fr .attributeData el w (attributeDataField vr el w) := by
  unfold attributeDataField
  split_ifs with hk h0 h1 h2
  · refine member_foreign hk (passesOver_pure w ?_) rfl
    simp [Block.knows, isField, hk]
  · exact member_field hk h0 (handles_uint hg _).wrapped rfl
  · exact member_block .attributePath hk h1 _ (fun _ => handles_fail) rfl rfl
  · refine member_field hk h2 ?_ rfl
    have hd : Block.drains .attributeData el = true := knows_of_field hk h2 (by decide)
    rw [hd]
    cases vr with
    | none => exact (handles_skipField w fun _ => rfl).wrapped
    | some read => exact handles_value (hv read rfl) w
  · refine member_ignored (by simp [isField, h1]) (passesOver_pure w fun _ => ?_)
    have hk' : el.tag.kind = .context := not_not.1 hk
    simpa [Block.knows, Block.knownTags, isField, hk'] using ⟨h0, h1, h2⟩

section Fields

variable {inv : CommandInvocation F} {reject : FieldsReject E}

/-- An error without a status of its own fails the request. -/
theorem afterFields_untyped (h : reject.status.all (·.isSuccess) = true) :
    afterFields el inv (.error reject) = Parser.fail (.wrap .invalidInvokeRequest "fields" (.reader reject.err)) := by
  unfold afterFields
  cases hs : reject.status with
  | none => simp only [hs]
  | some status =>
    rw [hs, Option.all_some] at h
    simp [hs, h]

theorem decides_afterFields {ts : List Element}
    (h : ∀ status, reject.status = some status → status.isSuccess = false →
      Decides (afterFields el inv (.error reject)) ts) : Decides (afterFields el inv (.error reject)) ts := by
  cases ht : reject.status.all (·.isSuccess) with
  | true =>
    rw [afterFields_untyped ht]
    exact ⟨_, answers_fail _ _⟩
  | false =>
    obtain ⟨status, hs, hn⟩ := (Option.all_eq_false _ _).1 ht
    exact h status hs hn

theorem afterFields_consumed {r : Except (FieldsReject E) (Option F)}
    (h : ∀ reject, r = .error reject → reject.fieldsContainerConsumed = true) :
    Decides (afterFields el inv r) [] := by
  cases r with
  | ok f => exact ⟨_, answers_pure⟩
  | error reject =>
    refine decides_afterFields fun status hs hn => ?_
    simp only [afterFields, hs, hn, h reject rfl, Bool.not_true, Bool.and_false]
    exact ⟨_, answers_pure⟩

/-- Of a container that is not consumed the rest is skipped. -/
theorem afterFields_left {left : List Element} (hc : el.isContainer = true)
    (h : reject.fieldsContainerConsumed = false) (hleft : containers.Closes 0 left) (hend : IsEnd c) :
    Decides (afterFields el inv (.error reject)) (left ++ [c]) := by
  refine decides_afterFields fun status hs hn => ?_
  simp only [afterFields, hs, hn, h, hc]
  have hskip : Decides (skipContainer : Decode E Unit) (left ++ [c]) :=
    ⟨_, Brackets.answers_skip hleft hend.1 hend.2⟩
  exact (hskip.bind_ofExcept).mapError

theorem handles_fields {read : CommandFieldsReader E F} (hr : ReadsFields read) (inv : CommandInvocation F)
    (hc : el.isContainer = true) :
    Handles (do
      let r ← (read inv.path el).mapError Empty.elim
      afterFields el inv r : Decode E (CommandInvocation F)) el true := by
  refine ⟨fun h => absurd (hc.symm.trans h) (by decide), fun _ _ inner c hi hend => ?_,
    fun _ h => absurd h (by decide)⟩
  -- the reader never fails: its errors are among its answers
  have hmap : ∀ {ts r}, (read inv.path el).run ts = .ok r →
      (do let r ← (read inv.path el).mapError Empty.elim
          afterFields el inv r : Decode E (CommandInvocation F)).run ts = (afterFields el inv r.1).run r.2 := by
    intro ts r h
    rw [Parser.run_bind, Parser.run_mapError, h]
    rfl
  rcases hr inv.path el inner c hi hend.1 hend.2 with
    ⟨r, hcons, hans⟩ | ⟨reject, ⟨hcons, left, hleft, hrun⟩ | ⟨hst, hrun⟩⟩
  · have hd : Decides (afterFields el inv r) [] := afterFields_consumed hcons
    obtain ⟨r', hr'⟩ := hd
    exact ⟨r', fun rest => (hmap (hans rest)).trans (hr' rest)⟩
  · have hd : Decides (afterFields el inv (.error reject)) (left ++ [c]) := afterFields_left hc hcons hleft hend
    obtain ⟨r', hr'⟩ := hd
    exact ⟨r', fun rest => (hmap (hrun rest)).trans (hr' rest)⟩
  · refine ⟨.error (.wrap .invalidInvokeRequest "fields" (.reader reject.err)), fun rest => ?_⟩
    obtain ⟨left, hleft⟩ := hrun rest
    rw [hmap hleft, afterFields_untyped hst]
    rfl

end Fields

theorem member_commandInvocation (hf : ∀ read ∈ fr, ReadsFields read) (inv : CommandInvocation F) (hg : Genuine el) :
    Member vr fr .commandInvocation el inv (commandInvocationField fr el inv) := by
  unfold commandInvocationField
  split_ifs with hk h0 h1 h2
  · refine member_foreign hk (passesOver_pure inv ?_) rfl
    simp [Block.knows, isField, hk]
  · exact member_block .commandPath hk h0 _ (fun _ => handles_fail) rfl rfl
  · refine member_field hk h1 ?_ rfl
    have hd : Block.drains .commandInvocation el = true := knows_of_field hk h1 (by decide)
    rw [hd]
    cases fr with
    | none => exact (handles_skipField inv fun _ => rfl).wrapped
    | some read =>
      show Handles (if el.isContainer && el.type == .struct then _ else _) el true
      split_ifs with hs
      · exact handles_fields (hf read rfl) inv (Bool.and_eq_true_iff.1 hs).1
      · exact (handles_skipField _ fun _ => rfl).wrapped
  · exact member_field hk h2 (handles_uint hg _).wrapped rfl
  · refine member_ignored (by simp [isField, h0]) (passesOver_pure inv fun _ => ?_)
    have hk' : el.tag.kind = .context := not_not.1 hk
    simpa [Block.knows, Block.knownTags, isField, hk'] using ⟨h0, h1, h2⟩

theorem member_writeRequest (req : WriteRequest V) (hg : Genuine el) :
    Member vr fr .writeRequest el req (writeRequestField vr el req) := by
  unfold writeRequestField
  split_ifs with hk h0 hb h1 h3 h2
  · exact member_foreign hk (passesOver_pure req (by simp [hk])) rfl
  · refine member_field hk h0 (handles_ofExcept _ fun hc _ => ?_) rfl
    exact absurd (hb.symm.trans (isBool_of_container hg hc)) (by decide)
  · exact member_field hk h0 handles_fail rfl
  · exact member_field hk h1 (handles_pure _ (by simp [isField_eq hk h1])) rfl
  · exact member_field hk h3 (handles_pure _ (by simp [isField_eq hk h3])) rfl
  · exact member_block .attributeWrites hk h2 _ (fun _ => handles_fail) rfl rfl
  · refine member_ignored (by simp [isField, h2]) ?_
    exact passesOver_skipField req (by simp [isField, h1, h3, not_not.1 hk])

theorem ifContainer_bind {t : ElementType} {p q : Decode E α} {f : α → Decode E σ} :
    (ifContainer t el q p >>= f) = ifContainer t el (q >>= f) (p >>= f) := by
  unfold ifContainer
  split_ifs <;> rfl

theorem member_invokeRequest (req : InvokeRequest F) (hg : Genuine el) :
    Member vr fr .invokeRequest el req (invokeRequestField fr el req) := by
  refine .ite (fun hk => member_foreign hk (passesOver_pure req (by simp [hk])) rfl) fun hk => ?_
  refine .ite (fun h0 => .ite (fun hb => ?_) fun _ => member_field hk h0 handles_fail rfl) fun _ => ?_
  · refine member_field hk h0 (handles_ofExcept _ fun hc _ => ?_) rfl
    exact absurd (hb.symm.trans (isBool_of_container hg hc)) (by decide)
  refine .ite (fun h1 => member_field hk h1 (handles_pure _ (by simp [isField_eq hk h1])) rfl) fun h1 => ?_
  refine .ite (fun h2 => member_block .commandData hk h2 _ (fun _ => handles_fail) rfl rfl) fun h2 => ?_
  refine .ite (fun h3 => ?_) fun h3 => .ite (fun h4 => ?_) fun h4 => ?_
  · unfold readDelayReportData inContainer
    rw [ifContainer_bind]
    exact member_block .delayReportData hk h3 _ (fun _ => handles_fail) rfl rfl
  · have hlast (q : InvokeRequest F) : Handles (pure q : Decode E _) el (Block.drains .invokeRequest el) :=
      handles_pure _ (by simp [isField_eq hk h4])
    exact .ite (fun _ => member_field hk h4 (hlast _) rfl) fun _ => member_field hk h4 (hlast _) rfl
  · refine member_ignored (by simp [isField, h2, h3]) ?_
    exact passesOver_skipField req (by simp [isField, h1, h4, not_not.1 hk])

theorem Member.wrapped {b : Block} {s : σ} {p : Decode E σ} (hb : ∀ el, b.child el = none)
    (h : Member vr fr b el s p) : Member vr fr b el s (p.mapError f) :=
  ⟨fun _ hc => by simp [hb] at hc, fun hc => (h.handles hc).wrapped, fun hf hn => (h.passes hf hn).wrapped⟩

/-- What the loop of every block does with its members. -/
theorem member_loop (hv : ∀ read ∈ vr, ReadsValue read) (hf : ∀ read ∈ fr, ReadsFields read) (b : Block)
    (s : State V F b) (hg : Genuine el) : Member vr fr b el s ((loop vr fr b).member el s) := by
  have hleaf : ∀ {b : Block}, b.children = [] → ∀ el, b.child el = none := by
    intro b hb el
    exact child_eq_none (by rw [hb]; exact List.forall_mem_nil _)
  cases b with
  | readRequest => exact member_readRequest s hg
  | subscribeRequest => exact member_subscribeRequest s hg
  | writeRequest => exact member_writeRequest s hg
  | invokeRequest => exact member_invokeRequest s hg
  | timedRequest => exact member_timedRequest s hg
  | attributePaths => exact member_item .attributePath rfl rfl _ fun _ => handles_fail
  | attributePath => exact (member_attributePath s hg).wrapped (hleaf rfl)
  | eventPaths => exact member_item .eventPath rfl rfl _ fun _ => handles_fail
  | eventPath => exact (member_eventPath s hg).wrapped (hleaf rfl)
  | eventFilters => exact member_item .eventFilter rfl rfl _ fun _ => handles_skipField _ fun _ => rfl
  | eventFilter => exact member_eventFilter s hg
  | dataVersionFilters => exact member_item .dataVersionFilter rfl rfl _ fun _ => handles_pure _ rfl
  | dataVersionFilter => exact member_dataVersionFilter s hg
  | clusterPath => exact member_clusterPath s hg
  | attributeWrites => exact member_item .attributeData rfl rfl _ fun _ => handles_fail
  | attributeData => exact member_attributeData hv s hg
  | commandData => exact member_item .commandInvocation rfl rfl _ fun _ => handles_fail
  | commandInvocation => exact member_commandInvocation hf s hg
  | commandPath => exact (member_commandPath s hg).wrapped (hleaf rfl)
  | delayReportData => exact member_delayReportData s

end Blocks

end GF.Proof.Im
