import GoFabric.Proof.Im.UnknownFields
import GoFabric.Proof.Tlv.Writes
import GoFabric.Spec.RequestRoundTrip

/-!
# Decoding the requests that are sent

The loop of a decoder runs over what the marshaller writes field by field
(`Conveys`): a number field comes back at its width (`answers_uint`), a field
that is not written leaves the zero that its has-flag guards
(`conveys_optField`), and an array its items in order (`packs_items`). The values
of attributes and the fields of commands stand in the middle as elements that
their readers take.

* `requests_round_trip`: the four requests come back as they were sent;
* `requests_changed_on_the_wire`: what a request cannot carry.
-/

namespace GF.Proof.Im

open GF.Impl.Tlv GF.Impl.Im.Wire GF.Spec.RequestRoundTrip
open GF.Spec.UnknownFields (Request)
open GF.Proof.Tlv
open GF.Impl.Im (StatusCode ConcreteAttributePath DataVersionFilter AttributeValue)

variable {E σ α : Type} {w : Nat} {el : Element}

/-! ## Fields -/

theorem isUnsigned_fieldElement (n : BitVec 8) (v : BitVec w) : isUnsigned (fieldElement n v) = true := by
  unfold fieldElement uintElement leastType
  split_ifs <;> rfl

section

variable (hw : w ≤ 64) (n : BitVec 8) (v : BitVec w)
include hw n v

theorem toNat_fieldElement : (fieldElement n v).uint.toNat = v.toNat := by
  show (v.setWidth 64).toNat = v.toNat
  rw [BitVec.toNat_setWidth]
  exact Nat.mod_eq_of_lt (Nat.lt_of_lt_of_le v.isLt (Nat.pow_le_pow_right (by decide) hw))

theorem setWidth_fieldElement : (fieldElement n v).uint.setWidth w = v := by
  show (v.setWidth 64).setWidth w = v
  rw [BitVec.setWidth_setWidth_of_le v hw, BitVec.setWidth_eq]

theorem uintField_fieldElement : uintField w (fieldElement n v) = (.ok v : Except (DecodeError E) (BitVec w)) := by
  have hlt : ¬ 2 ^ w ≤ (fieldElement n v).uint.toNat := by
    rw [toNat_fieldElement hw]
    exact Nat.not_le.2 v.isLt
  unfold uintField
  rw [if_pos (isUnsigned_fieldElement n v), if_neg hlt, setWidth_fieldElement hw]
end

theorem answers_uint (hw : w ≤ 64) {n : BitVec 8} {v : BitVec w} {f : BitVec w → σ} :
    Answers (setField (uintField w (fieldElement n v)) f : Decode E σ) [] (.ok (f v)) := by
  rw [uintField_fieldElement hw]
  exact answers_ofExcept _

theorem answers_bool {n : BitVec 8} {v : Bool} {f : Bool → σ} :
    Answers (setField (boolField (boolElement (contextTag n) v)) f : Decode E σ) [] (.ok (f v)) := by
  cases v <;> exact answers_ofExcept _

section Fields

variable {l : Loop Element (DecodeError E) σ α} {n : BitVec 8} {v : BitVec w} {c b : Bool} {s s' : σ}

theorem conveys_field (hc : l.closes (fieldElement n v) = false)
    (h : Answers (l.member (fieldElement n v) s) [] (.ok s')) : Conveys l (putField · n v) s s' :=
  conveys_member (writes_field n v) hc h

/-- A field that may be missing, where its has-flag guards a zero. -/
theorem conveys_optField (g : Bool → BitVec w → σ) (hg : guards c v = true)
    (hc : l.closes (fieldElement n v) = false)
    (h : Answers (l.member (fieldElement n v) (g false 0)) [] (.ok (g true v))) :
    Conveys l (putIf c (putField · n v)) (g false 0) (g c v) := by
  refine conveys_putIf (fun hset => ?_) fun hunset => ?_
  · rw [hset]
    exact conveys_field hc h
  · obtain rfl : v = 0 := by simpa [guards, hunset] using hg
    rw [hunset]

theorem conveys_bool (hc : l.closes (boolElement (contextTag n) b) = false)
    (h : Answers (l.member (boolElement (contextTag n) b) s) [] (.ok s')) :
    Conveys l (·.putBool (contextTag n) b) s s' := conveys_member (writes_bool n b) hc h

theorem conveys_flag (g : Bool → σ) (hc : l.closes (boolElement (contextTag n) true) = false)
    (h : Answers (l.member (boolElement (contextTag n) true) (g false)) [] (.ok (g true))) :
    Conveys l (putIf c (·.putBool (contextTag n) true)) (g false) (g c) := by
  refine conveys_putIf (fun hset => ?_) fun hunset => by rw [hunset]
  rw [hset]
  exact conveys_bool hc h

theorem conveys_revision
    (hc : l.closes (fieldElement tagInteractionModelRevision matterInteractionModelRevision) = false)
    (h : l.member (fieldElement tagInteractionModelRevision matterInteractionModelRevision) s = pure s) :
    Conveys l (putField · tagInteractionModelRevision matterInteractionModelRevision) s s := by
  refine conveys_field hc ?_
  rw [h]
  exact answers_pure

end Fields

/-! ## Paths -/

theorem conveys_listIndex (g : Bool → BitVec 16 → Bool → ConcreteAttributePath) {p : ConcreteAttributePath}
    (hg : guards p.hasListIndex p.listIndex = true) (ha : (!p.listAppend || p.hasListIndex) = true)
    (hz : appendsAtNull p = true)
    (hnull : Answers ((attributePathLoop (E := E)).member (nullElement (contextTag tagAttrPathListIndex)) (g false 0 false))
      [] (.ok (g true 0 true)))
    (hindex : Answers ((attributePathLoop (E := E)).member (fieldElement tagAttrPathListIndex p.listIndex)
      (g false 0 false)) [] (.ok (g true p.listIndex false))) :
    ∃ s, Conveys (attributePathLoop (E := E)) (putIf p.listAppend (·.putNull (contextTag tagAttrPathListIndex)))
        (g false 0 false) s ∧
      Conveys (attributePathLoop (E := E))
        (putIf (!p.listAppend && p.hasListIndex) (putField · tagAttrPathListIndex p.listIndex)) s
        (g p.hasListIndex p.listIndex p.listAppend) := by
  cases happ : p.listAppend with
  | true =>
    obtain hidx : p.listIndex = 0 := by simpa [appendsAtNull, happ] using hz
    have hhas : p.hasListIndex = true := by simpa [happ] using ha
    rw [hidx, hhas]
    exact ⟨_, conveys_member (writes_null _) rfl hnull, conveys_nothing⟩
  | false => exact ⟨_, conveys_nothing, conveys_optField (fun h v => g h v false) hg rfl hindex⟩

/-- An attribute path is read back at any tag and in any array. -/
theorem packs_attributePath {p : ConcreteAttributePath} (hp : attributePathGuarded p = true)
    (hz : appendsAtNull p = true) :
    (∀ tag, Readable tag → Packs (readAttributePathFields (E := E)) .list tag (marshalAttributePath p · tag) p) ∧
      PacksAny (readAttributePathFields (E := E)) .list (marshalAttributePath p · anonymousTag) p := by
  let l := attributePathLoop (E := E)
  simp only [attributePathGuarded, Bool.and_eq_true] at hp
  obtain ⟨⟨⟨⟨⟨⟨hnode, hendpoint⟩, hcluster⟩, hattribute⟩, hindex⟩, hversion⟩, happend⟩ := hp
  let p1 : ConcreteAttributePath := { node := p.node, hasNode := p.hasNode }
  let p2 := { p1 with endpoint := p.endpoint, hasEndpoint := p.hasEndpoint }
  let p3 := { p2 with cluster := p.cluster, hasCluster := p.hasCluster }
  let p4 := { p3 with attributeID := p.attributeID, hasAttribute := p.hasAttribute }
  have h1 := conveys_optField (l := l) (n := tagAttrPathNode)
    (fun h v => { node := v, hasNode := h }) hnode rfl (answers_uint (by decide)).mapError
  have h2 := conveys_optField (l := l) (n := tagAttrPathEndpoint)
    (fun h v => { p1 with endpoint := v, hasEndpoint := h }) hendpoint rfl (answers_uint (by decide)).mapError
  have h3 := conveys_optField (l := l) (n := tagAttrPathCluster)
    (fun h v => { p2 with cluster := v, hasCluster := h }) hcluster rfl (answers_uint (by decide)).mapError
  have h4 := conveys_optField (l := l) (n := tagAttrPathAttribute)
    (fun h v => { p3 with attributeID := v, hasAttribute := h }) hattribute rfl
    (answers_uint (by decide)).mapError
  obtain ⟨s, h5, h6⟩ := conveys_listIndex
    (fun h v a => { p4 with hasListIndex := h, listIndex := v, listAppend := a })
    hindex happend hz answers_pure.mapError (answers_uint (by decide)).mapError
  have h7 := conveys_optField (l := l) (n := tagAttrPathWildcardPathFlags)
    (c := p.wildcardPathFlags != 0) (v := p.wildcardPathFlags)
    (fun _ v => { p with wildcardPathFlags := v, wildcardFilterConfigurationVersion := 0,
                         hasWildcardFilterConfigurationVersion := false })
    (by simp [guards, bne]) rfl (answers_uint (by decide)).mapError
  have h8 := conveys_optField (l := l) (n := tagAttrPathWildcardFilterCfgVer)
    (fun h v => { p with wildcardFilterConfigurationVersion := v, hasWildcardFilterConfigurationVersion := h })
    hversion rfl (answers_uint (by decide)).mapError
  have h := h1.andThen (h2.andThen (h3.andThen (h4.andThen (h5.andThen (h6.andThen (h7.andThen h8.last))))))
  exact ⟨fun tag htag => h.packs (.inr rfl) rfl rfl htag, h.packsAny (.inr rfl) rfl rfl⟩

theorem packsAny_eventPath {p : ConcreteEventPath} (hp : eventPathGuarded p = true) :
    PacksAny (readEventPathFields (E := E)) .list (p.marshalTLV · anonymousTag) p := by
  let l := eventPathLoop (E := E)
  simp only [eventPathGuarded, Bool.and_eq_true] at hp
  obtain ⟨⟨⟨hnode, hendpoint⟩, hcluster⟩, hevent⟩ := hp
  let p1 : ConcreteEventPath := { node := p.node, hasNode := p.hasNode }
  let p2 := { p1 with endpoint := p.endpoint, hasEndpoint := p.hasEndpoint }
  have h1 := conveys_optField (l := l) (n := tagEventPathNode)
    (fun h v => { node := v, hasNode := h }) hnode rfl (answers_uint (by decide)).mapError
  have h2 := conveys_optField (l := l) (n := tagEventPathEndpoint)
    (fun h v => { p1 with endpoint := v, hasEndpoint := h }) hendpoint rfl (answers_uint (by decide)).mapError
  have h3 := conveys_optField (l := l) (n := tagEventPathCluster)
    (fun h v => { p2 with cluster := v, hasCluster := h }) hcluster rfl (answers_uint (by decide)).mapError
  have h4 := conveys_optField (l := l) (n := tagEventPathEvent)
    (fun h v => { p with event := v, hasEvent := h, isUrgent := false }) hevent rfl
    (answers_uint (by decide)).mapError
  have h5 : Conveys l (putIf p.isUrgent (·.putBool (contextTag tagEventPathIsUrgent) true))
      { p with isUrgent := false } p := conveys_flag (fun h => { p with isUrgent := h }) rfl answers_pure.mapError
  exact (h1.andThen (h2.andThen (h3.andThen (h4.andThen h5.last)))).packsAny (.inr rfl) rfl rfl

theorem packs_commandPath {p : ConcreteCommandPath} (hp : commandPathGuarded p = true)
    (hcluster : p.hasCluster = true) (hcommand : p.hasCommand = true) {tag : Tag} (htag : Readable tag) :
    Packs (readCommandPathFields (E := E)) .list tag (p.marshalTLV · tag) p := by
  let l := commandPathLoop (E := E)
  simp only [commandPathGuarded, Bool.and_eq_true] at hp
  have h1 := conveys_optField (l := l) (n := tagCmdPathEndpoint)
    (fun h v => { endpoint := v, hasEndpoint := h }) hp.1.1 rfl (answers_uint (by decide)).mapError
  let p1 : ConcreteCommandPath := { endpoint := p.endpoint, hasEndpoint := p.hasEndpoint }
  let p2 := { p1 with cluster := p.cluster, hasCluster := true }
  have h2 : Conveys l (putField · tagCmdPathCluster p.cluster) p1 p2 :=
    conveys_field rfl (answers_uint (by decide)).mapError
  have h3 : Conveys l (putField · tagCmdPathCommand p.command) p2
      { p2 with command := p.command, hasCommand := true } :=
    conveys_field rfl (answers_uint (by decide)).mapError
  have h := (h1.andThen (h2.andThen h3.last)).packs (.inr rfl) rfl rfl htag
  cases p
  cases hcluster
  cases hcommand
  exact h

/-! ## Filters -/

theorem packsAny_eventFilter {f : EventMinimumNumber} (hf : eventFilterGuarded f = true) :
    PacksAny (readEventFilterFields (E := E)) .struct (marshalEventFilter · f) f := by
  have h1 := conveys_optField (l := eventFilterLoop (E := E)) (n := tagEventFilterNodeID)
    (fun h v => ⟨{ nodeID := v, hasNodeID := h }, []⟩) hf rfl (answers_uint (by decide))
  have h2 : Conveys (eventFilterLoop (E := E)) (putField · tagEventFilterEventMin f.eventMin)
      ⟨{ nodeID := f.nodeID, hasNodeID := f.hasNodeID }, []⟩ ⟨f, [tagEventFilterEventMin]⟩ :=
    conveys_field rfl (answers_uint (by decide))
  exact (h1.andThen h2.last).packsAny (.inl rfl) rfl rfl

theorem packsAny_dataVersionFilter (f : DataVersionFilter) :
    PacksAny (readDataVersionFilterFields (E := E)) .struct (marshalDataVersionFilter · f) f := by
  have h1 : Conveys (clusterPathLoop (E := E)) (putField · 1 f.endpoint) ⟨(0, 0), []⟩ ⟨(f.endpoint, 0), [1]⟩ :=
    conveys_field rfl (answers_uint (by decide))
  have h2 : Conveys (clusterPathLoop (E := E)) (putField · 2 f.cluster) ⟨(f.endpoint, 0), [1]⟩
      ⟨(f.endpoint, f.cluster), [2, 1]⟩ := conveys_field rfl (answers_uint (by decide))
  have hpath : Packs (readClusterPathFields) .list (contextTag 0) _ (f.endpoint, f.cluster) :=
    (h1.andThen h2.last).packs (.inr rfl) rfl rfl (readable_context 0)
  have h3 := hpath.conveys (l := dataVersionFilterLoop) (s := ⟨⟨0, 0, 0⟩, []⟩)
    rfl rfl
  have h4 : Conveys (dataVersionFilterLoop (E := E)) (putField · 1 f.dataVersion) ⟨⟨f.endpoint, f.cluster, 0⟩, [0]⟩
      ⟨f, [1, 0]⟩ := conveys_field rfl (answers_uint (by decide))
  have h : PacksAny (readDataVersionFilterFields) .struct _ f := (h3.andThen h4.last).packsAny (.inl rfl) rfl rfl
  refine cast (congrArg (PacksAny _ _ · _) (funext fun enc => ?_)) h
  simp only [marshalDataVersionFilter, Encoder.startStruct, Encoder.startList, bind_assoc, pure_bind]

/-! ## Arrays -/

section Arrays

variable {β : Type} {t : ElementType} {other : Element → List β → Decode E (List β)} {item : Decode E β}
  {put : Encoder → β → Option Encoder} {items : List β}

theorem packs_items (n : BitVec 8) (h : ∀ a ∈ items, PacksAny item t (put · a) a) :
    Packs ((itemLoop t other item).parser []) .array (contextTag n) (fun enc =>
      enc.startContainer .array (contextTag n) >>= fun enc =>
        putAll put enc items >>= fun enc => pure enc.endContainer.2) items := by
  choose! toElements hwrites hreads using h
  refine ⟨_, writes_array n (endsAny_last (writesAny_putAll hwrites)), ?_⟩
  suffices hruns : ∀ acc, (itemLoop t other item).Runs acc
      (items.flatMap fun a => containerElements t anonymousTag (toElements a)) (.ok (acc ++ items)) from
    (hruns []).answers rfl rfl
  clear hwrites
  induction items with
  | nil =>
    intro acc
    rw [List.append_nil]
    exact Loop.runs_nil
  | cons a items ih =>
    intro acc
    obtain ⟨ha, hrest⟩ := List.forall_mem_cons.mp hreads
    have hmember : (itemLoop t other item).member (openElement t anonymousTag) acc =
        item >>= fun a => pure (acc ++ [a]) := by
      show ifContainer t (openElement t anonymousTag) _ _ = _
      unfold ifContainer
      rw [if_pos (by simp [openElement])]
    have hstep : (itemLoop t other item).Runs acc (containerElements t anonymousTag (toElements a))
        (.ok (acc ++ [a])) := by
      refine Loop.runs_member rfl ?_
      rw [hmember]
      exact ha.bind_pure
    have h := hstep.append (ih hrest (acc ++ [a]))
    rwa [List.append_assoc] at h

theorem conveys_list {l : Loop Element (DecodeError E) σ α} {n : BitVec 8} (g : List β → σ)
    (h : ∀ a ∈ items, PacksAny item t (put · a) a) (hc : l.closes (openElement .array (contextTag n)) = false)
    (hm : l.member (openElement .array (contextTag n)) (g []) =
      (itemLoop t other item).parser [] >>= fun items => pure (g items)) :
    Conveys l (marshalList put · n items) (g []) (g items) := by
  cases items with
  | nil => exact conveys_nothing
  | cons a items => exact (packs_items n h).conveys hc hm

end Arrays

/-! ## Read and subscribe requests -/

/-- The paths and filters of a read or subscribe request are read back. -/
theorem packs_paths {paths : List ConcreteAttributePath} (hg : paths.all attributePathGuarded = true)
    (hz : paths.all appendsAtNull = true) : ∀ p ∈ paths,
      PacksAny (readAttributePathFields (E := E)) .list (marshalAttributePath p · anonymousTag) p := fun p hp =>
  (packs_attributePath (List.all_eq_true.1 hg p hp) (List.all_eq_true.1 hz p hp)).2

theorem packs_readRequest {r : ReadRequest} (hg : readGuarded r = true)
    (hz : r.attributeRequests.all appendsAtNull = true) :
    Packs ((readRequestLoop (E := E)).parser ⟨{}, []⟩) .struct anonymousTag r.marshalTLV r := by
  let l := readRequestLoop (E := E)
  simp only [readGuarded, Bool.and_eq_true] at hg
  let r1 : ReadRequest := { attributeRequests := r.attributeRequests }
  let r2 := { r1 with eventRequests := r.eventRequests }
  have h1 := conveys_list (l := l) (n := tagReadReqAttributeRequests)
    (fun paths => ⟨{ attributeRequests := paths }, []⟩) (packs_paths hg.1.1 hz) rfl rfl
  have h2 := conveys_list (l := l) (n := tagReadReqEventRequests)
    (fun paths => ⟨{ r1 with eventRequests := paths }, []⟩)
    (fun p hp => packsAny_eventPath (List.all_eq_true.1 hg.1.2 p hp)) rfl rfl
  have h3 := conveys_list (l := l) (n := tagReadReqEventFilters)
    (fun filters => ⟨{ r2 with eventFilters := filters }, []⟩)
    (fun f hf => packsAny_eventFilter (List.all_eq_true.1 hg.2 f hf)) rfl rfl
  have h4 : Conveys l (·.putBool (contextTag tagReadReqFabricFiltered) r.fabricFiltered)
      ⟨{ r2 with eventFilters := r.eventFilters }, []⟩ ⟨{ r with dataVersionFilters := [] }, [tagReadReqFabricFiltered]⟩ :=
    conveys_bool rfl answers_bool.mapError
  have h5 := conveys_list (l := l) (n := tagReadReqDataVersionFilters)
    (fun filters => ⟨{ r with dataVersionFilters := filters }, [tagReadReqFabricFiltered]⟩)
    (fun f (_ : f ∈ r.dataVersionFilters) => packsAny_dataVersionFilter f) rfl rfl
  have h6 := conveys_revision (l := l) (s := ⟨r, [tagReadReqFabricFiltered]⟩) rfl rfl
  exact (h1.andThen (h2.andThen (h3.andThen (h4.andThen (h5.andThen h6.last))))).packs (.inl rfl) rfl rfl
    readable_anonymous

/-- The fields of a subscribe request that have to be there, as they are seen. -/
def subscribeSeen : List (BitVec 8) :=
  [tagSubReqFabricFiltered, tagSubReqMaxIntervalCeiling, tagSubReqMinIntervalFloor, tagSubReqKeepSubscriptions]

theorem packs_subscribeRequest {r : SubscribeRequest} (hg : subscribeGuarded r = true)
    (hz : r.attributeRequests.all appendsAtNull = true) :
    Packs ((subscribeRequestLoop (E := E)).parser ⟨{}, []⟩) .struct anonymousTag r.marshalTLV r := by
  let l := subscribeRequestLoop (E := E)
  simp only [subscribeGuarded, Bool.and_eq_true] at hg
  let r1 : SubscribeRequest := { keepSubscriptions := r.keepSubscriptions }
  let r2 := { r1 with minIntervalFloor := r.minIntervalFloor }
  let r3 := { r2 with maxIntervalCeiling := r.maxIntervalCeiling }
  let r4 := { r3 with attributeRequests := r.attributeRequests }
  let r5 := { r4 with eventRequests := r.eventRequests }
  have h1 : Conveys l
      (·.putBool (contextTag tagSubReqKeepSubscriptions) r.keepSubscriptions) ⟨{}, []⟩
      ⟨r1, [tagSubReqKeepSubscriptions]⟩ := conveys_bool rfl answers_bool.mapError
  have h2 : Conveys l (putField · tagSubReqMinIntervalFloor r.minIntervalFloor)
      ⟨r1, [tagSubReqKeepSubscriptions]⟩ ⟨r2, [tagSubReqMinIntervalFloor, tagSubReqKeepSubscriptions]⟩ :=
    conveys_field rfl (answers_uint (by decide)).mapError
  have h3 : Conveys l (putField · tagSubReqMaxIntervalCeiling r.maxIntervalCeiling)
      ⟨r2, [tagSubReqMinIntervalFloor, tagSubReqKeepSubscriptions]⟩ ⟨r3, subscribeSeen.tail⟩ :=
    conveys_field rfl (answers_uint (by decide)).mapError
  have h4 := conveys_list (l := l) (n := tagSubReqAttributeRequests)
    (fun paths => ⟨{ r3 with attributeRequests := paths }, subscribeSeen.tail⟩) (packs_paths hg.1.1 hz) rfl rfl
  have h5 := conveys_list (l := l) (n := tagSubReqEventRequests)
    (fun paths => ⟨{ r4 with eventRequests := paths }, subscribeSeen.tail⟩)
    (fun p hp => packsAny_eventPath (List.all_eq_true.1 hg.1.2 p hp)) rfl rfl
  have h6 := conveys_list (l := l) (n := tagSubReqEventFilters)
    (fun filters => ⟨{ r5 with eventFilters := filters }, subscribeSeen.tail⟩)
    (fun f hf => packsAny_eventFilter (List.all_eq_true.1 hg.2 f hf)) rfl rfl
  have h7 : Conveys l (·.putBool (contextTag tagSubReqFabricFiltered) r.fabricFiltered)
      ⟨{ r5 with eventFilters := r.eventFilters }, subscribeSeen.tail⟩
      ⟨{ r with dataVersionFilters := [] }, subscribeSeen⟩ := conveys_bool rfl answers_bool.mapError
  have h8 := conveys_list (l := l) (n := tagSubReqDataVersionFilters)
    (fun filters => ⟨{ r with dataVersionFilters := filters }, subscribeSeen⟩)
    (fun f (_ : f ∈ r.dataVersionFilters) => packsAny_dataVersionFilter f) rfl rfl
  have h9 := conveys_revision (l := l) (s := ⟨r, subscribeSeen⟩) rfl rfl
  exact (h1.andThen (h2.andThen (h3.andThen (h4.andThen (h5.andThen (h6.andThen (h7.andThen
    (h8.andThen h9.last)))))))).packs (.inl rfl) rfl rfl readable_anonymous

/-! ## Write requests -/

section Write

variable {V : Type} {writer : AttributeValueWriter V} {read : AttributeValueReader E V}

/-- The value of an attribute is read by the reader that is plugged in. -/
theorem attributeDataField_value (w : AttributeWrite V) (htag : el.tag = contextTag tagAttributeDataValue) :
    attributeDataField (some read) el w =
      ((read w.path el).mapError (.wrap .invalidWriteRequest "value" ∘ .reader) >>= fun v =>
        pure { w with value := v } : Decode E (AttributeWrite V)) := by
  cases el
  cases htag
  rfl

theorem packsAny_attributeWrite {w : AttributeWrite V} (hp : attributePathGuarded w.path = true)
    (hz : appendsAtNull w.path = true) (hd : guards w.hasDataVersion w.dataVersion = true)
    (hv : InvertsValue writer read w.path w.value) :
    PacksAny (readAttributeData (some read)) .struct (marshalAttributeData writer · w) w := by
  let l := attributeDataLoop (some read)
  obtain ⟨el, inner, htag, hend, hwrites, hread⟩ := hv
  have h1 := conveys_optField (l := l) (n := tagAttributeDataDataVersion)
    (fun h v => { dataVersion := v, hasDataVersion := h }) hd rfl (answers_uint (by decide)).mapError
  have h2 : Conveys l
      (marshalAttributePath w.path · (contextTag tagAttributeDataPath))
      { dataVersion := w.dataVersion, hasDataVersion := w.hasDataVersion } { w with value := {} } :=
    ((packs_attributePath hp hz).1 _ (readable_context _)).conveys (g := fun p => { w with path := p, value := {} }) rfl rfl
  have h3 : Conveys l (writer · (contextTag tagAttributeDataValue) w.value)
      { w with value := {} } w := by
    refine conveys_member hwrites hend ?_
    show Answers (attributeDataField (some read) el { w with value := {} }) inner (.ok w)
    rw [attributeDataField_value _ htag]
    exact hread.mapError.bind_pure
  exact (h1.andThen (h2.andThen h3.last)).packsAny (.inl rfl) rfl rfl

theorem packs_writeRequest {r : WriteRequest V} (hg : writeGuarded r = true)
    (hz : ∀ w ∈ r.writes, appendsAtNull w.path = true)
    (hv : ∀ w ∈ r.writes, InvertsValue writer read w.path w.value) :
    Packs ((writeRequestLoop (some read)).parser {}) .struct anonymousTag (r.marshalTLV writer) r := by
  let l := writeRequestLoop (some read)
  simp only [writeGuarded, List.all_eq_true, Bool.and_eq_true] at hg
  have h1 : Conveys l
      (putIf r.suppressResponse (·.putBool (contextTag tagWriteReqSuppressResponse) true)) {}
      { suppressResponse := r.suppressResponse } :=
    conveys_flag (fun h => ({ suppressResponse := h } : WriteRequest V)) rfl answers_pure
  have h2 : Conveys l (·.putBool (contextTag tagWriteReqTimedRequest) r.timedRequest)
      { suppressResponse := r.suppressResponse }
      { suppressResponse := r.suppressResponse, timedRequest := r.timedRequest } :=
    conveys_bool rfl answers_pure
  have h3 := (packs_items tagWriteReqWriteRequests fun w hw =>
    packsAny_attributeWrite (hg w hw).1 (hz w hw) (hg w hw).2 (hv w hw)).conveys (l := l)
    (s := { suppressResponse := r.suppressResponse, timedRequest := r.timedRequest })
    rfl rfl
  have h4 : Conveys l (·.putBool (contextTag tagWriteReqMoreChunked) r.moreChunkedMessages)
      { r with moreChunkedMessages := false } r := conveys_bool rfl answers_pure
  have h5 := conveys_revision (l := l) (s := r) rfl rfl
  have h : Packs (l.parser {}) .struct anonymousTag _ r :=
    (h1.andThen (h2.andThen (h3.andThen (h4.andThen h5.last)))).packs (.inl rfl) rfl rfl readable_anonymous
  refine cast (congrArg (Packs _ _ _ · _) (funext fun enc => ?_)) h
  simp only [WriteRequest.marshalTLV, putRevision, Encoder.startStruct, Encoder.startArray, bind_assoc, pure_bind]

end Write

/-! ## Invoke requests -/

section Invoke

variable {F : Type} {writer : CommandFieldsWriter F} {read : CommandFieldsReader E F}

/-- The fields of a command, in a structure, are read by the reader that is
plugged in. -/
theorem commandInvocationField_fields (inv : CommandInvocation F) (htag : el.tag = contextTag tagCmdDataFields)
    (hc : el.isContainer = true) (ht : el.type = .struct) :
    commandInvocationField (some read) el inv =
      ((read inv.path el).mapError Empty.elim >>= afterFields el inv : Decode E (CommandInvocation F)) := by
  cases el
  cases htag
  cases hc
  cases ht
  rfl

theorem packsAny_command {inv : CommandInvocation F} (hp : commandPathGuarded inv.path = true)
    (hs : commandSent inv = true) (hr : guards inv.hasCommandRef inv.commandRef = true) (hc : el.isContainer = true)
    (ht : el.type = .struct) (hf : InvertsFields writer read inv.path inv.fields el) :
    PacksAny (readCommandInvocation (some read)) .struct (marshalCommandData writer · inv) inv := by
  let l := commandInvocationLoop (some read)
  obtain ⟨htag, hend, inner, hwrites, hread⟩ := hf
  simp only [commandSent, Bool.and_eq_true, beq_iff_eq] at hs
  obtain ⟨⟨hcluster, hcommand⟩, hstatus⟩ := hs
  have h1 : Conveys l (inv.path.marshalTLV · (contextTag tagCmdDataPath)) {}
      { path := inv.path } :=
    (packs_commandPath hp hcluster hcommand (readable_context _)).conveys
      (g := fun p => ({ path := p } : CommandInvocation F)) rfl rfl
  have h2 : Conveys l (writer · (contextTag tagCmdDataFields) inv.fields)
      { path := inv.path } { path := inv.path, fields := inv.fields } := by
    refine conveys_member hwrites hend ?_
    show Answers (commandInvocationField (some read) el { path := inv.path }) inner _
    rw [commandInvocationField_fields _ htag hc ht]
    have h : Answers ((read inv.path el).mapError Empty.elim >>= afterFields el { path := inv.path }) (inner ++ [])
        (.ok { path := inv.path, fields := inv.fields }) := hread.mapError.bind answers_pure
    rwa [List.append_nil] at h
  have h3 := conveys_optField (l := l) (n := tagCmdDataRef)
    (fun h v => { inv with commandRef := v, hasCommandRef := h, decodeStatus := StatusCode.success }) hr rfl
    (answers_uint (by decide)).mapError
  have h := (h1.andThen (h2.andThen h3.last)).packsAny (.inl rfl) rfl rfl
  cases inv
  cases hstatus
  exact h

theorem answers_delayReport {n : BitVec 8} (hn : ¬ 1 < (n.setWidth 32).toNat) (v : BitVec 16) (d : DelayReportData) :
    Answers (Parser.ofExcept (delayReportValue (fieldElement n v) d) : Decode E DelayReportData) []
      (.ok (if n.setWidth 32 = (0 : BitVec 32) then { d with delayMinMs := v }
        else { d with delayJitterWindowMs := v })) := by
  have hv : ¬ 0xFFFF < (fieldElement n v).uint.toNat := by
    rw [toNat_fieldElement (by decide)]
    omega
  unfold delayReportValue
  rw [if_neg (by simpa [fieldElement, uintElement, contextTag] using hn),
    if_neg (by simp [isUnsigned_fieldElement]), if_neg hv, setWidth_fieldElement (by decide), apply_ite Except.ok]
  exact answers_ofExcept _

theorem conveys_delayReport (d : Option DelayReportData) {req : InvokeRequest F} (hd : req.delayReportData = none) :
    Conveys (invokeRequestLoop (some read)) (marshalDelayReportData · d) req { req with delayReportData := d } := by
  cases d with
  | none =>
    cases req
    cases hd
    exact conveys_nothing
  | some d =>
    have h1 : Conveys (delayReportDataLoop (E := E)) (putField · 0 d.delayMinMs) {} { delayMinMs := d.delayMinMs } :=
      conveys_field rfl (answers_pure.bind (answers_delayReport (by decide) d.delayMinMs {}))
    have h2 : Conveys (delayReportDataLoop (E := E)) (putField · 1 d.delayJitterWindowMs) { delayMinMs := d.delayMinMs } d :=
      conveys_field rfl (answers_pure.bind (answers_delayReport (by decide) d.delayJitterWindowMs _))
    have h := (h1.andThen h2.last).packs (.inl rfl) rfl rfl
      (readable_context tagInvokeReqDelayReportData)
    exact h.conveys (s := req)
      (g := fun d => { req with delayReportData := some d }) rfl rfl

theorem packs_invokeRequest {r : InvokeRequest F} (hg : invokeGuarded r = true)
    (hs : ∀ inv ∈ r.invokes, commandSent inv = true) (hrev : r.interactionModelRevision ≠ 0)
    (hf : ∀ inv ∈ r.invokes, ∃ el, el.isContainer = true ∧ el.type = .struct ∧
      InvertsFields writer read inv.path inv.fields el) :
    Packs ((invokeRequestLoop (some read)).parser {}) .struct anonymousTag (marshalInvokeRequestTLV writer · r) r := by
  let l := invokeRequestLoop (some read)
  simp only [invokeGuarded, List.all_eq_true, Bool.and_eq_true] at hg
  have hcommands : ∀ inv ∈ r.invokes,
      PacksAny (readCommandInvocation (some read)) .struct (marshalCommandData writer · inv) inv := by
    intro inv hinv
    obtain ⟨el, hc, ht, hfields⟩ := hf inv hinv
    exact packsAny_command (hg inv hinv).1 (hs inv hinv) (hg inv hinv).2 hc ht hfields
  have h1 : Conveys l
      (·.putBool (contextTag tagInvokeReqSuppressResponse) r.suppressResponse) {}
      { suppressResponse := r.suppressResponse } := by
    cases r.suppressResponse <;> exact conveys_bool rfl answers_pure
  have h2 : Conveys l (·.putBool (contextTag tagInvokeReqTimedRequest) r.timedRequest)
      { suppressResponse := r.suppressResponse }
      { suppressResponse := r.suppressResponse, timedRequest := r.timedRequest } :=
    conveys_bool rfl answers_pure
  have h3 := (packs_items tagInvokeReqInvokeRequests hcommands).conveys (l := l)
    (s := { suppressResponse := r.suppressResponse, timedRequest := r.timedRequest })
    rfl rfl
  have h4 : Conveys l (marshalDelayReportData · r.delayReportData)
      { r with delayReportData := none, interactionModelRevision := 0 } { r with interactionModelRevision := 0 } :=
    conveys_delayReport r.delayReportData rfl
  have h5 : Conveys l (putField · tagInteractionModelRevision r.interactionModelRevision)
      { r with interactionModelRevision := 0 } r := by
    have hv : (isUnsigned (fieldElement tagInteractionModelRevision r.interactionModelRevision) &&
        decide ((fieldElement tagInteractionModelRevision r.interactionModelRevision).uint.toNat ≤ 0xFF)) = true := by
      rw [isUnsigned_fieldElement, Bool.true_and, decide_eq_true_iff, toNat_fieldElement (by decide)]
      omega
    refine conveys_field rfl ?_
    show Answers (if _ then pure { r with interactionModelRevision := BitVec.setWidth 8 _ } else _ :
      Decode E (InvokeRequest F)) [] (.ok r)
    rw [if_pos hv, setWidth_fieldElement (by decide)]
    exact answers_pure
  have h : Packs (l.parser {}) .struct anonymousTag _ r :=
    (h1.andThen (h2.andThen (h3.andThen (h4.andThen h5.last)))).packs (.inl rfl) rfl rfl readable_anonymous
  refine cast (congrArg (Packs _ _ _ · _) (funext fun enc => ?_)) h
  simp only [marshalInvokeRequestTLV, putRevision, Encoder.startStruct, Encoder.startArray, bind_assoc, pure_bind,
    if_neg hrev]

end Invoke

/-! ## Requests -/

section Requests

variable {V F : Type}

/-- A message that is written as a structure, and whose members are read back. -/
theorem roundTrips_of {read : AttributeValueReader E V} {fieldsRead : CommandFieldsReader E F} {k : Request}
    {put : Encoder → Option Encoder} {v : k.block.Result V F}
    (h : Packs (body (some read) (some fieldsRead) k.block) .struct anonymousTag put v) :
    RoundTrips put (k.decode (some read) (some fieldsRead)) v := by
  obtain ⟨els, hw, hr⟩ := h
  obtain ⟨enc, bs, hput, hbytes, helements⟩ := hw.elements
  refine ⟨enc, bs, hput, hbytes, ?_⟩
  have hopen : (k.unmarshal (some read) (some fieldsRead)).run (opening :: (els ++ [endElement])) =
      (body (some read) (some fieldsRead) k.block).run (els ++ [endElement]) := by
    cases k <;> rfl
  have hrun := hr []
  rw [List.append_nil] at hrun
  unfold Request.decode
  rw [helements]
  show ((k.unmarshal (some read) (some fieldsRead)).run (opening :: (els ++ [endElement]))).map Prod.fst = _
  rw [hopen, hrun]
  rfl

/-- Requests come back from the wire: has-flags that are not set guard zeros,
appends have no index, commands are as a client sends them, and the readers
that are plugged in invert the writers. -/
theorem requests_round_trip (writer : AttributeValueWriter V) (read : AttributeValueReader E V)
    (fieldsWriter : CommandFieldsWriter F) (fieldsRead : CommandFieldsReader E F) :
    (∀ r : ReadRequest, readGuarded r = true → r.attributeRequests.all appendsAtNull = true →
      RoundTrips r.marshalTLV (Request.decode (some read) (some fieldsRead) .read) r) ∧
    (∀ r : SubscribeRequest, subscribeGuarded r = true → r.attributeRequests.all appendsAtNull = true →
      RoundTrips r.marshalTLV (Request.decode (some read) (some fieldsRead) .subscribe) r) ∧
    (∀ r : WriteRequest V, writeGuarded r = true → (∀ w ∈ r.writes, appendsAtNull w.path = true) →
      (∀ w ∈ r.writes, InvertsValue writer read w.path w.value) →
      RoundTrips (r.marshalTLV writer) (Request.decode (some read) (some fieldsRead) .write) r) ∧
    (∀ r : InvokeRequest F, invokeGuarded r = true → (∀ inv ∈ r.invokes, commandSent inv = true) →
      r.interactionModelRevision ≠ 0 →
      (∀ inv ∈ r.invokes, ∃ el, el.isContainer = true ∧ el.type = .struct ∧
        InvertsFields fieldsWriter fieldsRead inv.path inv.fields el) →
      RoundTrips (marshalInvokeRequestTLV fieldsWriter · r) (Request.decode (some read) (some fieldsRead) .invoke) r) := by
  refine ⟨fun r hg hz => ?_, fun r hg hz => ?_, fun r hg hz hv => ?_, fun r hg hs hrev hf => ?_⟩
  · exact roundTrips_of (packs_readRequest hg hz)
  · exact roundTrips_of (packs_subscribeRequest hg hz)
  · exact roundTrips_of (packs_writeRequest hg hz hv)
  · exact roundTrips_of (packs_invokeRequest hg hs hrev hf)

end Requests

def numberWriter : AttributeValueWriter (BitVec 64) := fun enc tag v => enc.putUint tag (v.value.getD 0)

def emptyFieldsWriter : CommandFieldsWriter Unit := fun enc tag _ => do
  let enc ← enc.startStruct tag
  pure enc.endContainer.2

theorem invertsValue_number (path : ConcreteAttributePath) (v : BitVec 64) :
    InvertsValue numberWriter numberReader path { value := some v } :=
  ⟨uintElement (contextTag tagAttributeDataValue) v, [], rfl, rfl,
    ⟨_, appends_putUint (contextTag tagAttributeDataValue) v, spells_uint (readable_context _) v⟩, answers_pure⟩

theorem invertsFields_empty (path : ConcreteCommandPath) :
    InvertsFields emptyFieldsWriter emptyFieldsReader path (some ())
      (openElement .struct (contextTag tagCmdDataFields)) := by
  have hends : Ends (fun enc : Encoder => some enc.endContainer.2) [] :=
    ⟨[], fun e _ => by rw [append_nil]; rfl, .nil⟩
  have hskip : Answers (containers.skip (⟨(), none, false⟩ : FieldsReject Unit)) ([] ++ [endElement]) (.ok ()) :=
    Brackets.answers_skip .nil rfl rfl
  exact ⟨rfl, rfl, [endElement], writes_container (.inl rfl) (readable_context _) hends, (hskip.bind_pure).attempt⟩

/-- A subscription to one list, a write of two numbers and an invocation with a
structure of fields come back. -/
theorem requests_round_trip_sample :
    let subscribe : SubscribeRequest :=
      { maxIntervalCeiling := 300, fabricFiltered := true,
        attributeRequests := [{ cluster := 0x1F, hasCluster := true, hasListIndex := true, listAppend := true }],
        dataVersionFilters := [⟨1, 6, 7⟩] }
    let write : WriteRequest (BitVec 64) :=
      { writes := [{ path := { endpoint := 1, hasEndpoint := true }, value := { value := some 70000 } },
                   { value := { value := some 1 }, dataVersion := 9, hasDataVersion := true }] }
    let invoke : InvokeRequest Unit :=
      { invokes := [{ path := { cluster := 6, hasCluster := true, command := 2, hasCommand := true },
                      fields := some (), commandRef := 1, hasCommandRef := true }],
        delayReportData := some { delayMinMs := 5 }, interactionModelRevision := 12 }
    RoundTrips subscribe.marshalTLV (Request.decode (some numberReader) (some emptyFieldsReader) .subscribe) subscribe ∧
      RoundTrips (write.marshalTLV numberWriter) (Request.decode (some numberReader) (some emptyFieldsReader) .write)
        write ∧
      RoundTrips (marshalInvokeRequestTLV emptyFieldsWriter · invoke)
        (Request.decode (some numberReader) (some emptyFieldsReader) .invoke) invoke := by
  have h := requests_round_trip numberWriter numberReader emptyFieldsWriter emptyFieldsReader
  refine ⟨h.2.1 _ (by decide) (by decide), h.2.2.1 _ (by decide) (by decide) ?_,
    h.2.2.2 _ (by decide) (by decide) (by decide) ?_⟩
  · simp [invertsValue_number]
  · intro inv hinv
    obtain rfl := List.mem_singleton.1 hinv
    exact ⟨_, rfl, rfl, invertsFields_empty _⟩

def numberFieldsWriter : CommandFieldsWriter (BitVec 64) := fun enc tag f => enc.putUint tag (f.getD 0)

def numberFieldsReader : CommandFieldsReader Unit (BitVec 64) := fun _ el => pure (.ok (some el.uint))

/-- What is lost on the wire, with readers that invert the writers: the index of
an append, the revision zero, a command path without its flags, and fields that
are no structure. -/
theorem requests_changed_on_the_wire :
    let append : ReadRequest :=
      { attributeRequests := [{ listIndex := 7, hasListIndex := true, listAppend := true }] }
    let append' : ReadRequest := { attributeRequests := [{ hasListIndex := true, listAppend := true }] }
    let unversioned : InvokeRequest (BitVec 64) := {}
    let unversioned' : InvokeRequest (BitVec 64) := { interactionModelRevision := 12 }
    let named : ConcreteCommandPath := { hasCluster := true, hasCommand := true }
    let unnamed : InvokeRequest Unit := { invokes := [{ fields := some () }], interactionModelRevision := 12 }
    let unnamed' : InvokeRequest Unit :=
      { invokes := [{ path := named, fields := some () }], interactionModelRevision := 12 }
    let number : InvokeRequest (BitVec 64) :=
      { invokes := [{ path := named, fields := some 5 }], interactionModelRevision := 12 }
    let number' : InvokeRequest (BitVec 64) :=
      { invokes := [{ path := named, decodeStatus := StatusCode.invalidCommand }], interactionModelRevision := 12 }
    (readGuarded append = true ∧ append' ≠ append ∧
      RoundTrips append.marshalTLV (Request.decode (some numberReader) (some emptyFieldsReader) .read) append') ∧
    (invokeGuarded unversioned = true ∧ unversioned' ≠ unversioned ∧
      RoundTrips (marshalInvokeRequestTLV numberFieldsWriter · unversioned)
        (Request.decode (some numberReader) (some numberFieldsReader) .invoke) unversioned') ∧
    (invokeGuarded unnamed = true ∧ unnamed' ≠ unnamed ∧
      InvertsFields emptyFieldsWriter emptyFieldsReader {} (some ()) (openElement .struct (contextTag tagCmdDataFields)) ∧
      RoundTrips (marshalInvokeRequestTLV emptyFieldsWriter · unnamed)
        (Request.decode (some numberReader) (some emptyFieldsReader) .invoke) unnamed') ∧
    (invokeGuarded number = true ∧ number' ≠ number ∧
      InvertsFields numberFieldsWriter numberFieldsReader named (some 5) (uintElement (contextTag tagCmdDataFields) 5) ∧
      RoundTrips (marshalInvokeRequestTLV numberFieldsWriter · number)
        (Request.decode (some numberReader) (some numberFieldsReader) .invoke) number') := by
  refine ⟨⟨by decide, by decide, _, _, rfl, rfl, rfl⟩, ⟨by decide, by decide, _, _, rfl, rfl, rfl⟩,
    ⟨by decide, by decide, invertsFields_empty _, _, _, rfl, rfl, rfl⟩, ⟨by decide, by decide, ?_, _, _, rfl, rfl, rfl⟩⟩
  exact ⟨rfl, rfl, [], ⟨_, appends_putUint (contextTag tagCmdDataFields) 5, spells_uint (readable_context _) 5⟩, answers_pure⟩

end GF.Proof.Im
