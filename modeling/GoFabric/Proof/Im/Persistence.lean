import GoFabric.Spec.PersistedSubscription

/-!
# A persisted subscription comes back

The shape of a record keeps the values behind set flags, whole seconds and whole
milliseconds, and reads back as the record with what it has no member for
cleared (`unmarshal_marshal`). So a record survives exactly when nothing was
there to clear.
-/

namespace GF.Proof.Im

open GF.Impl.Im GF.Spec.PersistedSubscription
open GF.Impl.Im.Wire (ConcreteEventPath)

/-! ## One field -/

theorem valOf_ptrIf {n : Nat} (has : Bool) (v : BitVec n) : valOf (ptrIf has v) = (shown has v, has) := by
  cases has <;> rfl

theorem shown_shown {n : Nat} (has : Bool) (v : BitVec n) : shown has (shown has v) = shown has v := by
  cases has <;> rfl

theorem secondsOf_seconds {E : Type} (field : String) (s : BitVec 16) :
    secondsOf (E := E) field (s.toNat * msPerSecond) = .ok s := by
  have hdiv : ((s.toNat : Int) * msPerSecond).tdiv msPerSecond = s.toNat := Int.mul_tdiv_cancel _ (by decide)
  rw [secondsOf, hdiv, if_neg]
  · rw [BitVec.ofInt_natCast, BitVec.ofNat_toNat, BitVec.setWidth_eq]
  · simp only [msPerSecond]
    omega

/-! ## The record read back -/

/-- An attribute path, without what its shape has no member for. -/
def keptAttributePath (a : ConcreteAttributePath) : ConcreteAttributePath :=
  { seenAttributePath a with
    listAppend := false
    wildcardPathFlags := 0
    wildcardFilterConfigurationVersion := 0
    hasWildcardFilterConfigurationVersion := false }

theorem attributePathOf_wire (a : ConcreteAttributePath) : attributePathOf (attributePathWire a) = keptAttributePath a := by
  simp only [attributePathOf, attributePathWire, valOf_ptrIf]
  rfl

theorem eventPathOf_wire (e : ConcreteEventPath) : eventPathOf (eventPathWire e) = seenEventPath e := by
  simp only [eventPathOf, eventPathWire, valOf_ptrIf]
  rfl

/-- What a record is read back as. -/
def keptSubscription (p : PeerSubscription) : PeerSubscription :=
  { p with
    attributeRequests := p.attributeRequests.map keptAttributePath
    eventRequests := p.eventRequests.map seenEventPath
    sendInterval := p.sendInterval.tdiv millisecond * millisecond }

theorem unmarshal_marshal {T E : Type} {json : JsonCodec T E} (faithful : Faithful json) (p : PeerSubscription) :
    ∃ text, marshalPeerSubscription json p = .ok text ∧
      unmarshalPeerSubscription json text = .ok (keptSubscription p) := by
  obtain ⟨text, hmarshal, hunmarshal⟩ := faithful (peerSubscriptionWire p)
  refine ⟨text, hmarshal, ?_⟩
  have hattr : attributePathOf ∘ attributePathWire = keptAttributePath := funext attributePathOf_wire
  have hevent : eventPathOf ∘ eventPathWire = seenEventPath := funext eventPathOf_wire
  simp only [unmarshalPeerSubscription, hunmarshal, Except.mapError, bind, Except.bind, peerSubscriptionWire, secondsOf_seconds, List.map_map, hattr, hevent]
  rfl

/-! ## What survives -/

theorem seenAttributePath_kept_iff (a : ConcreteAttributePath) :
    seenAttributePath (keptAttributePath a) = seenAttributePath a ↔ Kept a := by
  simp only [keptAttributePath, seenAttributePath, shown_shown, ConcreteAttributePath.mk.injEq, true_and]
  constructor
  · rintro ⟨happend, hflags, -, hhas⟩
    exact ⟨hflags.symm, hhas.symm, happend.symm⟩
  rintro ⟨hflags, hhas, happend⟩
  refine ⟨happend.symm, hflags.symm, ?_, hhas.symm⟩
  rw [hhas]
  rfl

theorem seenEventPath_seen (e : ConcreteEventPath) : seenEventPath (seenEventPath e) = seenEventPath e := by
  simp only [seenEventPath, shown_shown]

theorem tdiv_mul_millisecond_iff (d : Int) : d.tdiv millisecond * millisecond = d ↔ millisecond ∣ d := by
  constructor
  · intro h
    exact ⟨d.tdiv millisecond, by rw [Int.mul_comm, h]⟩
  · exact Int.tdiv_mul_cancel

theorem same_kept_iff (p : PeerSubscription) :
    SameSubscription (keptSubscription p) p ↔ (∀ a ∈ p.attributeRequests, Kept a) ∧ millisecond ∣ p.sendInterval := by
  have hevent : seenEventPath ∘ seenEventPath = seenEventPath := funext seenEventPath_seen
  simp [SameSubscription, seen, keptSubscription, hevent, seenAttributePath_kept_iff, tdiv_mul_millisecond_iff]

/-- A record survives a restart exactly when its attribute paths have no
wildcard path flags, no wildcard filter configuration version and no list
append, and its send interval is in whole milliseconds. -/
theorem persisted_subscription_survives_iff {T E : Type} {json : JsonCodec T E} (faithful : Faithful json)
    (p : PeerSubscription) :
    Survives json p ↔ (∀ a ∈ p.attributeRequests, Kept a) ∧ millisecond ∣ p.sendInterval := by
  obtain ⟨text, hmarshal, hunmarshal⟩ := unmarshal_marshal faithful p
  rw [← same_kept_iff]
  constructor
  · rintro ⟨text', q, hm, hu, hsame⟩
    obtain rfl := Except.ok.inj (hmarshal.symm.trans hm)
    obtain rfl := Except.ok.inj (hunmarshal.symm.trans hu)
    exact hsame
  · intro hsame
    exact ⟨text, keptSubscription p, hmarshal, hunmarshal, hsame⟩

/-- A library whose texts are the shapes themselves. -/
def shapeCodec : JsonCodec PeerSubscriptionWire Unit := { marshal := .ok, unmarshal := .ok }

theorem faithful_shapeCodec : Faithful shapeCodec := fun w => ⟨w, rfl, rfl⟩

/-- The subscription of a controller to all attributes of one cluster, and to
its urgent events. -/
def wildcardSubscription (flags : BitVec 32) : PeerSubscription :=
  { subscriptionID := 7, fabricIndex := 1, peerNodeID := 0x1122
    attributeRequests := [{ cluster := 6, hasCluster := true, wildcardPathFlags := flags }]
    eventRequests := [{ cluster := 6, hasCluster := true, isUrgent := true }]
    isFabricFiltered := true, minIntervalFloor := 1, maxIntervalCeiling := 60, maxInterval := 60
    sendInterval := 48 * second }

theorem persisted_subscription_survives_plain : Survives shapeCodec (wildcardSubscription 0) :=
  (persisted_subscription_survives_iff faithful_shapeCodec (wildcardSubscription 0)).2 (by decide)

/-- A subscription that skips the root node comes back without its flags. -/
theorem persisted_subscription_forgets_flags : Faithful shapeCodec ∧ ¬Survives shapeCodec (wildcardSubscription 1) := by
  refine ⟨faithful_shapeCodec, ?_⟩
  rintro ⟨text, q, hm, hu, hsame⟩
  obtain rfl := Except.ok.inj hm
  obtain rfl := Except.ok.inj hu
  revert hsame
  decide

end GF.Proof.Im
