import GoFabric.Framework.Except
import GoFabric.Proof.Im.Marshal
import GoFabric.Spec.ReportChunks

/-!
# The sizes of report chunks

Every chunk that is being filled fits its limits (`Sound`): an entry alone is
capped before it is placed, and a chunk with an entry more is within the
budget or is not made. The flags are set afterwards. `SuppressResponse` is
written either way, so it changes no size; `MoreChunkedMessages` is written
only when it is set, and was not measured.

* `chunks_within_limits`: without that flag, of two bytes, every chunk is within its
  limits, and the last one also as it is returned.
-/

namespace GF.Proof.Bridge

open GF.Impl.Tlv GF.Impl.Im.Wire GF.Impl.Bridge GF.Proof.Tlv GF.Proof.Im GF.Spec.ReportChunks List Option Except
open GF.Impl.Im (StatusCode)

variable {O : Type} (writeOther : Encoder → Tag → O → Option Encoder) {w : Encoder → Tag → O → Option Encoder}
  {rd candidate alone : ReportData (GoValue O)} {body : List Byte} {rep : AttributeReport (GoValue O)}
  {ev : EventReport (GoValue O)} {depth : Nat}

/-! ## Encodings -/

theorem encodeReportData_eq_pure :
    encodeReportData w rd = pure body ↔
      ∃ e, rd.marshalTLV (defaultAttributeValueWriter w) Encoder.new = some e ∧ e.bytes = .ok body := by
  unfold encodeReportData
  constructor
  · intro h
    obtain ⟨e, he, hb⟩ := map_eq_some_iff.mp h
    refine ⟨e, he, ?_⟩
    cases hbytes : e.bytes with
    | error err =>
      rw [hbytes] at hb
      cases hb
    | ok bs =>
      rw [hbytes] at hb
      exact congrArg ok (ok.inj hb)
  · rintro ⟨e, he, hb⟩
    rw [he]
    show some (e.bytes.mapError _) = _
    rw [hb]
    rfl

theorem length_flagsWire (more suppress : Bool) : (flagsWire more suppress).length = 5 + 2 * more.toNat := by
  cases more <;> cases suppress <;> rfl

/-- Inside an array the flags cannot be written. -/
theorem marshalFlags_eq_none {V : Type} (rd : ReportData V) {e : Encoder}
    (he : e.containerStack.head? = some .array) : rd.marshalFlags e = none := by
  have hbool : ∀ tag v, e.putBool (contextTag tag) v = none := fun tag v => if_pos ⟨he, rfl⟩
  unfold ReportData.marshalFlags
  cases rd.moreChunkedMessages with
  | true =>
    show (e.putBool _ true).bind _ = none
    rw [hbool]
    rfl
  | false =>
    show (e.putBool _ _).bind _ = none
    rw [hbool]
    rfl

/-- The encoding of a report is that of its entries, and its flags. -/
theorem encode_split (h : encodeReportData w rd = pure body) :
    ∃ e, rd.marshalReports (defaultAttributeValueWriter w) Encoder.new = some e ∧
      e.containerStack.head? ≠ some .array ∧
      (closed (e.append (flagsWire rd.moreChunkedMessages rd.suppressResponse))).bytes = .ok body := by
  obtain ⟨e', he', hbytes⟩ := encodeReportData_eq_pure.mp h
  obtain ⟨e, he, hflags⟩ := bind_eq_some_iff.mp he'
  have harray : e.containerStack.head? ≠ some .array := by
    intro hc
    rw [marshalFlags_eq_none rd hc] at hflags
    exact absurd hflags (some_ne_none _).symm
  refine ⟨e, he, harray, ?_⟩
  rw [finishes_flags rd e harray] at hflags
  rw [some.inj hflags]
  exact hbytes

/-- Other bytes at the end change the length of an encoding by theirs. -/
theorem bytes_closed_append {e : Encoder} {bs : List Byte} (bs' : List Byte)
    (h : (closed (e.append bs)).bytes = .ok body) :
    ∃ body', (closed (e.append bs')).bytes = .ok body' ∧ body'.length + bs.length = body.length + bs'.length := by
  unfold closed Encoder.endContainer Encoder.bytes at h ⊢
  by_cases hopen : e.openCont = 0
  · simp only [openCont_append, hopen, ↓reduceIte, ne_eq, not_true_eq_false, ok.injEq] at h ⊢
    exact ⟨_, rfl, by rw [← h]; simp [Encoder.append]; omega⟩
  simp only [openCont_append, hopen, ↓reduceIte] at h ⊢
  split at h <;> [cases h; skip]
  rename_i hone
  rw [if_neg hone]
  exact ⟨_, rfl, by rw [← ok.inj h]; simp [Encoder.append]; omega⟩

/-- Of the flags, only `MoreChunkedMessages` changes the size of a report. -/
theorem encode_flags (more suppress : Bool) (h : encodeReportData w rd = pure body) :
    ∃ body', encodeReportData w { rd with moreChunkedMessages := more, suppressResponse := suppress } = pure body' ∧
      body'.length + 2 * rd.moreChunkedMessages.toNat = body.length + 2 * more.toNat := by
  obtain ⟨e, he, harray, hbytes⟩ := encode_split h
  obtain ⟨body', hbytes', hlen⟩ := bytes_closed_append (flagsWire more suppress) hbytes
  simp only [length_flagsWire] at hlen
  refine ⟨body', encodeReportData_eq_pure.mpr ⟨_, ?_, hbytes'⟩, by omega⟩
  refine bind_eq_some_iff.mpr ⟨e, he, ?_⟩
  exact finishes_flags { rd with moreChunkedMessages := more, suppressResponse := suppress } e harray

/-! ## Entries alone -/

/-- A chunk that is within its limits, with no flag set. -/
structure Fits (budget hardCap : Nat) (c : ReportData (GoValue O)) : Prop where
  more : c.moreChunkedMessages = false
  suppress : c.suppressResponse = false
  limits : ∃ body, encodeReportData writeOther c = pure body ∧ WithinLimits budget hardCap body.length c

theorem encode_statuses (rd : ReportData (GoValue O)) (hreports : ∀ rep ∈ rd.reports, rep.isStatus = true)
    (hevents : ∀ ev ∈ rd.eventReports, ev.isStatus = true) : ∃ body, encodeReportData w rd = pure body := by
  have happ : AppendsAny (rd.marshalTLV (defaultAttributeValueWriter w)) _ := appendsAny_reportData _
    (fun rep => attributeReportWire rep []) (fun ev => eventReportWire ev [])
    (fun rep hrep => appendsAny_attributeReport _ fun hs => absurd ((hreports rep hrep).symm.trans hs) (by decide))
    (fun ev hev => appendsAny_eventReport _ fun hs => absurd ((hevents ev hev).symm.trans hs) (by decide))
  exact ⟨_, encodeReportData_eq_pure.mpr ⟨_, happ Encoder.new, rfl⟩⟩

/-- What is left of an attribute's report after the cap fits a chunk of its
own. -/
theorem fits_capped {rep' : AttributeReport (GoValue O)} (budget cap : Nat)
    (h : capOversizedAttributeReport w rd rep cap = pure rep') :
    Fits w budget cap { emptyChunk rd with reports := [rep'] } := by
  refine ⟨rfl, rfl, ?_⟩
  by_cases hs : rep'.isStatus = true
  · obtain ⟨body, hbody⟩ := encode_statuses { emptyChunk rd with reports := [rep'] }
      (by simpa using hs) (by simp [emptyChunk])
    exact ⟨body, hbody, .inr ⟨rfl, .inr (by simpa [carriesStatus, emptyChunk] using hs)⟩⟩
  unfold capOversizedAttributeReport at h
  split at h
  · obtain rfl : rep = rep' := ok.inj (some.inj h)
    exact absurd ‹_› hs
  obtain ⟨body, hbody, h⟩ := exceptT_bind_eq_pure.mp h
  split at h
  · obtain rfl : rep = rep' := ok.inj (some.inj h)
    exact ⟨body, hbody, .inr ⟨rfl, .inl ‹_›⟩⟩
  · obtain rfl : attributeStatus rep _ = rep' := ok.inj (some.inj h)
    exact absurd rfl hs

/-- What is left of an event's report after the cap fits a chunk of its own. -/
theorem fits_cappedEvent {ev' : EventReport (GoValue O)} (budget cap : Nat)
    (h : capOversizedEventReport w rd ev cap = pure ev') :
    Fits w budget cap { emptyChunk rd with eventReports := [ev'] } := by
  refine ⟨rfl, rfl, ?_⟩
  by_cases hs : ev'.isStatus = true
  · obtain ⟨body, hbody⟩ := encode_statuses { emptyChunk rd with eventReports := [ev'] }
      (by simp [emptyChunk]) (by simpa using hs)
    exact ⟨body, hbody, .inr ⟨rfl, .inr (by simpa [carriesStatus, emptyChunk] using hs)⟩⟩
  unfold capOversizedEventReport at h
  split at h
  · obtain rfl : ev = ev' := ok.inj (some.inj h)
    exact absurd ‹_› hs
  obtain ⟨body, hbody, h⟩ := exceptT_bind_eq_pure.mp h
  split at h
  · obtain rfl : ev = ev' := ok.inj (some.inj h)
    exact ⟨body, hbody, .inr ⟨rfl, .inl ‹_›⟩⟩
  · obtain rfl : { path := ev.path, isStatus := true, status := _ } = ev' := ok.inj (some.inj h)
    exact absurd rfl hs

/-! ## Filling -/

/-- The chunks of a filling are within their limits, and so is the chunk that is
being filled, once it has an entry. -/
structure Sound (rd : ReportData (GoValue O)) (budget hardCap : Nat) (s : Filling O) : Prop where
  chunks : ∀ c ∈ s.chunks, Fits writeOther budget hardCap c
  current : hasEntries s.current = true → Fits writeOther budget hardCap s.current
  fresh : hasEntries s.current = false → s.current = emptyChunk rd

section Filling

variable {budget cap : Nat} {s s' : Filling O}

section

variable (h : Sound w rd budget cap s)
include h

theorem Sound.flags : s.current.moreChunkedMessages = false ∧ s.current.suppressResponse = false := by
  cases hc : hasEntries s.current with
  | true => exact ⟨(h.current hc).more, (h.current hc).suppress⟩
  | false =>
    rw [h.fresh hc]
    exact ⟨rfl, rfl⟩

theorem Sound.place (hp : place w budget s candidate alone = pure s')
    (hmore : candidate.moreChunkedMessages = s.current.moreChunkedMessages)
    (hsuppress : candidate.suppressResponse = s.current.suppressResponse) (hcandidate : hasEntries candidate = true)
    (hentries : hasEntries alone = true) (halone : s.current = emptyChunk rd → candidate = alone)
    (hfits : Fits w budget cap alone) : Sound w rd budget cap s' := by
  obtain ⟨body, hbody, hp⟩ := exceptT_bind_eq_pure.mp hp
  split at hp
  · rename_i hfull
    obtain rfl := ok.inj (some.inj hp)
    refine ⟨fun c hc => ?_, fun _ => hfits, fun hn => absurd (hentries.symm.trans hn) (by decide)⟩
    rcases mem_append.mp hc with hc | hc
    · exact h.chunks c hc
    · rw [mem_singleton.mp hc]
      exact h.current hfull.2
  · rename_i hroom
    obtain rfl := ok.inj (some.inj hp)
    refine ⟨h.chunks, fun _ => ?_, fun hn => absurd (hcandidate.symm.trans hn) (by decide)⟩
    by_cases hle : body.length ≤ budget
    · exact ⟨hmore.trans h.flags.1, hsuppress.trans h.flags.2, body, hbody, .inl hle⟩
    have hnone : hasEntries s.current = false := by
      cases hc : hasEntries s.current with
      | true => exact absurd ⟨by omega, hc⟩ hroom
      | false => rfl
    show Fits w budget cap candidate
    rw [halone (h.fresh hnone)]
    exact hfits

theorem Sound.addWhole (ha : addWhole w rd budget cap s rep = pure s') : Sound w rd budget cap s' := by
  obtain ⟨rep', hcap, ha⟩ := exceptT_bind_eq_pure.mp ha
  refine h.place ha rfl rfl ?_ rfl (fun hc => ?_) (fits_capped budget cap hcap)
  · simp [hasEntries]
  · rw [hc]
    rfl

theorem Sound.addEventReport (ha : addEventReport w rd budget cap s ev = pure s') : Sound w rd budget cap s' := by
  obtain ⟨ev', hcap, ha⟩ := exceptT_bind_eq_pure.mp ha
  refine h.place ha rfl rfl ?_ rfl (fun hc => ?_) (fits_cappedEvent budget cap hcap)
  · simp [hasEntries]
  · rw [hc]
    rfl

theorem Sound.addAttributeReport (ha : addAttributeReport w rd budget cap depth s rep = pure s') :
    Sound w rd budget cap s' := by
  induction depth generalizing s s' rep with
  | zero => exact h.addWhole ha
  | succ depth ih =>
    obtain ⟨parts, -, ha⟩ := exceptT_bind_eq_pure.mp ha
    cases parts with
    | none => exact h.addWhole ha
    | some parts =>
      obtain ⟨oversized, -, ha⟩ := exceptT_bind_eq_pure.mp ha
      cases oversized with
      | true => exact ih h ha
      | false => exact foldlM_induction _ (fun rep _ s s' hs => ih hs) h ha
end

theorem sound_start : Sound w rd budget cap { chunks := [], current := emptyChunk rd } := by
  refine ⟨fun c hc => absurd hc not_mem_nil, fun h => ?_, fun _ => rfl⟩
  cases h

/-- The chunks of a filling with an entry are within their limits. -/
theorem Sound.finished (h : Sound w rd budget cap s) (hc : hasEntries s.current = true) :
    finished rd s = s.chunks ++ [s.current] ∧ ∀ c ∈ s.chunks ++ [s.current], Fits w budget cap c := by
  constructor
  · unfold GF.Impl.Bridge.finished
    simp [hc]
  intro c hmem
  rcases mem_append.mp hmem with hmem | hmem
  · exact h.chunks c hmem
  · rw [mem_singleton.mp hmem]
    exact h.current hc

end Filling

/-! ## An entry is never dropped -/

section Kept

variable {budget cap : Nat} {s s' : Filling O}

theorem hasEntries_place (hp : place w budget s candidate alone = pure s')
    (hcandidate : hasEntries candidate = true) (halone : hasEntries alone = true) :
    hasEntries s'.current = true := by
  obtain ⟨body, -, hp⟩ := exceptT_bind_eq_pure.mp hp
  split at hp
  · obtain rfl := ok.inj (some.inj hp)
    exact halone
  · obtain rfl := ok.inj (some.inj hp)
    exact hcandidate

theorem hasEntries_addWhole (ha : addWhole w rd budget cap s rep = pure s') : hasEntries s'.current = true := by
  obtain ⟨rep', -, ha⟩ := exceptT_bind_eq_pure.mp ha
  exact hasEntries_place ha (by simp [hasEntries]) rfl

theorem hasEntries_addEventReport (ha : addEventReport w rd budget cap s ev = pure s') :
    hasEntries s'.current = true := by
  obtain ⟨ev', -, ha⟩ := exceptT_bind_eq_pure.mp ha
  exact hasEntries_place ha (by simp [hasEntries]) rfl

theorem splitListAttributeReport_parts {parts : List (AttributeReport (GoValue O))}
    (h : splitListAttributeReport w rd rep budget = some (some parts)) :
    splittable rep = true ∧ ∃ bs members n, encodedValue w rep.value = some (.ok bs) ∧
      splitArrayMembers bs = .ok members ∧ members ≠ [] ∧ parts = listParts rep members n := by
  unfold splitListAttributeReport at h
  split at h <;> [skip; cases h]
  refine ⟨‹_›, ?_⟩
  obtain ⟨size, -, h⟩ := bind_eq_some_iff.mp h
  split at h <;> [cases h; skip]
  obtain ⟨encoded, henc, h⟩ := bind_eq_some_iff.mp h
  split at h <;> [cases h; skip]
  rename_i bs
  split at h
  · cases h
  · cases h
  · rename_i members hne hsplit
    obtain ⟨n, -, h⟩ := bind_eq_some_iff.mp h
    exact ⟨bs, members, n, henc, hsplit, fun hnil => hne hnil, (some.inj (some.inj h)).symm⟩

theorem hasEntries_addAttributeReport (ha : addAttributeReport w rd budget cap depth s rep = pure s') :
    hasEntries s'.current = true := by
  induction depth generalizing s s' rep with
  | zero => exact hasEntries_addWhole ha
  | succ depth ih =>
    obtain ⟨parts, hparts, ha⟩ := exceptT_bind_eq_pure.mp ha
    cases parts with
    | none => exact hasEntries_addWhole ha
    | some parts =>
      obtain ⟨oversized, -, ha⟩ := exceptT_bind_eq_pure.mp ha
      cases oversized with
      | true => exact ih ha
      | false =>
        obtain ⟨-, bs, members, n, -, -, -, rfl⟩ := splitListAttributeReport_parts (exceptT_lift_eq_pure.mp hparts)
        obtain ⟨s1, h1, h2⟩ := exceptT_bind_eq_pure.mp ha
        exact foldlM_induction (fun s => hasEntries s.current = true) (fun _ _ _ _ _ hstep => ih hstep) (ih h1) h2

/-- A filling of all entries has one, unless there were none. -/
theorem hasEntries_of_fill {reports : List (AttributeReport (GoValue O))} {events : List (EventReport (GoValue O))}
    {s1 : Filling O} (h1 : reports.foldlM (addAttributeReport w rd budget cap depth) s = pure s1)
    (h2 : events.foldlM (addEventReport w rd budget cap) s1 = pure s') :
    hasEntries s'.current = true ∨ reports = [] ∧ events = [] := by
  cases events with
  | cons ev events =>
    obtain ⟨s2, hev, h2⟩ := exceptT_bind_eq_pure.mp h2
    exact .inl <| foldlM_induction (fun s => hasEntries s.current = true)
      (fun _ _ _ _ _ hstep => hasEntries_addEventReport hstep) (hasEntries_addEventReport hev) h2
  | nil =>
    obtain rfl : s1 = s' := ok.inj (some.inj h2)
    cases reports with
    | nil => exact .inr ⟨rfl, rfl⟩
    | cons rep reports =>
      obtain ⟨s2, hrep, h1⟩ := exceptT_bind_eq_pure.mp h1
      exact .inl <| foldlM_induction (fun s => hasEntries s.current = true)
        (fun _ _ _ _ _ hstep => hasEntries_addAttributeReport hstep)
        (hasEntries_addAttributeReport hrep) h1

end Kept

/-! ## Chunks -/

theorem setFlags_append (suppress : Bool) (init : List (ReportData (GoValue O))) (last : ReportData (GoValue O)) :
    setFlags suppress (init ++ [last]) = init.map (fun c => { c with moreChunkedMessages := true }) ++
      [if suppress then { last with suppressResponse := true } else last] := by
  induction init with
  | nil => rfl
  | cons c init ih =>
    cases init with
    | nil => rfl
    | cons c' init =>
      show { c with moreChunkedMessages := true } :: setFlags suppress (c' :: init ++ [last]) = _
      rw [ih]
      rfl

/-- Each chunk but the last says that more follow, and no other suppresses the
response. Without that flag, which is set after the sizes were measured and takes
two bytes, a chunk is at most `budget` bytes long unless it carries a single entry,
and then at most `hardCap` unless the entry is a status; the last one is so as it
is returned. A report without entries is returned whatever its size. -/
theorem chunks_within_limits {rd : ReportData (GoValue O)} {budget hardCap : Nat}
    {chunks : List (ReportData (GoValue O))} (h : chunkReportData writeOther rd budget hardCap = pure chunks) :
    ∃ init last, chunks = init ++ [last] ∧
      (∀ c ∈ init, c.moreChunkedMessages = true ∧ c.suppressResponse = false ∧
        ∃ body flagged, encodeReportData writeOther { c with moreChunkedMessages := false } = pure body ∧
          WithinLimits budget hardCap body.length c ∧ encodeReportData writeOther c = pure flagged ∧
          flagged.length = body.length + 2) ∧
      ∃ body, encodeReportData writeOther last = pure body ∧
        (WithinLimits budget hardCap body.length last ∨ entries last = 0) := by
  obtain ⟨probe, hprobe, h⟩ := exceptT_bind_eq_pure.mp h
  split_ifs at h with hsmall
  · obtain rfl := ok.inj (some.inj h)
    exact ⟨[], rd, rfl, fun c hc => absurd hc not_mem_nil, probe, hprobe, .inl (.inl hsmall)⟩
  obtain ⟨s1, h1, h⟩ := exceptT_bind_eq_pure.mp h
  obtain ⟨s, h2, h⟩ := exceptT_bind_eq_pure.mp h
  obtain rfl := ok.inj (some.inj h)
  have hs1 : Sound writeOther rd budget hardCap s1 :=
    foldlM_induction _ (fun _ _ _ _ hs hstep => hs.addAttributeReport hstep) sound_start h1
  have hs : Sound writeOther rd budget hardCap s :=
    foldlM_induction _ (fun _ _ _ _ hs hstep => hs.addEventReport hstep) hs1 h2
  rcases hasEntries_of_fill h1 h2 with hc | ⟨hreports, hevents⟩
  · obtain ⟨hfin, hfits⟩ := hs.finished hc
    rw [hfin, setFlags_append]
    refine ⟨_, _, rfl, fun c hmem => ?_, ?_⟩
    · obtain ⟨c0, hc0, rfl⟩ := mem_map.mp hmem
      have hfit := hfits c0 (mem_append_left _ hc0)
      have hsame : { c0 with moreChunkedMessages := false } = c0 := by
        rw [← hfit.more]
      obtain ⟨body, hbody, hlim⟩ := hfit.limits
      obtain ⟨flagged, hflagged, hlen⟩ := encode_flags true c0.suppressResponse hbody
      rw [hfit.more] at hlen
      exact ⟨rfl, hfit.suppress, body, flagged, by rw [hsame]; exact hbody, hlim, hflagged, hlen⟩
    · obtain ⟨body, hbody, hlim⟩ := (hfits s.current (mem_append_right _ mem_cons_self)).limits
      cases hsup : rd.suppressResponse with
      | false => exact ⟨body, hbody, .inl hlim⟩
      | true =>
        obtain ⟨body', hbody', hlen⟩ := encode_flags s.current.moreChunkedMessages true hbody
        refine ⟨body', hbody', .inl ?_⟩
        rw [Nat.add_right_cancel hlen]
        exact hlim
  · rw [hreports] at h1
    rw [hevents] at h2
    obtain rfl : _ = s1 := ok.inj (some.inj h1)
    obtain rfl : _ = s := ok.inj (some.inj h2)
    have hentries : entries rd = 0 := by simp [entries, hreports, hevents]
    obtain ⟨body', hbody', -⟩ := encode_flags rd.moreChunkedMessages true hprobe
    refine ⟨[], if rd.suppressResponse then { rd with suppressResponse := true } else rd, rfl,
      fun c hc => absurd hc not_mem_nil, ?_⟩
    cases hsup : rd.suppressResponse with
    | false => exact ⟨probe, hprobe, .inr hentries⟩
    | true => exact ⟨body', hbody', .inr hentries⟩

def noOther : Encoder → Tag → Empty → Option Encoder := fun _ _ v => nomatch v

/-- Reports of null values, of 19 bytes each. -/
def nulls (ids : List (BitVec 32)) : ReportData (GoValue Empty) :=
  { reports := ids.map fun n => { path := { attributeID := n, hasAttribute := true } } }

theorem chunk_nulls :
    chunkReportData noOther (nulls [1, 2, 3]) 48 48 =
      pure [{ nulls [1, 2] with moreChunkedMessages := true }, nulls [3]] := by
  rfl

theorem chunks_within_limits_nulls :
    ∃ chunks, chunkReportData noOther (nulls [1, 2, 3]) 48 48 = pure chunks ∧ ∃ init last, chunks = init ++ [last] ∧
      (∀ c ∈ init, c.moreChunkedMessages = true ∧ c.suppressResponse = false ∧
        ∃ body flagged, encodeReportData noOther { c with moreChunkedMessages := false } = pure body ∧
          WithinLimits 48 48 body.length c ∧ encodeReportData noOther c = pure flagged ∧
          flagged.length = body.length + 2) ∧
      ∃ body, encodeReportData noOther last = pure body ∧
        (WithinLimits 48 48 body.length last ∨ entries last = 0) :=
  ⟨_, chunk_nulls, chunks_within_limits noOther chunk_nulls⟩

/-- Two reports fill a chunk to the last byte, and its flag makes it two bytes
longer; an empty report is ten bytes long. -/
theorem chunk_exceeds_budget :
    (∃ c last body, chunkReportData noOther (nulls [1, 2, 3]) 48 48 = pure [c, last] ∧
      encodeReportData noOther c = pure body ∧ body.length = 50 ∧ ¬ WithinLimits 48 48 body.length c) ∧
    ∃ c body, chunkReportData noOther (nulls []) 1 1 = pure [c] ∧ encodeReportData noOther c = pure body ∧
      body.length = 10 ∧ ¬ WithinLimits 1 1 body.length c :=
  ⟨⟨_, _, _, chunk_nulls, rfl, rfl, by decide⟩, _, _, rfl, rfl, rfl, by decide⟩

end GF.Proof.Bridge
