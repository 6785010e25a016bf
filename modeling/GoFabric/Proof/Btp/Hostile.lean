import Mathlib.Data.List.Forall2
import GoFabric.Proof.Btp.Acks

/-!
# What a hostile peer gets delivered

The packets that a session took fall into blocks, each from a Beginning packet to an Ending
packet, with stand-alone acknowledgements between them, and each delivered message is what
the payloads of its block spell (`Parsed`). Two kinds of packets are left out (`wellFormed`),
which `HandleIncoming` takes all the same: a Beginning packet with more payload than the
length that it declares, and a packet with a payload that is no segment. After a packet that
is refused no message is delivered any more, and once the call that refused it has closed the
session nothing is written (`Stopped`).
-/

namespace GF.Proof.Btp

open GF.Impl.Btp GF.Spec.Peer List Option

variable {pk : Packet} {r r₁ : Reassembly} {tail accepted block : List Packet} {data : List Byte} {s : Session}
  {e : HostEvent} {es : List HostEvent}

/-! ## Messages in packets -/

theorem payloads_snoc (block : List Packet) (pk : Packet) :
    payloads (block ++ [pk]) = payloads block ++ pk.payload.segmentPayload := by
  unfold payloads
  rw [flatMap_append, flatMap_singleton]

/-- Packets of a message that has not ended, and what is held of it. -/
structure Opened (block : List Packet) (r : Reassembly) : Prop where
  reassembling : r.reassembling = true
  begins : Begins block r.incomingLen
  unended : ∀ pk ∈ block, pk.header.isEndingSegment = false
  incoming : r.incoming = payloads block

theorem begins_snoc {length : Nat} (h : Begins block length) (hpk : pk.header.isBeginningSegment = false) :
    Begins (block ++ [pk]) length := by
  obtain ⟨first, l, hhead, hfirst⟩ := h.first
  have hne : block ≠ [] := fun hnil => by rw [hnil] at hhead; cases hhead
  refine ⟨⟨first, l, ?_, hfirst⟩, fun x hx => ?_⟩
  · rw [List.head?_append, hhead]
    rfl
  rw [tail_append_of_ne_nil hne, mem_append, mem_singleton] at hx
  obtain hx | rfl := hx
  · exact h.rest x hx
  · exact hpk

theorem begins_single {l : BitVec 16} (hpk : pk.header.isBeginningSegment = true)
    (hl : pk.payload.messageLength = some l) : Begins [pk] l.toNat :=
  ⟨⟨pk, l, rfl, hpk, hl, rfl⟩, fun _ hx => absurd hx not_mem_nil⟩

/-! ## One packet -/

/-- A segment begins a message or goes on with it. -/
inductive Extends (r : Reassembly) (pk : Packet) : Reassembly → Prop
  | beginning (hb : pk.header.isBeginningSegment = true) (hr : r.reassembling = false) :
    Extends r pk { reassembling := true, incomingLen := (pk.payload.messageLength.getD 0).toNat
                   incoming := pk.payload.segmentPayload }
  | continuing (hb : pk.header.isBeginningSegment = false) (hr : r.reassembling = true)
    (hle : r.incoming.length + pk.payload.segmentPayload.length ≤ r.incomingLen) :
    Extends r pk { r with incoming := r.incoming ++ pk.payload.segmentPayload }

/-- What becomes of the message being reassembled. -/
inductive Added (r : Reassembly) (pk : Packet) : Reassembly × Except ProtocolError (Option (List Byte)) → Prop
  | refused (e : ProtocolError) : Added r pk (r, .error e)
  | mismatch (r₁ : Reassembly) (hr : Extends r pk r₁) (e : ProtocolError) : Added r pk (r₁, .error e)
  | standalone (hb : pk.header.isBeginningSegment = false) (hc : pk.header.isContinuingSegment = false)
    (he : pk.header.isEndingSegment = false) : Added r pk (r, .ok none)
  | segment (r₁ : Reassembly) (hr : Extends r pk r₁) (he : pk.header.isEndingSegment = false) :
    Added r pk (r₁, .ok none)
  | message (r₁ : Reassembly) (hr : Extends r pk r₁) (he : pk.header.isEndingSegment = true)
    (hlength : r₁.incoming.length = r₁.incomingLen) : Added r pk (.empty, .ok (some r₁.incoming))

/-- The end of `Reassembly.add`, behind a segment. -/
theorem added_of_extends (hr : Extends r pk r₁) :
    Added r pk
      (if pk.header.isEndingSegment then
        if r₁.incoming.length ≠ r₁.incomingLen then
          (r₁, .error (.lengthMismatch r₁.incoming.length r₁.incomingLen))
        else (.empty, .ok (some r₁.incoming))
      else (r₁, .ok none)) := by
  split
  · rename_i he
    split
    · exact .mismatch r₁ hr _
    · rename_i hlength
      exact .message r₁ hr he (not_not.mp hlength)
  · rename_i he
    exact .segment r₁ hr (Bool.eq_false_iff.mpr he)

theorem added (r : Reassembly) (pk : Packet) : Added r pk (r.add pk) := by
  unfold Reassembly.add
  dsimp only
  split
  · rename_i hb
    split
    · exact .refused _
    · rename_i hr
      exact added_of_extends (.beginning hb (Bool.eq_false_iff.mpr hr))
  · rename_i hb
    have hb : pk.header.isBeginningSegment = false := Bool.eq_false_iff.mpr hb
    split
    · split
      · exact .refused _
      rename_i hr
      split
      · exact .refused _
      split
      · exact .refused _
      · rename_i hle
        exact added_of_extends (.continuing hb (by simpa using hr) (Nat.not_lt.mp hle))
    · rename_i hsegment
      simp only [Bool.or_eq_true, not_or, Bool.not_eq_true] at hsegment
      rw [hsegment.2]
      exact .standalone hb hsegment.1 hsegment.2

/-- No more is held than was declared. -/
def Held (r : Reassembly) : Prop := r.incoming.length ≤ r.incomingLen

theorem Held.extends (hwell : wellFormed pk = true) (hr : Extends r pk r₁) : Held r₁ := by
  cases hr with
  | beginning hb hr =>
    unfold wellFormed at hwell
    rw [if_pos hb, decide_eq_true_eq] at hwell
    exact hwell
  | continuing hb hr hle =>
    show (r.incoming ++ pk.payload.segmentPayload).length ≤ r.incomingLen
    rw [length_append]
    exact hle

theorem Held.add (h : Held r) (hwell : wellFormed pk = true) {res : Except ProtocolError (Option (List Byte))}
    (hadd : r.add pk = (r₁, res)) : Held r₁ := by
  have hadded := hadd ▸ added r pk
  cases hadded with
  | refused e => exact h
  | mismatch _ hr e | segment _ hr he => exact .extends hwell hr
  | standalone hb hc he => exact h
  | message _ hr he hlength => exact Nat.le_refl 0

/-! ## The packets taken -/

/-- What was taken since the last message. -/
inductive Tail (r : Reassembly) (tail : List Packet) : Prop
  | between (hr : r = .empty) (hgap : ∀ pk ∈ tail, Standalone pk)
  | within (gap block : List Packet) (htail : tail = gap ++ block) (hgap : ∀ pk ∈ gap, Standalone pk)
    (hopen : Opened block r)

theorem parses_snoc {delivered : List (List Byte)} (h : Parses accepted delivered tail) (pk : Packet) :
    Parses (accepted ++ [pk]) delivered (tail ++ [pk]) := by
  obtain ⟨parts, rfl, hparts⟩ := h
  exact ⟨parts, append_assoc .., hparts⟩

theorem parses_message {gap : List Packet} {delivered : List (List Byte)}
    (h : Parses accepted delivered (gap ++ block)) (hgap : ∀ pk ∈ gap, Standalone pk) {msg : List Byte}
    (hblock : Spells block msg) : Parses accepted (delivered ++ [msg]) [] := by
  obtain ⟨parts, rfl, hparts⟩ := h
  refine ⟨parts ++ [(gap, block)], ?_, rel_append hparts (.cons ⟨hgap, hblock⟩ .nil)⟩
  rw [flatMap_append, flatMap_singleton, append_nil]

/-- With a segment, the tail ends in a block that holds what is reassembled. -/
theorem Tail.extends (h : Tail r tail) (hr : Extends r pk r₁)
    (hlength : pk.header.isBeginningSegment = true → pk.payload.messageLength.isSome = true) :
    ∃ gap front, tail ++ [pk] = gap ++ (front ++ [pk]) ∧ (∀ x ∈ gap, Standalone x) ∧
      (∀ x ∈ front, x.header.isEndingSegment = false) ∧ r₁.reassembling = true ∧
      Begins (front ++ [pk]) r₁.incomingLen ∧ r₁.incoming = payloads (front ++ [pk]) := by
  cases hr with
  | beginning hb hr =>
    cases h with
    | between _ hgap =>
      obtain ⟨l, hl⟩ := isSome_iff_exists.mp (hlength hb)
      refine ⟨tail, [], rfl, hgap, fun x hx => absurd hx not_mem_nil, rfl, ?_, ?_⟩
      · rw [hl]
        exact begins_single hb hl
      · rw [payloads_snoc]
        rfl
    | within gap block htail hgap hopen => exact absurd hopen.reassembling (by rw [hr]; decide)
  | continuing hb hr hle =>
    cases h with
    | between hempty _ =>
      rw [hempty] at hr
      cases hr
    | within gap block htail hgap hopen =>
      refine ⟨gap, block, ?_, hgap, hopen.unended, hr, begins_snoc hopen.begins hb, ?_⟩
      · rw [htail, append_assoc]
      · rw [payloads_snoc, ← hopen.incoming]

/-- What is no segment leaves what is reassembled alone. -/
theorem Tail.standalone (h : Tail r tail) (hpk : Standalone pk) : Tail r (tail ++ [pk]) := by
  have hsnoc {l : List Packet} {P : Packet → Prop} (hl : ∀ x ∈ l, P x) (hP : P pk) : ∀ x ∈ l ++ [pk], P x := by
    intro x hx
    obtain hx | hx := mem_append.mp hx
    · exact hl x hx
    · exact mem_singleton.mp hx ▸ hP
  obtain ⟨hb, hc, he, hempty⟩ := id hpk
  cases h with
  | between hr hgap => exact .between hr (hsnoc hgap hpk)
  | within gap block htail hgap hopen =>
    refine .within gap (block ++ [pk]) ?_ hgap ⟨hopen.reassembling, begins_snoc hopen.begins hb, hsnoc hopen.unended he, ?_⟩
    · rw [htail, append_assoc]
    · rw [payloads_snoc, hempty, append_nil]
      exact hopen.incoming

/-- A packet that is taken, with the message that it completes. -/
theorem parses_add {delivered : List (List Byte)} {out : Option (List Byte)} (h : Parses accepted delivered tail)
    (ht : Tail r tail) (hwell : wellFormed pk = true)
    (hlength : pk.header.isBeginningSegment = true → pk.payload.messageLength.isSome = true)
    (hadd : r.add pk = (r₁, .ok out)) :
    ∃ tail', Parses (accepted ++ [pk]) (delivered ++ out.toList) tail' ∧ Tail r₁ tail' := by
  have hadded := hadd ▸ added r pk
  cases hadded with
  | standalone hb hc he =>
    have hpk : Standalone pk := by
      unfold wellFormed at hwell
      rw [hb, hc, he] at hwell
      exact ⟨hb, hc, he, by simpa using hwell⟩
    refine ⟨tail ++ [pk], ?_, ?_⟩
    · rw [toList_none, append_nil]
      exact parses_snoc h pk
    · exact ht.standalone hpk
  | segment _ hr he =>
    obtain ⟨gap, front, heq, hgap, hfront, hopen, hbegins, hincoming⟩ := ht.extends hr hlength
    refine ⟨tail ++ [pk], ?_, .within gap (front ++ [pk]) heq hgap ⟨hopen, hbegins, ?_, hincoming⟩⟩
    · rw [toList_none, append_nil]
      exact parses_snoc h pk
    intro x hx
    obtain hx | hx := mem_append.mp hx
    · exact hfront x hx
    · exact mem_singleton.mp hx ▸ he
  | message r2 hr he hfull =>
    obtain ⟨gap, front, heq, hgap, hfront, hopen, hbegins, hincoming⟩ := ht.extends hr hlength
    have hspells : Spells (front ++ [pk]) r2.incoming := ⟨hfull ▸ hbegins, ⟨front, pk, rfl, he, hfront⟩, hincoming⟩
    exact ⟨[], parses_message (heq ▸ parses_snoc h pk) hgap hspells, .between rfl fun x hx => absurd hx not_mem_nil⟩

/-! ## Events -/

/-- The packets taken, and what is held of a message while packets are taken. -/
structure Parsed (h : Host) : Prop where
  held : Held h.session.reassembly
  parses : ∃ tail, Parses h.accepted h.delivered tail ∧
    (h.failed = 0 → h.session.active = true → Tail h.session.reassembly tail)

variable {h h' : Host}

theorem Change.reassembly (hchange : Change h h') : h'.session.reassembly = h.session.reassembly := by
  obtain ⟨-, hkeeps⟩ | ⟨pk, packet, -, hwrote⟩ := hchange.sends
  · exact hkeeps.reassembly
  · exact hwrote.next.reassembly

theorem Change.active (hchange : Change h h') (hactive : h'.session.active = true) : h.session.active = true := by
  obtain ⟨-, hkeeps⟩ | ⟨pk, packet, -, hwrote⟩ := hchange.sends
  · exact hkeeps.active hactive
  · exact hwrote.active

theorem Parsed.change (hp : Parsed h) (hchange : Change h h') : Parsed h' := by
  obtain ⟨tail, hparses, htail⟩ := hp.parses
  refine ⟨hchange.reassembly ▸ hp.held, tail, ?_, fun hfailed hactive => ?_⟩
  · rw [hchange.accepted, hchange.delivered]
    exact hparses
  rw [hchange.reassembly]
  refine htail ?_ (hchange.active hactive)
  obtain hle | hclosed := hchange.failed
  · omega
  · rw [hclosed] at hactive
    cases hactive

theorem decodePacket_messageLength (h : decodePacket data = .ok pk) (hb : pk.header.isBeginningSegment = true) :
    pk.payload.messageLength.isSome = true := by
  have hsegment {hd : Header} {ackNumber : Option Byte} {sequenceNumber : Byte} {rest : List Byte}
      (hd' : decodeSegment hd ackNumber sequenceNumber rest = .ok pk) : pk.payload.messageLength.isSome = true := by
    unfold decodeSegment at hd'
    split at hd'
    · split at hd'
      · obtain rfl := Except.ok.inj hd'
        rfl
      · cases hd'
    · rename_i hnot
      obtain rfl := Except.ok.inj hd'
      exact absurd hb hnot
  have hsequence {hd : Header} {ackNumber : Option Byte} {rest : List Byte}
      (hd' : decodeSequence hd ackNumber rest = .ok pk) : pk.payload.messageLength.isSome = true := by
    unfold decodeSequence at hd'
    split at hd'
    · exact hsegment hd'
    · cases hd'
  unfold decodePacket at h
  split at h
  · cases h
  dsimp only at h
  split at h
  · cases h
  split at h
  · split at h
    · exact hsequence h
    · cases h
  · exact hsequence h

theorem acceptAck_reassembly {s1 : Session} {number : Byte} {ackNumber : Option Byte}
    (hack : (counted s number).acceptAck ackNumber = .ok s1) : s1.reassembly = s.reassembly := by
  obtain ⟨-, rfl⟩ | ⟨a, -, -, rfl⟩ := acceptAck_ok hack
  · rfl
  · rfl

theorem Parsed.reads (hp : Parsed h) (hfailed : h.failed = 0) (hactive : h.session.active = true)
    (htame : Tame h (.incoming data)) {h1 : Host} (hr : Reads h data h1) : Parsed h1 := by
  obtain ⟨tail, hparses, htail⟩ := hp.parses
  have hwell {pk : Packet} (hdecode : decodePacket data = .ok pk) : wellFormed pk = true := by
    have htame : (decodePacket data).toOption.all wellFormed = true := htame
    rw [hdecode] at htame
    exact htame
  cases hr with
  | refused | badAck pk hdecode => exact ⟨hp.held, tail, hparses, fun h0 => absurd h0 (Nat.succ_ne_zero _)⟩
  | badSegment pk hdecode s1 hack r e hadd =>
    rw [acceptAck_reassembly hack] at hadd
    refine ⟨hp.held.add (hwell hdecode) hadd, tail, ?_, fun h0 => absurd h0 (Nat.succ_ne_zero _)⟩
    show Parses (h.accepted ++ []) h.delivered tail
    rw [append_nil]
    exact hparses
  | message pk hdecode s1 hack r msg hadd =>
    rw [acceptAck_reassembly hack] at hadd
    obtain ⟨tail', hparses', htail'⟩ := parses_add hparses (htail hfailed hactive) (hwell hdecode)
      (decodePacket_messageLength hdecode) hadd
    exact ⟨hp.held.add (hwell hdecode) hadd, tail', hparses', fun _ _ => htail'⟩
  | flush pk hdecode s1 hack r hadd =>
    rw [acceptAck_reassembly hack] at hadd
    obtain ⟨tail', hparses', htail'⟩ := parses_add hparses (htail hfailed hactive) (hwell hdecode)
      (decodePacket_messageLength hdecode) hadd
    rw [toList_none, append_nil] at hparses'
    exact ⟨hp.held.add (hwell hdecode) hadd, tail', hparses', fun _ _ => htail'⟩

theorem Parsed.step (hc : Calls h) (hp : Parsed h) (htame : Tame h e) (hstep : hostSystem.step h e = some h') :
    Calls h' ∧ Parsed h' := by
  obtain ⟨hcalls, hchange | ⟨data, h1, rfl, hfailed, hactive, hreads, hchange⟩⟩ := step_cases hc hstep
  · exact ⟨hcalls, hp.change hchange⟩
  · exact ⟨hcalls, (hp.reads hfailed hactive htame hreads).change hchange⟩

theorem parsed_new (hs : Created s) : Parsed (Host.new s) := by
  obtain ⟨role, fragmentSize, windowSize, ackReceiveTimer, -, rfl⟩ := created_start hs
  exact ⟨Nat.le_refl 0, [], ⟨[], rfl, .nil⟩, fun _ _ => .between rfl fun x hx => absurd hx not_mem_nil⟩

/-! ## After a violation -/

/-- No packet is looked at any more. -/
def Stopped (h : Host) : Prop := 0 < h.failed ∨ h.session.active = false

theorem Stopped.step (hc : Calls h) (hs : Stopped h) (hstep : hostSystem.step h e = some h') :
    Change h h' ∧ Stopped h' := by
  obtain ⟨-, hchange | ⟨data, h1, rfl, hfailed, hactive, -⟩⟩ := step_cases hc hstep
  · refine ⟨hchange, ?_⟩
    obtain hfailed | hclosed := hs
    · exact hchange.failed.imp_left fun hle => Nat.lt_of_lt_of_le hfailed hle
    right
    rw [Bool.eq_false_iff]
    intro hactive
    rw [hchange.active hactive] at hclosed
    cases hclosed
  · obtain hpos | hclosed := hs
    · omega
    · rw [hclosed] at hactive
      cases hactive

theorem Stopped.delivered (hc : Calls h) (hs : Stopped h) (hrun : hostSystem.run h es = some h') :
    h'.delivered = h.delivered := by
  refine (System.run_invariant (P := fun t => (Calls t ∧ Stopped t) ∧ t.delivered = h.delivered) ?_ ⟨⟨hc, hs⟩, rfl⟩
    hrun).2
  intro t e t' ⟨⟨htc, hts⟩, htd⟩ hstep
  obtain ⟨hchange, hstopped⟩ := hts.step htc hstep
  exact ⟨⟨(step_cases htc hstep).1, hstopped⟩, hchange.delivered.trans htd⟩

theorem written_of_closed (hc : Calls h) (hclosed : h.session.active = false) (hrun : hostSystem.run h es = some h') :
    h'.written = h.written := by
  refine (System.run_invariant (P := fun t => (Calls t ∧ t.session.active = false) ∧ t.written = h.written) ?_
    ⟨⟨hc, hclosed⟩, rfl⟩ hrun).2
  intro t e t' ⟨⟨htc, hts⟩, htw⟩ hstep
  obtain ⟨hchange, -⟩ := Stopped.step htc (.inr hts) hstep
  have hclosed' : t'.session.active = false := by
    rw [Bool.eq_false_iff]
    intro hactive
    rw [hchange.active hactive] at hts
    cases hts
  refine ⟨⟨(step_cases htc hstep).1, hclosed'⟩, ?_⟩
  obtain ⟨hsame, -⟩ | ⟨pk, packet, -, hwrote⟩ := hchange.sends
  · exact hsame.trans htw
  · rw [hwrote.active] at hts
    cases hts

theorem handleIncomingLocked_refused (h : (s.reads data).2 = none) :
    ∃ s' e, s.handleIncomingLocked data = (s', .fail e) := by
  obtain ⟨-, e, heq⟩ | ⟨pk, -, hreads, heq⟩ := look_handleIncomingLocked s data
  · exact ⟨s, e, heq⟩
  rw [heq]
  rw [hreads] at h
  have hlook := look s pk
  generalize s.handlePacket pk = r at hlook
  generalize s.readsPacket pk = read at hlook h
  cases hlook with
  | refused e | badAck hseq e hack | badSegment hseq s1 hack r e hadd => exact ⟨_, _, rfl⟩
  | message hseq s1 hack r msg hadd => cases h
  | flush hseq s1 hack r hadd => cases h

/-- The packet that is refused has nothing written or delivered. -/
theorem step_refused (hstep : hostSystem.step h (.incoming data) = some h') (hactive : h.session.active = true)
    (hrefused : (h.session.reads data).2 = none) :
    h'.written = h.written ∧ h'.delivered = h.delivered ∧ 0 < h'.failed := by
  obtain ⟨s', e, heq⟩ := handleIncomingLocked_refused hrefused
  simp only [hostSystem, Host.step] at hstep
  split at hstep
  · cases hstep
  · rw [if_neg (by rw [hactive]; decide), heq] at hstep
    obtain rfl := some.inj hstep
    exact ⟨rfl, rfl, Nat.succ_pos _⟩

/-- A session withstands any peer whose packets are well formed. -/
theorem hostile_peer {s : Session} (hs : Created s) {es : List HostEvent} (hmeets : hostSystem.Meets Tame (Host.new s) es)
    (hrun : hostSystem.run (Host.new s) es = some h) : Withstands h := by
  have hinv : Calls h ∧ Parsed h :=
    System.run_invariant_meets (P := fun h => Calls h ∧ Parsed h)
      (fun _ _ _ htame ⟨hc, hp⟩ hstep => hp.step hc htame hstep) hmeets ⟨calls_new hs, parsed_new hs⟩ hrun
  obtain ⟨hc, hp⟩ := hinv
  obtain ⟨tail, hparses, -⟩ := hp.parses
  refine ⟨⟨tail, hparses⟩, hp.held, fun data h' hstep hactive hrefused => ?_⟩
  obtain ⟨hwritten, hdelivered, hfailed⟩ := step_refused hstep hactive hrefused
  have hc' : Calls h' := (step_cases hc hstep).1
  refine ⟨hwritten, hdelivered, fun fs t hfs => (Stopped.delivered hc' (.inl hfailed) hfs).trans hdelivered, ?_⟩
  intro fs t hfs
  obtain ⟨u, hu, hfs⟩ := System.run_cons.mp hfs
  have hcu : Calls u := (step_cases hc' hu).1
  simp only [hostSystem, Host.step, if_pos hfailed, some.injEq] at hu
  subst hu
  exact (written_of_closed hcu rfl hfs).trans hwritten

/-- A message in two segments with an acknowledgement between them. -/
def hostileEvents : List HostEvent :=
  [.incoming [0b00000001, 0, 2, 0, 7], .incoming [0b00001000, 0, 1], .incoming [0b00000100, 2, 8], .messageReturned]

theorem hostile_peer_sample :
    ∃ h, hostSystem.run (Host.new samplePeripheral) hostileEvents = some h ∧ h.delivered = [[7, 8]] ∧
      Withstands h := by
  have hrun : (hostSystem.run (Host.new samplePeripheral) hostileEvents).map Host.delivered = some [[7, 8]] := by
    decide +kernel
  have hmeets : hostSystem.Meets Tame (Host.new samplePeripheral) hostileEvents := by decide +kernel
  obtain ⟨h, hh, hdelivered⟩ := map_eq_some_iff.mp hrun
  have hs : Created samplePeripheral := .inl ⟨0, sampleRequest, sampleResponse, by decide +kernel⟩
  exact ⟨h, hh, hdelivered, hostile_peer hs hmeets hh⟩

/-- A Beginning packet that declares one byte and carries three is taken and held; and a packet
with a payload that is no segment is taken between the Beginning and the Ending packet of a
message that lacks its payload. -/
theorem overlong_beginning_and_lost_payload :
    newPeripheral 0 sampleRequest = .ok (samplePeripheral, sampleResponse) ∧
      (∃ h, hostSystem.run (Host.new samplePeripheral) [.incoming [0b00000001, 0, 1, 0, 7, 8, 9]] = some h ∧
        h.session.active = true ∧ h.accepted.length = 1 ∧ h.session.reassembly.incomingLen = 1 ∧
        h.session.reassembly.incoming = [7, 8, 9]) ∧
      ∃ h, hostSystem.run (Host.new samplePeripheral)
          [.incoming [0b00000001, 0, 2, 0, 7], .incoming [0b00000000, 1, 9], .incoming [0b00000100, 2, 8]] = some h ∧
        h.accepted.map (·.payload.segmentPayload) = [[7], [9], [8]] ∧ h.delivered = [[7, 8]] := by
  refine ⟨by decide +kernel, ?_, ?_⟩
  · have hrun : (hostSystem.run (Host.new samplePeripheral) [.incoming [0b00000001, 0, 1, 0, 7, 8, 9]]).map
        (fun h => (h.session.active, h.accepted.length, h.session.reassembly.incomingLen,
          h.session.reassembly.incoming)) = some (true, 1, 1, [7, 8, 9]) := by
      decide +kernel
    obtain ⟨h, hh, htest⟩ := map_eq_some_iff.mp hrun
    simp only [Prod.mk.injEq] at htest
    exact ⟨h, hh, htest⟩
  · have hrun : (hostSystem.run (Host.new samplePeripheral)
        [.incoming [0b00000001, 0, 2, 0, 7], .incoming [0b00000000, 1, 9], .incoming [0b00000100, 2, 8]]).map
        (fun h => (h.accepted.map (·.payload.segmentPayload), h.delivered)) =
          some ([[7], [9], [8]], [[7, 8]]) := by
      decide +kernel
    obtain ⟨h, hh, htest⟩ := map_eq_some_iff.mp hrun
    simp only [Prod.mk.injEq] at htest
    exact ⟨h, hh, htest⟩

end GF.Proof.Btp
