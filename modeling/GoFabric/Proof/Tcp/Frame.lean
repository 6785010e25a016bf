import GoFabric.Spec.Framing
import Mathlib.Data.List.Forall2

/-!
# TCP framing does not depend on how the stream is cut

`nextFrame` is a splitter (`splits_nextFrame`), so that what the assembler returns for a stream
is what it returns for the stream in one piece (`pushAll_eq_drain`), as long as it does not
panic. It panics on the streams that reach a faulting header (`drain_panics_iff`).
-/

namespace GF.Proof.Tcp

open GF.Impl.Tcp GF.Spec.Framing GF.Stream List

variable {w : IntSize} {limit : Int} {buf msg rest header stream : List Byte}

/-! ## One frame -/

theorem maxInt_bits32 : IntSize.bits32.maxInt = 2147483647 := rfl

theorem maxInt_bits64 : IntSize.bits64.maxInt = 9223372036854775807 := rfl

theorem leNat_header_lt (h : header.length = framingHeaderSize) : leNat header < 2 ^ 32 := by
  have hlt := leNat_lt header
  rwa [h] at hlt

/-- An announced number as an `int`: itself, or the end of its frame wraps round. -/
theorem int_header (w : IntSize) {x : Nat} (hx : x < 2 ^ 32) :
    (framingHeaderSize + x ≤ w.maxInt ∧ w.int x = x ∧ w.int (framingHeaderSize + x) = framingHeaderSize + x) ∨
      w.maxInt < framingHeaderSize + x ∧ w = .bits32 ∧ w.int x = (if x < 2 ^ 31 then x else x - 2 ^ 32 : Int) ∧
        w.int (framingHeaderSize + w.int x) < framingHeaderSize := by
  cases w with
  | bits32 =>
    simp only [maxInt_bits32, IntSize.int, IntSize.bits, Int.bmod_def, true_and]
    split_ifs <;> omega
  | bits64 =>
    simp only [maxInt_bits64, framingHeaderSize, IntSize.int, IntSize.bits, Int.bmod_def]
    omega

theorem nextFrame_frame (h : Sendable w limit msg) (rest : List Byte) :
    nextFrame w limit (frame msg ++ rest) = .item msg rest := by
  obtain ⟨hne, hmax, hlen, hint⟩ := h
  have hpos : msg.length ≠ 0 := fun h => hne (eq_nil_of_length_eq_zero h)
  obtain ⟨-, hn, htotal⟩ | ⟨hwrap, -⟩ := int_header w hlen
  · have hrest : (frame msg ++ rest).drop (4 + msg.length) = rest := by
      rw [← drop_drop, frame, framingHeaderSize, drop_block, drop_left]
    have hsize : (frame msg ++ rest).length = 4 + msg.length + rest.length := by
      simp only [frame, framingHeaderSize, length_append, length_leBytes]
    have hnat : ((framingHeaderSize : Int) + msg.length).toNat = 4 + msg.length := rfl
    unfold nextFrame
    rw [frame, framingHeaderSize, leNat_take_block hlen, drop_block, ← framingHeaderSize, ← frame]
    simp only [hn, htotal, hnat, hrest, Int.toNat_natCast, take_left]
    rw [if_neg (by omega), if_neg (by omega), if_neg (by omega), if_neg (by omega), if_neg (by omega)]
  · omega

theorem frame_of_nextFrame (h : nextFrame w limit buf = .item msg rest) :
    Sendable w limit msg ∧ buf = frame msg ++ rest := by
  unfold nextFrame framingHeaderSize at h
  split at h <;> [cases h; skip]
  have hlt : leNat (buf.take 4) < 2 ^ 32 := leNat_header_lt (length_take_of_le (by omega))
  dsimp only at h
  split at h <;> [cases h; skip]
  split at h <;> [cases h; skip]
  rename_i hmax
  split at h <;> [cases h; skip]
  rename_i hwhole
  split at h <;> [cases h; skip]
  rename_i hfault
  obtain ⟨rfl, rfl⟩ := Round.item.inj h
  obtain ⟨hint, hn, htotal⟩ | ⟨-, -, -, hwrap⟩ := int_header w hlt
  · simp only [framingHeaderSize] at htotal
    rw [hn] at hwhole ⊢
    rw [htotal] at ⊢
    obtain ⟨-, hmsg, hback⟩ := block_eq (k := 4) buf (by omega)
    rw [Int.toNat_natCast, show ((4 : Nat) + (leNat (buf.take 4) : Int)).toNat = 4 + leNat (buf.take 4) from rfl]
    refine ⟨⟨?_, ?_, ?_, ?_⟩, ?_⟩
    · intro hnil
      rw [hnil, length_nil] at hmsg
      omega
    · omega
    · rw [hmsg]
      exact hlt
    · rw [hmsg]
      exact hint
    · rw [frame, framingHeaderSize, hmsg, hback, ← drop_drop, append_assoc, take_append_drop, take_append_drop]
  · exact absurd (.inr hwrap) hfault

theorem nextFrame_faulting (hlen : header.length = framingHeaderSize) (h : Faulting w limit header) (rest : List Byte) :
    nextFrame w limit (header ++ rest) = .stop .panicked := by
  have hlt := leNat_header_lt hlen
  have htake : (header ++ rest).take framingHeaderSize = header := take_left' hlen
  have hsize : (header ++ rest).length = 4 + rest.length := by rw [length_append, hlen, framingHeaderSize]
  cases w with
  | bits64 => exact h.elim
  | bits32 =>
    obtain ⟨hint, -⟩ | ⟨-, -, hn, htotal⟩ := int_header .bits32 hlt
    · rw [maxInt_bits32, framingHeaderSize] at hint
      unfold Faulting at h
      omega
    · unfold nextFrame
      rw [htake]
      unfold Faulting at h
      simp only [framingHeaderSize] at htotal ⊢
      split at hn <;> rw [hn] at htotal <;> simp only [hn] <;>
        rw [if_neg (by omega), if_neg (by omega), if_neg (by omega), if_neg (by omega), if_pos (.inr htotal)]

theorem faulting_of_nextFrame (h : nextFrame w limit buf = .stop .panicked) :
    framingHeaderSize ≤ buf.length ∧ Faulting w limit (buf.take framingHeaderSize) := by
  unfold nextFrame at h
  split at h <;> [cases h; skip]
  have hlt : leNat (buf.take framingHeaderSize) < 2 ^ 32 := leNat_header_lt (length_take_of_le (by omega))
  refine ⟨by omega, ?_⟩
  dsimp only at h
  split at h <;> [cases h; skip]
  split at h <;> [cases h; skip]
  rename_i hmax
  split at h <;> [cases h; skip]
  split at h <;> [skip; cases h]
  rename_i hfault
  obtain ⟨-, hn, htotal⟩ | ⟨hint, rfl, hn, -⟩ := int_header w hlt
  · rw [hn] at hfault
    omega
  · rw [maxInt_bits32] at hint
    unfold Faulting
    unfold framingHeaderSize at hint hn hmax ⊢
    rw [hn] at hmax
    split at hmax <;> omega

theorem nextFrame_append_of_error {e : FrameError} (h : nextFrame w limit buf = .stop (.error e)) (later : List Byte) :
    nextFrame w limit (buf ++ later) = .stop (.error e) := by
  unfold nextFrame at h ⊢
  split at h <;> [cases h; skip]
  have htake : (buf ++ later).take framingHeaderSize = buf.take framingHeaderSize :=
    take_append_of_le_length (by omega)
  have hlong : ¬(buf ++ later).length < framingHeaderSize := by
    rw [length_append]
    omega
  dsimp only at h
  rw [if_neg hlong, htake]
  split at h
  · rename_i hzero
    rw [if_pos hzero, h]
  split at h
  · rename_i hzero hbig
    rw [if_neg hzero, if_pos hbig, h]
  split at h <;> [cases h; skip]
  split at h <;> cases h

theorem splits_nextFrame (w : IntSize) (limit : Int) : Splits (nextFrame w limit) where
  nil := rfl
  shorter := by
    intro buf msg rest h
    obtain ⟨-, rfl⟩ := frame_of_nextFrame h
    simp only [frame, framingHeaderSize, length_append, length_leBytes]
    omega
  item_append := by
    intro buf msg rest h later
    obtain ⟨hmsg, rfl⟩ := frame_of_nextFrame h
    rw [append_assoc]
    exact nextFrame_frame hmsg (rest ++ later)
  stop_append := by
    intro buf e h later
    cases e with
    | error e => exact nextFrame_append_of_error h later
    | panicked =>
      obtain ⟨hlong, hfault⟩ := faulting_of_nextFrame h
      rw [← take_append_drop framingHeaderSize buf, append_assoc]
      exact nextFrame_faulting (length_take_of_le hlong) hfault _

/-- A buffer that waits for more has less than a whole frame. -/
theorem length_of_more (hmax : 0 ≤ limit) (h : nextFrame w limit buf = .more) :
    buf.length ≤ framingHeaderSize + limit - 1 := by
  unfold nextFrame at h
  split at h
  · omega
  have hlt : leNat (buf.take framingHeaderSize) < 2 ^ 32 := leNat_header_lt (length_take_of_le (by omega))
  dsimp only at h
  split at h <;> [cases h; skip]
  split at h <;> [cases h; skip]
  split at h
  · obtain ⟨-, hn, htotal⟩ | ⟨-, -, -, hwrap⟩ := int_header w hlt
    · rename_i hless
      rw [hn] at hless
      omega
    · omega
  · split at h <;> cases h

/-! ## The stream -/

theorem pushAll_eq_feed (a : Assembler) (chunks : List (List Byte)) :
    (a.pushAll w chunks).2 = (feed (nextFrame w a.maxPayloadSize) a.buf chunks).error ∧
      ((a.pushAll w chunks).2 ≠ some .panicked →
        (a.pushAll w chunks).1 = (feed (nextFrame w a.maxPayloadSize) a.buf chunks).items) := by
  induction chunks generalizing a with
  | nil => exact ⟨rfl, fun _ => rfl⟩
  | cons chunk chunks ih =>
    rw [Assembler.pushAll, feed, Assembler.push]
    cases (drain (nextFrame w a.maxPayloadSize) (a.buf ++ chunk)).error with
    | some e =>
      cases e with
      | error e => exact ⟨rfl, fun _ => rfl⟩
      | panicked => exact ⟨rfl, fun h => absurd rfl h⟩
    | none =>
      obtain ⟨herror, hitems⟩ := ih { a with buf := (drain (nextFrame w a.maxPayloadSize) (a.buf ++ chunk)).rest }
      exact ⟨herror, fun h => congrArg _ (hitems h)⟩

/-- What the assembler returns for a stream in pieces, it returns for the
stream in one piece. -/
theorem pushAll_eq_drain (w : IntSize) (limit : Int) (chunks : List (List Byte)) :
    ((newAssembler limit).pushAll w chunks).2 = (drain (nextFrame w limit) chunks.flatten).error ∧
      (((newAssembler limit).pushAll w chunks).2 ≠ some .panicked →
        ((newAssembler limit).pushAll w chunks).1 = (drain (nextFrame w limit) chunks.flatten).items) := by
  have S := splits_nextFrame w limit
  obtain ⟨hitems, herror⟩ := feed_eq_drain S S.nil chunks
  obtain ⟨herror', hitems'⟩ := pushAll_eq_feed (newAssembler limit) chunks
  exact ⟨herror'.trans herror, fun h => (hitems' h).trans hitems⟩

theorem drain_frames {msgs : List (List Byte)} (h : ∀ msg ∈ msgs, Sendable w limit msg) (rest : List Byte) :
    drain (nextFrame w limit) ((msgs.map frame).flatten ++ rest) =
      { drain (nextFrame w limit) rest with items := msgs ++ (drain (nextFrame w limit) rest).items } := by
  induction msgs with
  | nil => rfl
  | cons msg msgs ih =>
    have hrest := ih fun m hm => h m (mem_cons_of_mem msg hm)
    rw [map_cons, flatten_cons, append_assoc,
      drain_item (splits_nextFrame w limit) (nextFrame_frame (h msg mem_cons_self) _), hrest]
    rfl

/-- The messages of a stream can be framed, and they are what it begins with. -/
theorem sendable_of_drain (w : IntSize) (limit : Int) (stream : List Byte) :
    (∀ msg ∈ (drain (nextFrame w limit) stream).items, Sendable w limit msg) ∧
      stream = ((drain (nextFrame w limit) stream).items.map frame).flatten ++ (drain (nextFrame w limit) stream).rest := by
  refine drain_induction (splits_nextFrame w limit) (motive := fun stream o =>
    (∀ msg ∈ o.items, Sendable w limit msg) ∧ stream = (o.items.map frame).flatten ++ o.rest)
    (fun _ _ => ⟨nofun, rfl⟩) (fun _ _ _ => ⟨nofun, rfl⟩) ?_ stream
  rintro stream msg rest hr ⟨hall, hrest⟩
  obtain ⟨hmsg, rfl⟩ := frame_of_nextFrame hr
  refine ⟨forall_mem_cons.2 ⟨hmsg, hall⟩, ?_⟩
  show _ = frame msg ++ _ ++ (drain (nextFrame w limit) rest).rest
  rw [append_assoc, ← hrest]

/-- A stream makes the receiver panic exactly when it reaches a faulting header. -/
theorem drain_panics_iff (stream : List Byte) :
    (drain (nextFrame w limit) stream).error = some .panicked ↔ Faults w limit stream := by
  have S := splits_nextFrame w limit
  constructor
  · intro h
    obtain ⟨hall, hstream⟩ := sendable_of_drain w limit stream
    obtain ⟨hlong, hfault⟩ := faulting_of_nextFrame (next_of_drain_error S h)
    refine ⟨_, _, (drain (nextFrame w limit) stream).rest.drop framingHeaderSize, hall, length_take_of_le hlong, hfault, ?_⟩
    rw [take_append_drop]
    exact hstream
  · rintro ⟨msgs, header, rest, hall, hlen, hfault, rfl⟩
    rw [drain_frames hall, drain_stop S (nextFrame_faulting hlen hfault rest)]

theorem encodeFrame_of_sendable (h : Sendable w limit msg) : encodeFrame w msg limit = .ok (frame msg) := by
  obtain ⟨-, hmax, hlen, hint⟩ := h
  unfold encodeFrame
  rw [if_neg (by omega), if_neg (by omega), Nat.mod_eq_of_lt hlen]
  rfl

/-- Messages that are framed and then returned are those that can be sent; a stream makes the
receiver panic when it reaches a faulting header, and what any other gives does not depend on
how it is cut; and what is buffered after a push without an error is less than a whole frame. -/
theorem framing_chunking_independent (w : IntSize) (maxPayloadSize : Int) :
    (∀ msgs : List (List Byte), (∀ msg ∈ msgs, Sendable w maxPayloadSize msg) ↔
      ∃ frames, List.Forall₂ (fun msg frame => encodeFrame w msg maxPayloadSize = .ok frame) msgs frames ∧
        ∀ chunks : List (List Byte), chunks.flatten = frames.flatten →
          (newAssembler maxPayloadSize).pushAll w chunks = (msgs, none)) ∧
    (∀ stream, ¬Faults w maxPayloadSize stream → ∃ out, out.2 ≠ some .panicked ∧
      ∀ chunks : List (List Byte), chunks.flatten = stream → (newAssembler maxPayloadSize).pushAll w chunks = out) ∧
    (∀ stream, Faults w maxPayloadSize stream → ∀ chunks : List (List Byte), chunks.flatten = stream →
      ((newAssembler maxPayloadSize).pushAll w chunks).2 = some .panicked) ∧
    (0 ≤ maxPayloadSize → ∀ (a a' : Assembler) (chunk : List Byte) (out : List (List Byte)),
      a.maxPayloadSize = maxPayloadSize → a.push w chunk = some ((out, none), a') →
        a'.buf.length ≤ framingHeaderSize + maxPayloadSize - 1) := by
  have hdrain := pushAll_eq_drain w maxPayloadSize
  refine ⟨fun msgs => ⟨fun hmsgs => ?_, ?_⟩, fun stream hfaults => ?_, fun stream hfaults chunks hchunks => ?_, ?_⟩
  · refine ⟨msgs.map frame, ?_, fun chunks hchunks => ?_⟩
    · rw [List.forall₂_map_right_iff, List.forall₂_same]
      exact fun msg hmsg => encodeFrame_of_sendable (hmsgs msg hmsg)
    · have hall := drain_frames hmsgs []
      have hnil : drain (nextFrame w maxPayloadSize) [] = ⟨[], none, []⟩ := rfl
      rw [hnil, append_nil, append_nil, ← hchunks] at hall
      obtain ⟨herror, hitems⟩ := hdrain chunks
      rw [hall] at herror hitems
      exact Prod.ext (hitems (by rw [herror]; nofun)) herror
  · rintro ⟨frames, -, hall⟩
    have hone := hall [frames.flatten] flatten_singleton
    obtain ⟨-, hitems⟩ := hdrain [frames.flatten]
    rw [hone] at hitems
    have hmsgs : msgs = _ := hitems nofun
    rw [hmsgs]
    exact (sendable_of_drain w maxPayloadSize _).1
  · have hpanic := mt (drain_panics_iff stream).1 hfaults
    refine ⟨⟨(drain (nextFrame w maxPayloadSize) stream).items, (drain (nextFrame w maxPayloadSize) stream).error⟩,
      hpanic, ?_⟩
    rintro chunks rfl
    obtain ⟨herror, hitems⟩ := hdrain chunks
    exact Prod.ext (hitems (by rwa [herror])) herror
  · rw [(hdrain chunks).1, hchunks, drain_panics_iff]
    exact hfaults
  · rintro hmax a a' chunk out rfl hpush
    unfold Assembler.push at hpush
    dsimp only at hpush
    split at hpush
    · rename_i hnone
      cases hpush
      exact length_of_more hmax (next_of_drain (splits_nextFrame w a.maxPayloadSize) hnone)
    · cases hpush
    · cases hpush

/-- Two messages, in pieces. -/
theorem framing_chunking_independent_bytewise :
    (newAssembler 2).pushAll .bits32 [[1, 0], [], [0, 0, 0x11, 2], [0], [0, 0, 0x22], [0x33]] =
        ([[0x11], [0x22, 0x33]], none) ∧
      (newAssembler 2).pushAll .bits64 [[3, 0], [0, 0]] = (newAssembler 2).pushAll .bits64 [[3, 0, 0, 0]] := by
  have hs : ∀ msg ∈ [[0x11], [0x22, 0x33]], Sendable .bits32 2 msg := by
    intro msg hmsg
    obtain rfl | rfl : msg = [0x11] ∨ msg = [0x22, 0x33] := by simpa using hmsg
    all_goals exact ⟨by decide, by decide, by decide, by decide⟩
  obtain ⟨frames, hframes, hall⟩ := ((framing_chunking_independent .bits32 2).1 _).1 hs
  obtain rfl : frames = [[1, 0, 0, 0, 0x11], [2, 0, 0, 0, 0x22, 0x33]] := by
    cases hframes with
    | cons h1 h =>
      cases h with
      | cons h2 h =>
        cases h
        rw [← Except.ok.inj h1, ← Except.ok.inj h2]
        rfl
  have hfine : ¬Faults .bits64 2 [3, 0, 0, 0] := fun ⟨_, _, _, _, _, hfault, _⟩ => hfault
  obtain ⟨out, -, hout⟩ := (framing_chunking_independent .bits64 2).2.1 _ hfine
  exact ⟨hall _ rfl, (hout [[3, 0], [0, 0]] rfl).trans (hout [[3, 0, 0, 0]] rfl).symm⟩

/-- Where an `int` has 32 bits, a header of four bytes `0xFF` announces -1, which is no error, and
`make` panics: a message in front of it is lost or not by how the stream is cut. With a negative
limit a part of a header is still buffered. -/
theorem header_minus_one :
    (newAssembler 64000).pushAll .bits32 [[1, 0, 0, 0, 0x11, 0xFF, 0xFF, 0xFF, 0xFF]] = ([], some .panicked) ∧
      (newAssembler 64000).pushAll .bits32 [[1, 0, 0, 0, 0x11], [0xFF, 0xFF, 0xFF, 0xFF]] =
        ([[0x11]], some .panicked) ∧
      (newAssembler (-2)).push .bits32 [0, 0, 0] = some (([], none), ⟨-2, [0, 0, 0]⟩) := by
  decide +kernel

end GF.Proof.Tcp
