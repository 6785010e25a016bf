import GoFabric.Impl.Channel.Session

/-!
# Received frames: a forgery leaves no trace

A frame is authentic when it opens under the session's key and peer, which no
call changes. One that is not leaves the session as it is
(`decrypt_of_forged`), so deleting such calls changes no other result; the
results of the authentic frames are those of the reception window on their
counters alone (`outputs_authentic`).
-/

namespace GF.Proof.Channel

open GF.Impl.Channel GF.Impl.Mrp
open GF.Impl.Aesccm (CCM)

/-- An open session with the key `k` and the peer `n`. -/
structure Open (k : CCM) (n : BitVec 64) (s : Session) : Prop where
  closed : s.closed = false
  cipher : s.decCipher = some k
  peer : s.peerNodeID = n

/-- The frame authenticates under the key `k` and the peer `n`. -/
def authentic (k : CCM) (n : BitVec 64) (f : Frame) : Bool := (f.open k n).isOk

variable {k : CCM} {n : BitVec 64} {s : Session} {f : Frame}

theorem authentic_iff : authentic k n f = true ↔ ∃ plain, f.open k n = .ok plain := by
  unfold authentic
  cases f.open k n with
  | error e | ok plain => simp [Except.toBool]

section

variable (hs : Open k n s)
include hs

theorem decrypt_of_forged {e : Impl.Aesccm.Error} (hf : f.open k n = .error e) :
    s.decrypt f = (.error (.unauthenticated e), s) := by
  simp [Session.decrypt, hs.closed, hs.cipher, hs.peer, hf]

theorem decrypt_of_authentic {plain : List Byte} (hf : f.open k n = .ok plain) :
    s.decrypt f = (.ok (plain, !(s.inWindow.accept f.header.messageCounter).1),
      { s with inWindow := (s.inWindow.accept f.header.messageCounter).2 }) := by
  simp [Session.decrypt, hs.closed, hs.cipher, hs.peer, hf]

theorem Open.decrypt (f : Frame) : Open k n (s.decrypt f).2 := by
  cases hf : f.open k n with
  | error e =>
    rw [decrypt_of_forged hs hf]
    exact hs
  | ok plain =>
    rw [decrypt_of_authentic hs hf]
    exact ⟨hs.closed, hs.cipher, hs.peer⟩

/-- A frame that does not authenticate: no plaintext, and nothing changes. -/
theorem decrypt_not_authentic (hf : authentic k n f = false) :
    (∃ e, (s.decrypt f).1 = .error (.unauthenticated e)) ∧ (s.decrypt f).2 = s := by
  cases ho : f.open k n with
  | error e =>
    rw [decrypt_of_forged hs ho]
    exact ⟨⟨e, rfl⟩, rfl⟩
  | ok plain =>
    rw [authentic_iff.2 ⟨plain, ho⟩] at hf
    cases hf

/-- Authentic frames: each gives its plaintext, with the window's verdict on
its counter. -/
theorem outputs_authentic (fs : List Frame) (hfs : ∀ f ∈ fs, authentic k n f = true) (i : Nat) (f : Frame)
    (hi : fs[i]? = some f) :
    ∃ plain fresh, f.open k n = .ok plain ∧
      (windowMachine.outputs s.inWindow (fs.map fun f => f.header.messageCounter))[i]? = some fresh ∧
      (receiver.outputs s fs)[i]? = some (.ok (plain, !fresh)) := by
  induction fs generalizing s i with
  | nil => simp at hi
  | cons g fs ih =>
    obtain ⟨plain, hg⟩ := authentic_iff.1 (hfs g List.mem_cons_self)
    have hstep := decrypt_of_authentic hs hg
    cases i with
    | zero =>
      obtain rfl := Option.some.inj hi
      refine ⟨plain, _, hg, rfl, ?_⟩
      exact congrArg (fun r => some r.1) hstep
    | succ i =>
      have hnext := ih (hs.decrypt g) (fun f hf => hfs f (List.mem_cons_of_mem g hf)) i hi
      rw [hstep] at hnext
      have hrecv : (receiver.step s g).2 = { s with inWindow := (s.inWindow.accept g.header.messageCounter).2 } :=
        congrArg Prod.snd hstep
      simp only [Machine.outputs, hrecv]
      exact hnext

/-- What each frame of a run gets, from some state the session is open in. -/
theorem mem_zip_outputs (fs : List Frame) {f : Frame} {r : Except Error (List Byte × Bool)}
    (h : (f, r) ∈ fs.zip (receiver.outputs s fs)) : ∃ s', Open k n s' ∧ r = (s'.decrypt f).1 := by
  induction fs generalizing s with
  | nil => simp at h
  | cons g fs ih =>
    simp only [Machine.outputs, List.zip_cons_cons, List.mem_cons] at h
    rcases h with h | h
    · obtain ⟨rfl, rfl⟩ := Prod.mk.inj h
      exact ⟨s, hs, rfl⟩
    · exact ih (hs.decrypt g) h

end

/-- A run of `Decrypt` calls on an open session, whatever its window has
seen. Deleting the calls whose frame does not authenticate leaves the results
of the others as they are; an authentic frame gives its plaintext, and is
marked a duplicate exactly when the window, run on the counters of the
authentic frames alone, refuses it; a frame that does not authenticate gives
an error, without a plaintext. -/
theorem decrypt_forgeries_inert (s : Session) (k : CCM) (hclosed : s.closed = false)
    (hk : s.decCipher = some k) (fs : List Frame) :
    let auth := authentic k s.peerNodeID
    receiver.outputs s (fs.filter auth) =
      ((fs.zip (receiver.outputs s fs)).filter fun p => auth p.1).map Prod.snd ∧
    (∀ (i : Nat) (f : Frame), (fs.filter auth)[i]? = some f →
      ∃ plain fresh, f.open k s.peerNodeID = .ok plain ∧
        (windowMachine.outputs s.inWindow
          ((fs.filter auth).map fun f => f.header.messageCounter))[i]? = some fresh ∧
        (receiver.outputs s (fs.filter auth))[i]? = some (.ok (plain, !fresh))) ∧
    (∀ (f : Frame) r, (f, r) ∈ fs.zip (receiver.outputs s fs) → auth f = false →
      ∃ e, r = .error (.unauthenticated e)) := by
  intro auth
  have hs : Open k s.peerNodeID s := ⟨hclosed, hk, rfl⟩
  refine ⟨?_, ?_, ?_⟩
  · refine Machine.outputs_filter (P := Open k s.peerNodeID) ?_ ?_ hs fs
    · intro s' f hs'
      exact hs'.decrypt f
    · intro s' f hs' hf
      exact (decrypt_not_authentic hs' hf).2
  · intro i f hi
    refine outputs_authentic hs (fs.filter auth) ?_ i f hi
    intro f hf
    exact (List.mem_filter.1 hf).2
  · intro f r hmem hf
    obtain ⟨s', hs', rfl⟩ := mem_zip_outputs hs fs hmem
    exact (decrypt_not_authentic hs' hf).1

/-- A frame the session authenticates, from the peer with node id 2. -/
def replayed : Frame where
  header := { Impl.Message.Header.zero with messageCounter := 5 }
  secFlags := 0
  ciphertext := [0, 2, 6, 121, 10, 3, 0, 0, 0, 5, 0, 0, 0, 0, 0, 0, 0, 0, 3]

/-- A session over the identity in the block cipher's place. -/
def idSession : Session :=
  { encCipher := some ⟨id⟩, decCipher := some ⟨id⟩, localNodeID := 1, peerNodeID := 2, out := 1,
    inWindow := newWindowNoRollover, closed := false }

theorem decrypt_forgeries_inert_replayed :
    ∃ plain fresh, replayed.open ⟨id⟩ 2 = .ok plain ∧ fresh = true ∧
      (receiver.outputs idSession [replayed])[0]? = some (.ok (plain, !fresh)) := by
  have hauth : [replayed].filter (authentic ⟨id⟩ 2) = [replayed] := by decide +kernel
  have h := (decrypt_forgeries_inert idSession ⟨id⟩ rfl rfl [replayed]).2.1 0 replayed
  simp only [show idSession.peerNodeID = 2 from rfl, hauth] at h
  obtain ⟨plain, fresh, ho, hw, hr⟩ := h rfl
  exact ⟨plain, fresh, ho, (Option.some.inj hw).symm, hr⟩

/-- The window refuses the second copy of a frame, and its plaintext is
returned all the same. -/
theorem decrypt_duplicate_plaintext :
    idSession.closed = false ∧ idSession.decCipher.isSome ∧
    windowMachine.outputs idSession.inWindow [5, 5] = [true, false] ∧
    receiver.outputs idSession [replayed, replayed] = [.ok ([1, 2, 3], false), .ok ([1, 2, 3], true)] := by
  decide +kernel

end GF.Proof.Channel
