import GoFabric.Proof.Channel.Decrypt
import GoFabric.Proof.Channel.Encrypt
import GoFabric.Proof.Channel.Group
import GoFabric.Proof.Mrp.Window

/-!
# From one session to the other

Whatever calls of `Encrypt` run at once, the header of a call has the counter that it was sealed
under (`stamped_step`). So what a call returns opens at a peer with the key (`Sent.open`), and only
the reception window says what is a duplicate.
-/

namespace GF.Proof.Channel

open GF.Impl.Channel GF.Impl.Mrp GF.Spec.Replay GF.Proof.Aesccm GF.Proof.Mrp List
open GF.Impl.Aesccm (CCM)

variable {k : CCM} {s : Session} {st st' : Calls} {t : EncryptCall} {f : Frame} {es : List Event}

/-- The counter of a call is in its header. -/
def Stamped (t : EncryptCall) : Prop := ∀ c, t.counter = some c → t.header.messageCounter = c

theorem stamped_call (h : Stamped t) (s : Session) : Stamped (t.step s).2 := by
  unfold EncryptCall.step
  split
  · split <;> exact h
  · split <;> exact h
  · split
    · exact fun c hc => Option.some.inj hc
    · exact h
  · exact h
  · exact h

theorem stamped_step {e : Event} (h : ∀ i t, IsCall st i t → Stamped t) (hstep : callSystem.step st e = some st') :
    ∀ i t, IsCall st' i t → Stamped t := by
  intro i t hi
  cases e with
  | encrypt header secFlags plaintext =>
    cases hstep
    obtain hi | ⟨-, ht⟩ := isCall_append hi
    · exact h i t hi
    · cases ht
      exact nofun
  | close =>
    cases hstep
    obtain hi | ⟨-, ht⟩ := isCall_append hi
    · exact h i t hi
    · cases ht
  | step k =>
    simp only [callSystem, Calls.step] at hstep
    split at hstep <;> cases hstep
    · obtain ⟨-, hi⟩ | ⟨-, ht⟩ := isCall_set hi
      · exact h i t hi
      · cases ht
        exact stamped_call (h k _ ‹_›) _
    · obtain ⟨-, hi⟩ | ⟨-, ht⟩ := isCall_set hi
      · exact h i t hi
      · cases ht

/-- The frame is what the call returned, as it is read from the wire. -/
def Sent (st : Calls) (t : EncryptCall) (f : Frame) : Prop :=
  ∃ i r, IsCall st i t ∧ t.pc = .returned (.ok r) ∧
    f = ⟨{ t.header with raw := t.header.marshal }, t.secFlags, r.ciphertext⟩

theorem Sent.open (h : Sent st t f) (hrun : callSystem.run ⟨s, []⟩ es = some st) (hk : s.encCipher = some k) :
    f.open k s.localNodeID = .ok t.plaintext := by
  obtain ⟨i, r, hi, hr, rfl⟩ := h
  have hstamped : ∀ i t, IsCall st i t → Stamped t :=
    System.run_invariant (fun _ _ _ h hstep => stamped_step h hstep) (by simp [IsCall]) hrun
  obtain ⟨hcounter, k', hk', hseal⟩ := ((run_inv hrun).call i t hi).sealed r hr
  obtain rfl := Option.some.inj (hk.symm.trans hk')
  have hlen : t.plaintext.length < 2 ^ 16 := by
    unfold CCM.seal at hseal
    split at hseal <;> [cases hseal; skip]
    split at hseal <;> [cases hseal; skip]
    omega
  rw [← hstamped i t hi _ hcounter] at hseal
  show k.open [] _ _ (ite _ t.header.marshal t.header.marshal) = _
  rw [ite_self]
  exact open_seal k (length_buildNonce _ _ _) hlen _ hseal

/-- Frames of one session at another one with its key, in whatever interleaving they were sealed
and in whatever order, and however often, they arrive: each gives the plaintext of its call, and
those are duplicates that the reference refuses. -/
theorem encrypted_frames_arrive (s s' : Session) (k : CCM) (hk : s.encCipher = some k)
    (hs' : Open k s.localNodeID s') (hnew : s'.inWindow = newWindowNoRollover) (es : List Event) (st : Calls)
    (hrun : callSystem.run ⟨s, []⟩ es = some st) (fs : List Frame) (hfs : ∀ f ∈ fs, ∃ t, Sent st t f) (i : Nat)
    (f : Frame) (hi : fs[i]? = some f) :
    ∃ fresh, (reference.outputs [] (fs.map fun f => f.header.messageCounter))[i]? = some fresh ∧
      ∀ t, Sent st t f → (receiver.outputs s' fs)[i]? = some (.ok (t.plaintext, !fresh)) := by
  have hauth : ∀ f ∈ fs, authentic k s.localNodeID f = true := by
    intro f hf
    obtain ⟨t, ht⟩ := hfs f hf
    exact authentic_iff.2 ⟨_, ht.open hrun hk⟩
  obtain ⟨plain, fresh, hopen, hwindow, hout⟩ := outputs_authentic hs' fs hauth i f hi
  rw [hnew, window_sim.outputs_eq tracks_new] at hwindow
  refine ⟨fresh, hwindow, fun t ht => ?_⟩
  rw [hout, Except.ok.inj (hopen.symm.trans (ht.open hrun hk))]

/-- A frame that arrives twice. -/
theorem encrypted_frames_arrive_twice : ∃ st t f,
    callSystem.run ⟨idSession, []⟩ [.encrypt .zero 0 [2], .step 0, .step 0, .step 0, .step 0] = some st ∧
      Sent st t f ∧ (receiver.outputs { idSession with peerNodeID := 1 } [f, f])[1]? = some (.ok ([2], true)) := by
  obtain ⟨st, t, f, hrun, hsent, hplain, hcounter⟩ : ∃ st t f,
      callSystem.run ⟨idSession, []⟩ [.encrypt .zero 0 [2], .step 0, .step 0, .step 0, .step 0] = some st ∧
        Sent st t f ∧ t.plaintext = [2] ∧ f.header.messageCounter = 1 :=
    ⟨_, _, _, rfl, ⟨0, _, rfl, rfl, rfl⟩, rfl, rfl⟩
  obtain ⟨fresh, hfresh, h⟩ := encrypted_frames_arrive idSession { idSession with peerNodeID := 1 } ⟨id⟩ rfl
    ⟨rfl, rfl, rfl⟩ rfl _ st hrun [f, f] (by simpa using ⟨t, hsent⟩) 1 f rfl
  simp only [map_cons, map_nil, hcounter] at hfresh
  cases hfresh
  exact ⟨st, t, f, hrun, hsent, by rw [h t hsent, hplain]; decide⟩

end GF.Proof.Channel
