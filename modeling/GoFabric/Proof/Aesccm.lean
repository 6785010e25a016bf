import GoFabric.Spec.Ccm
import Mathlib.Data.List.Nodup

/-!
# AES-CCM: sealing and opening are inverse, over RFC 3610's blocks

The loops of `cbcMAC` absorb exactly `Spec.Ccm.macBlocks` (`cbcMAC_eq`), from
which the nonce, the additional data and the message can be read back
(`macBlocks_inj`); `ctrCrypt` is a XOR with the keystream
(`ctrCrypt_eq`), so it is its own inverse. `ccm_correct` puts these together
for `Seal` and `Open`, for any function on blocks in the cipher's place.
-/

namespace GF.Proof.Aesccm

open GF.Impl.Aesccm GF.Spec.Ccm List

variable (f : Nat → Block)

variable {x nonce data y nonce' : List Byte} {n i : Nat}

/-! ## Blocks -/

theorem copyTo_eq {src : List Byte} (h : src.length = n) : copyTo n src = src := by
  subst h
  apply ext_getElem
  · simp [copyTo]
  · intro i h1 h2
    simp [copyTo, h2]

theorem toBlock_take (src : List Byte) : toBlock (src.take 16) = toBlock src := by
  apply Vector.ext
  intro i hi
  simp [toBlock]

/-- A block determines the bytes it was made of, given how many they are. -/
theorem toBlock_inj (hl : x.length = y.length) (hx : x.length ≤ 16) (h : toBlock x = toBlock y) : x = y := by
  apply ext_getElem hl
  intro i h1 h2
  have hi := congrArg (fun b : Block => b[i]) h
  simpa [toBlock, h1, h2] using hi

theorem toBlock_toList (b : Block) : toBlock b.toList = b := by
  apply Vector.ext
  intro i hi
  simp [toBlock]

theorem toList_toBlock (h : x.length = 16) : (toBlock x).toList = x :=
  toBlock_inj (by simp [h]) (by simp) (toBlock_toList _)

theorem xorBlock_comm (a b : Block) : xorBlock a b = xorBlock b a := by
  apply Vector.ext
  intro i hi
  simp [xorBlock, BitVec.xor_comm]

theorem xorBlock_xorBlock (a b : Block) : xorBlock (xorBlock a b) b = a := by
  apply Vector.ext
  intro i hi
  simp only [xorBlock, Vector.getElem_zipWith, BitVec.xor_assoc, BitVec.xor_self, BitVec.xor_zero]

theorem xorBlock_zero (a : Block) : xorBlock a (toBlock []) = a := by
  apply Vector.ext
  intro i hi
  simp [xorBlock, toBlock]

/-! ## The MAC's blocks -/

theorem cbcMacBlocks_eq (E : Block → Block) (state : Block) (data : List Byte) :
    cbcMacBlocks E state data = (padBlocks data).foldl (fun x b => E (xorBlock x b)) state := by
  simp only [cbcMacBlocks, padBlocks, blockCount, blockSize, chunk, toBlock_take, foldl_map]

/-- `cbcMAC` is the CBC-MAC over RFC 3610's blocks. -/
theorem cbcMAC_eq (c : CCM) (hn : nonce.length = 13) (p aad : List Byte) :
    c.cbcMAC nonce p aad = cbcMac c.block (macBlocks nonce aad p) := by
  have h0 : ∀ b, c.block b = c.block (xorBlock (toBlock []) b) := by
    intro b
    rw [xorBlock_comm, xorBlock_zero]
  cases aad with
  | nil =>
    simp only [CCM.cbcMAC, cbcMacBlocks_eq, copyTo_eq (n := nonceSize) hn, macBlocks, cbcMac,
      foldl_cons, ← h0]
    rfl
  | cons x xs =>
    have hf : BitVec.ofNat 8 ((tagSize - 2) / 2) <<< 3 ||| BitVec.ofNat 8 (l - 1) ||| 64#8 = macFlags true := by
      decide
    simp [CCM.cbcMAC, cbcMacBlocks_eq, copyTo_eq (n := nonceSize) hn, macBlocks, aadBlocks, b0, cbcMac, ← h0, hf]

theorem length_padBlocks (data : List Byte) : (padBlocks data).length = (data.length + 15) / 16 := by
  simp [padBlocks]

theorem head?_padBlocks (h : data ≠ []) : (padBlocks data).head? = some (toBlock data) := by
  have hpos := length_pos_iff.2 h
  obtain ⟨k, hk⟩ : ∃ k, (data.length + 15) / 16 = k + 1 := ⟨(data.length + 15) / 16 - 1, by omega⟩
  rw [padBlocks, hk, range_succ_eq_map]
  rfl

theorem padBlocks_inj (hl : x.length = y.length) (h : padBlocks x = padBlocks y) : x = y := by
  apply ext_getElem hl
  intro i h1 h2
  have hk : i / 16 < (x.length + 15) / 16 := by omega
  have hb : toBlock (x.drop (16 * (i / 16))) = toBlock (y.drop (16 * (i / 16))) := by
    have := congrArg (fun bs => bs[i / 16]?) h
    simpa [padBlocks, hk, ← hl] using this
  have hi := congrArg (fun b : Block => b.toList.getD (i % 16) 0) hb
  have hm : i % 16 < 16 := Nat.mod_lt _ (by decide)
  simpa [toBlock, hm, Nat.div_add_mod, h1, h2] using hi

theorem length_b0Bytes (hn : nonce.length = 13) (f : Byte) (v : Nat) : ([f] ++ nonce ++ beBytes 2 v).length = 16 := by
  simp [hn]

/-- Flags, nonce and length can be read back from a block. -/
theorem headerBlock_inj {f f' : Byte} {v v' : Nat} (hn : nonce.length = 13) (hn' : nonce'.length = 13)
    (hv : v < 2 ^ 16) (hv' : v' < 2 ^ 16)
    (h : toBlock ([f] ++ nonce ++ beBytes 2 v) = toBlock ([f'] ++ nonce' ++ beBytes 2 v')) :
    f = f' ∧ nonce = nonce' ∧ v = v' := by
  have hl := length_b0Bytes hn f v
  have hl' := length_b0Bytes hn' f' v'
  have hb := toBlock_inj (hl.trans hl'.symm) hl.le h
  obtain ⟨hfn, hvv⟩ := append_inj' hb (by simp)
  obtain ⟨hf, hnn⟩ := List.cons.inj hfn
  exact ⟨hf, hnn, beBytes_inj hv hv' hvv⟩

theorem macFlags_inj {a b : Bool} (h : macFlags a = macFlags b) : a = b := by
  revert a b
  decide

theorem aadBlocks_inj {a a' : List Byte} (ha : a.length < 2 ^ 16) (ha' : a'.length < 2 ^ 16)
    (he : a.isEmpty = a'.isEmpty) (h : aadBlocks a = aadBlocks a') : a = a' := by
  cases a with
  | nil => simpa using he
  | cons x xs =>
    cases a' with
    | nil => simp at he
    | cons y ys =>
      simp only [aadBlocks, reduceCtorEq, if_false] at h
      -- the first block starts with the length, which the other blocks need
      have hb : toBlock (beBytes 2 (x :: xs).length ++ x :: xs) =
          toBlock (beBytes 2 (y :: ys).length ++ y :: ys) := by
        have := congrArg List.head? h
        rw [head?_padBlocks (by simp), head?_padBlocks (by simp)] at this
        exact Option.some.inj this
      have hlen : (x :: xs).length = (y :: ys).length := by
        refine beBytes_inj (n := 2) ha ha' (ext_getElem (by simp) ?_)
        intro i h1 h2
        have hi := congrArg (fun b : Block => b.toList.getD i 0) hb
        simp only [length_beBytes] at h1
        have h16 : i < 16 := by omega
        simpa [toBlock, h16, List.getElem?_append_left, h1] using hi
      exact (append_inj (padBlocks_inj (by simp [hlen]) h) (by simp)).2

section

variable (hn : nonce.length = 13)
include hn

/-- The formatting is injective: the blocks of the MAC determine nonce,
additional data and message. -/
theorem macBlocks_inj {aad aad' p p' : List Byte} (hn' : nonce'.length = 13) (ha : aad.length < 2 ^ 16)
    (ha' : aad'.length < 2 ^ 16) (hp : p.length < 2 ^ 16) (hp' : p'.length < 2 ^ 16)
    (h : macBlocks nonce aad p = macBlocks nonce' aad' p') : nonce = nonce' ∧ aad = aad' ∧ p = p' := by
  obtain ⟨h0, hrest⟩ := List.cons.inj h
  obtain ⟨hf, hnn, hl⟩ := headerBlock_inj hn hn' hp hp' h0
  obtain ⟨hab, hpb⟩ := append_inj' hrest (by simp only [length_padBlocks, hl])
  have he : aad.isEmpty = aad'.isEmpty := by simpa using macFlags_inj hf
  exact ⟨hnn, aadBlocks_inj ha ha' he hab, padBlocks_inj hl hpb⟩

/-! ## The keystream -/

theorem ctrBlock_eq (hi : i < 2 ^ 16) : ctrBlock nonce (BitVec.ofNat 16 i) = counterBlock nonce i := by
  simp only [ctrBlock, copyTo_eq (n := nonceSize) hn, BitVec.toNat_ofNat, Nat.mod_eq_of_lt hi]
  rfl

theorem counterBlock_inj {j : Nat} (hi : i < 2 ^ 16) (hj : j < 2 ^ 16)
    (h : counterBlock nonce i = counterBlock nonce j) : i = j :=
  (headerBlock_inj hn hn hi hj h).2.2

/-- `A_0` and the counter blocks of the keystream are pairwise distinct. -/
theorem nodup_counterBlocks (hl : n < 2 ^ 16) : (counterBlock nonce 0 :: counterBlocks nonce n).Nodup := by
  refine nodup_cons.2 ⟨?_, ?_⟩
  · intro hm
    obtain ⟨k, hk, he⟩ := mem_map.1 hm
    have := mem_range.1 hk
    exact absurd (counterBlock_inj hn (by omega) (by decide) he) (Nat.succ_ne_zero k)
  · refine List.Nodup.map_on ?_ nodup_range
    intro i hi j hj he
    have := mem_range.1 hi
    have := mem_range.1 hj
    have := counterBlock_inj hn (by omega) (by omega) he
    omega

end

/-- The first `k` blocks of a stream. -/
def stream (k : Nat) : List Byte := (List.range k).flatMap fun j => (f j).toList

theorem stream_succ (k : Nat) : stream f (k + 1) = stream f k ++ (f k).toList := by
  simp [stream, range_succ]

theorem length_stream (k : Nat) : (stream f k).length = 16 * k := by
  induction k with
  | zero => rfl
  | succ k ih =>
    rw [stream_succ, length_append, Vector.length_toList]
    omega

/-- The rounds of a loop that XORs a stream onto data, block by block. -/
theorem xor_rounds {k : Nat} (hk : k ≤ blockCount data.length) :
    (List.range k).foldl (fun out j => out ++ List.zipWith (· ^^^ ·) (chunk data j) (f j).toList) [] =
      List.zipWith (· ^^^ ·) (data.take (16 * k)) (stream f k) := by
  induction k with
  | zero => rfl
  | succ k ih =>
    simp only [blockCount, blockSize] at hk
    rw [range_succ, foldl_append, ih (by simp only [blockCount, blockSize]; omega)]
    have ht : data.take (16 * (k + 1)) = data.take (16 * k) ++ chunk data k := by
      rw [Nat.mul_add, take_add, chunk, blockSize]
    rw [ht, stream_succ, zipWith_append]
    · rfl
    · rw [length_take, length_stream]
      omega

theorem le_length_stream (n : Nat) : n ≤ (stream f (blockCount n)).length := by
  rw [length_stream, blockCount, blockSize]
  omega

/-- Data XORed with a stream as long as needed. -/
def xored (data : List Byte) : List Byte :=
  List.zipWith (· ^^^ ·) data (stream f (blockCount data.length))

theorem xor_loop (data : List Byte) :
    (List.range (blockCount data.length)).foldl
      (fun out j => out ++ List.zipWith (· ^^^ ·) (chunk data j) (f j).toList) [] = xored f data := by
  rw [xor_rounds f (Nat.le_refl _), take_of_length_le]
  · rfl
  · simpa only [length_stream] using le_length_stream f data.length

theorem length_xored (data : List Byte) : (xored f data).length = data.length := by
  rw [xored, length_zipWith]
  exact Nat.min_eq_left (le_length_stream f _)

theorem zipWith_xor_twice {ks : List Byte} (h : data.length ≤ ks.length) :
    List.zipWith (· ^^^ ·) (List.zipWith (· ^^^ ·) data ks) ks = data := by
  apply ext_getElem
  · simp only [length_zipWith]
    omega
  · intro i h1 h2
    simp only [getElem_zipWith, BitVec.xor_assoc, BitVec.xor_self, BitVec.xor_zero]

theorem xored_xored (data : List Byte) : xored f (xored f data) = data := by
  rw [xored, length_xored]
  exact zipWith_xor_twice (le_length_stream f data.length)

/-- In `ctrCrypt` the counter runs along with the block number. -/
theorem ctrCrypt_rounds (c : CCM) (nonce data : List Byte) (k : Nat) :
    (List.range k).foldl
      (fun (s : List Byte × BitVec 16) k =>
        let keystream := c.block (ctrBlock nonce s.2)
        (s.1 ++ List.zipWith (· ^^^ ·) (chunk data k) keystream.toList, s.2 + 1)) ([], 1) =
      ((List.range k).foldl (fun out j => out ++ List.zipWith (· ^^^ ·) (chunk data j)
        (c.block (ctrBlock nonce (BitVec.ofNat 16 (j + 1)))).toList) [], BitVec.ofNat 16 (k + 1)) := by
  induction k with
  | zero => rfl
  | succ k ih =>
    rw [range_succ, foldl_append, foldl_append, ih]
    simp only [foldl_cons, foldl_nil, Prod.mk.injEq, true_and]
    exact (BitVec.ofNat_add (k + 1) 1).symm

theorem ctrCrypt_xored (c : CCM) (nonce data : List Byte) :
    c.ctrCrypt nonce data = xored (fun j => c.block (ctrBlock nonce (BitVec.ofNat 16 (j + 1)))) data := by
  rw [CCM.ctrCrypt, ctrCrypt_rounds, xor_loop]

theorem ctrCrypt_eq (c : CCM) (hn : nonce.length = 13) (hd : data.length < 2 ^ 16) :
    c.ctrCrypt nonce data = List.zipWith (· ^^^ ·) data (keystream c.block nonce data.length) := by
  rw [ctrCrypt_xored, xored, stream, keystream, counterBlocks, flatMap_map]
  refine congrArg (List.zipWith _ data) (flatMap_congr fun j hj => ?_)
  have := mem_range.1 hj
  simp only [blockCount, blockSize] at this
  rw [ctrBlock_eq hn (by omega)]

theorem length_ctrCrypt (c : CCM) (nonce data : List Byte) : (c.ctrCrypt nonce data).length = data.length := by
  rw [ctrCrypt_xored, length_xored]

theorem ctrCrypt_ctrCrypt (c : CCM) (nonce data : List Byte) : c.ctrCrypt nonce (c.ctrCrypt nonce data) = data := by
  rw [ctrCrypt_xored, ctrCrypt_xored, xored_xored]

/-! ## `Seal` and `Open` -/

variable (c : CCM) {p s q : List Byte}

section

variable (hn : nonce.length = 13)
include hn

theorem encryptTag_eq (tag : Block) : c.encryptTag nonce tag = xorBlock (c.block (counterBlock nonce 0)) tag := by
  exact congrArg (fun a => xorBlock (c.block a) tag) (ctrBlock_eq hn (by decide))

theorem seal_eq (hp : p.length < 2 ^ 16) (dst aad : List Byte) :
    c.seal dst nonce p aad =
      .ok (dst ++ c.ctrCrypt nonce p ++ (c.encryptTag nonce (c.cbcMAC nonce p aad)).toList) := by
  rw [CCM.seal, if_neg (by simp [hn, nonceSize]), if_neg (by omega)]

/-- Opening a ciphertext and a tag, of lengths that pass the checks. -/
theorem open_append {ct tag : List Byte} (ht : tag.length = 16) (hc : ct.length < 2 ^ 16) (dst aad : List Byte) :
    c.open dst nonce (ct ++ tag) aad =
      if toBlock tag = c.encryptTag nonce (c.cbcMAC nonce (c.ctrCrypt nonce ct) aad) then
        .ok (dst ++ c.ctrCrypt nonce ct)
      else .error .authFailed := by
  have hl : (ct ++ tag).length - tagSize = ct.length := by simp [ht, tagSize]
  rw [CCM.open, if_neg (by simp [hn, nonceSize]), if_neg (by simp [ht, tagSize]), hl, if_neg (by omega)]
  simp only [take_left, drop_left]
  have hiff : xorBlock (toBlock tag) (c.encryptTag nonce (toBlock [])) =
      c.cbcMAC nonce (c.ctrCrypt nonce ct) aad ↔
      toBlock tag = c.encryptTag nonce (c.cbcMAC nonce (c.ctrCrypt nonce ct) aad) := by
    rw [encryptTag_eq c hn, encryptTag_eq c hn, xorBlock_zero]
    constructor
    · intro h
      rw [← h, xorBlock_comm, xorBlock_xorBlock]
    · intro h
      rw [h, xorBlock_comm (c.block _), xorBlock_xorBlock]
  by_cases h : toBlock tag = c.encryptTag nonce (c.cbcMAC nonce (c.ctrCrypt nonce ct) aad)
  · rw [if_pos h, if_pos (hiff.2 h)]
  · rw [if_neg h, if_neg (fun hx => h (hiff.1 hx))]

theorem open_seal (hp : p.length < 2 ^ 16) (aad : List Byte) (h : c.seal [] nonce p aad = .ok s) :
    c.open [] nonce s aad = .ok p := by
  rw [seal_eq c hn hp, nil_append] at h
  obtain rfl := Except.ok.inj h
  rw [open_append c hn (by simp) (by rw [length_ctrCrypt]; exact hp), ctrCrypt_ctrCrypt,
    toBlock_toList, if_pos rfl, nil_append]

theorem seal_of_open (aad : List Byte) (h : c.open [] nonce s aad = .ok q) :
    q.length < 2 ^ 16 ∧ c.seal [] nonce q aad = .ok s := by
  have hs : 16 ≤ s.length ∧ s.length - 16 < 2 ^ 16 := by
    rw [CCM.open, if_neg (by simp [hn, nonceSize])] at h
    by_cases h1 : s.length < tagSize
    · rw [if_pos h1] at h
      cases h
    rw [if_neg h1] at h
    by_cases h2 : s.length - tagSize > 0xFFFF
    · rw [if_pos h2] at h
      cases h
    · simp only [tagSize] at h1 h2
      omega
  obtain ⟨ct, tag, rfl, hct, ht⟩ : ∃ ct tag, s = ct ++ tag ∧ ct.length < 2 ^ 16 ∧ tag.length = 16 :=
    ⟨s.take (s.length - 16), s.drop (s.length - 16), (take_append_drop _ _).symm,
      by rw [length_take]; omega, by rw [length_drop]; omega⟩
  rw [open_append c hn ht hct] at h
  split at h
  · next htag =>
    obtain rfl := Except.ok.inj h
    have hq : (c.ctrCrypt nonce ct).length < 2 ^ 16 := by rw [length_ctrCrypt]; exact hct
    refine ⟨hq, ?_⟩
    rw [nil_append, seal_eq c hn hq, ctrCrypt_ctrCrypt, ← htag, toList_toBlock ht, nil_append]
  · cases h

end

/-- AES-CCM for any function on blocks, a 13-byte nonce and additional data
whose length has the two-octet encoding. `Open` gives back what `Seal` took;
what `Open` accepts is the sealing of what it returns; the MAC is the CBC-MAC
over RFC 3610's blocks, which determine nonce, additional data and message;
the text is XORed with the keystream and the tag with `E(A_0)`, over counter
blocks that are all distinct. -/
theorem ccm_correct (nonce aad : List Byte) (hn : nonce.length = 13) (ha : aad.length < 2 ^ 16 - 2 ^ 8) :
    (∀ p : List Byte, p.length < 2 ^ 16 →
      ∃ s, c.seal [] nonce p aad = .ok s ∧ c.open [] nonce s aad = .ok p) ∧
    (∀ s q, c.open [] nonce s aad = .ok q → c.seal [] nonce q aad = .ok s) ∧
    (∀ p : List Byte, p.length < 2 ^ 16 → c.cbcMAC nonce p aad = cbcMac c.block (macBlocks nonce aad p)) ∧
    (∀ nonce' aad' p p' : List Byte, nonce'.length = 13 → aad'.length < 2 ^ 16 - 2 ^ 8 →
      p.length < 2 ^ 16 → p'.length < 2 ^ 16 →
      macBlocks nonce aad p = macBlocks nonce' aad' p' → nonce = nonce' ∧ aad = aad' ∧ p = p') ∧
    (∀ p : List Byte, p.length < 2 ^ 16 →
      c.ctrCrypt nonce p = List.zipWith (· ^^^ ·) p (keystream c.block nonce p.length) ∧
      (∀ tag, c.encryptTag nonce tag = xorBlock (c.block (counterBlock nonce 0)) tag) ∧
      (counterBlock nonce 0 :: counterBlocks nonce p.length).Nodup) := by
  refine ⟨?_, ?_, ?_, ?_, ?_⟩
  · intro p hp
    have hs := seal_eq c hn hp [] aad
    exact ⟨_, hs, open_seal c hn hp aad hs⟩
  · intro s q h
    exact (seal_of_open c hn aad h).2
  · intro p _
    exact cbcMAC_eq c hn p aad
  · intro nonce' aad' p p' hn' ha' hp hp' h
    exact macBlocks_inj hn hn' (by omega) (by omega) hp hp' h
  · intro p hp
    exact ⟨ctrCrypt_eq c hn hp, encryptTag_eq c hn, nodup_counterBlocks hn hp⟩

theorem ccm_correct_reversal :
    ∃ s, CCM.seal ⟨Vector.reverse⟩ [] (List.replicate 13 7) [1, 2, 3] [9] = .ok s ∧
      CCM.open ⟨Vector.reverse⟩ [] (List.replicate 13 7) s [9] = .ok [1, 2, 3] :=
  (ccm_correct ⟨Vector.reverse⟩ (List.replicate 13 7) [9] (by decide) (by decide)).1 [1, 2, 3] (by decide)

end GF.Proof.Aesccm
