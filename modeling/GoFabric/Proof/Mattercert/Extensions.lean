import GoFabric.Proof.Mattercert.Names

/-!
# The signed form of the extensions

The signed form of a decoded certificate has one element for each of its
extensions. The element of an extension under a tag of its own is that of no other
tag and of no other value; that of a future extension may be one of them.
-/

namespace GF.Proof.Mattercert

open GF.Der GF.Impl.Mattercert GF.Spec.Certificate List

variable {flags : BitVec 16} {i bit j : Nat} {raw val : List Byte} {vs : List (BitVec 8)} {oids : List (List Nat)}

/-! ## Key usage -/

theorem mem_setBits : bit ∈ setBits flags ↔ flags.getLsbD bit = true := by
  rw [setBits, mem_filter, mem_range, and_iff_right_iff_imp]
  exact BitVec.lt_of_getLsbD

/-- The bits of a byte that is built from the first bit on. -/
theorem getLsbD_usageFold (bits : List Nat) (b : Byte) (i : Nat) (hj : j < 8) :
    (bits.foldl (fun b bit => if bit / 8 = i then b ||| (0x80#8 >>> (bit % 8)) else b) b).getLsbD (7 - j) = true ↔
      b.getLsbD (7 - j) = true ∨ 8 * i + j ∈ bits := by
  induction bits generalizing b with
  | nil => simp
  | cons bit bits ih =>
    have hbit : ∀ k < 8, (0x80#8 >>> k).getLsbD (7 - j) = true ↔ k = j := by
      clear ih
      revert j
      decide
    rw [foldl_cons, ih, mem_cons]
    by_cases hi : bit / 8 = i
    · rw [if_pos hi, BitVec.getLsbD_or, Bool.or_eq_true, hbit _ (Nat.mod_lt _ (by decide)), or_assoc]
      have heq : bit % 8 = j ↔ 8 * i + j = bit := by omega
      rw [heq]
    · have hne : 8 * i + j ≠ bit := by omega
      rw [if_neg hi, or_iff_right hne]

theorem getLsbD_usageByte (flags : BitVec 16) (i : Nat) (hj : j < 8) :
    (usageByte flags i).getLsbD (7 - j) = flags.getLsbD (8 * i + j) := by
  have h := getLsbD_usageFold (setBits flags) 0 i hj
  rw [mem_setBits] at h
  rw [Bool.eq_iff_iff]
  refine h.trans (or_iff_right ?_)
  simp

theorem le_of_getLast {highest : Nat} (h : (setBits flags).getLast? = some highest)
    (hbit : flags.getLsbD bit = true) : bit ≤ highest := by
  have hsorted : (setBits flags).Pairwise (· < ·) := pairwise_lt_range.filter _
  obtain ⟨bits, hbits⟩ := List.getLast?_eq_some_iff.1 h
  have hmem : bit ∈ setBits flags := mem_setBits.2 hbit
  rw [hbits, pairwise_append] at hsorted
  rw [hbits, mem_append, mem_singleton] at hmem
  obtain hmem | rfl := hmem
  · exact Nat.le_of_lt (hsorted.2.2 bit hmem highest mem_cons_self)
  · exact Nat.le_refl _

/-- The bytes of the flags; a byte that is not there has no bits. -/
theorem encodeKeyUsageBits_getD (flags : BitVec 16) (hi : i < 2) :
    (encodeKeyUsageBits flags).1.getD i 0 = usageByte flags i := by
  have hzero {i : Nat} (h : ∀ j < 8, flags.getLsbD (8 * i + j) = false) : usageByte flags i = 0 := by
    refine BitVec.eq_of_getLsbD_eq fun k hk => ?_
    have hj := getLsbD_usageByte flags i (show 7 - k < 8 by omega)
    rw [show 7 - (7 - k) = k by omega, h _ (by omega)] at hj
    simp [hj]
  unfold encodeKeyUsageBits
  split
  · rename_i hnone
    have hbits : setBits flags = [] := List.getLast?_eq_none_iff.1 hnone
    have hflags : ∀ bit, flags.getLsbD bit = false := fun bit => by
      rw [Bool.eq_false_iff, Ne, ← mem_setBits, hbits]
      exact not_mem_nil
    rw [hzero fun j _ => hflags _]
    match i with
    | 0 => rfl
    | 1 => rfl
  · rename_i highest hlast
    by_cases h8 : highest < 8
    · rw [if_pos h8]
      match i with
      | 0 => rfl
      | 1 =>
        refine (hzero fun j _ => ?_).symm
        rw [Bool.eq_false_iff]
        intro hbit
        have := le_of_getLast hlast hbit
        omega
    · rw [if_neg h8]
      match i with
      | 0 => rfl
      | 1 => rfl

theorem encodeKeyUsageBits_inj {flags' : BitVec 16}
    (h : (encodeKeyUsageBits flags).1 = (encodeKeyUsageBits flags').1) : flags = flags' := by
  refine BitVec.eq_of_getLsbD_eq fun bit hbit => ?_
  have hbyte : usageByte flags (bit / 8) = usageByte flags' (bit / 8) := by
    rw [← encodeKeyUsageBits_getD flags (by omega), ← encodeKeyUsageBits_getD flags' (by omega), h]
  have hj := getLsbD_usageByte flags (bit / 8) (show bit % 8 < 8 by omega)
  have hj' := getLsbD_usageByte flags' (bit / 8) (show bit % 8 < 8 by omega)
  rw [Nat.div_add_mod] at hj hj'
  rw [← hj, ← hj', hbyte]

/-! ## Extended key usage -/

/-- The usages that `mapEKU` has. -/
def usages : List (BitVec 8 × List Nat) :=
  [(1, [1, 3, 6, 1, 5, 5, 7, 3, 1]), (2, [1, 3, 6, 1, 5, 5, 7, 3, 2]), (3, [1, 3, 6, 1, 5, 5, 7, 3, 3]),
    (4, [1, 3, 6, 1, 5, 5, 7, 3, 4]), (5, [1, 3, 6, 1, 5, 5, 7, 3, 8]), (6, [1, 3, 6, 1, 5, 5, 7, 3, 9])]

theorem mapEKU_mem {v : BitVec 8} {oid : List Nat} (h : mapEKU v = .ok oid) : (v, oid) ∈ usages := by
  have hv {k : Nat} (hk : v.toNat = k) : v = BitVec.ofNat 8 k := by
    rw [← hk, BitVec.ofNat_toNat, BitVec.setWidth_eq]
  unfold mapEKU at h
  split at h
  case h_7 => cases h
  all_goals
    rename_i hk
    cases h
    rw [hv hk]
    decide

abbrev Usage := { u : BitVec 8 × List Nat // u ∈ usages }

theorem usage_injective : Function.Injective fun u : Usage => objectIdentifier u.1.2 := by
  have hnodup : (usages.map fun u => objectIdentifier u.2).Nodup := by decide +kernel
  intro u u' h
  exact Subtype.ext (inj_on_of_nodup_map hnodup u.2 u'.2 h)

theorem whole_usage (u : Usage) : Whole (objectIdentifier u.1.2) := by
  have hlen : ∀ u ∈ usages, (objectIdentifier u.2).length ≤ 128 := by decide +kernel
  exact whole_objectIdentifier (hlen u.1 u.2)

theorem mapM_mapEKU (h : vs.mapM mapEKU = .ok oids) :
    ∃ us : List Usage, vs = us.map (·.1.1) ∧ oids = us.map (·.1.2) := by
  induction vs generalizing oids with
  | nil =>
    cases h
    exact ⟨[], rfl, rfl⟩
  | cons v vs ih =>
    rw [mapM_cons] at h
    obtain ⟨oid, hoid, h⟩ := except_bind_eq_ok.1 h
    obtain ⟨rest, hrest, h⟩ := except_bind_eq_ok.1 h
    cases h
    obtain ⟨us, rfl, rfl⟩ := ih hrest
    exact ⟨⟨(v, oid), mapEKU_mem hoid⟩ :: us, rfl, rfl⟩

theorem mapEKU_inj {vs' : List (BitVec 8)} {oids' : List (List Nat)} (h : vs.mapM mapEKU = .ok oids)
    (h' : vs'.mapM mapEKU = .ok oids')
    (heq : (oids.map objectIdentifier).flatten = (oids'.map objectIdentifier).flatten) : vs = vs' := by
  obtain ⟨us, rfl, rfl⟩ := mapM_mapEKU h
  obtain ⟨us', rfl, rfl⟩ := mapM_mapEKU h'
  rw [map_map, map_map] at heq
  have hmap := flatten_inj (forall_mem_map.2 fun u _ => whole_usage u)
    (forall_mem_map.2 fun u _ => whole_usage u) heq
  rw [map_injective_iff.2 usage_injective hmap]

/-! ## The extensions that have a tag of their own -/

inductive ExtensionKind
  | constraints
  | usage
  | extended
  | key
  | issuer
deriving DecidableEq

namespace ExtensionKind

def tag : ExtensionKind → BitVec 8
  | constraints => 1
  | usage => 2
  | extended => 3
  | key => 4
  | issuer => 5

def oid : ExtensionKind → List Nat
  | constraints => oidExtBasicConstraints
  | usage => oidExtKeyUsage
  | extended => oidExtExtendedKeyUsage
  | key => oidExtSubjectKeyID
  | issuer => oidExtAuthorityKeyID

def critical : ExtensionKind → Bool
  | constraints | usage | extended => true
  | key | issuer => false

def has (e : CertificateExtensions) : ExtensionKind → Bool
  | constraints => e.hasBasicConstraints
  | usage => e.hasKeyUsage
  | extended => e.hasExtendedKeyUsage
  | key => e.hasSubjectKeyID
  | issuer => e.hasAuthorityKeyID

/-- The value of the extension, as it is signed. -/
def contents (e : CertificateExtensions) : ExtensionKind → Except CertError (List Byte)
  | constraints => .ok (sequence [if e.basicConstraintsIsCA then boolean true else [],
      if e.basicConstraintsHasPathLen then integer e.basicConstraintsPathLen.toNat else []])
  | usage => .ok (bitString ((8 - (encodeKeyUsageBits e.keyUsage).2 % 8) % 8) (encodeKeyUsageBits e.keyUsage).1)
  | extended => do
    let oids ← e.extendedKeyUsage.mapM mapEKU
    pure (sequence (oids.map objectIdentifier))
  | key => .ok (octetString e.subjectKeyID)
  | issuer => .ok (sequence [if e.authorityKeyID = [] then [] else element 0x80 e.authorityKeyID])

/-- The values of the extension are the same. -/
def Same (e e' : CertificateExtensions) : ExtensionKind → Prop
  | constraints => e.basicConstraintsIsCA = e'.basicConstraintsIsCA ∧
      e.basicConstraintsHasPathLen = e'.basicConstraintsHasPathLen ∧
      (e.basicConstraintsHasPathLen = true → e.basicConstraintsPathLen = e'.basicConstraintsPathLen)
  | usage => e.keyUsage = e'.keyUsage
  | extended => e.extendedKeyUsage = e'.extendedKeyUsage
  | key => e.subjectKeyID = e'.subjectKeyID
  | issuer => e.authorityKeyID = e'.authorityKeyID

end ExtensionKind

open ExtensionKind

variable {e e' : CertificateExtensions} {k k' : ExtensionKind}

theorem buildExtension_kind (e : CertificateExtensions) (k : ExtensionKind) :
    buildExtension e k.tag = k.contents e >>= marshalExt k.oid k.critical := by
  cases k with
  | extended =>
    show (e.extendedKeyUsage.mapM mapEKU >>= _) = (e.extendedKeyUsage.mapM mapEKU >>= _) >>= _
    cases e.extendedKeyUsage.mapM mapEKU <;> rfl
  | _ => rfl

theorem kind_of_buildExtension {tag : BitVec 8} (h : buildExtension e tag = .ok raw) :
    ∃ k : ExtensionKind, k.tag = tag := by
  have htag {n : Nat} (hn : tag.toNat = n) : BitVec.ofNat 8 n = tag := by
    rw [← hn, BitVec.ofNat_toNat, BitVec.setWidth_eq]
  unfold buildExtension at h
  split at h
  · exact ⟨constraints, htag ‹_›⟩
  · exact ⟨usage, htag ‹_›⟩
  · exact ⟨extended, htag ‹_›⟩
  · exact ⟨key, htag ‹_›⟩
  · exact ⟨issuer, htag ‹_›⟩
  · cases h

/-! ### Their values -/

theorem constraints_inj {isCA isCA' bounded bounded' : Bool} {n n' : Nat}
    (h : [if isCA then boolean true else [], if bounded then integer n else []].flatten =
      [if isCA' then boolean true else [], if bounded' then integer n' else []].flatten) :
    isCA = isCA' ∧ bounded = bounded' ∧ (bounded = true → n = n') := by
  have hbound {bounded bounded' : Bool} (h : (if bounded then integer n else []) = if bounded' then integer n' else []) :
      bounded = bounded' ∧ (bounded = true → n = n') := by
    cases bounded <;> cases bounded'
    · exact ⟨rfl, nofun⟩
    · exact absurd h.symm (element_ne_nil _ _)
    · exact absurd h (element_ne_nil _ _)
    · exact ⟨rfl, fun _ => integer_inj h⟩
  -- a BOOLEAN does not begin as an INTEGER does
  have hfirst {bounded : Bool} {n : Nat} {rest : List Byte} (h : boolean true ++ rest = if bounded then integer n else []) :
      False := by
    cases bounded
    · cases h
    · exact absurd (List.cons.inj h).1 (by decide)
  simp only [flatten_cons, flatten_nil, append_nil] at h
  cases isCA <;> cases isCA'
  · exact ⟨rfl, hbound h⟩
  · exact (hfirst h.symm).elim
  · exact (hfirst h).elim
  · exact ⟨rfl, hbound (append_cancel_left h)⟩

theorem contents_inj (h : k.contents e = .ok val) (h' : k.contents e' = .ok val) : k.Same e e' := by
  cases k with
  | constraints =>
    have hseq := sequence_inj (Except.ok.inj (h.trans h'.symm))
    obtain ⟨hca, hbounded, hbound⟩ := constraints_inj hseq
    exact ⟨hca, hbounded, fun hb => BitVec.eq_of_toNat_eq (hbound hb)⟩
  | usage =>
    have hbits := (element_inj (Except.ok.inj (h.trans h'.symm))).2
    exact encodeKeyUsageBits_inj (List.cons.inj hbits).2
  | extended =>
    obtain ⟨oids, hoids, hval⟩ := except_bind_eq_ok.1 h
    obtain ⟨oids', hoids', hval'⟩ := except_bind_eq_ok.1 h'
    exact mapEKU_inj hoids hoids' (sequence_inj (Except.ok.inj (hval.trans hval'.symm)))
  | key => exact (element_inj (Except.ok.inj (h.trans h'.symm))).2
  | issuer =>
    have hseq := sequence_inj (Except.ok.inj (h.trans h'.symm))
    simp only [flatten_cons, flatten_nil, append_nil] at hseq
    show e.authorityKeyID = e'.authorityKeyID
    split at hseq
    · split at hseq
      · simp_all only
      · exact absurd hseq.symm (element_ne_nil _ _)
    · split at hseq
      · exact absurd hseq (element_ne_nil _ _)
      · exact (element_inj hseq).2

theorem contents_congr (hsame : k.Same e e') : k.contents e = k.contents e' := by
  cases k with
  | constraints =>
    obtain ⟨hca, hbounded, hbound⟩ := hsame
    unfold contents
    rw [hca, ← hbounded]
    cases hb : e.basicConstraintsHasPathLen with
    | false => rfl
    | true => rw [hbound hb]
  | usage =>
    have hflags : e.keyUsage = e'.keyUsage := hsame
    rw [contents, contents, hflags]
  | extended =>
    have hvalues : e.extendedKeyUsage = e'.extendedKeyUsage := hsame
    rw [contents, contents, hvalues]
  | key =>
    have hid : e.subjectKeyID = e'.subjectKeyID := hsame
    rw [contents, contents, hid]
  | issuer =>
    have hid : e.authorityKeyID = e'.authorityKeyID := hsame
    rw [contents, contents, hid]

/-! ### Their elements -/

theorem marshalExt_eq {id : List Nat} {critical : Bool} (h : marshalExt id critical val = .ok raw) :
    raw = Der.sequence [objectIdentifier id, if critical then boolean true else [], octetString val] ∧ Whole raw := by
  unfold marshalExt at h
  split at h
  · rename_i raw' hraw
    cases h
    exact unmarshal_element (by decide) hraw
  · cases h

theorem buildExtension_eq (h : buildExtension e k.tag = .ok raw) :
    ∃ val, k.contents e = .ok val ∧
      raw = Der.sequence [objectIdentifier k.oid, if k.critical then boolean true else [], octetString val] ∧ Whole raw := by
  rw [buildExtension_kind] at h
  obtain ⟨val, hval, h⟩ := except_bind_eq_ok.1 h
  exact ⟨val, hval, marshalExt_eq h⟩

/-- The element of an extension is that of no other tag, and of no other value. -/
theorem buildExtension_inj (h : buildExtension e k.tag = .ok raw) (h' : buildExtension e' k'.tag = .ok raw) :
    k = k' ∧ k.Same e e' := by
  obtain ⟨val, hval, hraw, -⟩ := buildExtension_eq h
  obtain ⟨val', hval', hraw', -⟩ := buildExtension_eq h'
  have hseq := sequence_inj (hraw.symm.trans hraw')
  simp only [flatten_cons, flatten_nil, append_nil] at hseq
  have hwhole (k : ExtensionKind) : Whole (objectIdentifier k.oid) := by
    refine whole_objectIdentifier ?_
    cases k <;> decide +kernel
  obtain ⟨hoid, hrest⟩ := (hwhole k).append_inj (hwhole k') hseq
  have hk : k = k' := by
    revert hoid
    clear hraw hraw' hval hval' h h' hseq hrest
    cases k <;> cases k' <;> decide +kernel
  subst hk
  have hoctets := (element_inj (append_cancel_left hrest)).2
  subst hoctets
  exact ⟨rfl, contents_inj hval hval'⟩

theorem buildExtension_congr (hsame : k.Same e e') : buildExtension e k.tag = buildExtension e' k.tag := by
  rw [buildExtension_kind, buildExtension_kind, contents_congr hsame]

/-! ## Extensions in order -/

theorem unmarshal_whole {octets : List Byte} (h : unmarshal octets = some raw) : Whole raw := by
  obtain ⟨⟨raw', rest⟩, hrun, rfl⟩ := Option.map_eq_some_iff.1 h
  exact (whole_of_rawValue (eq_ok_of_toOption hrun)).2

theorem buildFutureExtension_whole {fe : List Byte} (h : buildFutureExtension fe = .ok raw) : Whole raw := by
  unfold buildFutureExtension at h
  split at h
  · rename_i raw' hraw
    cases h
    exact unmarshal_whole hraw
  · cases h

/-- The extensions that are written are those of the tags, in the order of the
tags. -/
theorem buildOrdered_forall {order : List (BitVec 8)} {future exts : List (List Byte)}
    (h : buildOrdered e order future = .ok exts) :
    List.Forall₂ (fun tag raw => Whole raw ∧ (tag ≠ 6 → buildExtension e tag = .ok raw)) order exts := by
  induction order generalizing future exts with
  | nil =>
    cases h
    exact .nil
  | cons tag order ih =>
    by_cases htag : tag = 6
    · rw [buildOrdered.eq_def] at h
      dsimp only at h
      rw [if_pos htag] at h
      cases future with
      | nil => cases h
      | cons fe future =>
        obtain ⟨raw, hraw, h⟩ := except_bind_eq_ok.1 h
        obtain ⟨rest, hrest, h⟩ := except_bind_eq_ok.1 h
        cases h
        exact .cons ⟨buildFutureExtension_whole hraw, fun hne => absurd htag hne⟩ (ih hrest)
    · rw [buildOrdered.eq_def] at h
      dsimp only at h
      rw [if_neg htag] at h
      obtain ⟨raw, hraw, h⟩ := except_bind_eq_ok.1 h
      obtain ⟨rest, hrest, h⟩ := except_bind_eq_ok.1 h
      cases h
      obtain ⟨k, rfl⟩ := kind_of_buildExtension hraw
      obtain ⟨val, -, -, hwhole⟩ := buildExtension_eq hraw
      exact .cons ⟨hwhole, fun _ => hraw⟩ (ih hrest)

/-- The extensions in the order they were read in. -/
def Written (e : CertificateExtensions) (exts : List (List Byte)) : Prop :=
  List.Forall₂ (fun tag raw => Whole raw ∧ (tag ≠ 6 → buildExtension e tag = .ok raw)) e.order exts

theorem Tidy.has_eq (h : Tidy e) (k : ExtensionKind) : k.has e = true ↔ k.tag ∈ e.order := by
  cases k with
  | constraints => exact h.constraints.has_iff
  | usage => exact h.usage.has_iff
  | extended => exact h.extended.has_iff
  | key => exact h.key.has_iff
  | issuer => exact h.issuer.has_iff

theorem Tidy.written (h : Tidy e) {exts : List (List Byte)} (hexts : buildExtensions e = .ok exts) :
    Written e exts := by
  have horder : (if e.order = [] then canonicalExtensionOrder e else e.order) = e.order := by
    by_cases hnil : e.order = []
    · have hhas (k : ExtensionKind) : k.has e = false := by
        rw [Bool.eq_false_iff, Ne, h.has_eq k, hnil]
        exact not_mem_nil
      rw [hnil, canonicalExtensionOrder, h.future hnil,
        show e.hasBasicConstraints = false from hhas .constraints, show e.hasKeyUsage = false from hhas .usage,
        show e.hasExtendedKeyUsage = false from hhas .extended, show e.hasSubjectKeyID = false from hhas .key,
        show e.hasAuthorityKeyID = false from hhas .issuer]
      rfl
    · rw [if_neg hnil]
  rw [buildExtensions, horder] at hexts
  exact buildOrdered_forall hexts

/-- The same values, of extensions that are there or not. -/
theorem Tidy.same_of_absent (h : Tidy e) (h' : Tidy e') (hk : k.has e = false) (hk' : k.has e' = false) :
    k.Same e e' := by
  cases k with
  | constraints =>
    obtain ⟨hca, hbounded⟩ := h.constraints.zero hk
    obtain ⟨hca', hbounded'⟩ := h'.constraints.zero hk'
    refine ⟨hca.trans hca'.symm, hbounded.trans hbounded'.symm, fun hb => ?_⟩
    rw [hbounded] at hb
    cases hb
  | usage => exact (h.usage.zero hk).trans (h'.usage.zero hk').symm
  | extended => exact (h.extended.zero hk).trans (h'.extended.zero hk').symm
  | key => exact (h.key.zero hk).trans (h'.key.zero hk').symm
  | issuer => exact (h.issuer.zero hk).trans (h'.issuer.zero hk').symm

theorem Tidy.sameExtensions_iff_kinds (h : Tidy e) (h' : Tidy e') :
    SameExtensions e e' ↔ ∀ k : ExtensionKind, k.has e = k.has e' ∧ k.Same e e' := by
  constructor
  · intro hsame k
    cases k with
    | constraints => exact ⟨hsame.constraints, hsame.authority, hsame.bounded, fun _ => hsame.bound⟩
    | usage => exact ⟨hsame.usage, hsame.usages⟩
    | extended => exact ⟨hsame.extended, hsame.extendeds⟩
    | key => exact ⟨hsame.key, hsame.keyID⟩
    | issuer => exact ⟨hsame.issuer, hsame.issuerID⟩
  · intro hkinds
    obtain ⟨hconstraints, hca, hbounded, hbound⟩ := hkinds .constraints
    obtain ⟨husage, husages⟩ := hkinds .usage
    obtain ⟨hextended, hextendeds⟩ := hkinds .extended
    obtain ⟨hkey, hkeyID⟩ := hkinds .key
    obtain ⟨hissuer, hissuerID⟩ := hkinds .issuer
    refine ⟨hconstraints, hca, hbounded, ?_, husage, husages, hextended, hextendeds, hkey, hkeyID, hissuer, hissuerID⟩
    cases hb : e.basicConstraintsHasPathLen with
    | false => rw [h.bound hb, h'.bound (hbounded.symm.trans hb)]
    | true => exact hbound hb

section Restated

variable {exts : List (List Byte)}

theorem Written.get {tag : BitVec 8} (h : Written e exts) (hi : e.order[i]? = some tag) (hne : tag ≠ 6) :
    ∃ raw, exts[i]? = some raw ∧ buildExtension e tag = .ok raw := by
  obtain ⟨hlt, htag⟩ := List.getElem?_eq_some_iff.1 hi
  have hlt' : i < exts.length := h.length_eq ▸ hlt
  have hget := (List.forall₂_iff_get.1 h).2 i hlt hlt'
  refine ⟨exts[i], List.getElem?_eq_getElem hlt', ?_⟩
  exact htag ▸ hget.2 (by rwa [get_eq_getElem, htag])

/-- Another certificate has a tag at each place where this one has one. -/
theorem Written.tag {tag : BitVec 8} (h : Written e exts) (h' : Written e' exts) (hi : e.order[i]? = some tag) :
    ∃ tag', e'.order[i]? = some tag' := by
  obtain ⟨hlt, -⟩ := List.getElem?_eq_some_iff.1 hi
  have hlt' : i < e'.order.length := by
    rw [h'.length_eq, ← h.length_eq]
    exact hlt
  exact ⟨_, List.getElem?_eq_getElem hlt'⟩

theorem tag_ne_future (k : ExtensionKind) : k.tag ≠ 6 := by
  cases k <;> decide

theorem Written.kind (h : Written e exts) (h' : Written e' exts) (hr : Restated exts e'.order e.order)
    (hk : k.tag ∈ e.order) : k.tag ∈ e'.order ∧ k.Same e e' := by
  obtain ⟨i, hi⟩ := mem_iff_getElem?.1 hk
  obtain ⟨raw, hraw, hbuild⟩ := h.get hi (tag_ne_future k)
  obtain ⟨tag', hi'⟩ := h.tag h' hi
  -- it stands under a tag of its own there as well
  obtain ⟨j, k', hj, hexts⟩ : ∃ (j : Nat) (k' : ExtensionKind), e'.order[j]? = some k'.tag ∧ exts[j]? = some raw := by
    by_cases hfuture : tag' = 6
    · subst hfuture
      obtain ⟨j, hj, hexts⟩ := hr i k.tag hi' hi (tag_ne_future k)
      exact ⟨j, k, hj, hexts.trans hraw⟩
    · obtain ⟨raw', -, hbuild'⟩ := h'.get hi' hfuture
      obtain ⟨k', rfl⟩ := kind_of_buildExtension hbuild'
      exact ⟨i, k', hi', hraw⟩
  obtain ⟨raw', hraw', hbuild'⟩ := h'.get hj (tag_ne_future k')
  cases hexts.symm.trans hraw'
  obtain ⟨rfl, hsame⟩ := buildExtension_inj hbuild hbuild'
  exact ⟨mem_of_getElem? hj, hsame⟩

theorem Written.restated (h : Written e exts) (h' : Written e' exts)
    (hkinds : ∀ k : ExtensionKind, k.tag ∈ e'.order → k.tag ∈ e.order ∧ k.Same e e') :
    Restated exts e.order e'.order := by
  intro i tag hi hi' hne
  obtain ⟨raw, hraw, hbuild⟩ := h'.get hi' hne
  obtain ⟨k, rfl⟩ := kind_of_buildExtension hbuild
  obtain ⟨hmem, hsame⟩ := hkinds k (mem_of_getElem? hi')
  obtain ⟨j, hj⟩ := mem_iff_getElem?.1 hmem
  obtain ⟨raw', hraw', hbuild'⟩ := h.get hj hne
  rw [buildExtension_congr hsame, hbuild] at hbuild'
  cases hbuild'
  exact ⟨j, hj, hraw'.trans hraw.symm⟩

theorem Same.symm (h : k.Same e e') : k.Same e' e := by
  cases k with
  | constraints =>
    obtain ⟨hca, hbounded, hbound⟩ := h
    exact ⟨hca.symm, hbounded.symm, fun hb => (hbound (hbounded.trans hb)).symm⟩
  | usage | extended | key | issuer => exact Eq.symm h

theorem sameExtensions_iff (ht : Tidy e) (ht' : Tidy e') (h : Written e exts) (h' : Written e' exts) :
    SameExtensions e e' ↔ Restated exts e.order e'.order ∧ Restated exts e'.order e.order := by
  rw [ht.sameExtensions_iff_kinds ht']
  constructor
  · intro hkinds
    have hmem (k : ExtensionKind) : k.tag ∈ e.order ↔ k.tag ∈ e'.order := by
      rw [← ht.has_eq, ← ht'.has_eq, (hkinds k).1]
    constructor
    · exact h.restated h' fun k hk => ⟨(hmem k).2 hk, (hkinds k).2⟩
    · exact h'.restated h fun k hk => ⟨(hmem k).1 hk, Same.symm (hkinds k).2⟩
  · rintro ⟨hr, hr'⟩ k
    have hhas : k.has e = k.has e' := by
      rw [Bool.eq_iff_iff, ht.has_eq, ht'.has_eq]
      exact ⟨fun hk => (h.kind h' hr' hk).1, fun hk => (h'.kind h hr hk).1⟩
    refine ⟨hhas, ?_⟩
    cases hk : k.has e with
    | false => exact ht.same_of_absent ht' hk (hhas.symm.trans hk)
    | true => exact (h.kind h' hr' ((ht.has_eq k).1 hk)).2

end Restated

end GF.Proof.Mattercert
