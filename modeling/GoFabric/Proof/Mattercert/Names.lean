import GoFabric.Proof.Mattercert.Decode
import GoFabric.Spec.Certificate
import Mathlib.Data.List.Nodup

/-!
# The signed form of a name

The signed form of a decoded name has one element for each of its attributes, and
the element of an attribute is that of no other one. So two decoded names with the
same signed form have the same attributes.
-/

namespace GF.Proof.Mattercert

open GF.Der GF.Impl.Mattercert GF.Spec.Certificate BitVec Option

variable {e e' : DNEntry} {dn dn' : DistinguishedName} {es : List DNEntry} {raw : List Byte} {rdns : List (List Byte)}

/-! ## Hexadecimal numbers -/

theorem hexDigit_inj {d d' : Nat} (hd : d < 16) (hd' : d' < 16) (h : hexDigit d = hexDigit d') : d = d' := by
  have hval {d : Nat} (hd : d < 16) : (hexDigit d).toNat = if d < 10 then 0x30 + d else 0x37 + d := by
    rw [hexDigit, toNat_ofNat]
    split <;> omega
  have hnat := congrArg BitVec.toNat h
  rw [hval hd, hval hd'] at hnat
  split at hnat <;> split at hnat <;> omega

theorem hexDigits_inj {bs bs' : List Byte}
    (h : bs.flatMap (fun b => [hexDigit (b.toNat / 16), hexDigit (b.toNat % 16)]) =
      bs'.flatMap fun b => [hexDigit (b.toNat / 16), hexDigit (b.toNat % 16)]) : bs = bs' := by
  induction bs generalizing bs' with
  | nil =>
    cases bs' with
    | nil => rfl
    | cons b' bs' => cases h
  | cons b bs ih =>
    cases bs' with
    | nil => cases h
    | cons b' bs' =>
      simp only [List.flatMap_cons, List.cons_append, List.cons.injEq] at h
      obtain ⟨hhigh, hlow, hrest⟩ := h
      have hdiv := hexDigit_inj (by omega) (by omega) hhigh
      have hmod := hexDigit_inj (by omega) (by omega) hlow
      have heq : b = b' := eq_of_toNat_eq (by omega)
      rw [heq, ih hrest]

theorem hexOf_inj {n v v' : Nat} (hv : v < 256 ^ n) (hv' : v' < 256 ^ n) (h : hexOf n v = hexOf n v') : v = v' :=
  beBytes_inj hv hv' (hexDigits_inj h)

/-! ## Attributes -/

theorem MatterID.mem_all (m : MatterID) : m ∈ MatterID.all := by
  cases m <;> decide

/-- What an attribute is of. -/
inductive DNKind
  | id (m : MatterID)
  | cat
  | attr (tag : BitVec 8)

namespace DNKind

/-- The type and the string type of the attribute. -/
def written : DNKind → List Nat × Byte
  | id m => (m.oid, tagUTF8String)
  | cat => (oidMatterCASEAuthTag, tagUTF8String)
  | attr tag => (standardDNAttribute tag).getD ([], 0)

def all : List DNKind :=
  MatterID.all.map id ++ cat :: (((List.range 256).map (BitVec.ofNat 8)).filter isStandardDNTag).map attr

/-- No two kinds are written alike. -/
theorem nodup_all : (all.map fun k => (objectIdentifier k.written.1, k.written.2)).Nodup := by decide +kernel

theorem length_type {k : DNKind} (h : k ∈ all) : (objectIdentifier k.written.1).length ≤ 128 := by
  revert k
  decide +kernel

end DNKind

namespace DNEntry

def kind : DNEntry → DNKind
  | id m _ => .id m
  | cat _ => .cat
  | attr a => .attr a.tag

def value : DNEntry → List Byte
  | id _ v => hexOf 8 v.toNat
  | cat v => hexOf 4 v.toNat
  | attr a => a.value

def rdn (e : DNEntry) : RdnAttribute where
  type := e.kind.written.1
  stringType := e.kind.written.2
  value := e.value

/-- The attribute is one of those that are read. -/
def Standard (e : DNEntry) : Prop := ∀ a, e = .attr a → isStandardDNTag a.tag = true

theorem Standard.kind_mem (h : e.Standard) : e.kind ∈ DNKind.all := by
  cases e with
  | id m v => exact List.mem_append_left _ (List.mem_map_of_mem (MatterID.mem_all m))
  | cat v => exact List.mem_append_right _ List.mem_cons_self
  | attr a =>
    refine List.mem_append_right _ (List.mem_cons_of_mem _ (List.mem_map_of_mem ?_))
    refine List.mem_filter.2 ⟨List.mem_map.2 ⟨a.tag.toNat, List.mem_range.2 a.tag.isLt, ?_⟩, h a rfl⟩
    rw [ofNat_toNat, setWidth_eq]

theorem eq_of_kind (hkind : e.kind = e'.kind) (hvalue : e.value = e'.value) : e = e' := by
  match e, e' with
  | id m v, id m' v' =>
    have hv := hexOf_inj v.isLt v'.isLt hvalue
    rw [DNKind.id.inj hkind, eq_of_toNat_eq hv]
  | cat v, cat v' =>
    have hv := hexOf_inj v.isLt v'.isLt hvalue
    rw [eq_of_toNat_eq hv]
  | attr ⟨tag, value⟩, attr ⟨tag', value'⟩ =>
    cases hkind
    cases hvalue
    rfl
  | id m v, cat v' | id m v, attr a' | cat v, id m' v' | cat v, attr a' | attr a, id m' v' | attr a, cat v' =>
    cases hkind

end DNEntry

/-! ## The attributes that are written -/

/-- The tag of a standard attribute is that of nothing else. -/
theorem isStandardDNTag_cases {tag : BitVec 8} (h : isStandardDNTag tag = true) :
    MatterID.ofTag tag = none ∧ tag ≠ dnTagMatterCASEAuth ∧ (standardDNAttribute tag).isSome = true := by
  revert tag
  decide +kernel

section Emitted

variable (dn : DistinguishedName) (order : List (BitVec 8)) (cats : List (BitVec 32)) (attrs : List DNAttribute)

theorem emitted_id (m : MatterID) :
    emitted dn (m.tag :: order) cats attrs = (DNEntry.id m (dn.id m)).rdn :: emitted dn order cats attrs := by
  cases m <;> rfl

theorem emitted_cat (v : BitVec 32) :
    emitted dn (dnTagMatterCASEAuth :: order) (v :: cats) attrs = (DNEntry.cat v).rdn :: emitted dn order cats attrs :=
  rfl

theorem emitted_attr {a : DNAttribute} (h : isStandardDNTag a.tag = true) :
    emitted dn (a.tag :: order) cats (a :: attrs) = (DNEntry.attr a).rdn :: emitted dn order cats attrs := by
  obtain ⟨hid, hcat, hsome⟩ := isStandardDNTag_cases h
  obtain ⟨⟨oid, stringType⟩, hattr⟩ := isSome_iff_exists.1 hsome
  have hrdn : (DNEntry.attr a).rdn = { type := oid, stringType, value := a.value } := by
    rw [DNEntry.rdn, DNEntry.kind, DNKind.written, hattr]
    rfl
  rw [emitted.eq_def, hrdn]
  dsimp only
  rw [hid, hattr]
  exact if_neg hcat

end Emitted

theorem emitted_eq (hids : ∀ m v, .id m v ∈ es → dn.id m = v) (hstd : ∀ e ∈ es, e.Standard) :
    emitted dn (es.map DNEntry.tag) (es.filterMap DNEntry.cat?) (es.filterMap DNEntry.attr?) =
      es.map DNEntry.rdn := by
  induction es with
  | nil => rfl
  | cons e es ih =>
    have hrest := ih (fun m v hmem => hids m v (List.mem_cons_of_mem _ hmem)) (List.forall_mem_cons.1 hstd).2
    rw [List.map_cons, List.map_cons, ← hrest]
    cases e with
    | id m v =>
      rw [← hids m v List.mem_cons_self]
      exact emitted_id dn _ _ _ m
    | cat v => exact emitted_cat dn _ _ _ v
    | attr a => exact emitted_attr dn _ _ _ (hstd _ List.mem_cons_self a rfl)

theorem canonical_empty (hhas : ∀ m, dn.has m = false) (hcats : dn.caseAuthTags = []) : canonical dn = [] := by
  have hfilter : [.rcacID, .icacID, .nodeID, .fabricID, .vvsID, .firmwareSigningID].filter dn.has = [] :=
    List.filter_eq_nil_iff.2 fun m _ => by rw [hhas]; decide
  rw [canonical, hfilter, hcats]
  rfl

theorem Lists.standard_all (h : Lists dn es) : ∀ e ∈ es, e.Standard := by
  rintro e he a rfl
  exact h.standard a he

theorem Lists.rdnAttributes (h : Lists dn es) : rdnAttributes dn = es.map DNEntry.rdn := by
  unfold GF.Impl.Mattercert.rdnAttributes
  by_cases hnil : es = []
  · subst hnil
    rw [if_pos (show dn.order = [] from h.order)]
    exact canonical_empty (fun m => (h.absent m fun _ => List.not_mem_nil).1) h.cats
  have horder : dn.order ≠ [] := by
    rw [h.order]
    exact fun heq => hnil (List.map_eq_nil_iff.1 heq)
  rw [if_neg horder, h.order, h.cats, h.attributes]
  exact emitted_eq (fun m v hmem => (h.ids m v hmem).2) h.standard_all

/-! ## Their elements -/

theorem eq_ok_of_toOption {ε α : Type} {x : Except ε α} {a : α} (h : x.toOption = some a) : x = .ok a := by
  cases x with
  | error e => cases h
  | ok b => exact congrArg Except.ok (some.inj h)

theorem unmarshal_element {identifier : Byte} (hid : identifier &&& 0x1F ≠ 0x1F) {c : List Byte}
    (h : unmarshal (element identifier c) = some raw) : raw = element identifier c ∧ Whole raw := by
  obtain ⟨⟨raw', rest⟩, hrun, rfl⟩ := map_eq_some_iff.1 h
  have hrun' := eq_ok_of_toOption hrun
  refine ⟨?_, (whole_of_rawValue hrun').2⟩
  rw [← List.append_nil (element identifier c)] at hrun'
  exact (rawValue_element hid hrun').1

theorem emitValue_eq {attr : RdnAttribute} (h : emitValue attr = some raw) :
    raw = set [sequence [objectIdentifier attr.type, element attr.stringType attr.value]] ∧ Whole raw :=
  unmarshal_element (by decide) h

theorem emitValue_inj (hstd : e.Standard) (hstd' : e'.Standard) (h : emitValue e.rdn = some raw)
    (h' : emitValue e'.rdn = some raw) : e = e' := by
  have hset := (emitValue_eq h).1.symm.trans (emitValue_eq h').1
  have hseq := (element_inj hset).2
  simp only [List.flatten_cons, List.flatten_nil, List.append_nil] at hseq
  have hmembers := sequence_inj hseq
  simp only [List.flatten_cons, List.flatten_nil, List.append_nil] at hmembers
  have hwhole := whole_objectIdentifier (DNKind.length_type hstd.kind_mem)
  have hwhole' := whole_objectIdentifier (DNKind.length_type hstd'.kind_mem)
  obtain ⟨htype, hvalue⟩ := hwhole.append_inj hwhole' hmembers
  obtain ⟨hstring, hvalue⟩ := element_inj hvalue
  have hkind : e.kind = e'.kind :=
    List.inj_on_of_nodup_map DNKind.nodup_all hstd.kind_mem hstd'.kind_mem (Prod.ext htype hstring)
  exact DNEntry.eq_of_kind hkind hvalue

theorem mapM_emitValue_inj {es' : List DNEntry} (hstd : ∀ e ∈ es, e.Standard) (hstd' : ∀ e ∈ es', e.Standard)
    (h : (es.map DNEntry.rdn).mapM emitValue = some rdns) (h' : (es'.map DNEntry.rdn).mapM emitValue = some rdns) :
    es = es' := by
  induction es generalizing es' rdns with
  | nil =>
    cases h
    cases es' with
    | nil => rfl
    | cons e' es' =>
      rw [List.map_cons, List.mapM_cons] at h'
      obtain ⟨raw, -, h'⟩ := bind_eq_some_iff.1 h'
      obtain ⟨rest, -, h'⟩ := bind_eq_some_iff.1 h'
      cases h'
  | cons e es ih =>
    rw [List.map_cons, List.mapM_cons] at h
    obtain ⟨raw, hraw, h⟩ := bind_eq_some_iff.1 h
    obtain ⟨rest, hrest, h⟩ := bind_eq_some_iff.1 h
    cases h
    cases es' with
    | nil => cases h'
    | cons e' es' =>
      rw [List.map_cons, List.mapM_cons] at h'
      obtain ⟨raw', hraw', h'⟩ := bind_eq_some_iff.1 h'
      obtain ⟨rest', hrest', h'⟩ := bind_eq_some_iff.1 h'
      cases h'
      rw [List.forall_mem_cons] at hstd hstd'
      rw [emitValue_inj hstd.1 hstd'.1 hraw hraw', ih hstd.2 hstd'.2 hrest hrest']

theorem mapM_emitValue_whole {attrs : List RdnAttribute} (h : attrs.mapM emitValue = some rdns) :
    ∀ raw ∈ rdns, Whole raw := by
  induction attrs generalizing rdns with
  | nil =>
    cases h
    exact nofun
  | cons attr attrs ih =>
    rw [List.mapM_cons] at h
    obtain ⟨raw, hraw, h⟩ := bind_eq_some_iff.1 h
    obtain ⟨rest, hrest, h⟩ := bind_eq_some_iff.1 h
    cases h
    exact List.forall_mem_cons.2 ⟨(emitValue_eq hraw).2, ih hrest⟩

/-! ## Names -/

theorem Lists.sameName (h : Lists dn es) (h' : Lists dn' es) : SameName dn dn' := by
  have hid : ∀ m, dn.has m = dn'.has m ∧ dn.id m = dn'.id m := by
    intro m
    by_cases hmem : ∃ v, .id m v ∈ es
    · obtain ⟨v, hmem⟩ := hmem
      obtain ⟨hhas, hid⟩ := h.ids m v hmem
      obtain ⟨hhas', hid'⟩ := h'.ids m v hmem
      exact ⟨hhas.trans hhas'.symm, hid.trans hid'.symm⟩
    · have habsent : ∀ v, .id m v ∉ es := fun v hv => hmem ⟨v, hv⟩
      obtain ⟨hhas, hid⟩ := h.absent m habsent
      obtain ⟨hhas', hid'⟩ := h'.absent m habsent
      exact ⟨hhas.trans hhas'.symm, hid.trans hid'.symm⟩
  exact { has := fun m => (hid m).1, id := fun m => (hid m).2, tags := h.cats.trans h'.cats.symm }

theorem wrapDN_eq (h : wrapDN rdns = .ok raw) : raw = Der.sequence rdns ∧ Whole raw := by
  unfold wrapDN at h
  split at h
  · rename_i raw' hraw
    cases h
    exact unmarshal_element (by decide) hraw
  · cases h

/-- The signed form of a name tells its ids. -/
theorem sameName_of_signed (h : ∃ es, Lists dn es) (h' : ∃ es, Lists dn' es) {rdns' : List (List Byte)}
    (hdn : buildDN dn = some rdns) (hdn' : buildDN dn' = some rdns') (hraw : wrapDN rdns = .ok raw)
    (hraw' : wrapDN rdns' = .ok raw) : SameName dn dn' := by
  obtain ⟨es, hes⟩ := h
  obtain ⟨es', hes'⟩ := h'
  have hflatten := sequence_inj ((wrapDN_eq hraw).1.symm.trans (wrapDN_eq hraw').1)
  have hrdns : rdns = rdns' := flatten_inj (mapM_emitValue_whole hdn) (mapM_emitValue_whole hdn') hflatten
  subst hrdns
  rw [buildDN, hes.rdnAttributes] at hdn
  rw [buildDN, hes'.rdnAttributes] at hdn'
  have heq := mapM_emitValue_inj hes.standard_all hes'.standard_all hdn hdn'
  subst heq
  exact hes.sameName hes'

end GF.Proof.Mattercert
