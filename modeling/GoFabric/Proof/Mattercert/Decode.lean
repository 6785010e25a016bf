import GoFabric.Impl.Mattercert.Tbs

/-!
# What a decoded certificate is made of

A name that was decoded is the list of its attributes (`Lists`), an id at most once
among them. Extensions that were decoded have a value for each tag in their order,
and the zero values of the others (`Tidy`).
-/

namespace GF.Proof.Mattercert

open GF.Impl.Tlv GF.Impl.Mattercert List
open GF.Impl.Im.Wire (elements fieldTag)

variable {tail : TlvError} {el : Element} {ext : CertificateExtensions} {m : MatterID} {what : String}
  {dn : DistinguishedName} {es : List DNEntry} {c : Certificate}

/-! ## Names -/

/-- An attribute of a name. -/
inductive DNEntry
  | id (m : MatterID) (v : BitVec 64)
  | cat (v : BitVec 32)
  | attr (a : DNAttribute)

namespace DNEntry

def tag : DNEntry → BitVec 8
  | id m _ => m.tag
  | cat _ => dnTagMatterCASEAuth
  | attr a => a.tag

def cat? : DNEntry → Option (BitVec 32)
  | cat v => some v
  | _ => none

def attr? : DNEntry → Option DNAttribute
  | attr a => some a
  | _ => none

end DNEntry

/-- The name is the one with these attributes. -/
structure Lists (dn : DistinguishedName) (es : List DNEntry) : Prop where
  order : dn.order = es.map DNEntry.tag
  cats : dn.caseAuthTags = es.filterMap DNEntry.cat?
  attributes : dn.attributes = es.filterMap DNEntry.attr?
  ids : ∀ m v, .id m v ∈ es → dn.has m = true ∧ dn.id m = v
  absent : ∀ m, (∀ v, .id m v ∉ es) → dn.has m = false ∧ dn.id m = 0
  standard : ∀ a, .attr a ∈ es → isStandardDNTag a.tag = true

theorem id_setID (dn : DistinguishedName) (v : BitVec 64) (m m' : MatterID) :
    (dn.setID v m).id m' = if m' = m then v else dn.id m' := by
  cases m <;> cases m' <;> rfl

theorem has_setID (dn : DistinguishedName) (v : BitVec 64) (m m' : MatterID) :
    (dn.setID v m).has m' = if m' = m then true else dn.has m' := by
  cases m <;> cases m' <;> rfl

theorem ofTag_eq_some {tag : BitVec 8} (h : MatterID.ofTag tag = some m) : m.tag = tag := by
  have htag := List.find?_some h
  exact beq_iff_eq.1 htag

theorem gives_skipField {α : Type} {what : Option String} {s : α} {P : α → Prop} (h : P s) :
    Gives P (skipField tail what el s) := by
  refine gives_ite (fun _ => ?_) fun _ => gives_pure h
  cases what with
  | none | some what => exact gives_bind fun _ => gives_pure h

theorem gives_fieldLoop {σ : Type} {member : Element → σ → Reading σ} {P : σ → Prop} {s : σ}
    (h : ∀ el s, P s → Gives P (member el s)) (hs : P s) : Gives P ((fieldLoop tail what member).parser s) := by
  refine Loop.gives h (fun s a hs hfinish => ?_) hs
  cases hfinish
  exact hs

/-- The name after the attributes, and the ids among them. -/
def DNState (s : DistinguishedName × List MatterID) : Prop :=
  ∃ es, Lists s.1 es ∧ ∀ m v, .id m v ∈ es → m ∈ s.2

theorem Lists.id (h : Lists dn es) (v : BitVec 64) (hnew : ∀ v, .id m v ∉ es) :
    Lists { dn.setID v m with order := (dn.setID v m).order ++ [m.tag] } (es ++ [.id m v]) := by
  exact {
    order := by
      rw [map_append, ← h.order]
      cases m <;> rfl
    cats := by
      rw [filterMap_append, ← h.cats]
      cases m <;> exact (append_nil _).symm
    attributes := by
      rw [filterMap_append, ← h.attributes]
      cases m <;> exact (append_nil _).symm
    ids := by
      intro m' v' hmem
      show (dn.setID v m).has m' = true ∧ (dn.setID v m).id m' = v'
      rw [has_setID, id_setID]
      obtain hmem | hmem := mem_append.1 hmem
      · have hne : m' ≠ m := fun heq => hnew v' (heq ▸ hmem)
        rw [if_neg hne, if_neg hne]
        exact h.ids m' v' hmem
      · obtain ⟨rfl, rfl⟩ := DNEntry.id.inj (mem_singleton.1 hmem)
        rw [if_pos rfl, if_pos rfl]
        exact ⟨rfl, rfl⟩
    absent := by
      intro m' habsent
      show (dn.setID v m).has m' = false ∧ (dn.setID v m).id m' = 0
      have hne : m' ≠ m := by
        rintro rfl
        exact habsent v (mem_append_right _ mem_cons_self)
      rw [has_setID, id_setID, if_neg hne, if_neg hne]
      exact h.absent m' fun v' hmem => habsent v' (mem_append_left _ hmem)
    standard := by
      intro a hmem
      obtain hmem | hmem := mem_append.1 hmem
      · exact h.standard a hmem
      · cases mem_singleton.1 hmem }

theorem Lists.other {dn' : DistinguishedName} {e : DNEntry} (h : Lists dn es) (hid : ∀ m v, e ≠ .id m v)
    (hhas : ∀ m, dn'.has m = dn.has m) (hids : ∀ m, dn'.id m = dn.id m) (horder : dn'.order = dn.order ++ [e.tag])
    (hcats : dn'.caseAuthTags = dn.caseAuthTags ++ e.cat?.toList)
    (hattrs : dn'.attributes = dn.attributes ++ e.attr?.toList)
    (hstd : ∀ a, e = .attr a → isStandardDNTag a.tag = true) :
    Lists dn' (es ++ [e]) where
  order := by rw [horder, h.order, map_append, map_singleton]
  cats := by rw [hcats, h.cats, filterMap_append]; cases e <;> rfl
  attributes := by rw [hattrs, h.attributes, filterMap_append]; cases e <;> rfl
  ids m v hmem := by
    rw [hhas, hids]
    obtain hmem | hmem := mem_append.1 hmem
    · exact h.ids m v hmem
    · exact absurd (mem_singleton.1 hmem).symm (hid m v)
  absent m habsent := by
    rw [hhas, hids]
    exact h.absent m fun v hmem => habsent v (mem_append_left _ hmem)
  standard a hmem := by
    obtain hmem | hmem := mem_append.1 hmem
    · exact h.standard a hmem
    · exact hstd a (mem_singleton.1 hmem).symm

theorem gives_dnEntry {s : DistinguishedName × List MatterID} (h : DNState s) :
    Gives DNState (dnEntry tail el s) := by
  obtain ⟨dn, seen⟩ := s
  obtain ⟨es, hes, hseen⟩ := h
  refine gives_ite (fun _ => gives_fail) fun _ => ?_
  cases hm : MatterID.ofTag (fieldTag el) with
  | some m =>
    refine gives_ite (fun _ => gives_fail) fun hnew => gives_pure ⟨es ++ [.id m el.uint], ?_, ?_⟩
    · rw [← ofTag_eq_some hm]
      exact hes.id el.uint fun v hmem => hnew (contains_iff_mem.2 (hseen m v hmem))
    intro m' v' hmem
    obtain hmem | hmem := mem_append.1 hmem
    · exact mem_cons_of_mem _ (hseen m' v' hmem)
    · obtain ⟨rfl, -⟩ := DNEntry.id.inj (mem_singleton.1 hmem)
      exact mem_cons_self
  | none =>
    have hids {e : DNEntry} (he : ∀ m v, e ≠ .id m v) : ∀ m v, .id m v ∈ es ++ [e] → m ∈ seen := by
      intro m v hmem
      obtain hmem | hmem := mem_append.1 hmem
      · exact hseen m v hmem
      · exact absurd (mem_singleton.1 hmem).symm (he m v)
    refine gives_ite (fun htag => gives_pure ?_) fun _ => gives_ite (fun hstd => ?_) fun _ => ?_
    · refine ⟨es ++ [.cat (el.uint.setWidth 32)], ?_, hids nofun⟩
      exact hes.other nofun (fun m => by cases m <;> rfl) (fun m => by cases m <;> rfl) (by rw [htag]; rfl) rfl
        (append_nil _).symm nofun
    · refine gives_ite (fun _ => gives_fail) fun _ => gives_pure ?_
      refine ⟨es ++ [.attr { tag := fieldTag el, value := el.string }], ?_, hids nofun⟩
      refine hes.other nofun (fun m => by cases m <;> rfl) (fun m => by cases m <;> rfl) rfl
        (append_nil _).symm rfl ?_
      rintro a ⟨⟩
      exact hstd
    · exact gives_skipField ⟨es, hes, hseen⟩

theorem lists_nil : Lists {} [] where
  order := rfl
  cats := rfl
  attributes := rfl
  ids m v hmem := absurd hmem not_mem_nil
  absent m _ := by cases m <;> exact ⟨rfl, rfl⟩
  standard a hmem := absurd hmem not_mem_nil

theorem gives_decodeDN : Gives (fun dn => ∃ es, Lists dn es) (decodeDN tail) := by
  refine Gives.bind (gives_fieldLoop (fun _ _ => gives_dnEntry) ⟨[], lists_nil, nofun⟩) fun s hs => ?_
  obtain ⟨es, hes, -⟩ := hs
  exact gives_pure ⟨es, hes⟩

/-! ## Extensions -/

/-- An extension is there just when its tag is in the order; otherwise its value is
the zero one. -/
structure Part (order : List (BitVec 8)) (tag : BitVec 8) (has : Bool) (zero : Prop) : Prop where
  has_iff : has = true ↔ tag ∈ order
  zero : has = false → zero

namespace Part

variable {order : List (BitVec 8)} {tag tag' : BitVec 8} {has : Bool} {zero : Prop}

theorem add (h : Part order tag has zero) (hne : tag ≠ tag') : Part (order ++ [tag']) tag has zero where
  has_iff := by
    rw [h.has_iff, mem_append, mem_singleton, or_iff_left hne]
  zero := h.zero

theorem set : Part (order ++ [tag]) tag true zero where
  has_iff := ⟨fun _ => mem_append_right _ mem_cons_self, fun _ => rfl⟩
  zero := nofun

end Part

/-- The extensions have values for the tags in their order, and zero values
otherwise. -/
structure Tidy (ext : CertificateExtensions) : Prop where
  constraints : Part ext.order 1 ext.hasBasicConstraints
    (ext.basicConstraintsIsCA = false ∧ ext.basicConstraintsHasPathLen = false)
  bound : ext.basicConstraintsHasPathLen = false → ext.basicConstraintsPathLen = 0
  usage : Part ext.order 2 ext.hasKeyUsage (ext.keyUsage = 0)
  extended : Part ext.order 3 ext.hasExtendedKeyUsage (ext.extendedKeyUsage = [])
  key : Part ext.order 4 ext.hasSubjectKeyID (ext.subjectKeyID = [])
  issuer : Part ext.order 5 ext.hasAuthorityKeyID (ext.authorityKeyID = [])
  future : ext.order = [] → ext.futureExtensions = []

theorem tidy_empty : Tidy {} where
  constraints := ⟨⟨nofun, nofun⟩, fun _ => ⟨rfl, rfl⟩⟩
  bound _ := rfl
  usage := ⟨⟨nofun, nofun⟩, fun _ => rfl⟩
  extended := ⟨⟨nofun, nofun⟩, fun _ => rfl⟩
  key := ⟨⟨nofun, nofun⟩, fun _ => rfl⟩
  issuer := ⟨⟨nofun, nofun⟩, fun _ => rfl⟩
  future _ := rfl

/-- The extensions with other basic constraints. -/
def Constrained (ext ext' : CertificateExtensions) : Prop :=
  ∃ isCA hasPathLen pathLen, (hasPathLen = false → pathLen = 0) ∧
    ext' = { ext with
      hasBasicConstraints := true, basicConstraintsIsCA := isCA,
      basicConstraintsHasPathLen := hasPathLen, basicConstraintsPathLen := pathLen }

theorem gives_basicConstraint {s : CertificateExtensions} (h : Constrained ext s) :
    Gives (Constrained ext) (basicConstraint tail el s) := by
  obtain ⟨isCA, hasPathLen, pathLen, hzero, rfl⟩ := h
  refine gives_ite (fun _ => gives_fail) fun _ => gives_ite (fun _ => gives_pure ?_) fun _ =>
    gives_ite (fun _ => gives_pure ?_) fun _ => gives_skipField ?_
  · exact ⟨_, hasPathLen, pathLen, hzero, rfl⟩
  · exact ⟨isCA, true, _, nofun, rfl⟩
  · exact ⟨isCA, hasPathLen, pathLen, hzero, rfl⟩

theorem gives_decodeBasicConstraints (h : ext.basicConstraintsHasPathLen = false → ext.basicConstraintsPathLen = 0) :
    Gives (Constrained ext) (decodeBasicConstraints tail ext) :=
  gives_fieldLoop (fun _ _ => gives_basicConstraint) ⟨_, _, _, h, rfl⟩

/-- The value of a tag is read, once the tag is in the order. -/
theorem gives_extensionValue {tag : BitVec 8} (h : Tidy ext) (htag : 1 ≤ tag ∧ tag ≤ 6) :
    Gives Tidy (extensionValue tail el tag { ext with order := ext.order ++ [tag] }) := by
  have hcons {P : Prop} (heq : ext.order ++ [tag] = []) : P :=
    absurd heq (append_ne_nil_of_right_ne_nil _ (cons_ne_nil _ _))
  refine gives_ite (fun h1 => ?_) fun h1 => ?_
  · subst h1
    refine gives_ite (fun _ => gives_fail) fun _ => Gives.mapError (Gives.imp (gives_decodeBasicConstraints ?_) ?_)
    · exact h.bound
    rintro ext' ⟨isCA, hasPathLen, pathLen, hzero, rfl⟩
    exact ⟨Part.set, hzero, h.usage.add (by decide), h.extended.add (by decide), h.key.add (by decide),
      h.issuer.add (by decide), hcons⟩
  have hconstraints := h.constraints.add (Ne.symm h1)
  refine gives_ite (fun h2 => ?_) fun h2 => ?_
  · subst h2
    exact gives_pure ⟨hconstraints, h.bound, Part.set, h.extended.add (by decide), h.key.add (by decide),
      h.issuer.add (by decide), hcons⟩
  have husage := h.usage.add (Ne.symm h2)
  refine gives_ite (fun h3 => ?_) fun h3 => ?_
  · subst h3
    refine gives_ite (fun _ => gives_fail) fun _ => gives_bind fun eku => gives_pure ?_
    exact ⟨hconstraints, h.bound, husage, Part.set, h.key.add (by decide), h.issuer.add (by decide), hcons⟩
  have hextended := h.extended.add (Ne.symm h3)
  refine gives_ite (fun h4 => ?_) fun h4 => ?_
  · subst h4
    refine gives_ite (fun _ => gives_fail) fun _ => gives_pure ?_
    exact ⟨hconstraints, h.bound, husage, hextended, Part.set, h.issuer.add (by decide), hcons⟩
  have hkey := h.key.add (Ne.symm h4)
  refine gives_ite (fun h5 => ?_) fun h5 => ?_
  · subst h5
    refine gives_ite (fun _ => gives_fail) fun _ => gives_pure ?_
    exact ⟨hconstraints, h.bound, husage, hextended, hkey, Part.set, hcons⟩
  have hissuer := h.issuer.add (Ne.symm h5)
  refine gives_ite (fun h6 => ?_) fun h6 => ?_
  · exact gives_pure ⟨hconstraints, h.bound, husage, hextended, hkey, hissuer, hcons⟩
  · bv_omega

theorem gives_extensionValue_unknown {tag : BitVec 8} (h : Tidy ext) (htag : ¬(1 ≤ tag ∧ tag ≤ 6)) :
    Gives Tidy (extensionValue tail el tag ext) := by
  refine gives_ite (fun h1 => ?_) fun _ => gives_ite (fun h2 => ?_) fun _ => gives_ite (fun h3 => ?_) fun _ =>
    gives_ite (fun h4 => ?_) fun _ => gives_ite (fun h5 => ?_) fun _ => gives_ite (fun h6 => ?_) fun _ =>
    gives_skipField h
  all_goals bv_omega

theorem gives_extensionEntry (h : Tidy ext) : Gives Tidy (extensionEntry tail el ext) := by
  refine gives_ite (fun _ => gives_fail) fun _ => ?_
  by_cases htag : 1 ≤ fieldTag el ∧ fieldTag el ≤ 6
  · rw [if_pos htag]
    exact gives_extensionValue h htag
  · rw [if_neg htag]
    exact gives_extensionValue_unknown h htag

theorem gives_decodeExtensions : Gives Tidy (decodeExtensions tail) :=
  gives_fieldLoop (fun _ _ => gives_extensionEntry) tidy_empty

/-! ## Certificates -/

/-- What `Decode` makes of the fields it reads. -/
structure Fields (c : Certificate) : Prop where
  issuer : ∃ es, Lists c.issuer es
  subject : ∃ es, Lists c.subject es
  extensions : Tidy c.extensions
  tbsDER : c.tbsDER = []

theorem gives_dnField : Gives (fun dn => ∃ es, Lists dn es) (dnField tail what el) :=
  gives_ite (fun _ => gives_fail) fun _ => gives_decodeDN.mapError

theorem gives_certificateField (h : Fields c) : Gives Fields (certificateField tail el c) := by
  have hplain {c' : Certificate} {x : Prop} [Decidable x] {p : Reading Certificate} (hissuer : c'.issuer = c.issuer)
      (hsubject : c'.subject = c.subject) (hext : c'.extensions = c.extensions) (htbs : c'.tbsDER = c.tbsDER)
      (hp : Gives Fields p) : Gives Fields (if x then pure c' else p) :=
    gives_ite (fun _ => gives_pure ⟨hissuer ▸ h.issuer, hsubject ▸ h.subject, hext ▸ h.extensions, htbs ▸ h.tbsDER⟩)
      fun _ => hp
  refine gives_ite (fun _ => gives_fail) fun _ => ?_
  refine gives_ite (fun _ => gives_ite (fun _ => gives_fail) fun _ => gives_pure { h with }) fun _ => ?_
  refine hplain rfl rfl rfl rfl ?_
  refine gives_ite (fun _ => gives_dnField.bind fun dn hdn =>
    gives_pure ⟨hdn, h.subject, h.extensions, h.tbsDER⟩) fun _ => ?_
  refine hplain rfl rfl rfl rfl ?_
  refine hplain rfl rfl rfl rfl ?_
  refine gives_ite (fun _ => gives_dnField.bind fun dn hdn =>
    gives_pure ⟨h.issuer, hdn, h.extensions, h.tbsDER⟩) fun _ => ?_
  refine hplain rfl rfl rfl rfl ?_
  refine hplain rfl rfl rfl rfl ?_
  refine hplain rfl rfl rfl rfl ?_
  refine gives_ite (fun _ => gives_decodeExtensions.mapError.bind fun ext hext =>
    gives_pure ⟨h.issuer, h.subject, hext, h.tbsDER⟩) fun _ => ?_
  exact hplain rfl rfl rfl rfl (gives_skipField h)

theorem decode_ok {raw : List Byte} (h : decode raw = .ok c) : Fields c ∧ validateMandatory c = .ok () := by
  have hgives : Gives Fields (certificate (elements raw).2 raw) :=
    gives_bind fun top => gives_ite (fun _ => gives_fail) fun _ =>
      gives_fieldLoop (fun _ _ => gives_certificateField) ⟨⟨[], lists_nil⟩, ⟨[], lists_nil⟩, tidy_empty, rfl⟩
  obtain ⟨-, h⟩ := ite_error_eq_ok.1 h
  obtain ⟨⟨c', rest⟩, hcert, h⟩ := except_bind_eq_ok.1 h
  obtain ⟨⟨⟩, hvalid, h⟩ := except_bind_eq_ok.1 h
  cases h
  exact ⟨hgives _ _ _ hcert, hvalid⟩

end GF.Proof.Mattercert
