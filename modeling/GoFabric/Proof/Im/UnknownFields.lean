import GoFabric.Proof.Im.Blocks

/-!
# Unknown fields are ignored where they are drained

A decoder that is in step with the containers goes on behind a field that it
drains as if the field were not there (`run_inserted`). Where it passes over the
opening of a container only, it reads the contents as fields of its own and ends
at the end of the container (`stays_undrained`), so nothing that follows can
change its answer: two messages with different values are decoded alike, or
what follows no longer fits where the decoder stands (`not_ignored_item`).

* `unknown_field_ignored`: an unknown field is ignored exactly when it is no
  container, or one that its block drains;
* `unknown_container_refused`: an unknown container in an AttributeDataIB fails
  the write.
-/

namespace GF.Proof.Im

open GF.Impl.Tlv GF.Impl.Im.Wire GF.Spec.UnknownFields List
open GF.Spec.Tlv (Spells)
open GF.Proof.Tlv

variable {E V F : Type} {vr valueReader : Option (AttributeValueReader E V)}
  {fr fieldsReader : Option (CommandFieldsReader E F)} {b b' target item : Block} {el : Element}
  {x r r' els : List Element} {k : Request}

/-! ## In step -/

theorem closes_loop (b : Block) (el : Element) : (loop vr fr b).closes el = el.isEndContainer := by
  cases b <;> rfl

theorem child_of_scalar (h : el.isContainer = false) : b.child el = none := by
  unfold Block.child
  rw [List.find?_eq_none.2 fun c _ => by simp [opens, h]]
  rfl

section InStep

variable (hv : ∀ read ∈ vr, ReadsValue read) (hf : ∀ read ∈ fr, ReadsFields read)
include hv hf

/-- Elements that are in step are taken, and the loop goes on behind them. -/
theorem runs_inStep {before : List Element} (h : InStep b before) (hg : ∀ el ∈ before, Genuine el) (s : State V F b) :
    ∃ r, (loop vr fr b).Runs s before r := by
  induction h with
  | nil => exact ⟨_, Loop.runs_nil⟩
  | @scalar b el rest hc hend _ ih =>
    have hm := member_loop hv hf b s (hg el (by simp))
    exact Loop.runs_cons (by rw [closes_loop, hend]) ((hm.handles (child_of_scalar hc)).scalar hc)
      (ih fun x hx => hg x (by simp [hx]))
  | @drained b el inner c rest hc hend hchild hd hi hcc hce _ ih =>
    have hm := member_loop hv hf b s (hg el (by simp))
    have h := Loop.runs_cons (by rw [closes_loop, hend])
      ((hm.handles hchild).whole hc hd inner c hi ⟨hcc, hce⟩) (ih fun x hx => hg x (by simp [hx]))
    rwa [append_assoc] at h
  | @entered b b' el inner c rest hend hchild _ hcc hce _ ihi ih =>
    obtain ⟨f, hm⟩ := (member_loop hv hf b s (hg el (by simp))).enters b' hchild
    obtain ⟨r, hr⟩ := ihi (fun x hx => hg x (by simp [hx])) (start b')
    have hbody := hr.decides (by rw [closes_loop, hce])
    have hdec : Decides ((loop vr fr b).member el s) (inner ++ [c]) := by
      rw [hm]
      exact hbody.bind_ofExcept
    have h := Loop.runs_cons (by rw [closes_loop, hend]) hdec (ih fun x hx => hg x (by simp [hx]))
    rwa [append_assoc] at h

/-- A complete element that a block does not know and drains changes nothing. -/
theorem runs_unknown (hx : Complete el x) (hg : Genuine el) (hb : b.hasFields = true) (hn : b.knows el = false)
    (hd : el.isContainer = true → b.drains el = true) (s : State V F b) : (loop vr fr b).Runs s x (.ok s) := by
  have hp := (member_loop hv hf b s hg).passes hb hn
  cases hx with
  | scalar hc hend => exact Loop.runs_member (by rw [closes_loop, hend]) (hp.scalar hc)
  | container hc hend hi hcc hce =>
    exact Loop.runs_member (by rw [closes_loop, hend]) (hp.whole hc (hd hc) _ _ hi ⟨hcc, hce⟩)

/-- What a loop answers is the same with an element that the target ignores. -/
theorem run_inserted (hx : ∀ s : State V F target, (loop vr fr target).Runs s x (.ok s))
    (h : Inserted x target b r r') (hg : ∀ el ∈ r, Genuine el) (s : State V F b) :
    ((loop vr fr b).parser s).run r' = ((loop vr fr b).parser s).run r := by
  induction h with
  | @here before after hin =>
    obtain ⟨q, hq⟩ := runs_inStep hv hf hin (fun el hel => hg el (by simp [hel])) s
    rw [hq, hq]
    cases q with
    | error e => rfl
    | ok s' => exact hx s' after
  | @within b b' el before after after' hin hend hchild _ ih =>
    obtain ⟨q, hq⟩ := runs_inStep hv hf hin (fun el hel => hg el (by simp [hel])) s
    rw [hq, hq]
    cases q with
    | error e => rfl
    | ok s' =>
      have hc : ¬ (loop vr fr b).closes el = true := by
        rw [closes_loop, hend]
        decide
      obtain ⟨f, hm⟩ := (member_loop hv hf b s' (hg el (by simp))).enters b' hchild
      have hbody := ih (fun x hx => hg x (by simp [hx])) (start b')
      show ((loop vr fr b).parser s').run _ = ((loop vr fr b).parser s').run _
      rw [Loop.run_cons, Loop.run_cons, if_neg hc, if_neg hc, hm]
      show (((loop vr fr b').parser (start b')).run after' >>= _) >>= _ =
        (((loop vr fr b').parser (start b')).run after >>= _) >>= _
      rw [hbody]

end InStep

/-! ## Out of step -/

def depth : Block → Nat
  | .readRequest | .subscribeRequest | .writeRequest | .invokeRequest => 3
  | .dataVersionFilters | .attributeWrites | .commandData => 2
  | .attributePaths | .eventPaths | .eventFilters | .dataVersionFilter | .attributeData | .commandInvocation => 1
  | .timedRequest | .attributePath | .eventPath | .eventFilter | .clusterPath | .commandPath | .delayReportData => 0

/-- A child is listed, and its container is open. -/
theorem child_mem (h : b.child el = some b') : (∃ c ∈ b.children, c.2.2 = b') ∧ el.isContainer = true := by
  obtain ⟨c, hc, rfl⟩ := Option.map_eq_some_iff.1 h
  have hopen := List.find?_some hc
  exact ⟨⟨c, mem_of_mem_filter (mem_of_find?_eq_some hc), rfl⟩, (Bool.and_eq_true_iff.1 hopen).1⟩

theorem depth_child (h : b.child el = some b') : depth b' < depth b := by
  have hall : ∀ b : Block, ∀ c ∈ b.children, depth c.2.2 < depth b := by
    intro b
    cases b <;> decide
  obtain ⟨⟨c, hc, rfl⟩, -⟩ := child_mem h
  exact hall b c hc

section OutOfStep

variable (hv : ∀ read ∈ vr, ReadsValue read) (hf : ∀ read ∈ fr, ReadsFields read)
include hv hf

/-- No member of a block takes more than its container. -/
theorem careful_loop (b : Block) : containers.Careful Genuine (loop vr fr b) := by
  induction hd : depth b using Nat.strong_induction_on generalizing b with
  | _ d ih =>
    refine ⟨funext (closes_loop b), fun el s n ts hg hend hts => ?_⟩
    have hm := member_loop hv hf b s (hg el (by simp))
    cases hc : el.isContainer with
    | false =>
      have hts' : containers.Closes n ts := by
        cases hts with
        | leaf _ _ h => exact h
        | opened ho _ _ => exact absurd (hc.symm.trans ho) (by decide)
        | closed _ hcl _ => exact absurd (hend.symm.trans hcl) (by decide)
      exact Brackets.stays_of_decides_nil ((hm.handles (child_of_scalar hc)).scalar hc) hts' (Nat.le_refl n)
    | true =>
      have hts' : containers.Closes (n + 1) ts := by
        cases hts with
        | leaf ho _ _ => exact absurd (hc.symm.trans ho) (by decide)
        | opened _ _ h => exact h
        | closed _ hcl _ => exact absurd (hend.symm.trans hcl) (by decide)
      cases hchild : b.child el with
      | some b' =>
        obtain ⟨f, hm'⟩ := hm.enters b' hchild
        have hcare := ih (depth b') (hd ▸ depth_child hchild) b' rfl
        rw [hm']
        exact (Brackets.stays_loop hcare hts' (fun u hu => hg u (by simp [hu])) (start b')).bind_ofExcept
      | none =>
        cases hdr : b.drains el with
        | true =>
          exact Brackets.stays_of_decides hts' fun inner c hi ho hcl =>
            (hm.handles hchild).whole hc hdr inner c hi ⟨ho, hcl⟩
        | false =>
          obtain ⟨r, hr⟩ := (hm.handles hchild).left hc hdr
          rw [hr]
          exact Brackets.stays_ofExcept r hts' (Nat.le_succ n)

/-- A block that meets an unknown container that it does not drain reads the
contents as its own, and ends where the container ends. -/
theorem stays_undrained (hx : Complete el x) (hg : ∀ u ∈ x, Genuine u) (hb : b.hasFields = true)
    (hn : b.knows el = false) (hc : el.isContainer = true) (hd : b.drains el = false) (s : State V F b) :
    containers.Stays ((loop vr fr b).parser s) x 0 := by
  cases hx with
  | scalar hs _ => exact absurd (hc.symm.trans hs) (by decide)
  | @container inner c _ hend hi hcc hce =>
    have hp := ((member_loop hv hf b s (hg el (by simp))).passes hb hn).left hc hd
    have hone : containers.Closes (0 + 1) (inner ++ [c]) := hi.append (.closed hcc hce .nil)
    have hrun : ∀ ts, ((loop vr fr b).parser s).run (el :: ts) = ((loop vr fr b).parser s).run ts := by
      intro ts
      rw [Loop.run_step (by rw [closes_loop, hend]), hp]
      rfl
    rcases Brackets.stays_loop (careful_loop hv hf b) hone (fun u hu => hg u (mem_cons_of_mem el hu)) s with
      ⟨e, h⟩ | ⟨a, rest, m, hm, hrest, h⟩
    · exact .inl ⟨e, fun r => (hrun _).trans (h r)⟩
    · exact .inr ⟨a, rest, m, hm, hrest, fun r => (hrun _).trans (h r)⟩

/-- When an item of an array ends too early, the array and what is around it
end too early as well, unless they fail. -/
theorem settles_item {outer arr : Block} {o1 o2 : Element} {T : List Element → Prop}
    (h1 : outer.child o1 = some arr) (h2 : arr.child o2 = some item) (hg1 : Genuine o1) (hg2 : Genuine o2)
    (hend1 : o1.isEndContainer = false) (hend2 : o2.isEndContainer = false)
    (hx : containers.Stays (body vr fr item) x 0) (hgx : ∀ u ∈ x, Genuine u)
    (harr : ∀ s after, T after → ∃ e, ((loop vr fr arr).parser s).run after = .error e)
    (hout : ∀ s after, T after → ∃ e, ((loop vr fr outer).parser s).run after = .error e) (s : State V F outer) :
    ∃ p : Decode E (outer.Result V F), containers.Settles Genuine T p x ∧
      ∀ ts, ((loop vr fr outer).parser s).run (o1 :: o2 :: ts) = p.run ts := by
  obtain ⟨f, hf1⟩ := (member_loop hv hf outer s hg1).enters arr h1
  obtain ⟨g, hf2⟩ := (member_loop hv hf arr (start arr) hg2).enters item h2
  let inArray : Decode E (arr.Result V F) := (body vr fr item >>= fun a => pure (g a)) >>= (loop vr fr arr).parser
  have hpure : ∀ {β : Type} (b : β) (m : Nat) (rest : List Element), containers.Closes m rest →
      (∀ u ∈ rest, Genuine u) → containers.Settles Genuine T (pure b : Decode E β) rest :=
    fun b m rest hm hok => .inr ⟨b, rest, m, hm, hok, fun _ _ => rfl⟩
  have harray : containers.Settles Genuine T inArray x :=
    ((hx.settles hgx).bind fun a => hpure (g a)).bind fun a m rest hm hok =>
      Brackets.settles_loop (careful_loop hv hf arr) harr hm hok a
  refine ⟨(inArray >>= fun a => pure (f a)) >>= (loop vr fr outer).parser, ?_, fun ts => ?_⟩
  · exact (harray.bind fun a => hpure (f a)).bind fun a m rest hm hok =>
      Brackets.settles_loop (careful_loop hv hf outer) hout hm hok a
  have hin : ∀ ts, (body vr fr arr).run (o2 :: ts) = inArray.run ts := by
    intro ts
    refine (Loop.run_step (by rw [closes_loop, hend2]) ts).trans ?_
    rw [hf2]
  rw [Loop.run_step (by rw [closes_loop, hend1]), hf1]
  simp only [Parser.run_bind, hin]

end OutOfStep

/-! ## Requests -/

/-- A request is its opening element and the block of its outer structure. -/
theorem unmarshal_cons (k : Request) (o : Element) :
    (∀ r, (k.unmarshal vr fr).run (o :: r) = (body vr fr k.block).run r) ∨
      ∃ e, ∀ r, (k.unmarshal vr fr).run (o :: r) = .error e := by
  have hopen : ∀ {α : Type} (sentinel : ErrorClass) (p : Decode E α),
      (∀ r, (openStruct sentinel p).run (o :: r) = p.run r) ∨ ∃ e, ∀ r, (openStruct sentinel p).run (o :: r) = .error e := by
    intro α sentinel p
    have hrun : ∀ r, (openStruct sentinel p).run (o :: r) =
      (inContainer .struct o (.got sentinel "expected struct" o.type) p).run r := fun r => rfl
    unfold inContainer ifContainer at hrun
    split_ifs at hrun
    · exact .inl hrun
    · exact .inr ⟨_, hrun⟩
  cases k with
  | read | subscribe | write | invoke => exact hopen _ _
  | timed =>
    by_cases ho : o.type = .struct
    · refine .inl fun r => ?_
      show (if o.type ≠ .struct then _ else _ : Decode E TimedRequest).run r = _
      rw [if_neg (not_not.2 ho)]
      rfl
    · refine .inr ⟨.text .invalidTimedRequest "top must be Structure", fun r => ?_⟩
      show (if o.type ≠ .struct then _ else _ : Decode E TimedRequest).run r = _
      rw [if_pos ho]
      rfl

/-! ## Messages that are read -/

def Spelled (els : List Element) : Prop := ∃ bs, Spells bs els

theorem Spelled.append {els' : List Element} (h : Spelled els) (h' : Spelled els') : Spelled (els ++ els') := by
  obtain ⟨bs, hb⟩ := h
  obtain ⟨bs', hb'⟩ := h'
  exact ⟨_, GF.Proof.Tlv.Spells.append hb hb'⟩

theorem spelled_nil : Spelled [] := ⟨[], .nil⟩

theorem Spelled.cons (h : Spelled [el]) (h' : Spelled els) : Spelled (el :: els) := h.append h'

section Spelled

variable (n : BitVec 8)

theorem spelled_bool (v : Bool) : Spelled [boolElement (contextTag n) v] := ⟨_, spells_bool (readable_context n) v⟩

theorem spelled_uint (v : BitVec 64) :
    Spelled [uintElement (contextTag n) v] := ⟨_, spells_uint (readable_context n) v⟩

end Spelled

theorem spelled_end : Spelled [endElement] := ⟨_, spells_end⟩

theorem spelled_ends : ∀ n, Spelled (List.replicate n endElement)
  | 0 => spelled_nil
  | n + 1 => spelled_end.cons (spelled_ends n)

theorem genuine_open {t : ElementType} {tag : Tag} (ht : t = .struct ∨ t = .array ∨ t = .list) :
    Genuine (openElement t tag) := fun _ => ⟨rfl, ht⟩

theorem spelled_open {t : ElementType} (ht : t = .struct ∨ t = .array ∨ t = .list) {tag : Tag} (htag : Readable tag) :
    Spelled [openElement t tag] := ⟨_, spells_one (reads_open ht htag)⟩

def opening : Element := openElement .struct anonymousTag

/-- Fields that the outer structure of a request accepts. -/
def plainFields (v : Bool) : Request → List Element
  | .read => [boolElement (contextTag tagReadReqFabricFiltered) v]
  | .subscribe =>
    [boolElement (contextTag tagSubReqKeepSubscriptions) v, uintElement (contextTag tagSubReqMinIntervalFloor) 0,
      uintElement (contextTag tagSubReqMaxIntervalCeiling) 0, boolElement (contextTag tagSubReqFabricFiltered) true]
  | .write => [boolElement (contextTag tagWriteReqSuppressResponse) v]
  | .invoke => [boolElement (contextTag tagInvokeReqSuppressResponse) v]
  | .timed => [uintElement (contextTag tagTimedReqTimeout) (if v then 1 else 0)]

theorem spelled_plainFields (v : Bool) (k : Request) : Spelled (plainFields v k) := by
  cases k with
  | read | write | invoke => exact spelled_bool _ v
  | subscribe => exact (spelled_bool _ v).cons ((spelled_uint _ 0).cons ((spelled_uint _ 0).cons (spelled_bool _ true)))
  | timed => exact spelled_uint _ _

/-- What these fields are decoded to. -/
def plainRequest (v : Bool) : (k : Request) → k.block.Result V F
  | .read => ({ fabricFiltered := v } : ReadRequest)
  | .subscribe => ({ keepSubscriptions := v, fabricFiltered := true } : SubscribeRequest)
  | .write => ({ suppressResponse := v } : WriteRequest V)
  | .invoke => ({ suppressResponse := v } : InvokeRequest F)
  | .timed => ({ timeoutMs := if v then 1 else 0 } : TimedRequest)

theorem run_plainFields (v : Bool) (k : Request) :
    (body vr fr k.block).run (plainFields v k ++ [endElement]) = .ok (plainRequest v k, []) := by
  cases k <;> cases v <;> rfl

theorem plainRequest_ne (k : Request) : (plainRequest true k : k.block.Result V F) ≠ plainRequest false k := by
  intro h
  cases k with
  | read | subscribe | write | invoke => cases h
  | timed => exact absurd (congrArg TimedRequest.timeoutMs h) (by simp [plainRequest])

/-! ## Fields that are not ignored -/

/-- A field that is ignored is ignored in what follows the opening. -/
theorem run_of_ignored (h : Ignored vr fr k b x) (hr : Spelled r) (hr' : Spelled r')
    (hins : Inserted x b k.block r r') {v : k.block.Result V F} {rest : List Element}
    (hv : (body vr fr k.block).run r = .ok (v, rest)) : ((body vr fr k.block).run r').map Prod.fst = .ok v := by
  have hopening : Spelled [opening] := spelled_open (.inl rfl) readable_anonymous
  obtain ⟨data, hdata⟩ := hopening.append hr
  obtain ⟨data', hdata'⟩ := hopening.append hr'
  have hunmarshal : ∀ r, (k.unmarshal vr fr).run (opening :: r) = (body vr fr k.block).run r := by
    intro r
    cases k <;> rfl
  have hdec := h data data' opening r r' (elements_of_spells hdata) (elements_of_spells hdata') hins v
  unfold Request.decode at hdec
  rw [elements_of_spells hdata, elements_of_spells hdata', singleton_append, singleton_append,
    hunmarshal, hunmarshal, hv] at hdec
  exact hdec rfl

theorem inserted_here (x : List Element) (b : Block) (after : List Element) : Inserted x b b after (x ++ after) :=
  Inserted.here .nil

theorem inserted_within {after after' : List Element} (hend : el.isEndContainer = false) (hc : b.child el = some b')
    (h : Inserted x target b' after after') :
    Inserted x target b (el :: after) (el :: after') := Inserted.within .nil hend hc h

/-- What ends the outer structure too early is not ignored. -/
theorem not_ignored_outer (hx : Spelled x) (h : containers.Stays (body vr fr k.block) x 0) :
    ¬ Ignored vr fr k k.block x := by
  intro hign
  have hrun : ∀ v, ((body vr fr k.block).run (x ++ (plainFields v k ++ [endElement]))).map Prod.fst =
      .ok (plainRequest v k) := by
    intro v
    have hr : Spelled (plainFields v k ++ [endElement]) := (spelled_plainFields v k).append spelled_end
    exact run_of_ignored hign hr (hx.append hr) (inserted_here x _ _) (run_plainFields v k)
  -- the answer is given before the fields are seen
  rcases h with ⟨e, h⟩ | ⟨a, rest, m, -, -, h⟩
  · have htrue := hrun true
    rw [h] at htrue
    cases htrue
  · have htrue := hrun true
    have hfalse := hrun false
    rw [h] at htrue hfalse
    exact plainRequest_ne k ((Except.ok.inj htrue).symm.trans (Except.ok.inj hfalse))

section Items

variable (hv : ∀ read ∈ vr, ReadsValue read) (hf : ∀ read ∈ fr, ReadsFields read)
include hv hf

/-- Nor is what ends an item of an array too early: `tail v` is the rest of a
message with one item that carries `v`. -/
theorem not_ignored_item (arr : Block) (o1 o2 : Element) (tail : Bool → List Element)
    (result : Bool → k.block.Result V F) (h1 : k.block.child o1 = some arr) (h2 : arr.child o2 = some item)
    (hg1 : Genuine o1) (hg2 : Genuine o2) (hend1 : o1.isEndContainer = false) (hend2 : o2.isEndContainer = false)
    (hs1 : Spelled [o1]) (hs2 : Spelled [o2]) (hst : ∀ v, Spelled (tail v)) (hsx : Spelled x)
    (hx : containers.Stays (body vr fr item) x 0) (hgx : ∀ u ∈ x, Genuine u)
    (harr : ∀ s v, ∃ e, ((loop vr fr arr).parser s).run (tail v) = .error e)
    (hout : ∀ s v, ∃ e, ((loop vr fr k.block).parser s).run (tail v) = .error e)
    (haccept : ∀ v, (body vr fr k.block).run (o1 :: o2 :: tail v) = .ok (result v, []))
    (hne : result true ≠ result false) : ¬ Ignored vr fr k item x := by
  intro hign
  obtain ⟨p, hp, hbody⟩ := settles_item hv hf (T := fun after => ∃ v, after = tail v) h1 h2 hg1 hg2 hend1 hend2 hx hgx
    (by rintro s _ ⟨v, rfl⟩; exact harr s v) (by rintro s _ ⟨v, rfl⟩; exact hout s v) (start k.block)
  have hrun : ∀ v, (p.run (x ++ tail v)).map Prod.fst = .ok (result v) := by
    intro v
    have hins : Inserted x item k.block (o1 :: o2 :: tail v) (o1 :: o2 :: (x ++ tail v)) :=
      inserted_within hend1 h1 (inserted_within hend2 h2 (inserted_here x item _))
    have hr : Spelled (o1 :: o2 :: tail v) := hs1.cons (hs2.cons (hst v))
    have hr' : Spelled (o1 :: o2 :: (x ++ tail v)) := hs1.cons (hs2.cons (hsx.append (hst v)))
    rw [← hbody]
    exact run_of_ignored hign hr hr' hins (haccept v)
  rcases hp with h | ⟨a, rest, m, -, -, h⟩
  · obtain ⟨e, he⟩ := h _ ⟨true, rfl⟩
    have htrue := hrun true
    rw [he] at htrue
    cases htrue
  · have htrue := hrun true
    have hfalse := hrun false
    rw [h _ ⟨_, rfl⟩] at htrue hfalse
    exact hne ((Except.ok.inj htrue).symm.trans (Except.ok.inj hfalse))

/-- The rest of a write of one attribute, from its path on. -/
def writeTail (v : Bool) : List Element :=
  [openElement .list (contextTag tagAttributeDataPath),
    uintElement (contextTag tagAttrPathEndpoint) (if v then 1 else 0), endElement, endElement, endElement, endElement]

/-- The rest of an invocation of one command, from its path on. -/
def invokeTail (v : Bool) : List Element :=
  [openElement .list (contextTag tagCmdDataPath), uintElement (contextTag tagCmdPathCluster) 0,
    uintElement (contextTag tagCmdPathCommand) (if v then 1 else 0), endElement, endElement, endElement, endElement]

theorem not_ignored_attributeData (hsx : Spelled x) (hx : containers.Stays (body vr fr .attributeData) x 0)
    (hgx : ∀ u ∈ x, Genuine u) : ¬ Ignored vr fr .write .attributeData x := by
  refine not_ignored_item hv hf .attributeWrites (openElement .array (contextTag tagWriteReqWriteRequests))
    (openElement .struct anonymousTag) writeTail
    (fun v => { writes := [{ path := { endpoint := if v then 1 else 0, hasEndpoint := true } }] })
    rfl rfl (genuine_open (by decide)) (genuine_open (by decide)) rfl rfl (spelled_open (by decide) (readable_context _))
    (spelled_open (by decide) readable_anonymous) (fun v => ?_) hsx hx hgx ?_ ?_ ?_ ?_
  · exact (spelled_open (by decide) (readable_context _)).cons ((spelled_uint _ _).cons (spelled_ends 4))
  -- the list is no item of the array, and its endpoint is no array of writes
  · exact fun s v => ⟨_, rfl⟩
  · exact fun s v => ⟨_, rfl⟩
  · intro v
    cases v <;> rfl
  · intro h
    have hpath := congrArg (fun r : WriteRequest V => r.writes.map (·.path.endpoint)) h
    simp at hpath

theorem not_ignored_commandInvocation (hsx : Spelled x) (hx : containers.Stays (body vr fr .commandInvocation) x 0)
    (hgx : ∀ u ∈ x, Genuine u) : ¬ Ignored vr fr .invoke .commandInvocation x := by
  refine not_ignored_item hv hf .commandData (openElement .array (contextTag tagInvokeReqInvokeRequests))
    (openElement .struct anonymousTag) invokeTail
    (fun v => { invokes := [{ path := { cluster := 0, hasCluster := true, command := if v then 1 else 0,
                                        hasCommand := true } }] })
    rfl rfl (genuine_open (by decide)) (genuine_open (by decide)) rfl rfl (spelled_open (by decide) (readable_context _))
    (spelled_open (by decide) readable_anonymous) (fun v => ?_) hsx hx hgx ?_ ?_ ?_ ?_
  · exact (spelled_open (by decide) (readable_context _)).cons
      ((spelled_uint _ _).cons ((spelled_uint _ _).cons (spelled_ends 4)))
  -- the list is no item of the array, and no boolean either
  · exact fun s v => ⟨_, rfl⟩
  · exact fun s v => ⟨_, rfl⟩
  · intro v
    cases v <;> rfl
  · intro h
    have hpath := congrArg (fun r : InvokeRequest F => r.invokes.map (·.path.command)) h
    simp at hpath

end Items

/-- The blocks that do not drain what they do not know. -/
theorem drains_inside (hb : b ∈ k.blocks) (hn : b.knows el = false) :
    b = k.block ∨ (k = .write ∧ b = .attributeData) ∨ (k = .invoke ∧ b = .commandInvocation) ∨ b.drains el = true := by
  have hurgent : Block.knows .eventPath el = false → isField el tagEventPathIsUrgent = false := by
    intro h
    simpa using any_eq_false.1 h tagEventPathIsUrgent (by decide)
  cases k <;> simp only [Request.blocks, mem_cons, not_mem_nil, or_false] at hb
  · rcases hb with rfl | rfl | rfl | rfl | rfl | rfl <;> simp [Request.block]
    exact hurgent hn
  · rcases hb with rfl | rfl | rfl | rfl | rfl | rfl <;> simp [Request.block]
    exact hurgent hn
  · rcases hb with rfl | rfl | rfl <;> simp [Request.block]
  · rcases hb with rfl | rfl | rfl | rfl <;> simp [Request.block]
  · exact .inl hb

/-! ## The theorem -/

/-- An unknown field of a block is ignored exactly when it is no container, or
one that the block drains. -/
theorem unknown_field_ignored (hv : ∀ read ∈ valueReader, ReadsValue read)
    (hf : ∀ read ∈ fieldsReader, ReadsFields read) (k : Request) {b : Block} (hb : b ∈ k.blocks) {el : Element}
    {x : List Element} {bytes : List Byte} (hx : Complete el x) (hbytes : Spells bytes x) (hn : b.knows el = false) :
    Ignored valueReader fieldsReader k b x ↔ (el.isContainer = true → b.drains el = true) := by
  have hfields : b.hasFields = true := by
    cases k <;> cases b <;> first | rfl | exact absurd hb (by decide)
  have hgx : ∀ u ∈ x, Genuine u := by
    rw [← elements_of_spells hbytes]
    exact elements_genuine bytes
  have hg : Genuine el := hgx el (by cases hx <;> simp)
  constructor
  · intro hign hc
    by_contra hd
    rw [Bool.not_eq_true] at hd
    have hstays := stays_undrained hv hf hx hgx hfields hn hc hd (start b)
    rcases drains_inside hb hn with rfl | ⟨rfl, rfl⟩ | ⟨rfl, rfl⟩ | h
    · exact not_ignored_outer ⟨bytes, hbytes⟩ hstays hign
    · exact not_ignored_attributeData hv hf ⟨bytes, hbytes⟩ hstays hgx hign
    · exact not_ignored_commandInvocation hv hf ⟨bytes, hbytes⟩ hstays hgx hign
    · exact absurd (hd.symm.trans h) (by decide)
  · intro hd data data' o r r' hr hr' hins v hdec
    have hpass := fun s => runs_unknown hv hf hx hg hfields hn hd s
    have hgr : ∀ u ∈ r, Genuine u := fun u hu => elements_genuine data u (by simp [hr, hu])
    have hrun := run_inserted hv hf hpass hins hgr (start k.block)
    unfold Request.decode at hdec ⊢
    rw [hr] at hdec
    rw [hr']
    rcases @unmarshal_cons E V F valueReader fieldsReader k o with h | ⟨e, h⟩
    · rw [h] at hdec ⊢
      exact (congrArg (·.map Prod.fst) hrun).trans hdec
    · rw [h] at hdec
      cases hdec

def numberReader : AttributeValueReader Unit (BitVec 64) := fun _ el =>
  if el.isContainer then do
    containers.skip ()
    pure {}
  else pure { value := some el.uint }

def emptyFieldsReader : CommandFieldsReader Unit Unit := fun _ _ =>
  ((do containers.skip ⟨(), none, false⟩
       pure (some ())) : Parser Element (FieldsReject Unit) (Option Unit)).attempt

theorem readsValue_number : ReadsValue numberReader := by
  refine fun path el => ⟨fun hc => ?_, fun hc inner c hi hcc hce => ?_⟩
  · unfold numberReader
    rw [if_neg (by simp [hc])]
    exact ⟨_, answers_pure⟩
  · unfold numberReader
    rw [if_pos hc]
    have hskip : Answers (containers.skip ()) (inner ++ [c]) (.ok ()) := Brackets.answers_skip hi hcc hce
    exact ⟨_, hskip.bind_pure⟩

theorem readsFields_empty : ReadsFields emptyFieldsReader := by
  intro path el inner c hi hcc hce
  have hskip : Answers (containers.skip (⟨(), none, false⟩ : FieldsReject Unit)) (inner ++ [c]) (.ok ()) :=
    Brackets.answers_skip hi hcc hce
  exact .inl ⟨.ok (some ()), by simp, (hskip.bind_pure).attempt⟩

/-- An unknown number in an AttributeDataIB is ignored, and so is a structure at
an unknown context tag of the outer structure. -/
theorem unknown_field_ignored_write :
    Ignored (some numberReader) (some emptyFieldsReader) .write .attributeData [uintElement (contextTag 9) 7] ∧
      Ignored (some numberReader) (some emptyFieldsReader) .write .writeRequest
        [openElement .struct (contextTag 9), endElement] := by
  have hv : ∀ read ∈ some numberReader, ReadsValue read := by
    rintro read ⟨⟩
    exact readsValue_number
  have hf : ∀ read ∈ some emptyFieldsReader, ReadsFields read := by
    rintro read ⟨⟩
    exact readsFields_empty
  constructor
  · exact (unknown_field_ignored hv hf .write (by decide) (.scalar rfl rfl) (spells_uint (readable_context 9) 7) (by decide)).2
      fun h => absurd h (by decide)
  · exact (unknown_field_ignored hv hf .write (by decide) (.container rfl rfl .nil rfl rfl)
      (spells_container (.inl rfl) (readable_context 9) .nil) (by decide)).2 fun _ => by decide

/-- A write of one attribute of endpoint 1, and the same with an empty structure
at the unknown tag 9 of its AttributeDataIB. -/
theorem unknown_container_refused :
    let data : List Byte := [0x15, 0x36, 0x02, 0x15, 0x37, 0x01, 0x24, 0x02, 0x01, 0x18, 0x18, 0x18, 0x18]
    let data' : List Byte :=
      [0x15, 0x36, 0x02, 0x15, 0x35, 0x09, 0x18, 0x37, 0x01, 0x24, 0x02, 0x01, 0x18, 0x18, 0x18, 0x18]
    let x : List Element := [openElement .struct (contextTag 9), endElement]
    (∃ r r', (elements data).1 = opening :: r ∧ (elements data').1 = opening :: r' ∧
      Complete (openElement .struct (contextTag 9)) x ∧
      Block.knows .attributeData (openElement .struct (contextTag 9)) = false ∧
      Inserted x .attributeData .writeRequest r r') ∧
    Request.decode (some numberReader) (some emptyFieldsReader) .write data =
      .ok ({ writes := [{ path := { endpoint := 1, hasEndpoint := true } }] } : WriteRequest (BitVec 64)) ∧
    Request.decode (some numberReader) (some emptyFieldsReader) .write data' =
      .error (.text .invalidWriteRequest "AttributeDataIB not struct") := by
  refine ⟨⟨_, _, rfl, rfl, .container rfl rfl .nil rfl rfl, by decide, ?_⟩, by rfl, by rfl⟩
  exact inserted_within rfl rfl (inserted_within rfl rfl (inserted_here _ _ _))

end GF.Proof.Im
