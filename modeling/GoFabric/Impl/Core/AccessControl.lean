import GoFabric.Impl.Endpoint.Acl
import GoFabric.Impl.Im.Unmarshal
import Mathlib.Data.List.Sort

/-!
# The AccessControl cluster (`cluster/core/access_control.go`)

The two fabric-scoped lists of the cluster: `MatterReadFiltered` and `MatterWrite`
of ACL and Extension. The store is the one of `store/memstore`, with the tables that
the cluster uses; a store may also fail (`Faults`), and then it stays as it was. What
a request carries in its context is `Context`. The events that are emitted are kept
in the state, in order.
-/

namespace GF.Impl.Core

open GF.Impl.Endpoints (Privilege AuthMode ACLTarget ACLEntry)
open GF.Impl.Im (StatusCode)
open GF.Impl.Tlv

/-! ## The store -/

/-- The tables of the store. An entry is one of the fabric it is listed for, and the
fabric is there. -/
structure Store where
  fabrics : List (BitVec 8)
  acl : BitVec 8 → List ACLEntry
  settings : String → Option String
  aclNextID : Nat
  sorted : fabrics.Pairwise (· < ·)
  foreign_key : ∀ f, acl f ≠ [] → f ∈ fabrics
  owned : ∀ f, ∀ e ∈ acl f, e.fabricIndex = f

/-- The calls of the store that fail. A store that cannot be read fails on every
read of a request. -/
structure Faults where
  lists : Bool := false
  replaces : Bool := false
  sets : Bool := false

/-- What a store does beside the ACL: it lists the fabrics (`fabricLister`), it keeps
settings (`ACLExtensionPersistence`). -/
structure Backend where
  listsFabrics : Bool
  persists : Bool

namespace Store

/-- The checks of `ReplaceACL` on an entry. -/
def checkEntries : Nat → List ACLEntry → Except String Unit
  | _, [] => .ok ()
  | i, e :: entries =>
    if e.privilege < Privilege.view ∨ Privilege.administer < e.privilege then
      let privilege := e.privilege.toNat
      .error s!"memstore: replace acl: entry {i}: privilege {privilege}"
    else if e.authMode < AuthMode.pase ∨ AuthMode.group < e.authMode then
      let mode := e.authMode.toNat
      .error s!"memstore: replace acl: entry {i}: auth mode {mode}"
    else checkEntries (i + 1) entries

/-- The entries as they are kept. -/
def numbered (fabricIndex : BitVec 8) (nextID : Nat) (entries : List ACLEntry) : List ACLEntry :=
  entries.mapIdx fun i e =>
    { e with id := nextID + i, fabricIndex := fabricIndex, position := BitVec.ofNat 16 i }

def replaceACL (s : Store) (fabricIndex : BitVec 8) (entries : List ACLEntry) : Except String Store :=
  if h : entries ≠ [] ∧ s.fabrics.contains fabricIndex = false then
    let index := fabricIndex.toNat
    .error s!"memstore: replace acl: memstore: no such fabric {index}"
  else
    match checkEntries 0 entries with
    | .error e => .error e
    | .ok () => .ok {
        s with
        acl := fun f => if f = fabricIndex then numbered fabricIndex s.aclNextID entries else s.acl f
        aclNextID := s.aclNextID + entries.length
        foreign_key := by
          intro f hf
          by_cases hfabric : f = fabricIndex
          · subst hfabric
            have hne : entries ≠ [] := by
              rintro rfl
              exact hf (if_pos rfl)
            have hcontains : s.fabrics.contains f = true := by
              rw [← Bool.not_eq_false]
              exact fun hfalse => h ⟨hne, hfalse⟩
            exact List.contains_iff_mem.1 hcontains
          · rw [if_neg hfabric] at hf
            exact s.foreign_key f hf
        owned := by
          intro f e he
          by_cases hfabric : f = fabricIndex
          · rw [if_pos hfabric] at he
            obtain ⟨i, hi, rfl⟩ := List.mem_mapIdx.1 he
            exact hfabric.symm
          · rw [if_neg hfabric] at he
            exact s.owned f e he }

def setSetting (s : Store) (key value : String) : Store :=
  { s with settings := fun k => if k = key then some value else s.settings k }

end Store

/-! ## The cluster -/

structure AccessControlEntryStruct where
  privilege : Privilege := 0
  authMode : AuthMode := 0
  subjects : List (BitVec 64) := []
  targets : List ACLTarget := []
  auxiliaryType : Option (BitVec 8) := none
  fabricIndex : BitVec 8
  redacted : Bool := false
deriving DecidableEq

structure AccessControlExtensionEntry where
  data : List Byte
  fabricIndex : BitVec 8
  redacted : Bool := false

/-- `AccessControlLimits`; a zero is the default. -/
structure AccessControlLimits where
  entriesPerFabric : BitVec 16 := 0
  subjectsPerEntry : BitVec 16 := 0
  targetsPerEntry : BitVec 16 := 0

/-- `ChangeTypeEnum`. -/
inductive ChangeType
  | changed
  | added
  | removed

/-- Who made a change: `AdminNodeID` and `AdminPasscodeID`. -/
structure Admin where
  nodeID : Option (BitVec 64)
  passcodeID : Option (BitVec 16)

/-- `AccessControlEntryChangedEvent` and `AccessControlExtensionChangedEvent`. -/
inductive Event
  | entryChanged (admin : Admin) (change : ChangeType) (latest : AccessControlEntryStruct) (fabricIndex : BitVec 8)
  | extensionChanged (admin : Admin) (change : ChangeType) (latest : Option AccessControlExtensionEntry)
      (fabricIndex : BitVec 8)

/-- `AccessControl`. An extension is one of the fabric it is kept for. -/
structure AccessControl where
  store : Store
  currentFabric : BitVec 8 := 0
  dataVersion : BitVec 32
  extensions : BitVec 8 → Option (List AccessControlExtensionEntry) := fun _ => none
  emitter : Bool := false
  events : List Event := []
  limits : AccessControlLimits := {}
  stamped : ∀ f es, extensions f = some es → ∀ e ∈ es, e.fabricIndex = f

/-- The two lists. -/
inductive Attribute
  | acl
  | extension

/-- What a read returns. -/
inductive Value
  | acl (entries : List AccessControlEntryStruct)
  | extension (entries : List AccessControlExtensionEntry)

/-- What a write carries: a list of either kind, or a value of another Go type. -/
inductive WriteValue
  | acl (entries : List AccessControlEntryStruct)
  | extension (entries : List AccessControlExtensionEntry)
  | other (goType : String)

def WriteValue.goType : WriteValue → String
  | acl _ => "[]core.AccessControlEntryStruct"
  | extension _ => "[]core.AccessControlExtensionEntry"
  | other goType => goType

/-- What the context of a call carries: the fabric filter of a request, its subject,
whether it came over PASE, and whether a write appends to a list. -/
structure Context where
  fabricFilter : Option (Bool × BitVec 8) := none
  subject : BitVec 64 := 0
  pase : Bool := false
  listAppend : Bool := false

def aclExtensionSettingKey (fabric : BitVec 8) : String := "access_control.extension." ++ toString fabric.toNat

def orUint16 (v default : BitVec 16) : BitVec 16 := if v = 0 then default else v

namespace AccessControl

def entriesPerFabric (a : AccessControl) : BitVec 16 := orUint16 a.limits.entriesPerFabric 4

def subjectsPerEntry (a : AccessControl) : BitVec 16 := orUint16 a.limits.subjectsPerEntry 4

def targetsPerEntry (a : AccessControl) : BitVec 16 := orUint16 a.limits.targetsPerEntry 4

/-- `extensions[fabric]`; the zero value where there is none. -/
def extensionsOf (a : AccessControl) (fabric : BitVec 8) : List AccessControlExtensionEntry :=
  (a.extensions fabric).getD []

/-- The keys of `extensions`. -/
def extensionKeys (a : AccessControl) : List (BitVec 8) :=
  ((List.range 256).map (BitVec.ofNat 8)).filter fun f => (a.extensions f).isSome

end AccessControl

/-! ## Reading -/

def aclEntryStruct (e : ACLEntry) : AccessControlEntryStruct where
  privilege := e.privilege
  authMode := e.authMode
  subjects := e.subjects
  targets := e.targets
  fabricIndex := e.fabricIndex

variable (backend : Backend) (faults : Faults) (a : AccessControl)

variable (ctx : Context)

def listACL (fabric : BitVec 8) : Option (List ACLEntry) :=
  if faults.lists then none else some (a.store.acl fabric)

/-- `MatterRead`, of the two lists. -/
def matterRead : Attribute → Option Value
  | .acl => do
    let entries ← listACL faults a a.currentFabric
    some (.acl (entries.map aclEntryStruct))
  | .extension => some (.extension (a.extensionsOf a.currentFabric))

def compact : List (BitVec 8) → List (BitVec 8)
  | [] => []
  | [x] => [x]
  | x :: y :: l => if x = y then compact (y :: l) else x :: compact (y :: l)

def unfilteredFabrics (accessing : BitVec 8) : Option (List (BitVec 8)) :=
  if !backend.listsFabrics then some (if accessing = 0 then [] else [accessing])
  else if faults.lists then none
  else
    let out := a.store.fabrics ++ a.extensionKeys.filter (· ≠ 0) ++ (if accessing ≠ 0 then [accessing] else [])
    some (compact (out.insertionSort (· ≤ ·)))

/-- The fabrics that a read of a request covers. -/
def fabricsOf (filtered : Bool) (fabricIndex : BitVec 8) : Option (List (BitVec 8)) :=
  if filtered then some (if fabricIndex = 0 then [] else [fabricIndex])
  else unfilteredFabrics backend faults a fabricIndex

/-- An extension of `fabric`, as `fabricIndex` reads it. -/
def shownExtension (fabric fabricIndex : BitVec 8) (e : AccessControlExtensionEntry) : AccessControlExtensionEntry :=
  if fabric ≠ fabricIndex then { e with redacted := true, data := [] } else { e with redacted := false }

/-- An entry of `fabric`, as `fabricIndex` reads it. -/
def shownEntry (fabric fabricIndex : BitVec 8) (e : ACLEntry) : AccessControlEntryStruct :=
  if fabric ≠ fabricIndex then { fabricIndex := e.fabricIndex, redacted := true } else aclEntryStruct e

/-- `MatterReadFiltered`, of the two lists. -/
def matterReadFiltered (attr : Attribute) (a : AccessControl) : Option Value :=
  match ctx.fabricFilter with
  | none => matterRead faults a attr
  | some (filtered, fabricIndex) => do
    let fabrics ← fabricsOf backend faults a filtered fabricIndex
    match attr with
    | .extension =>
      some (.extension (fabrics.flatMap fun fabric => (a.extensionsOf fabric).map (shownExtension fabric fabricIndex)))
    | .acl => do
      let lists ← fabrics.mapM fun fabric => do
        let entries ← listACL faults a fabric
        some (entries.map (shownEntry fabric fabricIndex))
      some (.acl lists.flatten)

/-! ## Errors of a write -/

inductive WriteError
  /-- An error with no status of its own. -/
  | text (msg : String)
  | status (code : StatusCode) (msg : String)
  /-- The text also shows a number, in hexadecimal. -/
  | statusHex (code : StatusCode) (msg : String) (value : Nat)
  /-- Around an error of `tlv.Validate`. -/
  | invalidTLV (code : StatusCode) (msg : String) (cause : ValidateError)
  /-- Around an error of the store. -/
  | store (msg cause : String)

def aclStatusError (code : StatusCode) (msg : String) : WriteError := .status code ("core: AccessControl: " ++ msg)

/-- A check of every item, with its place. -/
def checkEach {α : Type} (check : Nat → α → Except WriteError Unit) : Nat → List α → Except WriteError Unit
  | _, [] => .ok ()
  | i, x :: xs => do
    check i x
    checkEach check (i + 1) xs

/-! ## The checks of an ACL entry -/

def aclIsValidCASESubject (id : BitVec 64) : Bool :=
  decide (1 ≤ id ∧ id ≤ 0xFFFFFFEFFFFFFFFF) || decide (id >>> 32 = 0xFFFFFFFD ∧ id &&& 0xFFFF ≠ 0)

def aclIsValidGroupSubject (id : BitVec 64) : Bool := decide (1 ≤ id ∧ id ≤ 0xFFFF)

def aclIsValidClusterID (id : BitVec 32) : Bool :=
  let vendorPrefix := id >>> 16
  let typeSuffix := id &&& 0xFFFF
  if 0xFFF4 < vendorPrefix ∨ 0xFFFE < typeSuffix then false
  else if vendorPrefix = 0 ∧ typeSuffix ≤ 0x7FFF then true
  else decide (vendorPrefix ≠ 0 ∧ 0xFC00 ≤ typeSuffix ∧ typeSuffix ≤ 0xFFFE)

def aclIsValidDeviceTypeID (id : BitVec 32) : Bool := decide (id >>> 16 ≤ 0xFFF4 ∧ id &&& 0xFFFF ≤ 0xBFFF)

/-- The check of a subject of entry `i`. -/
def checkSubject (i : Nat) (mode : AuthMode) (j : Nat) (subj : BitVec 64) : Except WriteError Unit :=
  let at_ := s!"core: AccessControl.ACL[{i}].Subjects[{j}] write: constraint error: "
  if subj = 0 then .error (.status .constraintError (at_ ++ "subject 0 is the undefined node ID"))
  else if mode = AuthMode.case ∧ !aclIsValidCASESubject subj then
    .error (.statusHex .constraintError
      (at_ ++ "CASE subject is not a valid operational node ID or CASE auth tag") subj.toNat)
  else if mode = AuthMode.group ∧ !aclIsValidGroupSubject subj then
    .error (.statusHex .constraintError (at_ ++ "Group subject is not a group id") subj.toNat)
  else .ok ()

/-- The check of a target of entry `i`. -/
def checkTarget (i j : Nat) (t : ACLTarget) : Except WriteError Unit :=
  let at_ := s!"core: AccessControl.ACL[{i}].Targets[{j}] write: constraint error: "
  if t.deviceType.isSome ∧ t.endpoint.isSome then
    .error (.status .constraintError (at_ ++ "DeviceType and Endpoint mutually exclusive"))
  else if t.cluster = none ∧ t.endpoint = none ∧ t.deviceType = none then
    .error (.status .constraintError (at_ ++ "at least one of Cluster/Endpoint/DeviceType must be set"))
  else if t.cluster.any (!aclIsValidClusterID ·) then
    .error (.statusHex .constraintError (at_ ++ "Cluster is not a valid ClusterId") (t.cluster.getD 0).toNat)
  else if t.endpoint = some 0xFFFF then
    .error (.status .constraintError (at_ ++ "EndpointId 0xFFFF is reserved"))
  else if t.deviceType.any (!aclIsValidDeviceTypeID ·) then
    .error (.statusHex .constraintError (at_ ++ "DeviceType is not a valid DeviceTypeId")
      (t.deviceType.getD 0).toNat)
  else .ok ()

/-- The checks of entry `i`. -/
def checkEntry (i : Nat) (e : AccessControlEntryStruct) : Except WriteError Unit :=
  let subjects := e.subjects.length
  let targets := e.targets.length
  let subjectLimit := a.subjectsPerEntry.toNat
  let targetLimit := a.targetsPerEntry.toNat
  let privilege := e.privilege.toNat
  let mode := e.authMode.toNat
  let at_ := s!"core: AccessControl.ACL[{i}] write: "
  if subjectLimit < subjects then
    .error (.status .resourceExhausted
      (at_ ++ s!"resource exhausted: SubjectsPerAccessControlEntry={subjects} > limit={subjectLimit}"))
  else if targetLimit < targets then
    .error (.status .resourceExhausted
      (at_ ++ s!"resource exhausted: TargetsPerAccessControlEntry={targets} > limit={targetLimit}"))
  else if e.privilege < Privilege.view ∨ Privilege.administer < e.privilege then
    .error (.status .constraintError
      (at_ ++ s!"constraint error: Privilege={privilege} not in 1..5 (View..Administer)"))
  else if e.authMode < AuthMode.pase ∨ AuthMode.group < e.authMode then
    .error (.status .constraintError
      (at_ ++ s!"constraint error: AuthMode={mode} not in 1..3 (PASE/CASE/Group)"))
  else if e.authMode = AuthMode.pase then
    .error (.status .constraintError (at_ ++ "constraint error: AuthMode=PASE is forbidden in ACL"))
  else if e.authMode = AuthMode.group ∧ e.privilege = Privilege.administer then
    .error (.status .constraintError
      (at_ ++ "constraint error: Group authmode + Administer privilege rejected"))
  else do
    checkEach (checkSubject i e.authMode) 0 e.subjects
    checkEach (checkTarget i) 0 e.targets

/-- The check of `AuxiliaryType`. -/
def checkAuxiliary (i : Nat) (e : AccessControlEntryStruct) : Except WriteError Unit :=
  if e.auxiliaryType.isSome then
    .error (aclStatusError .failure s!"ACL[{i}] must not include AuxiliaryType")
  else .ok ()

/-- All checks of an ACL write. -/
def checkACL (entries : List AccessControlEntryStruct) : Except WriteError Unit := do
  checkEach checkAuxiliary 0 entries
  let count := entries.length
  let limit := a.entriesPerFabric.toNat
  if limit < count then
    .error (.status .resourceExhausted
      s!"core: AccessControl.ACL write: resource exhausted: AccessControlEntriesPerFabric={count} > limit={limit}")
  else checkEach (checkEntry a) 0 entries

/-! ## The checks of an extension -/

/-- The walk of `validateAccessControlExtensionData` over the members of a list that
is valid: whether one at depth 1 has no tag. -/
def untaggedMember : Int → List Element → Bool
  | _, [] => false
  | depth, el :: els =>
    if el.type = .endContainer then untaggedMember (depth - 1) els
    else if depth = 1 ∧ el.tag.kind = .anonymous then true
    else untaggedMember (if el.isContainer then depth + 1 else depth) els

/-- `validateAccessControlExtensionData`, of entry `i`. -/
def validateAccessControlExtensionData (i : Nat) (data : List Byte) : Except WriteError Unit :=
  let at_ := s!"core: AccessControl.Extension[{i}] write: constraint error: "
  if data.length < 2 ∨ data.head? ≠ some ElementType.list.code ∨ data.getLast? ≠ some ElementType.endContainer.code then
    .error (.status .constraintError (at_ ++ "core: extension must be a valid TLV"))
  else
    match validate data with
    | .error e => .error (.invalidTLV .constraintError (at_ ++ "extension must be a valid TLV") e)
    | .ok () =>
      if untaggedMember 0 (GF.Impl.Im.Wire.elements data).1 then
        .error (.status .constraintError
          (at_ ++ "core: extension must be a valid TLV: list member without a tag"))
      else .ok ()

/-- The checks of extension `i`. -/
def checkExtension (i : Nat) (e : AccessControlExtensionEntry) : Except WriteError Unit :=
  let length := e.data.length
  if 128 < length then
    .error (.status .constraintError
      s!"core: AccessControl.Extension[{i}] write: constraint error: Data length {length} exceeds max 128")
  else validateAccessControlExtensionData i e.data

/-- All checks of an extension write. -/
def checkExtensions (entries : List AccessControlExtensionEntry) : Except WriteError Unit :=
  let count := entries.length
  if 1 < count then
    .error (.status .constraintError
      s!"core: AccessControl.Extension write: constraint error: a fabric may hold at most one entry, got {count}")
  else checkEach checkExtension 0 entries

/-! ## Writing -/

def writeFabric (attr : String) (entryFabric : BitVec 8) : Except WriteError (BitVec 8) :=
  let fabric :=
    match ctx.fabricFilter with
    | some (_, fabric) => fabric
    | none => if a.currentFabric = 0 then entryFabric else a.currentFabric
  if fabric = 0 then
    .error (aclStatusError .unsupportedAccess (attr ++ " is fabric-scoped; the write has no accessing fabric"))
  else .ok fabric

/-- `Bump`: zero is skipped. -/
def bump (v : BitVec 32) : BitVec 32 := if v + 1 = 0 then v + 2 else v + 1

def aclAdminFromContext : Admin :=
  if ctx.pase ∨ ctx.subject = 0 then { nodeID := none, passcodeID := some 0 }
  else { nodeID := some ctx.subject, passcodeID := none }

/-- The entries that are stored: of the fabric of the writer, in the order of the
list. -/
def stampedEntries (fabric : BitVec 8) (entries : List AccessControlEntryStruct) : List ACLEntry :=
  entries.mapIdx fun i e =>
    { fabricIndex := fabric, privilege := e.privilege, authMode := e.authMode, subjects := e.subjects,
      targets := e.targets, position := BitVec.ofNat 16 i }

/-- The events of an ACL write: each position of the new list, then the old entries
past its end, the last one first. An append reports what it adds. -/
def entryEvents (fabric : BitVec 8) (old new : List ACLEntry) : List Event :=
  if old.map aclEntryStruct = new.map aclEntryStruct then []
  else
    let first := if ctx.listAppend ∧ old.length < new.length then old.length else 0
    let event change e := Event.entryChanged (aclAdminFromContext ctx) change (aclEntryStruct e) fabric
    (new.zipIdx.drop first).map (fun p => event (if old.length ≤ p.2 then .added else .changed) p.1) ++
      (old.drop new.length).reverse.map (event .removed)

/-- The event of an extension write. -/
def extensionEvents (fabric : BitVec 8) (old new : List AccessControlExtensionEntry) : List Event :=
  if old.map (fun e => (e.data, e.fabricIndex)) = new.map (fun e => (e.data, e.fabricIndex)) then []
  else if old.length < new.length then
    [.extensionChanged (aclAdminFromContext ctx) .added new.head? fabric]
  else if new.length < old.length then
    [.extensionChanged (aclAdminFromContext ctx) .removed old.head? fabric]
  else [.extensionChanged (aclAdminFromContext ctx) .changed new.head? fabric]

/-- A digit of a lower-case hexadecimal number. -/
def lowerHexDigit (d : Nat) : Char := Char.ofNat (if d < 10 then 0x30 + d else 0x57 + d)

/-- `hex.EncodeToString`. -/
def hexString (bs : List Byte) : String :=
  String.ofList (bs.flatMap fun b => [lowerHexDigit (b.toNat / 16), lowerHexDigit (b.toNat % 16)])

/-- A method that changes the cluster and may fail. -/
abbrev ClusterM := ExceptT WriteError (StateM AccessControl)

/-- A check. -/
def check {α : Type} (r : Except WriteError α) : ClusterM α := ExceptT.mk (pure r)

/-- `persistExtension`, on the store. -/
def persisted (s : Store) (fabric : BitVec 8) (entries : List AccessControlExtensionEntry) : Except String Store :=
  if !backend.persists then .ok s
  else if faults.sets then .error "set setting"
  else .ok (s.setSetting (aclExtensionSettingKey fabric) (hexString ((entries.head?.map (·.data)).getD [])))

def persistExtension (fabric : BitVec 8) (entries : List AccessControlExtensionEntry) : ClusterM Unit := do
  let a ← get
  match persisted backend faults a.store fabric entries with
  | .error e => throw (.store "core: AccessControl.Extension write: persist" e)
  | .ok store => set { a with store := store }

/-- `ReplaceACL` of the store. -/
def replaceACL (faults : Faults) (fabric : BitVec 8) (entries : List ACLEntry) : ClusterM Unit := do
  let a ← get
  match if faults.replaces then .error "replace acl" else a.store.replaceACL fabric entries with
  | .error e => throw (.store "core: AccessControl.ACL write" e)
  | .ok store => set { a with store := store }

/-- `a.extensions[fabric] = entries`, of entries that are those of the fabric. -/
def AccessControl.setExtensions (fabric : BitVec 8) (data : List (List Byte)) : AccessControl :=
  { a with
    extensions := fun f => if f = fabric then some (data.map fun d => { data := d, fabricIndex := fabric })
      else a.extensions f
    stamped := by
      intro f es hes e he
      by_cases hf : f = fabric
      · rw [if_pos hf] at hes
        cases hes
        obtain ⟨d, -, rfl⟩ := List.mem_map.1 he
        exact hf.symm
      · rw [if_neg hf] at hes
        exact a.stamped f es hes e he }

/-- The version goes up, and events are emitted if there is an emitter. -/
def AccessControl.report (events : List Event) : AccessControl :=
  { a with dataVersion := bump a.dataVersion, events := a.events ++ if a.emitter then events else [] }

/-- `MatterWrite` of ACL. -/
def writeACL (entries : List AccessControlEntryStruct) : ClusterM Unit := do
  let a ← get
  let fabric ← check (writeFabric a ctx "ACL" ((entries.head?.map (·.fabricIndex)).getD 0))
  check (checkACL a entries)
  let out := stampedEntries fabric entries
  -- a snapshot that cannot be read counts as an empty one
  let old := (listACL faults a fabric).getD []
  replaceACL faults fabric out
  modify fun a => a.report (entryEvents ctx fabric old out)

/-- `MatterWrite` of Extension. -/
def writeExtension (entries : List AccessControlExtensionEntry) : ClusterM Unit := do
  let a ← get
  let fabric ← check (writeFabric a ctx "Extension" 0)
  check (checkExtensions entries)
  let stamped := entries.map fun e => { data := e.data, fabricIndex := fabric : AccessControlExtensionEntry }
  persistExtension backend faults fabric stamped
  modify fun a =>
    (a.setExtensions fabric (entries.map (·.data))).report (extensionEvents ctx fabric (a.extensionsOf fabric) stamped)

/-- `MatterWrite`, of the two lists. -/
def matterWrite (attr : Attribute) (value : WriteValue) : ClusterM Unit :=
  let type := value.goType
  match attr, value with
  | .acl, .acl entries => writeACL faults ctx entries
  | .extension, .extension entries => writeExtension backend faults ctx entries
  | .acl, _ =>
    throw (.text s!"core: AccessControl.ACL write: value type {type} not []AccessControlEntryStruct")
  | .extension, _ =>
    throw (.text s!"core: AccessControl.Extension write: value type {type} not []AccessControlExtensionEntry")

/-- The cluster after a write. -/
def afterWrite (attr : Attribute) (value : WriteValue)
    (a : AccessControl) : AccessControl := ((matterWrite backend faults ctx attr value).run.run a).2

end GF.Impl.Core
