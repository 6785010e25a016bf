import GoFabric.Impl.Endpoint.Acl
import Mathlib.Algebra.Ring.Nat

/-!
# The access decision

What a single access control entry grants to a requester at a location, in
numbers: a CAT subject is one whose upper half is `0xFFFFFFFD`; the lower
half of it, like a CAT, is an identifier and a version of 16 bits each.
-/

namespace GF.Spec.Access

open GF.Impl.Endpoints

variable {r r' : Requester} {l : Location}

def IsCatSubject (s : BitVec 64) : Prop := s.toNat / 2 ^ 32 = 0xFFFFFFFD

def catIdentifier (cat : Nat) : Nat := cat / 2 ^ 16 % 2 ^ 16

def catVersionNumber (cat : Nat) : Nat := cat % 2 ^ 16

/-- Who asks: a node id, and the CATs of its certificate. -/
structure Requester where
  nodeID : BitVec 64
  cats : List (BitVec 32)

/-- A CAT of the requester answers to the CAT subject `s`: the same
identifier, and a version that is present and not older. -/
def AnswersCat (r : Requester) (s : BitVec 64) : Prop :=
  ∃ c ∈ r.cats, c ≠ 0 ∧ catIdentifier c.toNat = catIdentifier s.toNat ∧ 0 < catVersionNumber c.toNat ∧
    catVersionNumber s.toNat ≤ catVersionNumber c.toNat

/-- The subjects cover the requester: there are none, or one is its node id,
or one is a CAT subject it answers to. -/
def CoversSubject (r : Requester) (subjects : List (BitVec 64)) : Prop :=
  subjects = [] ∨ (r.nodeID ≠ 0 ∧ r.nodeID ∈ subjects) ∨ ∃ s ∈ subjects, IsCatSubject s ∧ AnswersCat r s

/-- Where the access goes; `hosts` are the device types there. -/
structure Location where
  hosts : BitVec 32 → Prop
  endpoint : BitVec 16
  cluster : BitVec 32

/-- Every field the target has is the location's. -/
def MatchesTarget (l : Location) (t : ACLTarget) : Prop :=
  (∀ c, t.cluster = some c → c = l.cluster) ∧ (∀ e, t.endpoint = some e → e = l.endpoint) ∧
    (∀ d, t.deviceType = some d → l.hosts d)

def CoversTarget (l : Location) (targets : List ACLTarget) : Prop :=
  targets = [] ∨ ∃ t ∈ targets, MatchesTarget l t

/-- A privilege grants what those with smaller numbers do, and `view` what
`proxyView` does. -/
def rank (p : Privilege) : Nat := max 2 p.toNat

/-- The entry grants the required privilege. -/
structure Grants (r : Requester) (l : Location) (required : Privilege) (e : ACLEntry) : Prop where
  auth : e.authMode = AuthMode.case
  subject : CoversSubject r e.subjects
  target : CoversTarget l e.targets
  rank : rank required ≤ rank e.privilege

/-- The same entry, up to order and repetition of its subjects and
targets. -/
structure SameEntry (e e' : ACLEntry) : Prop where
  privilege : e.privilege = e'.privilege
  auth : e.authMode = e'.authMode
  subjects : ∀ s, s ∈ e.subjects ↔ s ∈ e'.subjects
  targets : ∀ t, t ∈ e.targets ↔ t ∈ e'.targets

theorem CoversSubject.congr {ss ss' : List (BitVec 64)} (hn : r.nodeID = r'.nodeID)
    (hc : ∀ c, c ∈ r.cats ↔ c ∈ r'.cats) (hs : ∀ s, s ∈ ss ↔ s ∈ ss') :
    CoversSubject r ss ↔ CoversSubject r' ss' := by
  simp only [CoversSubject, AnswersCat, List.eq_nil_iff_forall_not_mem, hn, hc, hs]

theorem CoversTarget.congr {ts ts' : List ACLTarget} (ht : ∀ t, t ∈ ts ↔ t ∈ ts') :
    CoversTarget l ts ↔ CoversTarget l ts' := by
  simp only [CoversTarget, List.eq_nil_iff_forall_not_mem, ht]

theorem Grants.congr {required : Privilege} {e e' : ACLEntry} (hn : r.nodeID = r'.nodeID)
    (hc : ∀ c, c ∈ r.cats ↔ c ∈ r'.cats) (he : SameEntry e e') (h : Grants r l required e) :
    Grants r' l required e' where
  auth := he.auth ▸ h.auth
  subject := (CoversSubject.congr hn hc he.subjects).1 h.subject
  target := (CoversTarget.congr he.targets).1 h.target
  rank := he.privilege ▸ h.rank

theorem SameEntry.symm {e e' : ACLEntry} (h : SameEntry e e') : SameEntry e' e :=
  ⟨h.privilege.symm, h.auth.symm, fun s => (h.subjects s).symm, fun t => (h.targets t).symm⟩

end GF.Spec.Access
