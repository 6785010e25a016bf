import GoFabric.Framework.System
import GoFabric.Impl.Core.AccessControl

/-!
# Fabrics do not see each other, an audit sees what they write

What a fabric may know of the access control of a node: its own entries, which
fabrics there are, and how many entries each of them has (`Indistinguishable`). What
is a fabric's own, and stays as it is when another one writes (`Unchanged`). What the
events of a write tell (`Replays`).
-/

namespace GF.Spec.Isolation

open GF.Impl.Core

/-- The two states differ in nothing that `g` may know. -/
structure Indistinguishable (g : BitVec 8) (a a' : AccessControl) : Prop where
  fabrics : a.store.fabrics = a'.store.fabrics
  entries : (a.store.acl g).map aclEntryStruct = (a'.store.acl g).map aclEntryStruct
  extensions : a.extensionsOf g = a'.extensionsOf g
  entry_count : ∀ f ≠ g, (a.store.acl f).length = (a'.store.acl f).length
  extension_count : ∀ f ≠ g, (a.extensionsOf f).length = (a'.extensionsOf f).length

/-- The entries and the extensions of `f` are the same, and so are the extensions
that a restart would find. -/
structure Unchanged (f : BitVec 8) (a a' : AccessControl) : Prop where
  entries : a'.store.acl f = a.store.acl f
  extensions : a'.extensionsOf f = a.extensionsOf f
  persisted : a'.store.settings (aclExtensionSettingKey f) = a.store.settings (aclExtensionSettingKey f)

/-! ## The events of a write -/

/-- The list, with the position that the next change overwrites. -/
def audit : System (Nat × List AccessControlEntryStruct) Event where
  step
    | (i, l), .entryChanged _ .added latest _ => some (i, l ++ [latest])
    | (i, l), .entryChanged _ .changed latest _ => if i < l.length then some (i + 1, l.set i latest) else none
    | (i, l), .entryChanged _ .removed latest _ => if l.getLast? = some latest then some (i, l.dropLast) else none
    | _, .extensionChanged .. => none

/-- The entries of a fabric, as they are read. -/
def listed (a : AccessControl) (f : BitVec 8) : List AccessControlEntryStruct :=
  (a.store.acl f).map aclEntryStruct

/-- What a write emitted takes the list it found to the one it left, and is nothing iff the
two have equal entries. -/
def Replays (f : BitVec 8) (a a' : AccessControl) : Prop :=
  ∃ events i, a'.events = a.events ++ events ∧ audit.run (0, listed a f) events = some (i, listed a' f) ∧
    (events = [] ↔ listed a f = listed a' f)

end GF.Spec.Isolation
