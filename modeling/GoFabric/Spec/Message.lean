import GoFabric.Impl.Message
import Mathlib.Tactic.MkIffOfInductiveProp

/-!
# The wire form of a message header

A header on the wire is two flag bytes with the session and the counter, and
the fields that the flags announce. The flag bytes have reserved bits that no
field keeps, so one header has several wire forms (`Header.wire`), of which
`Marshal` writes the one whose reserved bits are zero.
-/

namespace GF.Spec.Message

open GF.Impl.Message

/-- The source node id, when it is announced. -/
def sourceBytes (h : Header) : List Byte := if h.hasSourceNodeID then leBytes 8 h.sourceNodeID.toNat else []

/-- The destination, of the announced size. -/
def destBytes (h : Header) : List Byte :=
  if h.destSize = .nodeID then leBytes 8 h.destNodeID.toNat
  else if h.destSize = .group then leBytes 2 h.destGroupID.toNat
  else []

/-- An extension block with its length. -/
def extensionBytes (present : Bool) (ext : List Byte) : List Byte :=
  if present then leBytes 2 ext.length ++ ext else []

/-- The fields that the flags announce. -/
def announcedBytes (h : Header) : List Byte :=
  sourceBytes h ++ (destBytes h ++ extensionBytes h.hasExtension h.messageExtension)

/-- The first eight bytes. -/
def fixedBytes (flags secFlags : Byte) (h : Header) : List Byte :=
  [flags] ++ leBytes 2 h.sessionID.toNat ++ [secFlags] ++ leBytes 4 h.messageCounter.toNat

/-- The wire form of `h` with these flag bytes. -/
def wire (flags secFlags : Byte) (h : Header) : List Byte := fixedBytes flags secFlags h ++ announcedBytes h

/-- The flag bytes announce the fields of `h`; nothing is said of their
reserved bits. -/
structure Announces (flags secFlags : Byte) (h : Header) : Prop where
  version : flags &&& msgFlagVersionMask = msgFlagVersion0
  source : h.hasSourceNodeID = (flags &&& msgFlagSourcePres != 0)
  dest : h.destSize = flags &&& msgFlagDSizMask
  session : h.sessionType = secFlags &&& secFlagSessionTypeMask
  privacy : h.privacy = (secFlags &&& secFlagPrivacy != 0)
  control : h.control = (secFlags &&& secFlagControl != 0)
  extension : h.hasExtension = (secFlags &&& secFlagExtensions != 0)

/-- The rules that `UnmarshalHeader` enforces: which session types and
destination sizes there are, and which node ids go with them. -/
@[mk_iff]
structure Rules (h : Header) : Prop where
  sessionType : h.sessionType = .unsecured ∨ h.sessionType = .group
  destSize : h.destSize = .none ∨ h.destSize = .nodeID ∨ h.destSize = .group
  control : h.control = false
  unicast : h.sessionType = .unsecured → h.destSize ≠ .group
  unsecured : h.sessionType = .unsecured → h.sessionID = 0 →
    h.hasSourceNodeID ≠ decide (h.destSize = .nodeID)
  group : h.sessionType = .group → h.destSize = .group ∧ h.hasSourceNodeID = true

/-- What is not announced is zero, and what is announced fits its length
field. -/
@[mk_iff]
structure Clean (h : Header) : Prop where
  source : h.hasSourceNodeID = false → h.sourceNodeID = 0
  destNode : h.destSize ≠ .nodeID → h.destNodeID = 0
  destGroup : h.destSize ≠ .group → h.destGroupID = 0
  noExtension : h.hasExtension = false → h.messageExtension = []
  extension : h.messageExtension.length < 65536

instance (h : Header) : Decidable (Rules h) := decidable_of_iff' _ (rules_iff h)

instance (h : Header) : Decidable (Clean h) := decidable_of_iff' _ (clean_iff h)

/-- The same of a protocol header. -/
structure ProtocolClean (h : ProtocolHeader) : Prop where
  vendor : h.hasVendorID = false → h.vendorID = 0
  ack : h.hasAck = false → h.ackCounter = 0
  noExtension : h.hasSecuredExt = false → h.securedExtension = []
  extension : h.securedExtension.length < 65536

end GF.Spec.Message
