import GoFabric.Impl.Im.Marshal
import GoFabric.Impl.Tlv.Raw

/-!
# Report chunks (`bridge/reply.go`)

`defaultAttributeValueWriter` switches on the Go type of a value. `GoValue`
tells apart the types that the chunking code looks for; the writer's other arms
are a parameter. A panic of the encoder is `none`.
-/

namespace GF.Impl.Bridge

open GF.Impl.Tlv GF.Impl.Im.Wire
open GF.Impl.Im (StatusCode StatusIB AttributeValue)

/-- A Go value of a report. -/
inductive GoValue (O : Type)
  | rawListValue (members : List (List Byte))
  | rawListMember (member : List Byte)
  | string (s : List Byte)
  | bytes (b : List Byte)
  | other (v : O)

/-- `ErrReplyEncode`, with what was encoded. -/
inductive ReplyError
  | encode (what : String) (e : TlvError)

/-- A result, or an error, or a panic. -/
abbrev Outcome := ExceptT ReplyError Option

section

variable {O : Type} (writeOther : Encoder → Tag → O → Option Encoder) (rd : ReportData (GoValue O))

variable (rep : AttributeReport (GoValue O))

/-- `defaultAttributeValueWriter`; the errors of `PutRawElement` are dropped. -/
def defaultAttributeValueWriter : AttributeValueWriter (GoValue O) := fun enc tag v =>
  if v.isNull then enc.putNull tag
  else
    match v.value with
    | none => enc.putNull tag
    | some (.rawListValue members) => do
      let enc ← enc.startArray tag
      let enc ← members.foldlM (fun enc m => (enc.putRawElement anonymousTag m).map Prod.snd) enc
      pure enc.endContainer.2
    | some (.rawListMember m) => (enc.putRawElement tag m).map Prod.snd
    | some (.string s) => enc.putUTF8 tag s
    | some (.bytes b) => enc.putOctets tag b
    | some (.other x) => writeOther enc tag x

def encodeReportData : Outcome (List Byte) :=
  (rd.marshalTLV (defaultAttributeValueWriter writeOther) Encoder.new).map fun enc =>
    enc.bytes.mapError (.encode "report data")

/-- The report with the subscription of `rd` and nothing else. -/
def emptyChunk : ReportData (GoValue O) :=
  { hasSubscription := rd.hasSubscription, subscriptionID := rd.subscriptionID }

def attributeStatus (status : StatusCode) : AttributeReport (GoValue O) :=
  { path := { rep.path with listAppend := false, hasListIndex := false, listIndex := 0 }
    isStatus := true
    status := StatusIB.of status }

def capOversizedAttributeReport (hardCap : Nat) : Outcome (AttributeReport (GoValue O)) :=
  if rep.isStatus then pure rep
  else do
    let aloneBody ← encodeReportData writeOther { emptyChunk rd with reports := [rep] }
    if aloneBody.length ≤ hardCap then pure rep else pure (attributeStatus rep StatusCode.resourceExhausted)

def capOversizedEventReport (ev : EventReport (GoValue O)) (hardCap : Nat) : Outcome (EventReport (GoValue O)) :=
  if ev.isStatus then pure ev
  else do
    let aloneBody ← encodeReportData writeOther { emptyChunk rd with eventReports := [ev] }
    if aloneBody.length ≤ hardCap then pure ev
    else pure { path := ev.path, isStatus := true, status := StatusIB.of StatusCode.resourceExhausted }

def anyPartOversized (rd : ReportData (GoValue O)) (hardCap : Nat) : List (AttributeReport (GoValue O)) → Outcome Bool
  | [] => pure false
  | part :: parts => do
    let capped ← capOversizedAttributeReport writeOther rd part hardCap
    if capped.isStatus then pure true else anyPartOversized rd hardCap parts

/-! ## Splitting a list -/

/-- The `size` of `splitListAttributeReport`: of a report alone, and more than
the budget when it cannot be encoded. -/
def sizeAlone (budget : Nat) (rep : AttributeReport (GoValue O)) : Option Nat :=
  (encodeReportData writeOther { emptyChunk rd with reports := [rep] }).run.map fun
    | .ok body => body.length
    | .error _ => budget + 1

/-- The loop of `splitListAttributeReport`: how many of the members the first
report takes, `n` of them so far. -/
def headMembers (size : AttributeReport (GoValue O) → Option Nat) (budget : Nat) (rep : AttributeReport (GoValue O))
    (members : List (List Byte)) : Nat → Nat → Option Nat
  | 0, n => some n
  | fuel + 1, n =>
    if n < members.length then do
      let s ← size { rep with value := { value := some (.rawListValue (members.take (n + 1))) } }
      if budget < s then some n else headMembers size budget rep members fuel (n + 1)
    else some n

/-- The reports of a split list: the first with `n` members, then one for each
of the others. -/
def listParts (members : List (List Byte)) (n : Nat) : List (AttributeReport (GoValue O)) :=
  { rep with value := { value := some (.rawListValue (members.take n)) } } ::
    (members.drop n).map fun m =>
      { rep with path := { rep.path with listAppend := true }, value := { value := some (.rawListMember m) } }

/-- The values that `splitListAttributeReport` looks into. -/
def splittable : Bool :=
  !rep.isStatus && !rep.path.listAppend && !rep.path.hasListIndex && !rep.value.isNull &&
    match rep.value.value with
    | some (.other _) => true
    | _ => false

/-- The encoding of a value by itself, of `splitListAttributeReport`. -/
def encodedValue (v : AttributeValue (GoValue O)) : Option (Except TlvError (List Byte)) :=
  (defaultAttributeValueWriter writeOther Encoder.new anonymousTag v).map Encoder.bytes

/-- `splitListAttributeReport`; `none` inside is a report that is not split. -/
def splitListAttributeReport (budget : Nat) : Option (Option (List (AttributeReport (GoValue O)))) :=
  if splittable rep then do
    let s ← sizeAlone writeOther rd budget rep
    if s ≤ budget then pure none
    else do
      let encoded ← encodedValue writeOther rep.value
      match encoded with
      | .error _ => pure none
      | .ok bs =>
        match splitArrayMembers bs with
        | .error _ | .ok [] => pure none
        | .ok members => do
          let n ← headMembers (sizeAlone writeOther rd budget) budget rep members members.length 1
          pure (some (listParts rep members n))
  else pure none

/-! ## Filling chunks -/

/-- The chunks that are closed, and the one that is being filled. -/
structure Filling (O : Type) where
  chunks : List (ReportData (GoValue O))
  current : ReportData (GoValue O)

/-- A report has an entry. -/
def hasEntries : Bool := !rd.reports.isEmpty || !rd.eventReports.isEmpty

/-- The common end of `addAttributeReport` and `addEventReport`: the chunk with
the entry, or a new chunk with it alone. -/
def place (budget : Nat) (s : Filling O) (candidate alone : ReportData (GoValue O)) : Outcome (Filling O) := do
  let body ← encodeReportData writeOther candidate
  if budget < body.length ∧ hasEntries s.current then pure { chunks := s.chunks ++ [s.current], current := alone }
  else pure { s with current := candidate }

/-- `addAttributeReport`, after a list was split. -/
def addWhole (budget hardCap : Nat) (s : Filling O) (rep : AttributeReport (GoValue O)) : Outcome (Filling O) := do
  let rep ← capOversizedAttributeReport writeOther rd rep hardCap
  place writeOther budget s { s.current with reports := s.current.reports ++ [rep] }
    { emptyChunk rd with reports := [rep] }

/-- `addAttributeReport`, with at most `depth` calls of itself inside each
other. -/
def addAttributeReport (rd : ReportData (GoValue O)) (budget hardCap : Nat) :
    Nat → Filling O → AttributeReport (GoValue O) → Outcome (Filling O)
  | 0, s, rep => addWhole writeOther rd budget hardCap s rep
  | depth + 1, s, rep => do
    match ← ExceptT.lift (splitListAttributeReport writeOther rd rep budget) with
    | some parts =>
      if ← anyPartOversized writeOther rd hardCap parts then
        addAttributeReport rd budget hardCap depth s (attributeStatus rep StatusCode.resourceExhausted)
      else parts.foldlM (addAttributeReport rd budget hardCap depth) s
    | none => addWhole writeOther rd budget hardCap s rep

def addEventReport (budget hardCap : Nat) (s : Filling O) (ev : EventReport (GoValue O)) : Outcome (Filling O) := do
  let ev ← capOversizedEventReport writeOther rd ev hardCap
  place writeOther budget s { s.current with eventReports := s.current.eventReports ++ [ev] }
    { emptyChunk rd with eventReports := [ev] }

/-- The flags of the finished chunks: all but the last say that more follow,
and the last suppresses the response when `suppress` is set. -/
def setFlags (suppress : Bool) : List (ReportData (GoValue O)) → List (ReportData (GoValue O))
  | [] => []
  | [c] => [if suppress then { c with suppressResponse := true } else c]
  | c :: c' :: cs => { c with moreChunkedMessages := true } :: setFlags suppress (c' :: cs)

/-- The chunks of a filling that is done; an empty report is one chunk. -/
def finished (s : Filling O) : List (ReportData (GoValue O)) :=
  let chunks := if hasEntries s.current then s.chunks ++ [s.current] else s.chunks
  if chunks.isEmpty then [rd] else chunks

/-- `chunkReportData`. A part of a list is not split again, so one call of
`addAttributeReport` inside another is all there is
(`addAttributeReport_depth`). -/
def chunkReportData (budget hardCap : Nat) : Outcome (List (ReportData (GoValue O))) := do
  let probe ← encodeReportData writeOther rd
  if probe.length ≤ budget then pure [rd]
  else do
    let s ← rd.reports.foldlM (addAttributeReport writeOther rd budget hardCap 1)
      { chunks := [], current := emptyChunk rd }
    let s ← rd.eventReports.foldlM (addEventReport writeOther rd budget hardCap) s
    pure (setFlags rd.suppressResponse (finished rd s))

end

end GF.Impl.Bridge
