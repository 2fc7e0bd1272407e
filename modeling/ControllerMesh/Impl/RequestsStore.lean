import ControllerMesh.Impl.InternalSpec
import ControllerMesh.Framework.JsonCodec

/-!
# The history of requests

`proxy/protomanager/requests_store.go`: what the proxy has passed and denied,
merged over all requests under the string of their group-resource, and its
JSON text.
-/

namespace CtrlMesh

open Framework

/-- `ResourceRequest`: what one request reports. -/
structure ResourceRequest where
  gr : GroupResource
  objectSelector : Option LabelSelector := none
  namespacePassed : StringSet := ∅
  namespaceDenied : StringSet := ∅
  userAgentPassed : Option String := none
  userAgentDenied : Option String := none
  deriving DecidableEq

/-- `requestsPack`. -/
structure RequestsPack where
  requestsByGR : StringMap ResourceRequest
  userAgentPassed : StringSet
  userAgentDenied : StringSet
  deriving DecidableEq

namespace RequestsPack

/-- `newRequestsStore`. -/
def empty : RequestsPack := ⟨∅, ∅, ∅⟩

/-! ## Adding a record -/

/-- The user agent of a record, added if it is new, and whether it was. -/
def addUserAgent (pack : RequestsPack) (req : ResourceRequest) : RequestsPack × Bool :=
  match req.userAgentPassed, req.userAgentDenied with
  | some userAgent, _ =>
    if pack.userAgentPassed.contains userAgent then (pack, false)
    else ({ pack with userAgentPassed := pack.userAgentPassed.insert userAgent }, true)
  | none, some userAgent =>
    if pack.userAgentDenied.contains userAgent then (pack, false)
    else ({ pack with userAgentDenied := pack.userAgentDenied.insert userAgent }, true)
  | none, none => (pack, false)

/-- A namespace set with the members of `additional` that it lacks, and whether
there were any. -/
def addNamespaces (recorded additional : StringSet) : StringSet × Bool :=
  let diff := additional \ recorded
  if 0 < diff.size then (recorded ∪ diff, true) else (recorded, false)

/-- A record merged into the one its group-resource has already: the object
selector is replaced if it differs, the namespaces are added. -/
def mergeRequest (reqByGR req : ResourceRequest) : ResourceRequest × Bool :=
  let selectorChanged := decide (reqByGR.objectSelector ≠ req.objectSelector)
  let (passed, passedChanged) := addNamespaces reqByGR.namespacePassed req.namespacePassed
  let (denied, deniedChanged) := addNamespaces reqByGR.namespaceDenied req.namespaceDenied
  ({ reqByGR with
      objectSelector := req.objectSelector
      namespacePassed := passed
      namespaceDenied := denied },
    selectorChanged || passedChanged || deniedChanged)

/-- Whether a record says anything about its group-resource. -/
def records (req : ResourceRequest) : Bool :=
  req.objectSelector.isSome || decide (0 < req.namespacePassed.size) ||
    decide (0 < req.namespaceDenied.size)

/-- The record of a group-resource, added or merged, and whether that changed
anything. -/
def addRequest (pack : RequestsPack) (req : ResourceRequest) : RequestsPack × Bool :=
  if records req then
    match pack.requestsByGR[req.gr.toStr]? with
    | none => ({ pack with requestsByGR := pack.requestsByGR.insert req.gr.toStr req }, true)
    | some reqByGR =>
      let (merged, changed) := mergeRequest reqByGR req
      ({ pack with requestsByGR := pack.requestsByGR.insert req.gr.toStr merged }, changed)
  else (pack, false)

/-- `requestsStore.add`: the pack after a record, and `changed`, in which case
it is written to storage. -/
def add (pack : RequestsPack) : Option ResourceRequest → RequestsPack × Bool
  | none => (pack, false)
  | some req =>
    let (pack, userAgentChanged) := pack.addUserAgent req
    let (pack, requestChanged) := pack.addRequest req
    (pack, userAgentChanged || requestChanged)

/-! ## Visiting the records -/

/-- One loop of `rangeRequests`: `fn` returns an error to stop the loop, and the
error replaces the one before. -/
def rangeLoop (fn : ResourceRequest → Option String) :
    List ResourceRequest → Option String → Option String
  | [], err => err
  | req :: reqs, err =>
    match fn req with
    | none => rangeLoop fn reqs err
    | some e => some e

/-- `rangeRequests`: three loops, each of which stops at its first error, after
which the next one runs all the same. -/
def rangeRequests (order : RangeOrder) (pack : RequestsPack) (fn : ResourceRequest → Option String) :
    Option String :=
  let err := rangeLoop fn
    ((order.members pack.userAgentPassed).map fun userAgent =>
      { gr := ⟨"", ""⟩, userAgentPassed := some userAgent }) none
  let err := rangeLoop fn
    ((order.members pack.userAgentDenied).map fun userAgent =>
      { gr := ⟨"", ""⟩, userAgentDenied := some userAgent }) err
  rangeLoop fn (order.values pack.requestsByGR) err

end RequestsPack

/-! ## The JSON text of the history -/

namespace LabelSelectorOperator

def text : LabelSelectorOperator → String
  | opIn => "In"
  | opNotIn => "NotIn"
  | opExists => "Exists"
  | opDoesNotExist => "DoesNotExist"
  | other text _ => text

def ofText (text : String) : LabelSelectorOperator :=
  if h₁ : text = "In" then opIn
  else if h₂ : text = "NotIn" then opNotIn
  else if h₃ : text = "Exists" then opExists
  else if h₄ : text = "DoesNotExist" then opDoesNotExist
  else other text (by simp [h₁, h₂, h₃, h₄])

theorem ofText_text (op : LabelSelectorOperator) : ofText op.text = op := by
  cases op with
  | other text h =>
    simp only [List.mem_cons, List.not_mem_nil, or_false, not_or] at h
    simp [LabelSelectorOperator.text, ofText, h]
  | _ => rfl

end LabelSelectorOperator

def LabelSelectorRequirement.jsonFields (r : LabelSelectorRequirement) :
    List (String × Option Json) :=
  [("key", some (JsonCodec.string.toJson r.key)),
    ("operator", some (JsonCodec.string.toJson r.operator.text)),
    ("values", (omitEmpty List.isEmpty r.values).map JsonCodec.string.list.toJson)]

def LabelSelectorRequirement.jsonCodec : JsonCodec LabelSelectorRequirement where
  toJson r := .obj (Json.record r.jsonFields)
  ofJson
    | .obj kvs => do
      let key ← Json.member JsonCodec.string kvs "key"
      let operator ← Json.member JsonCodec.string kvs "operator"
      let values ← Json.member JsonCodec.string.list kvs "values"
      some ⟨key.getD "", .ofText (operator.getD ""), values⟩
    | _ => none
  norm r := { r with values := (omitEmpty List.isEmpty r.values).map JsonCodec.string.list.norm }
  ofJson_toJson r := by
    have hn : (r.jsonFields.map Prod.fst).Nodup := by simp [jsonFields]
    simp only [Json.member_record .string "key" (some r.key) hn rfl,
      Json.member_record .string "operator" (some r.operator.text) hn rfl,
      Json.member_record JsonCodec.string.list "values" (omitEmpty List.isEmpty r.values) hn rfl,
      Option.bind_eq_bind, Option.bind_some, Option.map_some, Option.getD_some]
    simp only [JsonCodec.string, id, LabelSelectorOperator.ofText_text]

def LabelSelector.jsonFields (sel : LabelSelector) : List (String × Option Json) :=
  [("matchLabels", (omitEmpty (·.isEmpty) sel.matchLabels).map JsonCodec.string.map.toJson),
    ("matchExpressions", (omitEmpty List.isEmpty sel.matchExpressions).map
      LabelSelectorRequirement.jsonCodec.list.toJson)]

def LabelSelector.jsonCodec : JsonCodec LabelSelector where
  toJson sel := .obj (Json.record sel.jsonFields)
  ofJson
    | .obj kvs => do
      let matchLabels ← Json.member JsonCodec.string.map kvs "matchLabels"
      let matchExpressions ←
        Json.member LabelSelectorRequirement.jsonCodec.list kvs "matchExpressions"
      some ⟨matchLabels, matchExpressions⟩
    | _ => none
  norm sel :=
    { matchLabels := (omitEmpty (·.isEmpty) sel.matchLabels).map JsonCodec.string.map.norm
      matchExpressions := (omitEmpty List.isEmpty sel.matchExpressions).map
        LabelSelectorRequirement.jsonCodec.list.norm }
  ofJson_toJson sel := by
    have hn : (sel.jsonFields.map Prod.fst).Nodup := by simp [jsonFields]
    simp only [
      Json.member_record JsonCodec.string.map "matchLabels"
        (omitEmpty (·.isEmpty) sel.matchLabels) hn rfl,
      Json.member_record LabelSelectorRequirement.jsonCodec.list "matchExpressions"
        (omitEmpty List.isEmpty sel.matchExpressions) hn rfl,
      Option.bind_eq_bind, Option.bind_some]

/-- `json.Unmarshal` into a new `LabelSelector`, for text that is one. -/
def LabelSelector.ofJSON (text : String) : LabelSelector :=
  ((Json.parse text.toList).bind LabelSelector.jsonCodec.ofJson).getD ⟨none, none⟩

/-- `util.DumpJSON` of a label selector. -/
def LabelSelector.dumpJSON : Option LabelSelector → String
  | none => "null"
  | some sel => String.ofList (LabelSelector.jsonCodec.toJson sel).render

def GroupResource.jsonFields (gr : GroupResource) : List (String × Option Json) :=
  [("Group", some (JsonCodec.string.toJson gr.group)),
    ("Resource", some (JsonCodec.string.toJson gr.resource))]

def GroupResource.jsonCodec : JsonCodec GroupResource where
  toJson gr := .obj (Json.record gr.jsonFields)
  ofJson
    | .obj kvs => do
      let group ← Json.member JsonCodec.string kvs "Group"
      let resource ← Json.member JsonCodec.string kvs "Resource"
      some ⟨group.getD "", resource.getD ""⟩
    | _ => none
  norm := id
  ofJson_toJson gr := by
    have hn : (gr.jsonFields.map Prod.fst).Nodup := by simp [jsonFields]
    simp only [Json.member_record .string "Group" (some gr.group) hn rfl,
      Json.member_record .string "Resource" (some gr.resource) hn rfl,
      Option.bind_eq_bind, Option.bind_some, Option.map_some, Option.getD_some]
    rfl

def ResourceRequest.jsonFields (req : ResourceRequest) : List (String × Option Json) :=
  [("GR", some (GroupResource.jsonCodec.toJson req.gr)),
    ("objectSelector", req.objectSelector.map LabelSelector.jsonCodec.toJson),
    ("namespacePassed",
      (omitEmpty (·.isEmpty) (some req.namespacePassed)).map JsonCodec.set.toJson),
    ("namespaceDenied",
      (omitEmpty (·.isEmpty) (some req.namespaceDenied)).map JsonCodec.set.toJson),
    ("userAgentPassed", req.userAgentPassed.map JsonCodec.string.toJson),
    ("userAgentDenied", req.userAgentDenied.map JsonCodec.string.toJson)]

def ResourceRequest.jsonCodec : JsonCodec ResourceRequest where
  toJson req := .obj (Json.record req.jsonFields)
  ofJson
    | .obj kvs => do
      let gr ← Json.member GroupResource.jsonCodec kvs "GR"
      let objectSelector ← Json.member LabelSelector.jsonCodec kvs "objectSelector"
      let namespacePassed ← Json.member JsonCodec.set kvs "namespacePassed"
      let namespaceDenied ← Json.member JsonCodec.set kvs "namespaceDenied"
      let userAgentPassed ← Json.member JsonCodec.string kvs "userAgentPassed"
      let userAgentDenied ← Json.member JsonCodec.string kvs "userAgentDenied"
      some ⟨gr.getD ⟨"", ""⟩, objectSelector, namespacePassed.getD ∅, namespaceDenied.getD ∅,
        userAgentPassed, userAgentDenied⟩
    | _ => none
  norm req := { req with objectSelector := req.objectSelector.map LabelSelector.jsonCodec.norm }
  ofJson_toJson req := by
    have hn : (req.jsonFields.map Prod.fst).Nodup := by simp [jsonFields]
    simp only [Json.member_record GroupResource.jsonCodec "GR" (some req.gr) hn rfl,
      Json.member_record LabelSelector.jsonCodec "objectSelector" req.objectSelector hn rfl,
      Json.member_record .set "namespacePassed"
        (omitEmpty (·.isEmpty) (some req.namespacePassed)) hn rfl,
      Json.member_record .set "namespaceDenied"
        (omitEmpty (·.isEmpty) (some req.namespaceDenied)) hn rfl,
      Json.member_record .string "userAgentPassed" req.userAgentPassed hn rfl,
      Json.member_record .string "userAgentDenied" req.userAgentDenied hn rfl,
      Option.bind_eq_bind, Option.bind_some, Option.map_some, Option.getD_some, omitEmpty_set_getD]
    simp [JsonCodec.string, GroupResource.jsonCodec]

def RequestsPack.jsonFields (pack : RequestsPack) : List (String × Option Json) :=
  [("requestsByGR", (omitEmpty (·.isEmpty) (some pack.requestsByGR)).map
      ResourceRequest.jsonCodec.map.toJson),
    ("userAgentPassed",
      (omitEmpty (·.isEmpty) (some pack.userAgentPassed)).map JsonCodec.set.toJson),
    ("userAgentDenied",
      (omitEmpty (·.isEmpty) (some pack.userAgentDenied)).map JsonCodec.set.toJson)]

def RequestsPack.jsonCodec : JsonCodec RequestsPack where
  toJson pack := .obj (Json.record pack.jsonFields)
  ofJson
    | .obj kvs => do
      let requestsByGR ← Json.member ResourceRequest.jsonCodec.map kvs "requestsByGR"
      let userAgentPassed ← Json.member JsonCodec.set kvs "userAgentPassed"
      let userAgentDenied ← Json.member JsonCodec.set kvs "userAgentDenied"
      some ⟨requestsByGR.getD ∅, userAgentPassed.getD ∅, userAgentDenied.getD ∅⟩
    | _ => none
  norm pack :=
    { pack with requestsByGR := pack.requestsByGR.map fun _ req => ResourceRequest.jsonCodec.norm req }
  ofJson_toJson pack := by
    have hn : (pack.jsonFields.map Prod.fst).Nodup := by simp [jsonFields]
    simp only [Json.member_record ResourceRequest.jsonCodec.map "requestsByGR"
        (omitEmpty (·.isEmpty) (some pack.requestsByGR)) hn rfl,
      Json.member_record .set "userAgentPassed"
        (omitEmpty (·.isEmpty) (some pack.userAgentPassed)) hn rfl,
      Json.member_record .set "userAgentDenied"
        (omitEmpty (·.isEmpty) (some pack.userAgentDenied)) hn rfl,
      Option.bind_eq_bind, Option.bind_some, omitEmpty_set_getD, omitEmpty_map_getD]
    rfl

namespace RequestsPack

/-- `requestsStore.marshal`. -/
def marshal (pack : RequestsPack) : List Char := (jsonCodec.toJson pack).render

/-- `requestsStore.unmarshal`, into a new store: nothing is filled in on an
error, since the text is checked first. -/
def unmarshal (data : List Char) : Option RequestsPack :=
  (Json.parse data).bind jsonCodec.ofJson

end RequestsPack

end CtrlMesh
