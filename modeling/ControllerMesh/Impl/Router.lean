import ControllerMesh.Impl.SpecManager

/-!
# Requests of the managed program

`proxy/apiserver/router/router.go`: what happens to a request of the program
to the API server (`route`), to a list it gets back (`filterItems`) and to an
event of a watch (`filterEvent`). Each takes the current spec, decides with it
and releases it with a record of what it decided.

What the discovery client answers and whether a selector can be injected into
the query of a request are parameters of `route`. Of an object only its
namespace is read; the rest of it is `body`.
-/

namespace CtrlMesh

open Framework

structure GroupVersionResource where
  group : String
  version : String
  resource : String
  deriving DecidableEq, Repr

namespace GroupVersionResource

def groupResource (gvr : GroupVersionResource) : GroupResource := ⟨gvr.group, gvr.resource⟩

def toStr (gvr : GroupVersionResource) : String :=
  gvr.group ++ "/" ++ gvr.version ++ ", Resource=" ++ gvr.resource

end GroupVersionResource

/-- The part of `request.RequestInfo` that the router reads. -/
structure RequestInfo where
  isResourceRequest : Bool
  verb : String
  apiGroup : String
  apiVersion : String
  resource : String
  namespaceName : String
  deriving DecidableEq, Repr

/-- What `DiscoverGVR` answers. -/
inductive Discovery where
  | found
  | notFound
  | failed (err : String)
  deriving DecidableEq, Repr

/-- `config`: what a response handler keeps of its request. -/
structure HandlerConfig where
  groupResource : GroupResource
  userAgentDenied : Bool
  deriving DecidableEq, Repr

inductive RouteAccept where
  | unmodified
  /-- With a `listHandler`. -/
  | modifyResponse (h : HandlerConfig)
  /-- With a `watchHandler`. -/
  | modifyBody (h : HandlerConfig)
  deriving DecidableEq, Repr

structure RouteError where
  code : Nat
  msg : String
  deriving DecidableEq, Repr

/-! ## Requests -/

section

variable (discoverGVR : GroupVersionResource → Discovery)
  (injectSelector : LabelSelector → Option String)

/-- The record of a request's user agent. -/
def userAgentRecord (protoSpec : InternalSpec) (userAgent : String) (gr : GroupResource) :
    ResourceRequest :=
  if protoSpec.isUserAgentMatch userAgent then { gr := gr, userAgentPassed := some userAgent }
  else { gr := gr, userAgentDenied := some userAgent }

/-- `Route` of a `list` or `watch`, after discovery. -/
def routeResponse (protoSpec : InternalSpec) (rr : ResourceRequest) (h : HandlerConfig)
    (verb : String) : Except RouteError RouteAccept × ResourceRequest :=
  let accept : RouteAccept := if verb = "list" then .modifyResponse h else .modifyBody h
  match protoSpec.getObjectSelector h.groupResource with
  | none => (.ok accept, rr)
  | some objectSelector =>
    match injectSelector objectSelector with
    | some err =>
      (.error ⟨500, "failed to inject selector " ++ LabelSelector.dumpJSON (some objectSelector) ++
        " into request: " ++ err⟩, rr)
    | none => (.ok accept, { rr with objectSelector := some objectSelector })

/-- `Route` of a resource request: its answer, and the record it is released
with. -/
def routeResource (protoSpec : InternalSpec) (userAgent : String) (reqInfo : RequestInfo) :
    Except RouteError RouteAccept × ResourceRequest :=
  let gvr : GroupVersionResource := ⟨reqInfo.apiGroup, reqInfo.apiVersion, reqInfo.resource⟩
  let userAgentMatched := protoSpec.isUserAgentMatch userAgent
  let rr := userAgentRecord protoSpec userAgent gvr.groupResource
  match discoverGVR gvr with
  -- let requests with non-existing resources go
  | .notFound => (.ok .unmodified, rr)
  | .failed err =>
    (.error ⟨404, "failed to get gvr " ++ gvr.toStr ++ " from discovery: " ++ err⟩, rr)
  | .found =>
    if reqInfo.verb = "list" ∨ reqInfo.verb = "watch" then
      routeResponse injectSelector protoSpec rr ⟨gvr.groupResource, !userAgentMatched⟩ reqInfo.verb
    else if !userAgentMatched then (.error ⟨403, "userAgent denied"⟩, rr)
    else if !protoSpec.isNamespaceMatch reqInfo.namespaceName gvr.groupResource then
      (.error ⟨403, "not match subset rules"⟩, rr)
    else (.ok .unmodified, rr)

/-- `Route`: a request that is not for a resource does not take the spec. -/
def route (protoSpec : InternalSpec) (userAgent : String) (reqInfo : RequestInfo) :
    Except RouteError RouteAccept × Option ResourceRequest :=
  if !reqInfo.isResourceRequest then (.ok .unmodified, none)
  else
    let (answer, rr) := routeResource discoverGVR injectSelector protoSpec userAgent reqInfo
    (answer, some rr)

end

/-! ## Lists -/

/-- A member of the items of an unstructured list. -/
inductive UnstructuredItem where
  | object (ns : String) (body : String)
  | notObject (body : String)
  deriving DecidableEq, Repr

/-- The `items` of an unstructured object. -/
inductive ItemsField where
  | missing
  | notList
  | items (items : List UnstructuredItem)
  deriving DecidableEq, Repr

/-- An object of a typed list; `none` if it has no metadata (`Accessor`
returns an error). -/
structure TypedItem where
  ns : Option String
  body : String
  deriving DecidableEq, Repr

/-- A decoded list: unstructured, or typed with what `ExtractList` makes of
it. -/
inductive ListObject where
  | unstructured (items : ItemsField)
  | typed (items : List TypedItem)
  | typedError (err : String)
  deriving DecidableEq, Repr

/-- That an object of a namespace was passed on or held back. -/
structure Verdict where
  gr : GroupResource
  ns : String
  passed : Bool
  deriving DecidableEq, Repr

/-- The state of the loop over the items: the new items, the record, and the
verdicts, which the source does not keep. -/
structure FilterState (ι : Type) where
  newItems : List ι
  rr : ResourceRequest
  verdicts : List Verdict
  deriving DecidableEq

namespace FilterState

variable {ι : Type}

def start (gr : GroupResource) : FilterState ι := ⟨[], { gr := gr }, []⟩

/-- The body of the loop, for an item of namespace `ns`. -/
def visit (protoSpec : InternalSpec) (gr : GroupResource) (st : FilterState ι) (item : ι)
    (ns : String) : FilterState ι :=
  if protoSpec.isNamespaceMatch ns gr then
    { newItems := st.newItems ++ [item]
      rr := if ns ≠ "" then { st.rr with namespacePassed := st.rr.namespacePassed.insert ns }
        else st.rr
      verdicts := st.verdicts ++ [⟨gr, ns, true⟩] }
  else
    { newItems := st.newItems
      rr := if ns ≠ "" then { st.rr with namespaceDenied := st.rr.namespaceDenied.insert ns }
        else st.rr
      verdicts := st.verdicts ++ [⟨gr, ns, false⟩] }

end FilterState

/-- The loop over the items of an unstructured list, which stops with an error
at a member that is not an object. -/
def filterUnstructured (protoSpec : InternalSpec) (gr : GroupResource) :
    List UnstructuredItem → FilterState UnstructuredItem →
      Option String × FilterState UnstructuredItem
  | [], st => (none, st)
  | .notObject _ :: _, st =>
    (some "items member is not an object: map[string]interface \x7b\x7d", st)
  | .object ns body :: items, st =>
    filterUnstructured protoSpec gr items (st.visit protoSpec gr (.object ns body) ns)

/-- The loop over the objects of a typed list: one without metadata stays. -/
def filterTyped (protoSpec : InternalSpec) (gr : GroupResource) :
    List TypedItem → FilterState TypedItem → FilterState TypedItem
  | [], st => st
  | ⟨none, body⟩ :: objs, st =>
    filterTyped protoSpec gr objs { st with newItems := st.newItems ++ [⟨none, body⟩] }
  | ⟨some ns, body⟩ :: objs, st =>
    filterTyped protoSpec gr objs (st.visit protoSpec gr ⟨some ns, body⟩ ns)

/-- What `filterItems` does: its error, the list after it, the record it
releases the spec with (none if it does not take it), and its verdicts. -/
structure Filtered where
  err : Option String
  list : ListObject
  record : Option ResourceRequest
  verdicts : List Verdict
  deriving DecidableEq

/-- `listHandler.filterItems`. -/
def filterItems (h : HandlerConfig) (protoSpec : InternalSpec) (list : ListObject) : Filtered :=
  if h.userAgentDenied then
    match list with
    | .unstructured _ => ⟨none, .unstructured (.items []), none, []⟩
    | _ => ⟨none, .typed [], none, []⟩
  else
    match list with
    | .unstructured (.items items) =>
      match filterUnstructured protoSpec h.groupResource items (.start h.groupResource) with
      | (some err, st) => ⟨some err, list, some st.rr, st.verdicts⟩
      | (none, st) => ⟨none, .unstructured (.items st.newItems), some st.rr, st.verdicts⟩
    | .unstructured _ =>
      ⟨some "object is unstructured but not list", list, some { gr := h.groupResource }, []⟩
    | .typedError err => ⟨some err, list, some { gr := h.groupResource }, []⟩
    | .typed objs =>
      let st := filterTyped protoSpec h.groupResource objs (.start h.groupResource)
      ⟨none, .typed st.newItems, some st.rr, st.verdicts⟩

/-! ## Watches -/

/-- `watch.Bookmark`. -/
def Bookmark : String := "BOOKMARK"

/-- What `filterEvent` does: its error or the type of the event after it, the
record it releases the spec with, and its verdict. -/
structure FilteredEvent where
  eventType : Except String String
  record : Option ResourceRequest
  verdicts : List Verdict

/-- `watchHandler.filterEvent`; `ns` is the namespace of the event's object, or
the error of `Accessor`. -/
def filterEvent (h : HandlerConfig) (protoSpec : InternalSpec) (eventType : String)
    (ns : Except String String) : FilteredEvent :=
  if h.userAgentDenied then ⟨.ok Bookmark, none, []⟩
  else
    match ns with
    | .error err => ⟨.error err, none, []⟩
    | .ok ns =>
      let gr := h.groupResource
      if !protoSpec.isNamespaceMatch ns gr then
        ⟨.ok Bookmark, some { gr := gr, namespaceDenied := .ofItems [ns] }, [⟨gr, ns, false⟩]⟩
      else ⟨.ok eventType, some { gr := gr, namespacePassed := .ofItems [ns] }, [⟨gr, ns, true⟩]⟩

end CtrlMesh
