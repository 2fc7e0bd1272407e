import ControllerMesh.Impl.Router

/-!
# Responses of the API server

`proxy/apiserver/router/router.go`: what becomes of a response. A list is
requested with the object selector of the subset (`injectSelector`), decoded,
filtered and encoded again (`handle`); a watch is read event by event
(`watchHandler.Read`), each of them filtered and encoded.

The serializer is a parameter here: a list response is given by the object that
its body decodes to, a watch by its events in order, and encoding an event
yields bytes.
-/

namespace CtrlMesh

open Framework

/-! ## Objects, and the requests for them -/

/-- An object in the API server; `ns` is empty if it is cluster-scoped. -/
structure ApiObject where
  name : String
  ns : String
  labels : StringMap String
  body : String
  deriving DecidableEq

namespace ApiObject

/-- The parts of the object's path behind the API version. -/
def pathParts (resource : String) (o : ApiObject) : List String :=
  if o.ns = "" then [resource, o.name] else ["namespaces", o.ns, resource, o.name]

/-- Whether the path is `namespaces/{name}`. -/
def IsNamespace (resource : String) (o : ApiObject) : Prop := o.ns = "" ∧ resource = "namespaces"

instance (resource : String) (o : ApiObject) : Decidable (o.IsNamespace resource) :=
  inferInstanceAs (Decidable (_ ∧ _))

end ApiObject

/-- The namespace that `NewRequestInfo` finds in the parts of a path. -/
def requestNamespace : List String → String
  | part :: ns :: _ => if part = "namespaces" then ns else ""
  | _ => ""

/-- The request info of a request for one object. -/
def objectRequestInfo (verb : String) (gvr : GroupVersionResource) (o : ApiObject) : RequestInfo where
  isResourceRequest := true
  verb := verb
  apiGroup := gvr.group
  apiVersion := gvr.version
  resource := gvr.resource
  namespaceName := requestNamespace (o.pathParts gvr.resource)

/-- The request info of a list. -/
def listRequestInfo (gvr : GroupVersionResource) (ns : String) : RequestInfo where
  isResourceRequest := true
  verb := "list"
  apiGroup := gvr.group
  apiVersion := gvr.version
  resource := gvr.resource
  namespaceName := ns

/-! ## Lists -/

/-- `injectSelector`: the selector that a request is sent with, whose own label
selector `old` is nil if it has none and an error if it does not parse. -/
def injectSelector (old : Except String (Option LabelSelector)) (sel : LabelSelector) :
    Except String Selector := do
  let oldLabelSelector ← old
  validatedLabelSelectorAsSelector (mergeLabelSelector (some sel) oldLabelSelector)

/-- The error of a call. -/
def errorOf {α : Type} : Except String α → Option String
  | .ok _ => none
  | .error err => some err

/-- What the API server sends of its objects for a list without a label selector
of its own, after the selector of the spec is injected. -/
def selectedObjects (protoSpec : InternalSpec) (gr : GroupResource) (objs : List ApiObject) :
    List ApiObject :=
  match protoSpec.getObjectSelector gr with
  | none => objs
  | some sel =>
    match injectSelector (.ok none) sel with
    | .ok selector => objs.filter fun o => selector.matches o.labels
    | .error _ => []

/-- A list of objects as it is decoded: typed or unstructured. -/
def listObject (typed : Bool) (objs : List ApiObject) : ListObject :=
  if typed then .typed (objs.map fun o => ⟨some o.ns, o.body⟩)
  else .unstructured (.items (objs.map fun o => .object o.ns o.body))

/-- A list through the proxy: the list that the program gets of the objects in
the API server, or nothing if the request is rejected. -/
def listPath (discoverGVR : GroupVersionResource → Discovery) (protoSpec : InternalSpec)
    (userAgent : String) (gvr : GroupVersionResource) (ns : String) (typed : Bool)
    (objs : List ApiObject) : Option ListObject :=
  match (route discoverGVR (fun sel => errorOf (injectSelector (.ok none) sel)) protoSpec userAgent
      (listRequestInfo gvr ns)).1 with
  | .error _ => none
  | .ok (.modifyResponse h) =>
    some (filterItems h protoSpec
      (listObject typed (selectedObjects protoSpec gvr.groupResource objs))).list
  | .ok _ => some (listObject typed objs)

/-- What the body of a list response decodes to. An object that is not a list
may carry data of a namespace all the same, as a single object does. -/
inductive DecodedList where
  | typed (objs : List TypedItem)
  | unstructured (items : List UnstructuredItem)
  | other (namespaces : List String) (body : String)
  deriving DecidableEq, Repr

/-- `IsListType` and the list it is. -/
def DecodedList.asList : DecodedList → Option ListObject
  | typed objs => some (.typed objs)
  | unstructured items => some (.unstructured (.items items))
  | other _ _ => none

/-- A list as the object that is encoded. -/
def DecodedList.ofList (obj : DecodedList) : ListObject → DecodedList
  | .typed objs => .typed objs
  | .unstructured (.items items) => .unstructured items
  | _ => obj

/-- The object that is encoded: a list after `filterItems`, whose error is only
logged, and any other object as it is. -/
def DecodedList.filtered (h : HandlerConfig) (protoSpec : InternalSpec) (obj : DecodedList) :
    DecodedList :=
  match obj.asList with
  | none => obj
  | some list => obj.ofList (filterItems h protoSpec list).list

/-- What `handle` does to a response. -/
inductive HandledResponse where
  | unmodified
  | failed (err : String)
  | replaced (obj : DecodedList)
  deriving DecidableEq, Repr

/-- `listHandler.handle`, for a response whose body decodes to `decoded`;
`serializerError` and `encodeError` are the errors of `newResponseSerializer`
and of `EncodeList`. -/
def handle (h : HandlerConfig) (protoSpec : InternalSpec) (statusCode : Nat)
    (serializerError : Option String) (decoded : Except String DecodedList)
    (encodeError : Option String) : HandledResponse :=
  if statusCode < 200 ∨ 206 < statusCode then .unmodified
  else
    match serializerError, decoded, encodeError with
    | some err, _, _ => .failed ("new response serializer for list response error: " ++ err)
    | none, .error err, _ => .failed err
    | none, .ok _, some err => .failed err
    | none, .ok obj, none => .replaced (obj.filtered h protoSpec)

/-! ## Watches -/

structure WatchEvent where
  eventType : String
  /-- The namespace of the object, or the error of `Accessor`. -/
  ns : Except String String
  raw : String

/-- The error of a `Read`. -/
inductive ReadError where
  | eof
  | other (err : String)
  deriving DecidableEq, Repr

/-- A `watchHandler`: the events still to be decoded, and what is left of the
event being read. -/
structure WatchReader where
  upstream : List WatchEvent
  remaining : List UInt8

section

variable (h : HandlerConfig) (protoSpec : InternalSpec) (enc : WatchEvent → List UInt8)

/-- The types of events whose object `DecodeWatch` decodes. -/
def hasObject (eventType : String) : Bool :=
  eventType = "ADDED" || eventType = "MODIFIED" || eventType = "DELETED"

/-- `watchHandler.read`, while the request's context is not done. -/
def WatchReader.readEvent (r : WatchReader) : Except ReadError (List UInt8) × WatchReader :=
  match r.upstream with
  | [] => (.error .eof, r)
  | e :: upstream =>
    if hasObject e.eventType then
      match (filterEvent h protoSpec e.eventType e.ns).eventType with
      | .error err => (.error (.other err), { r with upstream := upstream })
      | .ok eventType => (.ok (enc { e with eventType := eventType }), { r with upstream := upstream })
    else (.ok (enc e), { r with upstream := upstream })

/-- `watchHandler.Read` with a buffer of length `n`: the bytes written to it, or
an error. The bytes left over are a part of the serializer's buffer, which no
other call touches before they are used up. -/
def WatchReader.read (r : WatchReader) (n : Nat) : Except ReadError (List UInt8) × WatchReader :=
  if 0 < r.remaining.length then
    if r.remaining.length ≤ n then (.ok r.remaining, { r with remaining := [] })
    else (.ok (r.remaining.take n), { r with remaining := r.remaining.drop n })
  else
    match r.readEvent h protoSpec enc with
    | (.error err, r) => (.error err, r)
    | (.ok body, r) =>
      if n < body.length then (.ok (body.take n), { r with remaining := body.drop n })
      else (.ok body, r)

/-- Calls of `Read`, with buffers of the lengths given. -/
def WatchReader.reads (r : WatchReader) :
    List Nat → List (Except ReadError (List UInt8)) × WatchReader
  | [] => ([], r)
  | n :: ns =>
    let (result, r) := r.read h protoSpec enc n
    let (results, r) := r.reads ns
    (result :: results, r)

end

end CtrlMesh
