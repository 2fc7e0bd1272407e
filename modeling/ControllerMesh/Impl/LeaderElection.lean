import ControllerMesh.Framework.Occurrence
import ControllerMesh.Impl.Http
import ControllerMesh.Impl.Router

/-!
# Leader election through the proxy

`proxy/leaderelection`: a controller behind the proxy elects its leader with a
lock object in the API server. The pods of a subset elect one of their own, so
`handler.Handle` gives the lock a name for each subset, and it tells the spec
manager who holds the lock.

Three kinds of objects serve as locks. How they are encoded is a parameter
(`Codec`): media types and their serializers, and the JSON text of the election
record in an annotation.
-/

namespace CtrlMesh

open Framework Framework.Wire

/-- `LastReplace`. -/
def lastReplace (s old new : String) : String :=
  String.ofList (Framework.lastReplace old.toList new.toList s.toList)

namespace LeaderElection

/-- The part of `request.RequestInfo` that the handler reads. -/
structure RequestInfo extends CtrlMesh.RequestInfo where
  subresource : String
  name : String
  deriving DecidableEq, Repr

/-! ## Lock objects -/

inductive LockKind where
  | configMap
  | endpoints
  | lease
  deriving DecidableEq, Repr

/-- The kind of lock of a resource. -/
def lockKind (gvr : GroupVersionResource) : Option LockKind :=
  if gvr = ⟨"", "v1", "configmaps"⟩ then some .configMap
  else if gvr = ⟨"", "v1", "endpoints"⟩ then some .endpoints
  else if gvr = ⟨"coordination.k8s.io", "v1", "leases"⟩ then some .lease
  else none

/-- A lock object. Only a lease has a holder in its spec; `rest` is what the
handler does not look at. -/
structure LockObject where
  name : String
  annotations : StringMap String
  holderIdentity : Option String
  rest : String
  deriving DecidableEq

/-- `runtime.Serializer` on lock objects. An error of `Encode` is ignored, so
`encode` is what it has written. -/
structure Serializer where
  decode : LockKind → Bytes → Except String LockObject
  encode : LockKind → LockObject → Bytes

structure Codec where
  /-- `mime.ParseMediaType`, without the parameters. -/
  parseMediaType : Bytes → String × Option String
  supportedMediaTypes : List (String × Serializer)
  /-- `json.Unmarshal` of an election record, of which the holder is read. -/
  unmarshalRecord : String → Except String String
  /-- `util.DumpJSON` of a header. -/
  dumpHeader : Header → String

section

variable (codec : Codec)

/-- `getSerializer`. -/
def getSerializer (r : HttpRequest) : Except String Serializer :=
  let contentType := r.header.get "Content-Type"
  if contentType = [] then .error ("no mediaType in request " ++ codec.dumpHeader r.header)
  else
    let (mediaType, err) := codec.parseMediaType contentType
    if err.isSome then
      .error ("invalid mediaType " ++ mediaType ++ " in response " ++ codec.dumpHeader r.header)
    else
      match codec.supportedMediaTypes.find? (·.1 = mediaType) with
      | some info => .ok info.2
      | none => .error ("not found supported serializer for mediaType " ++ mediaType)

/-- `decodeObject`: what it returns, and the body that it leaves. -/
def decodeObject (ser : Serializer) (kind : LockKind) :
    Option Body → Except String LockObject × Option Body
  | none => (.error "body is empty", none)
  | some body =>
    let read := some { body with bytes := [] }
    match body.err with
    | some err => (.error ("failed to read the body: " ++ err), read)
    | none =>
      match ser.decode kind body.bytes with
      | .error err => (.error ("unabled to decode the response: " ++ err), read)
      | .ok obj => (.ok obj, read)

/-- `encodeObject`. -/
def encodeObject (ser : Serializer) (kind : LockKind) (obj : LockObject) : Body × Nat :=
  let buf := ser.encode kind obj
  (⟨buf, none⟩, buf.length)

/-- `DecodeFrom` of the adapters. -/
def decodeFrom (kind : LockKind) (r : HttpRequest) : Except String LockObject × HttpRequest :=
  match getSerializer codec r with
  | .error err => (.error err, r)
  | .ok ser =>
    let (result, body) := decodeObject ser kind r.body
    (result, { r with body := body })

/-- `resourcelock.LeaderElectionRecordAnnotationKey`. -/
def recordAnnotationKey : String := "control-plane.alpha.kubernetes.io/leader"

/-- `GetHoldIdentity` of the adapters: the holder, and whether there is one. -/
def getHoldIdentity (obj : LockObject) : LockKind → Option String
  | .lease => obj.holderIdentity
  | _ => obj.annotations[recordAnnotationKey]?.map fun recordStr =>
    match codec.unmarshalRecord recordStr with
    | .ok holderIdentity => holderIdentity
    | .error _ => ""

/-- `EncodeInto` of the adapters. The serializer has been found before. -/
def encodeInto (kind : LockKind) (obj : LockObject) (r : HttpRequest) : HttpRequest :=
  match getSerializer codec r with
  | .error _ => r
  | .ok ser =>
    let (body, length) := encodeObject ser kind obj
    { r with
      body := some body
      header := r.header.set "Content-Length" (textBytes (toString length))
      contentLength := length }

/-! ## The handler -/

/-- `handler`, without its spec manager. -/
structure Handler where
  namespaceName : String
  lockName : String
  subset : String
  deriving DecidableEq, Repr

/-- `setSubsetIntoName`. -/
def setSubsetIntoName (name subset : String) : String := name ++ "---" ++ subset

/-- What `Handle` returns, and the request as it leaves it. `modifyResponse` is
given by the identity that it reports. -/
structure Result where
  handled : Bool
  modifyResponse : Option String
  retErr : Option String
  request : HttpRequest
  deriving DecidableEq

/-- A request for an object that may be a lock: of the pods' namespace, and under
the name of the lock if it has a name. -/
def Handler.concerns (h : Handler) (req : RequestInfo) : Bool :=
  req.isResourceRequest && req.subresource = "" && req.namespaceName = h.namespaceName &&
    (req.verb = "create" || req.name = h.lockName ||
      (h.lockName ++ "---").toList.isPrefixOf req.name.toList)

/-- The end of the cases `create` and `update`: the lock is sent under `name`. -/
def sendLock (kind : LockKind) (obj : LockObject) (name : String) (r : HttpRequest) : Result :=
  match getHoldIdentity codec obj kind with
  | none => ⟨true, none, some "find no hold identity resource lock", r⟩
  | some holdIdentity =>
    ⟨true, some holdIdentity, none, encodeInto codec kind { obj with name := name } r⟩

/-- The case `create`. -/
def Handler.create (h : Handler) (kind : LockKind) (r : HttpRequest) : Result :=
  match decodeFrom codec kind r with
  | (.error err, r) => ⟨true, none, some err, r⟩
  | (.ok obj, r) =>
    if obj.name ≠ h.lockName then ⟨false, none, none, r⟩
    else
      sendLock codec kind obj
        (if h.subset ≠ "" then setSubsetIntoName h.lockName h.subset else obj.name) r

/-- The case `update`: the name is not modified again. -/
def update (kind : LockKind) (r : HttpRequest) : Result :=
  match decodeFrom codec kind r with
  | (.error err, r) => ⟨true, none, some err, r⟩
  | (.ok obj, r) => sendLock codec kind obj obj.name r

/-- The case `get`. -/
def Handler.get (h : Handler) (r : HttpRequest) : Result :=
  let path := if h.subset ≠ "" then
    lastReplace r.url.path h.lockName (setSubsetIntoName h.lockName h.subset) else r.url.path
  ⟨true, none, none, { r with url := { r.url with path := path } }⟩

/-- `Handle`. -/
def Handler.handle (h : Handler) (req : RequestInfo) (r : HttpRequest) : Result :=
  if !h.concerns req then ⟨false, none, none, r⟩
  else
    match lockKind ⟨req.apiGroup, req.apiVersion, req.resource⟩ with
    | none => ⟨false, none, none, r⟩
    | some kind =>
      if req.verb = "create" then h.create codec kind r
      else if req.verb = "update" then update codec kind r
      else if req.verb = "get" then h.get r
      else ⟨false, none, none, r⟩

/-- `modifyResponse` of a lock that is held by `holdIdentity`. -/
def reportLeader (sm : SpecManager) (holdIdentity : String) (statusCode : Nat) : SpecManager :=
  if statusCode = 200 then
    sm.updateLeaderElection (some { identity := holdIdentity, isLeader := true })
  else sm

/-- The path of a request through the handler of the proxy and back: a request
that `Handle` fails is not sent, and only for a lock that is written is something
done with the status of the response. -/
def Handler.serve (h : Handler) (sm : SpecManager) (req : RequestInfo) (r : HttpRequest)
    (statusCode : Nat) : SpecManager :=
  let result := h.handle codec req r
  match result.retErr, result.modifyResponse with
  | none, some holdIdentity => reportLeader sm holdIdentity statusCode
  | _, _ => sm

end

end LeaderElection

end CtrlMesh
