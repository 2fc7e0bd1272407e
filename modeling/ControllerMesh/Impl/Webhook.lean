import ControllerMesh.Impl.InternalSpec

/-!
# Admission requests

`proxy/webhook`: an admission request is answered by the webhook of the own pod,
sent on to a pod of the subset that owns its namespace, or allowed without a
webhook (`route`). The transports to other pods are kept in a cache
(`getOneTripper`). `serveHTTP` puts the two together.
-/

namespace CtrlMesh.Webhook

open Framework

/-- The part of `AdmissionRequest` that is read. -/
structure AdmissionRequest where
  namespaceName : String
  group : String
  resource : String
  /-- `DumpJSON` of the whole request. -/
  json : String
  deriving DecidableEq, Repr

def AdmissionRequest.gr (req : AdmissionRequest) : GroupResource := ⟨req.group, req.resource⟩

inductive Answer where
  | accept
  | redirect (hosts : List String)
  | ignore
  | error (code : Nat) (msg : String)
  deriving DecidableEq, Repr

/-- `Route`. -/
def route (protoSpec : InternalSpec) (req : AdmissionRequest) : Answer :=
  match protoSpec.getMatchedSubsetEndpoint req.namespaceName req.gr with
  | (true, _, _) => .ignore
  | (false, true, _) => .accept
  | (false, false, []) => .error 404 ("find no endpoints for request " ++ req.json)
  | (false, false, host :: hosts) => .redirect (host :: hosts)

/-! ## Transports -/

/-- An `http.RoundTripper`: the address that it dials, whatever the request. -/
structure RoundTripper where
  redirectHost : String
  deriving DecidableEq, Repr

structure TransportCache where
  cache : StringMap RoundTripper
  webhookPort : Nat
  deriving DecidableEq

namespace TransportCache

/-- The address of the webhook on a host. -/
def redirectHost (tc : TransportCache) (host : String) : String :=
  host ++ ":" ++ toString tc.webhookPort

/-- `getOneTripper`: the transport to one of the hosts, and the cache after it.
Without hosts it panics (`none`) and leaves the cache as it is. -/
def getOneTripper (tc : TransportCache) (hosts : List String) :
    Option RoundTripper × TransportCache :=
  match hosts.findSome? (tc.cache[·]?), hosts with
  | some rt, _ => (some rt, tc)
  | none, [] => (none, tc)
  | none, host :: _ =>
    let tripper := ⟨tc.redirectHost host⟩
    (some tripper, { tc with cache := tc.cache.insert host tripper })

/-- `getTripper`. -/
def getTripper (tc : TransportCache) (host : String) : Option RoundTripper × TransportCache :=
  tc.getOneTripper [host]

/-- The cache of a proxy that has started. -/
def start (webhookPort : Nat) : TransportCache :=
  (getTripper ⟨∅, webhookPort⟩ "127.0.0.1").2

end TransportCache

/-! ## The handler -/

/-- An incoming review: its body, which may be missing or unreadable, and what
the body decodes to. -/
structure Review where
  body : Option (Except String Unit)
  contentType : String
  request : Except String (Option AdmissionRequest)

inductive Response where
  | errored (code : Nat) (msg : String)
  | allowed
  /-- What the webhook behind the transport answers. -/
  | forwarded (tripper : Option RoundTripper)
  deriving DecidableEq, Repr

/-- `handler.ServeHTTP`. `errorf` is what `fmt.Errorf` makes of a text that is
given to it as the format. -/
def serveHTTP (errorf : String → String) (protoSpec : InternalSpec) (tc : TransportCache)
    (r : Review) : Response × TransportCache :=
  match r.body with
  | none => (.errored 400 "request body is empty", tc)
  | some (.error err) =>
    (.errored 400 ("unable to read the body from the incoming request: " ++ err), tc)
  | some (.ok _) =>
    if r.contentType ≠ "application/json" then
      (.errored 400 ("contentType=" ++ r.contentType ++ ", expected application/json"), tc)
    else
      match r.request with
      | .error err => (.errored 400 ("unabled to decode the request: " ++ err), tc)
      | .ok none => (.errored 400 "request in admission review is empty", tc)
      | .ok (some req) =>
        match route protoSpec req with
        | .error code msg => (.errored code (errorf msg), tc)
        | .ignore => (.allowed, tc)
        | .redirect hosts =>
          let (tripper, tc) := tc.getOneTripper hosts
          (.forwarded tripper, tc)
        | .accept =>
          let (tripper, tc) := tc.getTripper "127.0.0.1"
          (.forwarded tripper, tc)

end CtrlMesh.Webhook
