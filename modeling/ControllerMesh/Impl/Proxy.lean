import ControllerMesh.Framework.System
import ControllerMesh.Impl.Router

/-!
# The proxy as a transition system

The goroutines of the proxy that share a `SpecManager`: one receives specs and
runs `UpdateSpec` in its two steps, one reports the status, and any number of
requests take the current spec under the read lock and release it with their
record. Any of them may take the next step, as far as the lock allows: the
second step of an update, a status report and a change of the leader election
state need that no request holds the spec.
-/

namespace CtrlMesh

open Framework

/-- A piece of work that takes the spec, or might: a request that does not is
released without a record, like one that never took it. -/
inductive Request where
  | route (discoverGVR : GroupVersionResource → Discovery)
      (injectSelector : LabelSelector → Option String) (userAgent : String) (reqInfo : RequestInfo)
  | list (h : HandlerConfig) (obj : ListObject)
  | watch (h : HandlerConfig) (eventType : String) (ns : Except String String)
  /-- Webhooks, traffic policies and leader election release the spec without
  a record. -/
  | unrecorded

namespace Request

/-- What a request is released with. -/
def record (protoSpec : InternalSpec) : Request → Option ResourceRequest
  | route discoverGVR injectSelector userAgent reqInfo =>
    (CtrlMesh.route discoverGVR injectSelector protoSpec userAgent reqInfo).2
  | list h obj => (filterItems h protoSpec obj).record
  | watch h eventType ns => (filterEvent h protoSpec eventType ns).record
  | unrecorded => none

/-- What list and watch filtering decided in a request. -/
def verdicts (protoSpec : InternalSpec) : Request → List Verdict
  | list h obj => (filterItems h protoSpec obj).verdicts
  | watch h eventType ns => (filterEvent h protoSpec eventType ns).verdicts
  | route .. => []
  | unrecorded => []

/-- The group-resource a request is about. -/
def gr : Request → Option GroupResource
  | route _ _ _ reqInfo => some ⟨reqInfo.apiGroup, reqInfo.resource⟩
  | list h _ => some h.groupResource
  | watch h _ _ => some h.groupResource
  | unrecorded => none

end Request

/-- The state of a proxy. `verdicts` and `rejected` are what has happened so
far; the code does not keep them. -/
structure Proxy where
  specManager : SpecManager
  /-- An `UpdateSpec` is between its two steps. -/
  updating : Bool
  /-- The requests that hold the read lock, with the spec they took. -/
  readers : List (InternalSpec × Request)
  /-- What list and watch filterings have decided. -/
  verdicts : List Verdict
  /-- The expected specs that `checkLoadable` has rejected. -/
  rejected : List InternalSpec

namespace Proxy

inductive Event where
  | beginUpdate (spec : ProxySpecV1)
  | finishUpdate (order : RangeOrder)
  | acquire (req : Request)
  /-- The `i`-th of the requests that hold the spec releases it. -/
  | release (i : Nat)
  | getStatus
  | updateLeaderElection (le : Option LeaderElectionStateV1)

/-- A proxy whose spec manager has no spec. -/
def start : Proxy := ⟨.start, false, [], [], []⟩

/-- The second step of `UpdateSpec`, with the rejection noted. -/
def finishUpdate (p : Proxy) (order : RangeOrder) : Proxy :=
  { p with
    specManager := p.specManager.loadExpectedSpec order
    updating := false
    rejected := match p.specManager.expectedSpec with
      | none => p.rejected
      | some expectedSpec =>
        match checkLoadable order p.specManager.requestsStore p.specManager.currentSpec
            expectedSpec with
        | none => p.rejected
        | some _ => expectedSpec :: p.rejected }

/-- The end of a request that holds the spec. -/
def release (p : Proxy) (i : Nat) (protoSpec : InternalSpec) (req : Request) : Proxy :=
  { p with
    specManager := p.specManager.releaseSpec (req.record protoSpec)
    readers := p.readers.eraseIdx i
    verdicts := req.verdicts protoSpec ++ p.verdicts }

/-- One step of a proxy, `none` if it is not enabled. -/
def step (unmarshal : String → LabelSelector) (p : Proxy) : Event → Option Proxy
  | .beginUpdate spec =>
    if p.updating then none
    else some { p with
      specManager := p.specManager.assignExpectedSpec unmarshal spec
      updating := true }
  | .finishUpdate order =>
    if p.updating && p.readers.isEmpty then some (p.finishUpdate order) else none
  | .acquire req =>
    match p.specManager.currentSpec with
    | none => none
    | some protoSpec => some { p with readers := p.readers ++ [(protoSpec, req)] }
  | .release i =>
    match p.readers[i]? with
    | none => none
    | some (protoSpec, req) => some (p.release i protoSpec req)
  | .getStatus => if p.readers.isEmpty then some p else none
  | .updateLeaderElection le =>
    if p.readers.isEmpty then
      some { p with specManager := p.specManager.updateLeaderElection le }
    else none

/-- The proxy, started without a spec. -/
def system (unmarshal : String → LabelSelector) : System Proxy Event := ⟨start, step unmarshal⟩

end Proxy

end CtrlMesh
