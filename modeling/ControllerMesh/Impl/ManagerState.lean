import ControllerMesh.Framework.ObjectStore
import ControllerMesh.Framework.System
import ControllerMesh.Impl.Route
import Mathlib.Data.List.Sort

/-!
# The state of the managers

`controllers/managerstate/managerstate_controller.go`: the leader of the managers
writes the endpoints of all of them to the object `ctrlmesh-manager`, in which the
proxies look for the leader (`connect` of `proxy/protomanager/proto_manager_grpc.go`).

`Reconcile` is taken request by request, for any number of managers. It reads pods
and the object from the manager's cache, which may be old; the object's status is a
subresource, so a `Create` stores none.
-/

namespace CtrlMesh

open Framework

structure ManagerStateEndpoint where
  name : String
  podIP : String
  leader : Bool
  deriving DecidableEq

structure ManagerStatePorts where
  grpcLeaderElectionPort : Nat
  grpcNonLeaderElectionPort : Nat
  deriving DecidableEq

structure ManagerStateStatus where
  inNamespace : String := ""
  /-- `none` is a nil slice. -/
  endpoints : Option (List ManagerStateEndpoint) := none
  ports : Option ManagerStatePorts := none
  deriving DecidableEq

namespace ManagerStateStatus

/-- What is read back of a status that was sent: an empty slice is omitted. -/
def readBack (status : ManagerStateStatus) : ManagerStateStatus :=
  { status with endpoints := if status.endpoints = some [] then none else status.endpoints }

/-- Where `connect` finds the leader; `none` if it waits. -/
def leaderAddr (status : ManagerStateStatus) : Option String :=
  match status.ports with
  | none => none
  | some ports =>
    if ports.grpcLeaderElectionPort = 0 then none
    else
      match (status.endpoints.getD []).find? (·.leader) with
      | none => none
      | some leader => some (leader.podIP ++ ":" ++ toString ports.grpcLeaderElectionPort)

end ManagerStateStatus

/-- What a manager is started with. -/
structure Manager where
  localName : String
  inNamespace : String
  podSelector : StringMap String → Bool
  ports : ManagerStatePorts

namespace Manager

/-- The endpoints of the pods that `List` has returned, sorted. -/
def endpoints (m : Manager) (pods : List Pod) : List ManagerStateEndpoint :=
  ((pods.filter (·.isActive)).map fun pod =>
    { name := pod.name, podIP := pod.podIP, leader := pod.name == m.localName :
      ManagerStateEndpoint }).insertionSort fun a b => a.name ≤ b.name

def hasLeader (m : Manager) (pods : List Pod) : Bool :=
  pods.any fun pod => pod.isActive && pod.name == m.localName

def newStatus (m : Manager) (pods : List Pod) : ManagerStateStatus where
  inNamespace := m.inNamespace
  endpoints := some (m.endpoints pods)
  ports := some m.ports

end Manager

inductive ReconcileError where
  | listPods (text : String)
  | noLeader (localName : String) (endpoints : List ManagerStateEndpoint)
  | get (err : ApiError)
  | create (err : ApiError)
  | update (err : ApiError)
  /-- The bare `return` behind a `Create` that found the object. -/
  | alreadyExists
  deriving DecidableEq

/-- Where a call of `Reconcile` is. -/
inductive ManagerReconcile where
  | listing
  | getting (newStatus : ManagerStateStatus)
  | creating (newStatus : ManagerStateStatus)
  | updating (resourceVersion : String) (newStatus : ManagerStateStatus)
  | returned (err : Option ReconcileError)
  deriving DecidableEq

structure ManagerCall where
  manager : Manager
  pc : ManagerReconcile

/-- What a step of a call is answered. -/
inductive ManagerAnswer where
  /-- The pods of the namespace in the manager's cache. -/
  | pods (pods : List Pod)
  /-- The object in the manager's cache. -/
  | cached (object : Option (Versioned ManagerStateStatus))
  /-- A read of the cache fails. -/
  | fails (text : String)
  /-- A write, with the version that the API server assigns; it may fail on the way, before or
  after it has been done. -/
  | sent (failure : Option (String × Bool)) (version : String)

structure ManagerStates where
  store : ObjectStore ManagerStateStatus
  calls : List ManagerCall

namespace ManagerStates

section

variable (store : ObjectStore ManagerStateStatus)

/-- One request of a call, with what follows up to the next one. -/
def request (m : Manager) (answer : ManagerAnswer) :
    ManagerReconcile → Option (ManagerReconcile × ObjectStore ManagerStateStatus)
  | .listing =>
    match answer with
    | .pods pods =>
      let pods := pods.filter (m.podSelector ·.labels)
      if m.hasLeader pods then some (.getting (m.newStatus pods), store)
      else some (.returned (some (.noLeader m.localName (m.endpoints pods))), store)
    | .fails text => some (.returned (some (.listPods text)), store)
    | _ => none
  | .getting newStatus =>
    match answer with
    | .cached none => some (.creating newStatus, store)
    | .cached (some object) =>
      -- what a cache has is what was stored at some time
      if object ∈ store.history then
        if object.value = newStatus then some (.returned none, store)
        else some (.updating object.version newStatus, store)
      else none
    | .fails text => some (.returned (some (.get (.other text))), store)
    | _ => none
  | .creating _ =>
    match answer with
    | .sent failure version =>
      if store.Fresh version then
        -- the status is not stored
        match store.send failure (store.create ⟨{}, version⟩) with
        | (none, store') => some (.returned none, store')
        | (some .alreadyExists, store') => some (.returned (some .alreadyExists), store')
        | (some err, store') => some (.returned (some (.create err)), store')
      else none
    | _ => none
  | .updating resourceVersion newStatus =>
    match answer with
    | .sent failure version =>
      if store.Fresh version then
        match store.send failure (store.update resourceVersion ⟨newStatus.readBack, version⟩) with
        | (none, store') => some (.returned none, store')
        | (some err, store') => some (.returned (some (.update err)), store')
      else none
    | _ => none
  | .returned _ => none

end

inductive Event where
  | reconcile (manager : Manager)
  /-- The next request of the `i`-th call. -/
  | request (i : Nat) (answer : ManagerAnswer)

def step (s : ManagerStates) : Event → Option ManagerStates
  | .reconcile manager => some { s with calls := s.calls ++ [⟨manager, .listing⟩] }
  | .request i answer =>
    match s.calls[i]? with
    | none => none
    | some call =>
      (request s.store call.manager answer call.pc).map fun r =>
        ⟨r.2, s.calls.set i { call with pc := r.1 }⟩

/-- The managers, before the first call. -/
def system (object : Option (Versioned ManagerStateStatus)) : System ManagerStates Event :=
  ⟨⟨.start object, []⟩, step⟩

end ManagerStates

end CtrlMesh
