import ControllerMesh.Impl.GrpcServer
import ControllerMesh.Impl.Route

/-!
# The server

`Reconcile` of `controllers/server/virtualapp_controller.go` for one
VirtualApp, step by step, among the handlers of `GrpcServer` and the changes of
the VirtualApp, its pods and the namespaces.

One `Reconcile` runs at a time. It goes over the pods, and gives up while one of
them is not settled (`Reconcile.scanning` to `Reconcile.deleting`); for each pod
it loads the cached connection, then reads the connection, then loads the hash
expectation and deletes it if the pod has met it. Then it builds a spec for each
pod, sorts the pods into those to delete, to update and to dispatch to
(`classify`), and does one of the three: it deletes pods, or it sends specs, and
after each send stores the expectation that the pod reports the hash.

What the API server, the network and the clock answer in a step is an `Env`.
The MD5 hash of a route and endpoints as JSON is a parameter `specHash`.
-/

namespace CtrlMesh

open Framework

structure ReconcileResult where
  /-- In seconds. -/
  requeueAfter : Nat
  err : Option String
  deriving DecidableEq, Repr

/-- `syncPod` up to its spec, with the number of the connection. -/
structure SyncPod where
  pod : Pod
  conn : Nat
  dispatched : Bool
  currentStatus : ProxyStatusV1
  deriving DecidableEq

/-- `syncPod` with `newSpec`. -/
structure SyncTask extends SyncPod where
  newSpec : ProxySpecV1
  deriving DecidableEq

/-- The variables of the loop over the pods. -/
structure Scan where
  vApp : VirtualApp
  /-- The pods that the loop has not come to. -/
  todo : List Pod
  activePods : List Pod
  syncPods : List SyncPod
  deriving DecidableEq

/-- Where `Reconcile` is. -/
inductive Reconcile where
  /-- It is not running; the last one returned `res`. -/
  | idle (res : ReconcileResult)
  /-- At the head of the loop over the pods. -/
  | scanning (scan : Scan)
  /-- It has loaded the connection of `pod`. -/
  | loaded (scan : Scan) (pod : Pod) (conn : Nat)
  /-- It has read the connection. -/
  | checking (scan : Scan) (sp : SyncPod)
  /-- The pod has met its hash expectation, which is to be deleted. -/
  | satisfied (scan : Scan) (sp : SyncPod)
  /-- In the loop over the pods to delete. -/
  | deleting (todo : List SyncTask) (err : Option String)
  /-- In a loop over pods to send their specs to. -/
  | sending (todo : List SyncTask) (err : Option String)
  /-- In the same loop, after a `send` that succeeded. -/
  | expecting (task : SyncTask) (todo : List SyncTask)
  deriving DecidableEq

structure Server where
  grpc : GrpcServer
  podDeletionExpectation : StringSet
  vApp : VirtualApp
  pods : List Pod
  namespaces : List Namespace
  reconcile : Reconcile
  /-- What has been hashed so far; the code does not keep it. -/
  hashed : List (RouteV1 × List EndpointV1)

/-- What a step of `Reconcile` is answered. -/
structure Env where
  /-- The error of the API call or of the `send` in this step, if it fails. -/
  err : Option String := none
  /-- How long ago the pod was created, in seconds. -/
  age : Nat := 0

/-- `getPodsForVApp`, on the pods of the VirtualApp. -/
def getPodsForVApp (pods : List Pod) : List Pod := pods.insertionSort fun a b => a.name ≤ b.name

/-- `getActiveNamespaces`. -/
def getActiveNamespaces (namespaces : List Namespace) : List Namespace :=
  (namespaces.filter (!·.deleting)).insertionSort fun a b => a.name ≤ b.name

/-- What `Reconcile` decides to do with a pod. -/
inductive Action where
  | dispatch
  | update
  | delete (isLeader : Bool)
  | keep
  deriving DecidableEq, Repr

/-- The classification of a pod, whose subset is `subset`, by what it reports. -/
def classify (hash subset : String) (sp : SyncPod) : Action :=
  match sp.currentStatus.metaState with
  -- Should be the first time start and connect
  | none => .dispatch
  | some metaState =>
    let isLeader := sp.currentStatus.leaderElectionState.any (·.isLeader)
    if metaState.subset ≠ subset then .delete isLeader
    else if metaState.expectedHash ≠ metaState.currentHash then .delete isLeader
    else if hash ≠ metaState.expectedHash then .update
    -- maybe re-connected Pods
    else if !sp.dispatched then .dispatch
    else .keep

namespace Scan

/-- The loop goes on with the next pod. -/
def skip (scan : Scan) (todo : List Pod) : Scan := { scan with todo := todo }

/-- The pod at the head of the loop is active. -/
def activate (scan : Scan) (pod : Pod) (todo : List Pod) : Scan :=
  { scan with todo := todo, activePods := scan.activePods ++ [pod] }

/-- A pod has been checked. -/
def sync (scan : Scan) (sp : SyncPod) : Scan := { scan with syncPods := scan.syncPods ++ [sp] }

end Scan

namespace Server

section

variable (lib : Lib) (specHash : RouteV1 → List EndpointV1 → String)

/-- The specs that `Reconcile` builds, with what it decides for each pod. -/
def classified (scan : Scan) (namespaces : List Namespace) : List (Action × SyncTask) :=
  let protoRoute := generateProtoRoute lib scan.vApp (getActiveNamespaces namespaces)
  let protoEndpoints := generateProtoEndpoints scan.vApp scan.activePods
  let hash := specHash protoRoute protoEndpoints
  scan.syncPods.map fun sp =>
    let subset := determinePodSubset scan.vApp sp.pod
    (classify hash subset sp,
      { sp with newSpec := newSpec scan.vApp hash protoRoute protoEndpoints subset })

/-- The tasks of one kind. -/
def tasksFor (action : Action) (tasks : List (Action × SyncTask)) : List SyncTask :=
  (tasks.filter (·.1 == action)).map (·.2)

/-- What `Reconcile` goes on to do: delete the pods that are not leaders, or
else those that are, or else update, or else dispatch. -/
def act (tasks : List (Action × SyncTask)) : Reconcile :=
  if !(tasksFor (.delete false) tasks).isEmpty then .deleting (tasksFor (.delete false) tasks) none
  else if !(tasksFor (.delete true) tasks).isEmpty then .deleting (tasksFor (.delete true) tasks) none
  else if !(tasksFor .update tasks).isEmpty then .sending (tasksFor .update tasks) none
  else .sending (tasksFor .dispatch tasks) none

/-- The step at the head of the loop over the pods. -/
def scanPod (s : Server) (env : Env) (scan : Scan) (pod : Pod) (todo : List Pod) : Reconcile :=
  if !pod.isActive then
    -- Guarantee that all containers in inactive pods should be stopped
    if !(getRunningContainers pod).isEmpty then .idle ⟨0, none⟩ else .scanning (scan.skip todo)
  else if s.podDeletionExpectation.contains pod.uid then .idle ⟨0, none⟩
  else
    match s.grpc.cachedGrpcSrvConnection[pod.uid]? with
    | some conn => .loaded (scan.activate pod todo) pod conn
    -- No connection from the Pod, could be new Pod or the proxy container exited
    | none =>
      if pod.phase = .running ∧ pod.ready then .idle ⟨60, none⟩
      else if pod.phase = .pending ∧ env.age < 60 then .idle ⟨60 - env.age, none⟩
      else .scanning (scan.activate pod todo)

/-- One step of `Reconcile`. -/
def reconcileStep (s : Server) (env : Env) : Option Server :=
  match s.reconcile with
  | .idle _ =>
    some { s with reconcile := match env.err with
      | some err => .idle ⟨0, some err⟩
      | none => .scanning ⟨s.vApp, getPodsForVApp s.pods, [], []⟩ }
  | .scanning scan =>
    match scan.todo, env.err with
    | pod :: todo, _ => some { s with reconcile := s.scanPod env scan pod todo }
    | [], some err => some { s with reconcile := .idle ⟨0, some err⟩ }
    | [], none =>
      some { s with
        reconcile := act (classified lib specHash scan s.namespaces)
        hashed := (generateProtoRoute lib scan.vApp (getActiveNamespaces s.namespaces),
          generateProtoEndpoints scan.vApp scan.activePods) :: s.hashed }
  | .loaded scan pod conn =>
    match s.grpc.streams[conn]? with
    | none => none
    | some st =>
      some { s with reconcile :=
        if st.conn.disconnected then .idle ⟨0, none⟩
        else .checking scan ⟨pod, conn, 0 < st.conn.sendTimes, st.conn.status⟩ }
  | .checking scan sp =>
    some { s with reconcile := match s.grpc.podHashExpectation[sp.pod.uid]? with
      | none => .scanning (scan.sync sp)
      | some expectHash =>
        if sp.currentStatus.metaState.any (·.expectedHash == expectHash) then .satisfied scan sp
        else .idle ⟨0, none⟩ }
  | .satisfied scan sp =>
    some { s with
      grpc := { s.grpc with podHashExpectation := s.grpc.podHashExpectation.erase sp.pod.uid }
      reconcile := .scanning (scan.sync sp) }
  | .deleting [] err => some { s with reconcile := .idle ⟨0, err⟩ }
  | .deleting (task :: todo) _ =>
    some { s with
      podDeletionExpectation := if env.err.isNone then
          s.podDeletionExpectation.insert task.pod.uid
        else s.podDeletionExpectation
      reconcile := .deleting todo env.err }
  | .sending [] err => some { s with reconcile := .idle ⟨0, err⟩ }
  | .sending (task :: todo) _ =>
    some { s with
      grpc := s.grpc.send task.conn task.newSpec env.err
      reconcile := if env.err.isNone then .expecting task todo else .sending todo env.err }
  | .expecting task todo =>
    some { s with
      grpc := { s.grpc with podHashExpectation :=
        s.grpc.podHashExpectation.insert task.pod.uid task.newSpec.specMeta.hash }
      reconcile := .sending todo none }

inductive Event where
  /-- The VirtualApp is changed, and the change admitted. -/
  | apply (vApp : VirtualApp)
  | setNamespaces (namespaces : List Namespace)
  | setPods (pods : List Pod)
  /-- A pod is gone (`podEventHandler.Delete`). -/
  | podDeleted (uid : String)
  | grpc (e : GrpcServer.Event)
  | reconcile (env : Env)

/-- What the pod lookup of a stream's handler answers. -/
def findsPod (s : Server) (i : Nat) : Bool :=
  s.grpc.streams[i]?.any fun st => s.pods.any fun pod => pod.uid == st.uid && pod.isActive

/-- One step of the server, `none` if it is not enabled. -/
def step (s : Server) : Event → Option Server
  | .apply vApp =>
    if validate lib vApp = .ok () ∧ vApp.name = s.vApp.name ∧ vApp.selector = s.vApp.selector then
      some { s with vApp := vApp }
    else none
  | .setNamespaces namespaces => some { s with namespaces := namespaces }
  | .setPods pods => if (pods.map (·.uid)).Nodup then some { s with pods := pods } else none
  | .podDeleted uid =>
    some { s with
      pods := s.pods.filter (·.uid != uid)
      podDeletionExpectation := s.podDeletionExpectation.erase uid
      grpc := { s.grpc with podHashExpectation := s.grpc.podHashExpectation.erase uid } }
  | .grpc e =>
    match e with
    | .stream i (.lookupPod found) =>
      if found = s.findsPod i then (s.grpc.step e).map fun grpc => { s with grpc := grpc } else none
    | _ => (s.grpc.step e).map fun grpc => { s with grpc := grpc }
  | .reconcile env => s.reconcileStep lib specHash env

/-- A server without pods and streams. -/
def start (vApp : VirtualApp) : Server := ⟨.start, ∅, vApp, [], [], .idle ⟨0, none⟩, []⟩

/-- The server of a VirtualApp. -/
def system (vApp : VirtualApp) : System Server Event := ⟨start vApp, step lib specHash⟩

end

end Server

end CtrlMesh
