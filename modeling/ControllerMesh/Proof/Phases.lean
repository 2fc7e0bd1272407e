import ControllerMesh.Impl.Call
import ControllerMesh.Proof.Owners

/-!
# The phases of Reconcile

What a call of `Reconcile` does, by the state of the server that it begins in. It goes
over all pods, and returns at one that it has to wait for (`Server.Blocks`). Behind
the last pod it has the connected ones with their statuses (`Scanned`), and does one
kind of operation: deletions of pods that are not leaders, or else of leaders, or else
updates, or else dispatches (`Server.Allowed`).

* `During.step`: a step of the call keeps what is known about its beginning;
* `reconcile_phases`: for any pods, connections, statuses and expectations.
-/

namespace CtrlMesh

open Framework

namespace Server

/-! ## The state of a pod -/

section

variable (s : Server) (pod : Pod)

/-- The connection that is cached for a pod. -/
def connection : Option GrpcSrvConnection :=
  s.grpc.cachedGrpcSrvConnection[pod.uid]?.bind fun conn => s.grpc.streams[conn]?.map (·.conn)

/-- The pod does not report the hash that is expected of it. -/
def HashUnsatisfied (conn : GrpcSrvConnection) : Prop :=
  ∃ hash, s.grpc.podHashExpectation[pod.uid]? = some hash ∧
    ¬conn.status.metaState.any (·.expectedHash == hash) = true

/-- A pod for which `Reconcile` waits. -/
inductive Blocks : Prop where
  | stopping (hinactive : pod.isActive = false) (hrunning : getRunningContainers pod ≠ [])
  | deleted (hactive : pod.isActive = true) (h : pod.uid ∈ s.podDeletionExpectation)
  | disconnected {conn : GrpcSrvConnection} (hactive : pod.isActive = true)
      (hconn : s.connection pod = some conn) (h : conn.disconnected = true)
  | unsatisfied {conn : GrpcSrvConnection} (hactive : pod.isActive = true)
      (hconn : s.connection pod = some conn) (h : s.HashUnsatisfied pod conn)
  | unconnected (hactive : pod.isActive = true) (hrunning : pod.phase = .running)
      (hready : pod.ready = true) (hconn : s.grpc.cachedGrpcSrvConnection[pod.uid]? = none)

/-- An active pod has a connection on which it reports. -/
def Reports (status : ProxyStatusV1) : Prop :=
  pod ∈ s.pods ∧ pod.isActive = true ∧ ∃ conn, s.connection pod = some conn ∧ conn.status = status

def reportsLeader (status : ProxyStatusV1) : Bool := status.leaderElectionState.any (·.isLeader)

/-- A connected pod, a leader or not, reports another subset than it should have, or that it
could not load the spec it got. -/
def NeedsDelete (isLeader : Bool) : Prop :=
  ∃ status metaState, s.Reports pod status ∧ status.metaState = some metaState ∧
    (metaState.subset ≠ determinePodSubset s.vApp pod ∨
      metaState.expectedHash ≠ metaState.currentHash) ∧
    reportsLeader status = isLeader

variable (lib : Lib) (specHash : RouteV1 → List EndpointV1 → String)

/-- The hash of the specs that `Reconcile` builds. -/
def currentHash : String :=
  specHash (generateProtoRoute lib s.vApp (getActiveNamespaces s.namespaces))
    (generateProtoEndpoints s.vApp ((getPodsForVApp s.pods).filter (·.isActive)))

/-- A connected pod that is not to be deleted reports another hash. -/
def NeedsUpdate : Prop :=
  ∃ status metaState, s.Reports pod status ∧ status.metaState = some metaState ∧
    metaState.subset = determinePodSubset s.vApp pod ∧
    metaState.expectedHash = metaState.currentHash ∧
    metaState.expectedHash ≠ s.currentHash lib specHash

/-- No pod blocks, and the operation is of the phase that the pods are in. -/
def Allowed (op : Operation) : Prop :=
  (∀ pod ∈ s.pods, ¬s.Blocks pod) ∧
    match op with
    | .delete task => ∃ isLeader, s.NeedsDelete task.pod isLeader ∧
        (isLeader = true → ∀ pod, ¬s.NeedsDelete pod false)
    | .send task => (∀ pod isLeader, ¬s.NeedsDelete pod isLeader) ∧
        (s.NeedsUpdate task.pod lib specHash ∨ ∀ pod, ¬s.NeedsUpdate pod lib specHash)

end

/-! ## Going over the pods -/

/-- What `Reconcile` collects for a connected pod. -/
def syncPodOf (s : Server) (pod : Pod) : Option SyncPod :=
  if pod.isActive then
    s.grpc.cachedGrpcSrvConnection[pod.uid]?.bind fun conn =>
      s.grpc.streams[conn]?.map fun st => ⟨pod, conn, 0 < st.conn.sendTimes, st.conn.status⟩
  else none

/-- The variables of the loop after the pods `done`. -/
structure Scanned (s : Server) (done : List Pod) (scan : Scan) : Prop where
  pods : getPodsForVApp s.pods = done ++ scan.todo
  vApp : scan.vApp = s.vApp
  settled : ∀ pod ∈ done, ¬s.Blocks pod
  activePods : scan.activePods = done.filter (·.isActive)
  syncPods : scan.syncPods = done.filterMap s.syncPodOf

section

variable {s : Server} {done : List Pod} {scan : Scan} {pod : Pod} {todo : List Pod}

theorem Scanned.begin : Scanned s [] ⟨s.vApp, getPodsForVApp s.pods, [], []⟩ :=
  ⟨rfl, rfl, by simp, rfl, rfl⟩

theorem Scanned.settled_concat (h : Scanned s done scan) (hpod : ¬s.Blocks pod) :
    ∀ p ∈ done ++ [pod], ¬s.Blocks p := by
  simpa [or_imp, forall_and] using ⟨h.settled, hpod⟩

/-- The loop goes on behind an inactive pod. -/
theorem Scanned.skip (h : Scanned s done scan) (htodo : scan.todo = pod :: todo)
    (hinactive : pod.isActive = false) (hpod : ¬s.Blocks pod) :
    Scanned s (done ++ [pod]) (scan.skip todo) where
  pods := by simpa [Scan.skip, htodo] using h.pods
  vApp := h.vApp
  settled := h.settled_concat hpod
  activePods := by simpa [Scan.skip, hinactive] using h.activePods
  syncPods := by simpa [Scan.skip, syncPodOf, hinactive] using h.syncPods

/-- The loop goes on behind an active pod without a connection. -/
theorem Scanned.ignore (h : Scanned s done scan) (htodo : scan.todo = pod :: todo)
    (hactive : pod.isActive = true) (hconn : s.grpc.cachedGrpcSrvConnection[pod.uid]? = none)
    (hpod : ¬s.Blocks pod) : Scanned s (done ++ [pod]) (scan.activate pod todo) where
  pods := by simpa [Scan.activate, htodo] using h.pods
  vApp := h.vApp
  settled := h.settled_concat hpod
  activePods := by simpa [Scan.activate, hactive] using h.activePods
  syncPods := by simpa [Scan.activate, syncPodOf, hconn] using h.syncPods

/-- The loop goes on behind a connected pod. -/
theorem Scanned.sync (h : Scanned s done scan) (htodo : scan.todo = pod :: todo)
    (hactive : pod.isActive = true) {sp : SyncPod} (hsp : s.syncPodOf pod = some sp)
    (hpod : ¬s.Blocks pod) : Scanned s (done ++ [pod]) ((scan.activate pod todo).sync sp) where
  pods := by simpa [Scan.activate, Scan.sync, htodo] using h.pods
  vApp := h.vApp
  settled := h.settled_concat hpod
  activePods := by simpa [Scan.activate, Scan.sync, hactive] using h.activePods
  syncPods := by simpa [Scan.activate, Scan.sync, hsp] using h.syncPods

end

section

variable {s : Server} {pod : Pod}

theorem not_blocks_of_stopped (hinactive : pod.isActive = false)
    (hstopped : getRunningContainers pod = []) : ¬s.Blocks pod := by
  intro hblocks
  cases hblocks with
  | stopping _ hrunning => exact hrunning hstopped
  | deleted hactive | disconnected hactive | unsatisfied hactive | unconnected hactive =>
    simp [hinactive] at hactive

theorem not_blocks_of_unconnected (hactive : pod.isActive = true)
    (hdel : pod.uid ∉ s.podDeletionExpectation)
    (hconn : s.grpc.cachedGrpcSrvConnection[pod.uid]? = none)
    (hready : ¬(pod.phase = .running ∧ pod.ready = true)) : ¬s.Blocks pod := by
  have hnone : s.connection pod = none := by simp [connection, hconn]
  intro hblocks
  cases hblocks with
  | stopping hinactive => simp [hactive] at hinactive
  | deleted _ h => exact hdel h
  | disconnected _ h | unsatisfied _ h => simp [hnone] at h
  | unconnected _ hrunning hpodReady => exact hready ⟨hrunning, hpodReady⟩

theorem not_blocks_of_connected {conn : GrpcSrvConnection} (hactive : pod.isActive = true)
    (hdel : pod.uid ∉ s.podDeletionExpectation) (hconn : s.connection pod = some conn)
    (hopen : conn.disconnected = false) (hhash : ¬s.HashUnsatisfied pod conn) :
    ¬s.Blocks pod := by
  intro hblocks
  cases hblocks with
  | stopping hinactive => simp [hactive] at hinactive
  | deleted _ h => exact hdel h
  | disconnected _ h hdis =>
    obtain rfl : conn = _ := Option.some.inj (hconn.symm.trans h)
    simp [hopen] at hdis
  | unsatisfied _ h hunsat =>
    obtain rfl : conn = _ := Option.some.inj (hconn.symm.trans h)
    exact hhash hunsat
  | unconnected _ _ _ h => simp [connection, h] at hconn

end

/-! ## What the call keeps on the way -/

/-- The call has changed nothing that it reads but for hash expectations that were met. -/
structure Kept (s t : Server) : Prop where
  namespaces : t.namespaces = s.namespaces
  deletion : t.podDeletionExpectation = s.podDeletionExpectation
  streams : t.grpc.streams = s.grpc.streams
  cached : t.grpc.cachedGrpcSrvConnection = s.grpc.cachedGrpcSrvConnection
  expectation (pod : Pod) :
    t.grpc.podHashExpectation[pod.uid]? = s.grpc.podHashExpectation[pod.uid]? ∨
      t.grpc.podHashExpectation[pod.uid]? = none ∧
        ∀ conn, s.connection pod = some conn → ¬s.HashUnsatisfied pod conn

/-- The loop is at an active pod. -/
structure AtPod (s : Server) (done : List Pod) (scan : Scan) (pod : Pod) (todo : List Pod) : Prop
    extends Scanned s done scan where
  todo_eq : scan.todo = pod :: todo
  active : pod.isActive = true
  not_deleted : pod.uid ∉ s.podDeletionExpectation

/-- The loop has read the connection of the pod. -/
structure ReadPod (s : Server) (done : List Pod) (scan : Scan) (sp : SyncPod) (todo : List Pod) :
    Prop extends AtPod s done scan sp.pod todo where
  syncPodOf : s.syncPodOf sp.pod = some sp
  connected : ∃ conn, s.connection sp.pod = some conn ∧ conn.disconnected = false ∧
    conn.status = sp.currentStatus

end Server

/-- The operations that `Reconcile` has still to attempt satisfy `P`. -/
def Reconcile.Acts (P : Operation → Prop) : Reconcile → Prop
  | idle _ => True
  | deleting todo _ => ∀ task ∈ todo, P (.delete task)
  | sending todo _ => ∀ task ∈ todo, P (.send task)
  | expecting _ todo => ∀ task ∈ todo, P (.send task)
  | _ => False

namespace Server

section

variable (lib : Lib) (specHash : RouteV1 → List EndpointV1 → String)

/-- A call that began in `s` is in `t`. -/
inductive During (s t : Server) : Prop where
  | scanning {done : List Pod} {scan : Scan} (h : t.reconcile = .scanning scan)
      (hkept : Kept s t) (hscan : Scanned s done scan)
  | loaded {done : List Pod} {scan : Scan} {pod : Pod} {todo : List Pod} {conn : Nat}
      (h : t.reconcile = .loaded (scan.activate pod todo) pod conn)
      (hkept : Kept s t) (hpod : AtPod s done scan pod todo)
      (hconn : s.grpc.cachedGrpcSrvConnection[pod.uid]? = some conn)
  | checking {done : List Pod} {scan : Scan} {sp : SyncPod} {todo : List Pod}
      (h : t.reconcile = .checking (scan.activate sp.pod todo) sp)
      (hkept : Kept s t) (hpod : ReadPod s done scan sp todo)
  | satisfied {done : List Pod} {scan : Scan} {sp : SyncPod} {todo : List Pod}
      (h : t.reconcile = .satisfied (scan.activate sp.pod todo) sp)
      (hkept : Kept s t) (hpod : ReadPod s done scan sp todo)
      (hhash : ∀ conn, s.connection sp.pod = some conn → ¬s.HashUnsatisfied sp.pod conn)
  | acting (h : t.reconcile.Acts (s.Allowed lib specHash))

end

section

variable {s t : Server}

theorem Kept.refl (r : Reconcile) : Kept s { s with reconcile := r } :=
  ⟨rfl, rfl, rfl, rfl, fun _ => .inl rfl⟩

theorem Kept.goto (h : Kept s t) (r : Reconcile) : Kept s { t with reconcile := r } :=
  ⟨h.namespaces, h.deletion, h.streams, h.cached, h.expectation⟩

/-- The expectation of a pod that has met it is deleted. -/
theorem Kept.erase (h : Kept s t) {pod : Pod} (r : Reconcile)
    (hhash : ∀ conn, s.connection pod = some conn → ¬s.HashUnsatisfied pod conn) :
    Kept s { t with
      grpc := { t.grpc with podHashExpectation := t.grpc.podHashExpectation.erase pod.uid }
      reconcile := r } where
  namespaces := h.namespaces
  deletion := h.deletion
  streams := h.streams
  cached := h.cached
  expectation p := by
    by_cases huid : p.uid = pod.uid
    · right
      -- what is cached and expected for a pod depends on its UID alone
      refine ⟨by simp [huid], ?_⟩
      simpa only [connection, HashUnsatisfied, huid] using hhash
    · simpa [Std.ExtTreeMap.getElem?_erase, Std.LawfulEqCmp.compare_eq_iff_eq, Ne.symm huid]
        using h.expectation p

/-- Nothing is expected of a pod, so it has met what was. -/
theorem Kept.not_hashUnsatisfied (h : Kept s t) {pod : Pod} {conn : GrpcSrvConnection}
    (hnone : t.grpc.podHashExpectation[pod.uid]? = none) (hconn : s.connection pod = some conn) :
    ¬s.HashUnsatisfied pod conn := by
  rcases h.expectation pod with heq | ⟨-, hsat⟩
  · rintro ⟨hash, hhash, -⟩
    simp [← heq, hnone] at hhash
  · exact hsat conn hconn

/-- What is expected of a pod is what was. -/
theorem Kept.expectation_of_eq_some (h : Kept s t) {pod : Pod} {hash : String}
    (hsome : t.grpc.podHashExpectation[pod.uid]? = some hash) :
    s.grpc.podHashExpectation[pod.uid]? = some hash := by
  rcases h.expectation pod with heq | ⟨hnone, -⟩
  · rw [← heq, hsome]
  · simp [hnone] at hsome

end

/-! ## What it decides to do -/

section

variable {s t : Server} {pod : Pod} {sp : SyncPod}

theorem syncPodOf_eq_some_iff : s.syncPodOf pod = some sp ↔ pod.isActive = true ∧
    ∃ conn st, s.grpc.cachedGrpcSrvConnection[pod.uid]? = some conn ∧
      s.grpc.streams[conn]? = some st ∧
      ⟨pod, conn, 0 < st.conn.sendTimes, st.conn.status⟩ = sp := by
  unfold syncPodOf
  by_cases hactive : pod.isActive = true
  · simp [hactive, Option.bind_eq_some_iff]
  · simp [hactive]

theorem pod_of_syncPodOf (h : s.syncPodOf pod = some sp) : sp.pod = pod := by
  obtain ⟨-, conn, st, -, -, rfl⟩ := syncPodOf_eq_some_iff.mp h
  rfl

theorem exists_reports_iff {P : ProxyStatusV1 → Prop} :
    (∃ status, s.Reports pod status ∧ P status) ↔
      pod ∈ s.pods ∧ ∃ sp, s.syncPodOf pod = some sp ∧ P sp.currentStatus := by
  simp only [Reports, syncPodOf_eq_some_iff, connection, Option.bind_eq_some_iff,
    Option.map_eq_some_iff]
  constructor
  · rintro ⟨_, ⟨hpod, hactive, _, ⟨conn, hconn, st, hst, rfl⟩, rfl⟩, hP⟩
    exact ⟨hpod, _, ⟨hactive, conn, st, hconn, hst, rfl⟩, hP⟩
  · rintro ⟨hpod, _, ⟨hactive, conn, st, hconn, hst, rfl⟩, hP⟩
    exact ⟨_, ⟨hpod, hactive, st.conn, ⟨conn, hconn, st, hst, rfl⟩, rfl⟩, hP⟩

theorem classify_eq_delete_iff {hash subset : String} {isLeader : Bool} :
    classify hash subset sp = .delete isLeader ↔
      ∃ metaState, sp.currentStatus.metaState = some metaState ∧
        (metaState.subset ≠ subset ∨ metaState.expectedHash ≠ metaState.currentHash) ∧
        reportsLeader sp.currentStatus = isLeader := by
  cases hmeta : sp.currentStatus.metaState with
  | none => simp [classify, hmeta]
  | some metaState =>
    simp only [classify, hmeta, reportsLeader, Option.some.injEq, exists_eq_left']
    by_cases hsubset : metaState.subset = subset
    · by_cases hhash : metaState.expectedHash = metaState.currentHash
      · simp only [hsubset, hhash, ne_eq, not_true_eq_false, if_false]
        split_ifs <;> simp
      · simp [hsubset, hhash]
    · simp [hsubset]

theorem classify_eq_update_iff {hash subset : String} :
    classify hash subset sp = .update ↔
      ∃ metaState, sp.currentStatus.metaState = some metaState ∧
        metaState.subset = subset ∧ metaState.expectedHash = metaState.currentHash ∧
        metaState.expectedHash ≠ hash := by
  cases hmeta : sp.currentStatus.metaState with
  | none => simp [classify, hmeta]
  | some metaState =>
    simp only [classify, hmeta, Option.some.injEq, exists_eq_left']
    by_cases hsubset : metaState.subset = subset
    · by_cases hhash : metaState.expectedHash = metaState.currentHash
      · by_cases hspec : hash = metaState.currentHash
        · simp only [hsubset, hhash, hspec, ne_eq, not_true_eq_false, if_false, and_false]
          split_ifs <;> simp
        · simp [hsubset, hhash, hspec, Ne.symm hspec]
      · simp [hsubset, hhash]
    · simp [hsubset]

variable {lib : Lib} {specHash : RouteV1 → List EndpointV1 → String} {done : List Pod} {scan : Scan}

theorem Scanned.done_eq (h : Scanned s done scan) (htodo : scan.todo = []) :
    done = getPodsForVApp s.pods := by
  rw [h.pods, htodo, List.append_nil]

theorem Scanned.mem_done_iff (h : Scanned s done scan) (htodo : scan.todo = []) :
    pod ∈ done ↔ pod ∈ s.pods := by
  rw [h.done_eq htodo, getPodsForVApp, List.mem_insertionSort]

/-- The pods for which there is a task of a kind. -/
theorem Scanned.exists_task_iff (h : Scanned s done scan) (htodo : scan.todo = [])
    {action : Action} :
    (∃ task ∈ tasksFor action (classified lib specHash scan s.namespaces), task.pod = pod) ↔
      pod ∈ s.pods ∧ ∃ sp, s.syncPodOf pod = some sp ∧
        classify (s.currentHash lib specHash) (determinePodSubset s.vApp pod) sp = action := by
  have hactive : scan.activePods = (getPodsForVApp s.pods).filter (·.isActive) := by
    rw [h.activePods, h.done_eq htodo]
  simp only [tasksFor, classified, h.vApp, hactive, h.syncPods, List.mem_map, List.mem_filter,
    List.mem_filterMap, beq_iff_eq]
  constructor
  · rintro ⟨_, ⟨_, ⟨⟨sp, ⟨p, hp, hsp⟩, rfl⟩, haction⟩, rfl⟩, rfl⟩
    obtain rfl := pod_of_syncPodOf hsp
    exact ⟨(h.mem_done_iff htodo).mp hp, sp, hsp, haction⟩
  · rintro ⟨hp, sp, hsp, haction⟩
    obtain rfl := pod_of_syncPodOf hsp
    exact ⟨_, ⟨_, ⟨⟨sp, ⟨_, (h.mem_done_iff htodo).mpr hp, hsp⟩, rfl⟩, haction⟩, rfl⟩, rfl⟩

theorem Scanned.needsDelete_iff (h : Scanned s done scan) (htodo : scan.todo = [])
    {isLeader : Bool} : s.NeedsDelete pod isLeader ↔
      ∃ task ∈ tasksFor (.delete isLeader) (classified lib specHash scan s.namespaces),
        task.pod = pod := by
  simp only [h.exists_task_iff htodo, classify_eq_delete_iff, NeedsDelete, exists_and_left,
    exists_reports_iff]

theorem Scanned.needsUpdate_iff (h : Scanned s done scan) (htodo : scan.todo = []) :
    s.NeedsUpdate pod lib specHash ↔
      ∃ task ∈ tasksFor .update (classified lib specHash scan s.namespaces), task.pod = pod := by
  simp only [h.exists_task_iff htodo, classify_eq_update_iff, NeedsUpdate, exists_and_left,
    exists_reports_iff]

/-- Behind the last pod, `Reconcile` goes on with operations of one phase. -/
theorem Scanned.acts (h : Scanned s done scan) (htodo : scan.todo = []) :
    (act (classified lib specHash scan s.namespaces)).Acts (s.Allowed lib specHash) := by
  have hsettled : ∀ pod ∈ s.pods, ¬s.Blocks pod := fun pod hp =>
    h.settled pod ((h.mem_done_iff htodo).mpr hp)
  have hdelete (pod : Pod) (isLeader : Bool) : s.NeedsDelete pod isLeader ↔
      ∃ task ∈ tasksFor (.delete isLeader) (classified lib specHash scan s.namespaces),
        task.pod = pod := h.needsDelete_iff htodo
  have hupdate (pod : Pod) : s.NeedsUpdate pod lib specHash ↔
      ∃ task ∈ tasksFor .update (classified lib specHash scan s.namespaces), task.pod = pod :=
    h.needsUpdate_iff htodo
  generalize classified lib specHash scan s.namespaces = plan at hdelete hupdate ⊢
  have hnone {isLeader : Bool} (hnil : tasksFor (.delete isLeader) plan = []) (pod : Pod) :
      ¬s.NeedsDelete pod isLeader := by
    simp [hdelete, hnil]
  unfold act
  by_cases hfollowers : tasksFor (.delete false) plan = []
  · by_cases hleaders : tasksFor (.delete true) plan = []
    · have hnoDelete (pod : Pod) (isLeader : Bool) : ¬s.NeedsDelete pod isLeader := by
        cases isLeader with
        | false => exact hnone hfollowers pod
        | true => exact hnone hleaders pod
      by_cases hupdates : tasksFor .update plan = []
      · simp only [hfollowers, hleaders, hupdates, List.isEmpty_nil, Bool.not_true]
        exact fun task _ => ⟨hsettled, hnoDelete, .inr fun pod => by simp [hupdate, hupdates]⟩
      · simp only [hfollowers, hleaders, List.isEmpty_nil, Bool.not_true, List.isEmpty_eq_false_iff.mpr hupdates]
        exact fun task htask => ⟨hsettled, hnoDelete, .inl ((hupdate _).mpr ⟨task, htask, rfl⟩)⟩
    · simp only [hfollowers, List.isEmpty_nil, Bool.not_true, List.isEmpty_eq_false_iff.mpr hleaders]
      exact fun task htask => ⟨hsettled, true, (hdelete _ _).mpr ⟨task, htask, rfl⟩,
        fun _ => hnone hfollowers⟩
  · simp only [List.isEmpty_eq_false_iff.mpr hfollowers]
    exact fun task htask => ⟨hsettled, false, (hdelete _ _).mpr ⟨task, htask, rfl⟩, by simp⟩

end

/-! ## The steps of the call -/

section

variable {lib : Lib} {specHash : RouteV1 → List EndpointV1 → String} {s t t' : Server} {env : Env}
  {done : List Pod} {scan : Scan} {pod : Pod} {sp : SyncPod} {todo : List Pod}

theorem During.returned (t : Server) (res : ReconcileResult) :
    During lib specHash s { t with reconcile := .idle res } :=
  .acting trivial

theorem During.operation_allowed (h : During lib specHash s t) {op : Operation}
    (hop : t.operation = some op) : s.Allowed lib specHash op := by
  unfold operation at hop
  cases h with
  | scanning h | loaded h | checking h | satisfied h => simp [h] at hop
  | acting h =>
    revert h hop
    cases t.reconcile with
    | deleting tasks | sending tasks =>
      cases tasks with
      | nil => simp
      | cons task tasks =>
        rintro ⟨⟩ h
        exact h task (by simp)
    | idle | scanning | loaded | checking | satisfied | expecting => simp

theorem During.scanPod (hkept : Kept s t)
    (hscan : Scanned s done scan) (htodo : scan.todo = pod :: todo) :
    During lib specHash s { t with reconcile := t.scanPod env scan pod todo } := by
  unfold Server.scanPod
  by_cases hactive : pod.isActive = true
  · simp only [hactive, Bool.not_true, Bool.false_eq_true, if_false]
    by_cases hdel : t.podDeletionExpectation.contains pod.uid = true
    · rw [if_pos hdel]
      exact .returned t _
    · have hmem : pod.uid ∉ s.podDeletionExpectation := by
        rwa [← hkept.deletion, Std.ExtTreeSet.mem_iff_contains]
      rw [if_neg hdel]
      cases hconn : t.grpc.cachedGrpcSrvConnection[pod.uid]? with
      | some conn =>
        exact .loaded rfl (hkept.goto _) ⟨hscan, htodo, hactive, hmem⟩ (hkept.cached ▸ hconn)
      | none =>
        rw [hkept.cached] at hconn
        show During lib specHash s { t with reconcile := ite _ _ (ite _ _ _) }
        by_cases hready : pod.phase = .running ∧ pod.ready = true
        · rw [if_pos hready]
          exact .returned t _
        · rw [if_neg hready]
          by_cases hpending : pod.phase = .pending ∧ env.age < 60
          · rw [if_pos hpending]
            exact .returned t _
          · rw [if_neg hpending]
            exact .scanning rfl (hkept.goto _) (hscan.ignore htodo hactive hconn
              (not_blocks_of_unconnected hactive hmem hconn hready))
  · rw [Bool.not_eq_true] at hactive
    simp only [hactive, Bool.not_false, if_true]
    by_cases hstopped : getRunningContainers pod = []
    · simp only [hstopped, List.isEmpty_nil, Bool.not_true, Bool.false_eq_true, if_false]
      exact .scanning rfl (hkept.goto _)
        (hscan.skip htodo hactive (not_blocks_of_stopped hactive hstopped))
    · simp only [List.isEmpty_eq_false_iff.mpr hstopped, Bool.not_false, if_true]
      exact .returned t _

theorem ReadPod.sync (h : ReadPod s done scan sp todo)
    (hhash : ∀ conn, s.connection sp.pod = some conn → ¬s.HashUnsatisfied sp.pod conn) :
    Scanned s (done ++ [sp.pod]) ((scan.activate sp.pod todo).sync sp) := by
  obtain ⟨conn, hconn, hopen, -⟩ := h.connected
  exact h.toScanned.sync h.todo_eq h.active h.syncPodOf
    (not_blocks_of_connected h.active h.not_deleted hconn hopen (hhash conn hconn))

theorem During.load {conn : Nat} (h : t.reconcile = .loaded (scan.activate pod todo) pod conn)
    (hkept : Kept s t) (hpod : AtPod s done scan pod todo)
    (hconn : s.grpc.cachedGrpcSrvConnection[pod.uid]? = some conn)
    (hstep : t.reconcileStep lib specHash env = some t') : During lib specHash s t' := by
  simp only [reconcileStep, h, hkept.streams] at hstep
  cases hst : s.grpc.streams[conn]? with
  | none => simp [hst] at hstep
  | some st =>
    simp only [hst, Option.some.injEq] at hstep
    subst hstep
    by_cases hdis : st.conn.disconnected = true
    · simp only [hdis, if_true]
      exact .returned t _
    · simp only [hdis, Bool.false_eq_true, if_false]
      have hread : ReadPod s done scan ⟨pod, conn, 0 < st.conn.sendTimes, st.conn.status⟩ todo :=
        ⟨hpod, syncPodOf_eq_some_iff.mpr ⟨hpod.active, conn, st, hconn, hst, rfl⟩, st.conn,
          by simp [connection, hconn, hst], by simpa using hdis, rfl⟩
      exact .checking rfl (hkept.goto _) hread

theorem During.check (h : t.reconcile = .checking (scan.activate sp.pod todo) sp)
    (hkept : Kept s t) (hpod : ReadPod s done scan sp todo)
    (hstep : t.reconcileStep lib specHash env = some t') : During lib specHash s t' := by
  simp only [reconcileStep, h, Option.some.injEq] at hstep
  subst hstep
  cases hexp : t.grpc.podHashExpectation[sp.pod.uid]? with
  | none =>
    exact .scanning rfl (hkept.goto _)
      (hpod.sync fun conn hconn => hkept.not_hashUnsatisfied hexp hconn)
  | some expectHash =>
    by_cases hmet : sp.currentStatus.metaState.any (·.expectedHash == expectHash) = true
    · simp only [hmet, if_true]
      refine .satisfied rfl (hkept.goto _) hpod fun conn hconn => ?_
      obtain ⟨conn', hconn', -, hstatus⟩ := hpod.connected
      obtain rfl : conn' = conn := Option.some.inj (hconn'.symm.trans hconn)
      rintro ⟨hash, hhash, hunmet⟩
      obtain rfl : expectHash = hash :=
        Option.some.inj ((hkept.expectation_of_eq_some hexp).symm.trans hhash)
      exact hunmet (hstatus ▸ hmet)
    · simp only [hmet]
      exact .returned t _

theorem acts_step {P : Operation → Prop} (h : t.reconcile.Acts P)
    (hidle : t.reconcile.isIdle = false) (hstep : t.reconcileStep lib specHash env = some t') :
    t'.reconcile.Acts P := by
  unfold reconcileStep at hstep
  revert h hidle hstep
  cases t.reconcile with
  | idle res => simp [Reconcile.isIdle]
  | scanning | loaded | checking | satisfied => simp [Reconcile.Acts]
  | deleting tasks err =>
    intro h _ hstep
    cases tasks with
    | nil =>
      cases hstep
      trivial
    | cons task tasks =>
      cases hstep
      exact fun task' htask => h task' (List.mem_cons_of_mem task htask)
  | sending tasks err =>
    intro h _ hstep
    cases tasks with
    | nil =>
      cases hstep
      trivial
    | cons task tasks =>
      have hrest : ∀ task' ∈ tasks, P (.send task') :=
        fun task' htask => h task' (List.mem_cons_of_mem task htask)
      cases herr : env.err <;> simp only [herr, Option.some.injEq] at hstep <;> subst hstep <;>
        exact hrest
  | expecting task tasks =>
    intro h _ hstep
    cases hstep
    exact h

/-- A step keeps what is known about the beginning. -/
theorem During.step (h : During lib specHash s t) (hidle : t.reconcile.isIdle = false)
    (hstep : t.reconcileStep lib specHash env = some t') : During lib specHash s t' := by
  cases h with
  | loaded h hkept hpod hconn => exact .load h hkept hpod hconn hstep
  | checking h hkept hpod => exact .check h hkept hpod hstep
  | satisfied h hkept hpod hhash =>
    simp only [reconcileStep, h, Option.some.injEq] at hstep
    subst hstep
    exact .scanning rfl (hkept.erase _ hhash) (hpod.sync hhash)
  | acting h => exact .acting (acts_step h hidle hstep)
  | scanning h hkept hscan =>
    rename_i done scan
    cases htodo : scan.todo with
    | cons pod todo =>
      simp only [reconcileStep, h, htodo, Option.some.injEq] at hstep
      subst hstep
      exact .scanPod hkept hscan htodo
    | nil =>
      cases herr : env.err with
      | some err =>
        simp only [reconcileStep, h, htodo, herr, Option.some.injEq] at hstep
        subst hstep
        exact .returned t _
      | none =>
        simp only [reconcileStep, h, htodo, herr, Option.some.injEq, hkept.namespaces] at hstep
        subst hstep
        exact .acting (hscan.acts htodo)

theorem continueCall_of_idle (h : t.reconcile.isIdle = true) (envs : List Env) :
    t.continueCall lib specHash envs = ([], t) := by
  cases envs <;> simp [continueCall, h]

theorem continueCall_of_none (h : t.reconcileStep lib specHash env = none) (envs : List Env) :
    t.continueCall lib specHash (env :: envs) = ([], t) := by
  simp [continueCall, h]

theorem continueCall_of_some (hidle : t.reconcile.isIdle = false)
    (h : t.reconcileStep lib specHash env = some t') (envs : List Env) :
    t.continueCall lib specHash (env :: envs) =
      ((t.operation.map (⟨·, env.err⟩)).toList ++ (t'.continueCall lib specHash envs).1,
        (t'.continueCall lib specHash envs).2) := by
  simp [continueCall, hidle, h]

/-- The VirtualApp or its pods cannot be read. -/
theorem call_of_err {err : String} (s : Server) (h : env.err = some err) (envs : List Env) :
    s.call lib specHash (env :: envs) = ([], { s with reconcile := .idle ⟨0, some err⟩ }) := by
  have hstep : reconcileStep lib specHash { s with reconcile := .idle ⟨0, none⟩ } env =
      some { s with reconcile := .idle ⟨0, some err⟩ } := by simp [reconcileStep, h]
  simp only [call, hstep]
  exact continueCall_of_idle rfl envs

theorem call_of_none (s : Server) (h : env.err = none) (envs : List Env) :
    s.call lib specHash (env :: envs) = continueCall lib specHash
      { s with reconcile := .scanning ⟨s.vApp, getPodsForVApp s.pods, [], []⟩ } envs := by
  simp [call, reconcileStep, h]

/-- What a call attempts was allowed where it began. -/
theorem During.continueCall (h : During lib specHash s t) (envs : List Env) :
    ∀ a ∈ (t.continueCall lib specHash envs).1, s.Allowed lib specHash a.operation := by
  induction envs generalizing t with
  | nil => simp [Server.continueCall]
  | cons env envs ih =>
    cases hidle : t.reconcile.isIdle with
    | true => simp [continueCall_of_idle hidle]
    | false =>
      cases hstep : t.reconcileStep lib specHash env with
      | none => simp [continueCall_of_none hstep]
      | some t' =>
        rw [continueCall_of_some hidle hstep]
        intro a ha
        rcases List.mem_append.mp ha with hop | hrest
        · simp only [Option.mem_toList, Option.map_eq_some_iff] at hop
          obtain ⟨op, hop, rfl⟩ := hop
          exact h.operation_allowed hop
        · exact ih (h.step hidle hstep) a hrest

end

/-- What the operations attempted in a call say about the state `s` it began in. -/
structure PhasesInOrder (lib : Lib) (specHash : RouteV1 → List EndpointV1 → String) (s : Server)
    (attempts : List Attempt) : Prop where
  /-- Nothing is deleted or sent while a pod is to be waited for. -/
  waits (pod : Pod) (hpod : pod ∈ s.pods) (hblocks : s.Blocks pod) : attempts = []
  one_phase (task task' : SyncTask) (err err' : Option String)
    (hdelete : ⟨.delete task, err⟩ ∈ attempts) : ⟨.send task', err'⟩ ∉ attempts
  leaders_last (task : SyncTask) (err : Option String) (hdelete : ⟨.delete task, err⟩ ∈ attempts)
    (status : ProxyStatusV1) (hreports : s.Reports task.pod status)
    (hleader : reportsLeader status = true) (pod : Pod) : ¬s.NeedsDelete pod false
  /-- A spec is sent to a pod that needs no update, for the first time or again, only if none
  needs one. -/
  updates_first (task : SyncTask) (err : Option String) (hsend : ⟨.send task, err⟩ ∈ attempts)
    (hdispatch : ¬s.NeedsUpdate task.pod lib specHash) (pod : Pod) :
    ¬s.NeedsUpdate pod lib specHash
  deletes_outdated (task : SyncTask) (err : Option String)
    (hdelete : ⟨.delete task, err⟩ ∈ attempts) : ∃ isLeader, s.NeedsDelete task.pod isLeader

section

variable {lib : Lib} {specHash : RouteV1 → List EndpointV1 → String} {s : Server}

theorem Reports.unique {pod : Pod} {status status' : ProxyStatusV1} (h : s.Reports pod status)
    (h' : s.Reports pod status') : status = status' := by
  obtain ⟨-, -, conn, hconn, rfl⟩ := h
  obtain ⟨-, -, conn', hconn', rfl⟩ := h'
  rw [Option.some.inj (hconn.symm.trans hconn')]

theorem phasesInOrder_of_allowed {attempts : List Attempt}
    (h : ∀ a ∈ attempts, s.Allowed lib specHash a.operation) :
    PhasesInOrder lib specHash s attempts where
  waits pod hpod hblocks := by
    refine List.eq_nil_iff_forall_not_mem.mpr fun a ha => ?_
    exact (h a ha).1 pod hpod hblocks
  one_phase task task' err err' hdelete hsend := by
    obtain ⟨-, isLeader, hneeds, -⟩ := h _ hdelete
    obtain ⟨-, hnone, -⟩ := h _ hsend
    exact hnone task.pod isLeader hneeds
  leaders_last task err hdelete status hreports hleader := by
    obtain ⟨-, isLeader, ⟨status', _, hreports', -, -, hleader'⟩, hlast⟩ := h _ hdelete
    obtain rfl := hreports.unique hreports'
    exact hlast (hleader'.symm.trans hleader)
  updates_first task err hsend hdispatch := by
    obtain ⟨-, -, hupdate⟩ := h _ hsend
    exact hupdate.resolve_left hdispatch
  deletes_outdated task err hdelete := by
    obtain ⟨-, isLeader, hneeds, -⟩ := h _ hdelete
    exact ⟨isLeader, hneeds⟩

end

/-- A call of `Reconcile`, from any state of the server, does operations of one phase at most, and
the phases are in order. -/
theorem reconcile_phases (lib : Lib) (specHash : RouteV1 → List EndpointV1 → String) (s : Server)
    (envs : List Env) : PhasesInOrder lib specHash s (s.call lib specHash envs).1 := by
  refine phasesInOrder_of_allowed ?_
  cases envs with
  | nil => simp [call]
  | cons env envs =>
    cases herr : env.err with
    | some err => simp [call_of_err s herr]
    | none =>
      rw [call_of_none s herr]
      exact (During.scanning rfl (.refl _) .begin).continueCall envs

/-- Pods with a connection each, which has ended where the pod has. -/
def sampleConnected (pods : List Pod) : Server where
  grpc.streams := pods.map fun pod => { uid := pod.uid, conn := ⟨⟨none, none⟩, 0, !pod.isActive⟩ }
  grpc.cachedGrpcSrvConnection := .ofList (pods.zipIdx.map fun pod => (pod.1.uid, pod.2))
  grpc.podHashExpectation := ∅
  podDeletionExpectation := ∅
  vApp := sampleVApp "canary"
  pods := pods
  namespaces := sampleNamespaces
  reconcile := .idle ⟨0, none⟩
  hashed := []

def sampleRunningPod (name : String) : Pod where
  uid := name
  name := name
  labels := ∅
  phase := .running
  podIP := "10.0.0.1"
  ready := true
  containerStatuses := []

/-- A pod that has ended is not waited for, although its connection is cached and marked as
disconnected: a spec is sent to the other pod. -/
theorem not_waits_sampleConnected :
    ∃ s pod conn, s = sampleConnected
        [{ sampleRunningPod "a" with phase := .succeeded }, sampleRunningPod "b"] ∧
      pod ∈ s.pods ∧ s.connection pod = some conn ∧ conn.disconnected = true ∧
      (s.call sampleLib (fun _ _ => "h") (List.replicate 8 {})).1.map (·.err) = [none] :=
  ⟨_, { sampleRunningPod "a" with phase := .succeeded }, ⟨⟨none, none⟩, 0, true⟩, rfl,
    List.mem_cons_self, by decide +kernel, rfl, by decide +kernel⟩

end Server

end CtrlMesh
