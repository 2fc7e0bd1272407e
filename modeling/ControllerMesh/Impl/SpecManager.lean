import ControllerMesh.Framework.System
import ControllerMesh.Impl.Storage

/-!
# The spec manager of the proxy

`proxy/protomanager/proto_manager.go`: the spec the server expects, the spec in
force, and the history of what was passed and denied under it. A new spec is
loaded only if it decides everything in the history as before
(`checkLoadable`).

`UpdateSpec` is two steps: the expected spec is assigned and written without
the lock (`assignExpectedSpec`), then checked and loaded under the lock
(`loadExpectedSpec`). `reportTriggerChan` is left out.
-/

namespace CtrlMesh

open Framework

structure SpecManager where
  storage : Storage
  expectedSpec : Option InternalSpec
  currentSpec : Option InternalSpec
  unloadReason : String
  requestsStore : RequestsPack
  leaderElectionState : Option LeaderElectionStateV1

/-! ## Checking a spec against the history -/

/-- The check of a record's user agents. -/
def checkUserAgents (expectedSpec : InternalSpec) (req : ResourceRequest) : Option String :=
  match req.userAgentPassed.filter (!expectedSpec.isUserAgentMatch ·),
    req.userAgentDenied.filter (expectedSpec.isUserAgentMatch ·) with
  | some userAgent, _ =>
    some s!"user-agent {userAgent} is already passed, but it doesn't match the expected spec"
  | none, some userAgent =>
    some s!"user-agent {userAgent} is already denied, but it matches the expected spec"
  | none, none => none

/-- The check of a record's object selector. -/
def checkObjectSelector (expectedSpec : InternalSpec) (req : ResourceRequest) : Option String :=
  let objectSelector := expectedSpec.getObjectSelector req.gr
  if objectSelector = req.objectSelector then none
  else
    let gr := req.gr.toStr
    let old := LabelSelector.dumpJSON req.objectSelector
    let new := LabelSelector.dumpJSON objectSelector
    some s!"object selector for {gr} changed from {old} to {new}"

/-- The loops of the check over a record's namespaces. -/
def checkNamespaces (order : RangeOrder) (expectedSpec : InternalSpec) (req : ResourceRequest) :
    Option String :=
  let gr := req.gr.toStr
  match (order.members req.namespacePassed).find? (!expectedSpec.isNamespaceMatch · req.gr),
    (order.members req.namespaceDenied).find? (expectedSpec.isNamespaceMatch · req.gr) with
  | some ns, _ =>
    some s!"namespace {ns} is already passed for {gr}, but it doesn't match the expected spec"
  | none, some ns =>
    some s!"namespace {ns} is already denied for {gr}, but it matches the expected spec"
  | none, none => none

/-- What `checkLoadable` calls on each record: the error, if it has one. -/
def checkRequest (order : RangeOrder) (expectedSpec : InternalSpec) (req : ResourceRequest) :
    Option String :=
  match checkUserAgents expectedSpec req with
  | some err => some err
  | none =>
    if req.gr.isEmpty then none
    else
      match checkObjectSelector expectedSpec req with
      | some err => some err
      | none => checkNamespaces order expectedSpec req

/-- `checkLoadable`: why the expected spec cannot replace the current one. -/
def checkLoadable (order : RangeOrder) (requestsStore : RequestsPack)
    (currentSpec : Option InternalSpec) (expectedSpec : InternalSpec) : Option String :=
  match currentSpec with
  | none => none
  | some currentSpec =>
    let old := currentSpec.proxySpecV1
    let new := expectedSpec.proxySpecV1
    if old.specMeta.vAppName ≠ new.specMeta.vAppName then
      some ("VAppName changed from " ++ old.specMeta.vAppName ++ " to " ++ new.specMeta.vAppName)
    else if old.route.subset ≠ new.route.subset then
      some ("subset changed from " ++ old.route.subset ++ " to " ++ new.route.subset)
    else if old.specMeta.hash = new.specMeta.hash then none
    else requestsStore.rangeRequests order (checkRequest order expectedSpec)

/-! ## Operations -/

namespace SpecManager

section

variable (unmarshal : String → LabelSelector)

/-- The first step of `UpdateSpec`, without the lock. -/
def assignExpectedSpec (sm : SpecManager) (spec : ProxySpecV1) : SpecManager :=
  { sm with
    expectedSpec := some (convertProtoSpecToInternal unmarshal spec)
    storage := sm.storage.writeExpectedSpec spec }

/-- The second step of `UpdateSpec`, under the lock. -/
def loadExpectedSpec (order : RangeOrder) (sm : SpecManager) : SpecManager :=
  match sm.expectedSpec with
  | none => sm
  | some expectedSpec =>
    match checkLoadable order sm.requestsStore sm.currentSpec expectedSpec with
    | some err => { sm with unloadReason := err }
    | none =>
      { sm with
        currentSpec := some expectedSpec
        storage := sm.storage.writeCurrentSpec expectedSpec.proxySpecV1 }

/-- `UpdateSpec`. -/
def updateSpec (order : RangeOrder) (sm : SpecManager) (spec : ProxySpecV1) : SpecManager :=
  (sm.assignExpectedSpec unmarshal spec).loadExpectedSpec order

/-- `newSpecManager` on the files of `disk`: an error of `loadData` is ignored,
and then nothing is loaded. -/
def newSpecManager (order : RangeOrder) (disk : Disk) : SpecManager :=
  let (loaded, storage) := (newStorage disk).loadData .empty
  let sm : SpecManager := ⟨storage, none, none, "", .empty, none⟩
  match loaded with
  | .error _ => sm
  | .ok loaded =>
    let sm := { sm with
      requestsStore := loaded.history
      currentSpec := (loaded.currentSpec.bind (·.check)).map (convertProtoSpecToInternal unmarshal) }
    match loaded.expectedSpec.bind (·.check) with
    | none => sm
    | some expectedSpec => sm.updateSpec unmarshal order expectedSpec

end

/-- A spec manager that starts on empty files. -/
def start : SpecManager := ⟨newStorage .empty, none, none, "", .empty, none⟩

/-- `UpdateLeaderElection`. -/
def updateLeaderElection (sm : SpecManager) (le : Option LeaderElectionStateV1) : SpecManager :=
  { sm with leaderElectionState := le }

/-- `GetStatus`: nil before a spec is loaded. A loaded spec was an expected one,
so `expectedSpec` is not nil after that. -/
def getStatus (sm : SpecManager) : Option ProxyStatusV1 := do
  let currentSpec ← sm.currentSpec
  let expectedSpec ← sm.expectedSpec
  some
    { metaState := some
        { subset := currentSpec.proxySpecV1.route.subset
          expectedHash := expectedSpec.proxySpecV1.specMeta.hash
          currentHash := currentSpec.proxySpecV1.specMeta.hash
          hashUnloadReason := sm.unloadReason }
      leaderElectionState := sm.leaderElectionState }

/-- `ReleaseSpec`, without the locks: the history is written if the record
changed it. -/
def releaseSpec (sm : SpecManager) (req : Option ResourceRequest) : SpecManager :=
  let (pack, changed) := sm.requestsStore.add req
  { sm with
    requestsStore := pack
    storage := if changed then sm.storage.writeHistoryRequests pack else sm.storage }

/-- A call that writes to storage. -/
inductive Call where
  | updateSpec (order : RangeOrder) (spec : ProxySpecV1)
  | releaseSpec (req : Option ResourceRequest)

def call (unmarshal : String → LabelSelector) (sm : SpecManager) : Call → SpecManager
  | .updateSpec order spec => sm.updateSpec unmarshal order spec
  | .releaseSpec req => sm.releaseSpec req

/-- Calls one after the other, from empty files. -/
def calls (unmarshal : String → LabelSelector) : System SpecManager Call :=
  ⟨start, fun sm c => some (sm.call unmarshal c)⟩

end SpecManager

end CtrlMesh
