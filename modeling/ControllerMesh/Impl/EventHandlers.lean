import ControllerMesh.Impl.Server

/-!
# Which events lead to a Reconcile

`controllers/server/virtualapp_event_handler.go`: the handlers of changes of pods
and namespaces, by the VirtualApps that they enqueue. What the handlers read from
the cache of the client is a parameter.
-/

namespace CtrlMesh

open Framework

def VirtualAppInjectedKey : String := "ctrlmesh.kruise.io/virtual-app-injected"

namespace PodEventHandler

variable (get : String → Except String VirtualApp)

/-- `getVAppForPod`. -/
def getVAppForPod (pod : Pod) : Except String (Option VirtualApp) :=
  let name := pod.labels[VirtualAppInjectedKey]?.getD ""
  if name = "" then .ok none else (get name).map some

/-- A handler that enqueues the VirtualApp of a pod if `test` says so. An error
of the lookup is only logged. -/
def enqueueIf (pod : Pod) (test : VirtualApp → Bool) : List VirtualApp :=
  match getVAppForPod get pod with
  | .error _ => []
  | .ok none => []
  | .ok (some vApp) => if test vApp then [vApp] else []

/-- `Create`. -/
def create (pod : Pod) : List VirtualApp := enqueueIf get pod fun _ => true

/-- What `Update` compares. -/
def changed (oldPod newPod : Pod) (vApp : VirtualApp) : Bool :=
  if newPod.deleting then
    !oldPod.deleting || (getRunningContainers oldPod).length != (getRunningContainers newPod).length
  else
    -- if the subset of pod changed, enqueue it
    determinePodSubset vApp oldPod != determinePodSubset vApp newPod ||
      oldPod.phase != newPod.phase || oldPod.ready != newPod.ready

/-- `Update`. -/
def update (oldPod newPod : Pod) : List VirtualApp :=
  enqueueIf get newPod (changed oldPod newPod)

/-- `Delete`, which also forgets what is expected of the pod. -/
def delete (pod : Pod) : List VirtualApp := enqueueIf get pod fun _ => true

end PodEventHandler

namespace NamespaceEventHandler

variable (lib : Lib) (list : Except String (List VirtualApp))

/-- `getSensitiveVApps`: those with limits or rules. -/
def getSensitiveVApps : List VirtualApp :=
  match list with
  | .error _ => []
  | .ok vApps => vApps.filter fun vApp =>
    vApp.route.any fun route => !(route.globalLimits.isEmpty && route.subRules.isEmpty)

/-- Whether a selector takes the two versions of a namespace differently. -/
def matchedDiffers (oldNS newNS : Namespace) (ms : MatchLimitSelector) : Bool :=
  isNamespaceMatched lib ms oldNS != isNamespaceMatched lib ms newNS

/-- What `Update` compares for one VirtualApp. -/
def changed (oldNS newNS : Namespace) (vApp : VirtualApp) : Bool :=
  vApp.route.any fun route =>
    route.globalLimits.any (matchedDiffers lib oldNS newNS) ||
      route.subRules.any fun r => r.matchLimits.any (matchedDiffers lib oldNS newNS)

/-- `Update`. It compares the labels with `reflect.DeepEqual`, which tells a nil
map from an empty one; that makes no difference to what the selectors take. -/
def update (oldNS newNS : Namespace) : List VirtualApp :=
  if newNS.labels = oldNS.labels then []
  else (getSensitiveVApps list).filter (changed lib oldNS newNS)

end NamespaceEventHandler

end CtrlMesh
