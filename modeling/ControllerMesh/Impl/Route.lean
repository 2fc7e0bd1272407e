import ControllerMesh.Impl.InternalSpec
import ControllerMesh.Impl.RequestsStore
import ControllerMesh.Impl.VirtualApp

/-!
# What the server sends

`controllers/server/server_util.go`: the route that the server compiles from a
VirtualApp and the active namespaces, the endpoints it lists, and the hash of
both.

A match limit selector by namespaces becomes two rules: the namespaces it
matches, for the subset that uses it, and those it does not match, for the
default subset. One by objects becomes one rule, for its subset.
-/

namespace CtrlMesh

open Framework

/-- A namespace, by what the server reads of it. -/
structure Namespace where
  name : String
  labels : StringMap String
  /-- Whether the deletion timestamp is set. -/
  deleting : Bool := false
  deriving DecidableEq

inductive PodPhase where
  | pending
  | running
  | succeeded
  | failed
  | unknown
  deriving DecidableEq, Repr

structure ContainerStatus where
  name : String
  running : Bool
  deriving DecidableEq, Repr

/-- A pod, by what the server reads of it. -/
structure Pod where
  uid : String
  name : String
  labels : StringMap String
  deleting : Bool := false
  phase : PodPhase
  podIP : String
  /-- Whether the ready condition is true. -/
  ready : Bool
  containerStatuses : List ContainerStatus
  deriving DecidableEq

/-- `util.IsPodActive`. -/
def Pod.isActive (p : Pod) : Bool := p.phase != .succeeded && p.phase != .failed && !p.deleting

/-- `getRunningContainers`. -/
def getRunningContainers (pod : Pod) : List String :=
  (pod.containerStatuses.filter (·.running)).map (·.name)

/-- `determinePodSubset`: the first subset whose labels the pod has. A label
that the pod lacks reads as the empty string. -/
def determinePodSubset (vApp : VirtualApp) (pod : Pod) : String :=
  match vApp.subsets.find? fun subset =>
    subset.labels.toList.all fun kv => pod.labels[kv.1]?.getD "" == kv.2 with
  | some subset => subset.name
  | none => ""

/-- `generateAPIResources`. -/
def generateAPIResources (resources : List APIGroupResource) : List APIGroupResourceV1 :=
  resources.map fun resource => ⟨resource.apiGroups, resource.resources⟩

section

variable (lib : Lib)

/-- `isNamespaceMatched`: a selector that does not parse matches nothing. -/
def isNamespaceMatched (ms : MatchLimitSelector) (ns : Namespace) : Bool :=
  match ms.namespaceSelector, ms.namespaceRegex with
  | some sel, _ =>
    match validatedLabelSelectorAsSelector (some sel) with
    | .error _ => false
    | .ok selector => selector.matches ns.labels
  | none, some text =>
    match lib.regexpCompile text with
    | .error _ => false
    | .ok regex => regex ns.name
  | none, none => false

/-- `isNamespaceMatched`, where the labels of the selector are visited in any order. -/
def isNamespaceMatchedIn (o : RangeOrder) (ms : MatchLimitSelector) (ns : Namespace) : Bool :=
  match ms.namespaceSelector, ms.namespaceRegex with
  | some sel, _ =>
    match validatedLabelSelectorAsSelectorIn o (some sel) with
    | .error _ => false
    | .ok selector => selector.matches ns.labels
  | none, some text =>
    match lib.regexpCompile text with
    | .error _ => false
    | .ok regex => regex ns.name
  | none, none => false

/-- What the loop of `generateMatchLimitRules` appends to the include rules and
to the exclude rules for one selector. -/
def generateMatchLimitRule (namespaces : List Namespace) (ms : MatchLimitSelector) :
    List MatchLimitRuleV1 × List MatchLimitRuleV1 :=
  let resources := generateAPIResources (ms.resources.getD [])
  if ms.namespaceSelector.isSome || ms.namespaceRegex.isSome then
    let matchedNamespaces := (namespaces.filter (isNamespaceMatched lib ms)).map (·.name)
    let unmatchedNamespaces := (namespaces.filter (!isNamespaceMatched lib ms ·)).map (·.name)
    ([⟨matchedNamespaces, "", resources⟩], [⟨unmatchedNamespaces, "", resources⟩])
  else if ms.objectSelector.isSome then
    ([⟨[], LabelSelector.dumpJSON ms.objectSelector, resources⟩], [])
  else ([], [])

/-- `generateMatchLimitRules`: the include rules and the exclude rules. -/
def generateMatchLimitRules (namespaces : List Namespace) (limits : List MatchLimitSelector) :
    List MatchLimitRuleV1 × List MatchLimitRuleV1 :=
  (limits.flatMap fun ms => (generateMatchLimitRule lib namespaces ms).1,
    limits.flatMap fun ms => (generateMatchLimitRule lib namespaces ms).2)

/-- `rulesMap` of `generateProtoRoute`. -/
def VirtualApp.rulesMap (vApp : VirtualApp) : StringMap (List MatchLimitSelector) :=
  match vApp.route with
  | none => ∅
  | some route => route.subRules.foldl (fun m r => m.insert r.name r.matchLimits) ∅

/-- `subsetLimits` of `generateProtoRoute`: the selectors of a subset's rules. -/
def VirtualApp.subsetLimits (vApp : VirtualApp) (subset : VirtualAppSubset) :
    List MatchLimitSelector :=
  subset.routeRules.flatMap fun ruleName => vApp.rulesMap[ruleName]?.getD []

/-- `generateProtoRoute`. -/
def generateProtoRoute (vApp : VirtualApp) (namespaces : List Namespace) : RouteV1 :=
  let generate := generateMatchLimitRules lib namespaces
  let route := vApp.route.getD {}
  { subset := ""
    globalLimits := (generate route.globalLimits).1
    subsetLimits :=
      vApp.subsets.map (fun subset => ⟨subset.name, (generate (vApp.subsetLimits subset)).1⟩) ++
        -- add default subset
        [⟨"", vApp.subsets.flatMap fun subset => (generate (vApp.subsetLimits subset)).2⟩]
    subsetPublicResources := generateAPIResources route.subsetPublicResources
    subsetDefaultOnlyUserAgents := route.subsetDefaultOnlyUserAgents }

end

/-- `generateProtoEndpoints`. -/
def generateProtoEndpoints (vApp : VirtualApp) (pods : List Pod) : List EndpointV1 :=
  ((pods.filter (·.ready)).map fun pod =>
    { name := pod.name, ip := pod.podIP, subset := determinePodSubset vApp pod }).insertionSort
      fun a b => a.name ≤ b.name

/-- `newSpec` of `Reconcile`: the spec for a pod of `subset`. -/
def newSpec (vApp : VirtualApp) (hash : String) (protoRoute : RouteV1)
    (protoEndpoints : List EndpointV1) (subset : String) : ProxySpecV1 :=
  { specMeta := ⟨vApp.name, hash⟩
    route := { protoRoute with subset := subset }
    endpoints := protoEndpoints }

end CtrlMesh
