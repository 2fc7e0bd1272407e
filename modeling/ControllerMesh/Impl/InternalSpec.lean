import ControllerMesh.Impl.Messages
import ControllerMesh.Impl.Selector

/-!
# The proxy's view of a spec

`apis/ctrlmesh/proto/ctrlmesh_internal.go`: the route of a received spec with
its namespaces as sets and its object selectors decoded, and the decisions the
proxy takes from it: which subset owns a namespace of a resource
(`InternalRoute.determineNamespaceSubset`), which user agents may pass, which
object selector to inject.

The object selector of a rule travels as JSON text. How the proxy decodes it
(`json.Unmarshal` into a `LabelSelector`, whatever is filled in before an
error) is a parameter `unmarshal`; nothing here depends on it.
-/

namespace CtrlMesh

open Framework

/-- The subset `determineNamespaceSubset` gives for a resource that all
subsets share. -/
def AllSubsetPublic : String := "AllSubsetPublic"

def ResourceAll : String := "*"

/-- `schema.GroupResource`. -/
structure GroupResource where
  group : String
  resource : String
  deriving DecidableEq, Repr

namespace GroupResource

/-- `GroupResource.Empty`. -/
def isEmpty (gr : GroupResource) : Bool := gr.group.isEmpty && gr.resource.isEmpty

/-- `GroupResource.String`. -/
def toStr (gr : GroupResource) : String :=
  if gr.group = "" then gr.resource else gr.resource ++ "." ++ gr.group

end GroupResource

structure InternalMatchLimitRule where
  namespaces : StringSet
  objectSelector : Option LabelSelector
  resources : List APIGroupResourceV1
  deriving DecidableEq

structure InternalSubsetLimit where
  subset : String
  limits : List InternalMatchLimitRule
  deriving DecidableEq

structure InternalRoute where
  subset : String
  globalLimits : List InternalMatchLimitRule
  subsetLimits : List InternalSubsetLimit
  subsetPublicResources : List APIGroupResourceV1
  subsetDefaultOnlyUserAgents : StringSet
  deriving DecidableEq

/-- `containsString`: the wildcard counts only as the single member. -/
def containsString (x : String) (list : List String) (wildcard : String) : Bool :=
  list == [wildcard] || list.contains x

/-- `isGRMatchedAPIResources`. -/
def isGRMatchedAPIResources (gr : GroupResource) (resources : List APIGroupResourceV1) : Bool :=
  resources.any fun r =>
    containsString gr.group r.apiGroups ResourceAll &&
      containsString gr.resource r.resources ResourceAll

/-! ## Conversion -/

section

variable (unmarshal : String → LabelSelector)

/-- `convertProtoMatchLimitRuleToInternal`, for one rule: a rule with an object
selector keeps no namespaces. -/
def convertProtoMatchLimitRule (limit : MatchLimitRuleV1) : InternalMatchLimitRule :=
  if limit.objectSelector ≠ "" then
    { namespaces := ∅
      objectSelector := some (unmarshal limit.objectSelector)
      resources := limit.resources }
  else
    { namespaces := StringSet.ofItems limit.namespaces
      objectSelector := none
      resources := limit.resources }

/-- `convertProtoMatchLimitRuleToInternal`. -/
def convertProtoMatchLimitRuleToInternal (limits : List MatchLimitRuleV1) :
    List InternalMatchLimitRule :=
  limits.map (convertProtoMatchLimitRule unmarshal)

/-- The route of `ConvertProtoSpecToInternal`. -/
def convertProtoRouteToInternal (r : RouteV1) : InternalRoute :=
  { subset := r.subset
    globalLimits := convertProtoMatchLimitRuleToInternal unmarshal r.globalLimits
    subsetLimits := r.subsetLimits.map fun subsetLimit =>
      { subset := subsetLimit.subset
        limits := convertProtoMatchLimitRuleToInternal unmarshal subsetLimit.limits }
    subsetPublicResources := r.subsetPublicResources
    subsetDefaultOnlyUserAgents := StringSet.ofItems r.subsetDefaultOnlyUserAgents }

end

/-- `InternalSpec`: a spec and the route converted from it. -/
structure InternalSpec where
  proxySpecV1 : ProxySpecV1
  routeInternal : InternalRoute
  deriving DecidableEq

/-- `ConvertProtoSpecToInternal`. -/
def convertProtoSpecToInternal (unmarshal : String → LabelSelector) (protoSpec : ProxySpecV1) :
    InternalSpec :=
  { proxySpecV1 := protoSpec
    routeInternal := convertProtoRouteToInternal unmarshal protoSpec.route }

/-! ## Decisions -/

namespace InternalRoute

/-- A global limit that applies to `gr` and does not list `ns`. -/
def globalLimitDenies (ns : String) (gr : GroupResource) (limit : InternalMatchLimitRule) : Bool :=
  if !limit.resources.isEmpty && !isGRMatchedAPIResources gr limit.resources then false
  else if limit.objectSelector.isSome then false
  else !limit.namespaces.contains ns

/-- The inner loop of `determineNamespaceSubset`, over the limits of one
subset: whether one of them lists `ns`, and `isResourceMatchLimit` after the
loop. -/
def scanLimits (ns : String) (gr : GroupResource) (isResourceMatchPublic : Bool) :
    List InternalMatchLimitRule → Bool → Bool × Bool
  | [], isResourceMatchLimit => (false, isResourceMatchLimit)
  | limit :: limits, isResourceMatchLimit =>
    if limit.objectSelector.isSome then
      scanLimits ns gr isResourceMatchPublic limits isResourceMatchLimit
    else if !limit.resources.isEmpty then
      if !isGRMatchedAPIResources gr limit.resources then
        scanLimits ns gr isResourceMatchPublic limits isResourceMatchLimit
      else if limit.namespaces.contains ns then (true, true)
      else scanLimits ns gr isResourceMatchPublic limits true
    else if isResourceMatchPublic then
      scanLimits ns gr isResourceMatchPublic limits isResourceMatchLimit
    else if limit.namespaces.contains ns then (true, isResourceMatchLimit)
    else scanLimits ns gr isResourceMatchPublic limits isResourceMatchLimit

/-- The outer loop of `determineNamespaceSubset`: the first subset with a limit
that lists `ns`, and `isResourceMatchLimit` after the loop. -/
def scanSubsets (ns : String) (gr : GroupResource) (isResourceMatchPublic : Bool) :
    List InternalSubsetLimit → Bool → Option String × Bool
  | [], isResourceMatchLimit => (none, isResourceMatchLimit)
  | subsetLimits :: rest, isResourceMatchLimit =>
    match scanLimits ns gr isResourceMatchPublic subsetLimits.limits isResourceMatchLimit with
    | (true, m) => (some subsetLimits.subset, m)
    | (false, m) => scanSubsets ns gr isResourceMatchPublic rest m

/-- `determineNamespaceSubset`: the subset that owns namespace `ns` for `gr`,
or `none` (`"", false`) if no subset does. -/
def determineNamespaceSubset (ir : InternalRoute) (ns : String) (gr : GroupResource) :
    Option String :=
  -- Resources of ClusterScope can only be handled by default subset
  if ns = "" then some ""
  else if ir.globalLimits.any (globalLimitDenies ns gr) then none
  else
    let isResourceMatchPublic := isGRMatchedAPIResources gr ir.subsetPublicResources
    match scanSubsets ns gr isResourceMatchPublic ir.subsetLimits false with
    | (some subset, _) => some subset
    | (none, isResourceMatchLimit) =>
      if isResourceMatchPublic && !isResourceMatchLimit then some AllSubsetPublic
      -- No subset matched, should ignore it instead of using default subset
      else none

/-- Whether an object-selector limit applies to `gr`. -/
def objectLimitApplies (gr : GroupResource) (limit : InternalMatchLimitRule) : Bool :=
  limit.objectSelector.isSome &&
    !(!limit.resources.isEmpty && !isGRMatchedAPIResources gr limit.resources)

/-- The loop of `getObjectSelector` over the subsets, up to the own one: the
selectors of the subsets before it are negated. -/
def subsetsObjectSelector (subset : String) (gr : GroupResource) :
    List InternalSubsetLimit → Option LabelSelector → Option LabelSelector
  | [], sel => sel
  | subsetLimits :: rest, sel =>
    let isSelfSubset := decide (subsetLimits.subset = subset)
    let sel := subsetLimits.limits.foldl (fun sel limit =>
      if !objectLimitApplies gr limit then sel
      else if !isSelfSubset then mergeLabelSelector sel (negateLabelSelector limit.objectSelector)
      else mergeLabelSelector sel limit.objectSelector) sel
    if isSelfSubset then sel else subsetsObjectSelector subset gr rest sel

/-- `getObjectSelector`. -/
def getObjectSelector (ir : InternalRoute) (gr : GroupResource) : Option LabelSelector :=
  subsetsObjectSelector ir.subset gr ir.subsetLimits
    (ir.globalLimits.foldl (fun sel limit =>
      if !objectLimitApplies gr limit then sel
      else mergeLabelSelector sel limit.objectSelector) none)

end InternalRoute

namespace InternalSpec

variable (is : InternalSpec)

/-- `IsUserAgentMatch`. -/
def isUserAgentMatch (userAgent : String) : Bool :=
  if is.routeInternal.subsetDefaultOnlyUserAgents.contains userAgent then
    -- Only for default subset
    is.routeInternal.subset == ""
  else true

/-- `IsNamespaceMatch`. -/
def isNamespaceMatch (ns : String) (gr : GroupResource) : Bool :=
  match is.routeInternal.determineNamespaceSubset ns gr with
  | none => false
  | some subset => subset == AllSubsetPublic || subset == is.routeInternal.subset

/-- `GetObjectSelector`. -/
def getObjectSelector (gr : GroupResource) : Option LabelSelector :=
  is.routeInternal.getObjectSelector gr

/-- `GetMatchedSubsetEndpoint`: whether to ignore the request, whether to handle
it locally, and else the hosts to send it to. -/
def getMatchedSubsetEndpoint (ns : String) (gr : GroupResource) : Bool × Bool × List String :=
  match is.routeInternal.determineNamespaceSubset ns gr with
  | none => (true, false, [])
  | some subset =>
    if subset == AllSubsetPublic || subset == is.routeInternal.subset then (false, true, [])
    else (false, false, (is.proxySpecV1.endpoints.filter (·.subset == subset)).map (·.ip))

end InternalSpec

end CtrlMesh
