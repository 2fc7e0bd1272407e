import ControllerMesh.Impl.Selector

/-!
# VirtualApps and their validation

`apis/ctrlmesh/v1alpha1/virtualapp_types.go` and the checks of
`webhook/virtualapp/virtualapp_validating_handler.go`. A selector that the
source keeps as a pointer is an option, and so is `Resources` of a match limit
selector, which `validate` compares with nil.

Parsing a label selector and compiling a regular expression are library
functions, parameters here (`Lib`).
-/

namespace CtrlMesh

open Framework

/-- Library functions that the server and its webhook call. -/
structure Lib where
  /-- `metav1.LabelSelectorAsSelector`. -/
  labelSelectorAsSelector : Option LabelSelector → Except String Selector
  /-- `regexp.Compile`, with `MatchString` of what it returns. -/
  regexpCompile : String → Except String (String → Bool)

structure APIGroupResource where
  apiGroups : List String
  resources : List String
  deriving DecidableEq, Repr

structure MatchLimitSelector where
  namespaceSelector : Option LabelSelector := none
  objectSelector : Option LabelSelector := none
  namespaceRegex : Option String := none
  resources : Option (List APIGroupResource) := none
  deriving DecidableEq

structure VirtualAppRouteSubRule where
  name : String
  matchLimits : List MatchLimitSelector
  deriving DecidableEq

structure VirtualAppRoute where
  globalLimits : List MatchLimitSelector := []
  subRules : List VirtualAppRouteSubRule := []
  subsetPublicResources : List APIGroupResource := []
  subsetDefaultOnlyUserAgents : List String := []
  deriving DecidableEq

structure VirtualAppSubset where
  name : String
  labels : StringMap String
  routeRules : List String
  deriving DecidableEq

structure VirtualAppControllerConfiguration where
  leaderElectionName : String
  deriving DecidableEq, Repr

structure VirtualAppWebhookConfiguration where
  certDir : String
  port : Int
  deriving DecidableEq, Repr

/-- `RestConfigOverrides` is for the proxy's start and not read here. -/
structure VirtualAppConfiguration where
  controller : Option VirtualAppControllerConfiguration
  webhook : Option VirtualAppWebhookConfiguration
  deriving DecidableEq, Repr

/-- A `VirtualApp`, by its name and the fields of its spec. -/
structure VirtualApp where
  name : String
  selector : Option LabelSelector
  configuration : Option VirtualAppConfiguration
  route : Option VirtualAppRoute
  subsets : List VirtualAppSubset
  deriving DecidableEq

/-! ## Validation -/

/-- How `validate` fails: with an error, or by following a nil pointer. -/
inductive ValidateFailure where
  | error (msg : String)
  | nilPointer
  deriving DecidableEq, Repr

abbrev Validate := Except ValidateFailure

def invalid {α : Type} (msg : String) : Validate α := .error (.error msg)

/-- `Selector.Empty`. -/
def Selector.isEmpty : Selector → Bool
  | nothing => false
  | requirements rs => rs.isEmpty

/-- Whether `Selector.String` is empty: it is for a selector of nothing, and
for one without requirements (their keys are not empty). -/
def Selector.isStringEmpty : Selector → Bool
  | nothing => true
  | requirements rs => rs.isEmpty

section

variable (lib : Lib)

/-- The switch of `validateMatchLimitSelector`: the first selector that is set
must parse. -/
def validateMatchLimitKind (m : MatchLimitSelector) : Validate Unit :=
  match m.namespaceSelector, m.namespaceRegex, m.objectSelector with
  | some sel, _, _ =>
    match lib.labelSelectorAsSelector (some sel) with
    | .error err => invalid ("parse namespaceSelector error: " ++ err)
    | .ok _ => .ok ()
  | none, some regex, _ =>
    match lib.regexpCompile regex with
    | .error err => invalid ("parse namespaceRegex error: " ++ err)
    | .ok _ => .ok ()
  | none, none, some sel =>
    match lib.labelSelectorAsSelector (some sel) with
    | .error err => invalid ("parse ObjectSelector error: " ++ err)
    | .ok _ => .ok ()
  | none, none, none => invalid "empty match limit selector"

/-- `validateMatchLimitSelector`. -/
def validateMatchLimitSelector (m : MatchLimitSelector) : Validate Unit := do
  validateMatchLimitKind lib m
  if (m.namespaceSelector.isSome && m.namespaceRegex.isSome) ||
      (m.objectSelector.isSome && m.namespaceRegex.isSome) ||
      (m.namespaceSelector.isSome && m.objectSelector.isSome) then
    invalid "invalid match limit selector"
  else if m.objectSelector.isSome && m.resources.isNone then
    invalid "invalid object selector, no resource specified"
  else .ok ()

/-- The loop over match limit selectors, with what is added to an error. -/
def validateMatchLimits (suffix : String) : List MatchLimitSelector → Validate Unit
  | [] => .ok ()
  | m :: ms =>
    match validateMatchLimitSelector lib m with
    | .error (.error err) => invalid (err ++ suffix)
    | .error .nilPointer => .error .nilPointer
    | .ok () => validateMatchLimits suffix ms

/-- The loop over the sub rules: the names seen, if all are valid. -/
def validateSubRules : List VirtualAppRouteSubRule → StringSet → Validate StringSet
  | [], subRules => .ok subRules
  | r :: rs, subRules =>
    if r.name = "" then invalid "empty subRule name"
    else if subRules.contains r.name then invalid ("duplicated " ++ r.name ++ " in subRules")
    else if r.matchLimits.isEmpty then invalid ("no match defined in subRule " ++ r.name)
    else
      match validateMatchLimits lib (" in subRule " ++ r.name) r.matchLimits with
      | .error e => .error e
      | .ok () => validateSubRules rs (subRules.insert r.name)

/-- The loop over the rules of a subset: the rules used, if all are valid. -/
def validateRouteRules (subset : String) (subRules : StringSet) :
    List String → StringSet → Validate StringSet
  | [], usedRules => .ok usedRules
  | name :: names, usedRules =>
    if !subRules.contains name then invalid ("not found rule " ++ name ++ " in subset " ++ subset)
    else if usedRules.contains name then
      invalid ("rule " ++ name ++ " in subset " ++ subset ++ " has been used by front subset")
    else validateRouteRules subset subRules names (usedRules.insert name)

/-- The loop over the subsets. -/
def validateSubsets (subRules : StringSet) :
    List VirtualAppSubset → StringSet → StringSet → Validate Unit
  | [], _, _ => .ok ()
  | s :: ss, subsets, usedRules =>
    if s.name = "" then invalid "empty subset name"
    else if subsets.contains s.name then invalid ("duplicated " ++ s.name ++ " in subsets")
    else if s.labels.isEmpty then invalid ("no labels defined in subset " ++ s.name)
    else if s.routeRules.isEmpty then invalid ("no routeRules defined in subset " ++ s.name)
    else
      match validateRouteRules s.name subRules s.routeRules usedRules with
      | .error e => .error e
      | .ok usedRules => validateSubsets subRules ss (subsets.insert s.name) usedRules

/-- The check of the pod selector. -/
def validateSelector (selector : Option LabelSelector) : Validate Unit :=
  match lib.labelSelectorAsSelector selector with
  | .error err => invalid ("invalid selector: " ++ err)
  | .ok selector =>
    if selector.isEmpty || selector.isStringEmpty then
      invalid "invalid selector can not be empty"
    else .ok ()

/-- The checks of the configuration, which is not nil. -/
def validateConfiguration (conf : VirtualAppConfiguration) (hasSubsets : Bool) :
    Validate Unit :=
  if hasSubsets && conf.controller.isNone && conf.webhook.isNone then
    invalid "must set controller or webhook in configuration, for subsets defined"
  else if conf.controller.any (·.leaderElectionName = "") then
    invalid "leaderElectionName for controller can not be empty"
  else if conf.webhook.any (·.certDir = "") then invalid "certDir for webhook can not be empty"
  else if conf.webhook.any (·.port ≤ 0) then invalid "port for webhook must be bigger than 0"
  else .ok ()

/-- The checks of the route: the names of its rules. -/
def validateRoute : Option VirtualAppRoute → Validate StringSet
  | none => .ok ∅
  | some route => do
    validateMatchLimits lib " in globalLimits" route.globalLimits
    validateSubRules lib route.subRules ∅

/-- `validate`. -/
def validate (obj : VirtualApp) : Validate Unit := do
  validateSelector lib obj.selector
  match obj.configuration with
  | none => .error .nilPointer
  | some conf =>
    validateConfiguration conf (!obj.subsets.isEmpty)
    let subRules ← validateRoute lib obj.route
    validateSubsets subRules obj.subsets ∅ ∅

end

end CtrlMesh
