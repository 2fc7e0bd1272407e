import ControllerMesh.Framework.System
import ControllerMesh.Impl.InternalSpec

/-!
# Traffic policies

`proxy/filters/traffic`: a request to the API server goes through the circuit
breakers and rate limits of the policies of its application before the inner
handler gets it.

Any number of requests go through `trafficControlHandler.ServeHTTP` at a time,
and what they share are the rate controls: each access to one of them is a step
of its own. A request is a program counter in `ServeHTTP` and in
`rateControl.allow`, the stages it still has to visit and the releases it has
deferred. What is outside of the model is in the events: the policies a request
finds, what the token bucket says, and how the inner handler ends.
-/

namespace CtrlMesh.Traffic

open Framework

/-! ## Policies and rules -/

/-- The part of `request.RequestInfo` that rules are matched with. -/
structure RequestInfo where
  isResourceRequest : Bool
  path : String
  verb : String
  apiGroup : String
  namespaceName : String
  resource : String
  subresource : String
  deriving DecidableEq, Repr

structure ResourcePolicyRule where
  verbs : List String
  apiGroups : List String
  resources : List String
  clusterScope : Bool
  namespaces : List String
  deriving DecidableEq, Repr

structure NonResourcePolicyRule where
  verbs : List String
  nonResourceURLs : List String
  deriving DecidableEq, Repr

structure APIServerRules where
  resourceRules : List ResourcePolicyRule
  nonResourceRules : List NonResourcePolicyRule
  deriving DecidableEq, Repr

structure Bucket where
  qps : Int
  burst : Int
  deriving DecidableEq, Repr

structure ExponentialBackoff where
  baseDelayInMillisecond : Int
  maxDelayInMillisecond : Int
  continuouslyFailureTimes : Int
  deriving DecidableEq, Repr

/-- `TrafficRateLimitingPolicy`, with a `MaxInFlight` that is not negative. -/
structure RatePolicy where
  rules : APIServerRules
  maxInFlight : Option Nat
  bucket : Option Bucket
  exponentialBackoff : Option ExponentialBackoff
  deriving DecidableEq, Repr

/-- `TrafficCircuitBreaking`, without the rules for webhooks. -/
structure CircuitBreaking where
  apiServer : Option APIServerRules
  deriving DecidableEq, Repr

structure TrafficPolicy where
  name : String
  circuitBreaking : Option CircuitBreaking
  rateLimiting : Option (List RatePolicy)
  deriving DecidableEq, Repr

/-- `rsJoin`. -/
def rsJoin (requestResource requestSubresource : String) : String :=
  if requestSubresource ≠ "" then requestResource ++ "/" ++ requestSubresource else requestResource

/-- `matchesResourcePolicyRule`. -/
def matchesResourcePolicyRule (ri : RequestInfo) (rule : ResourcePolicyRule) : Bool :=
  containsString ri.verb rule.verbs "*" &&
    containsString (rsJoin ri.resource ri.subresource) rule.resources "*" &&
    containsString ri.apiGroup rule.apiGroups "*" &&
    if ri.namespaceName.isEmpty then rule.clusterScope
    else containsString ri.namespaceName rule.namespaces "*"

/-- One path of `matchPolicyRuleNonResourceURL`: the path itself, or all paths
below it, with or without a star at its end. -/
def matchesNonResourceURL (requestPath rulePath : String) : Bool :=
  if rulePath = "*" ∨ rulePath = requestPath then true
  else
    let rulePrefix := if ['*'].isSuffixOf rulePath.toList then rulePath.toList.dropLast
      else rulePath.toList
    let rulePrefix := if ['/'].isSuffixOf rulePrefix then rulePrefix else rulePrefix ++ ['/']
    rulePrefix.isPrefixOf requestPath.toList

/-- `matchesNonResourcePolicyRule`. -/
def matchesNonResourcePolicyRule (ri : RequestInfo) (rule : NonResourcePolicyRule) : Bool :=
  containsString ri.verb rule.verbs "*" && rule.nonResourceURLs.any (matchesNonResourceURL ri.path)

/-- `matchesAPIServerRules`. -/
def matchesAPIServerRules (ri : RequestInfo) (rules : APIServerRules) : Bool :=
  if ri.isResourceRequest then rules.resourceRules.any (matchesResourcePolicyRule ri)
  else rules.nonResourceRules.any (matchesNonResourcePolicyRule ri)

/-! ## Rate controls and requests -/

/-- `rateControl`: the policy it was made from and the tokens in its
`maxInFlightChan`, whose capacity is the policy's `MaxInFlight`. -/
structure RateControl where
  name : String
  policy : RatePolicy
  tokens : Nat
  deriving DecidableEq

/-- A step of the loop of `ServeHTTP` over the policies: the circuit breaker of a
policy, or one of its rate policies. -/
inductive Stage where
  | circuitBreaking (policyName : String) (breaking : Option CircuitBreaking)
  | ratePolicy (policyName : String) (policy : RatePolicy)
  deriving DecidableEq

/-- The stages in the order of the loop. -/
def TrafficPolicy.stages (policy : TrafficPolicy) : List Stage :=
  .circuitBreaking policy.name policy.circuitBreaking ::
    (policy.rateLimiting.getD []).map (.ratePolicy policy.name)

/-- What a request is answered with when it does not get to the inner handler. -/
structure HttpError where
  code : Nat
  msg : String
  retryAfter : Option Nat := none
  deriving DecidableEq, Repr

/-- `tooManyRequests`. -/
def tooManyRequests (delaySeconds : Nat) (msg : String) : HttpError :=
  ⟨429, msg, some (if delaySeconds ≤ 1 then 1 else delaySeconds)⟩

/-- The place in `allow`. -/
inductive AllowPc where
  | maxInFlight
  | bucket
  | exponentialBackoff
  deriving DecidableEq, Repr

/-- The place of a request. -/
inductive Pc where
  /-- In the loop over the policies. -/
  | visiting
  /-- In `allow` of the control with this hash; `acquired` says whether
  `maxInFlightDefer` is set. -/
  | allow (hash : String) (at_ : AllowPc) (acquired : Bool)
  /-- In the inner handler. -/
  | serving
  /-- After a return or a panic, with deferred functions to run. A control whose
  `allow` panicked with `maxInFlightDefer` set is `lost`: nobody has deferred the
  release. -/
  | unwinding (lost : Option String)
  | done (lost : Option String)
  deriving DecidableEq, Repr

structure Request where
  info : RequestInfo
  todo : List Stage
  rateHashes : StringSet
  /-- The controls whose tokens the deferred functions release, the last one
  deferred first. -/
  deferred : List String
  pc : Pc
  response : Option HttpError
  deriving DecidableEq

structure State where
  controls : StringMap RateControl
  requests : List Request
  deriving DecidableEq

inductive Event where
  /-- A request comes in. It finds these policies, or an error, and has a request
  info, or none; then its URI is in the answer. -/
  | start (policies : Except String (List TrafficPolicy)) (info : Except String RequestInfo)
  | visit (i : Nat)
  | acquire (i : Nat)
  /-- The bucket asks for a delay in nanoseconds. -/
  | reserve (i : Nat) (delay : Nat)
  | backoff (i : Nat)
  /-- The inner handler returns or panics. -/
  | served (i : Nat)
  | release (i : Nat)
  | finish (i : Nat)

section

variable (hashRatePolicy : String → RatePolicy → String) (formatDuration : Nat → String)

/-- A request that comes in. -/
def newRequest (policies : Except String (List TrafficPolicy)) (info : Except String RequestInfo) :
    Request :=
  let request (info : RequestInfo) (todo : List Stage) (pc : Pc) : Request :=
    ⟨info, todo, ∅, [], pc, none⟩
  let noInfo : RequestInfo := ⟨false, "", "", "", "", "", ""⟩
  match policies, info with
  | .error _, _ => request noInfo [] .serving
  | .ok [], _ => request noInfo [] .serving
  | .ok _, .error uri =>
    { request noInfo [] (.unwinding none) with
      response := some ⟨500, "Internal Server Error: " ++ uri, none⟩ }
  | .ok policies, .ok info => request info (policies.flatMap (·.stages)) .visiting

def State.setRequest (s : State) (i : Nat) (r : Request) : State :=
  { s with requests := s.requests.set i r }

/-- `LoadOrStore` of a new control. -/
def loadOrStore (controls : StringMap RateControl) (hash : String) (c : RateControl) :
    StringMap RateControl :=
  if controls.contains hash then controls else controls.insert hash c

/-- One step of the loop of `ServeHTTP`. -/
def State.visit (s : State) (i : Nat) (r : Request) : State :=
  match r.todo with
  | [] => s.setRequest i { r with pc := .serving }
  -- a policy without circuit breaking is dereferenced all the same
  | .circuitBreaking _ none :: _ => s.setRequest i { r with pc := .unwinding none }
  | .circuitBreaking _ (some ⟨none⟩) :: todo => s.setRequest i { r with todo := todo }
  | .circuitBreaking policyName (some ⟨some rules⟩) :: todo =>
    if matchesAPIServerRules r.info rules then
      s.setRequest i { r with
        pc := .unwinding none
        response := some ⟨417, "Circuit breaking by TrafficPolicy " ++ policyName, none⟩ }
    else s.setRequest i { r with todo := todo }
  | .ratePolicy policyName policy :: todo =>
    let hash := hashRatePolicy policyName policy
    if !matchesAPIServerRules r.info policy.rules then s.setRequest i { r with todo := todo }
    else if r.rateHashes.contains hash then s.setRequest i { r with todo := todo }
    else
      { controls := loadOrStore s.controls hash ⟨policyName, policy, 0⟩
        requests := s.requests.set i { r with
          todo := todo
          rateHashes := r.rateHashes.insert hash
          pc := .allow hash .maxInFlight false } }

/-- The `select` of `allow`. -/
def State.acquire (s : State) (i : Nat) (r : Request) (hash : String) (c : RateControl) : State :=
  match c.policy.maxInFlight with
  | none => s.setRequest i { r with pc := .allow hash .bucket false }
  | some maxInFlight =>
    if c.tokens < maxInFlight then
      { controls := s.controls.insert hash { c with tokens := c.tokens + 1 }
        requests := s.requests.set i { r with pc := .allow hash .bucket true } }
    else
      s.setRequest i { r with
        pc := .unwinding none
        response := some (tooManyRequests 1 ("rate limiting by TrafficPolicy " ++ c.name ++
          " maxInFlight " ++ toString maxInFlight)) }

/-- `allow` has returned: `ServeHTTP` defers the release if there is one. -/
def Request.defer (r : Request) (hash : String) (acquired : Bool) : Request :=
  if acquired then { r with deferred := hash :: r.deferred } else r

/-- The token bucket of `allow`. -/
def State.reserve (s : State) (i : Nat) (r : Request) (hash : String) (acquired : Bool)
    (c : RateControl) (delay : Nat) : State :=
  match c.policy.bucket with
  | none => s.setRequest i { r with pc := .allow hash .exponentialBackoff acquired }
  | some bucket =>
    if 0 < delay then
      s.setRequest i { r.defer hash acquired with
        pc := .unwinding none
        response := some (tooManyRequests (delay / 1000000000 + 1) ("rate limiting by TrafficPolicy " ++
          c.name ++ " bucket(" ++ toString bucket.qps ++ "," ++ toString bucket.burst ++
            "), delay " ++ formatDuration delay)) }
    else s.setRequest i { r with pc := .allow hash .exponentialBackoff acquired }

/-- The exponential backoff of `allow`, and its return. Failures are looked up in
a map by the request info, a struct with a slice in it, which is no key of a map:
the lookup panics, whatever is in the map. -/
def State.backoff (s : State) (i : Nat) (r : Request) (hash : String) (acquired : Bool)
    (c : RateControl) : State :=
  match c.policy.exponentialBackoff with
  | none => s.setRequest i { r.defer hash acquired with pc := .visiting }
  | some _ => s.setRequest i { r with pc := .unwinding (if acquired then some hash else none) }

/-- One step of one of the requests. A release waits until there is a token in
the channel. -/
def step (s : State) : Event → Option State
  | .start policies info => some { s with requests := s.requests ++ [newRequest policies info] }
  | .visit i => do
    let r ← s.requests[i]?
    guard (r.pc = .visiting)
    return s.visit hashRatePolicy i r
  | .acquire i => do
    let r ← s.requests[i]?
    let .allow hash .maxInFlight false := r.pc | none
    let c ← s.controls[hash]?
    return s.acquire i r hash c
  | .reserve i delay => do
    let r ← s.requests[i]?
    let .allow hash .bucket acquired := r.pc | none
    let c ← s.controls[hash]?
    return s.reserve formatDuration i r hash acquired c delay
  | .backoff i => do
    let r ← s.requests[i]?
    let .allow hash .exponentialBackoff acquired := r.pc | none
    let c ← s.controls[hash]?
    return s.backoff i r hash acquired c
  | .served i => do
    let r ← s.requests[i]?
    guard (r.pc = .serving)
    return s.setRequest i { r with pc := .unwinding none }
  | .release i => do
    let r ← s.requests[i]?
    let .unwinding _ := r.pc | none
    let hash :: deferred := r.deferred | none
    let c ← s.controls[hash]?
    guard (0 < c.tokens)
    return {
      controls := s.controls.insert hash { c with tokens := c.tokens - 1 }
      requests := s.requests.set i { r with deferred := deferred } }
  | .finish i => do
    let r ← s.requests[i]?
    let .unwinding lost := r.pc | none
    guard (r.deferred = [])
    return s.setRequest i { r with pc := .done lost }

/-- The requests of a handler that has just been created. -/
def system : System State Event := ⟨⟨∅, []⟩, step hashRatePolicy formatDuration⟩

end

end CtrlMesh.Traffic
