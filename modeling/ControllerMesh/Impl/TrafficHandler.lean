import ControllerMesh.Framework.TokenBucket
import ControllerMesh.Impl.Traffic

/-!
# Traffic control over time

`proxy/filters/traffic` once more, request by request and with the times at which
they come: `Impl.Traffic` interleaves the requests and leaves open what the token
buckets and the backoffs say; here `ServeHTTP` is one step up to the inner handler
and one from there on, and every answer is computed. Policies are those that the
API server admits: `MaxInFlight` and the numbers of a bucket or a backoff may be
negative, and everything optional may be missing.

A panic ends the request: its deferred functions run, and there is no answer.
-/

namespace CtrlMesh.TrafficHandler

open Framework

open Traffic (APIServerRules Bucket ExponentialBackoff CircuitBreaking HttpError
  matchesAPIServerRules tooManyRequests)

/-! ## Policies -/

structure TargetVirtualApp where
  name : String
  specificSubsets : List String
  deriving DecidableEq, Repr

/-- `TrafficRateLimitingPolicy`. -/
structure RatePolicy where
  rules : APIServerRules
  maxInFlight : Option Int
  bucket : Option Bucket
  exponentialBackoff : Option ExponentialBackoff
  deriving DecidableEq, Repr

structure TrafficPolicy where
  name : String
  targetVirtualApps : List TargetVirtualApp
  circuitBreaking : Option CircuitBreaking
  rateLimiting : Option (List RatePolicy)
  deriving DecidableEq, Repr

/-- `request.RequestInfo` with the fields that no rule reads. -/
structure FullRequestInfo extends Traffic.RequestInfo where
  apiPrefix : String
  apiVersion : String
  name : String
  parts : List String
  deriving DecidableEq, Repr

/-- `trafficControlHandler`, with what it gets from elsewhere. -/
structure Handler where
  vAppName : String
  subset : String
  /-- `hashRatePolicy`: the name and the MD5 sum of the policy as JSON. -/
  hashRatePolicy : String → RatePolicy → String
  /-- A duration as `%v` prints it. -/
  formatDuration : Seconds → String
  /-- Whether a map takes a request info as a key, or panics. In Go it panics:
  `Parts` is a slice. -/
  comparable : Bool

/-! ## Channels -/

/-- A buffered `chan bool`. -/
@[ext]
structure Chan where
  cap : Nat
  len : Nat
  len_le : len ≤ cap

namespace Chan

instance : DecidableEq Chan := fun _ _ => decidable_of_iff' _ Chan.ext_iff

/-- `make(chan bool, n)`; it panics if `n` is negative. -/
def make (n : Int) : Option Chan := if n < 0 then none else some ⟨n.toNat, 0, Nat.zero_le _⟩

/-- A send in a `select` with a default case. -/
def send (ch : Chan) : Option Chan :=
  if h : ch.len < ch.cap then some ⟨ch.cap, ch.len + 1, h⟩ else none

theorem receive_le (ch : Chan) : ch.len - 1 ≤ ch.cap := (Nat.sub_le _ _).trans ch.len_le

/-- A receive; it waits if there is nothing in the channel. -/
def receive (ch : Chan) : Option Chan :=
  if 0 < ch.len then some ⟨ch.cap, ch.len - 1, ch.receive_le⟩ else none

end Chan

/-! ## Exponential backoff -/

/-- `rateExponentialFailure`. -/
structure Failure where
  failureTimes : Int
  nextTime : Option Seconds
  deriving DecidableEq, Repr

structure RateExponentialBackoff where
  spec : ExponentialBackoff
  failures : List (FullRequestInfo × Failure)
  deriving DecidableEq, Repr

namespace RateExponentialBackoff

def load (eb : RateExponentialBackoff) (item : FullRequestInfo) : Option Failure :=
  (eb.failures.find? (·.1 = item)).map (·.2)

/-- `succeed`. -/
def succeed (eb : RateExponentialBackoff) (item : FullRequestInfo) : RateExponentialBackoff :=
  { eb with failures := eb.failures.filter (·.1 ≠ item) }

def store (eb : RateExponentialBackoff) (item : FullRequestInfo) (ef : Failure) :
    RateExponentialBackoff :=
  { eb with failures := (item, ef) :: eb.failures.filter (·.1 ≠ item) }

/-- `delay`: the delay, and whether there is an entry; `none` if the lookup panics. -/
def delay (comparable : Bool) (eb : RateExponentialBackoff) (now : Seconds)
    (item : FullRequestInfo) : Option ((Seconds × Bool) × RateExponentialBackoff) :=
  if !comparable then none
  else
    match eb.load item with
    | none => some ((0, false), eb)
    | some ef =>
      match ef.nextTime with
      | none => some ((0, true), eb)
      | some nextTime =>
        if nextTime - now < 0 then some ((0, true), eb.store item { ef with nextTime := none })
        else some ((nextTime - now, true), eb)

/-- `time.Duration` of a `float64`, where `none` is not a number. Out of range it is
the least integer. -/
def durationOfFloat : Option Int → Int
  | none => -2 ^ 63
  | some x => if -2 ^ 63 ≤ x ∧ x < 2 ^ 63 then x else -2 ^ 63

/-- `backoff` of `failed`. The product is exact until it is infinite, from where on it
compares as the exact one does; but `math.Pow(2, 1024)` is infinite, and 0 times it is
not a number. -/
def backoffFloat (spec : ExponentialBackoff) (delta : Int) : Option Int :=
  if spec.baseDelayInMillisecond = 0 ∧ 1024 ≤ delta - 1 then none
  else some (spec.baseDelayInMillisecond * 2 ^ (delta - 1).toNat)

/-- `backoff > math.MaxInt64`, where the constant is 2^63 as a `float64`. -/
def exceedsMaxInt64 (backoff : Option Int) : Bool := backoff.any (2 ^ 63 < ·)

/-- The nanoseconds that `failed` adds to the time. The base delay is not converted
from milliseconds. -/
def backoffNanoseconds (spec : ExponentialBackoff) (delta : Int) : Int :=
  let backoff := backoffFloat spec delta
  let maxBackOff := spec.maxDelayInMillisecond * 10 ^ 6
  if exceedsMaxInt64 backoff then maxBackOff
  else if maxBackOff < durationOfFloat backoff then maxBackOff
  else durationOfFloat backoff

/-- `failed`, with the arithmetic of `int32`. -/
def failed (eb : RateExponentialBackoff) (now : Seconds) (item : FullRequestInfo) :
    RateExponentialBackoff :=
  let ef := (eb.load item).getD ⟨0, none⟩
  let ef := if ef.failureTimes < 2 ^ 31 - 1 then { ef with failureTimes := ef.failureTimes + 1 }
    else ef
  let delta := (ef.failureTimes - eb.spec.continuouslyFailureTimes).bmod (2 ^ 32)
  if delta ≤ 0 then eb.store item ef
  else
    eb.store item
      { ef with nextTime := some (now + (backoffNanoseconds eb.spec delta : Seconds) / 10 ^ 9) }

end RateExponentialBackoff

/-! ## Rate controls -/

/-- What `rateControl.once` makes. -/
structure Limits where
  maxInFlightChan : Option Chan
  bucket : Option Limiter
  exponentialBackoff : Option RateExponentialBackoff
  deriving DecidableEq

/-- The channel of a policy, if it has one; `none` if `make` panics. -/
def RatePolicy.makeChan (policy : RatePolicy) : Option (Option Chan) :=
  match policy.maxInFlight with
  | none => some none
  | some n => (Chan.make n).map some

/-- The function of `once`; `none` if it panics. -/
def Limits.make (policy : RatePolicy) : Option Limits :=
  policy.makeChan.map fun maxInFlightChan =>
    { maxInFlightChan := maxInFlightChan
      bucket := policy.bucket.map fun b => Limiter.new b.qps b.burst
      exponentialBackoff := policy.exponentialBackoff.map fun spec => ⟨spec, []⟩ }

/-- `rateControl`; `limits` is `none` until `once` has run. -/
structure RateControl where
  name : String
  policy : RatePolicy
  limits : Option Limits
  deriving DecidableEq

/-- How `allow` ends: with a panic, or with its deferred function, which releases
the token and records the status, and an error. -/
inductive Allowed where
  | panicked
  | returned (releases records : Bool) (err : Option HttpError)
  deriving DecidableEq

namespace Limits

/-- The `select` on the channel: whether a token was put into it; `none` if it is
full. -/
def acquire (ls : Limits) : Option (Bool × Limits) :=
  match ls.maxInFlightChan with
  | none => some (false, ls)
  | some ch => ch.send.map fun ch => (true, { ls with maxInFlightChan := some ch })

/-- The delay of the bucket. -/
def reserve (ls : Limits) (now : Seconds) : Seconds × Limits :=
  match ls.bucket with
  | none => (0, ls)
  | some lim => ((lim.reserve now).1, { ls with bucket := some (lim.reserve now).2 })

/-- The delay of the backoff; `none` if the lookup panics. -/
def delay (comparable : Bool) (ls : Limits) (now : Seconds) (item : FullRequestInfo) :
    Option ((Seconds × Bool) × Limits) :=
  match ls.exponentialBackoff with
  | none => some ((0, false), ls)
  | some eb => (eb.delay comparable now item).map fun p =>
      (p.1, { ls with exponentialBackoff := some p.2 })

/-- `maxInFlightDefer`; `none` if it waits. -/
def release (ls : Limits) : Option Limits :=
  ls.maxInFlightChan.bind fun ch => ch.receive.map fun ch => { ls with maxInFlightChan := some ch }

/-- `exponentialBackoffDefer`. -/
def record (ls : Limits) (now : Seconds) (item : FullRequestInfo) (status : Int) : Limits :=
  if status = 0 then ls
  else
    { ls with
      exponentialBackoff := ls.exponentialBackoff.map fun eb =>
        if 400 ≤ status then eb.failed now item else eb.succeed item }

end Limits

section

variable (h : Handler)

/-- `int(delay/time.Second) + 1`. -/
def retryAfter (delay : Seconds) : Nat := delay.floor.toNat + 1

namespace RateControl

variable (c : RateControl)

def tooManyInFlight : HttpError :=
  tooManyRequests 1 ("rate limiting by TrafficPolicy " ++ c.name ++ " maxInFlight " ++
    toString (c.policy.maxInFlight.getD 0))

def bucketExceeded (delay : Seconds) : HttpError :=
  let bucket := c.policy.bucket.getD ⟨0, 0⟩
  tooManyRequests (retryAfter delay) ("rate limiting by TrafficPolicy " ++ c.name ++ " bucket(" ++
    toString bucket.qps ++ "," ++ toString bucket.burst ++ "), delay " ++ h.formatDuration delay)

def backedOff (delay : Seconds) : HttpError :=
  tooManyRequests (retryAfter delay) ("rate limiting by TrafficPolicy " ++ c.name ++
    " exponential backoff, delay " ++ h.formatDuration delay)

/-- `allow` after `once`. -/
def allowWith (now : Seconds) (info : FullRequestInfo) (ls : Limits) : Allowed × Limits :=
  match ls.acquire with
  | none => (.returned false false (some c.tooManyInFlight), ls)
  | some (acquired, ls) =>
    match ls.reserve now with
    | (delay, ls) =>
      if 0 < delay then (.returned acquired false (some (c.bucketExceeded h delay)), ls)
      else
        match ls.delay h.comparable now info with
        | none => (.panicked, ls)
        | some ((delay, ok), ls) =>
          if 0 < delay then (.returned acquired ok (some (c.backedOff h delay)), ls)
          else (.returned acquired ok none, ls)

/-- `allow`. A `once` that has panicked is done all the same, and leaves no limits. -/
def allow (now : Seconds) (info : FullRequestInfo) : Allowed × RateControl :=
  match c.limits with
  | some ls => ((c.allowWith h now info ls).1, { c with limits := (c.allowWith h now info ls).2 })
  | none =>
    match Limits.make c.policy with
    | none => (.panicked, { c with limits := some ⟨none, none, none⟩ })
    | some ls => ((c.allowWith h now info ls).1, { c with limits := (c.allowWith h now info ls).2 })

end RateControl

/-! ## The loop over the policies -/

/-- A step of the loop over the policies. -/
inductive Stage where
  | circuitBreaking (policyName : String) (breaking : Option CircuitBreaking)
  | ratePolicy (policyName : String) (policy : RatePolicy)
  deriving DecidableEq

def TrafficPolicy.stages (policy : TrafficPolicy) : List Stage :=
  .circuitBreaking policy.name policy.circuitBreaking ::
    (policy.rateLimiting.getD []).map (.ratePolicy policy.name)

/-- What becomes of a request. -/
inductive Outcome where
  | forwarded
  | answered (err : HttpError)
  | panicked
  deriving DecidableEq

/-- A deferred call of the function that `allow` returned, with its argument. -/
structure Deferred where
  hash : String
  item : FullRequestInfo
  releases : Bool
  records : Bool
  status : Int
  deriving DecidableEq

/-- The variables of the loop, with the calls deferred last at the front. -/
structure Loop where
  controls : StringMap RateControl
  rateHashes : StringSet
  deferred : List Deferred
  deriving DecidableEq

/-- What `LoadOrStore` returns. -/
def loadOrStore (controls : StringMap RateControl) (policyName : String) (policy : RatePolicy) :
    RateControl :=
  (controls[h.hashRatePolicy policyName policy]?).getD ⟨policyName, policy, none⟩

/-- `defer deferFunc(...)`. The argument is evaluated at once, when nothing has been
written to the wrapper and its status is 0. -/
def Loop.defer (l : Loop) (hash : String) (item : FullRequestInfo) (releases records : Bool) : Loop :=
  if releases || records then
    { l with deferred := ⟨hash, item, releases, records, 0⟩ :: l.deferred }
  else l

/-- One step of the loop, and what it ends the request with, if it does. -/
def visit (now : Seconds) (info : FullRequestInfo) (l : Loop) : Stage → Option Outcome × Loop
  -- a policy without circuit breaking is dereferenced all the same
  | .circuitBreaking _ none => (some .panicked, l)
  | .circuitBreaking _ (some ⟨none⟩) => (none, l)
  | .circuitBreaking policyName (some ⟨some rules⟩) =>
    if matchesAPIServerRules info.toRequestInfo rules then
      (some (.answered ⟨417, "Circuit breaking by TrafficPolicy " ++ policyName, none⟩), l)
    else (none, l)
  | .ratePolicy policyName policy =>
    let hash := h.hashRatePolicy policyName policy
    if !matchesAPIServerRules info.toRequestInfo policy.rules then (none, l)
    else if l.rateHashes.contains hash then (none, l)
    else
      let result := (loadOrStore h l.controls policyName policy).allow h now info
      let l := { l with
        controls := l.controls.insert hash result.2
        rateHashes := l.rateHashes.insert hash }
      match result.1 with
      | .panicked => (some .panicked, l)
      | .returned releases records err => (err.map .answered, l.defer hash info releases records)

/-- The loop of `ServeHTTP`. -/
def visitAll (now : Seconds) (info : FullRequestInfo) : List Stage → Loop → Outcome × Loop
  | [], l => (.forwarded, l)
  | stage :: stages, l =>
    match visit h now info l stage with
    | (none, l) => visitAll now info stages l
    | (some outcome, l) => (outcome, l)

/-! ## Requests -/

/-- `cachedPolicies` and `cacheExpirationTime`, which is `none` for the zero time. -/
structure PolicyCache where
  policies : List TrafficPolicy
  expiration : Option Seconds
  deriving DecidableEq

/-- Whether a policy is for this subset. -/
def Handler.targets (policy : TrafficPolicy) : Bool :=
  policy.targetVirtualApps.any fun target =>
    target.name == h.vAppName &&
      (target.specificSubsets.isEmpty || containsString h.subset target.specificSubsets "*")

/-- `getTrafficPolicies`. -/
def Handler.getTrafficPolicies (now : Seconds) (listed : Except String (List TrafficPolicy))
    (cache : PolicyCache) : Except String (List TrafficPolicy) × PolicyCache :=
  if cache.expiration.any (now < ·) then (.ok cache.policies, cache)
  else
    match listed with
    | .error err => (.error err, cache)
    | .ok policies => (.ok (policies.filter h.targets), ⟨policies.filter h.targets, some (now + 3)⟩)

/-- A request in the inner handler. -/
structure Serving where
  info : Except String FullRequestInfo
  rateHashes : StringSet
  deferred : List Deferred
  deriving DecidableEq

/-- A response of the inner handler. -/
structure Response where
  info : FullRequestInfo
  /-- The controls that the request had passed. -/
  passed : StringSet
  status : Int
  time : Seconds
  deriving DecidableEq

/-- The handler, and what has happened so far: the outcomes of all requests, and the
responses to those that were forwarded. -/
structure State where
  controls : StringMap RateControl
  cache : PolicyCache
  /-- The requests that were forwarded; `none` for one that has returned. -/
  serving : List (Option Serving)
  clock : Seconds
  outcomes : List Outcome
  responses : List Response
  deriving DecidableEq

/-- A deferred call; `none` if it waits for a token. -/
def Deferred.run (d : Deferred) (now : Seconds) (controls : StringMap RateControl) :
    Option (StringMap RateControl) := do
  let c ← controls[d.hash]?
  let ls ← c.limits
  let ls ← (if d.releases then ls.release else some ls)
  let ls := if d.records then ls.record now d.item d.status else ls
  return controls.insert d.hash { c with limits := some ls }

/-- The deferred calls of a request that returns. -/
def runDeferred (now : Seconds) (deferred : List Deferred) (controls : StringMap RateControl) :
    Option (StringMap RateControl) :=
  deferred.foldlM (fun controls d => d.run now controls) controls

/-- A request goes on to the inner handler. -/
def State.forward (s : State) (info : Except String FullRequestInfo) (l : Loop) : State :=
  { s with
    controls := l.controls
    serving := s.serving ++ [some ⟨info, l.rateHashes, l.deferred⟩] }

/-- `ServeHTTP` up to the inner handler, or to its end; `none` if it does not come to
its end. -/
def Handler.serveHTTP (now : Seconds) (listed : Except String (List TrafficPolicy))
    (info : Except String FullRequestInfo) (s : State) : Option (Outcome × State) :=
  let found := h.getTrafficPolicies now listed s.cache
  let s := { s with cache := found.2 }
  match found.1, info with
  | .error _, info => some (.forwarded, s.forward info ⟨s.controls, ∅, []⟩)
  | .ok [], info => some (.forwarded, s.forward info ⟨s.controls, ∅, []⟩)
  | .ok _, .error uri =>
    some (.answered ⟨500, "Internal Server Error: " ++ uri, none⟩, s)
  | .ok policies, .ok info =>
    match visitAll h now info (policies.flatMap (·.stages)) ⟨s.controls, ∅, []⟩ with
    | (.forwarded, l) => some (.forwarded, s.forward (.ok info) l)
    | (outcome, l) =>
      (runDeferred now l.deferred l.controls).map fun controls =>
        (outcome, { s with controls := controls })

inductive Event where
  /-- A request comes; the lister has these policies, and the context a request info,
  or the URI for the answer. -/
  | arrive (now : Seconds) (listed : Except String (List TrafficPolicy))
      (info : Except String FullRequestInfo)
  /-- The inner handler returns from a request, or panics, and has written the
  status. -/
  | served (now : Seconds) (i : Nat) (status : Int)

/-- The response to a request with a request info. -/
def Serving.response (r : Serving) (status : Int) (now : Seconds) : List Response :=
  match r.info with
  | .error _ => []
  | .ok info => [⟨info, r.rateHashes, status, now⟩]

/-- One event. Time does not go back. -/
def step (s : State) : Event → Option State
  | .arrive now listed info => do
    guard (s.clock ≤ now)
    let (outcome, s') ← h.serveHTTP now listed info s
    return { s' with clock := now, outcomes := s.outcomes ++ [outcome] }
  | .served now i status => do
    guard (s.clock ≤ now)
    let some r ← s.serving[i]? | none
    let controls ← runDeferred now r.deferred s.controls
    return { s with
      controls := controls
      serving := s.serving.set i none
      clock := now
      responses := s.responses ++ r.response status now }

/-- A handler that has just been created. -/
def system : System State Event := ⟨⟨∅, ⟨[], none⟩, [], 0, [], []⟩, step h⟩

end

end CtrlMesh.TrafficHandler
