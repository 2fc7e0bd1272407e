import ControllerMesh.Impl.TrafficHandler

/-!
# What exponential backoff is for

After more than `ContinuouslyFailureTimes` responses in a row with a status of 400
or more, the next request like those has to wait: the base delay after the first of
them, twice as long after each further one, up to the maximum. Delays are in
milliseconds.
-/

namespace CtrlMesh.TrafficHandler

open Framework

open Traffic (ExponentialBackoff)

/-- How many responses in a row were failures, and when the last one was. -/
structure FailureRecord where
  failures : Nat
  lastFailure : Seconds
  deriving DecidableEq, Repr

namespace FailureRecord

def next (r : FailureRecord) (response : Response) : FailureRecord :=
  if 400 ≤ response.status then ⟨r.failures + 1, response.time⟩ else ⟨0, r.lastFailure⟩

/-- The record of responses in their order. -/
def ofResponses (responses : List Response) : FailureRecord := responses.foldl next ⟨0, 0⟩

end FailureRecord

/-- The responses to requests like this one that had passed the control. -/
def State.responsesTo (s : State) (hash : String) (info : FullRequestInfo) : List Response :=
  s.responses.filter fun r => r.info = info ∧ r.passed.contains hash

def waitMilliseconds (spec : ExponentialBackoff) (failures : Nat) : Int :=
  min (spec.baseDelayInMillisecond * 2 ^ (failures - spec.continuouslyFailureTimes - 1).toNat)
    spec.maxDelayInMillisecond

/-- A request that comes now has to wait. -/
def Due (spec : ExponentialBackoff) (r : FailureRecord) (now : Seconds) : Prop :=
  spec.continuouslyFailureTimes < r.failures ∧
    now < r.lastFailure + (waitMilliseconds spec r.failures : Seconds) / 10 ^ 3

instance (spec : ExponentialBackoff) (r : FailureRecord) (now : Seconds) :
    Decidable (Due spec r now) :=
  inferInstanceAs (Decidable (_ ∧ _))

/-- Delays and numbers that are not negative. -/
def NonnegBackoff (spec : ExponentialBackoff) : Prop :=
  0 ≤ spec.baseDelayInMillisecond ∧ 0 ≤ spec.maxDelayInMillisecond ∧
    0 ≤ spec.continuouslyFailureTimes

end CtrlMesh.TrafficHandler
