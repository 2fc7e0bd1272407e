import ControllerMesh.Impl.TrafficHandler

/-!
# Token buckets that ignore rejected requests

What a token bucket is for: a request that is admitted takes a token, and one that
is rejected costs nothing. The ideal handler does all that the handler does, and
puts the token buckets back after a request that it has rejected.
-/

namespace CtrlMesh.TrafficHandler

open Framework

/-- The bucket of a control; before `once` has run, the one that it makes. -/
def RateControl.bucketOf (c : RateControl) : Option Limiter :=
  match c.limits with
  | some ls => ls.bucket
  | none => (Limits.make c.policy).bind (·.bucket)

/-- The control that was there before, or a new one. -/
def formerControl (old : StringMap RateControl) (hash : String) (c : RateControl) : RateControl :=
  (old[hash]?).getD ⟨c.name, c.policy, none⟩

/-- The controls with the buckets that they had in `old`. -/
def restoreBuckets (old new : StringMap RateControl) : StringMap RateControl :=
  new.map fun hash c =>
    { c with limits := c.limits.map fun ls =>
      { ls with bucket := (formerControl old hash c).bucketOf } }

/-- The request was answered with 429 or 417. -/
def Outcome.rejected : Outcome → Bool
  | answered err => err.code == 429 || err.code == 417
  | _ => false

/-- `step`, with the buckets put back after a request that was rejected. -/
def idealStep (h : Handler) (s : State) : Event → Option State
  | .arrive now listed info => do
    guard (s.clock ≤ now)
    let (outcome, s') ← h.serveHTTP now listed info s
    let controls :=
      if outcome.rejected then restoreBuckets s.controls s'.controls else s'.controls
    return { s' with controls := controls, clock := now, outcomes := s.outcomes ++ [outcome] }
  | .served now i status => step h s (.served now i status)

def idealSystem (h : Handler) : System State Event := ⟨(system h).init, idealStep h⟩

end CtrlMesh.TrafficHandler
