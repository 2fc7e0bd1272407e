import ControllerMesh.Proof.Admission
import ControllerMesh.Proof.BackoffRange

/-!
# Exponential backoff has no effect

A request that gets to the backoff of a control panics in the lookup: its key is a
request info, which is not comparable. But comparable keys would not help. A
failure is recorded by a deferred function that is there only for requests with an
entry already, and its argument is the status at the time when the function is
deferred, which is 0. So there never is an entry (`NoFailures`), and no request ever
has to wait. The delays would be a millionth of those in the policy, too
(`backoffNanoseconds_eq`).

* `State.Quiet.step`: no step records a failure;
* `backoff_effective_iff`: all requests of a run are delayed as they should be if and
  only if none gets to a backoff whose lookup panics, and none has to wait.
-/

namespace CtrlMesh.TrafficHandler

open Framework

open Traffic (ExponentialBackoff matchesAPIServerRules)

variable {h : Handler} {now : Seconds} {info : FullRequestInfo}

/-! ## No failure is recorded -/

/-- No failures are recorded in a backoff, if there is one. -/
def Limits.NoFailures (ls : Limits) : Prop :=
  ∀ eb, ls.exponentialBackoff = some eb → eb.failures = []

def RateControl.NoFailures (c : RateControl) : Prop := ∀ ls, c.limits = some ls → ls.NoFailures

def NoFailures (controls : StringMap RateControl) : Prop :=
  ∀ (hash : String) c, controls[hash]? = some c → c.NoFailures

theorem Limits.noFailures_make {policy : RatePolicy} {ls : Limits}
    (hmake : Limits.make policy = some ls) : ls.NoFailures := by
  intro eb heb
  rw [(make_eq_some hmake).2] at heb
  obtain ⟨spec, -, rfl⟩ := Option.map_eq_some_iff.mp heb
  rfl

theorem Limits.NoFailures.reserve {ls ls' : Limits} (hempty : ls.NoFailures) {acquired : Bool}
    (hacquire : ls.acquire = some (acquired, ls')) : (ls'.reserve now).2.NoFailures := by
  intro eb heb
  rw [Limits.exponentialBackoff_reserve, (Limits.acquire_eq_some hacquire).2.1] at heb
  exact hempty eb heb

/-- Without entries there is nothing to wait for. -/
theorem Limits.NoFailures.delay {ls ls' : Limits} (hempty : ls.NoFailures) {comparable : Bool}
    {delay : Seconds} {ok : Bool}
    (hdelay : ls.delay comparable now info = some ((delay, ok), ls')) :
    delay = 0 ∧ ls'.exponentialBackoff = ls.exponentialBackoff := by
  unfold Limits.delay at hdelay
  cases heb : ls.exponentialBackoff with
  | none =>
    simp only [heb, Option.some.injEq, Prod.mk.injEq] at hdelay
    obtain ⟨⟨rfl, rfl⟩, rfl⟩ := hdelay
    exact ⟨rfl, heb⟩
  | some eb =>
    rw [heb] at hdelay
    obtain ⟨p, hp, hpair⟩ := Option.map_eq_some_iff.mp hdelay
    unfold RateExponentialBackoff.delay RateExponentialBackoff.load at hp
    cases comparable with
    | false => simp at hp
    | true =>
      simp only [Bool.not_true, Bool.false_eq_true, if_false, hempty eb heb, List.find?_nil,
        Option.map_none, Option.some.injEq] at hp
      subst hp
      cases hpair
      exact ⟨rfl, rfl⟩

theorem AllowStep.noFailures {c : RateControl} {ls ls' : Limits} {allowed : Allowed}
    (hstep : AllowStep h c now info ls allowed ls') (hempty : ls.NoFailures) : ls'.NoFailures := by
  cases hstep with
  | full _ => exact hempty
  | limited hacquire _ => exact hempty.reserve hacquire
  | crashed hacquire _ _ => exact hempty.reserve hacquire
  | backedOff hacquire _ hlookup _ | admitted hacquire _ hlookup _ =>
    intro eb heb
    rw [((hempty.reserve hacquire).delay hlookup).2] at heb
    exact hempty.reserve hacquire eb heb

/-- What lets a request pass that gets to the backoff, or panics. -/
theorem AllowStep.of_passes {c : RateControl} {ls ls' : Limits} {allowed : Allowed}
    (hstep : AllowStep h c now info ls allowed ls') (hempty : ls.NoFailures)
    (hpasses : ls.Passes now) :
    allowed = .panicked ∨ ∃ releases records, allowed = .returned releases records none := by
  cases hstep with
  | full hacquire => exact absurd hpasses (Limits.not_passes_of_full hacquire)
  | limited hacquire hdelay => exact absurd hdelay ((Limits.passes_iff hacquire).mp hpasses)
  | crashed _ _ _ => exact .inl rfl
  | backedOff hacquire _ hlookup hpos =>
    rw [((hempty.reserve hacquire).delay hlookup).1] at hpos
    exact absurd hpos (lt_irrefl 0)
  | admitted _ _ _ _ => exact .inr ⟨_, _, rfl⟩

namespace RateControl

variable {c : RateControl}

theorem NoFailures.live (hempty : c.NoFailures) {ls : Limits} (hlive : c.live = some ls) :
    ls.NoFailures := by
  rcases Option.or_eq_some_iff.mp hlive with hlimits | ⟨-, hmake⟩
  · exact hempty ls hlimits
  · exact Limits.noFailures_make hmake

theorem NoFailures.allow (hempty : c.NoFailures) (h : Handler) (now : Seconds)
    (info : FullRequestInfo) : (c.allow h now info).2.NoFailures := by
  intro ls' hls'
  cases hlive : c.live with
  | none =>
    rw [allow_of_live_eq_none hlive] at hls'
    cases hls'
    exact fun eb heb => absurd heb (by simp)
  | some ls =>
    rw [allow_of_live hlive] at hls'
    cases hls'
    exact (allowWith_cases c ls).noFailures (hempty.live hlive)

end RateControl

section

variable {controls controls' : StringMap RateControl}

theorem NoFailures.loadOrStore (hempty : NoFailures controls) (name : String)
    (policy : RatePolicy) : (loadOrStore h controls name policy).NoFailures := by
  unfold TrafficHandler.loadOrStore
  cases hc : controls[h.hashRatePolicy name policy]? with
  | none => exact fun ls hls => absurd hls (by simp)
  | some c => exact hempty _ c hc

theorem NoFailures.insert (hempty : NoFailures controls) (hash : String) {c : RateControl}
    (hc : c.NoFailures) : NoFailures (controls.insert hash c) := by
  intro k c' hc'
  rw [StringMap.getElem?_insert] at hc'
  split at hc'
  · cases hc'
    exact hc
  · exact hempty k c' hc'

/-- Nothing is recorded with status 0. -/
theorem NoFailures.run (hempty : NoFailures controls) {d : Deferred} (hstatus : d.status = 0)
    (hrun : d.run now controls = some controls') : NoFailures controls' := by
  obtain ⟨c, ls, ch, eb, hc, hls, rfl, hzero⟩ := Deferred.run_eq_some hrun
  refine hempty.insert d.hash fun ls' hls' => ?_
  cases hls'
  rw [hzero hstatus]
  exact hempty _ c hc ls hls

theorem NoFailures.runDeferred (hempty : NoFailures controls) {deferred : List Deferred}
    (hstatus : ∀ d ∈ deferred, d.status = 0)
    (hrun : runDeferred now deferred controls = some controls') : NoFailures controls' :=
  runDeferred_invariant (fun d hd _ _ hm hrun => hm.run (hstatus d hd) hrun) hempty hrun

end

/-! ## Runs -/

/-- No failures in the controls of the loop, and deferred calls with status 0 only. -/
structure Loop.Quiet (l : Loop) : Prop where
  noFailures : NoFailures l.controls
  status : ∀ d ∈ l.deferred, d.status = 0

theorem Loop.Quiet.visit {l : Loop} (hquiet : l.Quiet) (h : Handler) (now : Seconds)
    (info : FullRequestInfo) (stage : Stage) : (visit h now info l stage).2.Quiet := by
  cases stage with
  | circuitBreaking policyName breaking =>
    rw [visit_circuitBreaking l.controls]
    exact hquiet
  | ratePolicy name policy =>
    have hempty := hquiet.noFailures.insert (h.hashRatePolicy name policy)
      ((hquiet.noFailures.loadOrStore (h := h) name policy).allow h now info)
    unfold TrafficHandler.visit
    dsimp only
    split
    · exact hquiet
    · split
      · exact hquiet
      · cases ((loadOrStore h l.controls name policy).allow h now info).1 with
        | panicked => exact ⟨hempty, hquiet.status⟩
        | returned releases records err =>
          unfold Loop.defer
          dsimp only
          split
          · refine ⟨hempty, fun d hd => ?_⟩
            rcases List.mem_cons.mp hd with rfl | hd
            · rfl
            · exact hquiet.status d hd
          · exact ⟨hempty, hquiet.status⟩

theorem Loop.Quiet.visitAll {l : Loop} (hquiet : l.Quiet) (h : Handler) (now : Seconds)
    (info : FullRequestInfo) (stages : List Stage) : (visitAll h now info stages l).2.Quiet := by
  induction stages generalizing l with
  | nil => exact hquiet
  | cons stage stages ih =>
    have hvisit := hquiet.visit h now info stage
    unfold TrafficHandler.visitAll
    split
    · rename_i l' heq
      rw [heq] at hvisit
      exact ih hvisit
    · rename_i outcome l' heq
      rw [heq] at hvisit
      exact hvisit

/-- The same for the requests that are being served. -/
structure State.Quiet (s : State) : Prop where
  noFailures : NoFailures s.controls
  status : ∀ r, some r ∈ s.serving → ∀ d ∈ r.deferred, d.status = 0

section

variable {s s' : State} {listed : Except String (List TrafficPolicy)} {e : Event}

theorem State.Quiet.loop (hquiet : s.Quiet) : Loop.Quiet ⟨s.controls, ∅, []⟩ :=
  ⟨hquiet.noFailures, fun _ hd => absurd hd List.not_mem_nil⟩

theorem State.Quiet.forward (hquiet : s.Quiet) (info : Except String FullRequestInfo) {l : Loop}
    (hl : l.Quiet) : (s.forward info l).Quiet := by
  refine ⟨hl.noFailures, fun r hr => ?_⟩
  rcases List.mem_append.mp hr with hr | hr
  · exact hquiet.status r hr
  · obtain rfl := Option.some.inj (List.mem_singleton.mp hr)
    exact hl.status

theorem State.Quiet.serve (hquiet : s.Quiet) {info : Except String FullRequestInfo}
    {outcome : Outcome} (hserve : h.serveHTTP now listed info s = some (outcome, s')) :
    s'.Quiet := by
  have hrefresh : (h.refresh now listed s).Quiet := ⟨hquiet.noFailures, hquiet.status⟩
  cases info with
  | error uri =>
    rcases serveHTTP_noInfo hserve with ⟨-, rfl⟩ | ⟨-, rfl⟩
    · exact hrefresh.forward _ hquiet.loop
    · exact hrefresh
  | ok info =>
    obtain ⟨l, hvisit, hcase⟩ := serveHTTP_eq_some hserve
    have hl := hquiet.loop.visitAll h now info (h.stagesFor now listed s)
    rw [hvisit] at hl
    rcases hcase with ⟨-, rfl⟩ | ⟨-, controls', hrun, rfl⟩
    · exact hrefresh.forward _ hl
    · exact ⟨hl.noFailures.runDeferred hl.status hrun, hquiet.status⟩

theorem State.Quiet.step (hquiet : s.Quiet) (hstep : step h s e = some s') : s'.Quiet := by
  cases e with
  | arrive now listed info =>
    obtain ⟨-, outcome, s₁, hserve, rfl⟩ := step_arrive_eq_some.mp hstep
    have hs₁ := hquiet.serve hserve
    exact ⟨hs₁.noFailures, hs₁.status⟩
  | served now i status =>
    obtain ⟨-, r, controls', hr, hrun, rfl⟩ := step_served_eq_some.mp hstep
    refine ⟨hquiet.noFailures.runDeferred
      (hquiet.status r (List.mem_of_getElem? hr)) hrun, fun r' hr' => ?_⟩
    rcases List.mem_or_eq_of_mem_set hr' with hr' | hr'
    · exact hquiet.status r' hr'
    · exact absurd hr' (by simp)

theorem State.Quiet.init (h : Handler) : (system h).init.Quiet := by
  refine ⟨fun hash c hc => ?_, fun r hr => absurd hr List.not_mem_nil⟩
  simp [system] at hc

end

/-! ## What requests are delayed -/

/-- A request gets to the backoff of a control: no step of the loop before ends it,
and the channel and the bucket let it pass. -/
structure GetsToBackoff (h : Handler) (s : State) (now : Seconds)
    (listed : Except String (List TrafficPolicy)) (info : FullRequestInfo) (name : String)
    (policy : RatePolicy) (spec : ExponentialBackoff) (c : RateControl) (ls : Limits) : Prop where
  asked : ∃ before after l,
    h.stagesFor now listed s = before ++ .ratePolicy name policy :: after ∧
      visitAll h now info before ⟨s.controls, ∅, []⟩ = (.forwarded, l) ∧
      h.hashRatePolicy name policy ∉ l.rateHashes ∧ c = loadOrStore h l.controls name policy
  matching : matchesAPIServerRules info.toRequestInfo policy.rules = true
  spec_eq : policy.exponentialBackoff = some spec
  live_eq : c.live = some ls
  passes : ls.Passes now

/-- The control answers the request with 429. -/
def Rejects (h : Handler) (s : State) (now : Seconds) (listed : Except String (List TrafficPolicy))
    (info : FullRequestInfo) (c : RateControl) : Prop :=
  ∃ releases records err s', (c.allow h now info).1 = .returned releases records (some err) ∧
    err.code = 429 ∧ h.serveHTTP now listed (.ok info) s = some (.answered err, s')

/-- The failures in a row of requests like this one that passed the control. -/
def State.failureRecord (s : State) (hash : String) (info : FullRequestInfo) : FailureRecord :=
  .ofResponses (s.responsesTo hash info)

/-- A request that gets to a backoff is answered with 429 if it has to wait, and let
pass if not. -/
def BacksOff (h : Handler) (s : State) : Event → Prop
  | .arrive now listed (.ok info) =>
    ∀ name policy spec c ls, GetsToBackoff h s now listed info name policy spec c ls →
      NonnegBackoff spec →
      if Due spec (s.failureRecord (h.hashRatePolicy name policy) info) now then
        Rejects h s now listed info c
      else c.Admits h now info
  | _ => True

/-- A request that gets to a backoff does not have to wait, and the lookup does not
panic. -/
def NothingDue (h : Handler) (s : State) : Event → Prop
  | .arrive now listed (.ok info) =>
    ∀ name policy spec c ls, GetsToBackoff h s now listed info name policy spec c ls →
      NonnegBackoff spec →
      ¬ Due spec (s.failureRecord (h.hashRatePolicy name policy) info) now ∧
        (ls.exponentialBackoff = none ∨ h.comparable = true)
  | _ => True

section

variable {s : State} {listed : Except String (List TrafficPolicy)} {name : String}
  {policy : RatePolicy} {spec : ExponentialBackoff} {c : RateControl} {ls : Limits}

/-- No request is answered because of a backoff. -/
theorem allow_of_getsToBackoff (hquiet : s.Quiet)
    (hgets : GetsToBackoff h s now listed info name policy spec c ls) :
    (c.allow h now info).1 = .panicked ∨ c.Admits h now info := by
  obtain ⟨before, after, l, -, hvisit, -, rfl⟩ := hgets.asked
  have hl := hquiet.loop.visitAll h now info before
  rw [hvisit] at hl
  have hempty := (hl.noFailures.loadOrStore name policy).live hgets.live_eq
  rw [RateControl.Admits, RateControl.allow_of_live hgets.live_eq]
  exact (allowWith_cases _ ls).of_passes hempty hgets.passes

theorem admits_of_getsToBackoff_iff (hquiet : s.Quiet)
    (hgets : GetsToBackoff h s now listed info name policy spec c ls) :
    c.Admits h now info ↔ ls.exponentialBackoff = none ∨ h.comparable = true := by
  have hpanic : (c.allow h now info).1 = .panicked ↔
      ls.exponentialBackoff ≠ none ∧ h.comparable = false := by
    rw [RateControl.allow_of_live hgets.live_eq, (allowWith_cases c ls).panicked_iff,
      and_iff_right hgets.passes]
  have hadmits : c.Admits h now info ↔ ¬ (c.allow h now info).1 = .panicked := by
    constructor
    · rintro ⟨releases, records, hallow⟩ heq
      rw [hallow] at heq
      exact absurd heq (by simp)
    · exact fun hne => (allow_of_getsToBackoff hquiet hgets).resolve_left hne
  rw [hadmits, hpanic, not_and_or, not_not, Bool.not_eq_false]

theorem not_rejects_of_getsToBackoff (hquiet : s.Quiet)
    (hgets : GetsToBackoff h s now listed info name policy spec c ls) :
    ¬ Rejects h s now listed info c := by
  rintro ⟨releases, records, err, s', hallow, -⟩
  rcases allow_of_getsToBackoff hquiet hgets with hpanic | ⟨releases', records', hadmits⟩
  · exact absurd (hallow.symm.trans hpanic) (by simp)
  · exact absurd (hallow.symm.trans hadmits) (by simp)

theorem backsOff_iff (hquiet : s.Quiet) (e : Event) : BacksOff h s e ↔ NothingDue h s e := by
  rcases e with ⟨now, listed, uri | info⟩ | ⟨now, i, status⟩
  · exact Iff.rfl
  · refine forall_congr' fun name => forall_congr' fun policy => forall_congr' fun spec =>
      forall_congr' fun c => forall_congr' fun ls => forall_congr' fun hgets => imp_congr_right
      fun _ => ?_
    rw [← admits_of_getsToBackoff_iff hquiet hgets]
    split
    · rename_i hdue
      exact iff_of_false (not_rejects_of_getsToBackoff hquiet hgets) fun h => h.1 hdue
    · rename_i hdue
      exact (and_iff_right hdue).symm
  · exact Iff.rfl

end

/-- Backoff takes effect for all requests of a run if and only if it never has to, and
no lookup panics. -/
theorem backoff_effective_iff {es : List Event} {s' : State}
    (hrun : (system h).run es = some s') :
    (system h).Steps (BacksOff h) (system h).init es ↔
      (system h).Steps (NothingDue h) (system h).init es :=
  (system h).steps_congr (fun _ hquiet hstep => State.Quiet.step hquiet hstep)
    (fun _ hquiet _ => backsOff_iff hquiet _) (fun _ _ => trivial) (.init h) hrun

/-- A second after the first failure, twice as long after the next one, up to ten. -/
def sampleBackoffPolicy : RatePolicy := ⟨sampleRules, none, none, some ⟨1000, 10000, 0⟩⟩

/-- The same for secrets only. -/
def sampleSecretsPolicy : RatePolicy :=
  ⟨⟨[⟨["*"], ["*"], ["secrets"], true, ["*"]⟩], []⟩, none, none, some ⟨1000, 10000, 0⟩⟩

def sampleBackoffArrival (policy : RatePolicy) (now : Seconds) : Event :=
  .arrive now (.ok [samplePolicy (some ⟨none⟩) [policy]]) (.ok sampleInfo)

/-- A handler as it would be with keys that can be looked up. -/
def sampleComparable : Handler := { sampleHandler with comparable := true }

/-- No response was a failure, and no lookup panics: keys can be looked up, or no
policy with a backoff matches. -/
def nothingLooksUp (h : Handler) (s : State) : Event → Bool
  | .arrive now listed (.ok info) =>
    s.responses.all (·.status < 400) &&
      (h.comparable || (h.stagesFor now listed s).all fun
        | .ratePolicy _ policy =>
          policy.exponentialBackoff.isNone || !matchesAPIServerRules info.toRequestInfo policy.rules
        | .circuitBreaking _ _ => true)
  | _ => true

theorem failures_ofResponses {responses : List Response} {r : FailureRecord}
    (hok : ∀ response ∈ responses, response.status < 400) (hr : r.failures = 0) :
    (responses.foldl FailureRecord.next r).failures = 0 := by
  induction responses generalizing r with
  | nil => exact hr
  | cons response responses ih =>
    obtain ⟨hresponse, hok⟩ := List.forall_mem_cons.mp hok
    refine ih hok ?_
    rw [FailureRecord.next, if_neg (not_le.mpr hresponse)]

theorem nothingDue_of_nothingLooksUp {s : State} {e : Event}
    (htest : nothingLooksUp h s e = true) : NothingDue h s e := by
  rcases e with ⟨now, listed, uri | info⟩ | ⟨now, i, status⟩
  · trivial
  · intro name policy spec c ls hgets hspec
    obtain ⟨hok, hlookup⟩ := Bool.and_eq_true_iff.mp htest
    refine ⟨fun hdue => ?_, .inr ?_⟩
    · have hfailures : (s.failureRecord (h.hashRatePolicy name policy) info).failures = 0 := by
        refine failures_ofResponses (fun response hresponse => ?_) rfl
        have hmem := (List.mem_filter.mp hresponse).1
        exact of_decide_eq_true (List.all_eq_true.mp hok response hmem)
      have hlt := hdue.1
      rw [hfailures] at hlt
      exact absurd hspec.2.2 (not_le.mpr hlt)
    · refine (Bool.or_eq_true_iff.mp hlookup).resolve_right fun hstages => ?_
      obtain ⟨before, after, l, hstagesFor, -⟩ := hgets.asked
      have hmem : .ratePolicy name policy ∈ h.stagesFor now listed s := by
        rw [hstagesFor]
        simp
      have hnone := List.all_eq_true.mp hstages _ hmem
      simp [hgets.spec_eq, hgets.matching] at hnone
  · trivial

/-- Two requests that pass a backoff of a handler with keys that can be looked up, and
two that no backoff of the handler as it is matches. -/
theorem backoff_effective_samples :
    (system sampleComparable).Steps (BacksOff sampleComparable) (system sampleComparable).init
        [sampleBackoffArrival sampleBackoffPolicy 0, .served (1 / 2) 0 200,
          sampleBackoffArrival sampleBackoffPolicy 1] ∧
      (system sampleHandler).Steps (BacksOff sampleHandler) (system sampleHandler).init
        [sampleBackoffArrival sampleSecretsPolicy 0, .served (1 / 2) 0 200,
          sampleBackoffArrival sampleSecretsPolicy 1] := by
  have hrun : ((system sampleComparable).run [sampleBackoffArrival sampleBackoffPolicy 0,
      .served (1 / 2) 0 200, sampleBackoffArrival sampleBackoffPolicy 1]).isSome = true := by
    decide +kernel
  have hrun' : ((system sampleHandler).run [sampleBackoffArrival sampleSecretsPolicy 0,
      .served (1 / 2) 0 200, sampleBackoffArrival sampleSecretsPolicy 1]).isSome = true := by
    decide +kernel
  obtain ⟨s, hs⟩ := Option.isSome_iff_exists.mp hrun
  obtain ⟨s', hs'⟩ := Option.isSome_iff_exists.mp hrun'
  exact ⟨(backoff_effective_iff hs).mpr ((system sampleComparable).steps_of_checkSteps
      (nothingLooksUp sampleComparable) nothingDue_of_nothingLooksUp (by decide +kernel)),
    (backoff_effective_iff hs').mpr ((system sampleHandler).steps_of_checkSteps
      (nothingLooksUp sampleHandler) nothingDue_of_nothingLooksUp (by decide +kernel))⟩

/-- With keys that can be looked up, a request half a second after a failure is
forwarded all the same. -/
example : ((system sampleComparable).run
    [sampleBackoffArrival sampleBackoffPolicy 0, .served 0 0 500,
      sampleBackoffArrival sampleBackoffPolicy (1 / 2)]).map (·.outcomes) =
      some [.forwarded, .forwarded] := by
  decide +kernel

/-- The first request that gets to a backoff panics. -/
theorem not_backsOff_sampleBackoff :
    ¬ (system sampleHandler).Steps (BacksOff sampleHandler) (system sampleHandler).init
      [sampleBackoffArrival sampleBackoffPolicy 0] := by
  intro hsteps
  have hgets : GetsToBackoff sampleHandler (system sampleHandler).init 0
      (.ok [samplePolicy (some ⟨none⟩) [sampleBackoffPolicy]]) sampleInfo "limit-pods"
      sampleBackoffPolicy ⟨1000, 10000, 0⟩ ⟨"limit-pods", sampleBackoffPolicy, none⟩
      ⟨none, none, some ⟨⟨1000, 10000, 0⟩, []⟩⟩ :=
    { asked := ⟨[.circuitBreaking "limit-pods" (some ⟨none⟩)], [], ⟨∅, ∅, []⟩, rfl, rfl,
        by simp, rfl⟩
      matching := by decide +kernel
      spec_eq := rfl
      live_eq := rfl
      passes := (Limits.passes_iff rfl).mpr (by decide +kernel) }
  have hpanic : (RateControl.allow sampleHandler ⟨"limit-pods", sampleBackoffPolicy, none⟩ 0
      sampleInfo).1 = .panicked := by
    decide +kernel
  have hbacks := hsteps.1 _ _ _ _ _ hgets ⟨by decide, by decide, by decide⟩
  rw [if_neg (by decide +kernel)] at hbacks
  obtain ⟨releases, records, hallow⟩ := hbacks
  exact absurd (hpanic.symm.trans hallow) (by simp)

end CtrlMesh.TrafficHandler
