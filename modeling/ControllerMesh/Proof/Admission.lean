import ControllerMesh.Proof.TrafficLoop

/-!
# Which requests traffic control lets through

A request is forwarded if no circuit breaker matches it and all rate controls that
it is checked against admit it, in whatever order the policies are listed; but it
may be ended by a panic instead. A step of the loop panics at a policy without
circuit breaking, at a control with a negative `MaxInFlight` that is used for the
first time, and at a control with an exponential backoff that the request gets to
(`Stage.Crashes`). `serveHTTP_exact_iff` says that this is all that can go wrong:
requests are decided exactly if and only if no step panics unless a step before it
answers the request.
-/

namespace CtrlMesh.TrafficHandler

open Framework

open Traffic (matchesAPIServerRules)

variable {h : Handler} {controls : StringMap RateControl} {now : Seconds} {info : FullRequestInfo}

/-! ## Panics -/

/-- `allow` panics: in `once`, or in the lookup of the backoff, after the channel and
the bucket. -/
def RateControl.Crashes (h : Handler) (c : RateControl) (now : Seconds) : Prop :=
  (c.limits = none ∧ ∃ n, c.policy.maxInFlight = some n ∧ n < 0) ∨
    ∃ ls, c.live = some ls ∧ ls.Passes now ∧ ls.exponentialBackoff ≠ none ∧ h.comparable = false

/-- A step of the loop that panics. -/
def Stage.Crashes (h : Handler) (controls : StringMap RateControl) (now : Seconds)
    (info : FullRequestInfo) : Stage → Prop
  | circuitBreaking _ breaking => breaking = none
  | ratePolicy name policy =>
    matchesAPIServerRules info.toRequestInfo policy.rules = true ∧
      (loadOrStore h controls name policy).Crashes h now

theorem Limits.make_eq_none_iff {policy : RatePolicy} :
    Limits.make policy = none ↔ ∃ n, policy.maxInFlight = some n ∧ n < 0 := by
  unfold Limits.make RatePolicy.makeChan
  cases policy.maxInFlight with
  | none => simp
  | some n =>
    by_cases hn : n < 0
    · simp [Chan.make, hn]
    · simp [Chan.make, hn]

theorem RateControl.live_eq_none_iff {c : RateControl} :
    c.live = none ↔ c.limits = none ∧ ∃ n, c.policy.maxInFlight = some n ∧ n < 0 := by
  rw [live, Option.or_eq_none_iff, Limits.make_eq_none_iff]

theorem AllowStep.panicked_iff {c : RateControl} {ls ls₂ : Limits} {allowed : Allowed}
    (hstep : AllowStep h c now info ls allowed ls₂) :
    allowed = .panicked ↔
      ls.Passes now ∧ ls.exponentialBackoff ≠ none ∧ h.comparable = false := by
  have hbackoff {acquired : Bool} {ls₁ : Limits} (hacquire : ls.acquire = some (acquired, ls₁)) :
      (ls₁.reserve now).2.delay h.comparable now info = none ↔
        ls.exponentialBackoff ≠ none ∧ h.comparable = false := by
    rw [Limits.delay_eq_none_iff, Limits.exponentialBackoff_reserve,
      (Limits.acquire_eq_some hacquire).2.1]
  cases hstep with
  | full hacquire => exact iff_of_false (by simp) fun h => Limits.not_passes_of_full hacquire h.1
  | limited hacquire hdelay =>
    exact iff_of_false (by simp) fun h => (Limits.passes_iff hacquire).mp h.1 hdelay
  | crashed hacquire hdelay hlookup =>
    exact iff_of_true rfl ⟨(Limits.passes_iff hacquire).mpr hdelay, (hbackoff hacquire).mp hlookup⟩
  | backedOff hacquire _ hlookup _ | admitted hacquire _ hlookup _ =>
    refine iff_of_false (by simp) fun h => ?_
    rw [(hbackoff hacquire).mpr h.2] at hlookup
    exact absurd hlookup (by simp)

theorem RateControl.allow_panicked_iff (c : RateControl) (info : FullRequestInfo) :
    (c.allow h now info).1 = .panicked ↔ c.Crashes h now := by
  unfold Crashes
  rw [← live_eq_none_iff]
  cases hlive : c.live with
  | none => simp [allow_of_live_eq_none hlive]
  | some ls =>
    rw [allow_of_live hlive, (allowWith_cases c ls).panicked_iff]
    simp

theorem Allowed.stop_eq_panicked_iff {allowed : Allowed} :
    allowed.stop = some .panicked ↔ allowed = .panicked := by
  cases allowed with
  | panicked => simp [stop]
  | returned releases records err => cases err <;> simp [stop]

theorem Stage.stop_eq_panicked_iff {stage : Stage} :
    stage.stop h controls now info = some .panicked ↔ stage.Crashes h controls now info := by
  cases stage with
  | circuitBreaking policyName breaking =>
    obtain _ | ⟨_ | rules⟩ := breaking
    · simp [stop, Crashes]
    · simp [stop, Crashes]
    · simp [stop, Crashes]
  | ratePolicy name policy =>
    unfold Crashes
    dsimp only
    rw [← RateControl.allow_panicked_iff _ info, ← Allowed.stop_eq_panicked_iff]
    by_cases hmatch : matchesAPIServerRules info.toRequestInfo policy.rules = true
    · rw [stop_ratePolicy_of_match hmatch, and_iff_right hmatch]
    · simp [stop_ratePolicy_of_not_match hmatch, hmatch]

theorem Stage.stop_ne_forwarded (h : Handler) (controls : StringMap RateControl) (now : Seconds)
    (info : FullRequestInfo) (stage : Stage) :
    stage.stop h controls now info ≠ some .forwarded := by
  cases stage with
  | circuitBreaking policyName breaking =>
    obtain _ | ⟨_ | rules⟩ := breaking
    · simp [stop]
    · simp [stop]
    · unfold stop
      dsimp only
      split <;> simp
  | ratePolicy name policy =>
    by_cases hmatch : matchesAPIServerRules info.toRequestInfo policy.rules = true
    · rw [stop_ratePolicy_of_match hmatch]
      cases ((loadOrStore h controls name policy).allow h now info).1 with
      | panicked => simp [Allowed.stop]
      | returned releases records err => cases err <;> simp [Allowed.stop]
    · simp [stop_ratePolicy_of_not_match hmatch]

/-! ## The first step that ends a request -/

theorem firstStop_eq_forwarded_iff {stages : List Stage} :
    firstStop h controls now info stages = .forwarded ↔
      ∀ stage ∈ stages, stage.stop h controls now info = none := by
  induction stages with
  | nil => simp [firstStop]
  | cons stage stages ih =>
    have hne := stage.stop_ne_forwarded h controls now info
    rw [firstStop, List.forall_mem_cons, ← ih]
    cases hstop : stage.stop h controls now info with
    | none => simp
    | some outcome => simpa [hstop] using hne

theorem exists_stop_of_firstStop {stages : List Stage}
    (hne : firstStop h controls now info stages ≠ .forwarded) :
    ∃ stage ∈ stages,
      stage.stop h controls now info = some (firstStop h controls now info stages) := by
  induction stages with
  | nil => exact absurd rfl hne
  | cons stage stages ih =>
    rw [firstStop] at hne ⊢
    cases hstop : stage.stop h controls now info with
    | some outcome => exact ⟨stage, List.mem_cons_self, hstop⟩
    | none =>
      rw [hstop, Option.getD_none] at hne
      obtain ⟨stage', hmem, hstop'⟩ := ih hne
      exact ⟨stage', List.mem_cons_of_mem stage hmem, hstop'⟩

/-- No step panics unless a step before it answers. -/
def AnswersBeforeCrashes (h : Handler) (controls : StringMap RateControl) (now : Seconds)
    (info : FullRequestInfo) (stages : List Stage) : Prop :=
  ∀ before stage after, stages = before ++ stage :: after → stage.Crashes h controls now info →
    ∃ st ∈ before, st.stop h controls now info ≠ none

theorem answersBeforeCrashes_iff {stages : List Stage} :
    AnswersBeforeCrashes h controls now info stages ↔
      firstStop h controls now info stages ≠ .panicked := by
  induction stages with
  | nil => simp [AnswersBeforeCrashes, firstStop]
  | cons stage stages ih =>
    rw [firstStop]
    cases hstop : stage.stop h controls now info with
    | some outcome =>
      simp only [Option.getD_some]
      constructor
      · rintro hanswers rfl
        obtain ⟨st, hst, -⟩ := hanswers [] stage stages rfl (Stage.stop_eq_panicked_iff.mp hstop)
        exact List.not_mem_nil hst
      · intro hne before st after heq hcrash
        cases before with
        | nil =>
          obtain ⟨rfl, rfl⟩ := List.cons.inj heq
          rw [Stage.stop_eq_panicked_iff.mpr hcrash] at hstop
          exact absurd (Option.some.inj hstop).symm hne
        | cons first before =>
          obtain ⟨rfl, rfl⟩ := List.cons.inj heq
          exact ⟨stage, List.mem_cons_self, by simp [hstop]⟩
    | none =>
      rw [Option.getD_none, ← ih]
      constructor
      · intro hanswers before st after heq hcrash
        obtain ⟨st', hst', hne⟩ := hanswers (stage :: before) st after (by rw [heq]; rfl) hcrash
        rcases List.mem_cons.mp hst' with rfl | hst'
        · exact absurd hstop hne
        · exact ⟨st', hst', hne⟩
      · intro hanswers before st after heq hcrash
        cases before with
        | nil =>
          obtain ⟨rfl, rfl⟩ := List.cons.inj heq
          rw [Stage.stop_eq_panicked_iff.mpr hcrash] at hstop
          exact absurd hstop (by simp)
        | cons first before =>
          obtain ⟨rfl, rfl⟩ := List.cons.inj heq
          obtain ⟨st', hst', hne⟩ := hanswers before st after rfl hcrash
          exact ⟨st', List.mem_cons_of_mem _ hst', hne⟩

/-! ## Exact decisions -/

/-- The control lets the request pass. -/
def RateControl.Admits (h : Handler) (c : RateControl) (now : Seconds) (info : FullRequestInfo) :
    Prop :=
  ∃ releases records, (c.allow h now info).1 = .returned releases records none

/-- No circuit breaker matches the request, and every control admits it that it is
checked against. -/
def Admitted (h : Handler) (controls : StringMap RateControl) (now : Seconds)
    (info : FullRequestInfo) (policies : List TrafficPolicy) : Prop :=
  ∀ policy ∈ policies,
    (∀ rules, policy.circuitBreaking = some ⟨some rules⟩ →
      matchesAPIServerRules info.toRequestInfo rules = false) ∧
    ∀ ratePolicy ∈ policy.rateLimiting.getD [],
      matchesAPIServerRules info.toRequestInfo ratePolicy.rules = true →
      (loadOrStore h controls policy.name ratePolicy).Admits h now info

/-- The request is not ended by a panic, it is forwarded exactly if it is admitted,
and the order of the list does not matter. -/
def DecidesExactly (h : Handler) (s : State) (now : Seconds) (listed : List TrafficPolicy)
    (info : FullRequestInfo) : Prop :=
  ∃ outcome s', h.serveHTTP now (.ok listed) (.ok info) s = some (outcome, s') ∧
    outcome ≠ .panicked ∧
    (outcome = .forwarded ↔ Admitted h s.controls now info (h.found now (.ok listed) s.cache)) ∧
    ∀ listed', listed'.Perm listed →
      ∃ outcome' s'', h.serveHTTP now (.ok listed') (.ok info) s = some (outcome', s'') ∧
        (outcome' = .forwarded ↔ outcome = .forwarded)

theorem RateControl.admits_iff {c : RateControl} :
    c.Admits h now info ↔ (c.allow h now info).1.stop = none := by
  unfold Admits
  cases (c.allow h now info).1 with
  | panicked => simp [Allowed.stop]
  | returned releases records err => cases err <;> simp [Allowed.stop]

theorem mem_stages_iff {policy : TrafficPolicy} {stage : Stage} :
    stage ∈ policy.stages ↔ stage = .circuitBreaking policy.name policy.circuitBreaking ∨
      ∃ ratePolicy ∈ policy.rateLimiting.getD [], stage = .ratePolicy policy.name ratePolicy := by
  simp [TrafficPolicy.stages, eq_comm]

theorem admitted_of_forwarded {policies : List TrafficPolicy}
    (hall : ∀ stage ∈ policies.flatMap (·.stages), stage.stop h controls now info = none) :
    Admitted h controls now info policies := by
  intro policy hpolicy
  have hstages (stage : Stage) (hmem : stage ∈ policy.stages) :=
    hall stage (List.mem_flatMap.mpr ⟨policy, hpolicy, hmem⟩)
  constructor
  · intro rules hrules
    have hstop := hstages _ (mem_stages_iff.mpr (.inl rfl))
    rw [hrules] at hstop
    by_contra hmatch
    rw [Bool.not_eq_false] at hmatch
    simp [Stage.stop, hmatch] at hstop
  · intro ratePolicy hrate hmatch
    have hstop := hstages _ (mem_stages_iff.mpr (.inr ⟨ratePolicy, hrate, rfl⟩))
    rw [stop_ratePolicy_of_match hmatch] at hstop
    exact RateControl.admits_iff.mpr hstop

/-- A step that ends a request that is admitted panics. -/
theorem crashes_of_admitted {policies : List TrafficPolicy} {stage : Stage}
    (hadmitted : Admitted h controls now info policies)
    (hstage : stage ∈ policies.flatMap (·.stages)) (hstop : stage.stop h controls now info ≠ none) :
    stage.stop h controls now info = some .panicked := by
  obtain ⟨policy, hpolicy, hmem⟩ := List.mem_flatMap.mp hstage
  obtain ⟨hbreaking, hrate⟩ := hadmitted policy hpolicy
  rcases mem_stages_iff.mp hmem with rfl | ⟨ratePolicy, hratePolicy, rfl⟩
  · cases hcircuit : policy.circuitBreaking with
    | none => rfl
    | some breaking =>
      obtain ⟨_ | rules⟩ := breaking
      · exact absurd (by rw [hcircuit]; rfl) hstop
      · rw [hcircuit] at hstop
        exact absurd (by simp [Stage.stop, hbreaking rules hcircuit]) hstop
  · by_cases hmatch : matchesAPIServerRules info.toRequestInfo ratePolicy.rules = true
    · rw [stop_ratePolicy_of_match hmatch] at hstop
      exact absurd (RateControl.admits_iff.mp (hrate ratePolicy hratePolicy hmatch)) hstop
    · exact absurd (stop_ratePolicy_of_not_match hmatch) hstop

theorem perm_stagesFor (h : Handler) (now : Seconds) {listed listed' : List TrafficPolicy}
    (hperm : listed'.Perm listed) (s : State) :
    (h.stagesFor now (.ok listed') s).Perm (h.stagesFor now (.ok listed) s) := by
  unfold Handler.stagesFor Handler.found Handler.getTrafficPolicies
  split
  · exact .refl _
  · exact (hperm.filter _).flatMap_right _

/-- Every request is decided exactly if and only if no step of the loop panics before
another one answers. -/
theorem serveHTTP_exact_iff (s : State) (listed : List TrafficPolicy) (info : FullRequestInfo)
    (hhash : h.Distinguishes (h.stagesFor now (.ok listed) s)) :
    DecidesExactly h s now listed info ↔
      AnswersBeforeCrashes h s.controls now info (h.stagesFor now (.ok listed) s) := by
  obtain ⟨outcome, s', hserve, hstep⟩ := serveHTTP_cases info hhash
  have houtcome := hstep.outcome_eq
  rw [answersBeforeCrashes_iff, ← houtcome]
  constructor
  · rintro ⟨outcome', s'', hserve', hne, -⟩
    obtain ⟨rfl, -⟩ := Prod.mk.inj (Option.some.inj (hserve.symm.trans hserve'))
    exact hne
  · intro hne
    refine ⟨outcome, s', hserve, hne, ?_, ?_⟩
    · constructor
      · intro hforwarded
        exact admitted_of_forwarded (firstStop_eq_forwarded_iff.mp (houtcome.symm.trans hforwarded))
      · intro hadmitted
        by_contra hstopped
        rw [houtcome] at hstopped
        obtain ⟨stage, hmem, hstop⟩ := exists_stop_of_firstStop hstopped
        have hcrash := crashes_of_admitted hadmitted hmem (by simp [hstop])
        rw [hstop, ← houtcome] at hcrash
        exact hne (Option.some.inj hcrash)
    · intro listed' hperm
      have hstages := perm_stagesFor h now hperm s
      have hhash' : h.Distinguishes (h.stagesFor now (.ok listed') s) :=
        fun name policy name' policy' hmem hmem' =>
          hhash name policy name' policy' (hstages.mem_iff.mp hmem) (hstages.mem_iff.mp hmem')
      obtain ⟨outcome', s'', hserve', hstep'⟩ := serveHTTP_cases info hhash'
      refine ⟨outcome', s'', hserve', ?_⟩
      rw [houtcome, hstep'.outcome_eq, firstStop_eq_forwarded_iff, firstStop_eq_forwarded_iff]
      exact forall_congr' fun stage => imp_congr_left hstages.mem_iff

section

/-- Policies for every subset of one application. -/
def sampleTargets : List TargetVirtualApp := [⟨"app", []⟩]

def sampleHandler : Handler where
  vAppName := "app"
  subset := "v1"
  hashRatePolicy name _ := name
  formatDuration _ := ""
  comparable := false

def sampleRules : Traffic.APIServerRules := ⟨[⟨["*"], ["*"], ["*"], true, ["*"]⟩], []⟩

def sampleBucketPolicy : RatePolicy := ⟨sampleRules, none, some ⟨1, 1⟩, none⟩

def sampleInfo : FullRequestInfo where
  isResourceRequest := true
  path := "/api/v1/namespaces/default/pods"
  verb := "list"
  apiGroup := ""
  namespaceName := "default"
  resource := "pods"
  subresource := ""
  apiPrefix := "api"
  apiVersion := "v1"
  name := ""
  parts := ["pods"]

/-- One policy, of these rate policies. -/
def samplePolicy (circuitBreaking : Option Traffic.CircuitBreaking) (ratePolicies : List RatePolicy) :
    TrafficPolicy :=
  ⟨"limit-pods", sampleTargets, circuitBreaking, some ratePolicies⟩

theorem stagesFor_samplePolicy (now : Seconds) (circuitBreaking : Option Traffic.CircuitBreaking)
    (policy : RatePolicy) :
    sampleHandler.stagesFor now (.ok [samplePolicy circuitBreaking [policy]])
        (system sampleHandler).init =
      [.circuitBreaking "limit-pods" circuitBreaking, .ratePolicy "limit-pods" policy] := by
  rfl

theorem distinguishes_samplePolicy (circuitBreaking : Option Traffic.CircuitBreaking)
    (policy : RatePolicy) : sampleHandler.Distinguishes
      [.circuitBreaking "limit-pods" circuitBreaking, .ratePolicy "limit-pods" policy] := by
  intro name policy name' policy' hmem hmem' _
  simp only [List.mem_cons, reduceCtorEq, List.not_mem_nil, or_false, false_or,
    Stage.ratePolicy.injEq] at hmem hmem'
  exact ⟨hmem.1.trans hmem'.1.symm, hmem.2.trans hmem'.2.symm⟩

theorem serveHTTP_exact_sampleBucket :
    DecidesExactly sampleHandler (system sampleHandler).init 0
      [samplePolicy (some ⟨none⟩) [sampleBucketPolicy]] sampleInfo := by
  refine (serveHTTP_exact_iff _ _ _ ?_).mpr (answersBeforeCrashes_iff.mpr (by decide +kernel))
  rw [stagesFor_samplePolicy]
  exact distinguishes_samplePolicy _ _

/-- A policy that has a rate limit and no circuit breaking. -/
theorem not_decidesExactly_sampleBucket :
    ¬ DecidesExactly sampleHandler (system sampleHandler).init 0
      [samplePolicy none [sampleBucketPolicy]] sampleInfo := by
  rintro ⟨outcome, s', hserve, hne, -⟩
  have hpanic : (sampleHandler.serveHTTP 0 (.ok [samplePolicy none [sampleBucketPolicy]])
      (.ok sampleInfo) (system sampleHandler).init).map (·.1) = some .panicked := by
    decide +kernel
  rw [hserve] at hpanic
  exact hne (Option.some.inj hpanic)

end

end CtrlMesh.TrafficHandler
