import ControllerMesh.Proof.Admission
import ControllerMesh.Proof.HandlerSim
import ControllerMesh.Spec.IdealBuckets

/-!
# What a rejected request costs

`allow` reserves a token before it knows whether the request will be admitted, and
no reservation is cancelled: a request that is rejected has taken a token of every
bucket that it was checked against before, and of the one that rejected it. A
reservation is free only if the bucket has no room for a token, or a negative limit.

* `bucketOf_allow_iff`: when a control is as if it had not been asked;
* `costsNothing_iff`: when a rejected request leaves all buckets as they were;
* `Sim`: the handler and the ideal one, as long as rejected requests are free;
* `rejections_free_iff`: rejected requests cost nothing, and those that are admitted
  are those that the ideal handler admits, if and only if no rejected request makes a
  reservation that is charged.
-/

namespace CtrlMesh.TrafficHandler

open Framework Framework.Limiter

open Traffic (matchesAPIServerRules)

variable {h : Handler} {now : Seconds} {info : FullRequestInfo}

/-! ## One control -/

namespace RateControl

variable {c : RateControl}

/-- The request gets to a bucket of the control that charges it. -/
def Charged (c : RateControl) : Prop :=
  ∃ ls lim, c.live = some ls ∧ ls.acquire ≠ none ∧ ls.bucket = some lim ∧ lim.Charges

/-- The bucket was not updated after `now`. -/
def Timely (now : Seconds) (c : RateControl) : Prop :=
  ∀ lim, c.bucketOf = some lim → ∀ t, lim.last = some t → t ≤ now

theorem bucketOf_of_live {ls : Limits} (hlive : c.live = some ls) : c.bucketOf = ls.bucket := by
  unfold live at hlive
  unfold bucketOf
  cases hlimits : c.limits with
  | some ls' =>
    rw [hlimits] at hlive
    cases hlive
    rfl
  | none =>
    rw [hlimits, Option.none_or] at hlive
    simp only [hlive, Option.bind_some]

theorem bucketOf_of_live_eq_none (hlive : c.live = none) : c.bucketOf = none := by
  obtain ⟨hlimits, hmake⟩ := Option.or_eq_none_iff.mp hlive
  simp [bucketOf, hlimits, hmake]

/-- The bucket after `allow`. -/
theorem bucketOf_allow {ls : Limits} (hlive : c.live = some ls) :
    (c.allow h now info).2.bucketOf = if ls.acquire = none then ls.bucket
      else ls.bucket.map fun lim => (lim.reserve now).2 := by
  rw [allow_of_live hlive]
  exact (allowWith_cases c ls).bucket

theorem bucketOf_allow_of_live_eq_none (hlive : c.live = none) :
    (c.allow h now info).2.bucketOf = none := by
  rw [allow_of_live_eq_none hlive]
  rfl

/-- A control is as if it had not been asked exactly if it was not charged. -/
theorem bucketOf_allow_iff (htimely : c.Timely now) :
    SameTokens now (c.allow h now info).2.bucketOf c.bucketOf ↔ ¬ c.Charged := by
  cases hlive : c.live with
  | none =>
    rw [bucketOf_allow_of_live_eq_none hlive, bucketOf_of_live_eq_none hlive]
    refine iff_of_true .none ?_
    rintro ⟨ls, lim, hls, -⟩
    exact absurd (hlive.symm.trans hls) (by simp)
  | some ls =>
    have hbucket := bucketOf_of_live hlive
    rw [bucketOf_allow hlive, hbucket]
    cases hacquire : ls.acquire with
    | none =>
      rw [if_pos rfl]
      refine iff_of_true (.refl now _) ?_
      rintro ⟨ls', lim, hls', hne, -⟩
      cases hlive.symm.trans hls'
      exact hne hacquire
    | some p =>
      rw [if_neg (by simp)]
      cases hlim : ls.bucket with
      | none =>
        refine iff_of_true .none ?_
        rintro ⟨ls', lim, hls', -, hsome, -⟩
        cases hlive.symm.trans hls'
        exact absurd (hlim.symm.trans hsome) (by simp)
      | some lim =>
        rw [Option.map_some, SameTokens, Option.rel_some_some,
          sameFrom_reserve_iff (htimely lim (hbucket.trans hlim)), not_iff_not]
        constructor
        · exact fun hcharges => ⟨ls, lim, hlive, by simp [hacquire], hlim, hcharges⟩
        · rintro ⟨ls', lim', hls', -, hsome, hcharges⟩
          cases hlive.symm.trans hls'
          cases hlim.symm.trans hsome
          exact hcharges

theorem timely_allow (htimely : c.Timely now) : (c.allow h now info).2.Timely now := by
  intro lim hlim t hlast
  cases hlive : c.live with
  | none =>
    rw [bucketOf_allow_of_live_eq_none hlive] at hlim
    exact absurd hlim (by simp)
  | some ls =>
    have hbucket := bucketOf_of_live hlive
    rw [bucketOf_allow hlive] at hlim
    split at hlim
    · exact htimely lim (hbucket.trans hlim) t hlast
    · obtain ⟨lim', hlim', rfl⟩ := Option.map_eq_some_iff.mp hlim
      unfold Limiter.reserve at hlast
      split at hlast
      · cases hlast
        exact le_rfl
      · exact htimely lim' (hbucket.trans hlim') t hlast

theorem timely_new (now : Seconds) (name : String) (policy : RatePolicy) :
    (⟨name, policy, none⟩ : RateControl).Timely now := by
  intro lim hlim t hlast
  obtain ⟨ls, hmake, hbucket⟩ := Option.bind_eq_some_iff.mp hlim
  rw [(Limits.make_eq_some hmake).1] at hbucket
  obtain ⟨b, -, rfl⟩ := Option.map_eq_some_iff.mp hbucket
  exact absurd hlast (by simp [Limiter.new])

theorem Timely.mono {t : Seconds} (htimely : c.Timely now) (ht : now ≤ t) : c.Timely t :=
  fun lim hlim t' hlast => (htimely lim hlim t' hlast).trans ht

theorem bucketOf_of_rest {c' : RateControl} (hrest : c'.rest = c.rest) :
    c'.bucketOf = c.bucketOf := by
  obtain ⟨name, policy, limits⟩ := c
  obtain ⟨name', policy', limits'⟩ := c'
  simp only [rest, Prod.mk.injEq] at hrest
  obtain ⟨rfl, rfl, hlimits⟩ := hrest
  unfold bucketOf
  cases limits with
  | none =>
    cases limits' with
    | none => rfl
    | some ls' => simp at hlimits
  | some ls =>
    cases limits' with
    | none => simp at hlimits
    | some ls' => simpa using hlimits

end RateControl

/-! ## One request -/

/-- The buckets of all controls have the tokens that they had. -/
def BucketsKept (now : Seconds) (old new : StringMap RateControl) : Prop :=
  ∀ hash c, new[hash]? = some c → SameTokens now c.bucketOf (formerControl old hash c).bucketOf

/-- No bucket was updated after `now`. -/
def TimelyControls (now : Seconds) (controls : StringMap RateControl) : Prop :=
  ∀ (hash : String) c, controls[hash]? = some c → c.Timely now

section

variable {controls controls' : StringMap RateControl} {seen : List Stage} {l : Loop}

theorem timely_loadOrStore (htimely : TimelyControls now controls) (name : String)
    (policy : RatePolicy) : (loadOrStore h controls name policy).Timely now := by
  unfold loadOrStore
  cases hc : controls[h.hashRatePolicy name policy]? with
  | none => exact RateControl.timely_new now name policy
  | some c => exact htimely _ c hc

theorem name_allow (c : RateControl) :
    (c.allow h now info).2.name = c.name ∧ (c.allow h now info).2.policy = c.policy := by
  cases hlive : c.live with
  | none => simp [RateControl.allow_of_live_eq_none hlive]
  | some ls => simp [RateControl.allow_of_live hlive]

/-- What the former control was is known from the name and the policy. -/
theorem formerControl_loadOrStore {c : RateControl} {name : String} {policy : RatePolicy}
    (hname : c.name = (loadOrStore h controls name policy).name)
    (hpolicy : c.policy = (loadOrStore h controls name policy).policy) :
    formerControl controls (h.hashRatePolicy name policy) c = loadOrStore h controls name policy := by
  unfold formerControl
  unfold loadOrStore at hname hpolicy ⊢
  cases hc : controls[h.hashRatePolicy name policy]? with
  | some c' => rfl
  | none =>
    rw [hc] at hname hpolicy
    rw [Option.getD_none, hname, hpolicy]
    rfl

section

variable (hinv : LoopInv h controls now info seen l)
  (hrest : ∀ hash : String, (controls'[hash]?).map (·.rest) = (l.controls[hash]?).map (·.rest))

include hinv hrest

/-- A control that was asked has the bucket that `allow` has left, after the deferred
calls, too. -/
theorem LoopInv.asked {name : String} {policy : RatePolicy}
    (hchecked : Checked info seen name policy) :
    ∃ c, controls'[h.hashRatePolicy name policy]? = some c ∧
      c.bucketOf = ((loadOrStore h controls name policy).allow h now info).2.bucketOf ∧
      formerControl controls (h.hashRatePolicy name policy) c =
        loadOrStore h controls name policy := by
  have hrest := hrest (h.hashRatePolicy name policy)
  rw [hinv.done hchecked, Option.map_some] at hrest
  obtain ⟨c, hc, hrest⟩ := Option.map_eq_some_iff.mp hrest
  refine ⟨c, hc, RateControl.bucketOf_of_rest hrest, formerControl_loadOrStore ?_ ?_⟩
  · exact (congrArg Prod.fst hrest).trans (name_allow _).1
  · exact (congrArg (·.2.1) hrest).trans (name_allow _).2

/-- A control that was not asked is the one that was there before. -/
theorem LoopInv.not_asked {hash : String} (hmem : hash ∉ l.rateHashes) {c : RateControl}
    (hc : controls'[hash]? = some c) :
    ∃ c₀, controls[hash]? = some c₀ ∧ c.bucketOf = c₀.bucketOf := by
  have hrest := hrest hash
  rw [hc, hinv.fresh hmem, Option.map_some] at hrest
  obtain ⟨c₀, hc₀, hrest⟩ := Option.map_eq_some_iff.mp hrest.symm
  exact ⟨c₀, hc₀, RateControl.bucketOf_of_rest hrest.symm⟩

/-- The buckets are kept if and only if no control that was asked has charged the
request. -/
theorem bucketsKept_iff (htimely : TimelyControls now controls) :
    BucketsKept now controls controls' ↔
      ∀ name policy, Checked info seen name policy →
        ¬ (loadOrStore h controls name policy).Charged := by
  constructor
  · intro hkept name policy hchecked
    obtain ⟨c, hc, hbucket, hformer⟩ := hinv.asked hrest hchecked
    have hsame := hkept _ c hc
    rw [hbucket, hformer] at hsame
    exact (RateControl.bucketOf_allow_iff (timely_loadOrStore htimely name policy)).mp hsame
  · intro hfree hash c hc
    by_cases hmem : hash ∈ l.rateHashes
    · obtain ⟨name, policy, hchecked, rfl⟩ := (hinv.mem_iff hash).mp hmem
      obtain ⟨c', hc', hbucket, hformer⟩ := hinv.asked hrest hchecked
      cases hc.symm.trans hc'
      rw [hbucket, hformer]
      exact (RateControl.bucketOf_allow_iff (timely_loadOrStore htimely name policy)).mpr
        (hfree name policy hchecked)
    · obtain ⟨c₀, hc₀, hbucket⟩ := hinv.not_asked hrest hmem hc
      rw [hbucket, formerControl, hc₀]
      exact .refl now _

theorem LoopInv.timely (htimely : TimelyControls now controls) : TimelyControls now controls' := by
  intro hash c hc lim hlim
  by_cases hmem : hash ∈ l.rateHashes
  · obtain ⟨name, policy, hchecked, rfl⟩ := (hinv.mem_iff hash).mp hmem
    obtain ⟨c', hc', hbucket, -⟩ := hinv.asked hrest hchecked
    cases hc.symm.trans hc'
    rw [hbucket] at hlim
    exact RateControl.timely_allow (timely_loadOrStore htimely name policy) lim hlim
  · obtain ⟨c₀, hc₀, hbucket⟩ := hinv.not_asked hrest hmem hc
    rw [hbucket] at hlim
    exact htimely hash c₀ hc₀ lim hlim

end

end

/-! ## Runs -/

/-- The policies that an event brings. -/
def Event.listed : Event → List TrafficPolicy
  | arrive _ (.ok policies) _ => policies
  | _ => []

/-- A rejected request leaves the tokens of all buckets as they are. -/
def CostsNothing (h : Handler) (s : State) : Event → Prop
  | .arrive now listed info => ∀ outcome s', h.serveHTTP now listed info s = some (outcome, s') →
      outcome.rejected = true → BucketsKept now s.controls s'.controls
  | .served _ _ _ => True

/-- No control that a rejected request is checked against charges it, the one that
rejects it included. -/
def NotCharged (h : Handler) (s : State) : Event → Prop
  | .arrive now listed (.ok info) =>
    (firstStop h s.controls now info (h.stagesFor now listed s)).rejected = true →
      ∀ name policy,
        Checked info (reached h s.controls now info (h.stagesFor now listed s)) name policy →
        ¬ (loadOrStore h s.controls name policy).Charged
  | _ => True

/-- Buckets were updated before the clock, and the policies in the cache are among
`policies`. -/
structure State.Sound (policies : List TrafficPolicy) (s : State) : Prop where
  timely : TimelyControls s.clock s.controls
  cached : s.cache.policies ⊆ policies

section

variable {policies : List TrafficPolicy} {s s' : State} {e : Event}
  {listed : Except String (List TrafficPolicy)} {outcome : Outcome}

theorem TimelyControls.mono {controls : StringMap RateControl} {t : Seconds}
    (htimely : TimelyControls now controls) (ht : now ≤ t) : TimelyControls t controls :=
  fun hash c hc => (htimely hash c hc).mono ht

theorem found_subset (h : Handler) (now : Seconds) (hcached : s.cache.policies ⊆ policies)
    (hlisted : ∀ ps, listed = .ok ps → ps ⊆ policies) :
    h.found now listed s.cache ⊆ policies ∧
      (h.getTrafficPolicies now listed s.cache).2.policies ⊆ policies := by
  unfold Handler.found Handler.getTrafficPolicies
  split
  · exact ⟨hcached, hcached⟩
  · split
    · exact ⟨List.nil_subset _, hcached⟩
    · rename_i ps
      have hsub : ps.filter h.targets ⊆ policies :=
        fun p hp => hlisted ps rfl (List.mem_filter.mp hp).1
      exact ⟨hsub, hsub⟩

variable (hhash : h.Distinguishes (policies.flatMap (·.stages)))

include hhash

theorem distinguishes_stagesFor (hcached : s.cache.policies ⊆ policies)
    (hlisted : ∀ ps, listed = .ok ps → ps ⊆ policies) :
    h.Distinguishes (h.stagesFor now listed s) := by
  intro name policy name' policy' hmem hmem'
  have hsub : h.stagesFor now listed s ⊆ policies.flatMap (·.stages) := by
    intro stage hstage
    obtain ⟨p, hp, hstage⟩ := List.mem_flatMap.mp hstage
    exact List.mem_flatMap.mpr ⟨p, (found_subset h now hcached hlisted).1 hp, hstage⟩
  exact hhash name policy name' policy' (hsub hmem) (hsub hmem')

theorem State.Sound.serve (hs : s.Sound policies) (hlisted : ∀ ps, listed = .ok ps → ps ⊆ policies)
    (htime : s.clock ≤ now) {info : Except String FullRequestInfo}
    (hserve : h.serveHTTP now listed info s = some (outcome, s')) :
    TimelyControls now s'.controls ∧ s'.cache.policies ⊆ policies := by
  have htimely := hs.timely.mono htime
  have hcache := (found_subset h now hs.cached hlisted).2
  cases info with
  | error uri =>
    rcases serveHTTP_noInfo hserve with ⟨-, rfl⟩ | ⟨-, rfl⟩
    · exact ⟨htimely, hcache⟩
    · exact ⟨htimely, hcache⟩
  | ok info =>
    have hstep := serveStep_of_eq (distinguishes_stagesFor hhash hs.cached hlisted) hserve
    obtain ⟨l, hinv, hrest⟩ := hstep.exists_loop
    refine ⟨hinv.timely hrest htimely, ?_⟩
    cases hstep with
    | forwarded _ _ => exact hcache
    | stopped _ _ _ _ => exact hcache

theorem State.Sound.step (hs : s.Sound policies) (he : e.listed ⊆ policies)
    (hstep : step h s e = some s') : s'.Sound policies := by
  cases e with
  | arrive now listed info =>
    obtain ⟨htime, outcome, s₁, hserve, rfl⟩ := step_arrive_eq_some.mp hstep
    obtain ⟨htimely, hcached⟩ := hs.serve hhash (fun ps hps => by subst hps; exact he) htime hserve
    exact ⟨htimely, hcached⟩
  | served now i status =>
    obtain ⟨htime, r, controls', hr, hrun, rfl⟩ := step_served_eq_some.mp hstep
    refine ⟨fun hash c hc lim hlim => ?_, hs.cached⟩
    have hrest := rest_runDeferred hrun hash
    rw [show controls'[hash]? = some c from hc, Option.map_some] at hrest
    obtain ⟨c₀, hc₀, hrest⟩ := Option.map_eq_some_iff.mp hrest.symm
    rw [RateControl.bucketOf_of_rest hrest.symm] at hlim
    exact (hs.timely hash c₀ hc₀).mono htime lim hlim

theorem costsNothing_iff (hs : s.Sound policies) (he : e.listed ⊆ policies)
    (hstep : TrafficHandler.step h s e = some s') : CostsNothing h s e ↔ NotCharged h s e := by
  cases e with
  | served now i status => exact Iff.rfl
  | arrive now listed info =>
    obtain ⟨htime, outcome, s₁, hserve, rfl⟩ := step_arrive_eq_some.mp hstep
    have hcost : CostsNothing h s (.arrive now listed info) ↔
        (outcome.rejected = true → BucketsKept now s.controls s₁.controls) := by
      constructor
      · exact fun hfree => hfree outcome s₁ hserve
      · intro hfree outcome' s'' hserve'
        cases hserve.symm.trans hserve'
        exact hfree
    rw [hcost]
    cases info with
    | error uri =>
      refine iff_of_true ?_ trivial
      rcases serveHTTP_noInfo hserve with ⟨rfl, -⟩ | ⟨rfl, -⟩
      · exact fun hrej => absurd hrej (by simp [Outcome.rejected])
      · exact fun hrej => absurd hrej (by simp [Outcome.rejected])
    | ok info =>
      have hserved := serveStep_of_eq
        (distinguishes_stagesFor hhash hs.cached fun ps hps => by subst hps; exact he) hserve
      obtain ⟨l, hinv, hrest⟩ := hserved.exists_loop
      rw [bucketsKept_iff hinv hrest (hs.timely.mono htime), hserved.outcome_eq]
      exact Iff.rfl

end

/-! ## The ideal handler -/

section

variable {m m' m₁ m₁' : StringMap RateControl} {c c' : RateControl}

theorem ControlSim.bucketOf (hsim : ControlSim now c c') :
    SameTokens now c.bucketOf c'.bucketOf := by
  unfold RateControl.bucketOf
  rcases rel_cases hsim.limits with ⟨hls, hls'⟩ | ⟨ls, ls', hls, hls', hlimits⟩
  · rw [hls, hls', hsim.policy]
    exact .refl now _
  · rw [hls, hls']
    exact hlimits.bucket

theorem ControlsSim.formerControl (hsim : ControlsSim now m m') (hash : String)
    (hc : ControlSim now c c') :
    ControlSim now (formerControl m hash c) (formerControl m' hash c') := by
  unfold TrafficHandler.formerControl
  rcases rel_cases (hsim hash) with ⟨hm, hm'⟩ | ⟨c₀, c₀', hm, hm', hc₀⟩
  · rw [hm, hm', hc.name, hc.policy]
    exact .new now _ _
  · rw [hm, hm']
    exact hc₀

/-- Buckets that have kept their tokens may be put back. -/
theorem ControlsSim.restoreBuckets (hold : ControlsSim now m m') (hnew : ControlsSim now m₁ m₁')
    (hkept : BucketsKept now m m₁) : ControlsSim now m₁ (restoreBuckets m' m₁') := by
  intro hash
  rw [TrafficHandler.restoreBuckets, Std.ExtTreeMap.getElem?_map]
  rcases rel_cases (hnew hash) with ⟨hm, hm'⟩ | ⟨c, c', hm, hm', hc⟩
  · rw [hm, hm']
    exact .none
  · rw [hm, hm']
    refine .some ⟨hc.name, hc.policy, ?_⟩
    show Option.Rel (LimitsSim now) c.limits (c'.limits.map _)
    rcases rel_cases hc.limits with ⟨hls, hls'⟩ | ⟨ls, ls', hls, hls', hlimits⟩
    · rw [hls, hls']
      exact .none
    · have hbucket : c.bucketOf = ls.bucket := by
        rw [RateControl.bucketOf, hls]
      have hsame := (hkept hash c hm).trans (hold.formerControl hash hc).bucketOf
      rw [hbucket] at hsame
      rw [hls, hls']
      exact .some ⟨hlimits.chan, hsame, hlimits.backoff⟩

end

/-- The handler and the ideal one. -/
structure Sim (s t : State) : Prop where
  simAt : SimAt s.clock s t
  clock : s.clock = t.clock

theorem Sim.refl (s : State) : Sim s s := by
  refine ⟨⟨fun hash => ?_, rfl, rfl, rfl, rfl⟩, rfl⟩
  cases s.controls[hash]? with
  | none => exact .none
  | some c =>
    refine .some ⟨rfl, rfl, ?_⟩
    cases c.limits with
    | none => exact .none
    | some ls => exact .some (.refl _ ls)

section

variable {policies : List TrafficPolicy} {s s' t : State} {e : Event}

/-- A step of the handler in which no rejected request is charged is a step of the
ideal one. -/
theorem Sim.step (hhash : h.Distinguishes (policies.flatMap (·.stages))) (hs : s.Sound policies)
    (he : e.listed ⊆ policies) (hfree : NotCharged h s e) (hsim : Sim s t)
    (hstep : step h s e = some s') : ∃ t', idealStep h t e = some t' ∧ Sim s' t' := by
  have hcost := (costsNothing_iff hhash hs he hstep).mpr hfree
  cases e with
  | served now i status =>
    obtain ⟨htime, r, controls', hr, hrun, rfl⟩ := step_served_eq_some.mp hstep
    have hsimAt := hsim.simAt.mono htime
    rcases rel_cases (hsimAt.controls.runDeferred r.deferred) with
      ⟨hrun', -⟩ | ⟨m, m', hm, hm', hcontrols⟩
    · exact absurd (hrun'.symm.trans hrun) (by simp)
    · cases hm.symm.trans hrun
      refine ⟨{ t with
          controls := m'
          serving := t.serving.set i none
          clock := now
          responses := t.responses ++ r.response status now }, ?_, ⟨?_, rfl⟩⟩
      · exact (step_served_eq_some (h := h)).mpr
          ⟨hsim.clock ▸ htime, r, m', hsimAt.serving ▸ hr, hm', rfl⟩
      · exact ⟨hcontrols, hsimAt.cache, by rw [hsimAt.serving], hsimAt.outcomes,
          by rw [hsimAt.responses]⟩
  | arrive now listed info =>
    obtain ⟨htime, outcome, s₁, hserve, rfl⟩ := step_arrive_eq_some.mp hstep
    have hsimAt := hsim.simAt.mono htime
    rcases rel_cases (hsimAt.serveHTTP (h := h) listed info) with
      ⟨hserve', -⟩ | ⟨⟨outcome', s₁'⟩, ⟨outcome'', t₁⟩, hs₁, ht₁, houtcome, hsim₁⟩
    · exact absurd (hserve'.symm.trans hserve) (by simp)
    · cases hs₁.symm.trans hserve
      dsimp only at houtcome hsim₁
      subst houtcome
      refine ⟨{ t₁ with
          controls := if outcome.rejected then restoreBuckets t.controls t₁.controls
            else t₁.controls
          clock := now
          outcomes := t.outcomes ++ [outcome] }, ?_, ⟨?_, rfl⟩⟩
      · have htime' : t.clock ≤ now := hsim.clock ▸ htime
        simp [idealStep, htime', ht₁]
      · refine ⟨?_, hsim₁.cache, hsim₁.serving, by rw [hsimAt.outcomes], hsim₁.responses⟩
        split
        · rename_i hrejected
          exact hsimAt.controls.restoreBuckets hsim₁.controls (hcost outcome s₁ hserve hrejected)
        · exact hsim₁.controls

/-- In every run, rejected requests leave the tokens of all buckets as they are, and
the outcomes are those of the ideal handler, if and only if no rejected request is
charged by a control that it is checked against. -/
theorem rejections_free_iff (hhash : h.Distinguishes (policies.flatMap (·.stages)))
    (hs : s.Sound policies) {es : List Event} (hes : ∀ e ∈ es, e.listed ⊆ policies)
    (hrun : (system h).runFrom s es = some s') :
    ((system h).Steps (CostsNothing h) s es ∧
        ∃ t, (idealSystem h).runFrom s es = some t ∧ t.outcomes = s'.outcomes) ↔
      (system h).Steps (NotCharged h) s es := by
  have hsound {s e s'} (he : Event.listed e ⊆ policies) (hs : s.Sound policies)
      (hstep : (system h).step s e = some s') : s'.Sound policies :=
    hs.step hhash he hstep
  have hcongr := (system h).steps_congr hsound
    (fun he hs hstep => costsNothing_iff hhash hs he hstep) hes hs hrun
  constructor
  · exact fun hfree => hcongr.mp hfree.1
  · intro hfree
    obtain ⟨t, ht, hsim⟩ := (system h).runFrom_simulates (idealSystem h) (R := Sim) hsound
      (fun he hs hok hsim hstep => hsim.step hhash hs he hok hstep) hes hs hfree (.refl s) hrun
    exact ⟨hcongr.mpr hfree, t, ht, hsim.simAt.outcomes.symm⟩

end

/-- The same request at these times. -/
def sampleArrivals (policy : RatePolicy) (times : List Seconds) : List Event :=
  times.map fun now => .arrive now (.ok [samplePolicy (some ⟨none⟩) [policy]]) (.ok sampleInfo)

/-- The request is not rejected, or the channels of all controls it is checked against
are full. -/
def acceptsOrFull (h : Handler) (s : State) : Event → Bool
  | .arrive now listed (.ok info) =>
    !(firstStop h s.controls now info (h.stagesFor now listed s)).rejected ||
      (reached h s.controls now info (h.stagesFor now listed s)).all fun
        | .ratePolicy name policy =>
          (loadOrStore h s.controls name policy).live.all (·.acquire.isNone)
        | .circuitBreaking _ _ => true
  | _ => true

theorem notCharged_of_acceptsOrFull {s : State} {e : Event} (htest : acceptsOrFull h s e = true) :
    NotCharged h s e := by
  rcases e with ⟨now, listed, uri | info⟩ | ⟨now, i, status⟩
  · trivial
  · rintro hrejected name policy ⟨hmem, -⟩ ⟨ls, lim, hlive, hacquire, -⟩
    simp only [acceptsOrFull, hrejected, Bool.not_true, Bool.false_or] at htest
    have hfull := List.all_eq_true.mp htest _ hmem
    simp only [hlive, Option.all_some, Option.isNone_iff_eq_none] at hfull
    exact hacquire hfull
  · trivial

theorem sound_init (h : Handler) (policies : List TrafficPolicy) :
    (system h).init.Sound policies :=
  ⟨fun hash c hc => by simp [system] at hc, List.nil_subset _⟩

/-- One token per second, and one request at a time. -/
def sampleSerialPolicy : RatePolicy := ⟨sampleRules, some 1, some ⟨1, 1⟩, none⟩

/-- The second request comes while the first one is served, and is turned away by the
channel before it gets to the bucket. The third one has its token. -/
def sampleSerialArrivals : List Event :=
  sampleArrivals sampleSerialPolicy [0, 1 / 2] ++
    .served (3 / 4) 0 200 :: sampleArrivals sampleSerialPolicy [1]

theorem rejections_free_sampleSerial :
    ((system sampleHandler).run sampleSerialArrivals).map
        (fun s => s.outcomes.map (·.rejected)) = some [false, true, false] ∧
      (system sampleHandler).Steps (CostsNothing sampleHandler) (system sampleHandler).init
        sampleSerialArrivals := by
  have hrun : ((system sampleHandler).run sampleSerialArrivals).map
      (fun s => s.outcomes.map (·.rejected)) = some [false, true, false] := by
    decide +kernel
  obtain ⟨s', hs', -⟩ := Option.map_eq_some_iff.mp hrun
  have hhash : sampleHandler.Distinguishes
      ([samplePolicy (some ⟨none⟩) [sampleSerialPolicy]].flatMap (·.stages)) :=
    distinguishes_samplePolicy _ _
  refine ⟨hrun, ((rejections_free_iff hhash (sound_init _ _) ?_ hs').mpr ?_).1⟩
  · simp [sampleSerialArrivals, sampleArrivals, Event.listed]
  · exact (system sampleHandler).steps_of_checkSteps (acceptsOrFull sampleHandler)
      notCharged_of_acceptsOrFull (by decide +kernel)

theorem rejected_sampleArrivals :
    ((system sampleHandler).run (sampleArrivals sampleBucketPolicy [0, 1 / 2, 1])).map
        (fun s => s.outcomes.map (·.rejected)) = some [false, true, true] ∧
      ((idealSystem sampleHandler).run (sampleArrivals sampleBucketPolicy [0, 1 / 2, 1])).map
        (fun s => s.outcomes.map (·.rejected)) = some [false, true, false] := by
  decide +kernel

/-- A request every half second at a bucket of one token per second: after the first
one, every request is rejected, and takes the token that the next one waits for. The
ideal handler admits the third one. -/
theorem rejections_charged_sampleArrivals :
    ∃ s', (system sampleHandler).runFrom (system sampleHandler).init
        (sampleArrivals sampleBucketPolicy [0, 1 / 2, 1]) = some s' ∧
      ¬ ∃ t, (idealSystem sampleHandler).runFrom (system sampleHandler).init
        (sampleArrivals sampleBucketPolicy [0, 1 / 2, 1]) = some t ∧ t.outcomes = s'.outcomes := by
  obtain ⟨hactual, hideal⟩ := rejected_sampleArrivals
  obtain ⟨s', hs', hrejected⟩ := Option.map_eq_some_iff.mp hactual
  refine ⟨s', hs', ?_⟩
  rintro ⟨t, ht, heq⟩
  obtain ⟨t', ht', hrejected'⟩ := Option.map_eq_some_iff.mp hideal
  cases ht.symm.trans ht'
  rw [heq, hrejected] at hrejected'
  exact absurd hrejected' (by decide)

end CtrlMesh.TrafficHandler
