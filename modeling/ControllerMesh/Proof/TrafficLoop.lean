import ControllerMesh.Impl.TrafficHandler

/-!
# The loop over the traffic policies

What `ServeHTTP` does with a request can be read off the rate controls that it
finds: a request visits each control once, so that the steps of the loop do not see
what the steps before have done (`Stage.stop`, `reached`).

* `allowWith_cases`: every way through `allow`;
* `visit_spec`, `visitAll_spec`: one step of the loop, and the loop;
* `exists_runDeferred`: the deferred calls of a request that does not get to the
  inner handler find their tokens, and change nothing but tokens.
-/

namespace CtrlMesh.TrafficHandler

open Framework

open Traffic (HttpError matchesAPIServerRules)

variable {h : Handler} {now : Seconds} {info : FullRequestInfo}

/-! ## `allow` -/

namespace Limits

variable {ls ls' : Limits} {acquired : Bool}

theorem make_eq_some {policy : RatePolicy} (hmake : make policy = some ls) :
    ls.bucket = policy.bucket.map (fun b => Limiter.new b.qps b.burst) ∧
      ls.exponentialBackoff = policy.exponentialBackoff.map fun spec => ⟨spec, []⟩ := by
  obtain ⟨ch, -, rfl⟩ := Option.map_eq_some_iff.mp hmake
  exact ⟨rfl, rfl⟩

theorem acquire_eq_some (hacquire : ls.acquire = some (acquired, ls')) :
    ls'.bucket = ls.bucket ∧ ls'.exponentialBackoff = ls.exponentialBackoff ∧
      (acquired = true → ∃ ch, ls'.maxInFlightChan = some ch ∧ 0 < ch.len) := by
  unfold acquire at hacquire
  split at hacquire
  · cases hacquire
    exact ⟨rfl, rfl, fun h => absurd h (by decide)⟩
  · rename_i ch hch
    obtain ⟨ch', hsend, heq⟩ := Option.map_eq_some_iff.mp hacquire
    cases heq
    refine ⟨rfl, rfl, fun _ => ⟨ch', rfl, ?_⟩⟩
    unfold Chan.send at hsend
    split at hsend
    · cases hsend
      exact Nat.succ_pos _
    · exact absurd hsend (by simp)

theorem maxInFlightChan_reserve (ls : Limits) (now : Seconds) :
    (ls.reserve now).2.maxInFlightChan = ls.maxInFlightChan := by
  unfold reserve
  split <;> rfl

theorem exponentialBackoff_reserve (ls : Limits) (now : Seconds) :
    (ls.reserve now).2.exponentialBackoff = ls.exponentialBackoff := by
  unfold reserve
  split <;> rfl

theorem bucket_reserve (ls : Limits) (now : Seconds) :
    (ls.reserve now).2.bucket = ls.bucket.map fun lim => (lim.reserve now).2 := by
  unfold reserve
  split
  · rename_i hb
    rw [hb]
    rfl
  · rename_i hb
    rw [hb]
    rfl

/-- The lookup panics if there is a backoff, whatever is in it. -/
theorem delay_eq_none_iff {comparable : Bool} :
    ls.delay comparable now info = none ↔ ls.exponentialBackoff ≠ none ∧ comparable = false := by
  unfold delay
  cases ls.exponentialBackoff with
  | none => simp
  | some eb =>
    simp only [Option.map_eq_none_iff, ne_eq, reduceCtorEq, not_false_eq_true, true_and]
    unfold RateExponentialBackoff.delay
    cases comparable with
    | false => simp
    | true =>
      simp only [Bool.not_true, Bool.false_eq_true, if_false]
      split
      · simp
      · split
        · simp
        · split <;> simp

theorem delay_eq_some {comparable : Bool} {p : Seconds × Bool}
    (hdelay : ls.delay comparable now info = some (p, ls')) :
    ls'.maxInFlightChan = ls.maxInFlightChan ∧ ls'.bucket = ls.bucket := by
  unfold delay at hdelay
  split at hdelay
  · cases hdelay
    exact ⟨rfl, rfl⟩
  · obtain ⟨q, -, heq⟩ := Option.map_eq_some_iff.mp hdelay
    cases heq
    exact ⟨rfl, rfl⟩

/-- The channel and the bucket let a request pass, so that it gets to the backoff. -/
def Passes (ls : Limits) (now : Seconds) : Prop :=
  ∃ acquired ls', ls.acquire = some (acquired, ls') ∧ ¬ 0 < (ls'.reserve now).1

theorem passes_iff (hacquire : ls.acquire = some (acquired, ls')) :
    ls.Passes now ↔ ¬ 0 < (ls'.reserve now).1 := by
  constructor
  · rintro ⟨_, _, hacquire', hdelay⟩
    cases hacquire.symm.trans hacquire'
    exact hdelay
  · exact fun hdelay => ⟨acquired, ls', hacquire, hdelay⟩

theorem not_passes_of_full (hacquire : ls.acquire = none) : ¬ ls.Passes now := by
  rintro ⟨_, _, hacquire', -⟩
  exact absurd (hacquire.symm.trans hacquire') (by simp)

end Limits

/-- The ways through `allow`, with the limits as they are before and after. -/
inductive AllowStep (h : Handler) (c : RateControl) (now : Seconds) (info : FullRequestInfo)
    (ls : Limits) : Allowed → Limits → Prop where
  | full (hacquire : ls.acquire = none) :
      AllowStep h c now info ls (.returned false false (some c.tooManyInFlight)) ls
  | limited {acquired : Bool} {ls₁ : Limits} (hacquire : ls.acquire = some (acquired, ls₁))
      (hdelay : 0 < (ls₁.reserve now).1) :
      AllowStep h c now info ls
        (.returned acquired false (some (c.bucketExceeded h (ls₁.reserve now).1)))
        (ls₁.reserve now).2
  | crashed {acquired : Bool} {ls₁ : Limits} (hacquire : ls.acquire = some (acquired, ls₁))
      (hdelay : ¬ 0 < (ls₁.reserve now).1)
      (hlookup : (ls₁.reserve now).2.delay h.comparable now info = none) :
      AllowStep h c now info ls .panicked (ls₁.reserve now).2
  | backedOff {acquired ok : Bool} {ls₁ ls₂ : Limits} {delay : Seconds}
      (hacquire : ls.acquire = some (acquired, ls₁)) (hdelay : ¬ 0 < (ls₁.reserve now).1)
      (hlookup : (ls₁.reserve now).2.delay h.comparable now info = some ((delay, ok), ls₂))
      (hpos : 0 < delay) :
      AllowStep h c now info ls (.returned acquired ok (some (c.backedOff h delay))) ls₂
  | admitted {acquired ok : Bool} {ls₁ ls₂ : Limits} {delay : Seconds}
      (hacquire : ls.acquire = some (acquired, ls₁)) (hdelay : ¬ 0 < (ls₁.reserve now).1)
      (hlookup : (ls₁.reserve now).2.delay h.comparable now info = some ((delay, ok), ls₂))
      (hpos : ¬ 0 < delay) :
      AllowStep h c now info ls (.returned acquired ok none) ls₂

theorem allowWith_cases (c : RateControl) (ls : Limits) :
    AllowStep h c now info ls (c.allowWith h now info ls).1 (c.allowWith h now info ls).2 := by
  unfold RateControl.allowWith
  split
  · rename_i hacquire
    exact .full hacquire
  · rename_i acquired ls₁ hacquire
    dsimp only
    split
    · rename_i hdelay
      exact .limited hacquire hdelay
    · rename_i hdelay
      split
      · rename_i hlookup
        exact .crashed hacquire hdelay hlookup
      · rename_i delay ok ls₂ hlookup
        split
        · rename_i hpos
          exact .backedOff hacquire hdelay hlookup hpos
        · rename_i hpos
          exact .admitted hacquire hdelay hlookup hpos

namespace AllowStep

variable {c : RateControl} {ls ls' : Limits} {allowed : Allowed}

/-- The bucket is asked once a token is in the channel. -/
theorem bucket (hstep : AllowStep h c now info ls allowed ls') :
    ls'.bucket = if ls.acquire = none then ls.bucket
      else ls.bucket.map fun lim => (lim.reserve now).2 := by
  have hreserve {acquired : Bool} {ls₁ : Limits} (hacquire : ls.acquire = some (acquired, ls₁)) :
      (ls₁.reserve now).2.bucket = if ls.acquire = none then ls.bucket
        else ls.bucket.map fun lim => (lim.reserve now).2 := by
    rw [if_neg (by simp [hacquire]), Limits.bucket_reserve, (Limits.acquire_eq_some hacquire).1]
  cases hstep with
  | full hacquire => rw [if_pos hacquire]
  | limited hacquire _ => exact hreserve hacquire
  | crashed hacquire _ _ => exact hreserve hacquire
  | backedOff hacquire _ hlookup _ => rw [(Limits.delay_eq_some hlookup).2, hreserve hacquire]
  | admitted hacquire _ hlookup _ => rw [(Limits.delay_eq_some hlookup).2, hreserve hacquire]

/-- A deferred release finds a token. -/
theorem releases {records : Bool} {err : Option HttpError}
    (hstep : AllowStep h c now info ls (.returned true records err) ls') :
    ∃ ch, ls'.maxInFlightChan = some ch ∧ 0 < ch.len := by
  have hreserve {ls₁ : Limits} (hacquire : ls.acquire = some (true, ls₁)) :
      ∃ ch, (ls₁.reserve now).2.maxInFlightChan = some ch ∧ 0 < ch.len := by
    rw [Limits.maxInFlightChan_reserve]
    exact (Limits.acquire_eq_some hacquire).2.2 rfl
  cases hstep with
  | limited hacquire _ => exact hreserve hacquire
  | backedOff hacquire _ hlookup _ =>
    rw [(Limits.delay_eq_some hlookup).1]
    exact hreserve hacquire
  | admitted hacquire _ hlookup _ =>
    rw [(Limits.delay_eq_some hlookup).1]
    exact hreserve hacquire

end AllowStep

namespace RateControl

/-- The limits that `allow` works with; `none` if `once` panics. -/
def live (c : RateControl) : Option Limits := c.limits.or (Limits.make c.policy)

variable {c : RateControl}

theorem allow_of_live {ls : Limits} (hlive : c.live = some ls) :
    c.allow h now info =
      ((c.allowWith h now info ls).1, { c with limits := some (c.allowWith h now info ls).2 }) := by
  unfold live at hlive
  unfold allow
  cases hlimits : c.limits with
  | some ls' =>
    rw [hlimits] at hlive
    cases hlive
    rfl
  | none =>
    rw [hlimits, Option.none_or] at hlive
    simp only [hlive]

theorem allow_of_live_eq_none (hlive : c.live = none) :
    c.allow h now info = (.panicked, { c with limits := some ⟨none, none, none⟩ }) := by
  unfold live at hlive
  obtain ⟨hlimits, hmake⟩ := Option.or_eq_none_iff.mp hlive
  unfold allow
  simp only [hlimits, hmake]

/-- A deferred release finds a token. -/
theorem exists_limits_allow (h : Handler) (now : Seconds) (info : FullRequestInfo)
    (c : RateControl) : ∃ ls, (c.allow h now info).2.limits = some ls ∧
    ∀ records err, (c.allow h now info).1 = .returned true records err →
      ∃ ch, ls.maxInFlightChan = some ch ∧ 0 < ch.len := by
  cases hlive : c.live with
  | none =>
    rw [allow_of_live_eq_none hlive]
    exact ⟨_, rfl, fun records err heq => absurd heq (by simp)⟩
  | some ls =>
    rw [allow_of_live hlive]
    refine ⟨_, rfl, fun records err heq => ?_⟩
    have hstep : AllowStep h c now info ls _ _ := allowWith_cases c ls
    rw [show (c.allowWith h now info ls).1 = .returned true records err from heq] at hstep
    exact hstep.releases

end RateControl

/-! ## The loop -/

/-- What `allow` ends a request with, if it does. -/
def Allowed.stop : Allowed → Option Outcome
  | panicked => some .panicked
  | returned _ _ err => err.map .answered

/-- What a step of the loop ends a request with that finds the controls as they
are. -/
def Stage.stop (h : Handler) (controls : StringMap RateControl) (now : Seconds)
    (info : FullRequestInfo) : Stage → Option Outcome
  | .circuitBreaking _ none => some .panicked
  | .circuitBreaking _ (some ⟨none⟩) => none
  | .circuitBreaking policyName (some ⟨some rules⟩) =>
    if matchesAPIServerRules info.toRequestInfo rules then
      some (.answered ⟨417, "Circuit breaking by TrafficPolicy " ++ policyName, none⟩)
    else none
  | .ratePolicy policyName policy =>
    if matchesAPIServerRules info.toRequestInfo policy.rules then
      ((loadOrStore h controls policyName policy).allow h now info).1.stop
    else none

section

variable {controls : StringMap RateControl} {name : String} {policy : RatePolicy}

theorem stop_ratePolicy_of_match
    (hmatch : matchesAPIServerRules info.toRequestInfo policy.rules = true) :
    (Stage.ratePolicy name policy).stop h controls now info =
      ((loadOrStore h controls name policy).allow h now info).1.stop :=
  if_pos hmatch

theorem stop_ratePolicy_of_not_match
    (hmatch : ¬ matchesAPIServerRules info.toRequestInfo policy.rules = true) :
    (Stage.ratePolicy name policy).stop h controls now info = none :=
  if_neg hmatch

end

/-- The outcome of the first step that ends the request. -/
def firstStop (h : Handler) (controls : StringMap RateControl) (now : Seconds)
    (info : FullRequestInfo) : List Stage → Outcome
  | [] => .forwarded
  | stage :: stages =>
    (stage.stop h controls now info).getD (firstStop h controls now info stages)

/-- The steps up to there. -/
def reached (h : Handler) (controls : StringMap RateControl) (now : Seconds)
    (info : FullRequestInfo) : List Stage → List Stage
  | [] => []
  | stage :: stages =>
    stage :: if (stage.stop h controls now info).isNone then reached h controls now info stages
      else []

/-- Different rate policies have different hashes. -/
def Handler.Distinguishes (h : Handler) (stages : List Stage) : Prop :=
  ∀ name policy name' policy', .ratePolicy name policy ∈ stages → .ratePolicy name' policy' ∈ stages →
    h.hashRatePolicy name policy = h.hashRatePolicy name' policy' → name = name' ∧ policy = policy'

/-- A rate policy that the request is checked against. -/
def Checked (info : FullRequestInfo) (stages : List Stage) (name : String) (policy : RatePolicy) :
    Prop :=
  .ratePolicy name policy ∈ stages ∧
    matchesAPIServerRules info.toRequestInfo policy.rules = true

/-- A deferred call that has a control, and a token if it releases one. -/
def Deferred.Ready (controls : StringMap RateControl) (d : Deferred) : Prop :=
  ∃ c ls, controls[d.hash]? = some c ∧ c.limits = some ls ∧
    (d.releases = true → ∃ ch, ls.maxInFlightChan = some ch ∧ 0 < ch.len)

/-- The variables of the loop after the steps `seen`, none of which has ended the
request. -/
structure LoopInv (h : Handler) (controls : StringMap RateControl) (now : Seconds)
    (info : FullRequestInfo) (seen : List Stage) (l : Loop) : Prop where
  mem_iff (hash : String) : hash ∈ l.rateHashes ↔
    ∃ name policy, Checked info seen name policy ∧ h.hashRatePolicy name policy = hash
  fresh {hash : String} : hash ∉ l.rateHashes → l.controls[hash]? = controls[hash]?
  done {name : String} {policy : RatePolicy} : Checked info seen name policy →
    l.controls[h.hashRatePolicy name policy]? =
      some ((loadOrStore h controls name policy).allow h now info).2
  visited {d : Deferred} : d ∈ l.deferred → d.hash ∈ l.rateHashes
  ready {d : Deferred} : d ∈ l.deferred → d.Ready l.controls
  status {d : Deferred} : d ∈ l.deferred → d.status = 0
  nodup : (l.deferred.map (·.hash)).Nodup

section

variable {controls : StringMap RateControl} {seen : List Stage} {stage : Stage} {l : Loop}

theorem loopInv_nil (h : Handler) (now : Seconds) (info : FullRequestInfo)
    (controls : StringMap RateControl) :
    LoopInv h controls now info [] ⟨controls, ∅, []⟩ where
  mem_iff hash := by simp [Checked]
  fresh _ := rfl
  done hchecked := absurd hchecked.1 List.not_mem_nil
  visited hd := absurd hd List.not_mem_nil
  ready hd := absurd hd List.not_mem_nil
  status hd := absurd hd List.not_mem_nil
  nodup := List.nodup_nil

/-- A step that asks no control. -/
theorem LoopInv.skip (hinv : LoopInv h controls now info seen l)
    (hskip : ∀ name policy, Checked info (seen ++ [stage]) name policy →
      Checked info seen name policy) : LoopInv h controls now info (seen ++ [stage]) l where
  mem_iff hash := by
    rw [hinv.mem_iff]
    constructor
    · rintro ⟨name, policy, hchecked, hhash⟩
      exact ⟨name, policy, ⟨List.mem_append_left _ hchecked.1, hchecked.2⟩, hhash⟩
    · rintro ⟨name, policy, hchecked, hhash⟩
      exact ⟨name, policy, hskip name policy hchecked, hhash⟩
  fresh := hinv.fresh
  done hchecked := hinv.done (hskip _ _ hchecked)
  visited := hinv.visited
  ready := hinv.ready
  status := hinv.status
  nodup := hinv.nodup

theorem checked_append_ratePolicy {name name' : String} {policy policy' : RatePolicy}
    (hmatch : matchesAPIServerRules info.toRequestInfo policy.rules = true) :
    Checked info (seen ++ [.ratePolicy name policy]) name' policy' ↔
      Checked info seen name' policy' ∨ (name' = name ∧ policy' = policy) := by
  simp only [Checked, List.mem_append, List.mem_singleton, Stage.ratePolicy.injEq]
  constructor
  · rintro ⟨hmem | heq, hm⟩
    · exact .inl ⟨hmem, hm⟩
    · exact .inr heq
  · rintro (⟨hmem, hm⟩ | ⟨rfl, rfl⟩)
    · exact ⟨.inl hmem, hm⟩
    · exact ⟨.inr ⟨rfl, rfl⟩, hmatch⟩

theorem Deferred.Ready.insert {d : Deferred} {hash : String} {c : RateControl}
    (hready : d.Ready controls) (hne : hash ≠ d.hash) : d.Ready (controls.insert hash c) := by
  obtain ⟨c', ls, hc', hls⟩ := hready
  refine ⟨c', ls, ?_, hls⟩
  rw [StringMap.getElem?_insert, if_neg hne, hc']

/-- A step that asks a control for the first time. -/
theorem LoopInv.ask {name : String} {policy : RatePolicy}
    (hinv : LoopInv h controls now info seen l)
    (hmatch : matchesAPIServerRules info.toRequestInfo policy.rules = true)
    (hnew : h.hashRatePolicy name policy ∉ l.rateHashes) :
    LoopInv h controls now info (seen ++ [.ratePolicy name policy])
      { l with
        controls := l.controls.insert (h.hashRatePolicy name policy)
          ((loadOrStore h controls name policy).allow h now info).2
        rateHashes := l.rateHashes.insert (h.hashRatePolicy name policy) } where
  mem_iff hash := by
    rw [StringSet.mem_insert_iff, hinv.mem_iff]
    simp only [checked_append_ratePolicy hmatch]
    constructor
    · rintro (rfl | ⟨name', policy', hchecked, hhash⟩)
      · exact ⟨name, policy, .inr ⟨rfl, rfl⟩, rfl⟩
      · exact ⟨name', policy', .inl hchecked, hhash⟩
    · rintro ⟨name', policy', hchecked | ⟨rfl, rfl⟩, hhash⟩
      · exact .inr ⟨name', policy', hchecked, hhash⟩
      · exact .inl hhash.symm
  fresh {hash} hmem := by
    rw [StringSet.mem_insert_iff, not_or] at hmem
    rw [StringMap.getElem?_insert, if_neg (Ne.symm hmem.1)]
    exact hinv.fresh hmem.2
  done {name' policy'} hchecked := by
    rw [StringMap.getElem?_insert]
    rcases (checked_append_ratePolicy hmatch).mp hchecked with hseen | ⟨rfl, rfl⟩
    · rw [if_neg, hinv.done hseen]
      intro heq
      exact hnew (heq ▸ (hinv.mem_iff _).mpr ⟨name', policy', hseen, rfl⟩)
    · rw [if_pos rfl]
  visited hd := StringSet.mem_insert_iff.mpr (.inr (hinv.visited hd))
  ready {d} hd := by
    refine (hinv.ready hd).insert fun heq => ?_
    exact hnew (heq ▸ hinv.visited hd)
  status := hinv.status
  nodup := hinv.nodup

theorem LoopInv.defer {hash : String} {releases records : Bool}
    (hinv : LoopInv h controls now info seen l) (hmem : hash ∈ l.rateHashes)
    (hnew : hash ∉ l.deferred.map (·.hash))
    (hready : (⟨hash, info, releases, records, 0⟩ : Deferred).Ready l.controls) :
    LoopInv h controls now info seen (l.defer hash info releases records) := by
  unfold Loop.defer
  split
  · exact {
      mem_iff := hinv.mem_iff
      fresh := hinv.fresh
      done := hinv.done
      visited := fun hd => by
        rcases List.mem_cons.mp hd with rfl | hd
        · exact hmem
        · exact hinv.visited hd
      ready := fun hd => by
        rcases List.mem_cons.mp hd with rfl | hd
        · exact hready
        · exact hinv.ready hd
      status := fun hd => by
        rcases List.mem_cons.mp hd with rfl | hd
        · rfl
        · exact hinv.status hd
      nodup := List.nodup_cons.mpr ⟨hnew, hinv.nodup⟩ }
  · exact hinv

theorem visit_circuitBreaking (controls : StringMap RateControl) (policyName : String) (breaking : Option Traffic.CircuitBreaking) :
    visit h now info l (.circuitBreaking policyName breaking) =
      ((Stage.circuitBreaking policyName breaking).stop h controls now info, l) := by
  obtain _ | ⟨_ | rules⟩ := breaking
  · rfl
  · rfl
  · unfold visit Stage.stop
    dsimp only
    split <;> rfl

theorem LoopInv.loadOrStore_eq {name : String} {policy : RatePolicy}
    (hinv : LoopInv h controls now info seen l)
    (hnew : h.hashRatePolicy name policy ∉ l.rateHashes) :
    loadOrStore h l.controls name policy = loadOrStore h controls name policy := by
  unfold loadOrStore
  rw [hinv.fresh hnew]

/-- A rate policy that matches and has not been seen. -/
theorem visit_ratePolicy {name : String} {policy : RatePolicy}
    (hinv : LoopInv h controls now info seen l)
    (hmatch : matchesAPIServerRules info.toRequestInfo policy.rules = true)
    (hnew : h.hashRatePolicy name policy ∉ l.rateHashes) :
    (visit h now info l (.ratePolicy name policy)).1 =
        ((loadOrStore h controls name policy).allow h now info).1.stop ∧
      LoopInv h controls now info (seen ++ [.ratePolicy name policy])
        (visit h now info l (.ratePolicy name policy)).2 := by
  have hask := hinv.ask hmatch hnew
  obtain ⟨ls, hls, hreleases⟩ :=
    (loadOrStore h controls name policy).exists_limits_allow h now info
  unfold visit
  simp only [hmatch, Bool.not_true, Bool.false_eq_true, if_false, Std.ExtTreeSet.contains_iff_mem,
    hnew, hinv.loadOrStore_eq hnew]
  cases hallow : ((loadOrStore h controls name policy).allow h now info).1 with
  | panicked => exact ⟨rfl, hask⟩
  | returned releases records err =>
    refine ⟨rfl, hask.defer (StringSet.mem_insert_iff.mpr (.inl rfl)) ?_ ?_⟩
    · intro hmem
      obtain ⟨d, hd, hhash⟩ := List.mem_map.mp hmem
      exact hnew (hhash ▸ hinv.visited hd)
    · refine ⟨_, ls, by rw [StringMap.getElem?_insert, if_pos rfl], hls, fun hrel => ?_⟩
      cases hrel
      exact hreleases records err hallow

/-- One step of the loop ends as it would if it were the first, as long as no two
rate policies have one hash. -/
theorem visit_spec (hinv : LoopInv h controls now info seen l)
    (hpass : ∀ st ∈ seen, st.stop h controls now info = none)
    (hdist : h.Distinguishes (seen ++ [stage])) :
    (visit h now info l stage).1 = stage.stop h controls now info ∧
      LoopInv h controls now info (seen ++ [stage]) (visit h now info l stage).2 := by
  cases stage with
  | circuitBreaking policyName breaking =>
    rw [visit_circuitBreaking controls]
    refine ⟨rfl, hinv.skip fun name policy hchecked => ⟨?_, hchecked.2⟩⟩
    simpa using hchecked.1
  | ratePolicy name policy =>
    by_cases hmatch : matchesAPIServerRules info.toRequestInfo policy.rules = true
    · by_cases hnew : h.hashRatePolicy name policy ∈ l.rateHashes
      · -- the control has been asked before, and did not end the request
        obtain ⟨name', policy', hchecked, hhash⟩ := (hinv.mem_iff _).mp hnew
        obtain ⟨rfl, rfl⟩ := hdist name' policy' name policy (List.mem_append_left _ hchecked.1)
          (by simp) hhash
        have hvisit : visit h now info l (.ratePolicy name' policy') = (none, l) := by
          unfold visit
          simp only [hmatch, Bool.not_true, Bool.false_eq_true, if_false,
            Std.ExtTreeSet.contains_iff_mem, hnew, if_true]
        rw [hvisit]
        refine ⟨(hpass _ hchecked.1).symm, hinv.skip fun name policy hchecked' => ?_⟩
        rcases (checked_append_ratePolicy hmatch).mp hchecked' with hseen | ⟨rfl, rfl⟩
        · exact hseen
        · exact hchecked
      · rw [stop_ratePolicy_of_match hmatch]
        exact visit_ratePolicy hinv hmatch hnew
    · have hvisit : visit h now info l (.ratePolicy name policy) = (none, l) := by
        unfold visit
        simp only [hmatch, Bool.not_false, if_true]
      rw [hvisit]
      rw [stop_ratePolicy_of_not_match hmatch]
      refine ⟨rfl, hinv.skip fun name' policy' hchecked => ⟨?_, hchecked.2⟩⟩
      rcases List.mem_append.mp hchecked.1 with hmem | hmem
      · exact hmem
      · rw [List.mem_singleton, Stage.ratePolicy.injEq] at hmem
        exact absurd (hmem.2 ▸ hchecked.2) hmatch

/-- The loop. -/
theorem visitAll_spec {stages : List Stage} (hinv : LoopInv h controls now info seen l)
    (hpass : ∀ st ∈ seen, st.stop h controls now info = none)
    (hdist : h.Distinguishes (seen ++ stages)) :
    (visitAll h now info stages l).1 = firstStop h controls now info stages ∧
      LoopInv h controls now info (seen ++ reached h controls now info stages)
        (visitAll h now info stages l).2 := by
  induction stages generalizing seen l with
  | nil => exact ⟨rfl, by simpa [reached, visitAll] using hinv⟩
  | cons stage stages ih =>
    have hdist' : h.Distinguishes (seen ++ [stage]) := fun name policy name' policy' hmem hmem' =>
      hdist name policy name' policy' (by grind) (by grind)
    obtain ⟨hstop, hinv'⟩ := visit_spec hinv hpass hdist'
    unfold visitAll firstStop reached
    rw [← hstop]
    cases hvisit : visit h now info l stage with
    | mk outcome l' =>
      rw [hvisit] at hstop hinv'
      cases outcome with
      | some outcome => exact ⟨rfl, hinv'⟩
      | none =>
        have hpass' : ∀ st ∈ seen ++ [stage], st.stop h controls now info = none := by
          intro st hst
          rcases List.mem_append.mp hst with hst | hst
          · exact hpass st hst
          · rw [List.mem_singleton] at hst
            rw [hst, ← hstop]
        have hrest := ih hinv' hpass' (by simpa using hdist)
        refine ⟨hrest.1, ?_⟩
        simpa using hrest.2

end

/-! ## Deferred calls -/

/-- What deferred calls do not change of a control. -/
def RateControl.rest (c : RateControl) : String × RatePolicy × Option (Option Limiter) :=
  (c.name, c.policy, c.limits.map (·.bucket))

section

variable {controls controls' : StringMap RateControl} {d : Deferred}

theorem Limits.release_eq_some {ls ls' : Limits} (hrel : ls.release = some ls') :
    ∃ ch, ls' = { ls with maxInFlightChan := some ch } := by
  obtain ⟨ch, -, hrel⟩ := Option.bind_eq_some_iff.mp hrel
  obtain ⟨ch', -, rfl⟩ := Option.map_eq_some_iff.mp hrel
  exact ⟨ch', rfl⟩

theorem Limits.record_eq (ls : Limits) (now : Seconds) (item : FullRequestInfo) (status : Int) :
    ∃ eb, ls.record now item status = { ls with exponentialBackoff := eb } ∧
      (status = 0 → eb = ls.exponentialBackoff) := by
  unfold record
  split
  · exact ⟨ls.exponentialBackoff, rfl, fun _ => rfl⟩
  · rename_i hne
    exact ⟨_, rfl, fun h => absurd h hne⟩

/-- A deferred call changes tokens of its control, and the backoff unless its status
is 0. -/
theorem Deferred.run_eq_some (hrun : d.run now controls = some controls') :
    ∃ c ls ch eb, controls[d.hash]? = some c ∧ c.limits = some ls ∧
      controls' = controls.insert d.hash { c with limits := some ⟨ch, ls.bucket, eb⟩ } ∧
      (d.status = 0 → eb = ls.exponentialBackoff) := by
  obtain ⟨c, hc, hrun⟩ := Option.bind_eq_some_iff.mp hrun
  obtain ⟨ls, hls, hrun⟩ := Option.bind_eq_some_iff.mp hrun
  obtain ⟨ls', hrel, hrun⟩ := Option.bind_eq_some_iff.mp hrun
  cases hrun
  obtain ⟨ch, rfl⟩ : ∃ ch, ls' = { ls with maxInFlightChan := ch } := by
    split at hrel
    · obtain ⟨ch, rfl⟩ := Limits.release_eq_some hrel
      exact ⟨some ch, rfl⟩
    · cases hrel
      exact ⟨ls.maxInFlightChan, rfl⟩
  split
  · obtain ⟨eb, hrecord, hzero⟩ :=
      Limits.record_eq { ls with maxInFlightChan := ch } now d.item d.status
    exact ⟨c, ls, ch, eb, hc, hls, by rw [hrecord], hzero⟩
  · exact ⟨c, ls, ch, ls.exponentialBackoff, hc, hls, rfl, fun _ => rfl⟩

theorem Deferred.Ready.exists_run (hready : d.Ready controls) (now : Seconds) :
    ∃ controls', d.run now controls = some controls' := by
  obtain ⟨c, ls, hc, hls, htoken⟩ := hready
  unfold Deferred.run
  cases hrel : d.releases with
  | false => simp [hc, hls]
  | true =>
    obtain ⟨ch, hch, hpos⟩ := htoken hrel
    simp [hc, hls, Limits.release, hch, Chan.receive, hpos]

theorem Deferred.rest_run (hrun : d.run now controls = some controls') (hash : String) :
    (controls'[hash]?).map (·.rest) = (controls[hash]?).map (·.rest) := by
  obtain ⟨c, ls, ch, eb, hc, hls, rfl, -⟩ := run_eq_some hrun
  rw [StringMap.getElem?_insert]
  split
  · rename_i heq
    subst heq
    simp [hc, RateControl.rest, hls]
  · rfl

/-- What every deferred call keeps. -/
theorem runDeferred_invariant {P : StringMap RateControl → Prop} {deferred : List Deferred}
    (hkeep : ∀ d ∈ deferred, ∀ {m m'}, P m → d.run now m = some m' → P m') (hP : P controls)
    (hrun : runDeferred now deferred controls = some controls') : P controls' := by
  induction deferred generalizing controls with
  | nil =>
    cases hrun
    exact hP
  | cons d deferred ih =>
    obtain ⟨controls₁, hd, hrest⟩ := Option.bind_eq_some_iff.mp hrun
    exact ih (fun d' hd' => hkeep d' (List.mem_cons_of_mem d hd'))
      (hkeep d List.mem_cons_self hP hd) hrest

theorem rest_runDeferred {deferred : List Deferred}
    (hrun : runDeferred now deferred controls = some controls') (hash : String) :
    (controls'[hash]?).map (·.rest) = (controls[hash]?).map (·.rest) :=
  runDeferred_invariant (P := fun m => (m[hash]?).map (·.rest) = (controls[hash]?).map (·.rest))
    (fun _ _ _ _ hm hd => (Deferred.rest_run hd hash).trans hm) rfl hrun

/-- Calls that each have a token of their own do not wait. -/
theorem exists_runDeferred (now : Seconds) {deferred : List Deferred}
    (hnodup : (deferred.map (·.hash)).Nodup) (hready : ∀ d ∈ deferred, d.Ready controls) :
    ∃ controls', runDeferred now deferred controls = some controls' := by
  induction deferred generalizing controls with
  | nil => exact ⟨controls, rfl⟩
  | cons d deferred ih =>
    rw [List.map_cons, List.nodup_cons] at hnodup
    obtain ⟨controls₁, hd⟩ := (hready d List.mem_cons_self).exists_run now
    obtain ⟨c, ls, ch, eb, -, -, rfl, -⟩ := Deferred.run_eq_some hd
    obtain ⟨controls', hrest⟩ := ih hnodup.2
      (fun d' hd' => (hready d' (List.mem_cons_of_mem d hd')).insert fun heq =>
        hnodup.1 (List.mem_map.mpr ⟨d', hd', heq.symm⟩))
    exact ⟨controls', Option.bind_eq_some_iff.mpr ⟨_, hd, hrest⟩⟩

end

/-! ## `ServeHTTP` -/

/-- The policies that a request is checked against: none if they cannot be listed. -/
def Handler.found (h : Handler) (now : Seconds) (listed : Except String (List TrafficPolicy))
    (cache : PolicyCache) : List TrafficPolicy :=
  (h.getTrafficPolicies now listed cache).1.toOption.getD []

/-- The steps of the loop for these policies. -/
def Handler.stagesFor (h : Handler) (now : Seconds) (listed : Except String (List TrafficPolicy))
    (s : State) : List Stage :=
  (h.found now listed s.cache).flatMap (·.stages)

/-- The state after the policies have been found. -/
def Handler.refresh (h : Handler) (now : Seconds) (listed : Except String (List TrafficPolicy))
    (s : State) : State :=
  { s with cache := (h.getTrafficPolicies now listed s.cache).2 }

/-- What `ServeHTTP` does after the loop. -/
def State.conclude (s : State) (now : Seconds) (info : FullRequestInfo) :
    Outcome × Loop → Option (Outcome × State)
  | (.forwarded, l) => some (.forwarded, s.forward (.ok info) l)
  | (outcome, l) =>
    (runDeferred now l.deferred l.controls).map fun controls =>
      (outcome, { s with controls := controls })

/-- The ways through `ServeHTTP` for a request with a request info. -/
inductive ServeStep (h : Handler) (now : Seconds) (listed : Except String (List TrafficPolicy))
    (info : FullRequestInfo) (s : State) : Outcome → State → Prop where
  | forwarded {l : Loop} (hinv : LoopInv h s.controls now info
        (reached h s.controls now info (h.stagesFor now listed s)) l)
      (hstop : firstStop h s.controls now info (h.stagesFor now listed s) = .forwarded) :
      ServeStep h now listed info s .forwarded ((h.refresh now listed s).forward (.ok info) l)
  | stopped {l : Loop} {outcome : Outcome} {controls' : StringMap RateControl}
      (hinv : LoopInv h s.controls now info
        (reached h s.controls now info (h.stagesFor now listed s)) l)
      (hstop : firstStop h s.controls now info (h.stagesFor now listed s) = outcome)
      (hne : outcome ≠ .forwarded) (hrun : runDeferred now l.deferred l.controls = some controls') :
      ServeStep h now listed info s outcome { h.refresh now listed s with controls := controls' }

section

variable {s s' : State} {listed : Except String (List TrafficPolicy)} {outcome : Outcome}

/-- Without policies the loop has no steps. -/
theorem serveHTTP_eq (info : FullRequestInfo) :
    h.serveHTTP now listed (.ok info) s = (h.refresh now listed s).conclude now info
      (visitAll h now info (h.stagesFor now listed s) ⟨s.controls, ∅, []⟩) := by
  unfold Handler.serveHTTP Handler.stagesFor Handler.found
  dsimp only
  cases (h.getTrafficPolicies now listed s.cache).1 with
  | error err => rfl
  | ok policies =>
    cases policies with
    | nil => rfl
    | cons policy policies => rfl

theorem conclude_of_ne {l : Loop} (hne : outcome ≠ .forwarded) :
    s.conclude now info (outcome, l) = (runDeferred now l.deferred l.controls).map fun controls =>
      (outcome, { s with controls := controls }) := by
  cases outcome with
  | forwarded => exact absurd rfl hne
  | answered err => rfl
  | panicked => rfl

theorem serveHTTP_eq_some (hserve : h.serveHTTP now listed (.ok info) s = some (outcome, s')) :
    ∃ l, visitAll h now info (h.stagesFor now listed s) ⟨s.controls, ∅, []⟩ = (outcome, l) ∧
      ((outcome = .forwarded ∧ s' = (h.refresh now listed s).forward (.ok info) l) ∨
        (outcome ≠ .forwarded ∧ ∃ controls', runDeferred now l.deferred l.controls = some controls' ∧
          s' = { h.refresh now listed s with controls := controls' })) := by
  rw [serveHTTP_eq] at hserve
  cases hvisit : visitAll h now info (h.stagesFor now listed s) ⟨s.controls, ∅, []⟩ with
  | mk outcome' l =>
    rw [hvisit] at hserve
    by_cases hforwarded : outcome' = .forwarded
    · subst hforwarded
      cases hserve
      exact ⟨l, rfl, .inl ⟨rfl, rfl⟩⟩
    · rw [conclude_of_ne hforwarded] at hserve
      obtain ⟨controls', hrun, heq⟩ := Option.map_eq_some_iff.mp hserve
      cases heq
      exact ⟨l, rfl, .inr ⟨hforwarded, controls', hrun, rfl⟩⟩

/-- `ServeHTTP` comes to an end, with the outcome that can be read off the
controls. -/
theorem serveHTTP_cases (info : FullRequestInfo)
    (hdist : h.Distinguishes (h.stagesFor now listed s)) :
    ∃ outcome s', h.serveHTTP now listed (.ok info) s = some (outcome, s') ∧
      ServeStep h now listed info s outcome s' := by
  obtain ⟨hstop, hinv⟩ :=
    visitAll_spec (loopInv_nil h now info s.controls) (by simp) (by simpa using hdist)
  rw [List.nil_append] at hinv
  rw [serveHTTP_eq]
  cases hvisit : visitAll h now info (h.stagesFor now listed s) ⟨s.controls, ∅, []⟩ with
  | mk outcome l =>
    rw [hvisit] at hstop hinv
    by_cases hforwarded : outcome = .forwarded
    · subst hforwarded
      exact ⟨_, _, rfl, .forwarded hinv hstop.symm⟩
    · obtain ⟨controls', hrun⟩ := exists_runDeferred now hinv.nodup fun d => hinv.ready
      refine ⟨outcome, _, ?_, .stopped hinv hstop.symm hforwarded hrun⟩
      rw [conclude_of_ne hforwarded, hrun, Option.map_some]

theorem serveStep_of_eq (hdist : h.Distinguishes (h.stagesFor now listed s))
    (hserve : h.serveHTTP now listed (.ok info) s = some (outcome, s')) :
    ServeStep h now listed info s outcome s' := by
  obtain ⟨outcome', s'', hserve', hstep⟩ := serveHTTP_cases info hdist
  cases hserve.symm.trans hserve'
  exact hstep

theorem ServeStep.outcome_eq (hstep : ServeStep h now listed info s outcome s') :
    outcome = firstStop h s.controls now info (h.stagesFor now listed s) := by
  cases hstep with
  | forwarded _ hstop => exact hstop.symm
  | stopped _ hstop _ _ => exact hstop.symm

/-- The controls after a request: those that the loop has left, apart from what
deferred calls change. -/
theorem ServeStep.exists_loop (hstep : ServeStep h now listed info s outcome s') :
    ∃ l, LoopInv h s.controls now info
        (reached h s.controls now info (h.stagesFor now listed s)) l ∧
      ∀ hash : String, (s'.controls[hash]?).map (·.rest) = (l.controls[hash]?).map (·.rest) := by
  cases hstep with
  | forwarded hinv _ => exact ⟨_, hinv, fun hash => rfl⟩
  | stopped hinv _ _ hrun => exact ⟨_, hinv, rest_runDeferred hrun⟩

/-- A request without a request info is not checked. -/
theorem serveHTTP_noInfo {uri : String}
    (hserve : h.serveHTTP now listed (.error uri) s = some (outcome, s')) :
    (outcome = .forwarded ∧
        s' = (h.refresh now listed s).forward (.error uri) ⟨s.controls, ∅, []⟩) ∨
      (outcome = .answered ⟨500, "Internal Server Error: " ++ uri, none⟩ ∧
        s' = h.refresh now listed s) := by
  unfold Handler.serveHTTP at hserve
  dsimp only at hserve
  cases hfound : (h.getTrafficPolicies now listed s.cache).1 with
  | error err =>
    rw [hfound] at hserve
    cases hserve
    exact .inl ⟨rfl, rfl⟩
  | ok policies =>
    rw [hfound] at hserve
    cases policies with
    | nil =>
      cases hserve
      exact .inl ⟨rfl, rfl⟩
    | cons policy policies =>
      cases hserve
      exact .inr ⟨rfl, rfl⟩

theorem step_arrive_eq_some {info : Except String FullRequestInfo} :
    step h s (.arrive now listed info) = some s' ↔
      s.clock ≤ now ∧ ∃ outcome s₁, h.serveHTTP now listed info s = some (outcome, s₁) ∧
        s' = { s₁ with clock := now, outcomes := s.outcomes ++ [outcome] } := by
  unfold step
  by_cases htime : s.clock ≤ now
  · cases hserve : h.serveHTTP now listed info s with
    | none => simp [htime, hserve]
    | some p =>
      obtain ⟨outcome, s₁⟩ := p
      simp [htime, hserve, eq_comm]
  · simp [htime]

theorem step_served_eq_some {i : Nat} {status : Int} :
    step h s (.served now i status) = some s' ↔
      s.clock ≤ now ∧ ∃ r controls', s.serving[i]? = some (some r) ∧
        runDeferred now r.deferred s.controls = some controls' ∧
        s' = { s with
          controls := controls'
          serving := s.serving.set i none
          clock := now
          responses := s.responses ++ r.response status now } := by
  unfold step
  by_cases htime : s.clock ≤ now
  · cases hr : s.serving[i]? with
    | none => simp [htime, hr]
    | some slot =>
      cases slot with
      | none => simp [htime, hr]
      | some r =>
        cases hrun : runDeferred now r.deferred s.controls with
        | none => simp [htime, hr, hrun]
        | some controls' => simp [htime, hr, hrun, eq_comm]
  · simp [htime]

end

end CtrlMesh.TrafficHandler
