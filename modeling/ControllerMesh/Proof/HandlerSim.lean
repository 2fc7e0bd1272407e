import ControllerMesh.Proof.TrafficLoop

/-!
# Handlers whose buckets have the same tokens

`SimAt now` relates states of the handler that differ in how their token buckets
are written down only: the buckets have the same tokens from `now` on. Every part of
`ServeHTTP` keeps the relation, and has the same outcome for both.
-/

namespace CtrlMesh.TrafficHandler

open Framework Framework.Limiter

open Traffic (matchesAPIServerRules)

variable {h : Handler} {now : Seconds} {info : FullRequestInfo}

/-! ## Rate controls -/

structure LimitsSim (now : Seconds) (ls ls' : Limits) : Prop where
  chan : ls.maxInFlightChan = ls'.maxInFlightChan
  bucket : SameTokens now ls.bucket ls'.bucket
  backoff : ls.exponentialBackoff = ls'.exponentialBackoff

namespace LimitsSim

variable {ls ls' : Limits}

theorem refl (now : Seconds) (ls : Limits) : LimitsSim now ls ls := ⟨rfl, .refl now _, rfl⟩

theorem mono {t : Seconds} (hsim : LimitsSim now ls ls') (ht : now ≤ t) : LimitsSim t ls ls' :=
  ⟨hsim.chan, hsim.bucket.mono ht, hsim.backoff⟩

theorem acquire (hsim : LimitsSim now ls ls') :
    Option.Rel (fun p p' => p.1 = p'.1 ∧ LimitsSim now p.2 p'.2) ls.acquire ls'.acquire := by
  unfold Limits.acquire
  rw [← hsim.chan]
  cases ls.maxInFlightChan with
  | none => exact .some ⟨rfl, hsim⟩
  | some ch =>
    dsimp only
    cases ch.send with
    | none => exact .none
    | some ch' => exact .some ⟨rfl, rfl, hsim.bucket, hsim.backoff⟩

theorem reserve (hsim : LimitsSim now ls ls') :
    (ls.reserve now).1 = (ls'.reserve now).1 ∧
      LimitsSim now (ls.reserve now).2 (ls'.reserve now).2 := by
  unfold Limits.reserve
  rcases rel_cases hsim.bucket with ⟨hls, hls'⟩ | ⟨lim, lim', hls, hls', hsame⟩
  · rw [hls, hls']
    exact ⟨rfl, hsim⟩
  · rw [hls, hls']
    have hreserve := hsame.reserve (le_refl now)
    exact ⟨hreserve.1, hsim.chan, .some hreserve.2, hsim.backoff⟩

theorem delay (hsim : LimitsSim now ls ls') (comparable : Bool) (info : FullRequestInfo) :
    Option.Rel (fun p p' => p.1 = p'.1 ∧ LimitsSim now p.2 p'.2)
      (ls.delay comparable now info) (ls'.delay comparable now info) := by
  unfold Limits.delay
  rw [← hsim.backoff]
  cases ls.exponentialBackoff with
  | none => exact .some ⟨rfl, hsim⟩
  | some eb =>
    dsimp only
    cases eb.delay comparable now info with
    | none => exact .none
    | some p => exact .some ⟨rfl, hsim.chan, hsim.bucket, rfl⟩

theorem release (hsim : LimitsSim now ls ls') :
    Option.Rel (LimitsSim now) ls.release ls'.release := by
  unfold Limits.release
  rw [← hsim.chan]
  cases ls.maxInFlightChan with
  | none => exact .none
  | some ch =>
    rw [Option.bind_some, Option.bind_some]
    cases ch.receive with
    | none => exact .none
    | some ch' => exact .some ⟨rfl, hsim.bucket, hsim.backoff⟩

theorem record (hsim : LimitsSim now ls ls') (item : FullRequestInfo) (status : Int) :
    LimitsSim now (ls.record now item status) (ls'.record now item status) := by
  unfold Limits.record
  split
  · exact hsim
  · exact ⟨hsim.chan, hsim.bucket, by rw [hsim.backoff]⟩

end LimitsSim

structure ControlSim (now : Seconds) (c c' : RateControl) : Prop where
  name : c.name = c'.name
  policy : c.policy = c'.policy
  limits : Option.Rel (LimitsSim now) c.limits c'.limits

namespace ControlSim

variable {c c' : RateControl}

theorem new (now : Seconds) (name : String) (policy : RatePolicy) :
    ControlSim now ⟨name, policy, none⟩ ⟨name, policy, none⟩ := ⟨rfl, rfl, .none⟩

theorem mono {t : Seconds} (hsim : ControlSim now c c') (ht : now ≤ t) : ControlSim t c c' := by
  refine ⟨hsim.name, hsim.policy, ?_⟩
  rcases rel_cases hsim.limits with ⟨hls, hls'⟩ | ⟨ls, ls', hls, hls', hsame⟩
  · rw [hls, hls']
    exact .none
  · rw [hls, hls']
    exact .some (hsame.mono ht)

theorem live (hsim : ControlSim now c c') : Option.Rel (LimitsSim now) c.live c'.live := by
  unfold RateControl.live
  rcases rel_cases hsim.limits with ⟨hls, hls'⟩ | ⟨ls, ls', hls, hls', hsame⟩
  · rw [hls, hls', Option.none_or, Option.none_or, hsim.policy]
    cases Limits.make c'.policy with
    | none => exact .none
    | some ls => exact .some (.refl now ls)
  · rw [hls, hls']
    exact .some hsame

/-- The answers of `allow` name the policy and the delay. -/
theorem allowWith (h : Handler) (info : FullRequestInfo) (hsim : ControlSim now c c')
    {ls ls' : Limits} (hls : LimitsSim now ls ls') :
    (c.allowWith h now info ls).1 = (c'.allowWith h now info ls').1 ∧
      LimitsSim now (c.allowWith h now info ls).2 (c'.allowWith h now info ls').2 := by
  unfold RateControl.allowWith RateControl.tooManyInFlight RateControl.bucketExceeded
    RateControl.backedOff
  rw [hsim.name, hsim.policy]
  rcases rel_cases hls.acquire with
    ⟨hacq, hacq'⟩ | ⟨⟨acquired, ls₁⟩, ⟨acquired', ls₁'⟩, hacq, hacq', hacquired, hls₁⟩
  · rw [hacq, hacq']
    exact ⟨rfl, hls⟩
  · rw [hacq, hacq']
    obtain ⟨hdelay, hls₂⟩ := hls₁.reserve
    dsimp only at hacquired hls₁ hdelay hls₂ ⊢
    rw [← hdelay, ← hacquired]
    split
    · exact ⟨rfl, hls₂⟩
    · rcases rel_cases (hls₂.delay h.comparable info) with
        ⟨hlook, hlook'⟩ | ⟨⟨⟨delay, ok⟩, ls₃⟩, ⟨⟨delay', ok'⟩, ls₃'⟩, hlook, hlook', heq, hls₃⟩
      · rw [hlook, hlook']
        exact ⟨rfl, hls₂⟩
      · rw [hlook, hlook']
        cases heq
        dsimp only at hls₃ ⊢
        split <;> exact ⟨rfl, hls₃⟩

theorem allow (h : Handler) (info : FullRequestInfo) (hsim : ControlSim now c c') :
    (c.allow h now info).1 = (c'.allow h now info).1 ∧
      ControlSim now (c.allow h now info).2 (c'.allow h now info).2 := by
  rcases rel_cases hsim.live with ⟨hlive, hlive'⟩ | ⟨ls, ls', hlive, hlive', hls⟩
  · rw [RateControl.allow_of_live_eq_none hlive, RateControl.allow_of_live_eq_none hlive']
    exact ⟨rfl, hsim.name, hsim.policy, .some (.refl now _)⟩
  · rw [RateControl.allow_of_live hlive, RateControl.allow_of_live hlive']
    obtain ⟨hallowed, hls'⟩ := hsim.allowWith h info hls
    exact ⟨hallowed, hsim.name, hsim.policy, .some hls'⟩

end ControlSim

/-! ## The loop -/

def ControlsSim (now : Seconds) (m m' : StringMap RateControl) : Prop :=
  ∀ hash : String, Option.Rel (ControlSim now) m[hash]? m'[hash]?

theorem ControlsSim.mono {m m' : StringMap RateControl} {t : Seconds}
    (hsim : ControlsSim now m m') (ht : now ≤ t) : ControlsSim t m m' := by
  intro hash
  rcases rel_cases (hsim hash) with ⟨hm, hm'⟩ | ⟨c, c', hm, hm', hc⟩
  · rw [hm, hm']
    exact .none
  · rw [hm, hm']
    exact .some (hc.mono ht)

theorem ControlsSim.insert {m m' : StringMap RateControl} (hsim : ControlsSim now m m')
    (hash : String) {c c' : RateControl} (hc : ControlSim now c c') :
    ControlsSim now (m.insert hash c) (m'.insert hash c') := by
  intro k
  rw [StringMap.getElem?_insert, StringMap.getElem?_insert]
  split
  · exact .some hc
  · exact hsim k

theorem ControlsSim.loadOrStore {m m' : StringMap RateControl} (hsim : ControlsSim now m m')
    (h : Handler) (name : String) (policy : RatePolicy) :
    ControlSim now (loadOrStore h m name policy) (loadOrStore h m' name policy) := by
  unfold TrafficHandler.loadOrStore
  rcases rel_cases (hsim (h.hashRatePolicy name policy)) with ⟨hm, hm'⟩ | ⟨c, c', hm, hm', hc⟩
  · rw [hm, hm']
    exact .new now name policy
  · rw [hm, hm']
    exact hc

structure LoopSim (now : Seconds) (l l' : Loop) : Prop where
  controls : ControlsSim now l.controls l'.controls
  rateHashes : l.rateHashes = l'.rateHashes
  deferred : l.deferred = l'.deferred

theorem LoopSim.defer {l l' : Loop} (hsim : LoopSim now l l') (hash : String)
    (item : FullRequestInfo) (releases records : Bool) :
    LoopSim now (l.defer hash item releases records) (l'.defer hash item releases records) := by
  unfold Loop.defer
  split
  · exact ⟨hsim.controls, hsim.rateHashes, by rw [hsim.deferred]⟩
  · exact hsim

theorem LoopSim.visit (h : Handler) (info : FullRequestInfo) {l l' : Loop}
    (hsim : LoopSim now l l') (stage : Stage) :
    (visit h now info l stage).1 = (visit h now info l' stage).1 ∧
      LoopSim now (visit h now info l stage).2 (visit h now info l' stage).2 := by
  cases stage with
  | circuitBreaking policyName breaking =>
    rw [visit_circuitBreaking l.controls, visit_circuitBreaking l.controls]
    exact ⟨rfl, hsim⟩
  | ratePolicy name policy =>
    obtain ⟨hallowed, hc⟩ := (hsim.controls.loadOrStore h name policy).allow h info
    have hsim' : LoopSim now
        { l with
          controls := l.controls.insert (h.hashRatePolicy name policy)
            ((loadOrStore h l.controls name policy).allow h now info).2
          rateHashes := l.rateHashes.insert (h.hashRatePolicy name policy) }
        { l' with
          controls := l'.controls.insert (h.hashRatePolicy name policy)
            ((loadOrStore h l'.controls name policy).allow h now info).2
          rateHashes := l'.rateHashes.insert (h.hashRatePolicy name policy) } :=
      ⟨hsim.controls.insert _ hc, by rw [hsim.rateHashes], hsim.deferred⟩
    unfold TrafficHandler.visit
    dsimp only
    rw [← hsim.rateHashes, ← hallowed]
    rw [← hsim.rateHashes] at hsim'
    split
    · exact ⟨rfl, hsim⟩
    · split
      · exact ⟨rfl, hsim⟩
      · cases ((loadOrStore h l.controls name policy).allow h now info).1 with
        | panicked => exact ⟨rfl, hsim'⟩
        | returned releases records err => exact ⟨rfl, hsim'.defer _ _ _ _⟩

theorem LoopSim.visitAll (h : Handler) (info : FullRequestInfo) {l l' : Loop}
    (hsim : LoopSim now l l') (stages : List Stage) :
    (visitAll h now info stages l).1 = (visitAll h now info stages l').1 ∧
      LoopSim now (visitAll h now info stages l).2 (visitAll h now info stages l').2 := by
  induction stages generalizing l l' with
  | nil => exact ⟨rfl, hsim⟩
  | cons stage stages ih =>
    obtain ⟨hstop, hsim'⟩ := hsim.visit h info stage
    unfold TrafficHandler.visitAll
    cases hvisit : TrafficHandler.visit h now info l stage with
    | mk outcome l₁ =>
      cases hvisit' : TrafficHandler.visit h now info l' stage with
      | mk outcome' l₁' =>
        rw [hvisit, hvisit'] at hstop hsim'
        cases hstop
        cases outcome with
        | none => exact ih hsim'
        | some outcome => exact ⟨rfl, hsim'⟩

/-! ## Deferred calls, and `ServeHTTP` -/

theorem ControlsSim.run {m m' : StringMap RateControl} (hsim : ControlsSim now m m')
    (d : Deferred) : Option.Rel (ControlsSim now) (d.run now m) (d.run now m') := by
  unfold Deferred.run
  rcases rel_cases (hsim d.hash) with ⟨hm, hm'⟩ | ⟨c, c', hm, hm', hc⟩
  · rw [hm, hm']
    exact .none
  · rcases rel_cases hc.limits with ⟨hls, hls'⟩ | ⟨ls, ls', hls, hls', hlimits⟩
    · simp only [hm, hm', hls, hls', Option.bind_eq_bind, Option.bind_some, Option.bind_none]
      exact .none
    · have hrel : Option.Rel (LimitsSim now) (if d.releases then ls.release else some ls)
          (if d.releases then ls'.release else some ls') := by
        split
        · exact hlimits.release
        · exact .some hlimits
      simp only [hm, hm', hls, hls', Option.bind_eq_bind, Option.bind_some]
      rcases rel_cases hrel with ⟨h₁, h₁'⟩ | ⟨ls₁, ls₁', h₁, h₁', hls₁⟩
      · rw [h₁, h₁']
        exact .none
      · rw [h₁, h₁']
        refine .some (hsim.insert d.hash ⟨hc.name, hc.policy, .some ?_⟩)
        split
        · exact hls₁.record d.item d.status
        · exact hls₁

theorem ControlsSim.runDeferred {m m' : StringMap RateControl} (hsim : ControlsSim now m m')
    (deferred : List Deferred) :
    Option.Rel (ControlsSim now) (runDeferred now deferred m) (runDeferred now deferred m') := by
  induction deferred generalizing m m' with
  | nil => exact .some hsim
  | cons d deferred ih =>
    unfold TrafficHandler.runDeferred
    rw [List.foldlM_cons, List.foldlM_cons]
    rcases rel_cases (hsim.run d) with ⟨hd, hd'⟩ | ⟨m₁, m₁', hd, hd', hsim₁⟩
    · rw [hd, hd']
      exact .none
    · rw [hd, hd']
      exact ih hsim₁

/-- The same state, apart from how the tokens of buckets are written down. -/
structure SimAt (now : Seconds) (s t : State) : Prop where
  controls : ControlsSim now s.controls t.controls
  cache : s.cache = t.cache
  serving : s.serving = t.serving
  outcomes : s.outcomes = t.outcomes
  responses : s.responses = t.responses

theorem SimAt.mono {s t : State} {t' : Seconds} (hsim : SimAt now s t) (ht : now ≤ t') :
    SimAt t' s t :=
  ⟨hsim.controls.mono ht, hsim.cache, hsim.serving, hsim.outcomes, hsim.responses⟩

theorem SimAt.forward {s t : State} (hsim : SimAt now s t) (info : Except String FullRequestInfo)
    {l l' : Loop} (hl : LoopSim now l l') : SimAt now (s.forward info l) (t.forward info l') :=
  ⟨hl.controls, hsim.cache, by simp [State.forward, hsim.serving, hl.rateHashes, hl.deferred],
    hsim.outcomes, hsim.responses⟩

theorem SimAt.serveHTTP {s t : State} (hsim : SimAt now s t)
    (listed : Except String (List TrafficPolicy)) (info : Except String FullRequestInfo) :
    Option.Rel (fun p p' => p.1 = p'.1 ∧ SimAt now p.2 p'.2)
      (h.serveHTTP now listed info s) (h.serveHTTP now listed info t) := by
  have hrefresh : SimAt now { s with cache := (h.getTrafficPolicies now listed t.cache).2 }
      { t with cache := (h.getTrafficPolicies now listed t.cache).2 } :=
    ⟨hsim.controls, rfl, hsim.serving, hsim.outcomes, hsim.responses⟩
  have hloop : LoopSim now ⟨s.controls, ∅, []⟩ ⟨t.controls, ∅, []⟩ := ⟨hsim.controls, rfl, rfl⟩
  unfold Handler.serveHTTP
  dsimp only
  rw [hsim.cache]
  cases (h.getTrafficPolicies now listed t.cache).1 with
  | error err => exact .some ⟨rfl, hrefresh.forward info hloop⟩
  | ok policies =>
    cases policies with
    | nil => exact .some ⟨rfl, hrefresh.forward info hloop⟩
    | cons policy policies =>
      cases info with
      | error uri => exact .some ⟨rfl, hrefresh⟩
      | ok info =>
        obtain ⟨hstop, hl⟩ := hloop.visitAll h info ((policy :: policies).flatMap (·.stages))
        dsimp only
        cases hvisit : visitAll h now info ((policy :: policies).flatMap (·.stages))
            ⟨s.controls, ∅, []⟩ with
        | mk outcome l =>
          cases hvisit' : visitAll h now info ((policy :: policies).flatMap (·.stages))
              ⟨t.controls, ∅, []⟩ with
          | mk outcome' l' =>
            rw [hvisit, hvisit'] at hstop hl
            cases hstop
            have hdeferred : Option.Rel (fun p p' => p.1 = p'.1 ∧ SimAt now p.2 p'.2)
                ((runDeferred now l.deferred l.controls).map fun controls => (outcome,
                  { s with
                    controls := controls
                    cache := (h.getTrafficPolicies now listed t.cache).2 }))
                ((runDeferred now l'.deferred l'.controls).map fun controls => (outcome,
                  { t with
                    controls := controls
                    cache := (h.getTrafficPolicies now listed t.cache).2 })) := by
              rw [← hl.deferred]
              rcases rel_cases (hl.controls.runDeferred l.deferred) with
                ⟨hrun, hrun'⟩ | ⟨m, m', hrun, hrun', hm⟩
              · rw [hrun, hrun']
                exact .none
              · rw [hrun, hrun']
                exact .some ⟨rfl, hm, rfl, hsim.serving, hsim.outcomes, hsim.responses⟩
            cases outcome with
            | forwarded => exact .some ⟨rfl, hrefresh.forward (.ok info) hl⟩
            | answered err => exact hdeferred
            | panicked => exact hdeferred

end CtrlMesh.TrafficHandler
