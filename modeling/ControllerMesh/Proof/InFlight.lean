import ControllerMesh.Framework.Tokens
import ControllerMesh.Impl.Traffic

/-!
# Tokens of requests in flight

A request takes a token of every rate control with a `MaxInFlight` that it
passes, and gives it back when it returns. `Step` says what one step does to the
tokens of the controls and to those that the requests hold; along every run the
two agree (`Inv.balanced`), no control has more than its `MaxInFlight`, and no
release has to wait.

One token is not given back: that of a control with an exponential backoff, if the
request gets there. The lookup in it panics before the release is deferred. So the
tokens are those of requests that have not returned exactly as long as no request
returns that has gone on to the backoff of a control with a `MaxInFlight`
(`tokens_conserved_iff`).
-/

namespace CtrlMesh.Traffic

open Framework

/-! ## What a step does -/

/-- The token of the place in `allow`, or the one that was lost there. -/
def Pc.token : Pc → List String
  | allow hash _ true => [hash]
  | unwinding (some hash) => [hash]
  | done (some hash) => [hash]
  | _ => []

/-- The controls of which a request has acquired a token and not released it. -/
def Request.holds (r : Request) : List String := r.pc.token ++ r.deferred

/-- The request has not returned. -/
def Request.unfinished (r : Request) : Bool :=
  match r.pc with
  | .done _ => false
  | _ => true

/-- The tokens in the channel of a control. -/
def tokens (controls : StringMap RateControl) (hash : String) : Nat :=
  (controls[hash]?.map (·.tokens)).getD 0

/-- A place without a token, outside of `allow`. -/
def Pc.Quiet (pc : Pc) : Prop := pc = visiting ∨ pc = serving ∨ pc = unwinding none

/-- The steps, told apart by what they do to tokens. -/
inductive Step (s : State) : Event → State → Prop where
  | start {e : Event} {r : Request} (hpc : r.pc.Quiet) (hdeferred : r.deferred = [])
      (hhashes : r.rateHashes = ∅) : Step s e { s with requests := s.requests ++ [r] }
  | move {e : Event} {i : Nat} {r r' : Request} (hr : s.requests[i]? = some r)
      (htoken : r.pc.token = []) (hpc' : r'.pc.Quiet) (hdeferred : r'.deferred = r.deferred)
      (hhashes : r'.rateHashes = r.rateHashes) : Step s e (s.setRequest i r')
  /-- Into `allow` of a control that was not visited before. -/
  | enter {e : Event} {i : Nat} {r r' : Request} {hash name : String} {policy : RatePolicy}
      (hr : s.requests[i]? = some r) (hpc : r.pc = .visiting) (hnew : hash ∉ r.rateHashes)
      (hpc' : r'.pc = .allow hash .maxInFlight false) (hdeferred : r'.deferred = r.deferred)
      (hhashes : r'.rateHashes = r.rateHashes.insert hash) :
      Step s e ⟨loadOrStore s.controls hash ⟨name, policy, 0⟩, s.requests.set i r'⟩
  /-- On in `allow`; behind the `select` without a token only if the control has no
  `MaxInFlight`. -/
  | advance {e : Event} {i : Nat} {r r' : Request} {hash : String} {at_ at' : AllowPc}
      {acquired : Bool} (hr : s.requests[i]? = some r) (hpc : r.pc = .allow hash at_ acquired)
      (hpc' : r'.pc = .allow hash at' acquired)
      (hlimit : at_ = .maxInFlight →
        ∃ c, s.controls[hash]? = some c ∧ acquired = c.policy.maxInFlight.isSome)
      (hdeferred : r'.deferred = r.deferred) (hhashes : r'.rateHashes = r.rateHashes) :
      Step s e (s.setRequest i r')
  | acquire {e : Event} {i : Nat} {r r' : Request} {hash : String} {c : RateControl}
      (hr : s.requests[i]? = some r) (hpc : r.pc = .allow hash .maxInFlight false)
      (hc : s.controls[hash]? = some c) (hlt : c.tokens < c.policy.maxInFlight.getD 0)
      (hpc' : r'.pc = .allow hash .bucket true) (hdeferred : r'.deferred = r.deferred)
      (hhashes : r'.rateHashes = r.rateHashes) :
      Step s e ⟨s.controls.insert hash { c with tokens := c.tokens + 1 }, s.requests.set i r'⟩
  /-- Out of `allow`, with the release deferred. -/
  | defer {e : Event} {i : Nat} {r r' : Request} {hash : String} {at_ : AllowPc}
      (hr : s.requests[i]? = some r) (hpc : r.pc = .allow hash at_ true) (hpc' : r'.pc.Quiet)
      (hdeferred : r'.deferred = hash :: r.deferred) (hhashes : r'.rateHashes = r.rateHashes) :
      Step s e (s.setRequest i r')
  /-- Out of `allow` by a panic, with a token. -/
  | lose {i : Nat} {r r' : Request} {hash : String} {c : RateControl}
      (hr : s.requests[i]? = some r) (hpc : r.pc = .allow hash .exponentialBackoff true)
      (hc : s.controls[hash]? = some c) (hbackoff : c.policy.exponentialBackoff.isSome)
      (hpc' : r'.pc = .unwinding (some hash)) (hdeferred : r'.deferred = r.deferred)
      (hhashes : r'.rateHashes = r.rateHashes) : Step s (.backoff i) (s.setRequest i r')
  | release {e : Event} {i : Nat} {r r' : Request} {hash : String} {lost : Option String}
      {c : RateControl} (hr : s.requests[i]? = some r) (hpc : r.pc = .unwinding lost)
      (hc : s.controls[hash]? = some c) (hpos : 0 < c.tokens)
      (hpc' : r'.pc = .unwinding lost) (hdeferred : r.deferred = hash :: r'.deferred)
      (hhashes : r'.rateHashes = r.rateHashes) :
      Step s e ⟨s.controls.insert hash { c with tokens := c.tokens - 1 }, s.requests.set i r'⟩
  | finish {i : Nat} {r r' : Request} {lost : Option String} (hr : s.requests[i]? = some r)
      (hpc : r.pc = .unwinding lost) (hempty : r.deferred = []) (hpc' : r'.pc = .done lost)
      (hdeferred : r'.deferred = []) (hhashes : r'.rateHashes = r.rateHashes) :
      Step s (.finish i) (s.setRequest i r')

section

variable {hashRatePolicy : String → RatePolicy → String} {formatDuration : Nat → String}
  {s s' : State} {i : Nat} {r : Request} {hash : String} {acquired : Bool} {c : RateControl}

theorem quiet_newRequest (policies : Except String (List TrafficPolicy))
    (info : Except String RequestInfo) :
    (newRequest policies info).pc.Quiet ∧ (newRequest policies info).deferred = [] ∧
      (newRequest policies info).rateHashes = ∅ := by
  unfold newRequest
  dsimp only
  split
  · exact ⟨.inr (.inl rfl), rfl, rfl⟩
  · exact ⟨.inr (.inl rfl), rfl, rfl⟩
  · exact ⟨.inr (.inr rfl), rfl, rfl⟩
  · exact ⟨.inl rfl, rfl, rfl⟩

theorem step_visit (hr : s.requests[i]? = some r) (hpc : r.pc = .visiting) :
    Step s (.visit i) (s.visit hashRatePolicy i r) := by
  have htoken : r.pc.token = [] := by rw [hpc]; rfl
  unfold State.visit
  split
  · exact .move hr htoken (.inr (.inl rfl)) rfl rfl
  · exact .move hr htoken (.inr (.inr rfl)) rfl rfl
  · exact .move hr htoken (.inl hpc) rfl rfl
  · split
    · exact .move hr htoken (.inr (.inr rfl)) rfl rfl
    · exact .move hr htoken (.inl hpc) rfl rfl
  · dsimp only
    split
    · exact .move hr htoken (.inl hpc) rfl rfl
    · split
      · exact .move hr htoken (.inl hpc) rfl rfl
      · rename_i hnew
        exact .enter hr hpc (by simpa using hnew) rfl rfl rfl

theorem step_acquire (hr : s.requests[i]? = some r) (hpc : r.pc = .allow hash .maxInFlight false)
    (hc : s.controls[hash]? = some c) : Step s (.acquire i) (s.acquire i r hash c) := by
  unfold State.acquire
  split
  · rename_i hmax
    exact .advance hr hpc rfl (fun _ => ⟨c, hc, by rw [hmax]; rfl⟩) rfl rfl
  · rename_i maxInFlight hmax
    split
    · rename_i hlt
      exact .acquire hr hpc hc (by rw [hmax]; exact hlt) rfl rfl rfl
    · exact .move hr (by rw [hpc]; rfl) (.inr (.inr rfl)) rfl rfl

/-- Out of `allow` without a panic. -/
theorem step_defer {e : Event} {at_ : AllowPc} {r' : Request}
    (hr : s.requests[i]? = some r) (hpc : r.pc = .allow hash at_ acquired) (hpc' : r'.pc.Quiet)
    (hdeferred : r'.deferred = (r.defer hash acquired).deferred)
    (hhashes : r'.rateHashes = (r.defer hash acquired).rateHashes) : Step s e (s.setRequest i r') := by
  cases acquired with
  | false => exact .move hr (by rw [hpc]; rfl) hpc' hdeferred hhashes
  | true => exact .defer hr hpc hpc' hdeferred hhashes

theorem step_reserve (hr : s.requests[i]? = some r) (hpc : r.pc = .allow hash .bucket acquired)
    (delay : Nat) :
    Step s (.reserve i delay) (s.reserve formatDuration i r hash acquired c delay) := by
  unfold State.reserve
  split
  · exact .advance hr hpc rfl (by simp) rfl rfl
  · split
    · exact step_defer hr hpc (.inr (.inr rfl)) rfl rfl
    · exact .advance hr hpc rfl (by simp) rfl rfl

theorem step_backoff (hr : s.requests[i]? = some r)
    (hpc : r.pc = .allow hash .exponentialBackoff acquired) (hc : s.controls[hash]? = some c) :
    Step s (.backoff i) (s.backoff i r hash acquired c) := by
  unfold State.backoff
  split
  · exact step_defer hr hpc (.inl rfl) rfl rfl
  · rename_i backoff hbackoff
    cases acquired with
    | false => exact .move hr (by rw [hpc]; rfl) (.inr (.inr rfl)) rfl rfl
    | true => exact .lose hr hpc hc (by rw [hbackoff]; rfl) rfl rfl rfl

theorem backoff_eq_some (h : step hashRatePolicy formatDuration s (.backoff i) = some s') :
    ∃ r hash acquired c, s.requests[i]? = some r ∧
      r.pc = .allow hash .exponentialBackoff acquired ∧ s.controls[hash]? = some c ∧
      s' = s.backoff i r hash acquired c := by
  simp only [step, Option.bind_eq_bind, Option.bind_eq_some_iff] at h
  obtain ⟨r, hr, h⟩ := h
  split at h
  · rename_i hash acquired hpc
    obtain ⟨c, hc, h⟩ := Option.bind_eq_some_iff.mp h
    exact ⟨r, hash, acquired, c, hr, hpc, hc, (Option.some.inj h).symm⟩
  · cases h

theorem finish_eq_some (h : step hashRatePolicy formatDuration s (.finish i) = some s') :
    ∃ r lost, s.requests[i]? = some r ∧ r.pc = .unwinding lost ∧ r.deferred = [] ∧
      s' = s.setRequest i { r with pc := .done lost } := by
  simp only [step, Option.bind_eq_bind, Option.bind_eq_some_iff] at h
  obtain ⟨r, hr, h⟩ := h
  split at h
  · rename_i lost hpc
    simp only [Option.bind_eq_some_iff] at h
    obtain ⟨⟨⟩, hempty, h⟩ := h
    exact ⟨r, lost, hr, hpc, by simpa using hempty, (Option.some.inj h).symm⟩
  · cases h

/-- What a step does. -/
theorem step_of_eq_some {e : Event} (h : step hashRatePolicy formatDuration s e = some s') :
    Step s e s' := by
  cases e with
  | start policies info =>
    cases h
    obtain ⟨hpc, hdeferred, hhashes⟩ := quiet_newRequest policies info
    exact .start hpc hdeferred hhashes
  | visit i =>
    simp only [step, Option.bind_eq_bind, Option.bind_eq_some_iff] at h
    obtain ⟨r, hr, ⟨⟩, hpc, h⟩ := h
    cases h
    exact step_visit hr (by simpa using hpc)
  | acquire i =>
    simp only [step, Option.bind_eq_bind, Option.bind_eq_some_iff] at h
    obtain ⟨r, hr, h⟩ := h
    split at h
    · rename_i hash hpc
      obtain ⟨c, hc, h⟩ := Option.bind_eq_some_iff.mp h
      cases h
      exact step_acquire hr hpc hc
    · cases h
  | reserve i delay =>
    simp only [step, Option.bind_eq_bind, Option.bind_eq_some_iff] at h
    obtain ⟨r, hr, h⟩ := h
    split at h
    · rename_i hash acquired hpc
      obtain ⟨c, hc, h⟩ := Option.bind_eq_some_iff.mp h
      cases h
      exact step_reserve hr hpc delay
    · cases h
  | backoff i =>
    obtain ⟨r, hash, acquired, c, hr, hpc, hc, rfl⟩ := backoff_eq_some h
    exact step_backoff hr hpc hc
  | served i =>
    simp only [step, Option.bind_eq_bind, Option.bind_eq_some_iff] at h
    obtain ⟨r, hr, ⟨⟩, hpc, h⟩ := h
    cases h
    have hserving : r.pc = .serving := by simpa using hpc
    exact .move hr (by rw [hserving]; rfl) (.inr (.inr rfl)) rfl rfl
  | release i =>
    simp only [step, Option.bind_eq_bind, Option.bind_eq_some_iff] at h
    obtain ⟨r, hr, h⟩ := h
    split at h
    · rename_i lost hpc
      split at h
      · rename_i hash deferred hdeferred
        simp only [Option.bind_eq_some_iff] at h
        obtain ⟨c, hc, ⟨⟩, hpos, h⟩ := h
        cases h
        exact .release hr hpc hc (by simpa using hpos) hpc hdeferred rfl
      · cases h
    · cases h
  | finish i =>
    obtain ⟨r, lost, hr, hpc, hempty, rfl⟩ := finish_eq_some h
    exact .finish hr hpc hempty rfl hempty rfl

end

/-! ## Tokens and their holders -/

theorem tokens_insert (controls : StringMap RateControl) (hash : String) (c : RateControl)
    (k : String) :
    tokens (controls.insert hash c) k = if hash = k then c.tokens else tokens controls k := by
  unfold tokens
  rw [StringMap.getElem?_insert]
  split <;> rfl

/-- A new control has no tokens. -/
theorem tokens_loadOrStore (controls : StringMap RateControl) (hash name : String)
    (policy : RatePolicy) (k : String) :
    tokens (loadOrStore controls hash ⟨name, policy, 0⟩) k = tokens controls k := by
  unfold loadOrStore
  split
  · rfl
  · rename_i hnew
    rw [tokens_insert]
    split
    · rename_i heq
      have hnone : controls[k]? = none := by
        rw [← heq]
        exact Std.ExtTreeMap.getElem?_eq_none (by simpa using hnew)
      simp [tokens, hnone]
    · rfl

theorem Pc.Quiet.token {pc : Pc} (h : pc.Quiet) : pc.token = [] := by
  rcases h with rfl | rfl | rfl <;> rfl

theorem Pc.Quiet.ne_allow {pc : Pc} (h : pc.Quiet) (hash : String) (at_ : AllowPc)
    (acquired : Bool) : pc ≠ .allow hash at_ acquired := by
  rcases h with rfl | rfl | rfl <;> simp

theorem Pc.Quiet.ne_done {pc : Pc} (h : pc.Quiet) (lost : Option String) : pc ≠ .done lost := by
  rcases h with rfl | rfl | rfl <;> simp

/-- What holds of a request in `allow`. -/
structure Request.InAllow (controls : StringMap RateControl) (r : Request) (hash : String)
    (at_ : AllowPc) (acquired : Bool) : Prop where
  visited : hash ∈ r.rateHashes
  not_deferred : hash ∉ r.deferred
  /-- Behind the `select` it has a token if and only if the control has a `MaxInFlight`. -/
  limit (h : at_ ≠ .maxInFlight) :
    ∃ c, controls[hash]? = some c ∧ acquired = c.policy.maxInFlight.isSome

/-- Controls stay, with their policies. -/
def PoliciesKept (controls controls' : StringMap RateControl) : Prop :=
  ∀ (k : String) (c : RateControl), controls[k]? = some c →
    ∃ c', controls'[k]? = some c' ∧ c'.policy = c.policy

theorem PoliciesKept.mem {controls controls' : StringMap RateControl} {k : String}
    (h : PoliciesKept controls controls') (hk : k ∈ controls) : k ∈ controls' := by
  rw [Std.ExtTreeMap.mem_iff_isSome_getElem?, Option.isSome_iff_exists] at hk ⊢
  obtain ⟨c, hc⟩ := hk
  obtain ⟨c', hc', -⟩ := h k c hc
  exact ⟨c', hc'⟩

/-- What holds of a request at any time. -/
structure Request.Ok (controls : StringMap RateControl) (r : Request) : Prop where
  /-- It holds at most one token of a control, since it visits each control
  once. -/
  nodup : r.holds.Nodup
  visited : ∀ hash ∈ r.holds, hash ∈ r.rateHashes
  known : ∀ hash ∈ r.rateHashes, hash ∈ controls
  allow : ∀ hash at_ acquired, r.pc = .allow hash at_ acquired →
    r.InAllow controls hash at_ acquired
  done : ∀ lost, r.pc = .done lost → r.deferred = []

theorem Request.Ok.mono {controls controls' : StringMap RateControl} {r : Request}
    (h : r.Ok controls) (hkept : PoliciesKept controls controls') : r.Ok controls' where
  nodup := h.nodup
  visited := h.visited
  known hash hmem := hkept.mem (h.known hash hmem)
  allow hash at_ acquired hpc := by
    have hallow := h.allow hash at_ acquired hpc
    refine ⟨hallow.visited, hallow.not_deferred, fun hat => ?_⟩
    obtain ⟨c, hc, hacquired⟩ := hallow.limit hat
    obtain ⟨c', hc', hpolicy⟩ := hkept hash c hc
    exact ⟨c', hc', hpolicy ▸ hacquired⟩
  done := h.done

/-- The tokens of a control do not exceed its `MaxInFlight`. -/
def Bounded (controls : StringMap RateControl) : Prop :=
  ∀ (k : String) (c : RateControl), controls[k]? = some c →
    c.tokens ≤ c.policy.maxInFlight.getD 0

/-- What a step of the request `r` does. -/
structure Effect (controls : StringMap RateControl) (r r' : Request)
    (controls' : StringMap RateControl) : Prop where
  tokens (k : String) : tokens controls' k + r.holds.count k = tokens controls k + r'.holds.count k
  ok (h : r.Ok controls) : r'.Ok controls'
  kept : PoliciesKept controls controls'
  bounded (h : Bounded controls) : Bounded controls'

section

variable {controls : StringMap RateControl} {r r' : Request} {hash : String} {c : RateControl}

/-- A step that leaves the controls and the tokens held as they are. -/
theorem Effect.of_holds (hholds : r'.holds = r.holds) (hhashes : r'.rateHashes = r.rateHashes)
    (hallow : r.Ok controls → ∀ hash at_ acquired, r'.pc = .allow hash at_ acquired →
      r'.InAllow controls hash at_ acquired)
    (hdone : ∀ lost, r'.pc = .done lost → r'.deferred = []) : Effect controls r r' controls := by
  refine ⟨fun k => by rw [hholds], fun h => ⟨?_, ?_, ?_, hallow h, hdone⟩,
    fun _ c hc => ⟨c, hc, rfl⟩, id⟩
  · rw [hholds]; exact h.nodup
  · rw [hholds, hhashes]; exact h.visited
  · rw [hhashes]; exact h.known

/-- A step to a quiet place. -/
theorem Effect.of_quiet (hpc' : r'.pc.Quiet) (hdeferred : r'.deferred = r.holds)
    (hhashes : r'.rateHashes = r.rateHashes) : Effect controls r r' controls := by
  refine .of_holds ?_ hhashes (fun _ hash at_ acquired hpc => ?_) fun lost hpc => ?_
  · rw [Request.holds, hpc'.token, hdeferred, List.nil_append]
  · exact absurd hpc (hpc'.ne_allow hash at_ acquired)
  · exact absurd hpc (hpc'.ne_done lost)

theorem effect_advance {at_ at' : AllowPc} {acquired : Bool}
    (hpc : r.pc = .allow hash at_ acquired) (hpc' : r'.pc = .allow hash at' acquired)
    (hlimit : at_ = .maxInFlight →
      ∃ c, controls[hash]? = some c ∧ acquired = c.policy.maxInFlight.isSome)
    (hdeferred : r'.deferred = r.deferred) (hhashes : r'.rateHashes = r.rateHashes) :
    Effect controls r r' controls := by
  refine .of_holds ?_ hhashes (fun h hash' at'' acquired' hpc'' => ?_) fun lost hdone => ?_
  · rw [Request.holds, Request.holds, hpc, hpc', hdeferred]
    cases acquired <;> rfl
  · rw [hpc'] at hpc''
    cases hpc''
    have hallow := h.allow _ _ _ hpc
    refine ⟨hhashes ▸ hallow.visited, hdeferred ▸ hallow.not_deferred, fun _ => ?_⟩
    by_cases hat : at_ = .maxInFlight
    · exact hlimit hat
    · exact hallow.limit hat
  · rw [hpc'] at hdone
    cases hdone

theorem effect_lose (hpc : r.pc = .allow hash .exponentialBackoff true)
    (hpc' : r'.pc = .unwinding (some hash)) (hdeferred : r'.deferred = r.deferred)
    (hhashes : r'.rateHashes = r.rateHashes) : Effect controls r r' controls := by
  refine .of_holds ?_ hhashes (fun _ hash' at_ acquired hpc'' => ?_) fun lost hdone => ?_
  · rw [Request.holds, Request.holds, hpc, hpc', hdeferred]
    rfl
  · rw [hpc'] at hpc''
    cases hpc''
  · rw [hpc'] at hdone
    cases hdone

theorem effect_finish {lost : Option String} (hpc : r.pc = .unwinding lost)
    (hempty : r.deferred = []) (hpc' : r'.pc = .done lost) (hdeferred : r'.deferred = [])
    (hhashes : r'.rateHashes = r.rateHashes) : Effect controls r r' controls := by
  refine .of_holds ?_ hhashes (fun _ hash' at_ acquired hpc'' => ?_) fun _ _ => hdeferred
  · rw [Request.holds, Request.holds, hpc, hpc', hdeferred, hempty]
    cases lost <;> rfl
  · rw [hpc'] at hpc''
    cases hpc''

theorem mem_loadOrStore (k : String) :
    k ∈ loadOrStore controls hash c ↔ k = hash ∨ k ∈ controls := by
  unfold loadOrStore
  split
  · rename_i hmem
    have hmem' : hash ∈ controls := by simpa using hmem
    refine ⟨.inr, ?_⟩
    rintro (rfl | h)
    · exact hmem'
    · exact h
  · rw [Std.ExtTreeMap.mem_insert, Std.LawfulEqCmp.compare_eq_iff_eq, eq_comm]

theorem policiesKept_loadOrStore : PoliciesKept controls (loadOrStore controls hash c) := by
  intro k c' hc'
  unfold loadOrStore
  split
  · exact ⟨c', hc', rfl⟩
  · rename_i hnew
    refine ⟨c', ?_, rfl⟩
    rw [StringMap.getElem?_insert, if_neg, hc']
    rintro rfl
    apply hnew
    rw [Std.ExtTreeMap.contains_eq_isSome_getElem?, hc']
    rfl

theorem effect_enter {name : String} {policy : RatePolicy} (hpc : r.pc = .visiting)
    (hnew : hash ∉ r.rateHashes) (hpc' : r'.pc = .allow hash .maxInFlight false)
    (hdeferred : r'.deferred = r.deferred) (hhashes : r'.rateHashes = r.rateHashes.insert hash) :
    Effect controls r r' (loadOrStore controls hash ⟨name, policy, 0⟩) := by
  have hholds : r'.holds = r.holds := by
    rw [Request.holds, Request.holds, hpc, hpc', hdeferred]; rfl
  have hdef : r.holds = r.deferred := by rw [Request.holds, hpc]; rfl
  refine ⟨fun k => ?_, fun h => ⟨?_, ?_, ?_, ?_, ?_⟩, policiesKept_loadOrStore,
    fun h k c hc => ?_⟩
  · rw [tokens_loadOrStore, hholds]
  · rw [hholds]; exact h.nodup
  · intro k hk
    rw [hholds] at hk
    rw [hhashes, StringSet.mem_insert_iff]
    exact .inr (h.visited k hk)
  · intro k hk
    rw [hhashes, StringSet.mem_insert_iff] at hk
    rw [mem_loadOrStore]
    exact hk.imp_right (h.known k)
  · intro hash' at_ acquired hpc''
    rw [hpc'] at hpc''
    cases hpc''
    refine ⟨by rw [hhashes, StringSet.mem_insert_iff]; exact .inl rfl, fun hmem => hnew ?_,
      fun hat => absurd rfl hat⟩
    rw [hdeferred, ← hdef] at hmem
    exact h.visited hash hmem
  · intro lost hdone
    rw [hpc'] at hdone
    cases hdone
  · unfold loadOrStore at hc
    split at hc
    · exact h k c hc
    · rw [StringMap.getElem?_insert] at hc
      split at hc
      · cases hc
        exact Nat.zero_le _
      · exact h k c hc

/-- A control gets other tokens. -/
theorem Bounded.insert (h : Bounded controls) {n : Nat} (hn : n ≤ c.policy.maxInFlight.getD 0) :
    Bounded (controls.insert hash { c with tokens := n }) := by
  intro k c' hc'
  rw [StringMap.getElem?_insert] at hc'
  split at hc'
  · cases hc'
    exact hn
  · exact h k c' hc'

theorem policiesKept_insert (hc : controls[hash]? = some c) {n : Nat} :
    PoliciesKept controls (controls.insert hash { c with tokens := n }) := by
  intro k c' hc'
  rw [StringMap.getElem?_insert]
  split
  · rename_i hk
    subst hk
    obtain rfl : c = c' := Option.some.inj (hc.symm.trans hc')
    exact ⟨_, rfl, rfl⟩
  · exact ⟨c', hc', rfl⟩

theorem effect_acquire (hpc : r.pc = .allow hash .maxInFlight false)
    (hc : controls[hash]? = some c) (hlt : c.tokens < c.policy.maxInFlight.getD 0)
    (hpc' : r'.pc = .allow hash .bucket true) (hdeferred : r'.deferred = r.deferred)
    (hhashes : r'.rateHashes = r.rateHashes) :
    Effect controls r r' (controls.insert hash { c with tokens := c.tokens + 1 }) := by
  have hold : r.holds = r.deferred := by rw [Request.holds, hpc]; rfl
  have hnew : r'.holds = hash :: r.holds := by
    rw [Request.holds, hpc', hdeferred, hold]; rfl
  have htokens : tokens controls hash = c.tokens := by rw [tokens, hc]; rfl
  refine ⟨fun k => ?_, fun h => ⟨?_, ?_, ?_, ?_, ?_⟩, policiesKept_insert hc,
    fun h => h.insert (by omega)⟩
  · rw [tokens_insert, hnew, List.count_cons]
    by_cases hk : hash = k
    · subst hk
      simp [htokens]
      omega
    · simp [hk]
  · rw [hnew, List.nodup_cons]
    refine ⟨?_, h.nodup⟩
    rw [hold]
    exact (h.allow _ _ _ hpc).not_deferred
  · rw [hnew, hhashes]
    refine List.forall_mem_cons.mpr ⟨(h.allow _ _ _ hpc).visited, h.visited⟩
  · rw [hhashes]
    exact fun k hk => (policiesKept_insert hc).mem (h.known k hk)
  · intro hash' at_ acquired hpc''
    rw [hpc'] at hpc''
    cases hpc''
    have hallow := h.allow _ _ _ hpc
    refine ⟨hhashes ▸ hallow.visited, hdeferred ▸ hallow.not_deferred, fun _ => ?_⟩
    refine ⟨_, StringMap.getElem?_insert.trans (if_pos rfl), ?_⟩
    cases hmax : c.policy.maxInFlight with
    | none => simp [hmax] at hlt
    | some maxInFlight => rfl
  · intro lost hdone
    rw [hpc'] at hdone
    cases hdone

theorem effect_release {lost : Option String} (hpc : r.pc = .unwinding lost)
    (hc : controls[hash]? = some c) (hpos : 0 < c.tokens) (hpc' : r'.pc = .unwinding lost)
    (hdeferred : r.deferred = hash :: r'.deferred) (hhashes : r'.rateHashes = r.rateHashes) :
    Effect controls r r' (controls.insert hash { c with tokens := c.tokens - 1 }) := by
  have hholds : r.holds.Perm (hash :: r'.holds) := by
    rw [Request.holds, Request.holds, hpc, hpc', hdeferred]
    exact List.perm_middle
  have htokens : tokens controls hash = c.tokens := by rw [tokens, hc]; rfl
  have hsub : ∀ k ∈ r'.holds, k ∈ r.holds := fun k hk =>
    hholds.mem_iff.mpr (List.mem_cons_of_mem _ hk)
  refine ⟨fun k => ?_, fun h => ⟨?_, ?_, ?_, ?_, ?_⟩, policiesKept_insert hc,
    fun h => h.insert ?_⟩
  · rw [tokens_insert, hholds.count_eq, List.count_cons]
    by_cases hk : hash = k
    · subst hk
      simp [htokens]
      omega
    · simp [hk]
  · exact (List.nodup_cons.mp (hholds.nodup_iff.mp h.nodup)).2
  · rw [hhashes]
    exact fun k hk => h.visited k (hsub k hk)
  · rw [hhashes]
    exact fun k hk => (policiesKept_insert hc).mem (h.known k hk)
  · intro hash' at_ acquired hpc''
    rw [hpc'] at hpc''
    cases hpc''
  · intro lost' hdone
    rw [hpc'] at hdone
    cases hdone
  · have hle := h hash c hc
    omega

end

/-! ## Along a run -/

structure Inv (s : State) : Prop where
  balanced (k : String) : tokens s.controls k = outstanding (s.requests.map (·.holds)) k
  bounded : Bounded s.controls
  requests : ∀ r ∈ s.requests, r.Ok s.controls

theorem inv_start : Inv ⟨∅, []⟩ :=
  ⟨fun k => by simp [tokens, outstanding], fun k c h => by simp at h, by simp⟩

section

variable {s s' : State} {e : Event} {i : Nat} {r r' : Request}

/-- One request takes a step. -/
theorem Inv.set {controls' : StringMap RateControl} (h : Inv s) (hr : s.requests[i]? = some r)
    (he : Effect s.controls r r' controls') : Inv ⟨controls', s.requests.set i r'⟩ := by
  have hmem : r ∈ s.requests := List.mem_of_getElem? hr
  refine ⟨fun k => ?_, he.bounded h.bounded, fun x hx => ?_⟩
  · have hold : (s.requests.map (·.holds))[i]? = some r.holds := by
      rw [List.getElem?_map, hr]; rfl
    have hset := outstanding_set hold r'.holds k
    have htokens := he.tokens k
    have hbalanced := h.balanced k
    rw [List.map_set]
    dsimp only
    omega
  · rcases List.mem_or_eq_of_mem_set hx with hx | rfl
    · exact (h.requests x hx).mono he.kept
    · exact he.ok (h.requests r hmem)

theorem Inv.step (h : Inv s) (hstep : Step s e s') : Inv s' := by
  cases hstep with
  | @start _ r hpc hdeferred hhashes =>
    have hholds : r.holds = [] := by rw [Request.holds, hpc.token, hdeferred]; rfl
    refine ⟨fun k => ?_, h.bounded, fun x hx => ?_⟩
    · rw [List.map_append, List.map_cons, List.map_nil, hholds, outstanding_append_nil]
      exact h.balanced k
    · rcases List.mem_append.mp hx with hx | hx
      · exact h.requests x hx
      · obtain rfl := List.mem_singleton.mp hx
        refine ⟨by rw [hholds]; exact List.nodup_nil, by simp [hholds], by simp [hhashes],
          fun hash at_ acquired hallow => absurd hallow (hpc.ne_allow hash at_ acquired),
          fun _ _ => hdeferred⟩
  | move hr htoken hpc' hdeferred hhashes =>
    refine h.set hr (.of_quiet hpc' ?_ hhashes)
    rw [hdeferred, Request.holds, htoken, List.nil_append]
  | enter hr hpc hnew hpc' hdeferred hhashes =>
    exact h.set hr (effect_enter hpc hnew hpc' hdeferred hhashes)
  | advance hr hpc hpc' hlimit hdeferred hhashes =>
    exact h.set hr (effect_advance hpc hpc' hlimit hdeferred hhashes)
  | acquire hr hpc hc hlt hpc' hdeferred hhashes =>
    exact h.set hr (effect_acquire hpc hc hlt hpc' hdeferred hhashes)
  | defer hr hpc hpc' hdeferred hhashes =>
    refine h.set hr (.of_quiet hpc' ?_ hhashes)
    rw [hdeferred, Request.holds, hpc]
    rfl
  | lose hr hpc hc hbackoff hpc' hdeferred hhashes =>
    exact h.set hr (effect_lose hpc hpc' hdeferred hhashes)
  | release hr hpc hc hpos hpc' hdeferred hhashes =>
    exact h.set hr (effect_release hpc hc hpos hpc' hdeferred hhashes)
  | finish hr hpc hempty hpc' hdeferred hhashes =>
    exact h.set hr (effect_finish hpc hempty hpc' hdeferred hhashes)

theorem inv_of_run {hashRatePolicy : String → RatePolicy → String} {formatDuration : Nat → String}
    {es : List Event} (h : (system hashRatePolicy formatDuration).run es = some s) : Inv s :=
  System.runFrom_invariant _ (fun _ hs hstep => hs.step (step_of_eq_some hstep))
    (fun _ _ => trivial) inv_start h

/-- No request has returned without its token. -/
def NoneLost (s : State) : Prop := ∀ r ∈ s.requests, ∀ hash, r.pc ≠ .done (some hash)

end

/-- The tokens in the channels are those of the requests in flight. -/
structure Conserved (s : State) : Prop where
  held (hash : String) (c : RateControl) (hc : s.controls[hash]? = some c) :
    c.tokens = s.requests.countP fun r => r.unfinished && decide (hash ∈ r.holds)
  bounded : Bounded s.controls
  released (h : ∀ r ∈ s.requests, r.unfinished = false) (hash : String) (c : RateControl)
    (hc : s.controls[hash]? = some c) : c.tokens = 0
  /-- A deferred release finds a token in the channel. -/
  noWait : ∀ r ∈ s.requests, ∀ hash deferred, r.deferred = hash :: deferred →
    ∃ c, s.controls[hash]? = some c ∧ 0 < c.tokens

namespace Inv

variable {s : State} (h : Inv s)

include h

theorem tokens_eq_countP {hash : String} {c : RateControl} (hc : s.controls[hash]? = some c) :
    c.tokens = s.requests.countP fun r => decide (hash ∈ r.holds) := by
  have hnodup : ∀ held ∈ s.requests.map (·.holds), held.Nodup := by
    intro held hheld
    obtain ⟨r, hr, rfl⟩ := List.mem_map.mp hheld
    exact (h.requests r hr).nodup
  have hbalanced := h.balanced hash
  rw [outstanding_eq_countP hnodup, List.countP_map, tokens, hc] at hbalanced
  exact hbalanced

/-- A request that has returned with nothing lost holds no tokens. -/
theorem unfinished_of_mem_holds (hnone : NoneLost s) {r : Request} (hr : r ∈ s.requests)
    {hash : String} (hhash : hash ∈ r.holds) : r.unfinished = true := by
  unfold Request.unfinished
  split
  · rename_i lost hpc
    cases lost with
    | some lost => exact absurd hpc (hnone r hr lost)
    | none =>
      rw [Request.holds, hpc, (h.requests r hr).done none hpc] at hhash
      cases hhash
  · rfl

theorem noWait {r : Request} (hr : r ∈ s.requests) {hash : String} (hhash : hash ∈ r.deferred) :
    ∃ c, s.controls[hash]? = some c ∧ 0 < c.tokens := by
  have hpos : 0 < tokens s.controls hash := by
    rw [h.balanced]
    exact outstanding_pos (List.mem_map_of_mem hr) (List.mem_append_right _ hhash)
  unfold tokens at hpos
  cases hc : s.controls[hash]? with
  | none => simp [hc] at hpos
  | some c => exact ⟨c, rfl, by simpa [hc] using hpos⟩

theorem conserved_iff : Conserved s ↔ NoneLost s := by
  constructor
  · intro hcons r hr hash hpc
    have hhash : hash ∈ r.holds := by
      rw [Request.holds, hpc]
      exact List.mem_cons_self
    have hknown := (h.requests r hr).known hash ((h.requests r hr).visited hash hhash)
    obtain ⟨c, hc⟩ := Option.isSome_iff_exists.mp (Std.ExtTreeMap.mem_iff_isSome_getElem?.mp hknown)
    -- the request itself is counted among all holders, but not among the unfinished
    have hcount := (h.tokens_eq_countP hc).symm.trans (hcons.held hash c hc)
    rw [List.countP_eq_countP_filter_add _ _ Request.unfinished, List.countP_filter] at hcount
    have hpos : 0 < (s.requests.filter fun x => !x.unfinished).countP
        fun x => decide (hash ∈ x.holds) := by
      refine List.countP_pos_iff.mpr ⟨r, List.mem_filter.mpr ⟨hr, ?_⟩, decide_eq_true hhash⟩
      simp [Request.unfinished, hpc]
    simp only [Bool.and_comm] at hcount hpos
    omega
  · intro hnone
    have hheld (hash : String) (c : RateControl) (hc : s.controls[hash]? = some c) :
        c.tokens = s.requests.countP fun r => r.unfinished && decide (hash ∈ r.holds) := by
      rw [h.tokens_eq_countP hc]
      refine List.countP_congr fun r hr => ?_
      simp only [decide_eq_true_eq, Bool.and_eq_true]
      exact ⟨fun hhash => ⟨h.unfinished_of_mem_holds hnone hr hhash, hhash⟩, And.right⟩
    refine ⟨hheld, h.bounded, fun hdone hash c hc => ?_, fun r hr hash deferred hdeferred => ?_⟩
    · rw [hheld hash c hc, List.countP_eq_zero]
      intro r hr
      simp [hdone r hr]
    · exact h.noWait hr (by rw [hdeferred]; exact List.mem_cons_self)

end Inv

/-! ## Requests that return without their token -/

/-- The request `i` is at the exponential backoff of a control whose policy has one,
and a `MaxInFlight` too. -/
def entersBackoff (s : State) (i : Nat) : Bool :=
  s.requests[i]?.any fun r =>
    match r.pc with
    | .allow hash .exponentialBackoff _ => s.controls[hash]?.any fun c =>
        c.policy.maxInFlight.isSome && c.policy.exponentialBackoff.isSome
    | _ => false

/-- In the run a request goes on to the exponential backoff of a control with a
`MaxInFlight`, and returns after that. -/
def ReturnsFromBackoff (M : System State Event) (es : List Event) : Prop :=
  ∃ es₁ i es₂ s, es = es₁ ++ .backoff i :: es₂ ∧ M.run es₁ = some s ∧ entersBackoff s i = true ∧
    .finish i ∈ es₂

/-- A place behind the loss of a token of the control. -/
def Pc.Lost (hash : String) (pc : Pc) : Prop := pc = .unwinding (some hash) ∨ pc = .done (some hash)

section

variable {hashRatePolicy : String → RatePolicy → String} {formatDuration : Nat → String}
  {s s' : State} {e : Event} {i : Nat} {r r' : Request} {hash : String}

theorem entersBackoff_iff :
    entersBackoff s i = true ↔ ∃ r hash acquired c, s.requests[i]? = some r ∧
      r.pc = .allow hash .exponentialBackoff acquired ∧ s.controls[hash]? = some c ∧
      c.policy.maxInFlight.isSome ∧ c.policy.exponentialBackoff.isSome := by
  rw [entersBackoff, Option.any_eq_true]
  constructor
  · rintro ⟨r, hr, h⟩
    split at h
    · rename_i hash acquired hpc
      rw [Option.any_eq_true] at h
      obtain ⟨c, hc, h⟩ := h
      rw [Bool.and_eq_true] at h
      exact ⟨r, hash, acquired, c, hr, hpc, hc, h⟩
    · cases h
  · rintro ⟨r, hash, acquired, c, hr, hpc, hc, h⟩
    refine ⟨r, hr, ?_⟩
    rw [hpc]
    exact (Option.any_eq_true _ _).mpr ⟨c, hc, by rw [Bool.and_eq_true]; exact h⟩

theorem Pc.Lost.token {pc : Pc} (h : pc.Lost hash) : pc.token = [hash] := by
  rcases h with rfl | rfl <;> rfl

theorem Pc.Lost.ne_allow {pc : Pc} (h : pc.Lost hash) (hash' : String) (at_ : AllowPc)
    (acquired : Bool) : pc ≠ .allow hash' at_ acquired := by
  rcases h with rfl | rfl <;> simp

/-- The request `i` has got to such a place. -/
def PcAt (i : Nat) (P : Pc → Prop) (s : State) : Prop := ∃ r, s.requests[i]? = some r ∧ P r.pc

theorem PcAt.set {P : Pc → Prop} {j : Nat} {controls' : StringMap RateControl}
    (h : PcAt i P s) (hr : s.requests[j]? = some r) (hpc : P r.pc → P r'.pc) :
    PcAt i P ⟨controls', s.requests.set j r'⟩ := by
  obtain ⟨x, hx, hP⟩ := h
  have hlt : i < s.requests.length := (List.getElem?_eq_some_iff.mp hx).1
  rw [PcAt, List.getElem?_set]
  by_cases hij : j = i
  · subst hij
    obtain rfl : r = x := Option.some.inj (hr.symm.trans hx)
    exact ⟨r', by rw [if_pos rfl, if_pos hlt], hpc hP⟩
  · exact ⟨x, by rw [if_neg hij, hx], hP⟩

/-- A request that has lost its token does not get it back. -/
theorem lost_step (h : PcAt i (Pc.Lost hash) s) (hstep : Step s e s') : PcAt i (Pc.Lost hash) s' := by
  cases hstep with
  | start =>
    obtain ⟨x, hx, hP⟩ := h
    exact ⟨x, (List.getElem?_append_left (List.getElem?_eq_some_iff.mp hx).1).trans hx, hP⟩
  | move hr htoken =>
    refine h.set hr fun hlost => ?_
    rw [hlost.token] at htoken
    cases htoken
  | enter hr hpc =>
    refine h.set hr fun hlost => ?_
    have htoken := hlost.token
    rw [hpc] at htoken
    cases htoken
  | advance hr hpc => exact h.set hr fun hlost => absurd hpc (hlost.ne_allow _ _ _)
  | acquire hr hpc => exact h.set hr fun hlost => absurd hpc (hlost.ne_allow _ _ _)
  | defer hr hpc => exact h.set hr fun hlost => absurd hpc (hlost.ne_allow _ _ _)
  | lose hr hpc => exact h.set hr fun hlost => absurd hpc (hlost.ne_allow _ _ _)
  | release hr hpc _ _ hpc' => exact h.set hr fun hlost => by rwa [hpc', ← hpc]
  | finish hr hpc _ hpc' =>
    refine h.set hr fun hlost => .inr ?_
    rw [hpc] at hlost
    rcases hlost with hlost | hlost
    · rw [hpc', Pc.unwinding.inj hlost]
    · cases hlost

/-- How the request `i` has come to be `r'` in a step. -/
inductive Came (s : State) (e : Event) (i : Nat) (r' : Request) : Prop where
  | stayed (h : s.requests[i]? = some r')
  | notLost (h : ∀ hash, ¬r'.pc.Lost hash)
  | lost {r : Request} {hash : String} {c : RateControl} (he : e = .backoff i)
      (hr : s.requests[i]? = some r) (hpc : r.pc = .allow hash .exponentialBackoff true)
      (hc : s.controls[hash]? = some c) (hbackoff : c.policy.exponentialBackoff.isSome)
      (hpc' : r'.pc = .unwinding (some hash))
  | unwinds {r : Request} {lost : Option String} (hr : s.requests[i]? = some r)
      (hpc : r.pc = .unwinding lost)
      (hpc' : r'.pc = .unwinding lost ∨ e = .finish i ∧ r'.pc = .done lost)

theorem came_of_step (hstep : Step s e s') (hr' : s'.requests[i]? = some r') : Came s e i r' := by
  have hset {j : Nat} {x : Request} (hx : (s.requests.set j x)[i]? = some r')
      (hcame : j = i → x = r' → Came s e i r') : Came s e i r' := by
    rw [List.getElem?_set] at hx
    split at hx
    · rename_i hij
      split at hx
      · exact hcame hij (Option.some.inj hx)
      · cases hx
    · exact .stayed hx
  have hquiet {pc : Pc} (hpc : pc.Quiet) (hash : String) : ¬pc.Lost hash := by
    intro hlost
    have htoken := hlost.token
    rw [hpc.token] at htoken
    cases htoken
  have hallow {pc : Pc} {hash' : String} {at_ : AllowPc} {acquired : Bool}
      (hpc : pc = .allow hash' at_ acquired) (hash : String) : ¬pc.Lost hash :=
    fun hlost => hlost.ne_allow _ _ _ hpc
  cases hstep with
  | @start _ x hpc =>
    rw [List.getElem?_append] at hr'
    split at hr'
    · exact .stayed hr'
    · obtain rfl : x = r' := List.mem_singleton.mp (List.mem_of_getElem? hr') |>.symm
      exact .notLost (hquiet hpc)
  | move _ _ hpc' => exact hset hr' fun _ hx => .notLost (hx ▸ hquiet hpc')
  | enter _ _ _ hpc' => exact hset hr' fun _ hx => .notLost (hx ▸ hallow hpc')
  | advance _ _ hpc' => exact hset hr' fun _ hx => .notLost (hx ▸ hallow hpc')
  | acquire _ _ _ _ hpc' => exact hset hr' fun _ hx => .notLost (hx ▸ hallow hpc')
  | defer _ _ hpc' => exact hset hr' fun _ hx => .notLost (hx ▸ hquiet hpc')
  | lose hr hpc hc hbackoff hpc' =>
    refine hset hr' ?_
    rintro rfl rfl
    exact .lost rfl hr hpc hc hbackoff hpc'
  | release hr hpc _ _ hpc' =>
    refine hset hr' ?_
    rintro rfl rfl
    exact .unwinds hr hpc (.inl hpc')
  | finish hr hpc _ hpc' =>
    refine hset hr' ?_
    rintro rfl rfl
    exact .unwinds hr hpc (.inr ⟨rfl, hpc'⟩)

/-- In the backoff of a control with a `MaxInFlight`, the token is lost. -/
theorem lost_of_backoff (hs : Inv s) (henters : entersBackoff s i = true)
    (hstep : step hashRatePolicy formatDuration s (.backoff i) = some s') :
    ∃ hash, PcAt i (Pc.Lost hash) s' := by
  obtain ⟨r, hash, acquired, c, hr, hpc, hc, hmax, hbackoff⟩ := entersBackoff_iff.mp henters
  obtain ⟨r', hash', acquired', c', hr', hpc', hc', rfl⟩ := backoff_eq_some hstep
  obtain rfl : r = r' := Option.some.inj (hr.symm.trans hr')
  obtain ⟨rfl, -, rfl⟩ : hash = hash' ∧ _ ∧ acquired = acquired' :=
    Pc.allow.inj (hpc.symm.trans hpc')
  obtain rfl : c = c' := Option.some.inj (hc.symm.trans hc')
  obtain ⟨c', hc', hacquired⟩ :=
    ((hs.requests r (List.mem_of_getElem? hr)).allow _ _ _ hpc).limit (by simp)
  obtain rfl : c = c' := Option.some.inj (hc.symm.trans hc')
  obtain ⟨backoff, hbackoff⟩ := Option.isSome_iff_exists.mp hbackoff
  have hlt : i < s.requests.length := (List.getElem?_eq_some_iff.mp hr).1
  refine ⟨hash, { r with pc := .unwinding (some hash) }, ?_, .inl rfl⟩
  rw [State.backoff, hbackoff, hacquired, hmax]
  exact List.getElem?_set_self hlt

theorem done_of_finish (h : PcAt i (Pc.Lost hash) s)
    (hstep : step hashRatePolicy formatDuration s (.finish i) = some s') :
    PcAt i (· = .done (some hash)) s' := by
  obtain ⟨r, lost, hr, hpc, -, rfl⟩ := finish_eq_some hstep
  obtain ⟨r', hr', hlost⟩ := h
  obtain rfl : r = r' := Option.some.inj (hr.symm.trans hr')
  have hlt : i < s.requests.length := (List.getElem?_eq_some_iff.mp hr).1
  refine ⟨{ r with pc := .done lost }, List.getElem?_set_self hlt, ?_⟩
  rcases hlost with hlost | hlost
  · rw [Pc.unwinding.inj (hpc.symm.trans hlost)]
  · rw [hpc] at hlost
    cases hlost

/-- A request that is at a lost token was at a backoff before. -/
theorem backoff_of_unwinding {es : List Event}
    (h : (system hashRatePolicy formatDuration).run es = some s)
    (hpc : PcAt i (· = .unwinding (some hash)) s) :
    ∃ es₁ es₂ s₁, es = es₁ ++ .backoff i :: es₂ ∧
      (system hashRatePolicy formatDuration).run es₁ = some s₁ ∧ entersBackoff s₁ i = true := by
  obtain ⟨es₁, e, es₂, s₁, s₂, rfl, hrun, hstep, hnot, r', hr', hpc'⟩ :=
    System.runFrom_becomes _ h (P := PcAt i (· = .unwinding (some hash))) (by simp [PcAt, system]) hpc
  cases came_of_step (step_of_eq_some hstep) hr' with
  | stayed hr => exact absurd ⟨r', hr, hpc'⟩ hnot
  | notLost hne => exact absurd (.inl hpc') (hne hash)
  | @lost r hash' c he hr hpc hc hbackoff =>
    subst he
    have hallow := ((inv_of_run hrun).requests r (List.mem_of_getElem? hr)).allow _ _ _ hpc
    obtain ⟨c', hc', hmax⟩ := hallow.limit (by simp)
    obtain rfl : c = c' := Option.some.inj (hc.symm.trans hc')
    exact ⟨es₁, es₂, s₁, rfl, hrun,
      entersBackoff_iff.mpr ⟨r, hash', true, c, hr, hpc, hc, hmax.symm, hbackoff⟩⟩
  | unwinds hr hpc hlost =>
    rcases hlost with hlost | ⟨-, hdone⟩
    · exact absurd ⟨_, hr, hpc.trans (hlost.symm.trans hpc')⟩ hnot
    · rw [hdone] at hpc'
      cases hpc'

/-- The token is lost at the backoff, and still when the request returns. -/
theorem done_of_returnsFromBackoff {es : List Event}
    (h : (system hashRatePolicy formatDuration).run es = some s)
    (hreturns : ReturnsFromBackoff (system hashRatePolicy formatDuration) es) :
    ∃ pre s' i hash, pre <+: es ∧ (system hashRatePolicy formatDuration).run pre = some s' ∧
      PcAt i (· = .done (some hash)) s' := by
  obtain ⟨es₁, i, es₂, s₁, rfl, hrun₁, henters, hfinish⟩ := hreturns
  obtain ⟨es₃, es₄, rfl⟩ := List.append_of_mem hfinish
  obtain ⟨s₁', hrun₁', h⟩ := (System.runFrom_append_eq_some _).mp h
  obtain rfl : s₁ = s₁' := Option.some.inj (hrun₁.symm.trans hrun₁')
  obtain ⟨s₂, hbackoff, h⟩ := (System.runFrom_cons_eq_some _).mp h
  obtain ⟨s₃, hrun₃, h⟩ := (System.runFrom_append_eq_some _).mp h
  obtain ⟨s₄, hstep, -⟩ := (System.runFrom_cons_eq_some _).mp h
  have hbackoff : step hashRatePolicy formatDuration s₁ (.backoff i) = some s₂ := hbackoff
  have hstep : step hashRatePolicy formatDuration s₃ (.finish i) = some s₄ := hstep
  obtain ⟨hash, hlost⟩ := lost_of_backoff (inv_of_run hrun₁) henters hbackoff
  have hlost₃ := System.runFrom_invariant _ (I := PcAt i (Pc.Lost hash))
    (fun _ hs hstep => lost_step hs (step_of_eq_some hstep)) (fun _ _ => trivial) hlost hrun₃
  refine ⟨es₁ ++ .backoff i :: (es₃ ++ [.finish i]), s₄, i, hash, ⟨es₄, by simp⟩, ?_,
    done_of_finish hlost₃ hstep⟩
  have hlast : (system hashRatePolicy formatDuration).runFrom s₃ [.finish i] = some s₄ :=
    (System.runFrom_cons_eq_some _).mpr ⟨s₄, hstep, rfl⟩
  exact (System.runFrom_append_eq_some _).mpr ⟨s₁, hrun₁, (System.runFrom_cons_eq_some _).mpr
    ⟨s₂, hbackoff, (System.runFrom_append_eq_some _).mpr ⟨s₃, hrun₃, hlast⟩⟩⟩

theorem returnsFromBackoff_of_done {es : List Event}
    (h : (system hashRatePolicy formatDuration).run es = some s)
    (hdone : PcAt i (· = .done (some hash)) s) :
    ReturnsFromBackoff (system hashRatePolicy formatDuration) es := by
  obtain ⟨es₁, e, es₂, s₁, s₂, rfl, hrun₁, hstep, hnot, x, hx, hpc⟩ :=
    System.runFrom_becomes _ h (P := PcAt i (· = .done (some hash))) (by simp [PcAt, system]) hdone
  cases came_of_step (step_of_eq_some hstep) hx with
  | stayed hr => exact absurd ⟨x, hr, hpc⟩ hnot
  | notLost hne => exact absurd (.inr hpc) (hne hash)
  | lost _ _ _ _ _ hpc' =>
    rw [hpc'] at hpc
    cases hpc
  | @unwinds r lost hr hpc' hlost =>
    rcases hlost with hlost | ⟨rfl, hlost⟩
    · rw [hlost] at hpc
      cases hpc
    · obtain rfl : lost = some hash := Pc.done.inj (hlost.symm.trans hpc)
      obtain ⟨es₃, es₄, s₃, rfl, hrun₃, henters⟩ := backoff_of_unwinding hrun₁ ⟨r, hr, hpc'⟩
      exact ⟨es₃, i, es₄ ++ .finish i :: es₂, s₃, by simp, hrun₃, henters, by simp⟩

theorem ReturnsFromBackoff.mono {M : System State Event} {pre es : List Event}
    (h : ReturnsFromBackoff M pre) (hpre : pre <+: es) : ReturnsFromBackoff M es := by
  obtain ⟨es₁, i, es₂, s, rfl, hrun, henters, hfinish⟩ := h
  obtain ⟨es₃, rfl⟩ := hpre
  exact ⟨es₁, i, es₂ ++ es₃, s, by simp, hrun, henters, List.mem_append_left _ hfinish⟩

/-- A token is lost in a run exactly if a request returns from a backoff in it. -/
theorem noneLost_iff {es : List Event}
    (h : (system hashRatePolicy formatDuration).run es = some s) :
    (system hashRatePolicy formatDuration).States NoneLost ⟨∅, []⟩ es ↔
      ¬ReturnsFromBackoff (system hashRatePolicy formatDuration) es := by
  rw [System.states_iff]
  constructor
  · intro hnone hreturns
    obtain ⟨pre, s', i, hash, hpre, hrun, r, hr, hdone⟩ := done_of_returnsFromBackoff h hreturns
    exact hnone pre hpre s' hrun r (List.mem_of_getElem? hr) hash hdone
  · intro hreturns pre hpre s' hrun r hr hash hdone
    obtain ⟨i, hi⟩ := List.getElem?_of_mem hr
    exact hreturns ((returnsFromBackoff_of_done hrun ⟨r, hi, hdone⟩).mono hpre)

end

/-- In every state of a run the tokens are those of the requests in flight if and
only if no request returns in it after it has gone on to the exponential backoff of a
control with a `MaxInFlight`. -/
theorem tokens_conserved_iff (hashRatePolicy : String → RatePolicy → String)
    (formatDuration : Nat → String) {es : List Event} {s : State}
    (h : (system hashRatePolicy formatDuration).run es = some s) :
    (system hashRatePolicy formatDuration).States Conserved ⟨∅, []⟩ es ↔
      ¬ReturnsFromBackoff (system hashRatePolicy formatDuration) es := by
  rw [← noneLost_iff h]
  exact (system hashRatePolicy formatDuration).states_congr
    (fun _ hs hstep => hs.step (step_of_eq_some hstep)) (fun hs => hs.conserved_iff)
    (fun _ _ => trivial) inv_start h

/-- A policy for all resources with one token, and with or without a backoff. -/
def samplePolicy (exponentialBackoff : Option ExponentialBackoff) : TrafficPolicy where
  name := "limit"
  circuitBreaking := some ⟨none⟩
  rateLimiting := some
    [⟨⟨[⟨["*"], ["*"], ["*"], true, ["*"]⟩], []⟩, some 1, none, exponentialBackoff⟩]

/-- A request for a configmap, up to the place behind its token. -/
def sampleRequest (i : Nat) (exponentialBackoff : Option ExponentialBackoff) : List Event :=
  [.start (.ok [samplePolicy exponentialBackoff])
      (.ok ⟨true, "", "get", "", "ns-a", "configmaps", ""⟩),
    .visit i, .visit i, .acquire i]

def sampleSystem : System State Event := system (fun name _ => name) toString

/-- No request enters a backoff in the step. -/
def staysOut (s : State) : Event → Bool
  | .backoff i => !entersBackoff s i
  | _ => true

theorem not_returnsFromBackoff_of_test {M : System State Event} {es : List Event}
    (h : M.checkSteps staysOut M.init es = true) : ¬ReturnsFromBackoff M es := by
  rintro ⟨es₁, i, es₂, s, rfl, hrun, henters, -⟩
  have hsteps : M.Steps (fun s e => staysOut s e = true) M.init (es₁ ++ .backoff i :: es₂) :=
    M.steps_of_checkSteps staysOut id h
  have hstays : staysOut s (.backoff i) = true := System.Steps.at M hsteps hrun
  simp [staysOut, henters] at hstays

/-- The second request is turned away while the first one is in the inner
handler; the first one releases its token. -/
def sampleInFlight : List Event :=
  List.flatten [sampleRequest 0 none, [.reserve 0 0, .backoff 0, .visit 0], sampleRequest 1 none,
    [.finish 1, .served 0, .release 0, .finish 0]]

theorem tokens_conserved_sampleInFlight :
    ∃ s, sampleSystem.run sampleInFlight = some s ∧
      sampleSystem.States Conserved ⟨∅, []⟩ sampleInFlight := by
  have hrun : (sampleSystem.run sampleInFlight).isSome := by decide +kernel
  obtain ⟨s, hs⟩ := Option.isSome_iff_exists.mp hrun
  exact ⟨s, hs, (tokens_conserved_iff _ _ hs).mpr
    (not_returnsFromBackoff_of_test (by decide +kernel))⟩

/-- A request that takes the token of a control with an exponential backoff: it has
returned, and its token is still there. -/
theorem not_tokens_conserved_sampleBackoff :
    ∃ s, sampleSystem.run (sampleRequest 0 (some ⟨1, 1, 1⟩) ++ [.reserve 0 0, .backoff 0, .finish 0]) =
        some s ∧ s.requests.all (!·.unfinished) = true ∧ tokens s.controls "limit" = 1 ∧
      ¬Conserved s := by
  have hrun : (sampleSystem.run (sampleRequest 0 (some ⟨1, 1, 1⟩) ++
      [.reserve 0 0, .backoff 0, .finish 0])).map
        (fun s => (s.requests.all (!·.unfinished), tokens s.controls "limit")) = some (true, 1) := by
    decide +kernel
  obtain ⟨s, hs, heq⟩ := Option.map_eq_some_iff.mp hrun
  obtain ⟨hdone, htokens⟩ := Prod.mk.inj heq
  refine ⟨s, hs, hdone, htokens, fun hcons => ?_⟩
  have hreturned : ∀ r ∈ s.requests, r.unfinished = false := by simpa using hdone
  unfold tokens at htokens
  cases hc : s.controls["limit"]? with
  | none => simp [hc] at htokens
  | some c =>
    have hzero := hcons.released hreturned "limit" c hc
    simp [hc, hzero] at htokens

end CtrlMesh.Traffic
