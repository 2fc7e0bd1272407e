import ControllerMesh.Proof.RequestsStore

/-!
# When a spec can be loaded

`checkLoadable` accepts a spec exactly when there is none in force, or the
names agree and either the hashes do or the spec decides everything in the
history as it was decided and has the object selectors in it
(`checkLoadable_eq_none`). The three loops of `rangeRequests` each stop at
their first error and overwrite the error of the one before; none is lost
(`rangeRequests_eq_none`).
-/

namespace CtrlMesh

open Framework

namespace RequestsPack

theorem rangeLoop_eq_none {fn : ResourceRequest → Option String} :
    ∀ {reqs : List ResourceRequest} {err : Option String},
      rangeLoop fn reqs err = none ↔ err = none ∧ ∀ req ∈ reqs, fn req = none
  | [], err => by simp [rangeLoop]
  | req :: reqs, err => by
    cases h : fn req with
    | none => simp [rangeLoop, h, rangeLoop_eq_none]
    | some e => simp [rangeLoop, h]

/-- No record has an error exactly when the loops report none. -/
theorem rangeRequests_eq_none {order : RangeOrder} {pack : RequestsPack}
    {fn : ResourceRequest → Option String} :
    pack.rangeRequests order fn = none ↔
      (∀ userAgent ∈ pack.userAgentPassed,
        fn { gr := ⟨"", ""⟩, userAgentPassed := some userAgent } = none) ∧
      (∀ userAgent ∈ pack.userAgentDenied,
        fn { gr := ⟨"", ""⟩, userAgentDenied := some userAgent } = none) ∧
      ∀ (key : String) (req : ResourceRequest),
        pack.requestsByGR[key]? = some req → fn req = none := by
  simp only [rangeRequests, rangeLoop_eq_none, true_and, List.mem_map, forall_exists_index, and_imp,
    forall_apply_eq_imp_iff₂, RangeOrder.mem_members, RangeOrder.mem_values, and_assoc]
  refine and_congr_right fun _ => and_congr_right fun _ => ?_
  exact ⟨fun h key req => h req key, fun h req key => h key req⟩

end RequestsPack

/-! ## One record -/

theorem agrees_answers_iff {spec : InternalSpec} {req : ResourceRequest} :
    Decisions.Agrees spec.policy req.answers ↔
      ((∀ userAgent, req.userAgentPassed = some userAgent → spec.isUserAgentMatch userAgent = true) ∧
        ∀ userAgent, req.userAgentDenied = some userAgent →
          spec.isUserAgentMatch userAgent = false) ∧
      (∀ ns ∈ req.namespacePassed, spec.isNamespaceMatch ns req.gr = true) ∧
        ∀ ns ∈ req.namespaceDenied, spec.isNamespaceMatch ns req.gr = false := by
  constructor
  · intro h
    exact ⟨⟨fun _ hua => h _ (.userAgentPassed hua), fun _ hua => h _ (.userAgentDenied hua)⟩,
      fun _ hns => h _ (.namespacePassed hns), fun _ hns => h _ (.namespaceDenied hns)⟩
  · rintro ⟨⟨hp, hd⟩, hnp, hnd⟩ qa h
    cases h with
    | namespacePassed h => exact hnp _ h
    | namespaceDenied h => exact hnd _ h
    | userAgentPassed h => exact hp _ h
    | userAgentDenied h => exact hd _ h

theorem checkUserAgents_eq_none {spec : InternalSpec} {req : ResourceRequest} :
    checkUserAgents spec req = none ↔
      (∀ userAgent, req.userAgentPassed = some userAgent → spec.isUserAgentMatch userAgent = true) ∧
        ∀ userAgent, req.userAgentDenied = some userAgent →
          spec.isUserAgentMatch userAgent = false := by
  unfold checkUserAgents
  cases hp : req.userAgentPassed with
  | none =>
    cases hd : req.userAgentDenied with
    | none => simp
    | some d => cases h : spec.isUserAgentMatch d <;> simp [Option.filter, h]
  | some a =>
    cases ha : spec.isUserAgentMatch a with
    | false => simp [Option.filter, ha]
    | true =>
      cases hd : req.userAgentDenied with
      | none => simp [Option.filter, ha]
      | some d => cases h : spec.isUserAgentMatch d <;> simp [Option.filter, ha, h]

theorem checkNamespaces_eq_none (order : RangeOrder) {spec : InternalSpec} {req : ResourceRequest} :
    checkNamespaces order spec req = none ↔
      (∀ ns ∈ req.namespacePassed, spec.isNamespaceMatch ns req.gr = true) ∧
        ∀ ns ∈ req.namespaceDenied, spec.isNamespaceMatch ns req.gr = false := by
  have hp : (order.members req.namespacePassed).find? (!spec.isNamespaceMatch · req.gr) = none ↔
      ∀ ns ∈ req.namespacePassed, spec.isNamespaceMatch ns req.gr = true := by
    simp [List.find?_eq_none]
  have hd : (order.members req.namespaceDenied).find? (spec.isNamespaceMatch · req.gr) = none ↔
      ∀ ns ∈ req.namespaceDenied, spec.isNamespaceMatch ns req.gr = false := by
    simp [List.find?_eq_none]
  rw [← hp, ← hd]
  unfold checkNamespaces
  split <;> simp_all

theorem checkObjectSelector_eq_none {spec : InternalSpec} {req : ResourceRequest} :
    checkObjectSelector spec req = none ↔ req.objectSelector = spec.getObjectSelector req.gr := by
  simp only [checkObjectSelector]
  split <;> simp_all [eq_comm]

/-- A record of a group-resource passes the check if its answers and its object
selector are those of the spec. -/
theorem checkRequest_eq_none {order : RangeOrder} {spec : InternalSpec} {req : ResourceRequest}
    (hgr : req.gr.isEmpty = false) :
    checkRequest order spec req = none ↔
      Decisions.Agrees spec.policy req.answers ∧
        req.objectSelector = spec.getObjectSelector req.gr := by
  rw [agrees_answers_iff, ← checkUserAgents_eq_none, ← checkNamespaces_eq_none order,
    ← checkObjectSelector_eq_none]
  unfold checkRequest
  rw [hgr]
  cases checkUserAgents spec req with
  | some e => simp
  | none => cases checkObjectSelector spec req <;> simp

/-! ## The whole history -/

theorem RequestsPack.agrees_answers_iff {spec : InternalSpec} {pack : RequestsPack} :
    Decisions.Agrees spec.policy pack.answers ↔
      (∀ userAgent ∈ pack.userAgentPassed, spec.isUserAgentMatch userAgent = true) ∧
      (∀ userAgent ∈ pack.userAgentDenied, spec.isUserAgentMatch userAgent = false) ∧
      ∀ (key : String) (req : ResourceRequest),
        pack.requestsByGR[key]? = some req → Decisions.Agrees spec.policy req.answers := by
  constructor
  · intro h
    exact ⟨fun _ hua => h _ (.userAgentPassed hua), fun _ hua => h _ (.userAgentDenied hua),
      fun _ _ hr _ ha => h _ (.request hr ha)⟩
  · rintro ⟨hp, hd, hr⟩ qa h
    cases h with
    | request h ha => exact hr _ _ h _ ha
    | userAgentPassed h => exact hp _ h
    | userAgentDenied h => exact hd _ h

theorem GroupResource.WellNamed.isEmpty {gr : GroupResource} (h : gr.WellNamed) :
    gr.isEmpty = false := by
  simp [GroupResource.isEmpty, h.1]

/-- The loops over the history find no error exactly when the spec answers as
the history does and has its object selectors. -/
theorem rangeRequests_checkRequest (order : RangeOrder) {pack : RequestsPack}
    (hk : pack.WellKeyed) {spec : InternalSpec} :
    pack.rangeRequests order (checkRequest order spec) = none ↔
      Decisions.Agrees spec.policy pack.answers ∧ pack.SelectorsOf spec := by
  have hp (userAgent : String) :
      checkRequest order spec { gr := ⟨"", ""⟩, userAgentPassed := some userAgent } = none ↔
        spec.isUserAgentMatch userAgent = true := by
    cases h : spec.isUserAgentMatch userAgent <;>
      simp [checkRequest, checkUserAgents, Option.filter, GroupResource.isEmpty, h]
  have hd (userAgent : String) :
      checkRequest order spec { gr := ⟨"", ""⟩, userAgentDenied := some userAgent } = none ↔
        spec.isUserAgentMatch userAgent = false := by
    cases h : spec.isUserAgentMatch userAgent <;>
      simp [checkRequest, checkUserAgents, Option.filter, GroupResource.isEmpty, h]
  have hr (key : String) (req : ResourceRequest) :
      (pack.requestsByGR[key]? = some req → checkRequest order spec req = none) ↔
        (pack.requestsByGR[key]? = some req → Decisions.Agrees spec.policy req.answers) ∧
          (pack.requestsByGR[key]? = some req →
            req.objectSelector = spec.getObjectSelector req.gr) := by
    rw [← imp_and]
    exact imp_congr_right fun h => checkRequest_eq_none (hk h).2.isEmpty
  simp only [RequestsPack.rangeRequests_eq_none, RequestsPack.agrees_answers_iff,
    RequestsPack.SelectorsOf, hp, hd, hr, forall_and, and_assoc]

/-- `checkLoadable` accepts a spec. -/
theorem checkLoadable_eq_none {order : RangeOrder} {pack : RequestsPack} (hk : pack.WellKeyed)
    {current expected : InternalSpec} :
    checkLoadable order pack (some current) expected = none ↔
      current.proxySpecV1.specMeta.vAppName = expected.proxySpecV1.specMeta.vAppName ∧
      current.proxySpecV1.route.subset = expected.proxySpecV1.route.subset ∧
      (current.proxySpecV1.specMeta.hash = expected.proxySpecV1.specMeta.hash ∨
        Decisions.Agrees expected.policy pack.answers ∧ pack.SelectorsOf expected) := by
  rw [← rangeRequests_checkRequest order hk]
  simp only [checkLoadable]
  split_ifs <;> simp_all

/-! ## Loading -/

namespace SpecManager

/-- What the second step of `UpdateSpec` does: it rejects the expected spec, or
loads it. -/
theorem loadExpectedSpec_cases (order : RangeOrder) {sm : SpecManager} {expected : InternalSpec}
    (h : sm.expectedSpec = some expected) :
    (∃ err, checkLoadable order sm.requestsStore sm.currentSpec expected = some err ∧
      sm.loadExpectedSpec order = { sm with unloadReason := err }) ∨
    (checkLoadable order sm.requestsStore sm.currentSpec expected = none ∧
      sm.loadExpectedSpec order = { sm with
        currentSpec := some expected
        storage := sm.storage.writeCurrentSpec expected.proxySpecV1 }) := by
  cases hc : checkLoadable order sm.requestsStore sm.currentSpec expected with
  | some err => exact .inl ⟨err, rfl, by simp only [loadExpectedSpec, h, hc]⟩
  | none => exact .inr ⟨rfl, by simp only [loadExpectedSpec, h, hc]⟩

@[simp] theorem requestsStore_loadExpectedSpec (order : RangeOrder) (sm : SpecManager) :
    (sm.loadExpectedSpec order).requestsStore = sm.requestsStore := by
  unfold loadExpectedSpec
  split
  · rfl
  · split <;> rfl

@[simp] theorem expectedSpec_loadExpectedSpec (order : RangeOrder) (sm : SpecManager) :
    (sm.loadExpectedSpec order).expectedSpec = sm.expectedSpec := by
  unfold loadExpectedSpec
  split
  · rfl
  · split <;> rfl

end SpecManager

end CtrlMesh
