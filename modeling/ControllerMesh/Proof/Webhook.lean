import ControllerMesh.Impl.Webhook
import ControllerMesh.Proof.Owners

/-!
# Admission requests go to the owner

The specs of one Reconcile agree on the subset that owns a namespace, and the
endpoints in them are the ready pods with their subsets. So a pod answers an
admission request itself exactly if its spec matches the namespace, and where it
does not, it sends the request to a pod that does (`Routed`, `routed`). A cached
transport dials the host it is cached for (`TransportCache.Sound`).
-/

namespace CtrlMesh.Webhook

open Framework

/-! ## Transports -/

namespace TransportCache

/-- Every transport dials the host it is cached for. -/
def Sound (tc : TransportCache) : Prop :=
  ∀ (host : String) (rt : RoundTripper), tc.cache[host]? = some rt →
    rt.redirectHost = tc.redirectHost host

/-- The transports after a sequence of calls. -/
def after (tc : TransportCache) (calls : List (List String)) : TransportCache :=
  calls.foldl (fun tc hosts => (tc.getOneTripper hosts).2) tc

variable {tc : TransportCache}

theorem Sound.getOneTripper (h : tc.Sound) (hosts : List String) :
    (tc.getOneTripper hosts).2.Sound ∧ (tc.getOneTripper hosts).2.webhookPort = tc.webhookPort := by
  unfold TransportCache.getOneTripper
  split
  · exact ⟨h, rfl⟩
  · exact ⟨h, rfl⟩
  · rename_i host _ _
    refine ⟨fun host' rt hrt => ?_, rfl⟩
    rw [StringMap.getElem?_insert] at hrt
    split at hrt
    · rename_i heq
      cases hrt
      rw [← heq]
      rfl
    · exact h host' rt hrt

theorem Sound.after (h : tc.Sound) (calls : List (List String)) :
    (tc.after calls).Sound ∧ (tc.after calls).webhookPort = tc.webhookPort := by
  induction calls generalizing tc with
  | nil => exact ⟨h, rfl⟩
  | cons hosts calls ih =>
    have hstep := h.getOneTripper hosts
    have hrest := ih hstep.1
    exact ⟨hrest.1, hrest.2.trans hstep.2⟩

theorem sound_start (webhookPort : Nat) : (start webhookPort).Sound := by
  have hempty : (⟨∅, webhookPort⟩ : TransportCache).Sound := fun _ _ h => by simp at h
  exact (hempty.getOneTripper ["127.0.0.1"]).1

/-- The transport for a request goes to one of its hosts. -/
theorem Sound.dials (h : tc.Sound) {hosts : List String} (hne : hosts ≠ []) :
    ∃ rt, (tc.getOneTripper hosts).1 = some rt ∧
      ∃ host ∈ hosts, rt.redirectHost = tc.redirectHost host := by
  unfold TransportCache.getOneTripper
  split
  · rename_i rt hfind
    obtain ⟨host, hmem, hcached⟩ := List.exists_of_findSome?_eq_some hfind
    exact ⟨rt, rfl, host, hmem, h host rt hcached⟩
  · exact absurd rfl hne
  · rename_i host _ _
    exact ⟨_, rfl, host, List.mem_cons_self, rfl⟩

end TransportCache

/-! ## The specs of one Reconcile -/

/-- The owner of a namespace is a subset of the application or all of them. -/
theorem mem_subsetNames_of_determineNamespaceSubset {lib : Lib} {vApp : VirtualApp}
    {namespaces : List Namespace} {unmarshal : String → LabelSelector} {subset ns owner : String}
    {gr : GroupResource}
    (h : (convertProtoRouteToInternal unmarshal { generateProtoRoute lib vApp namespaces with
      subset := subset }).determineNamespaceSubset ns gr = some owner) :
    owner = AllSubsetPublic ∨ owner ∈ vApp.subsetNames := by
  by_cases hns : ns = ""
  · rw [InternalRoute.determineNamespaceSubset, if_pos hns] at h
    cases h
    exact .inr List.mem_cons_self
  · have hdet := InternalRoute.determined (convertProtoRouteToInternal unmarshal
      { generateProtoRoute lib vApp namespaces with subset := subset }) gr hns
    rw [h] at hdet
    cases hdet with
    | shared => exact .inl rfl
    | found _ l hl =>
      have hmem := List.mem_of_find?_eq_some hl
      rw [convertProtoRouteToInternal, generateProtoRoute] at hmem
      simp only [List.map_append, List.map_map, List.map_cons, List.map_nil, List.mem_append,
        List.mem_map, List.mem_singleton] at hmem
      rcases hmem with ⟨s, hs, rfl⟩ | rfl
      · exact .inr (List.mem_cons_of_mem _ (List.mem_map_of_mem hs))
      · exact .inr List.mem_cons_self

theorem mem_generateProtoEndpoints {vApp : VirtualApp} {pods : List Pod} {e : EndpointV1} :
    e ∈ generateProtoEndpoints vApp pods ↔
      ∃ pod ∈ pods, pod.ready = true ∧ e = ⟨pod.name, determinePodSubset vApp pod, pod.podIP⟩ := by
  rw [generateProtoEndpoints, List.mem_insertionSort, List.mem_map]
  constructor
  · rintro ⟨pod, hpod, rfl⟩
    rw [List.mem_filter] at hpod
    exact ⟨pod, hpod.1, hpod.2, rfl⟩
  · rintro ⟨pod, hpod, hready, rfl⟩
    exact ⟨pod, List.mem_filter.mpr ⟨hpod, hready⟩, rfl⟩

theorem route_of_hosts {spec : InternalSpec} {req : AdmissionRequest} {hosts : List String}
    (h : spec.getMatchedSubsetEndpoint req.namespaceName req.gr = (false, false, hosts)) :
    route spec req =
      if hosts = [] then .error 404 ("find no endpoints for request " ++ req.json)
      else .redirect hosts := by
  rw [route, h]
  cases hosts with
  | nil => rfl
  | cons host hosts => rfl

/-- What one Reconcile works with. -/
structure Reconciled where
  lib : Lib
  unmarshal : String → LabelSelector
  hash : String
  vApp : VirtualApp
  namespaces : List Namespace
  pods : List Pod

namespace Reconciled

variable (r : Reconciled)

def activePods : List Pod := r.pods.filter (·.isActive)

/-- The spec that Reconcile builds for a subset. -/
def specOf (subset : String) : InternalSpec :=
  convertProtoSpecToInternal r.unmarshal (newSpec r.vApp r.hash
    (generateProtoRoute r.lib r.vApp r.namespaces) (generateProtoEndpoints r.vApp r.activePods)
      subset)

/-- The spec that Reconcile builds for a pod. -/
def specFor (pod : Pod) : InternalSpec := r.specOf (determinePodSubset r.vApp pod)

/-- The pod is an endpoint whose spec matches the namespace of a request. -/
def Serves (req : AdmissionRequest) (q : Pod) : Prop :=
  q ∈ r.activePods ∧ q.ready = true ∧
    (r.specFor q).isNamespaceMatch req.namespaceName req.gr = true

/-- What the pod `p` does with a request. -/
structure Routed (p : Pod) (req : AdmissionRequest) : Prop where
  /-- It answers the request itself exactly if its spec matches. -/
  accept : route (r.specFor p) req = .accept ↔
    (r.specFor p).isNamespaceMatch req.namespaceName req.gr = true
  /-- It ignores the request exactly if the spec of no subset matches, be there
  pods of it or not. -/
  ignore : route (r.specFor p) req = .ignore ↔
    ∀ s ∈ r.vApp.subsetNames, (r.specOf s).isNamespaceMatch req.namespaceName req.gr = false
  /-- Else it sends the request to the endpoints whose specs match, or fails it
  if there are none. -/
  other : route (r.specFor p) req ≠ .accept → route (r.specFor p) req ≠ .ignore →
    ∃ hosts, (∀ host, host ∈ hosts ↔ ∃ q, r.Serves req q ∧ q.podIP = host) ∧
      route (r.specFor p) req =
        if hosts = [] then .error 404 ("find no endpoints for request " ++ req.json)
        else .redirect hosts

/-- The owner of a namespace, on which all specs agree. -/
def owner (ns : String) (gr : GroupResource) : Option String :=
  (convertProtoRouteToInternal r.unmarshal { generateProtoRoute r.lib r.vApp r.namespaces with
    subset := "" }).determineNamespaceSubset ns gr

theorem isNamespaceMatch_specOf (subset ns : String) (gr : GroupResource) :
    (r.specOf subset).isNamespaceMatch ns gr =
      (r.owner ns gr).any fun owner => owner == AllSubsetPublic || owner == subset :=
  isNamespaceMatch_newSpec r.lib r.vApp r.namespaces r.unmarshal r.hash _ ns subset gr

theorem getMatchedSubsetEndpoint_specOf_none {subset ns : String} {gr : GroupResource}
    (h : r.owner ns gr = none) :
    (r.specOf subset).getMatchedSubsetEndpoint ns gr = (true, false, []) := by
  have hdet : (r.specOf subset).routeInternal.determineNamespaceSubset ns gr = none := h
  rw [InternalSpec.getMatchedSubsetEndpoint, hdet]

theorem getMatchedSubsetEndpoint_specOf_some {subset ns owner : String} {gr : GroupResource}
    (h : r.owner ns gr = some owner) :
    (r.specOf subset).getMatchedSubsetEndpoint ns gr =
      if owner == AllSubsetPublic || owner == subset then (false, true, [])
      else (false, false,
        ((generateProtoEndpoints r.vApp r.activePods).filter (·.subset == owner)).map (·.ip)) := by
  have hdet : (r.specOf subset).routeInternal.determineNamespaceSubset ns gr = some owner := h
  rw [InternalSpec.getMatchedSubsetEndpoint, hdet]
  rfl

/-- The endpoints of the owner are the endpoints whose specs match. -/
theorem mem_hosts_iff {owner : String} {req : AdmissionRequest}
    (h : r.owner req.namespaceName req.gr = some owner) (hpublic : owner ≠ AllSubsetPublic)
    (host : String) :
    host ∈ ((generateProtoEndpoints r.vApp r.activePods).filter (·.subset == owner)).map (·.ip) ↔
      ∃ q, r.Serves req q ∧ q.podIP = host := by
  have hmatch (q : Pod) : (r.specFor q).isNamespaceMatch req.namespaceName req.gr = true ↔
      owner = determinePodSubset r.vApp q := by
    rw [specFor, isNamespaceMatch_specOf, h]
    simp [hpublic]
  simp only [List.mem_map, List.mem_filter, mem_generateProtoEndpoints, beq_iff_eq, Serves, hmatch]
  constructor
  · rintro ⟨e, ⟨⟨q, hq, hready, rfl⟩, howner⟩, hip⟩
    exact ⟨q, ⟨hq, hready, howner.symm⟩, hip⟩
  · rintro ⟨q, ⟨hq, hready, howner⟩, hip⟩
    exact ⟨_, ⟨⟨q, hq, hready, rfl⟩, howner.symm⟩, hip⟩

theorem routed (p : Pod) (req : AdmissionRequest) : r.Routed p req := by
  cases howner : r.owner req.namespaceName req.gr with
  | none =>
    have hroute : route (r.specFor p) req = .ignore := by
      rw [route, specFor, r.getMatchedSubsetEndpoint_specOf_none howner]
    have hmatch (s : String) : (r.specOf s).isNamespaceMatch req.namespaceName req.gr = false := by
      rw [isNamespaceMatch_specOf, howner]
      rfl
    refine ⟨?_, iff_of_true hroute fun s _ => hmatch s, fun _ hne => absurd hroute hne⟩
    rw [hroute, specFor, hmatch]
    simp
  | some owner =>
    have hmatch (s : String) : (r.specOf s).isNamespaceMatch req.namespaceName req.gr =
        (owner == AllSubsetPublic || owner == s) := by
      rw [isNamespaceMatch_specOf, howner]
      rfl
    have hsomeone : ¬∀ s ∈ r.vApp.subsetNames,
        (r.specOf s).isNamespaceMatch req.namespaceName req.gr = false := by
      intro hno
      rcases mem_subsetNames_of_determineNamespaceSubset howner with hpublic | hmem
      · have := hno "" List.mem_cons_self
        simp [hmatch, hpublic] at this
      · have := hno owner hmem
        simp [hmatch] at this
    have hspec : (r.specFor p).isNamespaceMatch req.namespaceName req.gr =
      (owner == AllSubsetPublic || owner == determinePodSubset r.vApp p) := hmatch _
    have hendpoint : (r.specFor p).getMatchedSubsetEndpoint req.namespaceName req.gr = _ :=
      r.getMatchedSubsetEndpoint_specOf_some howner
    cases hself : (owner == AllSubsetPublic || owner == determinePodSubset r.vApp p) with
    | true =>
      rw [hself, if_pos rfl] at hendpoint
      have hroute : route (r.specFor p) req = .accept := by rw [route, hendpoint]
      refine ⟨iff_of_true hroute (hspec.trans hself), iff_of_false ?_ hsomeone,
        fun hne => absurd hroute hne⟩
      rw [hroute]
      simp
    | false =>
      have hpublic : owner ≠ AllSubsetPublic := by
        rintro rfl
        simp at hself
      rw [hself, if_neg Bool.false_ne_true] at hendpoint
      have hhosts := r.mem_hosts_iff howner hpublic
      have hroute := route_of_hosts hendpoint
      generalize List.map _ (List.filter _ (generateProtoEndpoints r.vApp r.activePods)) = hosts
        at hhosts hroute
      refine ⟨iff_of_false ?_ ?_, iff_of_false ?_ hsomeone, fun _ _ => ⟨hosts, hhosts, hroute⟩⟩
      · rw [hroute]
        split <;> simp
      · rw [hspec, hself]
        simp
      · rw [hroute]
        split <;> simp

/-- A request goes to the subset that owns its namespace: the pod that gets it
answers it if its own spec matches, and else sends it to the endpoints whose
specs match (`Routed`). Where the IPs of the pods are distinct, the pod behind
such an endpoint answers the request itself, and the transport to it dials one of
the endpoints whatever was requested before. -/
theorem webhook_agrees (hips : (r.activePods.map (·.podIP)).Nodup) (p : Pod)
    (req : AdmissionRequest) :
    r.Routed p req ∧ ∀ hosts, route (r.specFor p) req = .redirect hosts →
      (∀ q ∈ r.activePods, q.podIP ∈ hosts → route (r.specFor q) req = .accept) ∧
      ∀ (webhookPort : Nat) (calls : List (List String)),
        ∃ rt, (((TransportCache.start webhookPort).after calls).getOneTripper hosts).1 = some rt ∧
          ∃ host ∈ hosts, rt.redirectHost = host ++ ":" ++ toString webhookPort := by
  refine ⟨r.routed p req, fun hosts hroute => ?_⟩
  have hsend := (r.routed p req).other (by rw [hroute]; simp) (by rw [hroute]; simp)
  obtain ⟨hosts', hhosts, hroute'⟩ := hsend
  have hne : hosts' ≠ [] := by
    rintro rfl
    rw [hroute, if_pos rfl] at hroute'
    cases hroute'
  obtain rfl : hosts = hosts' := by
    rw [hroute, if_neg hne] at hroute'
    exact Answer.redirect.inj hroute'
  refine ⟨fun q hq hip => ?_, fun webhookPort calls => ?_⟩
  · obtain ⟨q', ⟨hq', -, hmatch⟩, heq⟩ := (hhosts q.podIP).mp hip
    -- the endpoint is the pod itself, since no other pod has its IP
    rw [List.inj_on_of_nodup_map hips hq' hq heq] at hmatch
    exact (r.routed q req).accept.mpr hmatch
  · have hsound := (TransportCache.sound_start webhookPort).after calls
    obtain ⟨rt, hrt, host, hmem, hdial⟩ := hsound.1.dials hne
    refine ⟨rt, hrt, host, hmem, ?_⟩
    rw [hdial, TransportCache.redirectHost, hsound.2]
    rfl

/-- A pod of the canary and one of the default subset. -/
def samplePods : List Pod :=
  [⟨"u1", "p1", {("version", "canary")}, false, .running, "10.0.0.1", true, []⟩,
    ⟨"u2", "p2", ∅, false, .running, "10.0.0.2", true, []⟩]

/-- With the namespaces of a team for the canary. -/
def sampleReconciled (pods : List Pod) : Reconciled :=
  ⟨sampleLib, LabelSelector.ofJSON, "h", sampleVApp "canary", sampleNamespaces, pods⟩

theorem webhook_agrees_sampleReconciled :
    ∃ hosts, route ((sampleReconciled samplePods).specOf "") ⟨"ns-a", "", "configmaps", ""⟩ =
        .redirect hosts ∧ hosts = ["10.0.0.1"] ∧
      ∀ q ∈ (sampleReconciled samplePods).activePods, q.podIP ∈ hosts →
        route ((sampleReconciled samplePods).specFor q) ⟨"ns-a", "", "configmaps", ""⟩ = .accept := by
  have hroute : route ((sampleReconciled samplePods).specOf "") ⟨"ns-a", "", "configmaps", ""⟩ =
      .redirect ["10.0.0.1"] := by decide +kernel
  exact ⟨_, hroute, rfl, (((sampleReconciled samplePods).webhook_agrees (by decide +kernel)
    ⟨"u2", "p2", ∅, false, .running, "10.0.0.2", true, []⟩ ⟨"ns-a", "", "configmaps", ""⟩).2 _
      hroute).1⟩

/-- The canary owns the namespace but has no pods: no pod's spec matches, and yet
the pod of the default subset fails the request instead of ignoring it. -/
theorem route_ne_ignore_sampleReconciled :
    (∀ q ∈ (sampleReconciled (samplePods.drop 1)).pods,
      ((sampleReconciled (samplePods.drop 1)).specFor q).isNamespaceMatch "ns-a" ⟨"", "configmaps"⟩ =
        false) ∧
    ∀ p ∈ (sampleReconciled (samplePods.drop 1)).pods,
      route ((sampleReconciled (samplePods.drop 1)).specFor p) ⟨"ns-a", "", "configmaps", "\x7b\x7d"⟩ =
        .error 404 "find no endpoints for request \x7b\x7d" := by
  decide +kernel

end Reconciled

end CtrlMesh.Webhook
