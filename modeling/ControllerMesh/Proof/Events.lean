import ControllerMesh.Framework.Replace
import ControllerMesh.Impl.EventHandlers
import ControllerMesh.Proof.Expectations
import ControllerMesh.Spec.Validity

/-!
# Updates that change the spec

What `Reconcile` hashes depends on the pods and on the namespaces; which of
their updates lead to a Reconcile is decided by the event handlers, which compare
the fields that they take the spec to depend on.

* `endpoints_set_iff`, `generateProtoRoute_set_iff`: what of an updated object the
  endpoints and the route depend on;
* `PodEventHandler.mem_update_iff`, `NamespaceEventHandler.mem_update_iff`: which
  updates enqueue a VirtualApp;
* `Change.noticed_iff`: the updates that change the hash are all noticed, but for
  those of the IP of an endpoint and those of a deletion timestamp, which the
  handlers do not compare.
-/

namespace CtrlMesh

open Framework

/-! ## Pods -/

/-- The endpoint of a pod, if it has one. -/
def Pod.endpoint (vApp : VirtualApp) (pod : Pod) : Option EndpointV1 :=
  if pod.isActive && pod.ready then
    some { name := pod.name, ip := pod.podIP, subset := determinePodSubset vApp pod }
  else none

/-- The endpoints that `Reconcile` hashes. -/
def endpoints (vApp : VirtualApp) (pods : List Pod) : List EndpointV1 :=
  generateProtoEndpoints vApp ((getPodsForVApp pods).filter (·.isActive))

theorem endpoints_eq (vApp : VirtualApp) (pods : List Pod) :
    endpoints vApp pods =
      ((getPodsForVApp pods).filterMap (·.endpoint vApp)).insertionSort
        (fun a b => a.name ≤ b.name) := by
  rw [endpoints, generateProtoEndpoints, ← List.filterMap_eq_map, List.filterMap_filter,
    List.filterMap_filter]
  congr 2
  funext pod
  by_cases hactive : pod.isActive <;> by_cases hready : pod.ready <;>
    simp [Pod.endpoint, hactive, hready]

/-- The endpoints, from the names and the endpoints of the pods. -/
theorem endpoints_eq_of_map (vApp : VirtualApp) (pods : List Pod) :
    endpoints vApp pods =
      (((pods.map fun pod => (pod.name, pod.endpoint vApp)).insertionSort
        (fun a b => a.1 ≤ b.1)).filterMap Prod.snd).insertionSort (fun a b => a.name ≤ b.name) := by
  rw [endpoints_eq, ← List.map_insertionSort (fun a b : Pod => a.name ≤ b.name), List.filterMap_map]
  · rfl
  · exact fun _ _ _ _ => Iff.rfl

theorem endpoints_perm (vApp : VirtualApp) (pods : List Pod) :
    (endpoints vApp pods).Perm (pods.filterMap (·.endpoint vApp)) := by
  rw [endpoints_eq]
  exact (List.perm_insertionSort _ _).trans ((List.perm_insertionSort _ _).filterMap _)

/-- The update of a pod changes the endpoints if it changes that of the pod. -/
theorem endpoints_set_iff (vApp : VirtualApp) {pods : List Pod} {i : Nat} {old new : Pod}
    (hold : pods[i]? = some old) (hname : new.name = old.name) :
    endpoints vApp (pods.set i new) = endpoints vApp pods ↔
      new.endpoint vApp = old.endpoint vApp := by
  constructor
  · intro h
    have hperm := (endpoints_perm vApp (pods.set i new)).symm.trans
      (h ▸ endpoints_perm vApp pods)
    exact (perm_filterMap_set_iff hold _).mp hperm
  · intro h
    rw [endpoints_eq_of_map, endpoints_eq_of_map, map_set_of_eq hold]
    rw [hname, h]

namespace PodEventHandler

variable {get : String → Except String VirtualApp} {vApp : VirtualApp} {old new : Pod}

theorem mem_update_iff (hlabel : new.labels[VirtualAppInjectedKey]? = some vApp.name)
    (hne : vApp.name ≠ "") (hget : get vApp.name = .ok vApp) :
    vApp ∈ update get old new ↔ changed old new vApp = true := by
  have hvApp : getVAppForPod get new = .ok (some vApp) := by
    rw [getVAppForPod, hlabel, Option.getD_some, if_neg hne, hget]
    rfl
  rw [update, enqueueIf, hvApp]
  cases hc : changed old new vApp <;> simp [hc]

/-- `Update` notices the change of an endpoint unless it shows in the IP or in
the deletion timestamp of the pod only. -/
theorem changed_iff (hname : new.name = old.name) :
    (new.endpoint vApp ≠ old.endpoint vApp → changed old new vApp = true) ↔
      (new.isActive → new.ready → (old.deleting ∨ old.podIP ≠ new.podIP) →
        determinePodSubset vApp old ≠ determinePodSubset vApp new ∨
          old.phase ≠ new.phase ∨ old.ready ≠ new.ready) := by
  cases hnew : new.deleting with
  | true =>
    -- An endpoint can only disappear, and `Update` compares the timestamps.
    have hactive : new.isActive = false := by simp [Pod.isActive, hnew]
    refine iff_of_true (fun hne => ?_) (fun h => ?_)
    · cases hold : old.deleting with
      | true => exact absurd (by simp [Pod.endpoint, Pod.isActive, hnew, hold]) hne
      | false => simp [changed, hnew, hold]
    · rw [hactive] at h
      exact absurd h Bool.false_ne_true
  | false =>
    by_cases hsame : determinePodSubset vApp old = determinePodSubset vApp new ∧
        old.phase = new.phase ∧ old.ready = new.ready
    · obtain ⟨hsubset, hphase, hready⟩ := hsame
      have hchanged : changed old new vApp = false := by
        simp [changed, hnew, hsubset, hphase, hready]
      have hactive : old.isActive = (new.isActive && !old.deleting) := by
        simp [Pod.isActive, hnew, hphase]
      rw [hchanged]
      cases hn : new.isActive <;> cases hr : new.ready <;> cases ho : old.deleting <;>
        simp [Pod.endpoint, hactive, hsubset, hphase, hready, hname, hn, hr, ho, eq_comm]
    · refine iff_of_true (fun _ => ?_) (fun _ _ _ => ?_)
      · simp only [changed, hnew, Bool.false_eq_true, if_false, Bool.or_eq_true, bne_iff_ne]
        tauto
      · tauto

end PodEventHandler

/-! ## Namespaces -/

/-- The name of a namespace in the list of the active ones that `p` takes. -/
def Namespace.shown (p : Namespace → Bool) (ns : Namespace) : Option String :=
  if !ns.deleting && p ns then some ns.name else none

/-- The names of the active namespaces that `p` takes. -/
def activeNames (p : Namespace → Bool) (namespaces : List Namespace) : List String :=
  ((getActiveNamespaces namespaces).filter p).map (·.name)

theorem activeNames_perm (p : Namespace → Bool) (namespaces : List Namespace) :
    (activeNames p namespaces).Perm (namespaces.filterMap (·.shown p)) := by
  have hperm := ((List.perm_insertionSort (fun a b : Namespace => a.name ≤ b.name)
    (namespaces.filter (!·.deleting))).filter p).map (·.name)
  refine hperm.trans (List.Perm.of_eq ?_)
  rw [← List.filterMap_eq_map, List.filterMap_filter, List.filterMap_filter]
  congr 1
  funext ns
  cases hdel : ns.deleting <;> simp [Namespace.shown, hdel]

theorem activeNames_sorted (p : Namespace → Bool) (namespaces : List Namespace) :
    (activeNames p namespaces).Pairwise (· ≤ ·) := by
  have hsorted : (getActiveNamespaces namespaces).Pairwise (fun a b => a.name ≤ b.name) :=
    List.pairwise_insertionSort _ _
  exact (hsorted.filter p).map _ fun _ _ h => h

theorem activeNames_set_iff (p : Namespace → Bool) {namespaces : List Namespace} {i : Nat}
    {old : Namespace} (new : Namespace) (hold : namespaces[i]? = some old) :
    activeNames p (namespaces.set i new) = activeNames p namespaces ↔ new.shown p = old.shown p :=
  sorted_filterMap_set_iff hold _ (activeNames_perm p _) (activeNames_perm p _)
    (activeNames_sorted p _) (activeNames_sorted p _)

/-- A selector of namespaces. -/
def MatchLimitSelector.byNamespace (ms : MatchLimitSelector) : Bool :=
  ms.namespaceSelector.isSome || ms.namespaceRegex.isSome

section

variable (lib : Lib) (ms : MatchLimitSelector)

theorem generateMatchLimitRule_of_byNamespace (h : ms.byNamespace) (namespaces : List Namespace) :
    generateMatchLimitRule lib (getActiveNamespaces namespaces) ms =
      ([⟨activeNames (isNamespaceMatched lib ms) namespaces, "",
          generateAPIResources (ms.resources.getD [])⟩],
        [⟨activeNames (!isNamespaceMatched lib ms ·) namespaces, "",
          generateAPIResources (ms.resources.getD [])⟩]) := by
  rw [generateMatchLimitRule]
  exact if_pos h

/-- The rule of a selector of objects does not depend on the namespaces. -/
theorem generateMatchLimitRule_of_not_byNamespace (h : ¬ ms.byNamespace)
    (namespaces namespaces' : List Namespace) :
    generateMatchLimitRule lib namespaces ms = generateMatchLimitRule lib namespaces' ms := by
  rw [generateMatchLimitRule, generateMatchLimitRule]
  exact (if_neg h).trans (if_neg h).symm

/-- How many rules a selector becomes does not depend on the namespaces. -/
theorem length_generateMatchLimitRule (namespaces namespaces' : List Namespace) :
    (generateMatchLimitRule lib namespaces ms).1.length =
        (generateMatchLimitRule lib namespaces' ms).1.length ∧
      (generateMatchLimitRule lib namespaces ms).2.length =
        (generateMatchLimitRule lib namespaces' ms).2.length := by
  simp only [generateMatchLimitRule]
  split
  · exact ⟨rfl, rfl⟩
  · exact ⟨rfl, rfl⟩

section

variable {namespaces : List Namespace} {i : Nat} {old new : Namespace}

/-- The include rule names the active namespaces that the selector takes, the
exclude rule those that it does not take. -/
theorem generateMatchLimitRule_set_iff (hold : namespaces[i]? = some old) :
    ((generateMatchLimitRule lib (getActiveNamespaces (namespaces.set i new)) ms).1 =
        (generateMatchLimitRule lib (getActiveNamespaces namespaces) ms).1 ↔
      (ms.byNamespace →
        new.shown (isNamespaceMatched lib ms) = old.shown (isNamespaceMatched lib ms))) ∧
    ((generateMatchLimitRule lib (getActiveNamespaces (namespaces.set i new)) ms).2 =
        (generateMatchLimitRule lib (getActiveNamespaces namespaces) ms).2 ↔
      (ms.byNamespace →
        new.shown (!isNamespaceMatched lib ms ·) = old.shown (!isNamespaceMatched lib ms ·))) := by
  by_cases h : ms.byNamespace
  · have hinclude := activeNames_set_iff (isNamespaceMatched lib ms) new hold
    have hexclude := activeNames_set_iff (!isNamespaceMatched lib ms ·) new hold
    rw [generateMatchLimitRule_of_byNamespace lib ms h, generateMatchLimitRule_of_byNamespace lib ms h]
    simp [h, hinclude, hexclude]
  · rw [generateMatchLimitRule_of_not_byNamespace lib ms h _ (getActiveNamespaces namespaces)]
    simp [h]

end

/-- The include rules of selectors are those of each of them. -/
theorem generateMatchLimitRules_fst_eq_iff (namespaces namespaces' : List Namespace)
    (limits : List MatchLimitSelector) :
    (generateMatchLimitRules lib namespaces limits).1 =
        (generateMatchLimitRules lib namespaces' limits).1 ↔
      ∀ ms ∈ limits, (generateMatchLimitRule lib namespaces ms).1 =
        (generateMatchLimitRule lib namespaces' ms).1 :=
  flatMap_eq_flatMap_iff fun ms _ => (length_generateMatchLimitRule lib ms _ _).1

/-- The exclude rules of selectors are those of each of them. -/
theorem generateMatchLimitRules_snd_eq_iff (namespaces namespaces' : List Namespace)
    (limits : List MatchLimitSelector) :
    (generateMatchLimitRules lib namespaces limits).2 =
        (generateMatchLimitRules lib namespaces' limits).2 ↔
      ∀ ms ∈ limits, (generateMatchLimitRule lib namespaces ms).2 =
        (generateMatchLimitRule lib namespaces' ms).2 :=
  flatMap_eq_flatMap_iff fun ms _ => (length_generateMatchLimitRule lib ms _ _).2

/-- Two routes of a VirtualApp are the same if each of the selectors that it uses
has become the same rules. -/
theorem generateProtoRoute_eq_iff (vApp : VirtualApp) (namespaces namespaces' : List Namespace) :
    generateProtoRoute lib vApp namespaces = generateProtoRoute lib vApp namespaces' ↔
      (∀ ms ∈ (vApp.route.getD {}).globalLimits,
        (generateMatchLimitRule lib namespaces ms).1 =
          (generateMatchLimitRule lib namespaces' ms).1) ∧
      ∀ subset ∈ vApp.subsets, ∀ ms ∈ vApp.subsetLimits subset,
        (generateMatchLimitRule lib namespaces ms).1 =
            (generateMatchLimitRule lib namespaces' ms).1 ∧
          (generateMatchLimitRule lib namespaces ms).2 =
            (generateMatchLimitRule lib namespaces' ms).2 := by
  have hlength : ∀ subset ∈ vApp.subsets,
      (generateMatchLimitRules lib namespaces (vApp.subsetLimits subset)).2.length =
        (generateMatchLimitRules lib namespaces' (vApp.subsetLimits subset)).2.length := by
    intro subset _
    simp only [generateMatchLimitRules, List.length_flatMap,
      (length_generateMatchLimitRule lib _ namespaces namespaces').2]
  simp only [generateProtoRoute, RouteV1.mk.injEq, true_and, and_true, List.append_singleton_inj,
    List.map_eq_map_iff, SubsetLimitV1.mk.injEq, flatMap_eq_flatMap_iff hlength,
    generateMatchLimitRules_fst_eq_iff, generateMatchLimitRules_snd_eq_iff, forall_and]

/-- What the route of a VirtualApp depends on in an updated namespace. -/
theorem generateProtoRoute_set_iff (vApp : VirtualApp) {namespaces : List Namespace} {i : Nat}
    {old new : Namespace} (hold : namespaces[i]? = some old) :
    generateProtoRoute lib vApp (getActiveNamespaces (namespaces.set i new)) =
        generateProtoRoute lib vApp (getActiveNamespaces namespaces) ↔
      (∀ ms ∈ (vApp.route.getD {}).globalLimits, ms.byNamespace →
        new.shown (isNamespaceMatched lib ms) = old.shown (isNamespaceMatched lib ms)) ∧
      ∀ subset ∈ vApp.subsets, ∀ ms ∈ vApp.subsetLimits subset, ms.byNamespace →
        new.shown (isNamespaceMatched lib ms) = old.shown (isNamespaceMatched lib ms) ∧
          new.shown (!isNamespaceMatched lib ms ·) = old.shown (!isNamespaceMatched lib ms ·) := by
  simp only [generateProtoRoute_eq_iff, (generateMatchLimitRule_set_iff lib _ hold).1,
    (generateMatchLimitRule_set_iff lib _ hold).2, imp_and]

end

/-- The map of rules has, under each name, the selectors of one of the rules. -/
theorem exists_rule_of_getElem?_foldl {name : String} {limits : List MatchLimitSelector}
    (rules : List VirtualAppRouteSubRule) (m : StringMap (List MatchLimitSelector))
    (h : (rules.foldl (fun m r => m.insert r.name r.matchLimits) m)[name]? = some limits) :
    m[name]? = some limits ∨ ∃ r ∈ rules, r.matchLimits = limits := by
  induction rules generalizing m with
  | nil => exact Or.inl h
  | cons r rules ih =>
    rcases ih _ h with h | ⟨r', hr', rfl⟩
    · rw [StringMap.getElem?_insert] at h
      split at h
      · exact Or.inr ⟨r, List.mem_cons_self, Option.some.inj h⟩
      · exact Or.inl h
    · exact Or.inr ⟨r', List.mem_cons_of_mem _ hr', rfl⟩

/-- The selectors in the rules of a subset are selectors of its VirtualApp. -/
theorem VirtualApp.mem_selectors_of_mem_subsetLimits {vApp : VirtualApp} {subset : VirtualAppSubset}
    {ms : MatchLimitSelector} (h : ms ∈ vApp.subsetLimits subset) : ms ∈ vApp.selectors := by
  obtain ⟨ruleName, -, hms⟩ := List.mem_flatMap.mp h
  cases hlimits : vApp.rulesMap[ruleName]? with
  | none => simp [hlimits] at hms
  | some limits =>
    rw [hlimits, Option.getD_some] at hms
    rw [VirtualApp.rulesMap] at hlimits
    cases hroute : vApp.route with
    | none => simp [hroute] at hlimits
    | some route =>
      rw [hroute] at hlimits
      rcases exists_rule_of_getElem?_foldl _ _ hlimits with h | ⟨r, hr, rfl⟩
      · simp at h
      · rw [VirtualApp.selectors, hroute]
        exact List.mem_append_right _ (List.mem_flatMap.mpr ⟨r, hr, hms⟩)

theorem isNamespaceMatched_congr (lib : Lib) (ms : MatchLimitSelector) {old new : Namespace}
    (hname : new.name = old.name) (hlabels : new.labels = old.labels) :
    isNamespaceMatched lib ms new = isNamespaceMatched lib ms old := by
  simp only [isNamespaceMatched, hname, hlabels]

namespace NamespaceEventHandler

variable {lib : Lib} {vApps : List VirtualApp} {vApp : VirtualApp} {old new : Namespace}

theorem changed_iff_selectors :
    changed lib old new vApp = true ↔
      ∃ ms ∈ vApp.selectors, isNamespaceMatched lib ms old ≠ isNamespaceMatched lib ms new := by
  cases hroute : vApp.route with
  | none => simp [changed, VirtualApp.selectors, hroute]
  | some route =>
    simp only [changed, VirtualApp.selectors, hroute, Option.any_some, Bool.or_eq_true,
      List.any_eq_true, matchedDiffers, bne_iff_ne, Option.getD_some, List.mem_append,
      List.mem_flatMap]
    constructor
    · rintro (⟨ms, hms, h⟩ | ⟨r, hr, ms, hms, h⟩)
      · exact ⟨ms, Or.inl hms, h⟩
      · exact ⟨ms, Or.inr ⟨r, hr, hms⟩, h⟩
    · rintro ⟨ms, hms | ⟨r, hr, hms⟩, h⟩
      · exact Or.inl ⟨ms, hms, h⟩
      · exact Or.inr ⟨r, hr, ms, hms, h⟩

/-- A VirtualApp with a selector is among those that `Update` looks at. -/
theorem mem_getSensitiveVApps (hmem : vApp ∈ vApps) {ms : MatchLimitSelector}
    (hms : ms ∈ vApp.selectors) : vApp ∈ getSensitiveVApps (.ok vApps) := by
  refine List.mem_filter.mpr ⟨hmem, ?_⟩
  cases hroute : vApp.route with
  | none => simp [VirtualApp.selectors, hroute] at hms
  | some route =>
    rw [VirtualApp.selectors, hroute, Option.getD_some] at hms
    rw [Option.any_some, Bool.not_eq_true', Bool.and_eq_false_iff]
    rcases List.mem_append.mp hms with h | h
    · exact Or.inl (List.isEmpty_eq_false_iff_exists_mem.mpr ⟨ms, h⟩)
    · obtain ⟨r, hr, -⟩ := List.mem_flatMap.mp h
      exact Or.inr (List.isEmpty_eq_false_iff_exists_mem.mpr ⟨r, hr⟩)

/-- `Update` enqueues the VirtualApps with a selector that takes the two versions
differently. -/
theorem mem_update_iff (hmem : vApp ∈ vApps) (hname : new.name = old.name) :
    vApp ∈ update lib (.ok vApps) old new ↔
      ∃ ms ∈ vApp.selectors, isNamespaceMatched lib ms old ≠ isNamespaceMatched lib ms new := by
  constructor
  · intro h
    rw [update] at h
    split at h
    · simp at h
    · exact changed_iff_selectors.mp (List.mem_filter.mp h).2
  · rintro ⟨ms, hms, h⟩
    -- The name is the same, so the labels differ.
    have hlabels : new.labels ≠ old.labels := fun hl =>
      h (isNamespaceMatched_congr lib ms hname hl).symm
    rw [update, if_neg hlabels]
    exact List.mem_filter.mpr
      ⟨mem_getSensitiveVApps hmem hms, changed_iff_selectors.mpr ⟨ms, hms, h⟩⟩

end NamespaceEventHandler

/-- The version of an updated namespace that is not being deleted, where the
update sets or drops the deletion timestamp. -/
def Namespace.live (old new : Namespace) : Namespace := if old.deleting then new else old

/-- The route of a VirtualApp names the namespace while it is not being deleted:
a global limit takes it, or the rules of a subset select by namespaces, for which
it is in the limits of that subset or in those of the default one. -/
def VirtualApp.Names (lib : Lib) (vApp : VirtualApp) (ns : Namespace) : Prop :=
  (∃ ms ∈ (vApp.route.getD {}).globalLimits, isNamespaceMatched lib ms ns = true) ∨
    ∃ subset ∈ vApp.subsets, ∃ ms ∈ vApp.subsetLimits subset, ms.byNamespace = true

theorem byNamespace_of_isNamespaceMatched {lib : Lib} {ms : MatchLimitSelector} {ns : Namespace}
    (h : isNamespaceMatched lib ms ns = true) : ms.byNamespace = true := by
  rw [isNamespaceMatched] at h
  rw [MatchLimitSelector.byNamespace]
  cases hsel : ms.namespaceSelector <;> cases hregex : ms.namespaceRegex <;> simp_all

section

variable {lib : Lib} {vApp : VirtualApp} {old new : Namespace}

theorem shown_eq_of_deleting_eq {p : Namespace → Bool} (hname : new.name = old.name)
    (hp : p old = p new) (hdel : old.deleting = new.deleting) : new.shown p = old.shown p := by
  rw [Namespace.shown, Namespace.shown, hname, hp, hdel]

theorem shown_eq_iff_of_deleting_ne {p : Namespace → Bool} (hp : p old = p new)
    (hdel : old.deleting ≠ new.deleting) : new.shown p = old.shown p ↔ p (old.live new) = false := by
  cases ho : old.deleting <;> cases hn : new.deleting <;> cases hpn : p new <;>
    simp_all [Namespace.shown, Namespace.live]

/-- Where every selector takes both versions alike, the route only changes with
the deletion timestamp, if it names the namespace. -/
theorem generateProtoRoute_set_iff_of_matched {namespaces : List Namespace} {i : Nat}
    (hold : namespaces[i]? = some old) (hname : new.name = old.name)
    (hsame : ∀ ms ∈ vApp.selectors, isNamespaceMatched lib ms old = isNamespaceMatched lib ms new) :
    generateProtoRoute lib vApp (getActiveNamespaces (namespaces.set i new)) =
        generateProtoRoute lib vApp (getActiveNamespaces namespaces) ↔
      (old.deleting ≠ new.deleting → ¬ vApp.Names lib (old.live new)) := by
  have hglobal : ∀ ms ∈ (vApp.route.getD {}).globalLimits,
      isNamespaceMatched lib ms old = isNamespaceMatched lib ms new :=
    fun ms hms => hsame ms (List.mem_append_left _ hms)
  have hsubset : ∀ subset ∈ vApp.subsets, ∀ ms ∈ vApp.subsetLimits subset,
      isNamespaceMatched lib ms old = isNamespaceMatched lib ms new :=
    fun _ _ ms hms => hsame ms (VirtualApp.mem_selectors_of_mem_subsetLimits hms)
  rw [generateProtoRoute_set_iff lib vApp hold]
  by_cases hdel : old.deleting = new.deleting
  · refine iff_of_true ⟨fun ms hms _ => ?_, fun subset hs ms hms _ => ?_⟩ fun h => absurd hdel h
    · exact shown_eq_of_deleting_eq hname (hglobal ms hms) hdel
    · have hp := hsubset subset hs ms hms
      exact ⟨shown_eq_of_deleting_eq hname hp hdel,
        shown_eq_of_deleting_eq hname (congrArg (!·) hp) hdel⟩
  · constructor
    · rintro ⟨hg, hs⟩ - (⟨ms, hms, h⟩ | ⟨subset, hsub, ms, hms, h⟩)
      · have hshown := hg ms hms (byNamespace_of_isNamespaceMatched h)
        rw [shown_eq_iff_of_deleting_ne (hglobal ms hms) hdel, h] at hshown
        exact absurd hshown (by decide)
      · -- The namespace is among those taken or among the others.
        obtain ⟨hin, hout⟩ := hs subset hsub ms hms h
        have hp := hsubset subset hsub ms hms
        rw [shown_eq_iff_of_deleting_ne hp hdel] at hin
        rw [shown_eq_iff_of_deleting_ne (congrArg (!·) hp) hdel, hin] at hout
        exact absurd hout (by decide)
    · intro h
      have hnot := h hdel
      refine ⟨fun ms hms hby => ?_, fun subset hsub ms hms hby => ?_⟩
      · rw [shown_eq_iff_of_deleting_ne (hglobal ms hms) hdel, ← Bool.not_eq_true]
        exact fun hm => hnot (Or.inl ⟨ms, hms, hm⟩)
      · exact absurd (Or.inr ⟨subset, hsub, ms, hms, hby⟩) hnot

end

/-! ## Updates -/

/-- What the handlers and `Reconcile` read, for one VirtualApp. -/
structure Cluster where
  vApp : VirtualApp
  /-- The pods with the label of the VirtualApp, in its namespace. -/
  pods : List Pod
  namespaces : List Namespace
  /-- The VirtualApps by name, in that namespace. -/
  get : String → Except String VirtualApp
  /-- All VirtualApps. -/
  vApps : List VirtualApp
  name_ne : vApp.name ≠ ""
  get_name : get vApp.name = .ok vApp
  mem_vApps : vApp ∈ vApps

namespace Cluster

variable (lib : Lib) (specHash : RouteV1 → List EndpointV1 → String)

/-- The hash that `Reconcile` calculates. -/
def hash (c : Cluster) : String :=
  specHash (generateProtoRoute lib c.vApp (getActiveNamespaces c.namespaces))
    (generateProtoEndpoints c.vApp ((getPodsForVApp c.pods).filter (·.isActive)))

/-- The update of one object. -/
inductive Change (c : Cluster) where
  | pod (i : Nat) (old new : Pod) (hold : c.pods[i]? = some old) (hname : new.name = old.name)
      (hlabel : new.labels[VirtualAppInjectedKey]? = some c.vApp.name)
  | ns (i : Nat) (old new : Namespace) (hold : c.namespaces[i]? = some old)
      (hname : new.name = old.name)

namespace Change

variable {c : Cluster}

def after : Change c → Cluster
  | .pod i _ new _ _ _ => { c with pods := c.pods.set i new }
  | .ns i _ new _ _ => { c with namespaces := c.namespaces.set i new }

/-- What the handler of the update enqueues. -/
def enqueued : Change c → List VirtualApp
  | .pod _ old new _ _ _ => PodEventHandler.update c.get old new
  | .ns _ old new _ _ => NamespaceEventHandler.update lib (.ok c.vApps) old new

/-- The update is in something that the handler compares. Of a pod that is an
endpoint, it is not if nothing but the IP changes or the deletion timestamp is
dropped; of a namespace that the route names, it is not if the deletion timestamp
is set or dropped and all selectors take both versions alike. -/
def Compared : Change c → Prop
  | .pod _ old new _ _ _ =>
    new.isActive → new.ready → (old.deleting ∨ old.podIP ≠ new.podIP) →
      determinePodSubset c.vApp old ≠ determinePodSubset c.vApp new ∨
        old.phase ≠ new.phase ∨ old.ready ≠ new.ready
  | .ns _ old new _ _ =>
    old.deleting ≠ new.deleting → c.vApp.Names lib (old.live new) →
      ∃ ms ∈ c.vApp.selectors, isNamespaceMatched lib ms old ≠ isNamespaceMatched lib ms new

/-- Some hash tells any two specs apart. -/
theorem forall_specHash_iff {r r' : RouteV1} {e e' : List EndpointV1} {P : Prop} :
    (∀ specHash : RouteV1 → List EndpointV1 → String, specHash r' e' ≠ specHash r e → P) ↔
      (¬ (r' = r ∧ e' = e) → P) := by
  classical
  constructor
  · intro h hne
    refine h (fun a b => if a = r ∧ b = e then "same" else "other") ?_
    rw [if_neg hne, if_pos ⟨rfl, rfl⟩]
    decide
  · intro h specHash hne
    refine h ?_
    rintro ⟨rfl, rfl⟩
    exact hne rfl

/-- Whatever the hash function, every update that changes the hash enqueues the
VirtualApp exactly if the update is in something that the handlers compare. -/
theorem noticed_iff (lib : Lib) (change : Change c) :
    (∀ specHash, change.after.hash lib specHash ≠ c.hash lib specHash →
      c.vApp ∈ change.enqueued lib) ↔ change.Compared lib := by
  simp only [hash, forall_specHash_iff]
  cases change with
  | pod i old new hold hname hlabel =>
    have hendpoints := endpoints_set_iff c.vApp hold hname
    have hupdate : c.vApp ∈ PodEventHandler.update c.get old new ↔ _ :=
      PodEventHandler.mem_update_iff hlabel c.name_ne c.get_name
    simp only [after, enqueued, Compared, true_and, hupdate, ← PodEventHandler.changed_iff hname]
    rw [ne_eq, ← hendpoints]
    rfl
  | ns i old new hold hname =>
    have hupdate : c.vApp ∈ NamespaceEventHandler.update lib (.ok c.vApps) old new ↔ _ :=
      NamespaceEventHandler.mem_update_iff c.mem_vApps hname
    simp only [after, and_true, enqueued, Compared, hupdate]
    by_cases hdiff : ∃ ms ∈ c.vApp.selectors,
        isNamespaceMatched lib ms old ≠ isNamespaceMatched lib ms new
    · exact iff_of_true (fun _ => hdiff) fun _ _ => hdiff
    · have hsame : ∀ ms ∈ c.vApp.selectors,
          isNamespaceMatched lib ms old = isNamespaceMatched lib ms new :=
        fun ms hms => by_contra fun h => hdiff ⟨ms, hms, h⟩
      rw [generateProtoRoute_set_iff_of_matched hold hname hsame]
      simp only [hdiff, imp_false, not_not]

/-- A ready pod of the application. -/
def sampleReadyPod (podIP : String) : Pod :=
  ⟨"u1", "p1", {(VirtualAppInjectedKey, "app")}, false, .running, podIP, true, []⟩

def sampleCluster : Cluster where
  vApp := sampleVApp "canary"
  pods := [sampleReadyPod "10.0.0.1"]
  namespaces := sampleNamespaces
  get _ := .ok (sampleVApp "canary")
  vApps := [sampleVApp "canary"]
  name_ne := by decide
  get_name := rfl
  mem_vApps := List.mem_cons_self

/-- The pod gets another IP. -/
def sampleMove : Change sampleCluster :=
  .pod 0 (sampleReadyPod "10.0.0.1") (sampleReadyPod "10.0.0.2") rfl rfl (by decide +kernel)

/-- The namespace of the team is being deleted. -/
def sampleTermination : Change sampleCluster :=
  .ns 0 ⟨"ns-a", {("team", "a")}, false⟩ ⟨"ns-a", {("team", "a")}, true⟩ rfl rfl

/-- Both updates change the hash, and neither enqueues the VirtualApp. -/
theorem not_noticed_sampleCluster :
    (sampleMove.after.hash sampleLib Server.sampleHash ≠
        sampleCluster.hash sampleLib Server.sampleHash ∧
      sampleCluster.vApp ∉ sampleMove.enqueued sampleLib) ∧
    (sampleTermination.after.hash sampleLib Server.sampleHash ≠
        sampleCluster.hash sampleLib Server.sampleHash ∧
      sampleCluster.vApp ∉ sampleTermination.enqueued sampleLib) := by
  decide +kernel

end Change

end Cluster

end CtrlMesh
