import ControllerMesh.Framework.FirstMatch
import ControllerMesh.Impl.Route
import ControllerMesh.Proof.Owners
import ControllerMesh.Spec.Validity

/-!
# What the readers of a VirtualApp rely on

The server and the proxy read an accepted VirtualApp with assumptions that
validation does not check.

* `containsString` counts a wildcard only as the single member of a list.
  `wildcard_contract_iff`: rules mean what their documentation says if and only if
  it is; and validation accepts a VirtualApp whatever these lists are.
* `determinePodSubset` reads a label that a pod lacks as the empty string.
  `podSubset_firstMatch_iff`: a pod gets the first subset whose labels it has, if
  and only if no subset before it is matched through a label that the pod lacks. The
  order in which labels are compared does not matter.
-/

namespace CtrlMesh

open Framework

/-! ## Wildcards -/

/-- The resources that a VirtualApp names. -/
def VirtualApp.apiGroupResources (vApp : VirtualApp) : List APIGroupResource :=
  vApp.selectors.flatMap (·.resources.getD []) ++ (vApp.route.getD {}).subsetPublicResources

namespace APIGroupResource

variable (agr : APIGroupResource)

/-- What the documentation of the fields says that a rule applies to. -/
def Documented (gr : GroupResource) : Prop :=
  (gr.group ∈ agr.apiGroups ∨ "*" ∈ agr.apiGroups) ∧
    (gr.resource ∈ agr.resources ∨ "*" ∈ agr.resources ∨ "*/*" ∈ agr.resources)

/-- A wildcard is `*`, and the only member of its list. -/
def WildcardsAlone : Prop :=
  ("*" ∈ agr.apiGroups → agr.apiGroups = ["*"]) ∧
    ("*" ∈ agr.resources ∨ "*/*" ∈ agr.resources → agr.resources = ["*"])

end APIGroupResource

theorem containsString_iff {x : String} {list : List String} {wildcard : String} :
    containsString x list wildcard = true ↔ list = [wildcard] ∨ x ∈ list := by
  simp [containsString]

/-- A list holds all strings only by a wildcard. -/
theorem exists_not_containsString {list : List String} {wildcard : String}
    (h : list ≠ [wildcard]) : ∃ x, containsString x list wildcard = false := by
  obtain ⟨x, hx⟩ := Infinite.exists_notMem_finset list.toFinset
  refine ⟨x, ?_⟩
  rw [← Bool.not_eq_true, containsString_iff]
  exact not_or.mpr ⟨h, fun hmem => hx (List.mem_toFinset.mpr hmem)⟩

theorem isGRMatchedAPIResources_generate {agr : APIGroupResource} {gr : GroupResource} :
    isGRMatchedAPIResources gr (generateAPIResources [agr]) = true ↔
      containsString gr.group agr.apiGroups "*" = true ∧
        containsString gr.resource agr.resources "*" = true := by
  simp [isGRMatchedAPIResources, generateAPIResources, ResourceAll]

/-- What one rule means to the proxy is what is documented, if wildcards stand alone in
it or it applies to nothing, and only then. -/
theorem matched_iff_documented_iff {agr : APIGroupResource} :
    (∀ gr, isGRMatchedAPIResources gr (generateAPIResources [agr]) = true ↔ agr.Documented gr) ↔
      agr.apiGroups = [] ∨ agr.resources = [] ∨ agr.WildcardsAlone := by
  obtain ⟨groups, resources⟩ := agr
  simp only [isGRMatchedAPIResources_generate, APIGroupResource.Documented,
    APIGroupResource.WildcardsAlone]
  constructor
  · intro h
    by_cases hgroups : groups = []
    · exact .inl hgroups
    by_cases hresources : resources = []
    · exact .inr (.inl hresources)
    -- a member of each list, to vary the other one
    obtain ⟨group, hgroup⟩ := List.exists_mem_of_ne_nil _ hgroups
    obtain ⟨resource, hresource⟩ := List.exists_mem_of_ne_nil _ hresources
    refine .inr (.inr ⟨fun hwild => ?_, fun hwild => ?_⟩)
    · by_contra hne
      obtain ⟨x, hx⟩ := exists_not_containsString hne
      have hmatched := (h ⟨x, resource⟩).mpr ⟨.inr hwild, .inl hresource⟩
      exact absurd hmatched.1 (by simp [hx])
    · by_contra hne
      obtain ⟨x, hx⟩ := exists_not_containsString hne
      have hmatched := (h ⟨group, x⟩).mpr ⟨.inl hgroup, .inr hwild⟩
      exact absurd hmatched.2 (by simp [hx])
  · rintro (rfl | rfl | ⟨hgroups, hresources⟩) gr
    · simp [containsString_iff]
    · simp [containsString_iff]
    · rw [containsString_iff, containsString_iff]
      constructor
      · rintro ⟨hg, hr⟩
        refine ⟨hg.elim (fun h => .inr (by simp [h])) .inl, ?_⟩
        exact hr.elim (fun h => .inr (.inl (by simp [h]))) .inl
      · rintro ⟨hg, hr⟩
        exact ⟨hg.elim .inr fun h => .inl (hgroups h), hr.elim .inr fun h => .inl (hresources h)⟩

/-! Validation does not read the lists. -/

section

variable (f : APIGroupResource → APIGroupResource)

def MatchLimitSelector.mapResources (m : MatchLimitSelector) : MatchLimitSelector :=
  { m with resources := m.resources.map (·.map f) }

def VirtualAppRoute.mapResources (route : VirtualAppRoute) : VirtualAppRoute :=
  { route with
    globalLimits := route.globalLimits.map (·.mapResources f)
    subRules := route.subRules.map fun r =>
      { r with matchLimits := r.matchLimits.map (·.mapResources f) }
    subsetPublicResources := route.subsetPublicResources.map f }

/-- The VirtualApp with other groups and resources in all of its rules. -/
def VirtualApp.mapResources (vApp : VirtualApp) : VirtualApp :=
  { vApp with route := vApp.route.map (·.mapResources f) }

variable {lib : Lib}

theorem validateMatchLimitSelector_mapResources (m : MatchLimitSelector) :
    validateMatchLimitSelector lib (m.mapResources f) = validateMatchLimitSelector lib m := by
  simp [validateMatchLimitSelector, validateMatchLimitKind, MatchLimitSelector.mapResources]

theorem validateMatchLimits_mapResources (suffix : String) (ms : List MatchLimitSelector) :
    validateMatchLimits lib suffix (ms.map (·.mapResources f)) = validateMatchLimits lib suffix ms := by
  induction ms with
  | nil => rfl
  | cons m ms ih =>
    rw [List.map_cons, validateMatchLimits, validateMatchLimits,
      validateMatchLimitSelector_mapResources, ih]

theorem validateSubRules_mapResources (rs : List VirtualAppRouteSubRule) (seen : StringSet) :
    validateSubRules lib
        (rs.map fun r => { r with matchLimits := r.matchLimits.map (·.mapResources f) }) seen =
      validateSubRules lib rs seen := by
  induction rs generalizing seen with
  | nil => rfl
  | cons r rs ih =>
    simp only [List.map_cons, validateSubRules, validateMatchLimits_mapResources, ih,
      List.isEmpty_map]

theorem validate_mapResources (vApp : VirtualApp) :
    validate lib (vApp.mapResources f) = validate lib vApp := by
  have hroute : validateRoute lib (vApp.route.map (·.mapResources f)) = validateRoute lib vApp.route := by
    cases vApp.route with
    | none => rfl
    | some route =>
      simp only [Option.map_some, validateRoute, VirtualAppRoute.mapResources,
        validateMatchLimits_mapResources, validateSubRules_mapResources]
  unfold validate
  dsimp only [VirtualApp.mapResources]
  rw [hroute]

end

/-- The rules of an accepted VirtualApp mean to the proxy what is documented if and only
if wildcards stand alone in those that apply to something; and no such thing is
checked, as the VirtualApp is accepted with any other groups and resources, too. -/
theorem wildcard_contract_iff {lib : Lib} {vApp : VirtualApp} (h : validate lib vApp = .ok ()) :
    ((∀ agr ∈ vApp.apiGroupResources, ∀ gr,
        isGRMatchedAPIResources gr (generateAPIResources [agr]) = true ↔ agr.Documented gr) ↔
      ∀ agr ∈ vApp.apiGroupResources,
        agr.apiGroups = [] ∨ agr.resources = [] ∨ agr.WildcardsAlone) ∧
      ∀ f, validate lib (vApp.mapResources f) = .ok () := by
  refine ⟨?_, fun f => (validate_mapResources f vApp).trans h⟩
  exact forall_congr' fun agr => imp_congr_right fun _ => matched_iff_documented_iff

/-- An application with one global limit, by a regular expression for namespaces and for
these resources. -/
def sampleLimitedVApp (agr : APIGroupResource) : VirtualApp :=
  { sampleVApp "canary" with
    route := some { globalLimits := [⟨none, none, some "ns-a", some [agr]⟩] }
    subsets := [] }

theorem wildcard_contract_sampleLimitedVApp :
    validate sampleLib (sampleLimitedVApp ⟨["apps"], ["*"]⟩) = .ok () ∧
      (isGRMatchedAPIResources ⟨"apps", "deployments"⟩ (generateAPIResources [⟨["apps"], ["*"]⟩]) = true ↔
        (⟨["apps"], ["*"]⟩ : APIGroupResource).Documented ⟨"apps", "deployments"⟩) := by
  have haccepted : validate sampleLib (sampleLimitedVApp ⟨["apps"], ["*"]⟩) = .ok () := by
    decide +kernel
  have hresources : (sampleLimitedVApp ⟨["apps"], ["*"]⟩).apiGroupResources = [⟨["apps"], ["*"]⟩] := by
    simp [VirtualApp.apiGroupResources, VirtualApp.selectors, sampleLimitedVApp]
  refine ⟨haccepted, (wildcard_contract_iff haccepted).1.mpr (fun agr hagr => ?_) _ ?_ _⟩
  · rw [hresources, List.mem_singleton] at hagr
    simp [hagr, APIGroupResource.WildcardsAlone]
  · simp [hresources]

/-- Validation accepts `*/*`, which should mean all resources and matches none of
them. -/
theorem not_wildcard_contract_sampleLimitedVApp :
    validate sampleLib (sampleLimitedVApp ⟨["apps"], ["*/*"]⟩) = .ok () ∧
      ⟨["apps"], ["*/*"]⟩ ∈ (sampleLimitedVApp ⟨["apps"], ["*/*"]⟩).apiGroupResources ∧
        (⟨["apps"], ["*/*"]⟩ : APIGroupResource).Documented ⟨"apps", "deployments"⟩ ∧
          isGRMatchedAPIResources ⟨"apps", "deployments"⟩
            (generateAPIResources [⟨["apps"], ["*/*"]⟩]) = false := by
  refine ⟨by decide +kernel, ?_, ?_, by decide⟩
  · simp [VirtualApp.apiGroupResources, VirtualApp.selectors, sampleLimitedVApp]
  · simp [APIGroupResource.Documented]

/-! ## Subsets of pods -/

namespace VirtualAppSubset

variable (s : VirtualAppSubset) (pod : Pod)

/-- The pod has every label of the subset. -/
def Includes : Prop := ∀ k v : String, s.labels[k]? = some v → pod.labels[k]? = some v

/-- The comparison of labels in `determinePodSubset`, in this order. -/
def matched (entries : List (String × String)) : Bool :=
  entries.all fun kv => pod.labels[kv.1]?.getD "" == kv.2

/-- The pod lacks labels of the subset, and these should be empty. -/
def MatchedByMissing : Prop :=
  ¬s.Includes pod ∧
    ∀ k v : String, s.labels[k]? = some v → pod.labels[k]? = some v ∨ pod.labels[k]? = none ∧ v = ""

variable {s pod}

theorem includes_iff :
    s.Includes pod ↔ ∀ kv ∈ s.labels.toList, pod.labels[kv.1]? = some kv.2 := by
  simp only [Includes, Prod.forall, Std.ExtTreeMap.mem_toList_iff_getElem?_eq_some]

instance : Decidable (s.Includes pod) := decidable_of_iff' _ includes_iff

theorem matched_iff :
    matched pod s.labels.toList = true ↔ ∀ k v : String, s.labels[k]? = some v →
      pod.labels[k]? = some v ∨ pod.labels[k]? = none ∧ v = "" := by
  simp only [matched, List.all_eq_true, beq_iff_eq, Prod.forall,
    Std.ExtTreeMap.mem_toList_iff_getElem?_eq_some]
  refine forall_congr' fun k => forall_congr' fun v => imp_congr_right fun _ => ?_
  cases pod.labels[k]? with
  | none => simp [eq_comm]
  | some w => simp

theorem matched_of_includes (h : s.Includes pod) : matched pod s.labels.toList = true :=
  matched_iff.mpr fun k v hkv => .inl (h k v hkv)

theorem matchedByMissing_iff :
    s.MatchedByMissing pod ↔
      matched pod s.labels.toList = true ∧ decide (s.Includes pod) = false := by
  rw [matched_iff, decide_eq_false_iff_not, MatchedByMissing, and_comm]

/-- Labels may be compared in any order. -/
theorem matched_perm {entries entries' : List (String × String)} (h : entries.Perm entries') :
    matched pod entries = matched pod entries' :=
  h.all_eq

end VirtualAppSubset

/-- `determinePodSubset` with any orders in which the labels of the subsets are compared. -/
def determinePodSubsetIn (orders : VirtualAppSubset → RangeOrder) (vApp : VirtualApp) (pod : Pod) :
    String :=
  match vApp.subsets.find? fun subset =>
    VirtualAppSubset.matched pod ((orders subset).entries subset.labels) with
  | some subset => subset.name
  | none => ""

/-- The pod is assigned to the first subset whose labels it has, and to none if there is no
such subset. -/
structure AssignsFirstMatch (vApp : VirtualApp) (pod : Pod) : Prop where
  first (before : List VirtualAppSubset) (s : VirtualAppSubset) (after : List VirtualAppSubset)
    (hsubsets : vApp.subsets = before ++ s :: after) (hs : s.Includes pod)
    (hbefore : ∀ t ∈ before, ¬t.Includes pod) : determinePodSubset vApp pod = s.name
  none_iff : determinePodSubset vApp pod = "" ↔ ∀ s ∈ vApp.subsets, ¬s.Includes pod

section

variable {vApp : VirtualApp} {pod : Pod}

theorem determinePodSubsetIn_eq (orders : VirtualAppSubset → RangeOrder) :
    determinePodSubsetIn orders vApp pod = determinePodSubset vApp pod := by
  have hmatched : (fun subset : VirtualAppSubset =>
      VirtualAppSubset.matched pod ((orders subset).entries subset.labels)) =
        fun subset => VirtualAppSubset.matched pod subset.labels.toList :=
    funext fun subset => VirtualAppSubset.matched_perm ((orders subset).perm_entries _)
  unfold determinePodSubsetIn
  rw [hmatched]
  rfl

theorem determinePodSubset_eq_first :
    determinePodSubset vApp pod =
      FirstMatch.first (·.name) "" (fun s => VirtualAppSubset.matched pod s.labels.toList)
        vApp.subsets := by
  unfold determinePodSubset FirstMatch.first VirtualAppSubset.matched
  cases vApp.subsets.find? fun s => s.labels.toList.all fun kv => pod.labels[kv.1]?.getD "" == kv.2
  · rfl
  · rfl

theorem VirtualApp.Accepted.nodup_names (h : vApp.Accepted) :
    (FirstMatch.names (·.name) "" vApp.subsets).Nodup := by
  rw [FirstMatch.names, List.nodup_append]
  refine ⟨h.subsets, List.nodup_singleton _, ?_⟩
  intro name hname fallback hfallback heq
  obtain ⟨s, hs, rfl⟩ := List.mem_map.mp hname
  exact h.ne_empty s hs (heq.trans (List.mem_singleton.mp hfallback))

/-- With distinct names that are not empty, the assignment is a name. -/
theorem assignsFirstMatch_iff (h : vApp.Accepted) :
    AssignsFirstMatch vApp pod ↔
      determinePodSubset vApp pod =
        FirstMatch.first (·.name) "" (fun s => decide (s.Includes pod)) vApp.subsets := by
  constructor
  · intro hassigns
    cases hfind : vApp.subsets.find? fun s => decide (s.Includes pod) with
    | none =>
      rw [FirstMatch.first, hfind]
      refine hassigns.none_iff.mpr fun s hs => ?_
      simpa using List.find?_eq_none.mp hfind s hs
    | some s =>
      obtain ⟨hs, before, after, hsubsets, hbefore⟩ := List.find?_eq_some_iff_append.mp hfind
      rw [FirstMatch.first, hfind]
      exact hassigns.first before s after hsubsets (by simpa using hs) (by simpa using hbefore)
  · intro heq
    refine ⟨fun before s after hsubsets hs hbefore => ?_, ?_⟩
    · rw [heq, hsubsets]
      exact FirstMatch.first_of_append (by simpa using hs) (by simpa using hbefore)
    · rw [heq, FirstMatch.first_eq_fallback_iff h.nodup_names]
      simp

/-- For an accepted VirtualApp, the order in which labels are compared does not matter; and
a pod is assigned to the first subset whose labels it has if and only if no subset up to
there is matched through labels that the pod lacks. -/
theorem podSubset_firstMatch_iff {lib : Lib} (h : validate lib vApp = .ok ()) (pod : Pod) :
    (∀ orders, determinePodSubsetIn orders vApp pod = determinePodSubset vApp pod) ∧
      (AssignsFirstMatch vApp pod ↔
        ¬∃ before s after, vApp.subsets = before ++ s :: after ∧ s.MatchedByMissing pod ∧
          ∀ t ∈ before, ¬t.Includes pod) := by
  have hacc := accepted_of_validate h
  refine ⟨determinePodSubsetIn_eq, ?_⟩
  rw [assignsFirstMatch_iff hacc, determinePodSubset_eq_first,
    FirstMatch.first_eq_first_iff (fun s hs => ?_) hacc.nodup_names]
  · simp only [VirtualAppSubset.matchedByMissing_iff, decide_eq_false_iff_not]
  · exact VirtualAppSubset.matched_of_includes (by simpa using hs)

end

/-- A pod with these labels. -/
def sampleLabelledPod (labels : StringMap String) : Pod where
  uid := "u"
  name := "p"
  labels := labels
  phase := .running
  podIP := "10.0.0.1"
  ready := true
  containerStatuses := []

theorem assignsFirstMatch_sampleVApp :
    AssignsFirstMatch (sampleVApp "canary") (sampleLabelledPod {("version", "canary")}) := by
  have haccepted : validate sampleLib (sampleVApp "canary") = .ok () := by decide +kernel
  refine ((podSubset_firstMatch_iff haccepted _).2).mpr ?_
  rintro ⟨before, s, after, hsubsets, hmissing, -⟩
  have hs : s ∈ (sampleVApp "canary").subsets := by simp [hsubsets]
  rw [List.mem_singleton.mp hs] at hmissing
  exact hmissing.1 (by decide +kernel)

/-- A subset for pods with an empty label gets the pods without that label, too. -/
theorem not_assignsFirstMatch_sampleVApp :
    validate sampleLib
        { sampleVApp "canary" with subsets := [⟨"canary", {("tier", "")}, ["team"]⟩] } = .ok () ∧
      determinePodSubset
          { sampleVApp "canary" with subsets := [⟨"canary", {("tier", "")}, ["team"]⟩] }
          (sampleLabelledPod ∅) = "canary" ∧
        ¬AssignsFirstMatch
          { sampleVApp "canary" with subsets := [⟨"canary", {("tier", "")}, ["team"]⟩] }
          (sampleLabelledPod ∅) := by
  have hassigned : determinePodSubset
      { sampleVApp "canary" with subsets := [⟨"canary", {("tier", "")}, ["team"]⟩] }
      (sampleLabelledPod ∅) = "canary" := by decide +kernel
  refine ⟨by decide +kernel, hassigned, fun h => ?_⟩
  have hempty := h.none_iff.mpr (by decide +kernel)
  exact absurd (hassigned.symm.trans hempty) (by decide)

end CtrlMesh
