import ControllerMesh.Proof.Validate

/-!
# Ownership of namespaces

The route that the server compiles and the proxy's evaluation of it, together.

* `determined`: the nested loops of the proxy look for the first subset with a
  limit that applies and lists the namespace.
* `any_includeRules`, `any_excludeRules`: what the rules that the server
  compiles from selectors list.
* `Accepted.ownedBy`: the subset that the proxy determines is the owner by the
  VirtualApp's own rules.
-/

namespace CtrlMesh

open Framework

/-! ## The proxy's loops -/

namespace InternalMatchLimitRule

variable (gr : GroupResource) (isPublic : Bool) (ns : String)

/-- A rule by namespaces whose resources match `gr`. -/
def restricts (r : InternalMatchLimitRule) : Bool :=
  r.objectSelector.isNone && isGRMatchedAPIResources gr r.resources

/-- A rule by namespaces that the loop does not skip. -/
def applies (r : InternalMatchLimitRule) : Bool :=
  r.objectSelector.isNone &&
    (isGRMatchedAPIResources gr r.resources || r.resources.isEmpty && !isPublic)

/-- A rule at which the loop stops. -/
def takes (r : InternalMatchLimitRule) : Bool := r.applies gr isPublic && r.namespaces.contains ns

/-- Both loops skip rules by objects. -/
theorem applies_of_isSome (r : InternalMatchLimitRule) (h : r.objectSelector.isSome = true) :
    r.applies gr isPublic = false := by
  rw [applies, Option.isNone_eq_false_iff.mpr h, Bool.false_and]

theorem takes_of_isSome (r : InternalMatchLimitRule) (h : r.objectSelector.isSome = true) :
    r.takes gr isPublic ns = false := by
  rw [takes, applies_of_isSome gr isPublic r h, Bool.false_and]

theorem applies_public : applies gr true = restricts gr := by
  funext r
  simp [applies, restricts]

end InternalMatchLimitRule

namespace InternalRoute

open InternalMatchLimitRule

variable (ns : String) (gr : GroupResource) (isPublic : Bool)

theorem scanLimits_cons (r : InternalMatchLimitRule) (limits : List InternalMatchLimitRule)
    (b : Bool) :
    scanLimits ns gr isPublic (r :: limits) b =
      if r.takes gr isPublic ns then (true, b || r.restricts gr)
      else scanLimits ns gr isPublic limits (b || r.restricts gr) := by
  have hnil : isGRMatchedAPIResources gr [] = false := rfl
  rw [scanLimits, takes, applies, restricts]
  cases r.objectSelector with
  | some sel => simp
  | none =>
    cases r.resources with
    | nil => cases isPublic <;> simp [hnil]
    | cons a l => cases hm : isGRMatchedAPIResources gr (a :: l) <;> simp

/-- The inner loop finds out whether a rule takes `ns`. -/
theorem scanLimits_fst (limits : List InternalMatchLimitRule) (b : Bool) :
    (scanLimits ns gr isPublic limits b).1 = limits.any (takes gr isPublic ns) := by
  induction limits generalizing b with
  | nil => rfl
  | cons r limits ih =>
    rw [scanLimits_cons, List.any_cons]
    cases hr : r.takes gr isPublic ns with
    | true => rfl
    | false => exact ih _

/-- If none does, it has noted whether a rule is restricted to `gr`. -/
theorem scanLimits_snd {limits : List InternalMatchLimitRule} (b : Bool)
    (h : limits.any (takes gr isPublic ns) = false) :
    (scanLimits ns gr isPublic limits b).2 = (b || limits.any (restricts gr)) := by
  induction limits generalizing b with
  | nil => simp [scanLimits]
  | cons r limits ih =>
    rw [List.any_cons, Bool.or_eq_false_iff] at h
    rw [scanLimits_cons, h.1, List.any_cons, ← Bool.or_assoc]
    exact ih _ h.2

theorem scanSubsets_cons (l : InternalSubsetLimit) (rest : List InternalSubsetLimit) (b : Bool) :
    scanSubsets ns gr isPublic (l :: rest) b =
      let m := (scanLimits ns gr isPublic l.limits b).2
      if l.limits.any (takes gr isPublic ns) then (some l.subset, m)
      else scanSubsets ns gr isPublic rest m := by
  rw [scanSubsets, ← scanLimits_fst ns gr isPublic l.limits b]
  cases scanLimits ns gr isPublic l.limits b with
  | mk found m => cases found <;> rfl

/-- The outer loop finds the first subset with a rule that takes `ns`. -/
theorem scanSubsets_fst (subsetLimits : List InternalSubsetLimit) (b : Bool) :
    (scanSubsets ns gr isPublic subsetLimits b).1 =
      (subsetLimits.find? (·.limits.any (takes gr isPublic ns))).map (·.subset) := by
  induction subsetLimits generalizing b with
  | nil => rfl
  | cons l rest ih =>
    rw [scanSubsets_cons, List.find?_cons]
    cases hl : l.limits.any (takes gr isPublic ns) with
    | true => rfl
    | false => exact ih _

/-- If there is none, it has noted whether a rule is restricted to `gr`. -/
theorem scanSubsets_snd {subsetLimits : List InternalSubsetLimit} (b : Bool)
    (h : subsetLimits.find? (·.limits.any (takes gr isPublic ns)) = none) :
    (scanSubsets ns gr isPublic subsetLimits b).2 =
      (b || subsetLimits.any (·.limits.any (restricts gr))) := by
  induction subsetLimits generalizing b with
  | nil => simp [scanSubsets]
  | cons l rest ih =>
    rw [List.find?_cons] at h
    cases hl : l.limits.any (takes gr isPublic ns) with
    | true => simp [hl] at h
    | false =>
      rw [hl] at h
      rw [scanSubsets_cons, hl, List.any_cons, ← Bool.or_assoc, ← scanLimits_snd ns gr isPublic b hl]
      exact ih _ h

/-- What `determineNamespaceSubset` can return, without its loops. -/
inductive Determined (ir : InternalRoute) (ns : String) (gr : GroupResource) : Option String → Prop
  | denied (hg : ir.globalLimits.any (globalLimitDenies ns gr) = true) : Determined ir ns gr none
  | found (hg : ¬ir.globalLimits.any (globalLimitDenies ns gr) = true) (l : InternalSubsetLimit)
      (hl : ir.subsetLimits.find? (·.limits.any (takes gr
        (isGRMatchedAPIResources gr ir.subsetPublicResources) ns)) = some l) :
      Determined ir ns gr (some l.subset)
  | shared (hg : ¬ir.globalLimits.any (globalLimitDenies ns gr) = true)
      (hl : ir.subsetLimits.find? (·.limits.any (takes gr
        (isGRMatchedAPIResources gr ir.subsetPublicResources) ns)) = none)
      (hpub : isGRMatchedAPIResources gr ir.subsetPublicResources = true)
      (happ : ¬ir.subsetLimits.any (·.limits.any (applies gr
        (isGRMatchedAPIResources gr ir.subsetPublicResources))) = true) :
      Determined ir ns gr (some AllSubsetPublic)
  | unmatched (hg : ¬ir.globalLimits.any (globalLimitDenies ns gr) = true)
      (hl : ir.subsetLimits.find? (·.limits.any (takes gr
        (isGRMatchedAPIResources gr ir.subsetPublicResources) ns)) = none)
      (hpub : isGRMatchedAPIResources gr ir.subsetPublicResources = true →
        ir.subsetLimits.any (·.limits.any (applies gr
          (isGRMatchedAPIResources gr ir.subsetPublicResources))) = true) :
      Determined ir ns gr none

theorem determined {ns : String} (ir : InternalRoute) (gr : GroupResource) (hns : ns ≠ "") :
    Determined ir ns gr (ir.determineNamespaceSubset ns gr) := by
  rw [determineNamespaceSubset, if_neg hns]
  split_ifs with hg
  · exact .denied hg
  · have hfst := scanSubsets_fst ns gr (isGRMatchedAPIResources gr ir.subsetPublicResources)
      ir.subsetLimits false
    have hsnd := fun hl => scanSubsets_snd ns gr
      (isGRMatchedAPIResources gr ir.subsetPublicResources) false
      (show ir.subsetLimits.find? _ = none from hl)
    dsimp only
    split
    next subset m hs =>
      rw [hs, eq_comm, Option.map_eq_some_iff] at hfst
      obtain ⟨l, hl, rfl⟩ := hfst
      exact .found hg l hl
    next m hs =>
      rw [hs, eq_comm, Option.map_eq_none_iff] at hfst
      have hm := hsnd hfst
      rw [hs, Bool.false_or] at hm
      subst hm
      -- Of a public resource, the rules that apply are those restricted to it.
      have happ (hpub : isGRMatchedAPIResources gr ir.subsetPublicResources = true) :
          restricts gr = applies gr (isGRMatchedAPIResources gr ir.subsetPublicResources) := by
        rw [hpub, applies_public]
      split_ifs with hpub
      · rw [Bool.and_eq_true, Bool.not_eq_true', ← Bool.not_eq_true] at hpub
        exact .shared hg hfst hpub.1 (happ hpub.1 ▸ hpub.2)
      · refine .unmatched hg hfst fun hp => ?_
        rw [Bool.and_eq_true, Bool.not_eq_true', ← Bool.not_eq_true, not_and_not_right] at hpub
        exact happ hp ▸ hpub hp

end InternalRoute

/-! ## The server's rules -/

theorem LabelSelector.dumpJSON_ne_empty (sel : LabelSelector) :
    LabelSelector.dumpJSON (some sel) ≠ "" := by
  intro h
  have hl := congrArg String.toList h
  simp [LabelSelector.dumpJSON, LabelSelector.jsonCodec, Json.render] at hl

section

variable (lib : Lib) (namespaces : List Namespace)

/-- The include rule of a selector by namespaces, as the proxy holds it. -/
def includeRule (ms : MatchLimitSelector) : InternalMatchLimitRule :=
  { namespaces := .ofItems ((namespaces.filter (isNamespaceMatched lib ms)).map (·.name))
    objectSelector := none
    resources := generateAPIResources (ms.resources.getD []) }

/-- Its exclude rule. -/
def excludeRule (ms : MatchLimitSelector) : InternalMatchLimitRule :=
  { namespaces := .ofItems ((namespaces.filter (!isNamespaceMatched lib ms ·)).map (·.name))
    objectSelector := none
    resources := generateAPIResources (ms.resources.getD []) }

variable (unmarshal : String → LabelSelector)

/-- Of the include rules, those that a loop over rules by namespaces looks at
are the rules of the selectors by namespaces. -/
theorem any_includeRules {p : InternalMatchLimitRule → Bool}
    (hp : ∀ r : InternalMatchLimitRule, r.objectSelector.isSome = true → p r = false)
    (limits : List MatchLimitSelector) :
    (convertProtoMatchLimitRuleToInternal unmarshal
        (generateMatchLimitRules lib namespaces limits).1).any p = true ↔
      ∃ ms ∈ limits, ms.ByNamespace ∧ p (includeRule lib namespaces ms) = true := by
  rw [convertProtoMatchLimitRuleToInternal, generateMatchLimitRules, List.any_map, List.any_flatMap,
    List.any_eq_true]
  refine exists_congr fun ms => and_congr_right fun _ => ?_
  rw [generateMatchLimitRule, MatchLimitSelector.ByNamespace, ← Bool.or_eq_true]
  cases hns : ms.namespaceSelector.isSome || ms.namespaceRegex.isSome with
  | true => simp [convertProtoMatchLimitRule, includeRule]
  | false =>
    cases hos : ms.objectSelector with
    | none => simp
    | some sel =>
      simp [convertProtoMatchLimitRule, LabelSelector.dumpJSON_ne_empty, hp]

theorem any_excludeRules (p : InternalMatchLimitRule → Bool) (limits : List MatchLimitSelector) :
    (convertProtoMatchLimitRuleToInternal unmarshal
        (generateMatchLimitRules lib namespaces limits).2).any p = true ↔
      ∃ ms ∈ limits, ms.ByNamespace ∧ p (excludeRule lib namespaces ms) = true := by
  rw [convertProtoMatchLimitRuleToInternal, generateMatchLimitRules, List.any_map, List.any_flatMap,
    List.any_eq_true]
  refine exists_congr fun ms => and_congr_right fun _ => ?_
  rw [generateMatchLimitRule, MatchLimitSelector.ByNamespace, ← Bool.or_eq_true]
  cases hns : ms.namespaceSelector.isSome || ms.namespaceRegex.isSome with
  | true => simp [convertProtoMatchLimitRule, excludeRule]
  | false => cases hos : ms.objectSelector <;> simp

end

open InternalMatchLimitRule InternalRoute

section

variable {lib : Lib} {namespaces : List Namespace} {name : String} {ms : MatchLimitSelector}

theorem mem_includeRule :
    name ∈ (includeRule lib namespaces ms).namespaces ↔ ms.Listed lib namespaces name := by
  simp [includeRule, MatchLimitSelector.Listed, and_comm, and_assoc]

theorem mem_excludeRule :
    name ∈ (excludeRule lib namespaces ms).namespaces ↔ ms.Unlisted lib namespaces name := by
  simp [excludeRule, MatchLimitSelector.Unlisted, and_comm, and_assoc]

/-- A rule by namespaces applies where the selector it was made from does. -/
theorem applies_eq_true {gr : GroupResource} {isPublic : Bool} {r : InternalMatchLimitRule}
    (hobj : r.objectSelector = none)
    (hres : r.resources = generateAPIResources (ms.resources.getD [])) :
    r.applies gr isPublic = true ↔ ms.MatchesResource gr ∨ ms.AllResources ∧ ¬isPublic = true := by
  simp [applies, hobj, hres, MatchLimitSelector.MatchesResource, MatchLimitSelector.AllResources,
    generateAPIResources]

theorem takes_includeRule {gr : GroupResource} {isPublic : Bool} :
    (includeRule lib namespaces ms).takes gr isPublic name = true ↔
      (ms.MatchesResource gr ∨ ms.AllResources ∧ ¬isPublic = true) ∧
        ms.Listed lib namespaces name := by
  rw [takes, Bool.and_eq_true, applies_eq_true rfl rfl, Std.ExtTreeSet.contains_iff_mem,
    mem_includeRule]

theorem takes_excludeRule {gr : GroupResource} {isPublic : Bool} :
    (excludeRule lib namespaces ms).takes gr isPublic name = true ↔
      (ms.MatchesResource gr ∨ ms.AllResources ∧ ¬isPublic = true) ∧
        ms.Unlisted lib namespaces name := by
  rw [takes, Bool.and_eq_true, applies_eq_true rfl rfl, Std.ExtTreeSet.contains_iff_mem,
    mem_excludeRule]

/-- A global limit denies what it is for and does not list. -/
theorem globalLimitDenies_includeRule {gr : GroupResource} :
    globalLimitDenies name gr (includeRule lib namespaces ms) = true ↔
      (ms.AllResources ∨ ms.MatchesResource gr) ∧ ¬ms.Listed lib namespaces name := by
  have hlist : (!(includeRule lib namespaces ms).namespaces.contains name) = true ↔
      ¬ms.Listed lib namespaces name := by
    rw [Bool.not_eq_true', ← Bool.not_eq_true, Std.ExtTreeSet.contains_iff_mem, mem_includeRule]
  rw [globalLimitDenies, ← hlist, MatchLimitSelector.AllResources,
    MatchLimitSelector.MatchesResource]
  cases hres : ms.resources.getD [] with
  | nil => simp [includeRule, generateAPIResources, hres]
  | cons a l => simp [includeRule, generateAPIResources, hres]

end

/-! ## The owner -/

namespace VirtualApp

/-- What the proxy holds as `isResourceMatchPublic`. -/
abbrev isPublic (vApp : VirtualApp) (gr : GroupResource) : Bool :=
  isGRMatchedAPIResources gr (generateAPIResources (vApp.route.getD {}).subsetPublicResources)

variable {vApp : VirtualApp} (h : vApp.Accepted) (lib : Lib) (namespaces : List Namespace)
  (unmarshal : String → LabelSelector) (name : String) (gr : GroupResource)

variable (vApp) in
/-- The rules of a declared subset, as the proxy holds them. -/
abbrev includeRules (s : VirtualAppSubset) : List InternalMatchLimitRule :=
  convertProtoMatchLimitRuleToInternal unmarshal
    (generateMatchLimitRules lib namespaces (vApp.subsetLimits s)).1

variable (vApp) in
/-- What a declared subset adds to the rules of the default one. -/
abbrev excludeRules (s : VirtualAppSubset) : List InternalMatchLimitRule :=
  convertProtoMatchLimitRuleToInternal unmarshal
    (generateMatchLimitRules lib namespaces (vApp.subsetLimits s)).2

namespace Accepted

include h

theorem any_takes_includeRules (s : VirtualAppSubset) :
    (vApp.includeRules lib namespaces unmarshal s).any (takes gr (vApp.isPublic gr) name) = true ↔
      vApp.Takes gr (·.Listed lib namespaces name) s := by
  rw [any_includeRules lib namespaces unmarshal (takes_of_isSome gr _ name)]
  simp only [h.mem_subsetLimits, takes_includeRule, Takes, Applies, Public, and_assoc]

theorem any_applies_includeRules (s : VirtualAppSubset) :
    (vApp.includeRules lib namespaces unmarshal s).any (applies gr (vApp.isPublic gr)) = true ↔
      vApp.HasSelector gr s := by
  rw [any_includeRules lib namespaces unmarshal (applies_of_isSome gr _)]
  simp only [h.mem_subsetLimits, applies_eq_true (r := includeRule _ _ _) rfl rfl, HasSelector,
    Applies, Public]

theorem any_takes_excludeRules (s : VirtualAppSubset) :
    (vApp.excludeRules lib namespaces unmarshal s).any (takes gr (vApp.isPublic gr) name) = true ↔
      vApp.Takes gr (·.Unlisted lib namespaces name) s := by
  rw [any_excludeRules]
  simp only [h.mem_subsetLimits, takes_excludeRule, Takes, Applies, Public, and_assoc]

theorem any_applies_excludeRules (s : VirtualAppSubset) :
    (vApp.excludeRules lib namespaces unmarshal s).any (applies gr (vApp.isPublic gr)) = true ↔
      vApp.HasSelector gr s := by
  rw [any_excludeRules]
  simp only [h.mem_subsetLimits, applies_eq_true (r := excludeRule _ _ _) rfl rfl, HasSelector,
    Applies, Public]

end Accepted

theorem any_globalLimitDenies (vApp : VirtualApp) :
    (convertProtoMatchLimitRuleToInternal unmarshal
        (generateMatchLimitRules lib namespaces (vApp.route.getD {}).globalLimits).1).any
          (globalLimitDenies name gr) = true ↔
      ¬vApp.Admits gr (·.Listed lib namespaces name) := by
  rw [any_includeRules lib namespaces unmarshal (by simp +contextual [globalLimitDenies])]
  simp only [globalLimitDenies_includeRule, Admits, MatchLimitSelector.GlobalApplies, not_forall,
    exists_prop, and_assoc]

variable (vApp) in
/-- The rules of all subsets, as the proxy holds them: the declared subsets come
first, then the default one. -/
abbrev allLimits : List InternalSubsetLimit :=
  vApp.subsets.map (fun s => ⟨s.name, vApp.includeRules lib namespaces unmarshal s⟩) ++
    [⟨"", vApp.subsets.flatMap (vApp.excludeRules lib namespaces unmarshal)⟩]

theorem subsetLimits_convert (vApp : VirtualApp) (subset : String) :
    (convertProtoRouteToInternal unmarshal
        { generateProtoRoute lib vApp namespaces with subset := subset }).subsetLimits =
      vApp.allLimits lib namespaces unmarshal := by
  simp only [convertProtoRouteToInternal, generateProtoRoute, convertProtoMatchLimitRuleToInternal,
    List.map_append, List.map_map, List.map_cons, List.map_nil, List.map_flatMap]
  rfl

namespace Accepted

include h

/-- No declared subset takes what the proxy finds in none of them. -/
theorem not_takes_of_find? (hfind : (vApp.subsets.map fun s => (⟨s.name,
      vApp.includeRules lib namespaces unmarshal s⟩ : InternalSubsetLimit)).find?
        (·.limits.any (takes gr (vApp.isPublic gr) name)) = none) :
    ∀ s ∈ vApp.subsets, ¬vApp.Takes gr (·.Listed lib namespaces name) s := by
  intro s hs htake
  rw [List.find?_map, Option.map_eq_none_iff, List.find?_eq_none] at hfind
  exact hfind s hs ((h.any_takes_includeRules lib namespaces unmarshal name gr s).mpr htake)

/-- The rules of the default subset take what a declared subset's selector does
not match. -/
theorem any_takes_allExcludeRules :
    (vApp.subsets.flatMap (vApp.excludeRules lib namespaces unmarshal)).any
        (takes gr (vApp.isPublic gr) name) = true ↔
      ∃ s ∈ vApp.subsets, vApp.Takes gr (·.Unlisted lib namespaces name) s := by
  rw [List.any_flatMap, List.any_eq_true]
  exact exists_congr fun s => and_congr_right fun _ =>
    h.any_takes_excludeRules lib namespaces unmarshal name gr s

theorem find?_allLimits_eq_some {l : InternalSubsetLimit}
    (hl : (vApp.allLimits lib namespaces unmarshal).find?
      (·.limits.any (takes gr (vApp.isPublic gr) name)) = some l) :
    (∃ s, vApp.FirstTakes gr (·.Listed lib namespaces name) s ∧ l.subset = s.name) ∨
      (∀ s ∈ vApp.subsets, ¬vApp.Takes gr (·.Listed lib namespaces name) s) ∧
        (∃ s ∈ vApp.subsets, vApp.Takes gr (·.Unlisted lib namespaces name) s) ∧ l.subset = "" := by
  have hinc := h.any_takes_includeRules lib namespaces unmarshal name gr
  rw [List.find?_append, Option.or_eq_some_iff] at hl
  rcases hl with hl | ⟨hnone, hl⟩
  · rw [List.find?_map, Option.map_eq_some_iff] at hl
    obtain ⟨s, hs, rfl⟩ := hl
    obtain ⟨htake, before, after, hsplit, hbefore⟩ := List.find?_eq_some_iff_append.mp hs
    refine .inl ⟨s, ⟨before, after, hsplit, (hinc s).mp htake, fun t ht htake' => ?_⟩, rfl⟩
    exact (Bool.eq_false_iff.mp ((Bool.not_eq_true' _).mp (hbefore t ht))) ((hinc t).mpr htake')
  · obtain ⟨htake, rfl⟩ : (vApp.subsets.flatMap (vApp.excludeRules lib namespaces unmarshal)).any
        (takes gr (vApp.isPublic gr) name) = true ∧ _ = l := by
      simpa using hl
    exact .inr ⟨h.not_takes_of_find? lib namespaces unmarshal name gr hnone,
      (h.any_takes_allExcludeRules lib namespaces unmarshal name gr).mp htake, rfl⟩

theorem find?_allLimits_eq_none
    (hl : (vApp.allLimits lib namespaces unmarshal).find?
      (·.limits.any (takes gr (vApp.isPublic gr) name)) = none) :
    (∀ s ∈ vApp.subsets, ¬vApp.Takes gr (·.Listed lib namespaces name) s) ∧
      ∀ s ∈ vApp.subsets, ¬vApp.Takes gr (·.Unlisted lib namespaces name) s := by
  rw [List.find?_append, Option.or_eq_none_iff] at hl
  refine ⟨h.not_takes_of_find? lib namespaces unmarshal name gr hl.1, fun s hs htake => ?_⟩
  have hexc := (h.any_takes_allExcludeRules lib namespaces unmarshal name gr).mpr ⟨s, hs, htake⟩
  exact List.find?_eq_none.mp hl.2 _ List.mem_cons_self hexc

theorem any_applies_allLimits :
    (vApp.allLimits lib namespaces unmarshal).any (·.limits.any (applies gr (vApp.isPublic gr))) =
        true ↔
      ∃ s ∈ vApp.subsets, vApp.HasSelector gr s := by
  have hinc := h.any_applies_includeRules lib namespaces unmarshal gr
  have hexc := h.any_applies_excludeRules lib namespaces unmarshal gr
  rw [List.any_append, List.any_map, List.any_cons, List.any_nil, Bool.or_false, List.any_flatMap,
    Bool.or_eq_true, List.any_eq_true, List.any_eq_true]
  constructor
  · rintro (⟨s, hs, happ⟩ | ⟨s, hs, happ⟩)
    · exact ⟨s, hs, (hinc s).mp happ⟩
    · exact ⟨s, hs, (hexc s).mp happ⟩
  · intro ⟨s, hs, hsel⟩
    exact .inl ⟨s, hs, (hinc s).mpr hsel⟩

/-- The subset that the proxy determines from a generated route owns the
namespaces of this name by the VirtualApp's rules. -/
theorem ownedBy (hname : name ≠ "") (subset : String) :
    vApp.OwnedBy gr (·.Listed lib namespaces name) (·.Unlisted lib namespaces name)
      ((convertProtoRouteToInternal unmarshal
        { generateProtoRoute lib vApp namespaces with subset := subset }).determineNamespaceSubset
          name gr) := by
  have hglobal := any_globalLimitDenies lib namespaces unmarshal name gr vApp
  have happ := h.any_applies_allLimits lib namespaces unmarshal gr
  have hdet := determined (convertProtoRouteToInternal unmarshal
    { generateProtoRoute lib vApp namespaces with subset := subset }) gr hname
  have hlimits := subsetLimits_convert lib namespaces unmarshal vApp subset
  revert hdet
  generalize InternalRoute.determineNamespaceSubset _ name gr = owner
  intro hdet
  cases hdet with
  | denied hg => exact .limited (hglobal.mp hg)
  | found hg l hl =>
    have hadm := not_not.mp fun hn => hg (hglobal.mpr hn)
    rw [hlimits] at hl
    rcases h.find?_allLimits_eq_some lib namespaces unmarshal name gr hl with
      ⟨s, hs, hname⟩ | ⟨hP, hQ, hname⟩
    · exact hname ▸ .declared hadm s hs
    · exact hname ▸ .leftover hadm hP hQ
  | shared hg hl hpub hno =>
    have hadm := not_not.mp fun hn => hg (hglobal.mpr hn)
    rw [hlimits] at hno
    exact .shared hadm hpub fun s hs hsel => hno (happ.mpr ⟨s, hs, hsel⟩)
  | unmatched hg hl hpub =>
    have hadm := not_not.mp fun hn => hg (hglobal.mpr hn)
    rw [hlimits] at hl hpub
    obtain ⟨hP, hQ⟩ := h.find?_allLimits_eq_none lib namespaces unmarshal name gr hl
    exact .nobody hadm hP hQ fun hp => happ.mp (hpub hp)

end Accepted

end VirtualApp

end CtrlMesh
