import ControllerMesh.Proof.Owners
import ControllerMesh.Proof.SelectorAlgebra
import ControllerMesh.Spec.Validity

/-!
# What validation accepts

`validate` accepts what `VirtualApp.ValidWith` describes, and follows the
configuration without asking whether there is one.

* `validate_eq_ok_iff`: what is accepted. Of the resources of an object selector
  only that the slice is not nil is asked.
* `validate_eq_nilPointer_iff`: what makes it panic;
* `validate_exact_iff`: it returns, and accepts exactly the valid VirtualApps, if
  and only if a valid pod selector comes with a configuration and no object
  selector comes with an empty slice of resources.
-/

namespace CtrlMesh

open Framework

section

variable {lib : Lib}

/-! ## Acceptance -/

theorem validateMatchLimitKind_eq_ok {m : MatchLimitSelector} :
    validateMatchLimitKind lib m = .ok () ↔
      (∃ sel, m.namespaceSelector = some sel ∧ lib.SelectorWellFormed sel) ∨
        m.namespaceSelector = none ∧
          ((∃ text, m.namespaceRegex = some text ∧ lib.RegexWellFormed text) ∨
            m.namespaceRegex = none ∧
              ∃ sel, m.objectSelector = some sel ∧ lib.SelectorWellFormed sel) := by
  obtain ⟨namespaceSelector, objectSelector, namespaceRegex, resources⟩ := m
  cases namespaceSelector with
  | some sel =>
    cases h : lib.labelSelectorAsSelector (some sel) <;>
      simp [validateMatchLimitKind, invalid, Lib.SelectorWellFormed, h]
  | none =>
    cases namespaceRegex with
    | some text =>
      cases h : lib.regexpCompile text <;>
        simp [validateMatchLimitKind, invalid, Lib.RegexWellFormed, h]
    | none =>
      cases objectSelector with
      | some sel =>
        cases h : lib.labelSelectorAsSelector (some sel) <;>
          simp [validateMatchLimitKind, invalid, Lib.SelectorWellFormed, h]
      | none => simp [validateMatchLimitKind, invalid]

theorem validateMatchLimitSelector_eq_ok {m : MatchLimitSelector} :
    validateMatchLimitSelector lib m = .ok () ↔
      m.WellFormed lib ∧ (m.objectSelector ≠ none → m.resources ≠ none) := by
  rw [validateMatchLimitSelector, seq_eq_ok, ite_invalid_eq_ok, ite_invalid_eq_ok,
    validateMatchLimitKind_eq_ok, MatchLimitSelector.wellFormed_iff]
  obtain ⟨namespaceSelector, objectSelector, namespaceRegex, resources⟩ := m
  cases namespaceSelector <;> cases namespaceRegex <;> cases objectSelector <;> simp

theorem validateSelector_eq_ok (hlib : lib.BuildsSelectors) {obj : VirtualApp} :
    validateSelector lib obj.selector = .ok () ↔ obj.SelectorValid lib := by
  unfold validateSelector VirtualApp.SelectorValid Lib.SelectorWellFormed
  cases obj.selector with
  | none => simp [hlib.nil, Selector.isEmpty, Selector.isStringEmpty, invalid]
  | some sel =>
    cases h : lib.labelSelectorAsSelector (some sel) with
    | error e => simp [invalid, h]
    | ok selector =>
      obtain ⟨rs, rfl, hrs⟩ := hlib.build h
      simp only [Selector.isEmpty, Selector.isStringEmpty, Bool.or_self, Option.some.injEq,
        exists_eq_left', h, Except.ok.injEq, ← hrs]
      cases rs <;> simp [invalid]

theorem validateConfiguration_eq_ok {conf : VirtualAppConfiguration} {hasSubsets : Bool} :
    validateConfiguration conf hasSubsets = .ok () ↔
      (hasSubsets = true → conf.controller ≠ none ∨ conf.webhook ≠ none) ∧
        VirtualApp.ConfigurationValid conf := by
  simp only [validateConfiguration, ite_invalid_eq_ok, VirtualApp.configurationValid_iff]
  obtain ⟨controller, webhook⟩ := conf
  cases controller <;> cases webhook <;> simp

theorem VirtualApp.forall_mem_selectors {obj : VirtualApp} {P : MatchLimitSelector → Prop} :
    (∀ m ∈ obj.selectors, P m) ↔
      (∀ m ∈ (obj.route.getD {}).globalLimits, P m) ∧
        ∀ r ∈ obj.subRules, ∀ m ∈ r.matchLimits, P m := by
  simp only [selectors, List.forall_mem_append, List.mem_flatMap, forall_exists_index, and_imp,
    subRules]
  exact and_congr_right fun _ => ⟨fun h r hr m hm => h m r hr hm, fun h m r hr hm => h r hr m hm⟩

/-- What `validate` accepts. -/
theorem validate_eq_ok_iff (hlib : lib.BuildsSelectors) {obj : VirtualApp} :
    validate lib obj = .ok () ↔
      obj.configuration ≠ none ∧ obj.ValidWith lib (· ≠ none) := by
  rw [validate_eq_ok, validateSelector_eq_ok hlib]
  constructor
  · rintro ⟨hselector, conf, hconf, hvalid, names, hroute, hsubsets⟩
    obtain ⟨hconfigured, hvalid⟩ := validateConfiguration_eq_ok.mp hvalid
    obtain ⟨hglobal, hrules, hrule_names, rfl⟩ := validateRoute_eq_ok.mp hroute
    obtain ⟨hself, hnames, huses_mem, huses⟩ := validateSubsets_eq_ok.mp hsubsets
    refine ⟨by simp [hconf], ⟨hselector, ?_, ?_, ?_, ?_, hrule_names, hself, hnames.1, huses.1, ?_⟩⟩
    · intro hne
      exact ⟨conf, hconf, hconfigured (by simpa using hne)⟩
    · intro conf' hconf'
      rw [hconf] at hconf'
      exact Option.some.inj hconf' ▸ hvalid
    · simp only [← validateMatchLimitSelector_eq_ok]
      exact VirtualApp.forall_mem_selectors.mpr ⟨hglobal, fun r hr => (hrules r hr).2.2⟩
    · exact fun r hr => ⟨(hrules r hr).1, (hrules r hr).2.1⟩
    · exact fun name hname => StringSet.mem_ofItems.mp (huses_mem name hname)
  · rintro ⟨hne, h⟩
    obtain ⟨conf, hconf⟩ := Option.ne_none_iff_exists'.mp hne
    have hlimits := h.limits
    simp only [← validateMatchLimitSelector_eq_ok] at hlimits
    obtain ⟨hglobal, hrules⟩ := VirtualApp.forall_mem_selectors.mp hlimits
    refine ⟨h.selector, conf, hconf, ?_, StringSet.ofItems (obj.subRules.map (·.name)), ?_, ?_⟩
    · refine validateConfiguration_eq_ok.mpr ⟨fun hsubsets => ?_, h.configuration conf hconf⟩
      obtain ⟨conf', hconf', hset⟩ := h.configured (by simpa using hsubsets)
      rw [hconf] at hconf'
      exact Option.some.inj hconf' ▸ hset
    · refine validateRoute_eq_ok.mpr ⟨hglobal, fun r hr => ?_, h.rule_names, rfl⟩
      exact ⟨(h.rules r hr).1, (h.rules r hr).2, hrules r hr⟩
    · refine validateSubsets_eq_ok.mpr ⟨h.subsets, ?_, ?_, ?_⟩
      · exact StringSet.fresh_empty.mpr h.subset_names
      · exact fun name hname => StringSet.mem_ofItems.mpr (h.uses_mem name hname)
      · exact StringSet.fresh_empty.mpr h.uses

/-! ## Panics -/

/-- A check that does not panic. -/
def Returns {α : Type} (x : Validate α) : Prop := x ≠ .error .nilPointer

theorem returns_ok {α : Type} (a : α) : Returns (.ok a) := by simp [Returns]

theorem returns_invalid {α : Type} (msg : String) : Returns (invalid msg : Validate α) := by
  simp [Returns, invalid]

theorem Returns.ite {α : Type} {p : Prop} [Decidable p] {x y : Validate α} (hx : Returns x)
    (hy : Returns y) : Returns (if p then x else y) := by
  split_ifs
  · exact hx
  · exact hy

theorem Returns.error {α β : Type} {e : ValidateFailure} (h : Returns (.error e : Validate α)) :
    Returns (.error e : Validate β) := by
  simpa [Returns] using h

theorem Returns.bind {α β : Type} {x : Validate α} {f : α → Validate β} (hx : Returns x)
    (hf : ∀ a, Returns (f a)) : Returns (x >>= f) := by
  cases x with
  | error e => exact hx.error
  | ok a => exact hf a

theorem validateMatchLimitKind_returns (m : MatchLimitSelector) :
    Returns (validateMatchLimitKind lib m) := by
  unfold validateMatchLimitKind
  split
  · split
    · exact returns_invalid _
    · exact returns_ok _
  · split
    · exact returns_invalid _
    · exact returns_ok _
  · split
    · exact returns_invalid _
    · exact returns_ok _
  · exact returns_invalid _

theorem validateMatchLimitSelector_returns (m : MatchLimitSelector) :
    Returns (validateMatchLimitSelector lib m) :=
  (validateMatchLimitKind_returns m).bind fun _ =>
    (returns_invalid _).ite ((returns_invalid _).ite (returns_ok _))

theorem validateMatchLimits_returns (suffix : String) (ms : List MatchLimitSelector) :
    Returns (validateMatchLimits lib suffix ms) := by
  induction ms with
  | nil => exact returns_ok _
  | cons m ms ih =>
    have hm : Returns (validateMatchLimitSelector lib m) := validateMatchLimitSelector_returns m
    rw [validateMatchLimits]
    cases h : validateMatchLimitSelector lib m with
    | error e =>
      cases e with
      | error msg => exact returns_invalid _
      | nilPointer => exact absurd h hm
    | ok _ => exact ih

theorem validateSubRules_returns (rs : List VirtualAppRouteSubRule) (seen : StringSet) :
    Returns (validateSubRules lib rs seen) := by
  induction rs generalizing seen with
  | nil => exact returns_ok _
  | cons r rs ih =>
    refine (returns_invalid _).ite ((returns_invalid _).ite ((returns_invalid _).ite ?_))
    have hmatch : Returns (validateMatchLimits lib (" in subRule " ++ r.name) r.matchLimits) :=
      validateMatchLimits_returns _ _
    cases h : validateMatchLimits lib (" in subRule " ++ r.name) r.matchLimits with
    | error e => exact (h ▸ hmatch).error
    | ok _ => exact ih _

theorem validateRouteRules_returns (subset : String) (subRules : StringSet) (names : List String)
    (used : StringSet) : Returns (validateRouteRules subset subRules names used) := by
  induction names generalizing used with
  | nil => exact returns_ok _
  | cons name names ih => exact (returns_invalid _).ite ((returns_invalid _).ite (ih _))

theorem validateSubsets_returns (subRules : StringSet) (ss : List VirtualAppSubset)
    (seen used : StringSet) : Returns (validateSubsets subRules ss seen used) := by
  induction ss generalizing seen used with
  | nil => exact returns_ok _
  | cons s ss ih =>
    refine (returns_invalid _).ite ((returns_invalid _).ite ((returns_invalid _).ite
      ((returns_invalid _).ite ?_)))
    have huses := validateRouteRules_returns s.name subRules s.routeRules used
    cases h : validateRouteRules s.name subRules s.routeRules used with
    | error e => exact (h ▸ huses).error
    | ok _ => exact ih _ _

theorem validateRoute_returns (route : Option VirtualAppRoute) : Returns (validateRoute lib route) := by
  cases route with
  | none => exact returns_ok _
  | some route =>
    exact (validateMatchLimits_returns _ _).bind fun _ => validateSubRules_returns _ _

theorem validateConfiguration_returns (conf : VirtualAppConfiguration) (hasSubsets : Bool) :
    Returns (validateConfiguration conf hasSubsets) :=
  (returns_invalid _).ite ((returns_invalid _).ite ((returns_invalid _).ite
    ((returns_invalid _).ite (returns_ok _))))

theorem validateSelector_returns (selector : Option LabelSelector) :
    Returns (validateSelector lib selector) := by
  unfold validateSelector
  cases lib.labelSelectorAsSelector selector with
  | error e => exact returns_invalid _
  | ok s => exact (returns_invalid _).ite (returns_ok _)

/-- What makes `validate` panic. -/
theorem validate_eq_nilPointer_iff (hlib : lib.BuildsSelectors) {obj : VirtualApp} :
    validate lib obj = .error .nilPointer ↔ obj.SelectorValid lib ∧ obj.configuration = none := by
  rw [← validateSelector_eq_ok hlib]
  cases hconf : obj.configuration with
  | none =>
    have hsel : Returns (validateSelector lib obj.selector) := validateSelector_returns _
    unfold validate
    rw [hconf]
    cases h : validateSelector lib obj.selector with
    | error e =>
      rw [h] at hsel
      simpa [bind, Except.bind, Returns] using hsel
    | ok _ => simp [bind, Except.bind]
  | some conf =>
    have hreturns : Returns (validate lib obj) := by
      unfold validate
      rw [hconf]
      exact (validateSelector_returns _).bind fun _ =>
        (validateConfiguration_returns _ _).bind fun _ =>
          (validateRoute_returns _).bind fun _ => validateSubsets_returns _ _ _ _
    simpa [Returns] using hreturns

/-! ## Exactness -/

theorem hasResources_iff {resources : Option (List APIGroupResource)} :
    HasResources resources ↔ resources ≠ none ∧ resources ≠ some [] := by
  cases resources <;> simp [HasResources]

theorem VirtualApp.valid_iff {obj : VirtualApp} :
    obj.Valid lib ↔ obj.ValidWith lib (· ≠ none) ∧
      ¬∃ m ∈ obj.selectors, m.objectSelector ≠ none ∧ m.resources = some [] := by
  constructor
  · intro h
    refine ⟨{ h with limits := fun m hm => ?_ }, ?_⟩
    · exact ⟨(h.limits m hm).1, fun hobj => (hasResources_iff.mp ((h.limits m hm).2 hobj)).1⟩
    · rintro ⟨m, hm, hobj, hempty⟩
      exact (hasResources_iff.mp ((h.limits m hm).2 hobj)).2 hempty
  · rintro ⟨h, hempty⟩
    refine { h with limits := fun m hm => ?_ }
    refine ⟨(h.limits m hm).1, fun hobj => hasResources_iff.mpr ⟨(h.limits m hm).2 hobj, ?_⟩⟩
    exact fun hres => hempty ⟨m, hm, hobj, hres⟩

end

/-- `validate` returns, and accepts the VirtualApp if it is valid and only then. -/
structure ValidatesExactly (lib : Lib) (obj : VirtualApp) : Prop where
  returns : validate lib obj ≠ .error .nilPointer
  accepts : validate lib obj = .ok () ↔ obj.Valid lib

/-- Validation is total and exact at a VirtualApp if and only if, where its pod selector
is valid, it has a configuration, and it is not one that is valid but for an object
selector with an empty slice of resources. -/
theorem validate_exact_iff {lib : Lib} (hlib : lib.BuildsSelectors) (obj : VirtualApp) :
    ValidatesExactly lib obj ↔
      (obj.SelectorValid lib → obj.configuration ≠ none) ∧
        ¬(obj.ValidWith lib (· ≠ none) ∧
          ∃ m ∈ obj.selectors, m.objectSelector ≠ none ∧ m.resources = some []) := by
  have hpanics : validate lib obj = .error .nilPointer ↔ _ := validate_eq_nilPointer_iff hlib
  have haccepts : validate lib obj = .ok () ↔ _ := validate_eq_ok_iff hlib
  have hvalid : obj.Valid lib ↔ _ := VirtualApp.valid_iff
  have hselector (h : obj.ValidWith lib (· ≠ none)) : obj.SelectorValid lib := h.selector
  constructor
  · rintro ⟨hreturns, hiff⟩
    rw [haccepts, hvalid] at hiff
    refine ⟨fun hs hc => hreturns (hpanics.mpr ⟨hs, hc⟩), fun ⟨hw, hempty⟩ => ?_⟩
    have hc : obj.configuration ≠ none := fun hc => hreturns (hpanics.mpr ⟨hselector hw, hc⟩)
    exact (hiff.mp ⟨hc, hw⟩).2 hempty
  · rintro ⟨hc, hempty⟩
    refine ⟨fun h => hc (hpanics.mp h).1 (hpanics.mp h).2, ?_⟩
    rw [haccepts, hvalid]
    constructor
    · exact fun h => ⟨h.2, fun he => hempty ⟨h.2, he⟩⟩
    · exact fun h => ⟨hc (hselector h.1), h.1⟩

/-- The library functions with these checks of keys and values. -/
def LabelValidation.lib (lv : LabelValidation) (regexpCompile : String → Except String (String → Bool)) :
    Lib :=
  ⟨lv.labelSelectorAsSelector, regexpCompile⟩

theorem LabelValidation.buildsSelectors (lv : LabelValidation)
    (regexpCompile : String → Except String (String → Bool)) :
    (lv.lib regexpCompile).BuildsSelectors := by
  refine ⟨rfl, fun {sel selector} h => ?_⟩
  obtain ⟨rs, qs, hrs, hqs, rfl⟩ := labelSelectorAsSelector_eq_ok.mp h
  have hlabels := (mapM_eq_ok_iff.mp hrs).length_eq
  have hexprs := (mapM_eq_ok_iff.mp hqs).length_eq
  refine ⟨rs ++ qs, rfl, ?_⟩
  simp only [LabelSelector.HasRequirement, ne_eq, ← List.length_eq_zero_iff, List.length_append,
    hlabels, hexprs]
  omega

/-- Every key, value and regular expression is accepted. -/
def sampleAnyLib : Lib := sampleValidation.lib fun text => .ok (· == text)

theorem validatesExactly_sampleVApp : ValidatesExactly sampleAnyLib (sampleVApp "canary") :=
  (validate_exact_iff (sampleValidation.buildsSelectors _) (sampleVApp "canary")).mpr
    ⟨fun _ => by simp [sampleVApp], fun h => by simp [sampleVApp, VirtualApp.selectors] at h⟩

/-- Without a configuration, which is optional, validation panics; and it accepts an
object selector with an empty list of resources. -/
theorem not_validatesExactly_sampleVApp :
    validate sampleAnyLib { sampleVApp "canary" with configuration := none, subsets := [] } =
        .error .nilPointer ∧
      validate sampleAnyLib { sampleVApp "canary" with
        route := some { globalLimits := [⟨none, some (sampleSelector "app" "web"), none, some []⟩] },
        subsets := [] } = .ok () ∧
      ¬ValidatesExactly sampleAnyLib
        { sampleVApp "canary" with configuration := none, subsets := [] } ∧
      ¬ValidatesExactly sampleAnyLib { sampleVApp "canary" with
        route := some { globalLimits := [⟨none, some (sampleSelector "app" "web"), none, some []⟩] },
        subsets := [] } := by
  have hpanics : validate sampleAnyLib
      { sampleVApp "canary" with configuration := none, subsets := [] } = .error .nilPointer := by
    decide +kernel
  have haccepts : validate sampleAnyLib { sampleVApp "canary" with
      route := some { globalLimits := [⟨none, some (sampleSelector "app" "web"), none, some []⟩] },
      subsets := [] } = .ok () := by
    decide +kernel
  refine ⟨hpanics, haccepts, fun h => h.returns hpanics, fun h => ?_⟩
  have hresources := ((h.accepts.mp haccepts).limits _ List.mem_cons_self).2 (by simp)
  exact hresources rfl

end CtrlMesh
