import ControllerMesh.Impl.Route
import ControllerMesh.Spec.Ownership

/-!
# What validation gives

A VirtualApp that `validate` accepts has subsets with distinct names that are
not empty, and rules with distinct names (`VirtualApp.Accepted`,
`accepted_of_validate`). So the map that `generateProtoRoute` builds of the
rules holds each of them, and the selectors it collects for a subset are the
selectors of the subset's rules (`Accepted.mem_subsetLimits`).
-/

namespace CtrlMesh

open Framework

/-- What the names of an accepted VirtualApp satisfy. -/
structure VirtualApp.Accepted (vApp : VirtualApp) : Prop where
  rules : ((vApp.route.getD {}).subRules.map (·.name)).Nodup
  subsets : (vApp.subsets.map (·.name)).Nodup
  ne_empty : ∀ s ∈ vApp.subsets, s.name ≠ ""

/-! ## The checks -/

theorem bind_eq_ok {α β : Type} {x : Validate α} {f : α → Validate β} {b : β} :
    (x >>= f) = .ok b ↔ ∃ a, x = .ok a ∧ f a = .ok b := by
  cases x <;> simp [bind, Except.bind]

theorem seq_eq_ok {β : Type} {x : Validate Unit} {y : Validate β} {b : β} :
    (x >>= fun _ => y) = .ok b ↔ x = .ok () ∧ y = .ok b := by
  cases x <;> simp [bind, Except.bind]

theorem ite_invalid_eq_ok {α : Type} {p : Prop} [Decidable p] {msg : String} {x : Validate α} {a : α} :
    (if p then invalid msg else x) = .ok a ↔ ¬p ∧ x = .ok a := by
  split_ifs <;> simp [invalid, *]

/-- What an accepted rule satisfies by itself. -/
def VirtualAppRouteSubRule.Accepted (lib : Lib) (r : VirtualAppRouteSubRule) : Prop :=
  r.name ≠ "" ∧ r.matchLimits ≠ [] ∧ ∀ m ∈ r.matchLimits, validateMatchLimitSelector lib m = .ok ()

/-- What an accepted subset satisfies by itself. -/
def VirtualAppSubset.Accepted (s : VirtualAppSubset) : Prop :=
  s.name ≠ "" ∧ s.labels ≠ ∅ ∧ s.routeRules ≠ []

section

variable {lib : Lib}

theorem validateMatchLimits_eq_ok (suffix : String) (ms : List MatchLimitSelector) :
    validateMatchLimits lib suffix ms = .ok () ↔
      ∀ m ∈ ms, validateMatchLimitSelector lib m = .ok () := by
  induction ms with
  | nil => simp [validateMatchLimits]
  | cons m ms ih =>
    rw [validateMatchLimits, List.forall_mem_cons, ← ih]
    cases hm : validateMatchLimitSelector lib m with
    | error e => cases e <;> simp [invalid]
    | ok _ => simp

theorem validateSubRules_eq_ok {rs : List VirtualAppRouteSubRule} {seen out : StringSet} :
    validateSubRules lib rs seen = .ok out ↔
      (∀ r ∈ rs, r.Accepted lib) ∧ seen.Fresh (rs.map (·.name)) ∧
        seen.insertAll (rs.map (·.name)) = out := by
  induction rs generalizing seen with
  | nil => simp [validateSubRules, StringSet.fresh_nil, StringSet.insertAll]
  | cons r rs ih =>
    rw [validateSubRules, List.forall_mem_cons, List.map_cons, StringSet.fresh_cons]
    split_ifs with hempty hseen hmatch
    · simp [invalid, VirtualAppRouteSubRule.Accepted, hempty]
    · simp [invalid, show r.name ∈ seen by simpa using hseen]
    · simp [invalid, VirtualAppRouteSubRule.Accepted, List.isEmpty_iff.mp hmatch]
    · have hnew : r.name ∉ seen := by simpa using hseen
      have hself : r.Accepted lib ↔
          validateMatchLimits lib (" in subRule " ++ r.name) r.matchLimits = .ok () := by
        rw [validateMatchLimits_eq_ok]
        exact ⟨fun h => h.2.2, fun h => ⟨hempty, by simpa using hmatch, h⟩⟩
      rw [hself]
      cases validateMatchLimits lib (" in subRule " ++ r.name) r.matchLimits with
      | error e => simp
      | ok u =>
        rw [ih]
        simp only [hnew, not_false_eq_true, true_and]
        rfl

theorem validateRouteRules_eq_ok {subset : String} {subRules : StringSet} {names : List String}
    {used out : StringSet} :
    validateRouteRules subset subRules names used = .ok out ↔
      (∀ name ∈ names, name ∈ subRules) ∧ used.Fresh names ∧ used.insertAll names = out := by
  induction names generalizing used with
  | nil => simp [validateRouteRules, StringSet.fresh_nil, StringSet.insertAll]
  | cons name names ih =>
    rw [validateRouteRules, List.forall_mem_cons, StringSet.fresh_cons]
    split_ifs with hrule hused
    · have hout : name ∉ subRules := by
        intro hin
        rw [Std.ExtTreeSet.mem_iff_contains.mp hin] at hrule
        cases hrule
      simp [invalid, hout]
    · simp [invalid, show name ∈ used by simpa using hused]
    · have hin : name ∈ subRules := by simpa using hrule
      have hnew : name ∉ used := by simpa using hused
      rw [ih]
      simp only [hin, hnew, not_false_eq_true, true_and]
      rfl

theorem validateSubsets_eq_ok {subRules : StringSet} {ss : List VirtualAppSubset}
    {seen used : StringSet} :
    validateSubsets subRules ss seen used = .ok () ↔
      (∀ s ∈ ss, s.Accepted) ∧ seen.Fresh (ss.map (·.name)) ∧
        (∀ name ∈ ss.flatMap (·.routeRules), name ∈ subRules) ∧
          used.Fresh (ss.flatMap (·.routeRules)) := by
  induction ss generalizing seen used with
  | nil => simp [validateSubsets, StringSet.fresh_nil]
  | cons s ss ih =>
    rw [validateSubsets, List.forall_mem_cons, List.map_cons, StringSet.fresh_cons,
      List.flatMap_cons, List.forall_mem_append, StringSet.fresh_append]
    split_ifs with hempty hseen hlabels hroute
    · simp [invalid, VirtualAppSubset.Accepted, hempty]
    · simp [invalid, show s.name ∈ seen by simpa using hseen]
    · simp [invalid, VirtualAppSubset.Accepted, Std.ExtTreeMap.isEmpty_iff.mp hlabels]
    · simp [invalid, VirtualAppSubset.Accepted, List.isEmpty_iff.mp hroute]
    · have hnew : s.name ∉ seen := by simpa using hseen
      have hself : s.Accepted := ⟨hempty, by simpa using hlabels, by simpa using hroute⟩
      cases hm : validateRouteRules s.name subRules s.routeRules used with
      | error e =>
        have hbad : ¬((∀ name ∈ s.routeRules, name ∈ subRules) ∧ used.Fresh s.routeRules) := by
          intro ⟨hin, hfresh⟩
          rw [validateRouteRules_eq_ok.mpr ⟨hin, hfresh, rfl⟩] at hm
          cases hm
        simp only [reduceCtorEq, false_iff]
        exact fun h => hbad ⟨h.2.2.1.1, h.2.2.2.1⟩
      | ok out =>
        obtain ⟨hin, hfresh, rfl⟩ := validateRouteRules_eq_ok.mp hm
        rw [ih]
        simp only [hself, hnew, hfresh, not_false_eq_true, true_and]
        tauto

theorem validateRoute_eq_ok {route : Option VirtualAppRoute} {subRules : StringSet} :
    validateRoute lib route = .ok subRules ↔
      (∀ m ∈ (route.getD {}).globalLimits, validateMatchLimitSelector lib m = .ok ()) ∧
        (∀ r ∈ (route.getD {}).subRules, r.Accepted lib) ∧
          ((route.getD {}).subRules.map (·.name)).Nodup ∧
            StringSet.ofItems ((route.getD {}).subRules.map (·.name)) = subRules := by
  cases route with
  | none => simp [validateRoute, StringSet.ofItems]
  | some route =>
    rw [validateRoute, seq_eq_ok, validateMatchLimits_eq_ok, validateSubRules_eq_ok,
      StringSet.fresh_empty]
    rfl

theorem validate_eq_ok {obj : VirtualApp} :
    validate lib obj = .ok () ↔
      validateSelector lib obj.selector = .ok () ∧
        ∃ conf, obj.configuration = some conf ∧
          validateConfiguration conf (!obj.subsets.isEmpty) = .ok () ∧
            ∃ subRules, validateRoute lib obj.route = .ok subRules ∧
              validateSubsets subRules obj.subsets ∅ ∅ = .ok () := by
  rw [validate, seq_eq_ok]
  cases obj.configuration with
  | none => simp
  | some conf =>
    dsimp only
    rw [seq_eq_ok]
    simp only [bind_eq_ok, Option.some.injEq, exists_eq_left']

end

theorem accepted_of_validate {lib : Lib} {vApp : VirtualApp} (h : validate lib vApp = .ok ()) :
    vApp.Accepted := by
  obtain ⟨-, conf, -, -, subRules, hroute, hsubsets⟩ := validate_eq_ok.mp h
  obtain ⟨-, -, hrules, -⟩ := validateRoute_eq_ok.mp hroute
  obtain ⟨hself, hnames, -⟩ := validateSubsets_eq_ok.mp hsubsets
  exact ⟨hrules, hnames.1, fun s hs => (hself s hs).1⟩

/-! ## The selectors of a subset -/

/-- A later rule of the same name overwrites an earlier one; with distinct
names each rule keeps its entry. -/
theorem getElem?_foldl_insert {name : String} {ms : List MatchLimitSelector} :
    ∀ {rs : List VirtualAppRouteSubRule} {m : StringMap (List MatchLimitSelector)},
      (rs.map (·.name)).Nodup →
        ((rs.foldl (fun m r => m.insert r.name r.matchLimits) m)[name]? = some ms ↔
          (∃ r ∈ rs, r.name = name ∧ r.matchLimits = ms) ∨
            (∀ r ∈ rs, r.name ≠ name) ∧ m[name]? = some ms)
  | [], _, _ => by simp
  | r :: rs, m, hn => by
    rw [List.map_cons, List.nodup_cons, List.mem_map] at hn
    rw [List.foldl_cons, getElem?_foldl_insert hn.2, StringMap.getElem?_insert]
    by_cases hr : r.name = name
    · have hrest : ∀ r' ∈ rs, r'.name ≠ name := fun r' hr' he => hn.1 ⟨r', hr', he.trans hr.symm⟩
      simp only [hr, if_true, Option.some.injEq, List.exists_mem_cons_iff, true_and,
        List.forall_mem_cons, ne_eq, not_true_eq_false, false_and, or_false]
      constructor
      · rintro (h | ⟨-, h⟩)
        · exact .inr h
        · exact .inl h
      · rintro (h | h)
        · exact .inr ⟨hrest, h⟩
        · exact .inl h
    · simp only [if_false, List.exists_mem_cons_iff, hr, false_and, false_or,
        List.forall_mem_cons, ne_eq, not_false_eq_true, true_and]

namespace VirtualApp.Accepted

variable {vApp : VirtualApp} (h : vApp.Accepted)

include h

theorem getElem?_rulesMap {name : String} {ms : List MatchLimitSelector} :
    vApp.rulesMap[name]? = some ms ↔
      ∃ r ∈ (vApp.route.getD {}).subRules, r.name = name ∧ r.matchLimits = ms := by
  have hr := h.rules
  unfold rulesMap
  cases hroute : vApp.route with
  | none => simp
  | some route =>
    rw [hroute] at hr
    simp only [Option.getD_some] at hr ⊢
    rw [getElem?_foldl_insert hr]
    simp

/-- The selectors that `generateProtoRoute` collects for a subset are those of
its rules. -/
theorem mem_subsetLimits {s : VirtualAppSubset} {ms : MatchLimitSelector} :
    ms ∈ vApp.subsetLimits s ↔ vApp.Selects s ms := by
  rw [subsetLimits, List.mem_flatMap, Selects]
  constructor
  · intro ⟨name, hname, hms⟩
    cases hl : vApp.rulesMap[name]? with
    | none => simp [hl] at hms
    | some limits =>
      rw [hl, Option.getD_some] at hms
      obtain ⟨r, hr, hrn, hrm⟩ := h.getElem?_rulesMap.mp hl
      exact ⟨r, hr, hrn ▸ hname, hrm ▸ hms⟩
  · intro ⟨r, hr, hname, hms⟩
    have hl := h.getElem?_rulesMap.mpr ⟨r, hr, rfl, rfl⟩
    refine ⟨r.name, hname, ?_⟩
    rw [hl, Option.getD_some]
    exact hms

/-- A name belongs to one subset. -/
theorem eq_of_name_eq {s t : VirtualAppSubset} (hs : s ∈ vApp.subsets) (ht : t ∈ vApp.subsets)
    (he : s.name = t.name) : s = t :=
  List.inj_on_of_nodup_map h.subsets hs ht he

end VirtualApp.Accepted

end CtrlMesh
