import ControllerMesh.Impl.Injection
import ControllerMesh.Proof.SelectorAlgebra

/-!
# Selectors that are not checked again

The server, the proxy and the webhook for pods build selectors without the checks
that were made at admission, and they visit the labels of a selector in any order.

* `validatedIn_matches`: the order does not show in what is matched;
* `labelSelectorAsSelectorIn_eq_ok`: it does not decide what is accepted, either;
* `validatedSelector_agrees`: what was admitted is what is matched, by the builder
  itself, for namespaces and for pods.
-/

namespace CtrlMesh

open Framework

theorem Selector.matches_requirements_perm {rs rs' qs : List Requirement} (h : rs.Perm rs')
    (ls : StringMap String) :
    (Selector.requirements (rs ++ qs)).matches ls = (Selector.requirements (rs' ++ qs)).matches ls := by
  simp only [Selector.matches, List.all_append, h.all_eq]

/-- The requirements of label pairs. -/
def equalsRequirements (entries : List (String × String)) : List Requirement :=
  entries.map fun kv => ⟨kv.1, .equals, [kv.2]⟩

/-- A builder that visits the labels in any order fails as the other does, and what it
builds matches the same. -/
theorem validatedIn_matches (o : RangeOrder) (sel : Option LabelSelector) (ls : StringMap String) :
    (validatedLabelSelectorAsSelectorIn o sel).map (·.matches ls) =
      (validatedLabelSelectorAsSelector sel).map (·.matches ls) := by
  cases sel with
  | none => rfl
  | some sel =>
    have hperm : (equalsRequirements (o.entries sel.labels)).Perm
        (equalsRequirements sel.labels.toList) := (o.perm_entries _).map _
    unfold validatedLabelSelectorAsSelectorIn validatedLabelSelectorAsSelector
    dsimp only
    cases (sel.matchExpressions.getD []).mapM fun expr => expr.asRequirement with
    | error e => rfl
    | ok qs => exact congrArg Except.ok (Selector.matches_requirements_perm hperm ls)

namespace LabelValidation

variable {lv : LabelValidation}

/-- The checks only check. -/
theorem mapM_newRequirement_eq_ok {entries : List (String × String)} {rs : List Requirement} :
    entries.mapM (fun kv => lv.newRequirement ⟨kv.1, .equals, [kv.2]⟩) = .ok rs ↔
      (∀ kv ∈ entries, lv.newRequirement ⟨kv.1, .equals, [kv.2]⟩ = .ok ⟨kv.1, .equals, [kv.2]⟩) ∧
        equalsRequirements entries = rs := by
  rw [mapM_eq_ok_iff]
  constructor
  · intro h
    have hself := h.imp fun _ _ hr => (newRequirement_eq_ok.mp hr).2.2.2
    rw [← List.forall₂_map_left_iff, List.forall₂_eq_eq_eq] at hself
    refine ⟨fun kv hkv => ?_, hself⟩
    obtain ⟨r, hr⟩ := exists_mapM_eq_ok_iff.mp ⟨rs, mapM_eq_ok_iff.mpr h⟩ kv hkv
    rw [hr, (newRequirement_eq_ok.mp hr).2.2.2]
  · rintro ⟨hall, rfl⟩
    rw [equalsRequirements, List.forall₂_map_right_iff, List.forall₂_same]
    exact hall

/-- The order does not decide what is accepted. -/
theorem labelSelectorAsSelectorIn_eq_ok {o : RangeOrder} {sel : Option LabelSelector} {s : Selector}
    (h : lv.labelSelectorAsSelectorIn o sel = .ok s) :
    ∃ s', lv.labelSelectorAsSelector sel = .ok s' ∧ ∀ ls, s'.matches ls = s.matches ls := by
  cases sel with
  | none => exact ⟨s, h, fun _ => rfl⟩
  | some sel =>
    obtain ⟨rs, qs, hrs, hqs, rfl⟩ := bind_requirements_eq_ok.mp h
    obtain ⟨hchecks, rfl⟩ := mapM_newRequirement_eq_ok.mp hrs
    have hperm := o.perm_entries sel.labels
    have hsorted := mapM_newRequirement_eq_ok.mpr
      ⟨fun kv hkv => hchecks kv (hperm.mem_iff.mpr hkv), rfl⟩
    refine ⟨_, labelSelectorAsSelector_eq_ok.mpr ⟨_, qs, hsorted, hqs, rfl⟩, fun ls => ?_⟩
    exact Selector.matches_requirements_perm (hperm.symm.map _) ls

/-- What an admitted selector matches is what is built of it without checks. -/
theorem validatedIn_of_admitted {o : RangeOrder} {sel : Option LabelSelector} {s : Selector}
    (h : lv.labelSelectorAsSelectorIn o sel = .ok s) (o' : RangeOrder) (ls : StringMap String) :
    ∃ s', validatedLabelSelectorAsSelectorIn o' sel = .ok s' ∧ s'.matches ls = s.matches ls := by
  obtain ⟨s₀, hs₀, hmatches⟩ := labelSelectorAsSelectorIn_eq_ok h
  have hvalidated : validatedLabelSelectorAsSelector sel = .ok s₀ := by
    cases sel with
    | none => exact hs₀
    | some sel => exact validatedLabelSelectorAsSelector_eq hs₀
  have hsame := validatedIn_matches o' sel ls
  rw [hvalidated] at hsame
  cases hbuilt : validatedLabelSelectorAsSelectorIn o' sel with
  | error e => simp [hbuilt, Except.map] at hsame
  | ok s' =>
    rw [hbuilt] at hsame
    exact ⟨s', rfl, (Except.ok.inj hsame).trans (hmatches ls)⟩

variable (lv)

/-- The selector is accepted at admission. -/
def Admits (o : RangeOrder) (sel : Option LabelSelector) : Prop :=
  ∃ s, lv.labelSelectorAsSelectorIn o sel = .ok s

/-- What a selector means at admission. -/
def selects (o : RangeOrder) (sel : Option LabelSelector) (ls : StringMap String) : Bool :=
  match lv.labelSelectorAsSelectorIn o sel with
  | .ok s => s.matches ls
  | .error _ => false

end LabelValidation

/-- The order does not show in what namespaces are matched. -/
theorem isNamespaceMatchedIn_eq {lib : Lib} (o : RangeOrder) (ms : MatchLimitSelector)
    (ns : Namespace) : isNamespaceMatchedIn lib o ms ns = isNamespaceMatched lib ms ns := by
  unfold isNamespaceMatchedIn isNamespaceMatched
  cases ms.namespaceSelector with
  | none => cases ms.namespaceRegex <;> rfl
  | some sel =>
    have hsame := validatedIn_matches o (some sel) ns.labels
    cases hin : validatedLabelSelectorAsSelectorIn o (some sel) <;>
      cases hsorted : validatedLabelSelectorAsSelector (some sel) <;>
        simp_all [Except.map]

/-- The VirtualApp of a pod, by those whose selectors match. -/
def uniqueVApp : List VirtualApp → Except String (Option VirtualApp)
  | [] => .ok none
  | [vApp] => .ok (some vApp)
  | vApp :: vApp' :: _ => .error ("multiple VirtualApp " ++ vApp.name ++ " " ++ vApp'.name ++ " matched")

theorem findMatchedVApp_eq {lv : LabelValidation} {o : RangeOrder} {ls : StringMap String}
    {vApps : List VirtualApp} (hadmits : ∀ vApp ∈ vApps, lv.Admits o vApp.selector)
    (orders : VirtualApp → RangeOrder) (matchedVApp : Option VirtualApp) :
    findMatchedVApp orders ls vApps matchedVApp =
      uniqueVApp (matchedVApp.toList ++ vApps.filter fun vApp => lv.selects o vApp.selector ls) := by
  induction vApps generalizing matchedVApp with
  | nil => cases matchedVApp <;> rfl
  | cons vApp vApps ih =>
    obtain ⟨⟨s, hs⟩, hrest⟩ := List.forall_mem_cons.mp hadmits
    obtain ⟨s', hs', hmatches⟩ := LabelValidation.validatedIn_of_admitted hs (orders vApp) ls
    have hselects : lv.selects o vApp.selector ls = s'.matches ls := by
      rw [LabelValidation.selects, hs, hmatches]
    unfold findMatchedVApp
    rw [hs']
    dsimp only
    cases hls : s'.matches ls with
    | false =>
      rw [if_neg (by decide), ih hrest, List.filter_cons_of_neg (by simp [hselects, hls])]
    | true =>
      rw [if_pos rfl, List.filter_cons_of_pos (by simp [hselects, hls])]
      cases matchedVApp with
      | none => exact ih hrest (some vApp)
      | some matched => rfl

/-- A selector that is admitted, in whatever order its labels are visited, matches the
same labels when it is built without checks in any order: for namespaces, and for pods,
which get the VirtualApp whose selector matches, or an error if there are several. -/
theorem validatedSelector_agrees (lv : LabelValidation) (o : RangeOrder) (ls : StringMap String) :
    (∀ sel s, lv.labelSelectorAsSelectorIn o sel = .ok s →
      ∀ o', (∃ s', validatedLabelSelectorAsSelectorIn o' sel = .ok s' ∧
          (s'.matches ls = true ↔ s.matches ls = true)) ∧
        ∀ lib ms ns, ms.namespaceSelector = sel → sel ≠ none → ns.labels = ls →
          isNamespaceMatchedIn lib o' ms ns = isNamespaceMatched lib ms ns ∧
            (isNamespaceMatched lib ms ns = true ↔ s.matches ls = true)) ∧
      ∀ vApps : List VirtualApp, (∀ vApp ∈ vApps, lv.Admits o vApp.selector) →
        ∀ orders, findMatchedVApp orders ls vApps none =
          uniqueVApp (vApps.filter fun vApp => lv.selects o vApp.selector ls) := by
  refine ⟨fun sel s h o' => ?_, fun vApps hadmits orders => findMatchedVApp_eq hadmits orders none⟩
  obtain ⟨s', hs', hmatches⟩ := LabelValidation.validatedIn_of_admitted h o' ls
  refine ⟨⟨s', hs', by rw [hmatches]⟩, ?_⟩
  rintro lib ms ns rfl hne rfl
  obtain ⟨sel, hsel⟩ := Option.ne_none_iff_exists'.mp hne
  rw [hsel] at hs'
  have hsame : isNamespaceMatchedIn lib o' ms ns = isNamespaceMatched lib ms ns :=
    isNamespaceMatchedIn_eq o' ms ns
  refine ⟨hsame, ?_⟩
  rw [← hsame]
  unfold isNamespaceMatchedIn
  rw [hsel]
  dsimp only
  rw [hs', ← hmatches]

/-- Pods with `app=web`. -/
def sampleWebVApp : VirtualApp := ⟨"web", some InternalRoute.sampleWeb, none, none, []⟩

/-- A pod with the label of an application belongs to it. -/
theorem validatedSelector_agrees_sampleWeb :
    (∃ s', validatedLabelSelectorAsSelectorIn .sorted (some InternalRoute.sampleWeb) = .ok s' ∧
      (s'.matches {("app", "web")} = true ↔
        (Selector.requirements [⟨"app", .equals, ["web"]⟩]).matches {("app", "web")} = true)) ∧
      findMatchedVApp (fun _ => .sorted) {("app", "web")} [sampleWebVApp] none =
        uniqueVApp ([sampleWebVApp].filter fun vApp =>
          sampleValidation.selects .sorted vApp.selector {("app", "web")}) := by
  have hagrees := validatedSelector_agrees sampleValidation .sorted {("app", "web")}
  refine ⟨(hagrees.1 _ _ (by decide +kernel) .sorted).1, hagrees.2 _ ?_ _⟩
  exact fun vApp hvApp => List.mem_singleton.mp hvApp ▸
    ⟨.requirements [⟨"app", .equals, ["web"]⟩], by decide +kernel⟩

end CtrlMesh
