import ControllerMesh.Framework.FirstMatch
import ControllerMesh.Impl.InternalSpec
import ControllerMesh.Spec.Labels

/-!
# Which subset handles an object

`getObjectSelector` gives a subset its own selector merged with the negations
of the selectors of the subsets before it. The intent is that every object goes
to the first subset whose selector it matches.

`negateLabelSelector` negates each requirement of a selector, so the negation
of a conjunction is the conjunction of the negations: the labels that fail all
requirements (`admits_negateLabelSelector`), not those that fail one of them.
Objects that meet some requirements of a selector and fail others are handled
by no later subset.

* `admits_mergeLabelSelector`: merging is conjunction, as long as no label that
  is overwritten matters;
* `admits_getObjectSelector`: which subsets admit an object;
* `handledBy_iff_first_iff`: exactly the first matching subset handles an object
  if and only if the selectors are separated at its labels.
-/

namespace CtrlMesh

open Framework

/-- A selector that is nil or accepts the labels. -/
def admits (sel : Option LabelSelector) (ls : StringMap String) : Bool :=
  sel.all (·.accepts ls)

@[simp] theorem admits_none (ls : StringMap String) : admits none ls = true := rfl

@[simp] theorem admits_some (sel : LabelSelector) (ls : StringMap String) :
    admits (some sel) ls = sel.accepts ls := rfl

/-! ## Matching, merging and negating -/

private theorem mapM_asRequirement_accepts (exprs : List LabelSelectorRequirement)
    (ls : StringMap String) :
    (∀ expr ∈ exprs, expr.accepts ls = true) ↔
      ∃ rs, exprs.mapM (·.asRequirement) = .ok rs ∧ ∀ r ∈ rs, r.matches ls = true := by
  induction exprs with
  | nil => simp [pure, Except.pure]
  | cons expr exprs ih =>
    rw [List.forall_mem_cons, ih, List.mapM_cons, LabelSelectorRequirement.accepts]
    cases hexpr : expr.asRequirement with
    | error e => simp [bind, Except.bind]
    | ok r =>
      cases hexprs : exprs.mapM (·.asRequirement) with
      | error e => simp [bind, Except.bind]
      | ok rs => simp [bind, Except.bind, pure, Except.pure]

/-- A selector accepts the labels that the selector built from it matches. -/
theorem LabelSelector.accepts_iff_validated (sel : LabelSelector) (ls : StringMap String) :
    sel.accepts ls = true ↔
      ∃ s, validatedLabelSelectorAsSelector (some sel) = .ok s ∧ s.matches ls = true := by
  have hlabels : (∀ r ∈ sel.labels.toList.map fun kv => (⟨kv.1, .equals, [kv.2]⟩ : Requirement),
      r.matches ls = true) ↔ sel.LabelsHold ls := by
    simp only [List.forall_mem_map, Prod.forall, Std.ExtTreeMap.mem_toList_iff_getElem?_eq_some,
      LabelsHold, Requirement.matches]
    refine forall₃_congr fun k v _ => ?_
    cases ls[k]? with
    | none => simp
    | some w => simp
  rw [accepts_iff, mapM_asRequirement_accepts, ← hlabels]
  simp only [validatedLabelSelectorAsSelector]
  show _ ↔ ∃ s, (sel.exprs.mapM (·.asRequirement) >>= _) = Except.ok s ∧ _
  cases sel.exprs.mapM (·.asRequirement) with
  | error e => simp [bind, Except.bind]
  | ok rs =>
    simp only [bind, Except.bind, pure, Except.pure, Except.ok.injEq, exists_eq_left',
      Selector.matches, List.all_append, Bool.and_eq_true, List.all_eq_true]
    rfl

theorem LabelSelectorRequirement.accepts_negate (expr : LabelSelectorRequirement)
    (ls : StringMap String) :
    (⟨expr.key, expr.operator.negate, expr.values⟩ : LabelSelectorRequirement).accepts ls =
      expr.rejects ls := by
  obtain ⟨key, operator, values⟩ := expr
  simp only [accepts, rejects, asRequirement]
  cases operator with
  | opIn | opNotIn =>
    simp only [LabelSelectorOperator.negate, Requirement.matches]
    cases ls[key]? <;> simp
  | opExists | opDoesNotExist => simp [LabelSelectorOperator.negate, Requirement.matches]
  | other text h => rfl

theorem LabelSelectorRequirement.accepts_notIn_singleton (k v : String) (ls : StringMap String) :
    (⟨k, .opNotIn, some [v]⟩ : LabelSelectorRequirement).accepts ls = true ↔ ls[k]? ≠ some v := by
  simp only [accepts, asRequirement, Requirement.matches, Option.getD_some]
  cases ls[k]? with
  | none => simp
  | some w => simp

theorem exprs_appendSlice (matchLabels : Option (StringMap String))
    (as : Option (List LabelSelectorRequirement)) (bs : List LabelSelectorRequirement) :
    (⟨matchLabels, appendSlice as bs⟩ : LabelSelector).exprs = as.getD [] ++ bs := by
  cases as with
  | none => cases bs <;> rfl
  | some as => rfl

/-- The negation accepts the labels that fail every requirement. -/
theorem admits_negateLabelSelector (sel : LabelSelector) (ls : StringMap String) :
    admits (negateLabelSelector (some sel)) ls = true ↔ sel.rejects ls = true := by
  have hfirst (bs : List LabelSelectorRequirement) : (appendSlice none bs).getD [] = bs := by
    cases bs <;> rfl
  rw [negateLabelSelector, admits_some, LabelSelector.accepts_iff, exprs_appendSlice, hfirst,
    LabelSelector.rejects_iff]
  simp only [List.forall_mem_append, List.forall_mem_map, Prod.forall,
    Std.ExtTreeMap.mem_toList_iff_getElem?_eq_some,
    LabelSelectorRequirement.accepts_notIn_singleton, LabelSelectorRequirement.accepts_negate]
  exact and_iff_right fun k v h => by simp [LabelSelector.labels] at h

/-- The labels have every pair of a selector, if there is one. -/
def LabelsHold (sel : Option LabelSelector) (ls : StringMap String) : Prop :=
  ∀ s, sel = some s → s.LabelsHold ls

theorem labelsHold_negateLabelSelector (sel : LabelSelector) (ls : StringMap String) :
    LabelsHold (negateLabelSelector (some sel)) ls := by
  rintro _ ⟨rfl⟩ k v h
  simp [LabelSelector.labels] at h

theorem labelsHold_of_admits {sel : Option LabelSelector} {ls : StringMap String}
    (h : admits sel ls = true) : LabelsHold sel ls := by
  rintro s rfl
  exact (LabelSelector.accepts_iff.mp h).1

section Merge

variable {a b : LabelSelector} {ls : StringMap String}

theorem labels_merge (k : String) :
    (LabelSelector.labels ⟨mergeMatchLabels a.matchLabels b.matchLabels,
      mergeMatchExpressions a.matchExpressions b.matchExpressions⟩)[k]? =
      b.labels[k]?.or a.labels[k]? := by
  simp only [LabelSelector.labels]
  cases b.matchLabels with
  | none => simp [mergeMatchLabels]
  | some m => exact StringMap.getElem?_foldl_insert _ m k

theorem exprs_merge :
    (LabelSelector.exprs ⟨mergeMatchLabels a.matchLabels b.matchLabels,
      mergeMatchExpressions a.matchExpressions b.matchExpressions⟩) = a.exprs ++ b.exprs := by
  unfold mergeMatchExpressions
  cases hb : b.matchExpressions with
  | none => simp [LabelSelector.exprs, hb]
  | some bs => rw [exprs_appendSlice]; simp [LabelSelector.exprs, hb]

/-- A pair of `b` hides a pair of `a`. If the pairs of `a` hold anyway, those
of the merged selector hold if and only if those of `b` do. -/
private theorem labelsHold_merge (ha : a.LabelsHold ls) :
    LabelSelector.LabelsHold ⟨mergeMatchLabels a.matchLabels b.matchLabels,
      mergeMatchExpressions a.matchExpressions b.matchExpressions⟩ ls ↔ b.LabelsHold ls := by
  simp only [LabelSelector.LabelsHold, labels_merge, Option.or_eq_some_iff]
  constructor
  · exact fun h k v hb => h k v (.inl hb)
  · rintro h k v (hb | ⟨-, hka⟩)
    · exact h k v hb
    · exact ha k v hka

end Merge

variable {selA selB : Option LabelSelector} {ls : StringMap String}

theorem labelsHold_mergeLabelSelector (ha : LabelsHold selA ls) (hb : LabelsHold selB ls) :
    LabelsHold (mergeLabelSelector selA selB) ls := by
  cases selA with
  | none => cases selB <;> exact hb
  | some a =>
    cases selB with
    | none => exact ha
    | some b =>
      rintro _ ⟨rfl⟩
      exact (labelsHold_merge (ha a rfl)).mpr (hb b rfl)

/-- Merging is conjunction where the labels have the pairs of the first
selector. -/
theorem admits_mergeLabelSelector (ha : LabelsHold selA ls) :
    admits (mergeLabelSelector selA selB) ls = true ↔
      admits selA ls = true ∧ admits selB ls = true := by
  cases selA with
  | none => cases selB <;> simp [mergeLabelSelector]
  | some a =>
    cases selB with
    | none => simp [mergeLabelSelector]
    | some b =>
      rw [mergeLabelSelector, admits_some, admits_some, admits_some, LabelSelector.accepts_iff,
        labelsHold_merge (ha a rfl), exprs_merge, List.forall_mem_append, LabelSelector.accepts_iff,
        LabelSelector.accepts_iff, and_iff_right (ha a rfl)]
      tauto

/-! ## The loop over the subsets -/

namespace InternalRoute

/-- The object selectors of the limits that apply to `gr`. -/
def objectSelectors (gr : GroupResource) (limits : List InternalMatchLimitRule) :
    List LabelSelector :=
  limits.filterMap fun limit => if objectLimitApplies gr limit then limit.objectSelector else none

theorem foldl_objectSelectors (gr : GroupResource)
    (f : Option LabelSelector → Option LabelSelector) (limits : List InternalMatchLimitRule)
    (sel : Option LabelSelector) :
    limits.foldl (fun sel limit =>
        if !objectLimitApplies gr limit then sel else mergeLabelSelector sel (f limit.objectSelector))
      sel =
      (objectSelectors gr limits).foldl (fun sel s => mergeLabelSelector sel (f (some s))) sel := by
  induction limits generalizing sel with
  | nil => rfl
  | cons limit limits ih =>
    rw [List.foldl_cons, ih, objectSelectors, objectSelectors]
    cases happlies : objectLimitApplies gr limit with
    | false =>
      rw [List.filterMap_cons_none (by simp [happlies])]
      simp
    | true =>
      obtain ⟨s, hs⟩ : ∃ s, limit.objectSelector = some s :=
        Option.isSome_iff_exists.mp (Bool.and_eq_true_iff.mp happlies).1
      rw [List.filterMap_cons_some (b := s) (by simp [happlies, hs])]
      simp [hs]

theorem subsetsObjectSelector_self {s : String} {l : InternalSubsetLimit} (hs : l.subset = s)
    (gr : GroupResource) (rest : List InternalSubsetLimit) (sel : Option LabelSelector) :
    subsetsObjectSelector s gr (l :: rest) sel =
      (objectSelectors gr l.limits).foldl (fun sel o => mergeLabelSelector sel (some o)) sel := by
  have hfold := foldl_objectSelectors gr id l.limits sel
  simp only [id] at hfold
  rw [subsetsObjectSelector, ← hfold]
  simp [hs]

theorem subsetsObjectSelector_other {s : String} {l : InternalSubsetLimit} (hs : l.subset ≠ s)
    (gr : GroupResource) (rest : List InternalSubsetLimit) (sel : Option LabelSelector) :
    subsetsObjectSelector s gr (l :: rest) sel =
      subsetsObjectSelector s gr rest ((objectSelectors gr l.limits).foldl
        (fun sel o => mergeLabelSelector sel (negateLabelSelector (some o))) sel) := by
  rw [subsetsObjectSelector, ← foldl_objectSelectors gr negateLabelSelector]
  simp [hs]

/-- Subset limits in which the declared subsets have one object selector each
for `gr`, given by `own`, and the default subset stands last without one. -/
structure ObjectRules (ir : InternalRoute) (gr : GroupResource)
    (declared : List InternalSubsetLimit) (own : InternalSubsetLimit → LabelSelector) : Prop where
  limits : ∃ dflt, ir.subsetLimits = declared ++ [dflt] ∧ dflt.subset = "" ∧
    ∀ limit ∈ dflt.limits, limit.objectSelector = none
  names : (FirstMatch.names (·.subset) "" declared).Nodup
  own : ∀ l ∈ declared, objectSelectors gr l.limits = [own l]

section

variable {gr : GroupResource} {own : InternalSubsetLimit → LabelSelector} {ls : StringMap String}
  {declared : List InternalSubsetLimit} {dflt : InternalSubsetLimit} {s : String}

/-- Induction over the subsets before the own one. Their negations bring no
label pairs with them, so merging stays a conjunction along the loop. -/
theorem admits_subsetsObjectSelector (hdflt : dflt.subset = "")
    (hnone : objectSelectors gr dflt.limits = [])
    (hown : ∀ l ∈ declared, objectSelectors gr l.limits = [own l])
    (hs : s ∈ FirstMatch.names (·.subset) "" declared) {sel : Option LabelSelector}
    (hsel : LabelsHold sel ls) :
    admits (subsetsObjectSelector s gr (declared ++ [dflt]) sel) ls = true ↔
      admits sel ls = true ∧
        FirstMatch.Takes (·.subset) "" (fun l => (own l).accepts ls)
          (fun l => (own l).rejects ls = true) s declared := by
  induction declared generalizing sel with
  | nil =>
    obtain rfl : s = "" := List.mem_singleton.mp hs
    rw [List.nil_append, subsetsObjectSelector_self hdflt, hnone, FirstMatch.Takes,
      and_iff_left rfl, List.foldl_nil]
  | cons l declared ih =>
    obtain ⟨hl, hrest⟩ := List.forall_mem_cons.mp hown
    rw [List.cons_append, FirstMatch.Takes]
    by_cases hself : l.subset = s
    · rw [subsetsObjectSelector_self hself, hl, if_pos hself]
      exact admits_mergeLabelSelector hsel
    · have hs' := (FirstMatch.mem_names_cons.mp hs).resolve_left fun h => hself h.symm
      rw [subsetsObjectSelector_other hself, hl, if_neg hself, List.foldl_cons, List.foldl_nil,
        ih hrest hs' (labelsHold_mergeLabelSelector hsel (labelsHold_negateLabelSelector _ _)),
        admits_mergeLabelSelector hsel, admits_negateLabelSelector, and_assoc]

theorem admits_foldl_merge {sels : List LabelSelector}
    (h : ∀ sel ∈ sels, sel.accepts ls = true) {sel : Option LabelSelector}
    (hsel : admits sel ls = true) :
    admits (sels.foldl (fun sel o => mergeLabelSelector sel (some o)) sel) ls = true := by
  induction sels generalizing sel with
  | nil => exact hsel
  | cons o sels ih =>
    obtain ⟨ho, hrest⟩ := List.forall_mem_cons.mp h
    exact ih hrest ((admits_mergeLabelSelector (labelsHold_of_admits hsel)).mpr ⟨hsel, ho⟩)

end

variable (ir : InternalRoute) (gr : GroupResource) (ls : StringMap String)

/-- A proxy of subset `s` with this route handles objects with the labels: its
object selector is nil or matches them. -/
def handledBy (s : String) : Bool := admits ({ ir with subset := s }.getObjectSelector gr) ls

variable {ir gr ls} {declared : List InternalSubsetLimit} {own : InternalSubsetLimit → LabelSelector}

theorem handledBy_iff_takes (h : ir.ObjectRules gr declared own)
    (hglobal : ∀ sel ∈ objectSelectors gr ir.globalLimits, sel.accepts ls = true) {s : String}
    (hs : s ∈ FirstMatch.names (·.subset) "" declared) :
    ir.handledBy gr ls s = true ↔
      FirstMatch.Takes (·.subset) "" (fun l => (own l).accepts ls)
        (fun l => (own l).rejects ls = true) s declared := by
  obtain ⟨dflt, hlimits, hdflt, hnone⟩ := h.limits
  have hnone' : objectSelectors gr dflt.limits = [] :=
    List.filterMap_eq_nil_iff.mpr fun limit hlimit => by simp [hnone limit hlimit]
  have hacc : admits (ir.globalLimits.foldl (fun sel limit =>
      if !objectLimitApplies gr limit then sel
      else mergeLabelSelector sel limit.objectSelector) none) ls = true := by
    have hfold := foldl_objectSelectors gr id ir.globalLimits none
    simp only [id] at hfold
    rw [hfold]
    exact admits_foldl_merge hglobal (admits_none ls)
  rw [handledBy, getObjectSelector, hlimits,
    admits_subsetsObjectSelector hdflt hnone' h.own hs (labelsHold_of_admits hacc),
    and_iff_right hacc]

/-- Exactly the first declared subset whose selector matches an object, or else
the default subset, handles it, if and only if

* the labels fail every requirement of the selectors before that one, and
* the selector itself has a requirement, or else the labels meet some and fail
  some requirement of a selector between it and the next one that matches. -/
theorem handledBy_iff_first_iff (h : ir.ObjectRules gr declared own)
    (hglobal : ∀ sel ∈ objectSelectors gr ir.globalLimits, sel.accepts ls = true) :
    (∀ s ∈ FirstMatch.names (·.subset) "" declared,
        (ir.handledBy gr ls s = true ↔
          s = FirstMatch.first (·.subset) "" (fun l => (own l).accepts ls) declared)) ↔
      FirstMatch.Separated (fun l => (own l).accepts ls) (fun l => (own l).rejects ls = true)
        declared := by
  rw [← FirstMatch.takes_iff_first_iff h.names]
  refine forall₂_congr fun s hs => ?_
  rw [handledBy_iff_takes h hglobal hs]

/-- A route with one subset, for the pods that a selector matches. -/
def samplePodsRoute (sel : LabelSelector) : InternalRoute :=
  { subset := ""
    globalLimits := []
    subsetLimits :=
      [⟨"canary", [⟨∅, some sel, [⟨[""], ["pods"]⟩]⟩]⟩, ⟨"", []⟩]
    subsetPublicResources := []
    subsetDefaultOnlyUserAgents := ∅ }

def sampleWeb : LabelSelector := ⟨some {("app", "web")}, none⟩

def sampleWebFront : LabelSelector := ⟨some (({("app", "web")} : StringMap String).insert "tier" "front"), none⟩

theorem objectRules_samplePodsRoute (sel : LabelSelector) :
    (samplePodsRoute sel).ObjectRules ⟨"", "pods"⟩ ((samplePodsRoute sel).subsetLimits.take 1)
      (fun _ => sel) where
  limits := ⟨⟨"", []⟩, rfl, rfl, by simp⟩
  names := by simp [samplePodsRoute, FirstMatch.names]
  own := by
    intro l hl
    obtain rfl := List.mem_singleton.mp hl
    rfl

theorem handledBy_iff_first_iff_samplePodsRoute :
    (∀ sel ∈ objectSelectors ⟨"", "pods"⟩ (samplePodsRoute sampleWeb).globalLimits,
        sel.accepts ∅ = true) ∧
      ∀ s ∈ ["canary", ""],
        ((samplePodsRoute sampleWeb).handledBy ⟨"", "pods"⟩ ∅ s = true ↔ s = "") := by
  have hglobal : ∀ sel ∈ objectSelectors ⟨"", "pods"⟩ (samplePodsRoute sampleWeb).globalLimits,
      sel.accepts ∅ = true := by
    simp [samplePodsRoute, objectSelectors]
  have hsep : FirstMatch.Separated (fun _ => sampleWeb.accepts ∅)
      (fun _ => sampleWeb.rejects ∅ = true) ((samplePodsRoute sampleWeb).subsetLimits.take 1) :=
    ⟨by decide +kernel, trivial⟩
  exact ⟨hglobal, (handledBy_iff_first_iff (objectRules_samplePodsRoute _) hglobal).mpr hsep⟩

/-- A pod with one of the two labels of the selector is handled by neither
subset. -/
theorem not_handledBy_samplePodsRoute :
    (samplePodsRoute sampleWebFront).ObjectRules ⟨"", "pods"⟩
        ((samplePodsRoute sampleWebFront).subsetLimits.take 1) (fun _ => sampleWebFront) ∧
      ∀ s ∈ ["canary", ""],
        (samplePodsRoute sampleWebFront).handledBy ⟨"", "pods"⟩ {("app", "web")} s = false :=
  ⟨objectRules_samplePodsRoute _, by decide +kernel⟩

end InternalRoute

end CtrlMesh
