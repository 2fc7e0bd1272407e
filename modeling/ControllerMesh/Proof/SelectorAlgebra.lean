import ControllerMesh.Impl.Response
import ControllerMesh.Proof.ObjectSelectors

/-!
# Conjunction and complement of label selectors

The router narrows what a program sees by merging selectors, and gives objects
to subsets by negating them. Read as sets of labels, a merge should be an
intersection and a negation a complement.

* `merge_conjunction_iff`: a merge is a conjunction, and an injected selector is
  never widened, except where the second selector gives a label of the first
  another value. `MergeLabelSelector` then keeps the second value only.
* `negate_complement_iff`: a negation is the complement at the labels that meet
  all requirements of a selector or none, if there is one.
-/

namespace CtrlMesh

open Framework

/-! ## Merging -/

/-- The second selector gives a label of the first another value. -/
def Overrides (selA selB : Option LabelSelector) : Prop :=
  ∃ a b, selA = some a ∧ selB = some b ∧
    ∃ k v w : String, a.labels[k]? = some v ∧ b.labels[k]? = some w ∧ v ≠ w

/-- The labels have the value of the second selector at a key at which the first asks
for another one, and meet whatever else the two selectors ask. -/
structure MeetsOverridden (a b : LabelSelector) (ls : StringMap String) : Prop where
  overridden : ∃ k v w : String, a.labels[k]? = some v ∧ b.labels[k]? = some w ∧ v ≠ w
  second : b.LabelsHold ls
  first (k v : String) : a.labels[k]? = some v → b.labels[k]? = none → ls[k]? = some v
  exprs : ∀ expr ∈ a.exprs ++ b.exprs, expr.accepts ls = true

/-- At these labels, merging is conjunction; and a request whose own selector is
the second one gets no object that the first, injected, does not match. -/
structure MergesAsConjunction (selA selB : Option LabelSelector) (ls : StringMap String) : Prop where
  conjunction : admits (mergeLabelSelector selA selB) ls = true ↔
    admits selA ls = true ∧ admits selB ls = true
  narrows (sel : LabelSelector) (selector : Selector) (hA : selA = some sel)
    (hinject : injectSelector (.ok selB) sel = .ok selector) (hmatches : selector.matches ls = true) :
    sel.accepts ls = true

section

variable {selA selB : Option LabelSelector} {ls : StringMap String}

/-- Without an override, the pairs of the first selector are pairs of the merged
one. -/
theorem labelsHold_of_merge (hover : ¬Overrides selA selB)
    (h : LabelsHold (mergeLabelSelector selA selB) ls) : LabelsHold selA ls := by
  rintro a rfl
  cases selB with
  | none => exact h a rfl
  | some b =>
    intro k v hka
    refine h _ rfl k v ?_
    rw [labels_merge]
    cases hkb : b.labels[k]? with
    | none => exact hka
    | some w =>
      have hvw : v = w := by
        by_contra hne
        exact hover ⟨a, b, rfl, rfl, k, v, w, hka, hkb, hne⟩
      rw [hvw, Option.some_or]

/-- Labels that meet both selectors have one value for each key. -/
theorem not_overrides_of_admits (ha : admits selA ls = true) (hb : admits selB ls = true) :
    ¬Overrides selA selB := by
  rintro ⟨a, b, rfl, rfl, k, v, w, hka, hkb, hne⟩
  have hv : ls[k]? = some v := (LabelSelector.accepts_iff.mp ha).1 k v hka
  have hw : ls[k]? = some w := (LabelSelector.accepts_iff.mp hb).1 k w hkb
  exact hne (Option.some.inj (hv.symm.trans hw))

/-- What is sent after an injection matches what the merged selector admits. -/
theorem admits_of_injectSelector {sel : LabelSelector} {selector : Selector}
    (hinject : injectSelector (.ok selB) sel = .ok selector) (h : selector.matches ls = true) :
    admits (mergeLabelSelector (some sel) selB) ls = true := by
  cases selB with
  | none => exact (LabelSelector.accepts_iff_validated _ _).mpr ⟨selector, hinject, h⟩
  | some b => exact (LabelSelector.accepts_iff_validated _ _).mpr ⟨selector, hinject, h⟩

/-- A merged selector asks for all pairs of the second selector, for the pairs of the
first at the other keys, and for the expressions of both. -/
theorem admits_merge_iff {a b : LabelSelector} :
    admits (mergeLabelSelector (some a) (some b)) ls = true ↔
      b.LabelsHold ls ∧
        (∀ k v : String, a.labels[k]? = some v → b.labels[k]? = none → ls[k]? = some v) ∧
        ∀ expr ∈ a.exprs ++ b.exprs, expr.accepts ls = true := by
  rw [mergeLabelSelector, admits_some, LabelSelector.accepts_iff, exprs_merge, ← and_assoc]
  refine and_congr_left fun _ => ?_
  simp only [LabelSelector.LabelsHold, labels_merge, Option.or_eq_some_iff]
  constructor
  · intro h
    exact ⟨fun k v hb => h k v (.inl hb), fun k v ha hb => h k v (.inr ⟨hb, ha⟩)⟩
  · rintro ⟨hsecond, hfirst⟩ k v (hb | ⟨hb, ha⟩)
    · exact hsecond k v hb
    · exact hfirst k v ha hb

theorem meetsOverridden_iff :
    (∃ a b, selA = some a ∧ selB = some b ∧ MeetsOverridden a b ls) ↔
      admits (mergeLabelSelector selA selB) ls = true ∧ Overrides selA selB := by
  constructor
  · rintro ⟨a, b, rfl, rfl, h⟩
    exact ⟨admits_merge_iff.mpr ⟨h.second, h.first, h.exprs⟩, a, b, rfl, rfl, h.overridden⟩
  · rintro ⟨hmerge, a, b, rfl, rfl, hover⟩
    obtain ⟨hsecond, hfirst, hexprs⟩ := admits_merge_iff.mp hmerge
    exact ⟨a, b, rfl, rfl, hover, hsecond, hfirst, hexprs⟩

/-- Merging is conjunction, and never widens what an injected selector allows, if and
only if it is not so that the selectors ask for different values at some key and the
labels have those of the second one, with whatever else the two ask. -/
theorem merge_conjunction_iff (selA selB : Option LabelSelector) (ls : StringMap String) :
    MergesAsConjunction selA selB ls ↔
      ¬∃ a b, selA = some a ∧ selB = some b ∧ MeetsOverridden a b ls := by
  rw [meetsOverridden_iff]
  constructor
  · rintro h ⟨hmerge, hover⟩
    obtain ⟨ha, hb⟩ := h.conjunction.mp hmerge
    exact not_overrides_of_admits ha hb hover
  · intro h
    have hsplit (hmerge : admits (mergeLabelSelector selA selB) ls = true) :
        admits selA ls = true ∧ admits selB ls = true := by
      have hover : ¬Overrides selA selB := fun hover => h ⟨hmerge, hover⟩
      have hlabels := labelsHold_of_merge hover (labelsHold_of_admits hmerge)
      exact (admits_mergeLabelSelector hlabels).mp hmerge
    refine ⟨⟨hsplit, fun hab => ?_⟩, ?_⟩
    · exact (admits_mergeLabelSelector (labelsHold_of_admits hab.1)).mpr hab
    · rintro sel selector rfl hinject hmatches
      exact (hsplit (admits_of_injectSelector hinject hmatches)).1

/-- A spec restricts pods to `app=web`, and a client asks for `app=db`: the
request is sent with the selector of the client alone. -/
theorem not_mergesAsConjunction_sampleWeb :
    ¬MergesAsConjunction (some InternalRoute.sampleWeb) (some ⟨some {("app", "db")}, none⟩)
      {("app", "db")} := by
  intro h
  have hmerge : admits (mergeLabelSelector (some InternalRoute.sampleWeb)
      (some ⟨some {("app", "db")}, none⟩)) {("app", "db")} = true := by decide +kernel
  have hweb : admits (some InternalRoute.sampleWeb) {("app", "db")} = false := by decide +kernel
  exact absurd (h.conjunction.mp hmerge).1 (by rw [hweb]; decide)

end

/-! ## Negating -/

namespace LabelSelector

variable {sel : LabelSelector} {ls : StringMap String}

theorem accepts_and_rejects_of_not_hasRequirement (h : ¬sel.HasRequirement) (ls : StringMap String) :
    sel.accepts ls = true ∧ sel.rejects ls = true := by
  simp only [HasRequirement, not_or, not_not] at h
  simp [accepts, rejects, h.1, h.2]

/-- No requirement is both met and failed. -/
theorem not_accepts_of_rejects (h : sel.HasRequirement) (hr : sel.rejects ls = true) :
    sel.accepts ls = false := by
  simp only [rejects, Bool.and_eq_true, List.all_eq_true] at hr
  simp only [accepts, Bool.and_eq_false_iff, List.all_eq_false]
  rcases h with h | h
  · obtain ⟨kv, hkv⟩ := List.exists_mem_of_ne_nil _ h
    refine .inl ⟨kv, hkv, ?_⟩
    simpa using hr.1 kv hkv
  · obtain ⟨expr, hexpr⟩ := List.exists_mem_of_ne_nil _ h
    refine .inr ⟨expr, hexpr, ?_⟩
    have hfails := hr.2 expr hexpr
    unfold LabelSelectorRequirement.rejects at hfails
    unfold LabelSelectorRequirement.accepts
    cases hasReq : expr.asRequirement with
    | error e => simp
    | ok r => simpa [hasReq] using hfails

end LabelSelector

namespace LabelValidation

variable {lv : LabelValidation}

theorem newRequirement_eq_ok {r r' : Requirement} :
    lv.newRequirement r = .ok r' ↔
      lv.validateLabelKey r.key = .ok () ∧ checkValues r.operator r.strValues = .ok () ∧
        r.strValues.forM (lv.validateLabelValue r.key) = .ok () ∧ r = r' := by
  simp only [newRequirement, bind, Except.bind, pure, Except.pure]
  cases lv.validateLabelKey r.key with
  | error e => simp
  | ok _ =>
    cases checkValues r.operator r.strValues with
    | error e => simp
    | ok _ =>
      cases r.strValues.forM (lv.validateLabelValue r.key) with
      | error e => simp
      | ok _ => simp

/-- Operators that ask for as many values accept the same requirements. -/
theorem exists_newRequirement {key : String} {vals : List String} {r : Requirement}
    (op op' : SelectionOperator) (hcheck : checkValues op vals = checkValues op' vals)
    (h : lv.newRequirement ⟨key, op, vals⟩ = .ok r) :
    ∃ r', lv.newRequirement ⟨key, op', vals⟩ = .ok r' := by
  obtain ⟨hkey, hvals, hvalues, -⟩ := newRequirement_eq_ok.mp h
  exact ⟨_, newRequirement_eq_ok.mpr ⟨hkey, hcheck ▸ hvals, hvalues, rfl⟩⟩

theorem exists_newRequirement_negate {expr : LabelSelectorRequirement} {r : Requirement}
    (h : (expr.asRequirement >>= lv.newRequirement) = .ok r) :
    ∃ r', ((⟨expr.key, expr.operator.negate, expr.values⟩ : LabelSelectorRequirement).asRequirement >>=
      lv.newRequirement) = .ok r' := by
  obtain ⟨key, operator, values⟩ := expr
  cases operator with
  | opIn => exact exists_newRequirement .isIn .notIn rfl h
  | opNotIn => exact exists_newRequirement .notIn .isIn rfl h
  | opExists => exact exists_newRequirement .isPresent .isAbsent rfl h
  | opDoesNotExist => exact exists_newRequirement .isAbsent .isPresent rfl h
  | other text hother =>
    simp [LabelSelectorRequirement.asRequirement, bind, Except.bind] at h

theorem exists_newRequirement_notIn {k v : String} {r : Requirement}
    (h : lv.newRequirement ⟨k, .equals, [v]⟩ = .ok r) :
    ∃ r', ((⟨k, .opNotIn, some [v]⟩ : LabelSelectorRequirement).asRequirement >>=
      lv.newRequirement) = .ok r' :=
  exists_newRequirement .equals .notIn rfl h

theorem mapM_eq_ok_iff {α β : Type} {f : α → Except String β} {as : List α} {bs : List β} :
    as.mapM f = .ok bs ↔ List.Forall₂ (fun a b => f a = .ok b) as bs := by
  induction as generalizing bs with
  | nil => cases bs <;> simp [pure, Except.pure]
  | cons a as ih =>
    rw [List.mapM_cons, List.forall₂_cons_left_iff]
    cases ha : f a with
    | error e => simp [bind, Except.bind]
    | ok b =>
      cases has : as.mapM f with
      | error e => simp [bind, Except.bind, ← ih, has]
      | ok bs' => simp [bind, Except.bind, pure, Except.pure, ← ih, has, eq_comm]

theorem exists_mapM_eq_ok_iff {α β : Type} {f : α → Except String β} {as : List α} :
    (∃ bs, as.mapM f = .ok bs) ↔ ∀ a ∈ as, ∃ b, f a = .ok b := by
  simp only [mapM_eq_ok_iff]
  induction as with
  | nil => simp
  | cons a as ih =>
    rw [List.forall_mem_cons, ← ih]
    constructor
    · rintro ⟨bs, h⟩
      obtain ⟨b, bs, hb, hbs, rfl⟩ := List.forall₂_cons_left_iff.mp h
      exact ⟨⟨b, hb⟩, bs, hbs⟩
    · rintro ⟨⟨b, hb⟩, bs, hbs⟩
      exact ⟨b :: bs, .cons hb hbs⟩

/-- What a builder returns that makes the requirements of labels and of expressions. -/
theorem bind_requirements_eq_ok {labels exprs : Except String (List Requirement)} {s : Selector} :
    (labels >>= fun rs => exprs >>= fun qs => pure (Selector.requirements (rs ++ qs))) = .ok s ↔
      ∃ rs qs, labels = .ok rs ∧ exprs = .ok qs ∧ s = .requirements (rs ++ qs) := by
  cases labels with
  | error e => simp [bind, Except.bind]
  | ok rs =>
    cases exprs with
    | error e => simp [bind, Except.bind]
    | ok qs => simp [bind, Except.bind, pure, Except.pure, eq_comm]

theorem labelSelectorAsSelector_eq_ok {sel : LabelSelector} {s : Selector} :
    lv.labelSelectorAsSelector (some sel) = .ok s ↔
      ∃ rs qs, sel.labels.toList.mapM (fun kv => lv.newRequirement ⟨kv.1, .equals, [kv.2]⟩) = .ok rs ∧
        sel.exprs.mapM (fun expr => expr.asRequirement >>= lv.newRequirement) = .ok qs ∧
          s = .requirements (rs ++ qs) :=
  bind_requirements_eq_ok

theorem asRequirement_of_newRequirement {expr : LabelSelectorRequirement} {r : Requirement}
    (h : (expr.asRequirement >>= lv.newRequirement) = .ok r) : expr.asRequirement = .ok r := by
  cases hasReq : expr.asRequirement with
  | error e => simp [hasReq, bind, Except.bind] at h
  | ok q =>
    rw [hasReq] at h
    obtain ⟨-, -, -, rfl⟩ := newRequirement_eq_ok.mp h
    rfl

/-- Validation only checks: an accepted selector is built as the proxy builds
it. -/
theorem validatedLabelSelectorAsSelector_eq {sel : LabelSelector} {s : Selector}
    (h : lv.labelSelectorAsSelector (some sel) = .ok s) :
    validatedLabelSelectorAsSelector (some sel) = .ok s := by
  obtain ⟨rs, qs, hrs, hqs, rfl⟩ := labelSelectorAsSelector_eq_ok.mp h
  have hexprs : sel.exprs.mapM (·.asRequirement) = .ok qs :=
    mapM_eq_ok_iff.mpr ((mapM_eq_ok_iff.mp hqs).imp fun _ _ => asRequirement_of_newRequirement)
  have hlabels : sel.labels.toList.map (fun kv => (⟨kv.1, .equals, [kv.2]⟩ : Requirement)) = rs := by
    rw [← List.forall₂_eq_eq_eq, List.forall₂_map_left_iff]
    exact (mapM_eq_ok_iff.mp hrs).imp fun _ _ hr => (newRequirement_eq_ok.mp hr).2.2.2
  simp only [validatedLabelSelectorAsSelector]
  show (sel.exprs.mapM (·.asRequirement) >>= fun exprs => pure (Selector.requirements
    (sel.labels.toList.map (fun kv => (⟨kv.1, .equals, [kv.2]⟩ : Requirement)) ++ exprs))) = _
  rw [hexprs, hlabels]
  rfl

theorem matches_iff_accepts {sel : LabelSelector} {s : Selector} (ls : StringMap String)
    (h : lv.labelSelectorAsSelector (some sel) = .ok s) :
    s.matches ls = true ↔ sel.accepts ls = true := by
  rw [LabelSelector.accepts_iff_validated, validatedLabelSelectorAsSelector_eq h]
  simp

/-- The requirements of a negation. -/
theorem negateLabelSelector_some (sel : LabelSelector) :
    ∃ neg : LabelSelector, negateLabelSelector (some sel) = some neg ∧ neg.labels.toList = [] ∧
      neg.exprs = sel.labels.toList.map (fun kv => ⟨kv.1, .opNotIn, some [kv.2]⟩) ++
        sel.exprs.map (fun expr => ⟨expr.key, expr.operator.negate, expr.values⟩) := by
  have hfirst (bs : List LabelSelectorRequirement) : (appendSlice none bs).getD [] = bs := by
    cases bs <;> rfl
  refine ⟨_, rfl, ?_, ?_⟩
  · simp [LabelSelector.labels]
  · rw [exprs_appendSlice, hfirst]
    rfl

/-- The negation of a valid selector is valid: its requirements have the same keys
and values, and ask for as many values. -/
theorem exists_labelSelectorAsSelector_negate {sel : LabelSelector} {s : Selector}
    (h : lv.labelSelectorAsSelector (some sel) = .ok s) :
    ∃ s', lv.labelSelectorAsSelector (negateLabelSelector (some sel)) = .ok s' := by
  obtain ⟨rs, qs, hrs, hqs, -⟩ := labelSelectorAsSelector_eq_ok.mp h
  obtain ⟨neg, hneg, hlabels, hexprs⟩ := negateLabelSelector_some sel
  have hvalid : ∀ expr ∈ neg.exprs, ∃ q, (expr.asRequirement >>= lv.newRequirement) = .ok q := by
    rw [hexprs]
    simp only [List.forall_mem_append, List.forall_mem_map]
    constructor
    · intro kv hkv
      obtain ⟨r, hr⟩ := exists_mapM_eq_ok_iff.mp ⟨rs, hrs⟩ kv hkv
      exact exists_newRequirement_notIn hr
    · intro expr hexpr
      obtain ⟨q, hq⟩ := exists_mapM_eq_ok_iff.mp ⟨qs, hqs⟩ expr hexpr
      exact exists_newRequirement_negate hq
  obtain ⟨qs', hqs'⟩ := exists_mapM_eq_ok_iff.mpr hvalid
  rw [hneg]
  exact ⟨_, labelSelectorAsSelector_eq_ok.mpr ⟨[], qs', by rw [hlabels]; rfl, hqs', rfl⟩⟩

end LabelValidation

/-- A negation is the complement of a valid selector at some labels if and only if
the selector has a requirement, and the labels meet all of its requirements or
fail all of them. -/
theorem negate_complement_iff {lv : LabelValidation} {sel : LabelSelector} {s : Selector}
    (h : lv.labelSelectorAsSelector (some sel) = .ok s) (ls : StringMap String) :
    (∃ s', lv.labelSelectorAsSelector (negateLabelSelector (some sel)) = .ok s' ∧
        (s'.matches ls = true ↔ ¬s.matches ls = true)) ↔
      sel.HasRequirement ∧ (sel.accepts ls = true ∨ sel.rejects ls = true) := by
  obtain ⟨s', hs'⟩ := LabelValidation.exists_labelSelectorAsSelector_negate h
  obtain ⟨neg, hneg, -, -⟩ := LabelValidation.negateLabelSelector_some sel
  have hrejects : s'.matches ls = true ↔ sel.rejects ls = true := by
    rw [← admits_negateLabelSelector, hneg, admits_some]
    rw [hneg] at hs'
    exact LabelValidation.matches_iff_accepts ls hs'
  rw [LabelValidation.matches_iff_accepts ls h]
  constructor
  · rintro ⟨s'', hs'', hcompl⟩
    obtain rfl : s' = s'' := Except.ok.inj (hs'.symm.trans hs'')
    rw [hrejects] at hcompl
    constructor
    · by_contra hnone
      obtain ⟨ha, hr⟩ := LabelSelector.accepts_and_rejects_of_not_hasRequirement hnone ls
      exact hcompl.mp hr ha
    · by_cases ha : sel.accepts ls = true
      · exact .inl ha
      · exact .inr (hcompl.mpr ha)
  · rintro ⟨hreq, hall⟩
    refine ⟨s', hs', hrejects.trans ⟨fun hr => ?_, fun ha => hall.resolve_left ha⟩⟩
    simp [LabelSelector.not_accepts_of_rejects hreq hr]

/-- Any key and any value is valid. -/
def sampleValidation : LabelValidation := ⟨fun _ => .ok (), fun _ _ => .ok ()⟩

/-- The complement of `app=web` has the pods without labels. -/
theorem negate_complement_sampleWeb :
    ∃ s', sampleValidation.labelSelectorAsSelector
        (negateLabelSelector (some InternalRoute.sampleWeb)) = .ok s' ∧
      (s'.matches ∅ = true ↔
        ¬(Selector.requirements [⟨"app", .equals, ["web"]⟩]).matches ∅ = true) :=
  (negate_complement_iff (by decide +kernel) ∅).mpr
    ⟨.inl (by decide +kernel), .inr (by decide +kernel)⟩

/-- A pod with one of the two labels of a selector matches neither the selector
nor its negation. -/
theorem not_negate_complement_sampleWebFront :
    ∃ s s', sampleValidation.labelSelectorAsSelector (some InternalRoute.sampleWebFront) = .ok s ∧
      sampleValidation.labelSelectorAsSelector
          (negateLabelSelector (some InternalRoute.sampleWebFront)) = .ok s' ∧
        s.matches {("app", "web")} = false ∧ s'.matches {("app", "web")} = false := by
  refine ⟨.requirements [⟨"app", .equals, ["web"]⟩, ⟨"tier", .equals, ["front"]⟩],
    .requirements [⟨"app", .notIn, ["web"]⟩, ⟨"tier", .notIn, ["front"]⟩], ?_⟩
  decide +kernel

end CtrlMesh
