import ControllerMesh.Proof.Loadable

/-!
# What requests record

A request records the answers of the spec it took, about its own
group-resource (`Request.recordOk`). The verdicts of a filtering are the
spec's, and each one about a namespace is in the record
(`Request.verdictsOk`): only `filterItems` leaves verdicts on objects without
a namespace out.
-/

namespace CtrlMesh

open Framework

/-- A record of a request for `gr` that took `spec`. -/
structure RecordOk (spec : InternalSpec) (gr : GroupResource) (rr : ResourceRequest) : Prop where
  gr_eq : rr.gr = gr
  agrees : Decisions.Agrees spec.policy rr.answers
  userAgent : rr.userAgentPassed = none ∨ rr.userAgentDenied = none

/-- The verdicts of a filtering that took `spec` and is released with the
record `rr`. -/
structure VerdictsOk (spec : InternalSpec) (rr : ResourceRequest) (verdicts : List Verdict) :
    Prop where
  passed {v : Verdict} (h : v ∈ verdicts) : spec.isNamespaceMatch v.ns v.gr = v.passed
  recorded {v : Verdict} (h : v ∈ verdicts) (hns : v.ns ≠ "") : v.answer ∈ rr.answers

theorem recordOk_empty (spec : InternalSpec) (gr : GroupResource) :
    RecordOk spec gr { gr := gr } :=
  ⟨rfl, agrees_answers_iff.mpr (by simp), .inl rfl⟩

theorem verdictsOk_nil (spec : InternalSpec) (rr : ResourceRequest) : VerdictsOk spec rr [] :=
  ⟨fun h => by simp at h, fun h => by simp at h⟩

/-! ## Lists -/

theorem ResourceRequest.answers_insertPassed (rr : ResourceRequest) (ns : String) :
    { rr with namespacePassed := rr.namespacePassed.insert ns }.answers =
      insert (.namespaceMatch ns rr.gr, true) rr.answers := by
  ext qa
  constructor
  · rintro (h | h | h | h)
    · rcases StringSet.mem_insert_iff.mp h with rfl | h
      · exact .inl rfl
      · exact .inr (.namespacePassed h)
    · exact .inr (.namespaceDenied h)
    · exact .inr (.userAgentPassed h)
    · exact .inr (.userAgentDenied h)
  · rintro (rfl | h | h | h | h)
    · exact .namespacePassed (StringSet.mem_insert_iff.mpr (.inl rfl))
    · exact .namespacePassed (StringSet.mem_insert_iff.mpr (.inr h))
    · exact .namespaceDenied h
    · exact .userAgentPassed h
    · exact .userAgentDenied h

theorem ResourceRequest.answers_insertDenied (rr : ResourceRequest) (ns : String) :
    { rr with namespaceDenied := rr.namespaceDenied.insert ns }.answers =
      insert (.namespaceMatch ns rr.gr, false) rr.answers := by
  ext qa
  constructor
  · rintro (h | h | h | h)
    · exact .inr (.namespacePassed h)
    · rcases StringSet.mem_insert_iff.mp h with rfl | h
      · exact .inl rfl
      · exact .inr (.namespaceDenied h)
    · exact .inr (.userAgentPassed h)
    · exact .inr (.userAgentDenied h)
  · rintro (rfl | h | h | h | h)
    · exact .namespaceDenied (StringSet.mem_insert_iff.mpr (.inl rfl))
    · exact .namespacePassed h
    · exact .namespaceDenied (StringSet.mem_insert_iff.mpr (.inr h))
    · exact .userAgentPassed h
    · exact .userAgentDenied h

namespace FilterState

variable {ι : Type} {spec : InternalSpec} {gr : GroupResource}

/-- What the loop over the items keeps. -/
structure Ok (spec : InternalSpec) (gr : GroupResource) (st : FilterState ι) : Prop where
  record : RecordOk spec gr st.rr
  verdicts : VerdictsOk spec st.rr st.verdicts
  noSelector : st.rr.objectSelector = none

theorem ok_start : (start gr : FilterState ι).Ok spec gr :=
  ⟨recordOk_empty spec gr, verdictsOk_nil _ _, rfl⟩

/-- One more verdict: it is in the new record, unless it is about no
namespace. -/
theorem Ok.snoc {st : FilterState ι} (h : st.Ok spec gr) {rr : ResourceRequest} {ns : String}
    (hrr : RecordOk spec gr rr) (hsel : rr.objectSelector = none)
    (hsub : st.rr.answers ⊆ rr.answers)
    (hns : ns ≠ "" → (.namespaceMatch ns gr, spec.isNamespaceMatch ns gr) ∈ rr.answers)
    (newItems : List ι) :
    Ok spec gr ⟨newItems, rr, st.verdicts ++ [⟨gr, ns, spec.isNamespaceMatch ns gr⟩]⟩ where
  record := hrr
  noSelector := hsel
  verdicts :=
    { passed := fun {v} hv => by
        rcases List.mem_append.mp hv with hv | hv
        · exact h.verdicts.passed hv
        · obtain rfl := List.mem_singleton.mp hv; rfl
      recorded := fun {v} hv hne => by
        rcases List.mem_append.mp hv with hv | hv
        · exact hsub (h.verdicts.recorded hv hne)
        · obtain rfl := List.mem_singleton.mp hv; exact hns hne }

theorem Ok.visit {st : FilterState ι} (h : st.Ok spec gr) (item : ι) (ns : String) :
    (st.visit spec gr item ns).Ok spec gr := by
  obtain ⟨hgr, hagrees, hua⟩ := h.record
  cases hm : spec.isNamespaceMatch ns gr with
  | true =>
    rw [FilterState.visit, if_pos hm, ← hm]
    split
    · have hp := ResourceRequest.answers_insertPassed st.rr ns
      have hrr : RecordOk spec gr
          { st.rr with namespacePassed := st.rr.namespacePassed.insert ns } :=
        ⟨hgr, by rw [hp, hgr]; exact Set.forall_mem_insert.mpr ⟨hm, hagrees⟩, hua⟩
      exact h.snoc hrr h.noSelector (by rw [hp]; exact Set.subset_insert _ _)
        (fun _ => by rw [hp, hgr, hm]; exact Set.mem_insert _ _) _
    · rename_i hns
      exact h.snoc h.record h.noSelector subset_rfl (fun hne => absurd hne hns) _
  | false =>
    rw [FilterState.visit, if_neg (by simp [hm]), ← hm]
    split
    · have hd := ResourceRequest.answers_insertDenied st.rr ns
      have hrr : RecordOk spec gr
          { st.rr with namespaceDenied := st.rr.namespaceDenied.insert ns } :=
        ⟨hgr, by rw [hd, hgr]; exact Set.forall_mem_insert.mpr ⟨hm, hagrees⟩, hua⟩
      exact h.snoc hrr h.noSelector (by rw [hd]; exact Set.subset_insert _ _)
        (fun _ => by rw [hd, hgr, hm]; exact Set.mem_insert _ _) _
    · rename_i hns
      exact h.snoc h.record h.noSelector subset_rfl (fun hne => absurd hne hns) _

end FilterState

theorem filterUnstructured_ok {spec : InternalSpec} {gr : GroupResource} :
    ∀ (items : List UnstructuredItem) {st : FilterState UnstructuredItem}, st.Ok spec gr →
      (filterUnstructured spec gr items st).2.Ok spec gr
  | [], _, h => h
  | .notObject _ :: _, _, h => h
  | .object ns _ :: items, _, h => filterUnstructured_ok items (h.visit _ ns)

theorem filterTyped_ok {spec : InternalSpec} {gr : GroupResource} :
    ∀ (objs : List TypedItem) {st : FilterState TypedItem}, st.Ok spec gr →
      (filterTyped spec gr objs st).Ok spec gr
  | [], _, h => h
  | ⟨none, _⟩ :: objs, _, h => filterTyped_ok objs ⟨h.record, h.verdicts, h.noSelector⟩
  | ⟨some ns, _⟩ :: objs, _, h => filterTyped_ok objs (h.visit _ ns)

/-- What a filtering for `gr` that took `spec` records and decides: nothing, or
a record without an object selector that has its verdicts. -/
inductive Filtering (spec : InternalSpec) (gr : GroupResource) :
    Option ResourceRequest → List Verdict → Prop where
  | skipped : Filtering spec gr none []
  | recorded {rr : ResourceRequest} {verdicts : List Verdict} (hrr : RecordOk spec gr rr)
      (hsel : rr.objectSelector = none) (hv : VerdictsOk spec rr verdicts) :
      Filtering spec gr (some rr) verdicts

theorem filterItems_ok (h : HandlerConfig) (spec : InternalSpec) (obj : ListObject) :
    Filtering spec h.groupResource (filterItems h spec obj).record
      (filterItems h spec obj).verdicts := by
  have hempty : Filtering spec h.groupResource (some { gr := h.groupResource }) [] :=
    .recorded (recordOk_empty _ _) rfl (verdictsOk_nil _ _)
  cases hu : h.userAgentDenied with
  | true => cases obj <;> simp only [filterItems, hu, if_true] <;> exact .skipped
  | false =>
    rcases obj with (_ | _ | items) | objs | err
    · simpa [filterItems, hu] using hempty
    · simpa [filterItems, hu] using hempty
    · have hok : (filterUnstructured spec h.groupResource items
          (.start h.groupResource)).2.Ok spec h.groupResource :=
        filterUnstructured_ok items FilterState.ok_start
      rcases e : filterUnstructured spec h.groupResource items (.start h.groupResource)
        with ⟨_ | err, st⟩ <;>
      · rw [e] at hok
        simpa [filterItems, hu, e] using .recorded hok.record hok.noSelector hok.verdicts
    · have hok : (filterTyped spec h.groupResource objs
          (.start h.groupResource)).Ok spec h.groupResource :=
        filterTyped_ok objs FilterState.ok_start
      simpa [filterItems, hu] using .recorded hok.record hok.noSelector hok.verdicts
    · simpa [filterItems, hu] using hempty

/-! ## Watches -/

theorem filterEvent_ok (h : HandlerConfig) (spec : InternalSpec) (eventType : String)
    (ns : Except String String) :
    Filtering spec h.groupResource (filterEvent h spec eventType ns).record
      (filterEvent h spec eventType ns).verdicts := by
  cases hu : h.userAgentDenied with
  | true => simpa [filterEvent, hu] using .skipped
  | false =>
    cases ns with
    | error err => simpa [filterEvent, hu] using .skipped
    | ok ns =>
      cases hm : spec.isNamespaceMatch ns h.groupResource with
      | true =>
        have hrr : RecordOk spec h.groupResource
            { gr := h.groupResource, namespacePassed := .ofItems [ns] } :=
          ⟨rfl, agrees_answers_iff.mpr (by simp [hm]), .inl rfl⟩
        have hv : VerdictsOk spec { gr := h.groupResource, namespacePassed := .ofItems [ns] }
            [⟨h.groupResource, ns, true⟩] :=
          ⟨fun h => by simp_all, fun hmem _ => by
            obtain rfl := List.mem_singleton.mp hmem
            exact .namespacePassed (by simp)⟩
        simpa [filterEvent, hu, hm] using .recorded hrr rfl hv
      | false =>
        have hrr : RecordOk spec h.groupResource
            { gr := h.groupResource, namespaceDenied := .ofItems [ns] } :=
          ⟨rfl, agrees_answers_iff.mpr (by simp [hm]), .inl rfl⟩
        have hv : VerdictsOk spec { gr := h.groupResource, namespaceDenied := .ofItems [ns] }
            [⟨h.groupResource, ns, false⟩] :=
          ⟨fun h => by simp_all, fun hmem _ => by
            obtain rfl := List.mem_singleton.mp hmem
            exact .namespaceDenied (by simp)⟩
        simpa [filterEvent, hu, hm] using .recorded hrr rfl hv

/-! ## Requests -/

theorem recordOk_userAgentRecord (spec : InternalSpec) (userAgent : String) (gr : GroupResource) :
    RecordOk spec gr (userAgentRecord spec userAgent gr) := by
  cases h : spec.isUserAgentMatch userAgent with
  | true =>
    rw [userAgentRecord, if_pos h]
    exact ⟨rfl, agrees_answers_iff.mpr (by simp [h]), .inr rfl⟩
  | false =>
    rw [userAgentRecord, if_neg (by simp [h])]
    exact ⟨rfl, agrees_answers_iff.mpr (by simp [h]), .inl rfl⟩

/-- The record of a user agent says nothing of the resource. -/
theorem records_userAgentRecord (spec : InternalSpec) (userAgent : String) (gr : GroupResource) :
    RequestsPack.records (userAgentRecord spec userAgent gr) = false := by
  unfold userAgentRecord
  split <;> rfl

/-- The record of a routed request: its user agent, and the object selector of
the spec if one was injected. -/
theorem routeResource_record (discoverGVR : GroupVersionResource → Discovery)
    (injectSelector : LabelSelector → Option String) (spec : InternalSpec) (userAgent : String)
    (reqInfo : RequestInfo) :
    let gr : GroupResource := ⟨reqInfo.apiGroup, reqInfo.resource⟩
    let rr := (routeResource discoverGVR injectSelector spec userAgent reqInfo).2
    rr = userAgentRecord spec userAgent gr ∨
      discoverGVR ⟨reqInfo.apiGroup, reqInfo.apiVersion, reqInfo.resource⟩ = .found ∧
        rr = { userAgentRecord spec userAgent gr with objectSelector := spec.getObjectSelector gr } := by
  intro gr rr
  have hresp (h : HandlerConfig) (hgr : h.groupResource = gr) (verb : String)
      (rr₀ : ResourceRequest) :
      (routeResponse injectSelector spec rr₀ h verb).2 = rr₀ ∨
        (routeResponse injectSelector spec rr₀ h verb).2 =
          { rr₀ with objectSelector := spec.getObjectSelector gr } := by
    unfold routeResponse
    rw [hgr]
    cases hs : spec.getObjectSelector gr with
    | none => exact .inl rfl
    | some sel =>
      cases hi : injectSelector sel with
      | none => exact .inr (by simp [hi])
      | some err => exact .inl (by simp [hi])
  simp only [rr, routeResource]
  cases discoverGVR ⟨reqInfo.apiGroup, reqInfo.apiVersion, reqInfo.resource⟩ with
  | notFound => exact .inl rfl
  | failed err => exact .inl rfl
  | found =>
    simp only [true_and]
    split
    · exact hresp _ rfl _ _
    · split
      · exact .inl rfl
      · split <;> exact .inl rfl

theorem recordOk_routeResource (discoverGVR : GroupVersionResource → Discovery)
    (injectSelector : LabelSelector → Option String) (spec : InternalSpec) (userAgent : String)
    (reqInfo : RequestInfo) :
    RecordOk spec ⟨reqInfo.apiGroup, reqInfo.resource⟩
      (routeResource discoverGVR injectSelector spec userAgent reqInfo).2 := by
  have hok := recordOk_userAgentRecord spec userAgent ⟨reqInfo.apiGroup, reqInfo.resource⟩
  rcases routeResource_record discoverGVR injectSelector spec userAgent reqInfo with h | ⟨-, h⟩
  · rw [h]; exact hok
  · have hagrees := agrees_answers_iff.mp hok.agrees
    rw [h]
    exact ⟨hok.gr_eq, agrees_answers_iff.mpr hagrees, hok.userAgent⟩

namespace Request

/-- A request records answers of the spec it took, about its own
group-resource. -/
theorem recordOk {req : Request} {spec : InternalSpec} {rr : ResourceRequest}
    (h : req.record spec = some rr) : ∃ gr, req.gr = some gr ∧ RecordOk spec gr rr := by
  cases req with
  | route discoverGVR injectSelector userAgent reqInfo =>
    refine ⟨_, rfl, ?_⟩
    simp only [record, CtrlMesh.route] at h
    split at h
    · simp at h
    · obtain rfl := Option.some.inj h
      exact recordOk_routeResource _ _ _ _ _
  | list hc obj =>
    refine ⟨_, rfl, ?_⟩
    have hok := filterItems_ok hc spec obj
    simp only [record] at h
    rw [h] at hok
    cases hok with
    | recorded hrr => exact hrr
  | watch hc eventType ns =>
    refine ⟨_, rfl, ?_⟩
    have hok := filterEvent_ok hc spec eventType ns
    simp only [record] at h
    rw [h] at hok
    cases hok with
    | recorded hrr => exact hrr
  | unrecorded => simp [record] at h

/-- What a request for a well named resource records stands under that name. -/
theorem WellNamed.record {req : Request} (hw : req.WellNamed) {spec : InternalSpec}
    {rr : ResourceRequest} (h : req.record spec = some rr)
    (hr : RequestsPack.records rr = true) : rr.gr.WellNamed := by
  obtain ⟨gr, hgr, hok⟩ := recordOk h
  rw [hok.gr_eq]
  cases req with
  | route discoverGVR injectSelector userAgent reqInfo =>
    simp only [Request.record, CtrlMesh.route] at h
    split at h
    · simp at h
    · obtain rfl := Option.some.inj h
      rcases routeResource_record discoverGVR injectSelector spec userAgent reqInfo
        with h | ⟨hfound, -⟩
      · rw [h, records_userAgentRecord] at hr
        simp at hr
      · obtain rfl := Option.some.inj hgr
        exact hw hfound
  | list hc obj => exact Option.some.inj hgr ▸ hw
  | watch hc eventType ns => exact Option.some.inj hgr ▸ hw
  | unrecorded => simp [Request.gr] at hgr

/-- Verdicts are answers of the spec, and those about a namespace are
recorded. -/
theorem verdictsOk {req : Request} {spec : InternalSpec} {v : Verdict}
    (h : v ∈ req.verdicts spec) :
    spec.isNamespaceMatch v.ns v.gr = v.passed ∧
      (v.ns ≠ "" → ∃ rr, req.record spec = some rr ∧ v.answer ∈ rr.answers) := by
  have hfilter {gr : GroupResource} {record : Option ResourceRequest} {verdicts : List Verdict}
      (hok : Filtering spec gr record verdicts) (hv : v ∈ verdicts) :
      spec.isNamespaceMatch v.ns v.gr = v.passed ∧
        (v.ns ≠ "" → ∃ rr, record = some rr ∧ v.answer ∈ rr.answers) := by
    cases hok with
    | skipped => simp at hv
    | recorded _ _ hvs => exact ⟨hvs.passed hv, fun hns => ⟨_, rfl, hvs.recorded hv hns⟩⟩
  cases req with
  | route => simp [verdicts] at h
  | list hc obj => exact hfilter (filterItems_ok hc spec obj) h
  | watch hc eventType ns => exact hfilter (filterEvent_ok hc spec eventType ns) h
  | unrecorded => simp [verdicts] at h

end Request

end CtrlMesh
