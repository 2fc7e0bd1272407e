import ControllerMesh.Impl.Response
import ControllerMesh.Proof.ObjectSelectors

/-!
# What the program gets to see

`filterItems` keeps the items in matching namespaces, in their order
(`newItems_filterUnstructured`, `newItems_filterTyped`).

* `listPath_eq`: a list shows the objects that could be requested one by one
  and that the object selector of the subset matches;
* `delivered_iff`: when a list response delivers exactly the items it should.
-/

namespace CtrlMesh

open Framework

/-! ## Filtering -/

theorem newItems_visit {ι : Type} (spec : InternalSpec) (gr : GroupResource) (st : FilterState ι)
    (item : ι) (ns : String) :
    (st.visit spec gr item ns).newItems =
      st.newItems ++ if spec.isNamespaceMatch ns gr then [item] else [] := by
  unfold FilterState.visit
  split <;> simp

@[simp] theorem newItems_start {ι : Type} (gr : GroupResource) :
    (FilterState.start gr : FilterState ι).newItems = [] := rfl

/-- The namespace of a member of the items, if it is an object. -/
def UnstructuredItem.ns : UnstructuredItem → Option String
  | object ns _ => some ns
  | notObject _ => none

theorem filterUnstructured_error_iff (spec : InternalSpec) (gr : GroupResource)
    (items : List UnstructuredItem) (st : FilterState UnstructuredItem) :
    (filterUnstructured spec gr items st).1 = none ↔ ∀ item ∈ items, item.ns.isSome := by
  induction items generalizing st with
  | nil => simp [filterUnstructured]
  | cons item items ih =>
    cases item with
    | object ns body => simp [filterUnstructured, ih, UnstructuredItem.ns]
    | notObject body => simp [filterUnstructured, UnstructuredItem.ns]

theorem newItems_filterUnstructured (spec : InternalSpec) (gr : GroupResource)
    {items : List UnstructuredItem} (hitems : ∀ item ∈ items, item.ns.isSome)
    (st : FilterState UnstructuredItem) :
    (filterUnstructured spec gr items st).2.newItems =
      st.newItems ++ items.filter fun item => item.ns.any (spec.isNamespaceMatch · gr) := by
  induction items generalizing st with
  | nil => simp [filterUnstructured]
  | cons item items ih =>
    obtain ⟨hitem, hrest⟩ := List.forall_mem_cons.mp hitems
    cases item with
    | notObject body => simp [UnstructuredItem.ns] at hitem
    | object ns body =>
      rw [filterUnstructured, ih hrest, newItems_visit, List.append_assoc]
      congr 1
      cases hm : spec.isNamespaceMatch ns gr <;> simp [UnstructuredItem.ns, hm]

/-- Objects without metadata are kept, too. -/
theorem newItems_filterTyped (spec : InternalSpec) (gr : GroupResource) (objs : List TypedItem)
    (st : FilterState TypedItem) :
    (filterTyped spec gr objs st).newItems =
      st.newItems ++ objs.filter fun o => o.ns.all (spec.isNamespaceMatch · gr) := by
  induction objs generalizing st with
  | nil => simp [filterTyped]
  | cons o objs ih =>
    obtain ⟨ns, body⟩ := o
    cases ns with
    | none => simp [filterTyped, ih]
    | some ns =>
      rw [filterTyped, ih, newItems_visit, List.append_assoc]
      congr 1
      cases hm : spec.isNamespaceMatch ns gr <;> simp [hm]

section

variable (h : HandlerConfig) (spec : InternalSpec)

/-- Whether an item is to be delivered: it has a namespace that matches, and the
user agent is not denied. -/
def deliverable (ns : Option String) : Bool :=
  !h.userAgentDenied && ns.any (spec.isNamespaceMatch · h.groupResource)

theorem list_filterItems_unstructured {items : List UnstructuredItem}
    (hitems : h.userAgentDenied = true ∨ ∀ item ∈ items, item.ns.isSome) :
    (filterItems h spec (.unstructured (.items items))).list =
      .unstructured (.items (items.filter fun item => deliverable h spec item.ns)) := by
  cases hu : h.userAgentDenied with
  | true => simp [filterItems, deliverable, hu]
  | false =>
    have hobjects := hitems.resolve_left (by simp [hu])
    have herr := (filterUnstructured_error_iff spec h.groupResource items
      (.start h.groupResource)).mpr hobjects
    have hnew := newItems_filterUnstructured spec h.groupResource hobjects (.start h.groupResource)
    rcases hf : filterUnstructured spec h.groupResource items (.start h.groupResource) with ⟨err, st⟩
    rw [hf] at herr hnew
    obtain rfl : err = none := herr
    have hkept : st.newItems = _ := hnew
    simp [filterItems, hu, hf, hkept, deliverable]

theorem list_filterItems_typed (objs : List TypedItem) :
    (filterItems h spec (.typed objs)).list =
      .typed (objs.filter fun o =>
        !h.userAgentDenied && o.ns.all (spec.isNamespaceMatch · h.groupResource)) := by
  cases hu : h.userAgentDenied with
  | true => simp [filterItems, hu]
  | false => simp [filterItems, hu, newItems_filterTyped]

end

/-! ## Lists and single objects -/

/-- An object and the item that a list shows of it have one namespace, so
filtering a list is filtering the objects. -/
theorem filterItems_listObject (h : HandlerConfig) (spec : InternalSpec) (typed : Bool)
    (objs : List ApiObject) :
    (filterItems h spec (listObject typed objs)).list =
      listObject typed (objs.filter fun o =>
        !h.userAgentDenied && spec.isNamespaceMatch o.ns h.groupResource) := by
  cases typed with
  | true =>
    simp only [listObject, if_true]
    rw [list_filterItems_typed, List.filter_map]
    rfl
  | false =>
    simp only [listObject, Bool.false_eq_true, if_false]
    rw [list_filterItems_unstructured h spec (.inr (by simp [UnstructuredItem.ns])), List.filter_map]
    rfl

theorem selectedObjects_eq (spec : InternalSpec) (gr : GroupResource) (objs : List ApiObject) :
    selectedObjects spec gr objs =
      objs.filter fun o => admits (spec.getObjectSelector gr) o.labels := by
  unfold selectedObjects
  cases spec.getObjectSelector gr with
  | none => simp
  | some sel =>
    have haccepts (ls : StringMap String) := sel.accepts_iff_validated ls
    simp only [injectSelector, mergeLabelSelector, bind, Except.bind]
    cases hv : validatedLabelSelectorAsSelector (some sel) with
    | error err =>
      have hnone (ls : StringMap String) : sel.accepts ls = false := by simpa [hv] using haccepts ls
      simp [hnone]
    | ok selector =>
      refine List.filter_congr fun o _ => ?_
      rw [admits_some, Bool.eq_iff_iff, haccepts, hv]
      simp

theorem requestNamespace_pathParts {resource : String} {o : ApiObject}
    (ho : ¬o.IsNamespace resource) : requestNamespace (o.pathParts resource) = o.ns := by
  unfold ApiObject.pathParts
  by_cases hns : o.ns = ""
  · have hresource : resource ≠ "namespaces" := fun h => ho ⟨hns, h⟩
    simp [hns, requestNamespace, hresource]
  · simp [hns, requestNamespace]

section

variable (discoverGVR : GroupVersionResource → Discovery) (spec : InternalSpec) (userAgent : String)
  (gvr : GroupVersionResource)

/-- `Route` accepts a request for one object. -/
def acceptsObject (verb : String) (o : ApiObject) : Bool :=
  (route discoverGVR (fun sel => errorOf (injectSelector (.ok none) sel)) spec userAgent
    (objectRequestInfo verb gvr o)).1.isOk

variable {discoverGVR spec userAgent gvr}

theorem acceptsObject_eq {verb : String} (hverb : verb ≠ "list" ∧ verb ≠ "watch") {o : ApiObject}
    (ho : ¬o.IsNamespace gvr.resource) :
    acceptsObject discoverGVR spec userAgent gvr verb o =
      (discoverGVR gvr == .notFound || discoverGVR gvr == .found &&
        (spec.isUserAgentMatch userAgent && spec.isNamespaceMatch o.ns gvr.groupResource)) := by
  simp only [acceptsObject, route, objectRequestInfo, routeResource,
    requestNamespace_pathParts ho, hverb.1, hverb.2, or_self, if_false, Bool.not_true,
    Bool.false_eq_true]
  cases discoverGVR gvr with
  | notFound => rfl
  | failed err => rfl
  | found =>
    cases spec.isUserAgentMatch userAgent with
    | false => rfl
    | true => cases spec.isNamespaceMatch o.ns gvr.groupResource <;> rfl

/-- A list of a resource that discovery knows: a selector that cannot be injected
matches nothing, so that then, too, nothing is shown. -/
theorem listPath_found (hfound : discoverGVR gvr = .found) (ns : String) (typed : Bool)
    (objs : List ApiObject) :
    (listPath discoverGVR spec userAgent gvr ns typed objs).getD (listObject typed []) =
      listObject typed ((selectedObjects spec gvr.groupResource objs).filter fun o =>
        spec.isUserAgentMatch userAgent && spec.isNamespaceMatch o.ns gvr.groupResource) := by
  have hroute : (route discoverGVR (fun sel => errorOf (injectSelector (.ok none) sel)) spec
      userAgent (listRequestInfo gvr ns)).1 =
        (routeResponse (fun sel => errorOf (injectSelector (.ok none) sel)) spec
          (userAgentRecord spec userAgent gvr.groupResource)
          ⟨gvr.groupResource, !spec.isUserAgentMatch userAgent⟩ "list").1 := by
    simp [route, routeResource, listRequestInfo, hfound]
  have hfilter (shown : List ApiObject) :=
    filterItems_listObject ⟨gvr.groupResource, !spec.isUserAgentMatch userAgent⟩ spec typed shown
  simp only [Bool.not_not] at hfilter
  rw [listPath, hroute, routeResponse]
  unfold selectedObjects
  cases spec.getObjectSelector gvr.groupResource with
  | none => exact hfilter objs
  | some sel =>
    cases hinject : injectSelector (.ok none) sel with
    | error err => simp [hinject, errorOf]
    | ok selector =>
      simpa [hinject, errorOf] using hfilter (objs.filter fun o => selector.matches o.labels)

/-- A list shows, in their order, the objects that requests for them by name
are accepted for and, if discovery knows the resource, that the object selector
of the subset matches. -/
theorem listPath_eq {verb : String} (hverb : verb ≠ "list" ∧ verb ≠ "watch") (ns : String)
    (typed : Bool) {objs : List ApiObject} (hobjs : ∀ o ∈ objs, ¬o.IsNamespace gvr.resource) :
    (listPath discoverGVR spec userAgent gvr ns typed objs).getD (listObject typed []) =
      listObject typed (objs.filter fun o =>
        acceptsObject discoverGVR spec userAgent gvr verb o &&
          (discoverGVR gvr == .notFound ||
            admits (spec.getObjectSelector gvr.groupResource) o.labels)) := by
  have haccepts : ∀ o ∈ objs, acceptsObject discoverGVR spec userAgent gvr verb o = _ :=
    fun o ho => acceptsObject_eq hverb (hobjs o ho)
  cases hd : discoverGVR gvr with
  | notFound =>
    have hlist : listPath discoverGVR spec userAgent gvr ns typed objs =
        some (listObject typed objs) := by
      simp [listPath, route, routeResource, listRequestInfo, hd]
    rw [hlist, Option.getD_some, List.filter_eq_self.mpr fun o ho => ?_]
    rw [haccepts o ho, hd]
    rfl
  | failed err =>
    have hlist : listPath discoverGVR spec userAgent gvr ns typed objs = none := by
      simp [listPath, route, routeResource, listRequestInfo, hd]
    rw [hlist, Option.getD_none, List.filter_eq_nil_iff.mpr fun o ho => ?_]
    rw [haccepts o ho, hd]
    exact Bool.false_ne_true
  | found =>
    rw [listPath_found hd, selectedObjects_eq, List.filter_filter]
    congr 1
    refine List.filter_congr fun o ho => ?_
    rw [haccepts o ho, hd]
    rfl

end

/-- The spec of subset `canary`, whose pods carry a label. -/
def samplePodsSpec : InternalSpec where
  proxySpecV1 := ⟨⟨"app", "h1"⟩, ⟨"canary", [], [], [], []⟩, []⟩
  routeInternal :=
    { InternalRoute.samplePodsRoute InternalRoute.sampleWeb with
      subset := "canary"
      subsetPublicResources := [⟨[""], ["pods"]⟩] }

def samplePodObjects : List ApiObject :=
  [⟨"web-0", "ns-a", {("app", "web")}, "a"⟩, ⟨"db-0", "ns-a", {("app", "db")}, "b"⟩]

theorem listPath_eq_samplePodsSpec :
    (∀ o ∈ samplePodObjects, ¬o.IsNamespace "pods") ∧
      (listPath (fun _ => .found) samplePodsSpec "manager" ⟨"", "v1", "pods"⟩ "" false
          samplePodObjects).getD (listObject false []) =
        listObject false (samplePodObjects.filter fun o =>
          acceptsObject (fun _ => .found) samplePodsSpec "manager" ⟨"", "v1", "pods"⟩ "get" o &&
            (false || admits (samplePodsSpec.getObjectSelector ⟨"", "pods"⟩) o.labels)) := by
  have hobjs : ∀ o ∈ samplePodObjects, ¬o.IsNamespace "pods" := by decide +kernel
  exact ⟨hobjs, listPath_eq (by decide) "" false hobjs⟩

/-- A pod that the selector does not match can be requested by name, but no list
shows it. A list of the default subset shows a namespace that cannot be requested
by name, since the path of a namespace names it as the namespace of the
request. -/
theorem listPath_ne_acceptsObject :
    (acceptsObject (fun _ => .found) samplePodsSpec "manager" ⟨"", "v1", "pods"⟩ "get"
        ⟨"db-0", "ns-a", {("app", "db")}, "b"⟩ = true ∧
      listPath (fun _ => .found) samplePodsSpec "manager" ⟨"", "v1", "pods"⟩ "" false
        [⟨"db-0", "ns-a", {("app", "db")}, "b"⟩] = some (listObject false [])) ∧
    (acceptsObject (fun _ => .found)
        { samplePodsSpec with routeInternal := { samplePodsSpec.routeInternal with subset := "" } }
        "manager" ⟨"", "v1", "namespaces"⟩ "get" ⟨"ns-a", "", ∅, "c"⟩ = false ∧
      listPath (fun _ => .found)
        { samplePodsSpec with routeInternal := { samplePodsSpec.routeInternal with subset := "" } }
        "manager" ⟨"", "v1", "namespaces"⟩ "" false [⟨"ns-a", "", ∅, "c"⟩] =
          some (listObject false [⟨"ns-a", "", ∅, "c"⟩])) := by
  decide +kernel

/-! ## What a list response delivers -/

namespace DecodedList

/-- The namespaces of the objects whose data a response carries. -/
def namespaces : DecodedList → List (Option String)
  | typed objs => objs.map (·.ns)
  | unstructured items => items.map (·.ns)
  | other namespaces _ => namespaces.map some

/-- The same object with the data of some of the objects. -/
def keep (f : Option String → Bool) : DecodedList → DecodedList
  | typed objs => typed (objs.filter fun o => f o.ns)
  | unstructured items => unstructured (items.filter fun item => f item.ns)
  | other namespaces body => other (namespaces.filter fun ns => f (some ns)) body

theorem keep_eq_self_iff {f : Option String → Bool} {d : DecodedList} :
    d.keep f = d ↔ ∀ ns ∈ d.namespaces, f ns = true := by
  cases d <;> simp [keep, namespaces, List.filter_eq_self]

/-- A list that `filterItems` can go through: all its members are objects with
metadata, or the user agent is denied and they are not looked at. -/
def Filterable (h : HandlerConfig) (d : DecodedList) : Prop :=
  d.asList.isSome ∧ (h.userAgentDenied = true ∨ ∀ ns ∈ d.namespaces, ns.isSome)

variable {h : HandlerConfig} {spec : InternalSpec}

theorem filtered_typed (objs : List TypedItem) :
    (typed objs).filtered h spec = typed (objs.filter fun o =>
      !h.userAgentDenied && o.ns.all (spec.isNamespaceMatch · h.groupResource)) := by
  show ofList _ (filterItems h spec (.typed objs)).list = _
  rw [list_filterItems_typed, ofList]

theorem filtered_unstructured {items : List UnstructuredItem}
    (hitems : h.userAgentDenied = true ∨ ∀ item ∈ items, item.ns.isSome) :
    (unstructured items).filtered h spec =
      unstructured (items.filter fun item => deliverable h spec item.ns) := by
  show ofList _ (filterItems h spec (.unstructured (.items items))).list = _
  rw [list_filterItems_unstructured h spec hitems, ofList]

/-- After an error the items are the old ones. -/
theorem filtered_unstructured_error {items : List UnstructuredItem}
    (hu : h.userAgentDenied = false) (hitems : ¬∀ item ∈ items, item.ns.isSome) :
    (unstructured items).filtered h spec = unstructured items := by
  have herr := mt (filterUnstructured_error_iff spec h.groupResource items
    (.start h.groupResource)).mp hitems
  rcases hf : filterUnstructured spec h.groupResource items (.start h.groupResource)
    with ⟨_ | err, st⟩
  · rw [hf] at herr
    exact absurd rfl herr
  · simp [filtered, asList, filterItems, hu, hf, ofList]

/-- The object that is encoded has the items it should have if and only if
`filterItems` went through the list or there is nothing to hold back. -/
theorem filtered_eq_keep_iff (d : DecodedList) :
    d.filtered h spec = d.keep (deliverable h spec) ↔
      d.Filterable h ∨ ∀ ns ∈ d.namespaces, deliverable h spec ns = true := by
  cases d with
  | other namespaces body =>
    rw [← keep_eq_self_iff, filtered, asList, eq_comm, or_iff_right]
    exact fun hf => by simpa [asList] using hf.1
  | typed objs =>
    rw [filtered_typed, keep, typed.injEq, Filterable, namespaces, List.forall_mem_map,
      List.forall_mem_map]
    constructor
    · intro heq
      refine .inl ⟨rfl, or_iff_not_imp_left.mpr fun hu o ho => ?_⟩
      -- an object without metadata is in the list that was encoded
      by_contra hns
      have hnone : o.ns = none := by simpa using hns
      have hmem : o ∈ objs.filter fun o => deliverable h spec o.ns := by
        rw [← heq, List.mem_filter]
        exact ⟨ho, by simp [hu, hnone]⟩
      simpa [deliverable, hnone] using (List.mem_filter.mp hmem).2
    · intro hor
      refine List.filter_congr fun o ho => ?_
      cases hns : o.ns with
      | some ns => rfl
      | none =>
        rcases hor with ⟨-, hu | hsome⟩ | hall
        · simp [deliverable, hu]
        · simpa [hns] using hsome o ho
        · simpa [hns, deliverable] using hall o ho
  | unstructured items =>
    rw [Filterable, namespaces, List.forall_mem_map, List.forall_mem_map]
    by_cases hok : h.userAgentDenied = true ∨ ∀ item ∈ items, item.ns.isSome
    · rw [filtered_unstructured hok, keep]
      simp only [asList, Option.isSome_some, true_and, hok, true_or]
    · obtain ⟨hu, hitems⟩ := not_or.mp hok
      rw [filtered_unstructured_error (by simpa using hu) hitems, eq_comm, keep_eq_self_iff,
        namespaces, List.forall_mem_map, or_iff_right]
      exact fun hf => hok hf.2

end DecodedList

/-- What the client gets of a response that decodes to `d`. -/
def HandledResponse.delivered (d : DecodedList) : HandledResponse → Option DecodedList
  | unmodified => some d
  | failed _ => none
  | replaced obj => some obj

/-- A response with a 2xx status delivers nothing but the object with the items
that are to be delivered, if and only if its status is at most 206 and it fails
to be encoded or `filterItems` goes through it without an error, or else there
is nothing to hold back in it. -/
theorem delivered_iff (h : HandlerConfig) (spec : InternalSpec) {statusCode : Nat}
    (hstatus : 200 ≤ statusCode ∧ statusCode < 300) (d : DecodedList) (encodeError : Option String) :
    (∀ obj, (handle h spec statusCode none (.ok d) encodeError).delivered d = some obj →
        obj = d.keep (deliverable h spec)) ↔
      statusCode ≤ 206 ∧ (encodeError.isSome ∨ d.Filterable h) ∨
        ∀ ns ∈ d.namespaces, deliverable h spec ns = true := by
  by_cases hle : statusCode ≤ 206
  · have hrange : ¬(statusCode < 200 ∨ 206 < statusCode) := by omega
    simp only [handle, if_neg hrange, and_iff_right hle]
    cases encodeError with
    | some err => simp [HandledResponse.delivered]
    | none =>
      simp only [HandledResponse.delivered, Option.some.injEq, forall_eq', Option.isSome_none,
        Bool.false_eq_true, false_or]
      exact DecodedList.filtered_eq_keep_iff d
  · have hrange : statusCode < 200 ∨ 206 < statusCode := by omega
    simp only [handle, if_pos hrange, HandledResponse.delivered, Option.some.injEq, forall_eq',
      hle, false_and, false_or]
    rw [eq_comm, DecodedList.keep_eq_self_iff]

theorem delivered_samplePodsSpec :
    ((DecodedList.unstructured [.object "ns-a" "a", .object "ns-b" "b"]).Filterable
        ⟨⟨"", "configmaps"⟩, false⟩) ∧
      ∀ obj, (handle ⟨⟨"", "configmaps"⟩, false⟩ samplePodsSpec 200 none
          (.ok (.unstructured [.object "ns-a" "a", .object "ns-b" "b"])) none).delivered
            (.unstructured [.object "ns-a" "a", .object "ns-b" "b"]) = some obj →
        obj = (DecodedList.unstructured [.object "ns-a" "a", .object "ns-b" "b"]).keep
          (deliverable ⟨⟨"", "configmaps"⟩, false⟩ samplePodsSpec) := by
  have hfilterable : (DecodedList.unstructured [.object "ns-a" "a", .object "ns-b" "b"]).Filterable
      ⟨⟨"", "configmaps"⟩, false⟩ := ⟨rfl, .inr (by decide)⟩
  exact ⟨hfilterable, (delivered_iff _ _ (by decide) _ none).mpr (.inl ⟨by decide, .inr hfilterable⟩)⟩

/-- Configmaps of namespaces that do not match are delivered: in a list with a
member that is not an object, as a single object of the resource's own group-version,
which is not a list, and with status 207. -/
theorem delivered_leak :
    deliverable ⟨⟨"", "configmaps"⟩, false⟩ samplePodsSpec (some "ns-a") = false ∧
      handle ⟨⟨"", "configmaps"⟩, false⟩ samplePodsSpec 200 none
          (.ok (.unstructured [.object "ns-a" "secret", .notObject "1"])) none =
        .replaced (.unstructured [.object "ns-a" "secret", .notObject "1"]) ∧
      handle ⟨⟨"", "configmaps"⟩, false⟩ samplePodsSpec 200 none
          (.ok (.other ["ns-a"] "secret")) none =
        .replaced (.other ["ns-a"] "secret") ∧
      handle ⟨⟨"", "configmaps"⟩, false⟩ samplePodsSpec 207 none
          (.ok (.unstructured [.object "ns-a" "secret"])) none =
        .unmodified := by
  decide +kernel

end CtrlMesh
