import ControllerMesh.Proof.Proxy

/-!
# When a spec with the same route can be loaded

`checkLoadable` compares the object selectors in the history with those of the
expected spec. `Route` records the selector it injected, but the filters of
responses record none, and `add` takes the selector of the last record. So
filtering a response of a resource that has a selector erases it from the
history, and then even a spec with the same route is rejected.

* `selectorsOf_add`: what a record does to the selectors in the history;
* `records_filterItems`, `records_filterEvent`: when a filtering records
  anything;
* `reloads_iff`: over whole runs, a spec with the route of the current one can
  always be loaded exactly when no response is filtered for a resource that has
  an object selector.
-/

namespace CtrlMesh

open Framework

/-! ## Records and selectors -/

/-- A record keeps the selectors of the history those of the spec exactly when
its own is, or it says nothing of its group-resource. -/
theorem RequestsPack.selectorsOf_add {pack : RequestsPack} (hk : pack.WellKeyed)
    {spec : InternalSpec} (hs : pack.SelectorsOf spec) {req : ResourceRequest}
    (hgr : records req = true → req.gr.WellNamed) :
    (pack.add (some req)).1.SelectorsOf spec ↔
      (records req = true → req.objectSelector = spec.getObjectSelector req.gr) := by
  constructor
  · intro h hr
    have hget := getElem?_add pack req req.gr.toStr
    rw [if_pos ⟨hr, rfl⟩] at hget
    have hsel := h _ _ hget
    rwa [objectSelector_recorded, gr_recorded hk (hgr hr)] at hsel
  · intro h key r hr
    rw [getElem?_add] at hr
    split at hr
    · rename_i hrec
      cases hr
      rw [objectSelector_recorded, gr_recorded hk (hgr hrec.1)]
      exact h hrec.1
    · exact hs _ _ hr

/-! ## What filterings record -/

/-- The namespaces of the items that the loop of `filterItems` visits. -/
def visitedItems : List UnstructuredItem → List String
  | .object ns _ :: items => ns :: visitedItems items
  | _ => []

def ListObject.visited : ListObject → List String
  | .unstructured (.items items) => visitedItems items
  | .typed objs => objs.filterMap (·.ns)
  | _ => []

/-- The group-resource of which a request filters responses: a list with an
object in a namespace, or an event of a watch. -/
def Request.filteredGR : Request → Option GroupResource
  | .list h obj =>
    if !h.userAgentDenied && obj.visited.any (· ≠ "") then some h.groupResource else none
  | .watch h _ (.ok _) => if !h.userAgentDenied then some h.groupResource else none
  | _ => none

theorem records_visit {ι : Type} (spec : InternalSpec) (gr : GroupResource) (st : FilterState ι)
    (item : ι) (ns : String) :
    RequestsPack.records (st.visit spec gr item ns).rr =
      (RequestsPack.records st.rr || decide (ns ≠ "")) := by
  have hpos (s : StringSet) : 0 < (s.insert ns).size :=
    StringSet.size_pos_iff.mpr ⟨ns, StringSet.mem_insert_iff.mpr (.inl rfl)⟩
  unfold FilterState.visit
  by_cases hns : ns = ""
  · split <;> simp [hns]
  · split <;> simp [hns, RequestsPack.records, hpos]

theorem records_filterUnstructured (spec : InternalSpec) (gr : GroupResource) :
    ∀ (items : List UnstructuredItem) (st : FilterState UnstructuredItem),
      RequestsPack.records (filterUnstructured spec gr items st).2.rr =
        (RequestsPack.records st.rr || (visitedItems items).any (· ≠ ""))
  | [], st => by simp [filterUnstructured, visitedItems]
  | .notObject _ :: _, st => by simp [filterUnstructured, visitedItems]
  | .object ns body :: items, st => by
    rw [filterUnstructured, records_filterUnstructured spec gr items, records_visit, visitedItems,
      List.any_cons, Bool.or_assoc]

theorem records_filterTyped (spec : InternalSpec) (gr : GroupResource) :
    ∀ (objs : List TypedItem) (st : FilterState TypedItem),
      RequestsPack.records (filterTyped spec gr objs st).rr =
        (RequestsPack.records st.rr || (objs.filterMap (·.ns)).any (· ≠ ""))
  | [], st => by simp [filterTyped]
  | ⟨none, _⟩ :: objs, st => by
    rw [filterTyped, records_filterTyped spec gr objs, List.filterMap_cons_none rfl]
  | ⟨some ns, _⟩ :: objs, st => by
    rw [filterTyped, records_filterTyped spec gr objs, records_visit]
    simp [Bool.or_assoc]

/-- `filterItems` records something exactly when it visits an object in a
namespace. -/
theorem records_filterItems (h : HandlerConfig) (spec : InternalSpec) (obj : ListObject) :
    (filterItems h spec obj).record.any RequestsPack.records =
      (!h.userAgentDenied && obj.visited.any (· ≠ "")) := by
  have hempty {ι : Type} (gr : GroupResource) :
      RequestsPack.records (FilterState.start gr : FilterState ι).rr = false := rfl
  cases hu : h.userAgentDenied with
  | true => cases obj <;> simp [filterItems, hu]
  | false =>
    rcases obj with (_ | _ | items) | objs | err
    · simp [filterItems, hu, ListObject.visited, RequestsPack.records]
    · simp [filterItems, hu, ListObject.visited, RequestsPack.records]
    · have hr := records_filterUnstructured spec h.groupResource items (.start h.groupResource)
      rw [hempty, Bool.false_or] at hr
      rcases e : filterUnstructured spec h.groupResource items (.start h.groupResource)
        with ⟨_ | err, st⟩ <;>
      · rw [e] at hr
        simpa [filterItems, hu, e, ListObject.visited] using hr
    · have hr := records_filterTyped spec h.groupResource objs (.start h.groupResource)
      rw [hempty, Bool.false_or] at hr
      simpa [filterItems, hu, ListObject.visited] using hr
    · simp [filterItems, hu, ListObject.visited, RequestsPack.records]

/-- `filterEvent` records every event that it decides about. -/
theorem records_filterEvent (h : HandlerConfig) (spec : InternalSpec) (eventType : String)
    (ns : Except String String) :
    (filterEvent h spec eventType ns).record.any RequestsPack.records =
      (!h.userAgentDenied && ns.isOk) := by
  have hpos (ns : String) : 0 < (StringSet.ofItems [ns]).size :=
    StringSet.size_pos_iff.mpr ⟨ns, by simp⟩
  cases hu : h.userAgentDenied with
  | true => simp [filterEvent, hu]
  | false =>
    cases ns with
    | error err => simp [filterEvent, hu, Except.isOk, Except.toBool]
    | ok ns =>
      cases hm : spec.isNamespaceMatch ns h.groupResource <;>
        simp [filterEvent, hu, hm, RequestsPack.records, hpos, Except.isOk, Except.toBool]

/-- What a filtering records has the selector of the spec only if there is
none. -/
theorem Filtering.selector_iff {spec : InternalSpec} {gr : GroupResource}
    {record : Option ResourceRequest} {verdicts : List Verdict}
    (h : Filtering spec gr record verdicts) :
    (∀ rr, record = some rr → RequestsPack.records rr = true →
      rr.objectSelector = spec.getObjectSelector rr.gr) ↔
      (record.any RequestsPack.records = true → spec.getObjectSelector gr = none) := by
  cases h with
  | skipped => simp
  | recorded hrr hsel =>
    simp only [Option.some.injEq, forall_eq', Option.any_some, hsel, hrr.gr_eq]
    exact imp_congr_right fun _ => eq_comm

/-- A request keeps the selectors in the history those of the spec exactly when
it does not filter responses of a resource that has one. -/
theorem Request.selector_iff (req : Request) (spec : InternalSpec) :
    (∀ rr, req.record spec = some rr → RequestsPack.records rr = true →
      rr.objectSelector = spec.getObjectSelector rr.gr) ↔
      ∀ gr, req.filteredGR = some gr → spec.getObjectSelector gr = none := by
  cases req with
  | route discoverGVR injectSelector userAgent reqInfo =>
    simp only [filteredGR, reduceCtorEq, false_implies, implies_true, iff_true]
    intro rr hrr hr
    simp only [Request.record, CtrlMesh.route] at hrr
    split at hrr
    · simp at hrr
    · obtain rfl := Option.some.inj hrr
      have hgr := (recordOk_routeResource discoverGVR injectSelector spec userAgent reqInfo).gr_eq
      rcases routeResource_record discoverGVR injectSelector spec userAgent reqInfo with h | ⟨-, h⟩
      · rw [h, records_userAgentRecord] at hr
        simp at hr
      · rw [hgr, h]
  | unrecorded => simp [filteredGR, record]
  | list h obj =>
    have hiff := (filterItems_ok h spec obj).selector_iff
    rw [records_filterItems] at hiff
    simp only [Request.record, hiff, filteredGR]
    split <;> simp_all
  | watch h eventType ns =>
    have hiff := (filterEvent_ok h spec eventType ns).selector_iff
    rw [records_filterEvent] at hiff
    simp only [Request.record, hiff, filteredGR]
    cases ns <;> simp [Except.isOk, Except.toBool]

/-! ## Whole runs -/

namespace Proxy

variable {unmarshal : String → LabelSelector} {specs : ProxySpecV1 → Prop} {p p' : Proxy}

/-- The selectors in the history are those of the current spec, and a spec with
its app name and its route, but another hash, is loaded. -/
def Reloads (unmarshal : String → LabelSelector) (p : Proxy) : Prop :=
  ∀ current : InternalSpec, p.specManager.currentSpec = some current →
    p.specManager.requestsStore.SelectorsOf current ∧
      ∀ (order : RangeOrder) (spec : ProxySpecV1),
        spec.specMeta.vAppName = current.proxySpecV1.specMeta.vAppName →
        spec.route = current.proxySpecV1.route →
        spec.specMeta.hash ≠ current.proxySpecV1.specMeta.hash →
          (p.specManager.updateSpec unmarshal order spec).currentSpec =
            some (convertProtoSpecToInternal unmarshal spec)

/-- No response is filtered of a resource that has an object selector. -/
def FiltersUnselected (p : Proxy) : Event → Prop
  | .release i => ∀ spec req gr, p.readers[i]? = some (spec, req) → req.filteredGR = some gr →
      spec.getObjectSelector gr = none
  | _ => True

/-- The selectors in the history are those of the current spec. -/
def SelectorsRecorded (p : Proxy) : Prop :=
  ∀ current : InternalSpec, p.specManager.currentSpec = some current →
    p.specManager.requestsStore.SelectorsOf current

theorem selectorsOf_congr {pack : RequestsPack} {a b : ProxySpecV1} (h : a.route = b.route)
    (hs : pack.SelectorsOf (convertProtoSpecToInternal unmarshal a)) :
    pack.SelectorsOf (convertProtoSpecToInternal unmarshal b) := by
  intro key req hr
  rw [hs key req hr]
  simp [InternalSpec.getObjectSelector, convertProtoSpecToInternal, h]

/-- With the selectors in place, a spec with the current route is loaded. -/
theorem Inv.reloads_iff_selectorsRecorded (hp : Inv unmarshal specs p)
    (hc : p.decisions.Consistent) : p.Reloads unmarshal ↔ p.SelectorsRecorded := by
  constructor
  · exact fun h _ hcur => (h _ hcur).1
  · intro h current hcur
    refine ⟨h _ hcur, fun order spec hname hroute hhash => ?_⟩
    have hagrees : Decisions.Agrees current.policy p.specManager.requestsStore.answers := by
      have hall : Decisions.Agrees current.policy p.decisions.answers := by
        simpa [Decisions.Consistent, decisions, hcur] using hc
      exact fun qa hqa => hall qa (.inl hqa)
    have hsel := h _ hcur
    obtain ⟨a, -, rfl⟩ := hp.current hcur
    have hload : checkLoadable order p.specManager.requestsStore p.specManager.currentSpec
        (convertProtoSpecToInternal unmarshal spec) = none := by
      rw [hcur, checkLoadable_eq_none hp.keyed]
      refine ⟨hname.symm, congrArg RouteV1.subset hroute.symm, .inr ⟨?_, ?_⟩⟩
      · rwa [policy_congr hroute]
      · exact selectorsOf_congr hroute.symm hsel
    simp [SpecManager.updateSpec, SpecManager.loadExpectedSpec, SpecManager.assignExpectedSpec, hload]

/-- Loading a spec leaves the selectors in the history those of the spec. -/
theorem Inv.selectorsRecorded_finishUpdate (hf : HashFaithful specs) (hp : Inv unmarshal specs p)
    (hs : p.SelectorsRecorded) (hu : p.updating = true) (order : RangeOrder) :
    (p.finishUpdate order).SelectorsRecorded := by
  obtain ⟨expected, he⟩ := hp.updating hu
  intro current' hcur'
  rcases SpecManager.loadExpectedSpec_cases order he with ⟨err, -, hsm⟩ | ⟨hl, hsm⟩
  · simp only [Proxy.finishUpdate, hsm] at hcur' ⊢
    exact hs _ hcur'
  · simp only [Proxy.finishUpdate, hsm, Option.some.injEq] at hcur' ⊢
    subst hcur'
    cases hcur : p.specManager.currentSpec with
    | none =>
      intro key req hr
      simp [(hp.fresh hcur).1, RequestsPack.empty] at hr
    | some current =>
      rw [hcur, checkLoadable_eq_none hp.keyed] at hl
      obtain ⟨-, hsubset, hhash | ⟨-, hsel⟩⟩ := hl
      · have hsel := hs _ hcur
        obtain ⟨a, ha, rfl⟩ := hp.current hcur
        obtain ⟨b, hb, rfl⟩ := hp.expected he
        exact selectorsOf_congr (hf.route_eq ha hb hhash hsubset) hsel
      · exact hsel

/-- A step keeps the selectors in the history exactly when it does not filter
responses of a resource that has one. -/
theorem Inv.selectorsRecorded_step (hf : HashFaithful specs) (hp : Inv unmarshal specs p)
    (hs : p.SelectorsRecorded) {e : Event} (h : Proxy.step unmarshal p e = some p') :
    p'.SelectorsRecorded ↔ p.FiltersUnselected e := by
  cases step_of_eq_some h with
  | beginUpdate => exact iff_of_true hs trivial
  | finishUpdate hu hr =>
    exact iff_of_true (hp.selectorsRecorded_finishUpdate hf hs hu _) trivial
  | acquire => exact iff_of_true hs trivial
  | @release i spec req hi =>
    have hmem := List.mem_of_getElem? hi
    have hcur := hp.readers hmem
    have hunselected : p.FiltersUnselected (.release i) ↔
        ∀ gr, req.filteredGR = some gr → spec.getObjectSelector gr = none := by
      constructor
      · exact fun h gr => h spec req gr hi
      · intro h spec' req' gr hi'
        obtain ⟨rfl, rfl⟩ : spec = spec' ∧ req = req' := by simpa [hi] using hi'
        exact h gr
    have hrecorded : (p.release i spec req).SelectorsRecorded ↔
        (p.release i spec req).specManager.requestsStore.SelectorsOf spec :=
      ⟨fun h => h _ hcur, fun h current hc => by
        obtain rfl : spec = current := Option.some.inj (hcur.symm.trans hc)
        exact h⟩
    rw [hunselected, ← req.selector_iff, hrecorded]
    cases hrec : req.record spec with
    | none =>
      simp only [Proxy.release, SpecManager.releaseSpec, hrec, RequestsPack.add]
      exact iff_of_true (hs _ hcur) (by simp)
    | some rr =>
      have hiff := RequestsPack.selectorsOf_add hp.keyed (hs _ hcur) ((hp.named hmem).record hrec)
      simpa [Proxy.release, SpecManager.releaseSpec, hrec] using hiff
  | getStatus => exact iff_of_true hs trivial
  | updateLeaderElection => exact iff_of_true hs trivial

/-- In every run, a spec with the route of the current one can be loaded in
every state exactly when no step filters responses of a resource that has an
object selector. -/
theorem reloads_iff {es : List Event}
    (hspecs : HashFaithful fun spec => Event.beginUpdate spec ∈ es)
    (hreqs : ∀ req, Event.acquire req ∈ es → req.WellNamed)
    (h : (system unmarshal).run es = some p) :
    (system unmarshal).States (Reloads unmarshal) start es ↔
      (system unmarshal).Steps FiltersUnselected start es := by
  have hes := allowed_of_wellNamed hreqs
  have hinv : ∀ {s : Proxy} {e : Event} {s' : Proxy},
      e.Allowed (fun spec => Event.beginUpdate spec ∈ es) →
      Inv unmarshal (fun spec => Event.beginUpdate spec ∈ es) s ∧ s.decisions.Consistent →
      (system unmarshal).step s e = some s' →
      Inv unmarshal (fun spec => Event.beginUpdate spec ∈ es) s' ∧ s'.decisions.Consistent :=
    fun he hs hstep =>
      ⟨hs.1.step he hstep, (hs.1.decisions_step hspecs hs.2 hstep).consistent hs.2⟩
  have hstart := And.intro (inv_start unmarshal fun spec => Event.beginUpdate spec ∈ es)
    consistent_start
  rw [(system unmarshal).states_congr hinv
    (fun hs => hs.1.reloads_iff_selectorsRecorded hs.2) hes hstart h]
  exact (system unmarshal).states_iff_steps hinv
    (fun hs hsel hstep => hs.1.selectorsRecorded_step hspecs hsel hstep) hes hstart
    (fun _ hcur => by simp [start, SpecManager.start] at hcur) h

/-- The sample spec with an object selector on pods for its subset. -/
def sampleSelectedSpec (hash : String) : ProxySpecV1 :=
  { sampleSpec hash with route := { (sampleSpec hash).route with
      subsetLimits :=
        [⟨"a", [⟨["ns1"], "", []⟩,
          ⟨[], "\x7b\"matchLabels\":\x7b\"app\":\"x\"\x7d\x7d", [⟨[""], ["pods"]⟩]⟩]⟩] } }

/-- A list of pods is routed with the selector injected. -/
def sampleSelectedRun : List Event :=
  [.beginUpdate (sampleSelectedSpec "h1"), .finishUpdate .sorted,
    .acquire (.route (fun _ => .found) (fun _ => none) "agent" ⟨true, "list", "", "v1", "pods", ""⟩),
    .release 0]

/-- A list of config maps, which have no selector, is filtered. -/
def sampleUnselectedFilter : List Event :=
  [.acquire (.list ⟨⟨"", "configmaps"⟩, false⟩ (.typed [⟨some "ns1", "x"⟩])), .release 0]

/-- The pods, which have one, are filtered. -/
def sampleSelectedFilter : List Event :=
  [.acquire (.list ⟨⟨"", "pods"⟩, false⟩ (.typed [⟨some "ns1", "x"⟩])), .release 0]

/-- A test for `FiltersUnselected`. -/
def filtersUnselected (p : Proxy) : Event → Bool
  | .release i =>
    match p.readers[i]? with
    | none => true
    | some (spec, req) => req.filteredGR.all fun gr => (spec.getObjectSelector gr).isNone
  | _ => true

theorem reloads_sampleUnselectedFilter :
    (system LabelSelector.ofJSON).States (Reloads LabelSelector.ofJSON) start
      (sampleSelectedRun ++ sampleUnselectedFilter) := by
  have hrun : ((system LabelSelector.ofJSON).run
      (sampleSelectedRun ++ sampleUnselectedFilter)).isSome := by
    decide +kernel
  obtain ⟨p, hp⟩ := Option.isSome_iff_exists.mp hrun
  refine (reloads_iff ?_ ?_ hp).mpr
    ((system _).steps_of_checkSteps filtersUnselected ?_ (by decide +kernel))
  · intro a b ha hb
    simp only [sampleSelectedRun, sampleUnselectedFilter, List.cons_append, List.nil_append,
      List.mem_cons, Event.beginUpdate.injEq, reduceCtorEq, List.not_mem_nil, or_false] at ha hb
    rw [ha, hb]
    exact fun _ => rfl
  · intro req hreq
    simp only [sampleSelectedRun, sampleUnselectedFilter, List.cons_append, List.nil_append,
      List.mem_cons, Event.acquire.injEq, reduceCtorEq, false_or, List.not_mem_nil, or_false] at hreq
    have hpods : GroupResource.WellNamed ⟨"", "pods"⟩ := by decide +kernel
    have hconfig : GroupResource.WellNamed ⟨"", "configmaps"⟩ := by decide +kernel
    rcases hreq with rfl | rfl
    · exact fun _ => hpods
    · exact hconfig
  · intro p e ht
    cases e with
    | release i =>
      intro spec req gr hi hgr
      simpa [filtersUnselected, hi, hgr] using ht
    | _ => trivial

/-- After the pods were filtered, the same route with another hash is not
loaded. -/
theorem not_reloads_sampleSelectedFilter :
    ∃ p, (system LabelSelector.ofJSON).run (sampleSelectedRun ++ sampleSelectedFilter) = some p ∧
      (p.specManager.updateSpec LabelSelector.ofJSON .sorted
        (sampleSelectedSpec "h2")).currentSpec =
          some (convertProtoSpecToInternal LabelSelector.ofJSON (sampleSelectedSpec "h1")) ∧
      ¬p.Reloads LabelSelector.ofJSON := by
  have hrun : ((system LabelSelector.ofJSON).run (sampleSelectedRun ++ sampleSelectedFilter)).map
      (fun p => (p.specManager.currentSpec, (p.specManager.updateSpec LabelSelector.ofJSON .sorted
        (sampleSelectedSpec "h2")).currentSpec)) =
      some (some (convertProtoSpecToInternal LabelSelector.ofJSON (sampleSelectedSpec "h1")),
        some (convertProtoSpecToInternal LabelSelector.ofJSON (sampleSelectedSpec "h1"))) := by
    decide +kernel
  obtain ⟨p, hp, hpe⟩ := Option.map_eq_some_iff.mp hrun
  simp only [Prod.mk.injEq] at hpe
  refine ⟨p, hp, hpe.2, fun h => ?_⟩
  have hload := (h _ hpe.1).2 .sorted (sampleSelectedSpec "h2") rfl rfl (by decide)
  rw [hpe.2] at hload
  exact absurd hload (by decide +kernel)

end Proxy

end CtrlMesh
