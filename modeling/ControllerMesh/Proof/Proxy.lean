import ControllerMesh.Proof.Router

/-!
# Decisions of a proxy stay decided

The proxy refines `Framework.Decisions` (`decisions_step`): a request answers
by the current spec and records what it answered, and a spec is loaded only if
it agrees with what was recorded. So in every run the history is consistent
with the current spec, and no namespace of a resource is both passed and denied
(`history_consistent`).

Two assumptions enter: specs with the same hash have the same route up to the
subset (`HashFaithful`), since `checkLoadable` does not look at the history when
the hashes agree, and resource names are well named, since the records stand
under strings.
-/

namespace CtrlMesh

open Framework

/-- Among `specs`, equal hashes come with equal routes, apart from the
subset. -/
def HashFaithful (specs : ProxySpecV1 → Prop) : Prop :=
  ∀ {a b : ProxySpecV1}, specs a → specs b → a.specMeta.hash = b.specMeta.hash →
    { a.route with subset := b.route.subset } = b.route

theorem HashFaithful.route_eq {specs : ProxySpecV1 → Prop} (h : HashFaithful specs)
    {a b : ProxySpecV1} (ha : specs a) (hb : specs b) (hhash : a.specMeta.hash = b.specMeta.hash)
    (hsubset : a.route.subset = b.route.subset) : a.route = b.route := by
  rw [← h ha hb hhash, ← hsubset]

section

variable {unmarshal : String → LabelSelector}

theorem policy_congr {a b : ProxySpecV1} (h : a.route = b.route) :
    (convertProtoSpecToInternal unmarshal a).policy =
      (convertProtoSpecToInternal unmarshal b).policy := by
  funext q
  cases q <;> simp [InternalSpec.policy, InternalSpec.isNamespaceMatch,
    InternalSpec.isUserAgentMatch, convertProtoSpecToInternal, h]

/-- Objects without a namespace belong to the default subset. -/
theorem isNamespaceMatch_empty (spec : InternalSpec) (gr : GroupResource) :
    spec.isNamespaceMatch "" gr = (spec.routeInternal.subset == "") := by
  have h : ("" == AllSubsetPublic) = false := by decide
  simp only [InternalSpec.isNamespaceMatch, InternalRoute.determineNamespaceSubset, if_true, h,
    Bool.false_or]
  rw [Bool.eq_iff_iff, beq_iff_eq, beq_iff_eq, eq_comm]

end

namespace Proxy

/-- The steps of a proxy. -/
inductive Step (unmarshal : String → LabelSelector) (p : Proxy) : Event → Proxy → Prop where
  | beginUpdate {spec : ProxySpecV1} (h : p.updating = false) :
      Step unmarshal p (.beginUpdate spec) { p with
        specManager := p.specManager.assignExpectedSpec unmarshal spec
        updating := true }
  | finishUpdate {order : RangeOrder} (h : p.updating = true) (hr : p.readers = []) :
      Step unmarshal p (.finishUpdate order) (p.finishUpdate order)
  | acquire {req : Request} {spec : InternalSpec} (h : p.specManager.currentSpec = some spec) :
      Step unmarshal p (.acquire req) { p with readers := p.readers ++ [(spec, req)] }
  | release {i : Nat} {spec : InternalSpec} {req : Request} (h : p.readers[i]? = some (spec, req)) :
      Step unmarshal p (.release i) (p.release i spec req)
  | getStatus (hr : p.readers = []) : Step unmarshal p .getStatus p
  | updateLeaderElection {le : Option LeaderElectionStateV1} (hr : p.readers = []) :
      Step unmarshal p (.updateLeaderElection le)
        { p with specManager := p.specManager.updateLeaderElection le }

theorem step_of_eq_some {unmarshal : String → LabelSelector} {p p' : Proxy} {e : Event}
    (h : step unmarshal p e = some p') : Step unmarshal p e p' := by
  cases e with
  | beginUpdate spec =>
    simp only [step] at h
    split at h
    · simp at h
    · obtain rfl := Option.some.inj h
      exact .beginUpdate (by simpa using ‹¬p.updating = true›)
  | finishUpdate order =>
    simp only [step] at h
    split at h
    · rename_i hc
      obtain rfl := Option.some.inj h
      simp only [Bool.and_eq_true, List.isEmpty_iff] at hc
      exact .finishUpdate hc.1 hc.2
    · simp at h
  | acquire req =>
    simp only [step] at h
    split at h
    · simp at h
    · obtain rfl := Option.some.inj h
      exact .acquire ‹_›
  | release i =>
    simp only [step] at h
    split at h
    · simp at h
    · obtain rfl := Option.some.inj h
      exact .release ‹_›
  | getStatus =>
    simp only [step] at h
    split at h
    · obtain rfl := Option.some.inj h
      exact .getStatus (List.isEmpty_iff.mp ‹_›)
    · simp at h
  | updateLeaderElection le =>
    simp only [step] at h
    split at h
    · obtain rfl := Option.some.inj h
      exact .updateLeaderElection (List.isEmpty_iff.mp ‹_›)
    · simp at h

/-! ## The invariant -/

/-- The events of a run whose specs are among `specs` and whose requests are
for well named resources. -/
def Event.Allowed (specs : ProxySpecV1 → Prop) : Event → Prop
  | .beginUpdate spec => specs spec
  | .acquire req => req.WellNamed
  | _ => True

/-- What holds in every state of such a run. -/
structure Inv (unmarshal : String → LabelSelector) (specs : ProxySpecV1 → Prop) (p : Proxy) :
    Prop where
  expected {s : InternalSpec} (h : p.specManager.expectedSpec = some s) :
    ∃ spec, specs spec ∧ s = convertProtoSpecToInternal unmarshal spec
  current {s : InternalSpec} (h : p.specManager.currentSpec = some s) :
    ∃ spec, specs spec ∧ s = convertProtoSpecToInternal unmarshal spec
  updating (h : p.updating = true) : ∃ s, p.specManager.expectedSpec = some s
  /-- Nothing is recorded before there is a spec. -/
  fresh (h : p.specManager.currentSpec = none) :
    p.specManager.requestsStore = .empty ∧ p.verdicts = []
  /-- No spec is loaded while a request holds the one before. -/
  readers {r : InternalSpec × Request} (h : r ∈ p.readers) : p.specManager.currentSpec = some r.1
  named {r : InternalSpec × Request} (h : r ∈ p.readers) : r.2.WellNamed
  keyed : p.specManager.requestsStore.WellKeyed
  recorded {v : Verdict} (h : v ∈ p.verdicts) (hns : v.ns ≠ "") :
    v.answer ∈ p.specManager.requestsStore.answers

theorem inv_start (unmarshal : String → LabelSelector) (specs : ProxySpecV1 → Prop) :
    Inv unmarshal specs start where
  expected h := by simp [start, SpecManager.start] at h
  current h := by simp [start, SpecManager.start] at h
  updating h := by simp [start] at h
  fresh _ := ⟨rfl, rfl⟩
  readers h := by simp [start] at h
  named h := by simp [start] at h
  keyed := RequestsPack.wellKeyed_empty
  recorded h := by simp [start] at h

variable {unmarshal : String → LabelSelector} {specs : ProxySpecV1 → Prop} {p p' : Proxy}

/-- The history after a request: it is still well keyed, and the answers of
the request's record have been added. -/
theorem Inv.release_requestsStore (hp : Inv unmarshal specs p) {i : Nat} {spec : InternalSpec}
    {req : Request} (h : p.readers[i]? = some (spec, req)) :
    (p.release i spec req).specManager.requestsStore.WellKeyed ∧
      (p.release i spec req).specManager.requestsStore.answers =
        p.specManager.requestsStore.answers ∪
          {qa | ∃ rr, req.record spec = some rr ∧ qa ∈ rr.answers} := by
  cases hrec : req.record spec with
  | none =>
    simp only [Proxy.release, SpecManager.releaseSpec, hrec, RequestsPack.add]
    exact ⟨hp.keyed, by simp⟩
  | some rr =>
    obtain ⟨gr, -, hok⟩ := Request.recordOk hrec
    have hnamed := (hp.named (List.mem_of_getElem? h)).record hrec
    refine ⟨?_, ?_⟩
    · simp only [Proxy.release, SpecManager.releaseSpec, hrec]
      exact RequestsPack.wellKeyed_add hp.keyed hnamed
    · have ha := RequestsPack.answers_add hp.keyed hnamed hok.userAgent
      simpa [Proxy.release, SpecManager.releaseSpec, hrec] using ha

theorem Inv.finishUpdate (hp : Inv unmarshal specs p) (hu : p.updating = true)
    (hr : p.readers = []) (order : RangeOrder) : Inv unmarshal specs (p.finishUpdate order) := by
  obtain ⟨expected, he⟩ := hp.updating hu
  have hcur : (p.finishUpdate order).specManager.currentSpec = p.specManager.currentSpec ∨
      (p.finishUpdate order).specManager.currentSpec = some expected := by
    rcases SpecManager.loadExpectedSpec_cases order he with ⟨err, -, hs⟩ | ⟨-, hs⟩
    · exact .inl (by simp only [Proxy.finishUpdate, hs])
    · exact .inr (by simp only [Proxy.finishUpdate, hs])
  refine
    { expected := fun h => hp.expected (by simpa [Proxy.finishUpdate] using h)
      current := fun h => ?_
      updating := fun h => by simp [Proxy.finishUpdate] at h
      fresh := fun h => ?_
      readers := fun h => by simp [Proxy.finishUpdate, hr] at h
      named := fun h => by simp [Proxy.finishUpdate, hr] at h
      keyed := by
        simp only [Proxy.finishUpdate, SpecManager.requestsStore_loadExpectedSpec]
        exact hp.keyed
      recorded := fun h hns => by simpa [Proxy.finishUpdate] using hp.recorded h hns }
  · rcases hcur with hc | hc
    · exact hp.current (hc ▸ h)
    · exact hp.expected (by rw [he, ← h, hc])
  · rcases hcur with hc | hc
    · simpa [Proxy.finishUpdate] using hp.fresh (hc ▸ h)
    · simp [hc] at h

/-- Every step keeps the invariant. -/
theorem Inv.step (hp : Inv unmarshal specs p) {e : Event} (he : e.Allowed specs)
    (h : Proxy.step unmarshal p e = some p') : Inv unmarshal specs p' := by
  cases step_of_eq_some h with
  | @beginUpdate spec hu =>
    exact
      { hp with
        expected := fun h => ⟨spec, he, (Option.some.inj h).symm⟩
        updating := fun _ => ⟨_, rfl⟩ }
  | finishUpdate hu hr => exact hp.finishUpdate hu hr _
  | @acquire req spec hc =>
    exact
      { hp with
        readers := fun h => by
          rcases List.mem_append.mp h with h | h
          · exact hp.readers h
          · obtain rfl := List.mem_singleton.mp h
            exact hc
        named := fun h => by
          rcases List.mem_append.mp h with h | h
          · exact hp.named h
          · obtain rfl := List.mem_singleton.mp h
            exact he }
  | @release i spec req hi =>
    obtain ⟨hkeyed, hans⟩ := hp.release_requestsStore hi
    have hmem := List.mem_of_getElem? hi
    exact
      { hp with
        fresh := fun h => by
          have hc : p.specManager.currentSpec = none := h
          simp [hp.readers hmem] at hc
        readers := fun h => hp.readers (List.mem_of_mem_eraseIdx h)
        named := fun h => hp.named (List.mem_of_mem_eraseIdx h)
        keyed := hkeyed
        recorded := fun {v} h hns => by
          rw [hans]
          rcases List.mem_append.mp h with h | h
          · exact .inr ((Request.verdictsOk h).2 hns)
          · exact .inl (hp.recorded h hns) }
  | getStatus => exact hp
  | updateLeaderElection =>
    exact { hp with }

/-! ## Refinement -/

/-- A loadable spec agrees with everything that was decided: with the hash of
the current spec it has the same route, else it agrees with the history, and
the verdicts that are not in the history depend on the subset only. -/
theorem Inv.agrees_of_loadable (hf : HashFaithful specs) (hp : Inv unmarshal specs p)
    (hc : p.decisions.Consistent) {order : RangeOrder} {expected : InternalSpec}
    (he : p.specManager.expectedSpec = some expected)
    (hl : checkLoadable order p.specManager.requestsStore p.specManager.currentSpec expected = none) :
    Decisions.Agrees expected.policy p.decisions.answers := by
  cases hcur : p.specManager.currentSpec with
  | none =>
    have hnone : p.decisions.answers = ∅ := by simpa [Decisions.Consistent, decisions, hcur] using hc
    rw [hnone]
    exact fun _ h => absurd h (Set.notMem_empty _)
  | some current =>
    have hagrees : Decisions.Agrees current.policy p.decisions.answers := by
      simpa [Decisions.Consistent, decisions, hcur] using hc
    rw [hcur, checkLoadable_eq_none hp.keyed] at hl
    obtain ⟨-, hsubset, hhash | ⟨hnew, -⟩⟩ := hl
    · obtain ⟨a, ha, rfl⟩ := hp.current hcur
      obtain ⟨b, hb, rfl⟩ := hp.expected he
      rwa [← policy_congr (hf.route_eq ha hb hhash hsubset)]
    · rintro qa (hqa | ⟨v, hv, rfl⟩)
      · exact hnew qa hqa
      · by_cases hns : v.ns = ""
        · have hold := hagrees v.answer (.inr ⟨v, hv, rfl⟩)
          obtain ⟨a, -, rfl⟩ := hp.current hcur
          obtain ⟨b, -, rfl⟩ := hp.expected he
          simp only [Verdict.answer, InternalSpec.policy, hns, isNamespaceMatch_empty] at hold ⊢
          rw [← hold]
          exact congrArg (· == "") hsubset.symm
        · exact hnew _ (hp.recorded hv hns)

/-- The answers of a request are those of the spec it took. -/
theorem Inv.decisions_release (hp : Inv unmarshal specs p) {i : Nat} {spec : InternalSpec}
    {req : Request} (h : p.readers[i]? = some (spec, req)) :
    Decisions.Step p.decisions (p.release i spec req).decisions := by
  obtain ⟨-, hans⟩ := hp.release_requestsStore h
  have hcur := hp.readers (List.mem_of_getElem? h)
  let more : Set (Question × Bool) := {qa | ∃ rr, req.record spec = some rr ∧ qa ∈ rr.answers} ∪
    {qa | ∃ v ∈ req.verdicts spec, v.answer = qa}
  have hmore : Decisions.Agrees spec.policy more := by
    rintro qa (⟨rr, hrr, hqa⟩ | ⟨v, hv, rfl⟩)
    · obtain ⟨gr, -, hok⟩ := Request.recordOk hrr
      exact hok.agrees qa hqa
    · exact (Request.verdictsOk hv).1
  have hold : p.decisions = ⟨some spec.policy, p.decisions.answers⟩ := by
    simp [decisions, hcur]
  have hnew : (p.release i spec req).decisions = ⟨some spec.policy, p.decisions.answers ∪ more⟩ := by
    have hverdicts : {qa | ∃ v ∈ (p.release i spec req).verdicts, v.answer = qa} =
        {qa | ∃ v ∈ req.verdicts spec, v.answer = qa} ∪ {qa | ∃ v ∈ p.verdicts, v.answer = qa} := by
      ext qa
      simp [Proxy.release, or_and_right, exists_or]
    have hcur' : (p.release i spec req).specManager.currentSpec = some spec := hcur
    simp only [decisions, hans, hverdicts, hcur', Option.map_some, more, Decisions.mk.injEq, true_and]
    ext qa
    simp only [Set.mem_union]
    tauto
  rw [hold, hnew]
  exact .answer hmore

/-- Every step of a proxy is a step of its decisions. -/
theorem Inv.decisions_step (hf : HashFaithful specs) (hp : Inv unmarshal specs p)
    (hc : p.decisions.Consistent) {e : Event} (h : Proxy.step unmarshal p e = some p') :
    Decisions.Step p.decisions p'.decisions := by
  cases step_of_eq_some h with
  | beginUpdate => exact .stay
  | @finishUpdate order hu hr =>
    obtain ⟨expected, he⟩ := hp.updating hu
    rcases SpecManager.loadExpectedSpec_cases order he with ⟨err, -, hs⟩ | ⟨hl, hs⟩
    · have hsame : (p.finishUpdate order).decisions = p.decisions := by
        simp only [decisions, Proxy.finishUpdate, hs]
      rw [hsame]
      exact .stay
    · have hnew : (p.finishUpdate order).decisions =
          ⟨some expected.policy, p.decisions.answers⟩ := by
        simp only [decisions, Proxy.finishUpdate, hs, Option.map_some]
      rw [hnew]
      exact .adopt (hp.agrees_of_loadable hf hc he hl)
  | acquire => exact .stay
  | release hi => exact hp.decisions_release hi
  | getStatus => exact .stay
  | updateLeaderElection => exact .stay

theorem consistent_start : start.decisions.Consistent := by
  have he : start.decisions = Decisions.start := by
    simp [decisions, start, SpecManager.start, Decisions.start, RequestsPack.answers_empty]
  rw [he]
  exact Decisions.consistent_start

/-- What holds in every state of a run: the invariant, and that all decisions
are those of the current spec. -/
theorem inv_of_run (hf : HashFaithful specs) {es : List Event}
    (hes : ∀ e ∈ es, e.Allowed specs) (h : (system unmarshal).run es = some p) :
    Inv unmarshal specs p ∧ p.decisions.Consistent :=
  (system unmarshal).runFrom_refines (fun hd hstep => hstep.consistent hd)
    (fun he hs hstep => hs.step he hstep) (fun _ hs hc hstep => hs.decisions_step hf hc hstep)
    hes (inv_start unmarshal specs) consistent_start h

theorem historyConsistent_of_inv (hp : Inv unmarshal specs p) (hc : p.decisions.Consistent) :
    p.HistoryConsistent := by
  unfold HistoryConsistent
  split
  · rename_i hcur
    exact (hp.fresh hcur).1
  · rename_i spec hcur
    have hagrees : Decisions.Agrees spec.policy p.decisions.answers := by
      simpa [Decisions.Consistent, decisions, hcur] using hc
    exact RequestsPack.consistentWith_of_agrees fun qa hqa => hagrees qa (.inl hqa)

theorem allowed_of_wellNamed {es : List Event}
    (hreqs : ∀ req, Event.acquire req ∈ es → req.WellNamed) :
    ∀ e ∈ es, e.Allowed fun spec => Event.beginUpdate spec ∈ es := by
  intro e he
  cases e with
  | beginUpdate spec => exact he
  | acquire req => exact hreqs req he
  | _ => trivial

/-- In every run from a proxy without a spec, the history is consistent with
the current spec, and no list or watch filtering passes what another one
denies. -/
theorem history_consistent {es : List Event} {p : Proxy}
    (hspecs : HashFaithful fun spec => Event.beginUpdate spec ∈ es)
    (hreqs : ∀ req, Event.acquire req ∈ es → req.WellNamed)
    (h : (system unmarshal).run es = some p) :
    p.HistoryConsistent ∧
      ∀ (gr : GroupResource) (ns : String),
        ¬(⟨gr, ns, true⟩ ∈ p.verdicts ∧ ⟨gr, ns, false⟩ ∈ p.verdicts) := by
  obtain ⟨hp, hc⟩ := inv_of_run hspecs (allowed_of_wellNamed hreqs) h
  refine ⟨historyConsistent_of_inv hp hc, fun gr ns hboth => ?_⟩
  have hunique := hc.unique (q := .namespaceMatch ns gr) (a := true) (b := false)
    (.inr ⟨_, hboth.1, rfl⟩) (.inr ⟨_, hboth.2, rfl⟩)
  simp at hunique

/-- A spec for subset `a`, which owns namespace `ns1`; the default subset owns
`ns2`. -/
def sampleSpec (hash : String) : ProxySpecV1 where
  specMeta := ⟨"app", hash⟩
  route :=
    { subset := "a"
      globalLimits := []
      subsetLimits := [⟨"a", [⟨["ns1"], "", []⟩]⟩, ⟨"", [⟨["ns2"], "", []⟩]⟩]
      subsetPublicResources := []
      subsetDefaultOnlyUserAgents := ["default-only"] }
  endpoints := []

def samplePods : GroupResource := ⟨"", "pods"⟩

/-- A list and a watch under one spec, a routed request under the next. -/
def sampleRun : List Event :=
  [.beginUpdate (sampleSpec "h1"), .finishUpdate .sorted,
    .acquire (.list ⟨samplePods, false⟩ (.typed [⟨some "ns1", "x"⟩, ⟨some "ns2", "y"⟩])),
    .acquire (.watch ⟨samplePods, false⟩ "ADDED" (.ok "ns1")),
    .beginUpdate (sampleSpec "h2"),
    .release 1, .release 0, .finishUpdate .sorted,
    .acquire (.route (fun _ => .found) (fun _ => none) "agent" ⟨true, "get", "", "v1", "pods", "ns1"⟩),
    .release 0]

/-- The second spec of the sample run is loaded, and the history agrees with
it. -/
theorem history_consistent_sampleRun :
    ∃ p, (system fun _ => ⟨none, none⟩).run sampleRun = some p ∧
      p.specManager.currentSpec =
        some (convertProtoSpecToInternal (fun _ => ⟨none, none⟩) (sampleSpec "h2")) ∧
      p.verdicts =
        [⟨samplePods, "ns1", true⟩, ⟨samplePods, "ns2", false⟩, ⟨samplePods, "ns1", true⟩] ∧
      p.HistoryConsistent ∧
      ∀ (gr : GroupResource) (ns : String),
        ¬(⟨gr, ns, true⟩ ∈ p.verdicts ∧ ⟨gr, ns, false⟩ ∈ p.verdicts) := by
  have hrun : ((system fun _ => ⟨none, none⟩).run sampleRun).map
      (fun p => (p.specManager.currentSpec, p.verdicts)) =
      some (some (convertProtoSpecToInternal (fun _ => ⟨none, none⟩) (sampleSpec "h2")),
        [⟨samplePods, "ns1", true⟩, ⟨samplePods, "ns2", false⟩, ⟨samplePods, "ns1", true⟩]) := by
    decide +kernel
  obtain ⟨p, hp, hpe⟩ := Option.map_eq_some_iff.mp hrun
  refine ⟨p, hp, congrArg Prod.fst hpe, congrArg Prod.snd hpe, history_consistent ?_ ?_ hp⟩
  · intro a b ha hb
    simp only [sampleRun, List.mem_cons, Event.beginUpdate.injEq, reduceCtorEq, false_or,
      List.not_mem_nil, or_false] at ha hb
    rcases ha with rfl | rfl <;> rcases hb with rfl | rfl <;> decide
  · intro req hreq
    simp only [sampleRun, List.mem_cons, Event.acquire.injEq, reduceCtorEq, false_or,
      List.not_mem_nil, or_false] at hreq
    have hpods : samplePods.WellNamed := by decide +kernel
    rcases hreq with rfl | rfl | rfl
    · exact hpods
    · exact hpods
    · exact fun _ => hpods

end Proxy

end CtrlMesh
