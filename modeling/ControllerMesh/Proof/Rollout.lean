import ControllerMesh.Impl.Mesh
import ControllerMesh.Proof.Expectations
import ControllerMesh.Proof.Proxy

/-!
# Pods of different subsets during a rollout

Every spec in the mesh, at the server, on a stream or at a proxy, has been built
from a route and endpoints that the server has hashed (`Built`, `Mesh.Inv`). Specs for different subsets that were built from one route do not
both match a namespace of a resource that is not public
(`not_isNamespaceMatch_of_route_eq`). So where the pods of two subsets have both
taken a namespace, they hold specs built from different routes
(`route_ne_of_overlap`).

That can happen: the server sends a changed route to all pods at once, and the
subset that gains a namespace may load it before the one that loses it
(`overlap_sampleRollout`).
-/

namespace CtrlMesh

open Framework

/-! ## Specs built from one route -/

section

variable {unmarshal : String → LabelSelector} {n : String} {gr : GroupResource}

/-- Only a public resource, or a subset of that name, belongs to all subsets. -/
theorem determineNamespaceSubset_ne_public {ir : InternalRoute}
    (hpublic : isGRMatchedAPIResources gr ir.subsetPublicResources = false)
    (hname : ∀ l ∈ ir.subsetLimits, l.subset ≠ AllSubsetPublic) :
    ir.determineNamespaceSubset n gr ≠ some AllSubsetPublic := by
  by_cases hn : n = ""
  · rw [InternalRoute.determineNamespaceSubset, if_pos hn]
    decide
  · have hdet := ir.determined gr hn
    generalize ir.determineNamespaceSubset n gr = owner at hdet
    cases hdet with
    | denied => simp
    | unmatched => simp
    | found _ l hl => exact fun h => hname l (List.mem_of_find?_eq_some hl) (Option.some.inj h)
    | shared _ _ hpub =>
      rw [hpublic] at hpub
      cases hpub

theorem isNamespaceMatch_iff {spec : InternalSpec} :
    spec.isNamespaceMatch n gr = true ↔
      spec.routeInternal.determineNamespaceSubset n gr = some AllSubsetPublic ∨
        spec.routeInternal.determineNamespaceSubset n gr = some spec.routeInternal.subset := by
  rw [spec.isNamespaceMatch_eq]
  cases spec.routeInternal.determineNamespaceSubset n gr with
  | none => simp
  | some owner => simp

/-- Of two specs that were built from one route for different subsets at most one
matches a namespace. -/
theorem not_isNamespaceMatch_of_route_eq {a b : ProxySpecV1}
    (hroute : { a.route with subset := b.route.subset } = b.route)
    (hsubset : a.route.subset ≠ b.route.subset)
    (hpublic : isGRMatchedAPIResources gr (convertProtoSpecToInternal unmarshal
      a).routeInternal.subsetPublicResources = false)
    (hname : ∀ l ∈ (convertProtoSpecToInternal unmarshal a).routeInternal.subsetLimits,
      l.subset ≠ AllSubsetPublic)
    (ha : (convertProtoSpecToInternal unmarshal a).isNamespaceMatch n gr = true) :
    ¬(convertProtoSpecToInternal unmarshal b).isNamespaceMatch n gr = true := by
  have hne : (convertProtoSpecToInternal unmarshal a).routeInternal.determineNamespaceSubset n gr ≠
      some AllSubsetPublic := determineNamespaceSubset_ne_public hpublic hname
  -- The owner does not depend on the subset that the spec is for.
  have heq : (convertProtoSpecToInternal unmarshal b).routeInternal.determineNamespaceSubset n gr =
      (convertProtoSpecToInternal unmarshal a).routeInternal.determineNamespaceSubset n gr := by
    rw [convertProtoSpecToInternal, ← hroute]
    rfl
  have hown := (isNamespaceMatch_iff.mp ha).resolve_left hne
  rw [isNamespaceMatch_iff, heq, hown]
  rintro (h | h)
  · exact hne (hown.trans h)
  · exact hsubset (Option.some.inj h)

end

/-! ## Specs of the server -/

/-- The spec has been built from a route and endpoints that were hashed. -/
def Built (specHash : RouteV1 → List EndpointV1 → String) (hashed : List (RouteV1 × List EndpointV1))
    (spec : ProxySpecV1) : Prop :=
  ∃ x ∈ hashed, spec.specMeta.hash = specHash x.1 x.2 ∧
    spec.route = { x.1 with subset := spec.route.subset }

theorem Built.mono {specHash : RouteV1 → List EndpointV1 → String}
    {hashed hashed' : List (RouteV1 × List EndpointV1)} {spec : ProxySpecV1}
    (h : Built specHash hashed spec) (hsub : hashed ⊆ hashed') : Built specHash hashed' spec := by
  obtain ⟨x, hx, hspec⟩ := h
  exact ⟨x, hsub hx, hspec⟩

/-- The tasks of a loop that sends. -/
def Reconcile.tasks : Reconcile → List SyncTask
  | sending todo _ => todo
  | expecting task todo => task :: todo
  | _ => []

namespace Server

variable {lib : Lib} {specHash : RouteV1 → List EndpointV1 → String} {s s' : Server}

/-- What `Reconcile` is to send and what has been sent. -/
structure SpecsBuilt (specHash : RouteV1 → List EndpointV1 → String) (s : Server) : Prop where
  tasks : ∀ task ∈ s.reconcile.tasks, Built specHash s.hashed task.newSpec
  sent {i : Nat} {st : Stream} (h : s.grpc.streams[i]? = some st) :
    ∀ spec ∈ st.sent, Built specHash s.hashed spec

theorem specsBuilt_start (vApp : VirtualApp) : SpecsBuilt specHash (start vApp) where
  tasks _ h := by cases h
  sent h := by cases h

theorem tasks_act {tasks : List (Action × SyncTask)} {task : SyncTask}
    (h : task ∈ (act tasks).tasks) : ∃ t ∈ tasks, t.2 = task := by
  have hfor {action : Action} (h : task ∈ tasksFor action tasks) : ∃ t ∈ tasks, t.2 = task := by
    obtain ⟨t, ht, rfl⟩ := List.mem_map.mp h
    exact ⟨t, List.mem_of_mem_filter ht, rfl⟩
  unfold act at h
  split_ifs at h
  · cases h
  · cases h
  · exact hfor h
  · exact hfor h

theorem built_classified {scan : Scan} {namespaces : List Namespace}
    {hashed : List (RouteV1 × List EndpointV1)} {t : Action × SyncTask}
    (h : t ∈ classified lib specHash scan namespaces) :
    Built specHash ((generateProtoRoute lib scan.vApp (getActiveNamespaces namespaces),
      generateProtoEndpoints scan.vApp scan.activePods) :: hashed) t.2.newSpec := by
  obtain ⟨sp, -, rfl⟩ := List.mem_map.mp h
  exact ⟨_, List.mem_cons_self, rfl, rfl⟩

/-- What has been sent after a `send`. -/
theorem mem_sent_send {g : GrpcServer} {i j : Nat} {spec spec' : ProxySpecV1} {err : Option String}
    {t : Stream} (hj : (g.send i spec err).streams[j]? = some t) (h : spec' ∈ t.sent) :
    spec' = spec ∨ ∃ t₀, g.streams[j]? = some t₀ ∧ spec' ∈ t₀.sent := by
  rw [GrpcServer.getElem?_send] at hj
  split_ifs at hj
  · obtain ⟨t₀, ht₀, rfl⟩ := Option.map_eq_some_iff.mp hj
    simp only [Stream.send] at h
    split_ifs at h
    · rcases List.mem_append.mp h with h | h
      · exact .inr ⟨t₀, ht₀, h⟩
      · exact .inl (List.mem_singleton.mp h)
    · exact .inr ⟨t₀, ht₀, h⟩
  · exact .inr ⟨t, hj, h⟩

theorem SpecsBuilt.send (hs : s.SpecsBuilt specHash) {task : SyncTask} {todo : List SyncTask}
    {err : Option String} (hr : s.reconcile = .sending (task :: todo) err) (err' : Option String)
    {i : Nat} {st : Stream}
    (h : (s.grpc.send task.conn task.newSpec err').streams[i]? = some st) :
    ∀ spec ∈ st.sent, Built specHash s.hashed spec := by
  intro spec hspec
  rcases mem_sent_send h hspec with rfl | ⟨t₀, ht₀, h₀⟩
  · exact hs.tasks task (by rw [hr]; exact List.mem_cons_self)
  · exact hs.sent ht₀ spec h₀

theorem SpecsBuilt.reconcile (hs : s.SpecsBuilt specHash) (h : ReconcileStep lib specHash s s') :
    s'.SpecsBuilt specHash := by
  have htasks := hs.tasks
  cases h with
  | acts hr =>
    refine ⟨fun task htask => ?_, fun hst spec hspec => ?_⟩
    · obtain ⟨t, ht, rfl⟩ := tasks_act htask
      exact built_classified ht
    · exact (hs.sent hst spec hspec).mono (List.subset_cons_self _ _)
  | sends hr => exact ⟨by rw [hr] at htasks; exact htasks, hs.send hr none⟩
  | fails hr err =>
    rw [hr] at htasks
    exact ⟨fun task h => htasks task (List.mem_cons_of_mem _ h), hs.send hr (some err)⟩
  | expects hr =>
    rw [hr] at htasks
    exact ⟨fun task h => htasks task (List.mem_cons_of_mem _ h), hs.sent⟩
  | _ => exact ⟨fun task h => absurd h List.not_mem_nil, hs.sent⟩

theorem SpecsBuilt.grpc (hs : s.SpecsBuilt specHash) {e : GrpcServer.Event} {grpc : GrpcServer}
    (h : s.grpc.step e = some grpc) : ({ s with grpc := grpc } : Server).SpecsBuilt specHash := by
  refine ⟨hs.tasks, fun {i st} hst => ?_⟩
  cases e with
  | connect uid =>
    obtain ⟨-, rfl⟩ := GrpcServer.step_connect h
    rcases getElem?_append_stream.mp hst with hst | ⟨-, rfl⟩
    · exact hs.sent hst
    · exact fun _ h => absurd h List.not_mem_nil
  | stream j e =>
    obtain ⟨t, ht, -, hsent, -⟩ := GrpcServer.stream_before h hst
    exact hsent ▸ hs.sent ht

theorem SpecsBuilt.step (hs : s.SpecsBuilt specHash) {e : Event}
    (h : s.step lib specHash e = some s') : s'.SpecsBuilt specHash := by
  cases step_of_eq_some h with
  | grpc hg => exact hs.grpc hg
  | reconcile hr => exact hs.reconcile hr
  | _ => exact ⟨hs.tasks, hs.sent⟩

/-- Nothing that was hashed is forgotten. -/
theorem hashed_step {e : Event} (h : s.step lib specHash e = some s') : s.hashed ⊆ s'.hashed := by
  cases step_of_eq_some h with
  | reconcile hr =>
    cases hr with
    | acts => exact List.subset_cons_self _ _
    | _ => exact List.Subset.refl _
  | _ => exact List.Subset.refl _

end Server

/-! ## Specs of a proxy -/

namespace Proxy

variable {unmarshal : String → LabelSelector} {p p' : Proxy}

/-- The spec that a proxy expects stays the same until it receives another. -/
theorem Step.expectedSpec {e : Event} (h : Step unmarshal p e p') :
    p'.specManager.expectedSpec = p.specManager.expectedSpec ∨
      ∃ spec, e = .beginUpdate spec ∧
        p'.specManager.expectedSpec = some (convertProtoSpecToInternal unmarshal spec) := by
  cases h with
  | beginUpdate => exact .inr ⟨_, rfl, rfl⟩
  | finishUpdate => exact .inl (SpecManager.expectedSpec_loadExpectedSpec _ _)
  | _ => exact .inl rfl

/-- Only a spec that was expected is loaded. -/
theorem Step.currentSpec {e : Event} (h : Step unmarshal p e p') :
    p'.specManager.currentSpec = p.specManager.currentSpec ∨
      p'.specManager.currentSpec = p.specManager.expectedSpec := by
  cases h with
  | @finishUpdate order =>
    cases he : p.specManager.expectedSpec with
    | none => exact .inl (by simp only [Proxy.finishUpdate, SpecManager.loadExpectedSpec, he])
    | some expected =>
      rcases SpecManager.loadExpectedSpec_cases order he with ⟨err, -, hs⟩ | ⟨-, hs⟩
      · exact .inl (by simp only [Proxy.finishUpdate, hs])
      · exact .inr (by simp only [Proxy.finishUpdate, hs])
  | _ => exact .inl rfl

/-- Both specs of the proxy are among `specs`. -/
def SpecsFrom (unmarshal : String → LabelSelector) (specs : ProxySpecV1 → Prop) (p : Proxy) :
    Prop :=
  ∀ s, p.specManager.expectedSpec = some s ∨ p.specManager.currentSpec = some s →
    ∃ spec, specs spec ∧ s = convertProtoSpecToInternal unmarshal spec

theorem SpecsFrom.mono {specs specs' : ProxySpecV1 → Prop} (h : p.SpecsFrom unmarshal specs)
    (hspecs : ∀ spec, specs spec → specs' spec) : p.SpecsFrom unmarshal specs' := by
  intro s hs
  obtain ⟨spec, hspec, rfl⟩ := h s hs
  exact ⟨spec, hspecs spec hspec, rfl⟩

theorem SpecsFrom.step {specs : ProxySpecV1 → Prop} (h : p.SpecsFrom unmarshal specs) {e : Event}
    (hstep : p.step unmarshal e = some p') (he : ∀ spec, e = .beginUpdate spec → specs spec) :
    p'.SpecsFrom unmarshal specs := by
  have hstep' := step_of_eq_some hstep
  rintro s (hs | hs)
  · rcases hstep'.expectedSpec with hold | ⟨spec, hspec, hnew⟩
    · exact h s (.inl (hold ▸ hs))
    · exact ⟨spec, he spec hspec, Option.some.inj (hs.symm.trans hnew)⟩
  · rcases hstep'.currentSpec with hold | hnew
    · exact h s (.inr (hold ▸ hs))
    · exact h s (.inl (hnew ▸ hs))

end Proxy

/-! ## The mesh -/

namespace Mesh

variable {lib : Lib} {specHash : RouteV1 → List EndpointV1 → String}
  {unmarshal : String → LabelSelector} {s s' : Mesh}

/-- A proxy after a step: it was started, it is as before, or it took a step in
which it may have received a spec from a stream. -/
inductive ProxyStep (unmarshal : String → LabelSelector) (s : Mesh) (uid : String) : Proxy → Prop
  | starts : ProxyStep unmarshal s uid .start
  | stays {p : Proxy} (h : s.proxies[uid]? = some p) : ProxyStep unmarshal s uid p
  | steps {p p' : Proxy} {e : Proxy.Event} (h : s.proxies[uid]? = some p)
      (hstep : p.step unmarshal e = some p')
      (hspec : ∀ spec, e = .beginUpdate spec →
        ∃ (i : Nat) (st : Stream), s.server.grpc.streams[i]? = some st ∧ spec ∈ st.sent) :
      ProxyStep unmarshal s uid p'

/-- What a step of the mesh is: steps of the server, and of each proxy at most
one. -/
structure Step (lib : Lib) (specHash : RouteV1 → List EndpointV1 → String)
    (unmarshal : String → LabelSelector) (s s' : Mesh) : Prop where
  server : ∃ es, (Server.system lib specHash s.server.vApp).runFrom s.server es = some s'.server
  proxy {uid : String} {p : Proxy} (h : s'.proxies[uid]? = some p) : ProxyStep unmarshal s uid p

theorem ProxyStep.of_insert {uid uid' : String} {p p' : Proxy}
    (h : (s.proxies.insert uid p)[uid']? = some p') (hp : ProxyStep unmarshal s uid p) :
    ProxyStep unmarshal s uid' p' := by
  rw [StringMap.getElem?_insert] at h
  split_ifs at h with huid
  · obtain rfl := Option.some.inj h
    exact huid ▸ hp
  · exact .stays h

theorem step_of_eq_some {e : Event} (h : s.step lib specHash unmarshal e = some s') :
    Step lib specHash unmarshal s s' := by
  have hrun {t t₁ server : Server} {e : Server.Event} {es : List Server.Event}
      (h : t.step lib specHash e = some t₁)
      (hes : (Server.system lib specHash s.server.vApp).runFrom t₁ es = some server) :
      (Server.system lib specHash s.server.vApp).runFrom t (e :: es) = some server :=
    (System.runFrom_cons_eq_some _).mpr ⟨t₁, h, hes⟩
  cases e with
  | server e =>
    simp only [step] at h
    split at h
    · obtain ⟨server, hserver, rfl⟩ := Option.map_eq_some_iff.mp h
      exact ⟨⟨_, hrun hserver (System.runFrom_nil _ _)⟩, fun h => .stays h⟩
    · cases h
  | start uid =>
    simp only [step] at h
    split at h
    · cases h
    · obtain rfl := Option.some.inj h
      exact ⟨⟨[], rfl⟩, fun h => .of_insert h .starts⟩
  | stop uid =>
    obtain rfl := Option.some.inj h
    refine ⟨⟨[], rfl⟩, fun h => ?_⟩
    rw [StringMap.getElem?_erase] at h
    split_ifs at h
    exact .stays h
  | connect uid =>
    simp only [step, Option.bind_eq_bind, Option.bind_eq_some_iff, Option.some.injEq] at h
    obtain ⟨p, -, -, -, p', -, server, hconnect, server', hreport, rfl⟩ := h
    exact ⟨⟨_, hrun hconnect (hrun hreport (System.runFrom_nil _ _))⟩, fun h => .stays h⟩
  | report i =>
    simp only [step, Option.bind_eq_bind, Option.bind_eq_some_iff, Option.some.injEq] at h
    obtain ⟨st, -, p, -, p', -, status, -, server, hreport, rfl⟩ := h
    exact ⟨⟨_, hrun hreport (System.runFrom_nil _ _)⟩, fun h => .stays h⟩
  | deliver i =>
    simp only [step, Option.bind_eq_bind, Option.bind_eq_some_iff, Option.some.injEq] at h
    obtain ⟨st, hst, spec, hspec, p, hp, p', hp', server, hdeliver, rfl⟩ := h
    refine ⟨⟨_, hrun hdeliver (System.runFrom_nil _ _)⟩, fun h => .of_insert h (.steps hp hp' fun spec' he => ?_)⟩
    obtain rfl := Proxy.Event.beginUpdate.inj he
    exact ⟨i, st, hst, List.mem_of_getElem? hspec⟩
  | proxy uid e =>
    simp only [step, Option.bind_eq_bind, Option.bind_eq_some_iff, Option.some.injEq] at h
    obtain ⟨⟨⟩, hlocal, p, hp, p', hp', rfl⟩ := h
    refine ⟨⟨[], rfl⟩, fun h => .of_insert h (.steps hp hp' fun spec he => ?_)⟩
    subst he
    cases hlocal

/-- Every spec in the mesh has been built from what the server has hashed. -/
structure Inv (specHash : RouteV1 → List EndpointV1 → String) (unmarshal : String → LabelSelector)
    (s : Mesh) : Prop where
  server : s.server.SpecsBuilt specHash
  proxies {uid : String} {p : Proxy} (h : s.proxies[uid]? = some p) :
    p.SpecsFrom unmarshal (Built specHash s.server.hashed)

theorem Inv.step (hs : Inv specHash unmarshal s) {e : Event}
    (h : s.step lib specHash unmarshal e = some s') : Inv specHash unmarshal s' := by
  have hstep := step_of_eq_some h
  obtain ⟨es, hes⟩ := hstep.server
  -- What the server does keeps its specs built, and forgets nothing it has hashed.
  obtain ⟨hserver, hsub⟩ := (Server.system lib specHash s.server.vApp).runFrom_invariant
    (I := fun t => t.SpecsBuilt specHash ∧ s.server.hashed ⊆ t.hashed)
    (fun _ ht hstep => ⟨ht.1.step hstep, fun _ hx => Server.hashed_step hstep (ht.2 hx)⟩)
    (fun _ _ => trivial) ⟨hs.server, List.Subset.refl _⟩ hes
  refine ⟨hserver, fun {uid p} h => ?_⟩
  have hspecs : p.SpecsFrom unmarshal (Built specHash s.server.hashed) := by
    cases hstep.proxy h with
    | starts => exact fun s hs => by simp [Proxy.start, SpecManager.start] at hs
    | stays hp => exact hs.proxies hp
    | steps hp hp' hspec =>
      refine (hs.proxies hp).step hp' fun spec he => ?_
      obtain ⟨i, st, hst, hsent⟩ := hspec spec he
      exact hs.server.sent hst spec hsent
  exact hspecs.mono fun spec hspec => hspec.mono hsub

theorem inv_of_run {vApp : VirtualApp} {es : List Event}
    (h : (system lib specHash unmarshal vApp).run es = some s) : Inv specHash unmarshal s := by
  have hstart : Inv specHash unmarshal ⟨.start vApp, ∅, ∅⟩ :=
    ⟨Server.specsBuilt_start vApp, fun h => by simp at h⟩
  exact (system lib specHash unmarshal vApp).runFrom_invariant
    (fun _ hs hstep => hs.step hstep) (fun _ _ => trivial) hstart h

/-- If the current specs of two pods, for different subsets, both match a
namespace, of a resource that is not public, then they were built from different
routes: the server has hashed both in this run, and the specs carry the
hashes. -/
theorem route_ne_of_overlap {vApp : VirtualApp} {es : List Event}
    (h : (system lib specHash unmarshal vApp).run es = some s) {u v : String} {p q : Proxy}
    (hp : s.proxies[u]? = some p) (hq : s.proxies[v]? = some q) {a b : InternalSpec}
    (ha : p.specManager.currentSpec = some a) (hb : q.specManager.currentSpec = some b)
    (hsubset : a.routeInternal.subset ≠ b.routeInternal.subset) {n : String} {gr : GroupResource}
    (hpublic : isGRMatchedAPIResources gr a.routeInternal.subsetPublicResources = false)
    (hname : ∀ l ∈ a.routeInternal.subsetLimits, l.subset ≠ AllSubsetPublic)
    (hma : a.isNamespaceMatch n gr = true) (hmb : b.isNamespaceMatch n gr = true) :
    ∃ x ∈ s.server.hashed, ∃ y ∈ s.server.hashed,
      a.proxySpecV1.specMeta.hash = specHash x.1 x.2 ∧
      b.proxySpecV1.specMeta.hash = specHash y.1 y.2 ∧ x.1 ≠ y.1 := by
  have hs := inv_of_run h
  obtain ⟨spec, ⟨x, hx, hxhash, hxroute⟩, rfl⟩ := hs.proxies hp a (.inr ha)
  obtain ⟨spec', ⟨y, hy, hyhash, hyroute⟩, rfl⟩ := hs.proxies hq b (.inr hb)
  refine ⟨x, hx, y, hy, hxhash, hyhash, fun hxy => ?_⟩
  refine not_isNamespaceMatch_of_route_eq ?_ hsubset hpublic hname hma hmb
  rw [hxroute, hyroute, hxy]

/-- An application with a subset for each of two teams. -/
def sampleTeams : VirtualApp :=
  { sampleVApp "canary" with
    route := some
      { subRules := [⟨"a", [{ namespaceSelector := some (sampleSelector "team" "a") }]⟩,
          ⟨"b", [{ namespaceSelector := some (sampleSelector "team" "b") }]⟩] }
    subsets := [⟨"canary", {("version", "canary")}, ["a"]⟩, ⟨"beta", {("version", "beta")}, ["b"]⟩] }

/-- The proxy of a pod starts and registers on the `i`-th stream. -/
def sampleJoin (i : Nat) (uid : String) : List Event :=
  .start uid :: .connect uid ::
    [.recvFirst, .lookupPod true, .store, .clear].map fun e => .server (.grpc (.stream i e))

/-- A pod receives a spec, loads it and reports that. -/
def sampleUpdate (i : Nat) (uid : String) : List Event :=
  [.deliver i, .proxy uid (.finishUpdate .sorted), .report i, .server (.grpc (.stream i .recv))]

/-- A pod lists the config maps. -/
def sampleList (uid : String) : List Event :=
  [.proxy uid (.acquire (.list ⟨sampleConfigMaps, false⟩ (.typed [⟨some "ns", "x"⟩]))),
    .proxy uid (.release 0)]

/-- Two pods get their first specs and the one of team `a` lists; then the
namespace is given to team `b`, whose pod gets the new spec first and lists. -/
def sampleRollout : List Event :=
  List.flatten [[.server (.setNamespaces [⟨"ns", {("team", "a")}, false⟩]),
      .server (.setPods [Server.samplePod "pod-a" "canary", Server.samplePod "pod-b" "beta"])],
    sampleJoin 0 "pod-a", sampleJoin 1 "pod-b", List.replicate 13 (.server (.reconcile {})),
    sampleUpdate 0 "pod-a", sampleUpdate 1 "pod-b", sampleList "pod-a",
    [.server (.setNamespaces [⟨"ns", {("team", "b")}, false⟩])],
    List.replicate 14 (.server (.reconcile {})), sampleUpdate 1 "pod-b", sampleList "pod-b"]

/-- A test for a pod of a subset that has passed the namespace of the sample and
whose current spec still matches it. -/
def samplePasses (s : Mesh) (uid subset : String) : Bool :=
  s.proxies[uid]?.any fun p => p.specManager.currentSpec.any fun a =>
    p.specManager.requestsStore.requestsByGR[sampleConfigMaps.toStr]?.any
      (·.namespacePassed.contains "ns") && a.isNamespaceMatch "ns" sampleConfigMaps &&
      a.routeInternal.subset == subset &&
      !isGRMatchedAPIResources sampleConfigMaps a.routeInternal.subsetPublicResources &&
      a.routeInternal.subsetLimits.all (·.subset != AllSubsetPublic)

theorem passes_of_samplePasses {uid subset : String} (h : s.samplePasses uid subset = true) :
    ∃ p req a, s.proxies[uid]? = some p ∧ p.specManager.currentSpec = some a ∧
      p.specManager.requestsStore.requestsByGR[sampleConfigMaps.toStr]? = some req ∧
      req.namespacePassed.contains "ns" = true ∧ a.isNamespaceMatch "ns" sampleConfigMaps = true ∧
      a.routeInternal.subset = subset ∧
      isGRMatchedAPIResources sampleConfigMaps a.routeInternal.subsetPublicResources = false ∧
      ∀ l ∈ a.routeInternal.subsetLimits, l.subset ≠ AllSubsetPublic := by
  simp only [samplePasses, Option.any_eq_true, Bool.and_eq_true, beq_iff_eq, Bool.not_eq_true',
    List.all_eq_true, bne_iff_ne] at h
  obtain ⟨p, hp, a, ha, ⟨⟨⟨⟨req, hreq, hpassed⟩, hmatch⟩, hsubset⟩, hpublic⟩, hname⟩ := h
  exact ⟨p, req, a, hp, ha, hreq, hpassed, hmatch, hsubset, hpublic, hname⟩

theorem samplePasses_sampleRollout :
    ((system sampleLib Server.sampleHash LabelSelector.ofJSON sampleTeams).run sampleRollout).map
      (fun s => (s.samplePasses "pod-a" "canary", s.samplePasses "pod-b" "beta")) =
      some (true, true) := by
  decide +kernel

/-- The server has hashed a route for each of the two teams. -/
theorem route_ne_of_overlap_sampleRollout :
    ∃ s, (system sampleLib Server.sampleHash LabelSelector.ofJSON sampleTeams).run sampleRollout =
        some s ∧
      ∃ x ∈ s.server.hashed, ∃ y ∈ s.server.hashed, x.1 ≠ y.1 := by
  obtain ⟨s, hs, htest⟩ := Option.map_eq_some_iff.mp samplePasses_sampleRollout
  obtain ⟨p, -, a, hp, ha, -, -, hma, hsa, hpublic, hname⟩ :=
    passes_of_samplePasses (congrArg Prod.fst htest)
  obtain ⟨q, -, b, hq, hb, -, -, hmb, hsb, -, -⟩ :=
    passes_of_samplePasses (congrArg Prod.snd htest)
  have hne : a.routeInternal.subset ≠ b.routeInternal.subset := by rw [hsa, hsb]; decide
  obtain ⟨x, hx, y, hy, -, -, hxy⟩ :=
    route_ne_of_overlap hs hp hq ha hb hne hpublic hname hma hmb
  exact ⟨s, hs, x, hx, y, hy, hxy⟩

/-- Two pods of different subsets have both passed a namespace, and the current
specs of both still match it. -/
theorem overlap_sampleRollout :
    validate sampleLib sampleTeams = .ok () ∧ ∃ s p q req req' a b,
      (system sampleLib Server.sampleHash LabelSelector.ofJSON sampleTeams).run sampleRollout =
        some s ∧
      s.proxies["pod-a"]? = some p ∧ s.proxies["pod-b"]? = some q ∧
      p.specManager.currentSpec = some a ∧ q.specManager.currentSpec = some b ∧
      a.routeInternal.subset = "canary" ∧ b.routeInternal.subset = "beta" ∧
      p.specManager.requestsStore.requestsByGR[sampleConfigMaps.toStr]? = some req ∧
      q.specManager.requestsStore.requestsByGR[sampleConfigMaps.toStr]? = some req' ∧
      req.namespacePassed.contains "ns" = true ∧ req'.namespacePassed.contains "ns" = true ∧
      a.isNamespaceMatch "ns" sampleConfigMaps = true ∧
      b.isNamespaceMatch "ns" sampleConfigMaps = true ∧
      isGRMatchedAPIResources sampleConfigMaps a.routeInternal.subsetPublicResources = false ∧
      isGRMatchedAPIResources sampleConfigMaps b.routeInternal.subsetPublicResources = false := by
  obtain ⟨s, hs, htest⟩ := Option.map_eq_some_iff.mp samplePasses_sampleRollout
  obtain ⟨p, req, a, hp, ha, hreq, hpassed, hma, hsa, hpub, -⟩ :=
    passes_of_samplePasses (congrArg Prod.fst htest)
  obtain ⟨q, req', b, hq, hb, hreq', hpassed', hmb, hsb, hpub', -⟩ :=
    passes_of_samplePasses (congrArg Prod.snd htest)
  exact ⟨by decide +kernel, s, p, q, req, req', a, b, hs, hp, hq, ha, hb, hsa, hsb, hreq, hreq',
    hpassed, hpassed', hma, hmb, hpub, hpub'⟩

end Mesh

end CtrlMesh
