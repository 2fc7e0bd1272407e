import ControllerMesh.Proof.Owners
import ControllerMesh.Proof.Reconcile

/-!
# Hash expectations and connections

An expectation that a pod reports a hash is worth waiting for while a spec with
that hash has been sent on the pod's connection, or the connection is marked as
disconnected, whose handler then has deleted what was expected
(`GrpcServer.Accounted`). Two steps can leave an expectation that nothing will
meet: a new connection is stored while an expectation from the one before is
held, and `Reconcile` stores an expectation after the connection it has sent the
spec on has been replaced. Apart from these, expectations are accounted for
(`expectations_accounted_iff`).
-/

namespace CtrlMesh

open Framework

namespace GrpcServer

variable {g g' : GrpcServer} {uid hash : String}

/-- The connection cached for the pod is marked as disconnected, or a spec with
the hash has been sent on it. -/
def Accounted (g : GrpcServer) (uid hash : String) : Prop :=
  ∃ (i : Nat) (st : Stream), g.cachedGrpcSrvConnection[uid]? = some i ∧ g.streams[i]? = some st ∧
    (st.conn.disconnected = true ∨ ∃ spec ∈ st.sent, spec.specMeta.hash = hash)

theorem Accounted.connect (h : g.Accounted uid hash) {uid' : String}
    (hstep : g.step (.connect uid') = some g') : g'.Accounted uid hash := by
  obtain ⟨-, rfl⟩ := step_connect hstep
  obtain ⟨i, st, hc, hst, hacc⟩ := h
  exact ⟨i, st, hc, getElem?_append_stream.mpr (.inl hst), hacc⟩

/-- It stays accounted for until another connection is stored. -/
theorem Accounted.stream (hg : g.Inv) (h : g.Accounted uid hash) {i : Nat} {e : Stream.Event}
    (hstep : g.step (.stream i e) = some g')
    (hcached : g'.cachedGrpcSrvConnection[uid]? = g.cachedGrpcSrvConnection[uid]?) :
    g'.Accounted uid hash := by
  obtain ⟨j, t, hc, ht, hacc⟩ := h
  obtain ⟨t', ht', -, hsent, -, hd⟩ := stream_after hstep ht
  refine ⟨j, t', hcached.trans hc, ht', hacc.imp (hd (hg.ok ht)) fun hspec => ?_⟩
  rw [hsent]
  exact hspec

theorem Accounted.send (h : g.Accounted uid hash) (i : Nat) (spec : ProxySpecV1)
    (err : Option String) : (g.send i spec err).Accounted uid hash := by
  obtain ⟨j, t, hc, ht, hacc⟩ := h
  refine ⟨j, _, hc, send_of_stream ht, ?_⟩
  split_ifs
  · refine hacc.imp_right fun ⟨spec', hspec', hhash⟩ => ⟨spec', ?_, hhash⟩
    simp only [Stream.send]
    split_ifs
    · exact List.mem_append_left _ hspec'
    · exact hspec'
  · exact hacc

/-- A connection that has just been stored accounts for nothing. -/
theorem not_accounted_store (hg : g.Inv) {i : Nat} {st : Stream} (hst : g.streams[i]? = some st)
    (hstep : g.step (.stream i .store) = some g') : ¬g'.Accounted st.uid hash := by
  obtain ⟨st₀, st', hst₀, hstore, rfl⟩ := step_stream hstep
  obtain rfl : st = st₀ := Option.some.inj (hst.symm.trans hst₀)
  rintro ⟨j, t, hc, ht, hacc⟩
  rw [cached_effect, if_pos ⟨rfl, rfl⟩] at hc
  obtain rfl := Option.some.inj hc
  rw [streams_effect, getElem?_set_stream hst, if_pos rfl] at ht
  obtain rfl := Option.some.inj ht
  cases hstore with
  | store hh =>
    rcases hacc with hd | ⟨spec, hspec, -⟩
    · cases hd
    · rw [((hg.ok hst).unstored (by rw [hh]; rfl)).1] at hspec
      cases hspec

end GrpcServer

namespace Server

variable {lib : Lib} {specHash : RouteV1 → List EndpointV1 → String} {s s' : Server}

/-- Every hash expectation is accounted for. -/
def ExpectationsAccounted (s : Server) : Prop :=
  ∀ uid hash : String, s.grpc.podHashExpectation[uid]? = some hash → s.grpc.Accounted uid hash

/-- A connection is stored only while no expectation is held for its pod, and
`Reconcile` stores an expectation only while the connection on which it has sent
the spec is the one that is cached, or that one is marked as disconnected. -/
def ExpectsInTime (s : Server) : Event → Prop
  | .grpc (.stream i .store) =>
    ∀ st, s.grpc.streams[i]? = some st → s.grpc.podHashExpectation[st.uid]? = none
  | .reconcile _ =>
    ∀ task todo, s.reconcile = .expecting task todo →
      ∃ (i : Nat) (st : Stream), s.grpc.cachedGrpcSrvConnection[task.pod.uid]? = some i ∧
        s.grpc.streams[i]? = some st ∧ (i = task.conn ∨ st.conn.disconnected = true)
  | _ => True

/-- No step of a stream adds an expectation. -/
theorem expectation_effect {g : GrpcServer} {i : Nat} {uid k hash : String} {e : Stream.Event}
    (h : (g.effect i uid e).podHashExpectation[k]? = some hash) :
    g.podHashExpectation[k]? = some hash := by
  have herase (h : (g.podHashExpectation.erase uid)[k]? = some hash) :
      g.podHashExpectation[k]? = some hash := by
    rw [StringMap.getElem?_erase] at h
    split_ifs at h
    exact h
  cases e with
  | clear => exact herase h
  | teardown => exact herase h
  | _ => exact h

/-- A `store` keeps the expectations accounted for exactly if there is none for
the pod. -/
theorem ExpectationsAccounted.store (hs : s.Inv) (h : s.ExpectationsAccounted) {i : Nat}
    {grpc : GrpcServer} (hstep : s.grpc.step (.stream i .store) = some grpc) :
    ({ s with grpc := grpc } : Server).ExpectationsAccounted ↔
      s.ExpectsInTime (.grpc (.stream i .store)) := by
  obtain ⟨st, st', hst, -, heq⟩ := GrpcServer.step_stream hstep
  have hexp : grpc.podHashExpectation = s.grpc.podHashExpectation := by rw [heq]; rfl
  constructor
  · intro h' t ht
    by_contra hsome
    obtain ⟨hash, hhash⟩ := Option.ne_none_iff_exists'.mp hsome
    exact GrpcServer.not_accounted_store hs.grpc ht hstep (h' t.uid hash (hexp ▸ hhash))
  · intro hnone uid hash hhash
    have hhash' : s.grpc.podHashExpectation[uid]? = some hash := hexp ▸ hhash
    have hne : st.uid ≠ uid := by
      rintro rfl
      rw [hnone st hst] at hhash'
      cases hhash'
    refine (h uid hash hhash').stream hs.grpc hstep ?_
    rw [heq, GrpcServer.cached_effect, if_neg fun hc => hne hc.2]

theorem ExpectationsAccounted.grpc (hs : s.Inv) (h : s.ExpectationsAccounted)
    {e : GrpcServer.Event} {grpc : GrpcServer} (hstep : s.grpc.step e = some grpc) :
    ({ s with grpc := grpc } : Server).ExpectationsAccounted ↔ s.ExpectsInTime (.grpc e) := by
  cases e with
  | connect uid =>
    refine iff_of_true (fun uid' hash hexp => ?_) trivial
    refine (h uid' hash ?_).connect hstep
    obtain ⟨-, rfl⟩ := GrpcServer.step_connect hstep
    exact hexp
  | stream i e =>
    by_cases he : e = .store
    · subst he
      exact h.store hs hstep
    · refine iff_of_true (fun uid hash hexp => ?_) (by cases e <;> trivial)
      obtain ⟨st, st', -, -, heq⟩ := GrpcServer.step_stream hstep
      subst heq
      have hold := expectation_effect hexp
      refine (h uid hash hold).stream hs.grpc hstep ?_
      rw [GrpcServer.cached_effect, if_neg fun hc => he hc.1]

/-- What a step of `Reconcile` does to the expectations: it adds one only after a
`send`. -/
theorem ReconcileStep.expectations (h : ReconcileStep lib specHash s s') :
    (∃ task todo, s.reconcile = .expecting task todo ∧
      s'.grpc = { s.grpc with podHashExpectation :=
        s.grpc.podHashExpectation.insert task.pod.uid task.newSpec.specMeta.hash }) ∨
    s.reconcile.isExpecting = false ∧
      (∀ uid hash : String, s'.grpc.podHashExpectation[uid]? = some hash →
        s.grpc.podHashExpectation[uid]? = some hash) ∧
      ∀ uid hash, s.grpc.Accounted uid hash → s'.grpc.Accounted uid hash := by
  cases h with
  | expects hr => exact .inl ⟨_, _, hr, rfl⟩
  | returns _ hr => exact .inr ⟨hr, fun _ _ => id, fun _ _ => id⟩
  | begins hr => exact .inr ⟨by rw [hr]; rfl, fun _ _ => id, fun _ _ => id⟩
  | skips hr => exact .inr ⟨by rw [hr]; rfl, fun _ _ => id, fun _ _ => id⟩
  | ignores hr => exact .inr ⟨by rw [hr]; rfl, fun _ _ => id, fun _ _ => id⟩
  | loads hr => exact .inr ⟨by rw [hr]; rfl, fun _ _ => id, fun _ _ => id⟩
  | reads hr => exact .inr ⟨by rw [hr]; rfl, fun _ _ => id, fun _ _ => id⟩
  | checks hr => exact .inr ⟨by rw [hr]; rfl, fun _ _ => id, fun _ _ => id⟩
  | meets hr => exact .inr ⟨by rw [hr]; rfl, fun _ _ => id, fun _ _ => id⟩
  | acts hr => exact .inr ⟨by rw [hr]; rfl, fun _ _ => id, fun _ _ => id⟩
  | deletes hr => exact .inr ⟨by rw [hr]; rfl, fun _ _ => id, fun _ _ => id⟩
  | forgets hr =>
    refine .inr ⟨by rw [hr]; rfl, fun uid hash h => ?_, fun _ _ => id⟩
    rw [StringMap.getElem?_erase] at h
    split_ifs at h
    exact h
  | sends hr => exact .inr ⟨by rw [hr]; rfl, fun _ _ => id, fun _ _ h => h.send _ _ _⟩
  | fails hr => exact .inr ⟨by rw [hr]; rfl, fun _ _ => id, fun _ _ h => h.send _ _ _⟩

/-- The expectation after a `send` is accounted for exactly if it is stored in
time: on a connection that has been cached since nothing has been sent. -/
theorem Inv.accounted_iff (hs : s.Inv) {task : SyncTask} {todo : List SyncTask}
    (hr : s.reconcile = .expecting task todo) :
    s.grpc.Accounted task.pod.uid task.newSpec.specMeta.hash ↔
      ∃ (i : Nat) (st : Stream), s.grpc.cachedGrpcSrvConnection[task.pod.uid]? = some i ∧
        s.grpc.streams[i]? = some st ∧ (i = task.conn ∨ st.conn.disconnected = true) := by
  have hheld := hs.held
  rw [hr] at hheld
  obtain ⟨j, t, hj, ht, hunsent⟩ := (hheld task.ref List.mem_cons_self).cached
  obtain ⟨st₀, hst₀, hsent⟩ := hs.sent hr
  refine exists_congr fun i => exists_congr fun st => and_congr_right fun hi =>
    and_congr_right fun hst => ?_
  obtain rfl : i = j := Option.some.inj (hi.symm.trans hj)
  obtain rfl : st = t := Option.some.inj (hst.symm.trans ht)
  constructor
  · rintro (hd | ⟨spec, hspec, -⟩)
    · exact .inr hd
    · refine .inl (hunsent.resolve_right fun hnil => ?_)
      rw [hnil] at hspec
      cases hspec
  · rintro (rfl | hd)
    · obtain rfl : st = st₀ := Option.some.inj (hst.symm.trans hst₀)
      exact .inr ⟨_, hsent, rfl⟩
    · exact .inl hd

theorem ExpectationsAccounted.reconcile (hs : s.Inv) (h : s.ExpectationsAccounted)
    (hstep : ReconcileStep lib specHash s s') (env : Env) :
    s'.ExpectationsAccounted ↔ s.ExpectsInTime (.reconcile env) := by
  rcases hstep.expectations with ⟨task, todo, hr, hgrpc⟩ | ⟨hr, hback, hkeep⟩
  · have hins (uid : String) : s'.grpc.podHashExpectation[uid]? =
        if task.pod.uid = uid then some task.newSpec.specMeta.hash
        else s.grpc.podHashExpectation[uid]? := by
      rw [hgrpc]
      exact StringMap.getElem?_insert
    have hacc (uid hash : String) : s'.grpc.Accounted uid hash ↔ s.grpc.Accounted uid hash := by
      rw [hgrpc]
      rfl
    have htask : s'.ExpectationsAccounted ↔
        s.grpc.Accounted task.pod.uid task.newSpec.specMeta.hash := by
      constructor
      · intro h'
        exact (hacc _ _).mp (h' task.pod.uid _ ((hins _).trans (if_pos rfl)))
      · intro ha uid hash hexp
        rw [hins] at hexp
        rw [hacc]
        split_ifs at hexp with huid
        · exact huid ▸ Option.some.inj hexp ▸ ha
        · exact h uid hash hexp
    rw [htask, hs.accounted_iff hr]
    simp only [ExpectsInTime, hr, Reconcile.expecting.injEq]
    constructor
    · rintro h' _ _ ⟨rfl, rfl⟩
      exact h'
    · intro h'
      exact h' task todo ⟨rfl, rfl⟩
  · refine iff_of_true (fun uid hash hexp => hkeep uid hash (h uid hash (hback uid hash hexp))) ?_
    intro task todo hexp
    rw [hexp] at hr
    cases hr

theorem expectationsAccounted_step (hs : s.Inv) (h : s.ExpectationsAccounted) {e : Event}
    (hstep : s.step lib specHash e = some s') : s'.ExpectationsAccounted ↔ s.ExpectsInTime e := by
  cases step_of_eq_some hstep with
  | apply => exact iff_of_true h trivial
  | setNamespaces => exact iff_of_true h trivial
  | setPods => exact iff_of_true h trivial
  | podDeleted uid =>
    refine iff_of_true (fun uid' hash hexp => h uid' hash ?_) trivial
    rw [StringMap.getElem?_erase] at hexp
    split_ifs at hexp
    exact hexp
  | grpc hg => exact h.grpc hs hg
  | reconcile hr => exact h.reconcile hs hr _

/-- In a run of the server every hash expectation is accounted for, in every
state, exactly if every connection is stored while there is no expectation for
its pod, and every expectation while the connection that the spec was sent on is
cached, or the cached one is marked as disconnected. -/
theorem expectations_accounted_iff {vApp : VirtualApp} {es : List Event}
    (h : (system lib specHash vApp).run es = some s) :
    (system lib specHash vApp).States ExpectationsAccounted (start vApp) es ↔
      (system lib specHash vApp).Steps ExpectsInTime (start vApp) es := by
  have hstart : (start vApp).ExpectationsAccounted := by
    intro uid hash hexp
    simp [start, GrpcServer.start] at hexp
  exact (system lib specHash vApp).states_iff_steps (fun _ hs hstep => hs.step hstep)
    (fun hs h hstep => expectationsAccounted_step hs h hstep) (fun _ _ => trivial)
    (inv_start vApp) hstart h

/-- The wire encoding in the place of a hash. -/
def sampleHash (route : RouteV1) (endpoints : List EndpointV1) : String :=
  String.ofList ((ProxySpecV1.Msg.codec.marshal ⟨none, some route, endpoints⟩).map fun b =>
    Char.ofNat b.toNat)

/-- A pod that runs, with a label of its version. -/
def samplePod (uid version : String) : Pod where
  uid := uid
  name := uid
  labels := {("version", version)}
  phase := .running
  podIP := "10.0.0.1"
  ready := false
  containerStatuses := []

/-- The events of a stream that registers, and whose connection is stored. -/
def sampleStream (i : Nat) (uid : String) : List Event :=
  (GrpcServer.Event.connect uid :: (GrpcServer.sampleRegister i ++
    [.stream i .store, .stream i .clear])).map .grpc

/-- A pod registers, and Reconcile dispatches a spec to it. -/
def sampleDispatch : List Event :=
  List.flatten [[.setNamespaces sampleNamespaces, .setPods [samplePod "pod" "canary"]],
    sampleStream 0 "pod", List.replicate 6 (.reconcile {})]

/-- Whether a step stores nothing too late. -/
def storesInTime (s : Server) : Event → Bool
  | .grpc (.stream i .store) =>
    s.grpc.streams[i]?.all fun st => s.grpc.podHashExpectation[st.uid]?.isNone
  | .reconcile _ =>
    match s.reconcile with
    | .expecting task _ =>
      s.grpc.cachedGrpcSrvConnection[task.pod.uid]? == some task.conn &&
        s.grpc.streams[task.conn]?.isSome
    | _ => true
  | _ => true

theorem expectsInTime_of_storesInTime {e : Event} (h : s.storesInTime e = true) :
    s.ExpectsInTime e := by
  unfold ExpectsInTime
  split
  · intro st hst
    simpa [storesInTime, hst] using h
  · intro task todo hr
    simp only [storesInTime, hr, Bool.and_eq_true, beq_iff_eq] at h
    obtain ⟨st, hst⟩ := Option.isSome_iff_exists.mp h.2
    exact ⟨task.conn, st, h.1, hst, .inl rfl⟩
  · trivial

theorem expectations_accounted_sampleDispatch :
    ∃ s, (system sampleLib sampleHash (sampleVApp "canary")).run
        (sampleDispatch ++ [.reconcile {}]) = some s ∧
      s.grpc.podHashExpectation["pod"]?.isSome ∧
      (system sampleLib sampleHash (sampleVApp "canary")).States ExpectationsAccounted
        (start (sampleVApp "canary")) (sampleDispatch ++ [.reconcile {}]) := by
  have hrun : ((system sampleLib sampleHash (sampleVApp "canary")).run
      (sampleDispatch ++ [.reconcile {}])).map (·.grpc.podHashExpectation["pod"]?.isSome) =
        some true := by
    decide +kernel
  obtain ⟨s, hs, hexp⟩ := Option.map_eq_some_iff.mp hrun
  refine ⟨s, hs, hexp, (expectations_accounted_iff hs).mpr ?_⟩
  exact System.steps_of_checkSteps _ storesInTime expectsInTime_of_storesInTime (by decide +kernel)

/-- The same, but before the expectation is stored the stream breaks and the pod
connects again. -/
def sampleLateExpectation : List Event :=
  List.flatten [sampleDispatch, [.grpc (.stream 0 .breakOff)], sampleStream 1 "pod",
    [.grpc (.stream 0 .teardown), .grpc (.stream 0 .disconnect), .reconcile {}]]

/-- Then an expectation is held for the pod, whose cached connection is open, and
nothing has been sent on that. -/
theorem not_expectations_accounted_sampleLateExpectation :
    ∃ s st, (system sampleLib sampleHash (sampleVApp "canary")).run sampleLateExpectation = some s ∧
      s.grpc.podHashExpectation["pod"]?.isSome ∧
      s.grpc.cachedGrpcSrvConnection["pod"]? = some 1 ∧ s.grpc.streams[1]? = some st ∧
      st.conn.disconnected = false ∧ st.broken = false ∧ st.sent = [] := by
  have hrun : ((system sampleLib sampleHash (sampleVApp "canary")).run sampleLateExpectation).map
      (fun s => (s.grpc.podHashExpectation["pod"]?.isSome, s.grpc.cachedGrpcSrvConnection["pod"]?,
        s.grpc.streams[1]?)) =
      some (true, some 1, some { uid := "pod", handler := .serving }) := by
    decide +kernel
  obtain ⟨s, hs, heq⟩ := Option.map_eq_some_iff.mp hrun
  rw [Prod.mk.injEq, Prod.mk.injEq] at heq
  exact ⟨s, _, hs, heq.1, heq.2.1, heq.2.2, rfl, rfl, rfl⟩

end Server

end CtrlMesh
