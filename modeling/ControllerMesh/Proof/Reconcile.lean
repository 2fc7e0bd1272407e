import ControllerMesh.Impl.Server
import ControllerMesh.Proof.Streams

/-!
# The steps of Reconcile

What one step of `Reconcile` can do (`Server.ReconcileStep`), and the
connections it holds on the way (`Reconcile.refs`). A connection that
`Reconcile` has loaded for a pod is one of the pod's own, and if another one has
been cached since, then nothing has been sent on that (`GrpcServer.Holds`):
only the running `Reconcile` sends, and it sends on what it has loaded.
-/

namespace CtrlMesh

open Framework

/-- `Reconcile` is between a `send` and the expectation for it. -/
def Reconcile.isExpecting : Reconcile → Bool
  | expecting _ _ => true
  | _ => false

namespace Server

variable {lib : Lib} {specHash : RouteV1 → List EndpointV1 → String} {s s' : Server}

/-- The steps of `Reconcile`. -/
inductive ReconcileStep (lib : Lib) (specHash : RouteV1 → List EndpointV1 → String) (s : Server) :
    Server → Prop where
  | returns (res : ReconcileResult) (h : s.reconcile.isExpecting = false) :
      ReconcileStep lib specHash s { s with reconcile := .idle res }
  | begins {res : ReconcileResult} (h : s.reconcile = .idle res) :
      ReconcileStep lib specHash s
        { s with reconcile := .scanning ⟨s.vApp, getPodsForVApp s.pods, [], []⟩ }
  | skips {scan : Scan} {pod : Pod} {todo : List Pod} (h : s.reconcile = .scanning scan)
      (htodo : scan.todo = pod :: todo) :
      ReconcileStep lib specHash s { s with reconcile := .scanning (scan.skip todo) }
  | ignores {scan : Scan} {pod : Pod} {todo : List Pod} (h : s.reconcile = .scanning scan)
      (htodo : scan.todo = pod :: todo) :
      ReconcileStep lib specHash s { s with reconcile := .scanning (scan.activate pod todo) }
  | loads {scan : Scan} {pod : Pod} {todo : List Pod} {conn : Nat}
      (h : s.reconcile = .scanning scan) (htodo : scan.todo = pod :: todo)
      (hconn : s.grpc.cachedGrpcSrvConnection[pod.uid]? = some conn) :
      ReconcileStep lib specHash s { s with reconcile := .loaded (scan.activate pod todo) pod conn }
  | reads {scan : Scan} {pod : Pod} {conn : Nat} {st : Stream}
      (h : s.reconcile = .loaded scan pod conn) (hst : s.grpc.streams[conn]? = some st) :
      ReconcileStep lib specHash s { s with
        reconcile := .checking scan ⟨pod, conn, 0 < st.conn.sendTimes, st.conn.status⟩ }
  | checks {scan : Scan} {sp : SyncPod} (h : s.reconcile = .checking scan sp) :
      ReconcileStep lib specHash s { s with reconcile := .scanning (scan.sync sp) }
  | meets {scan : Scan} {sp : SyncPod} (h : s.reconcile = .checking scan sp) :
      ReconcileStep lib specHash s { s with reconcile := .satisfied scan sp }
  | forgets {scan : Scan} {sp : SyncPod} (h : s.reconcile = .satisfied scan sp) :
      ReconcileStep lib specHash s { s with
        grpc := { s.grpc with podHashExpectation := s.grpc.podHashExpectation.erase sp.pod.uid }
        reconcile := .scanning (scan.sync sp) }
  | acts {scan : Scan} (h : s.reconcile = .scanning scan) :
      ReconcileStep lib specHash s { s with
        reconcile := act (classified lib specHash scan s.namespaces)
        hashed := (generateProtoRoute lib scan.vApp (getActiveNamespaces s.namespaces),
          generateProtoEndpoints scan.vApp scan.activePods) :: s.hashed }
  | deletes {task : SyncTask} {todo : List SyncTask} {err err' : Option String}
      (h : s.reconcile = .deleting (task :: todo) err) (expected : StringSet) :
      ReconcileStep lib specHash s { s with
        podDeletionExpectation := expected
        reconcile := .deleting todo err' }
  | sends {task : SyncTask} {todo : List SyncTask} {err : Option String}
      (h : s.reconcile = .sending (task :: todo) err) :
      ReconcileStep lib specHash s { s with
        grpc := s.grpc.send task.conn task.newSpec none
        reconcile := .expecting task todo }
  | fails {task : SyncTask} {todo : List SyncTask} {err : Option String}
      (h : s.reconcile = .sending (task :: todo) err) (err' : String) :
      ReconcileStep lib specHash s { s with
        grpc := s.grpc.send task.conn task.newSpec (some err')
        reconcile := .sending todo (some err') }
  | expects {task : SyncTask} {todo : List SyncTask} (h : s.reconcile = .expecting task todo) :
      ReconcileStep lib specHash s { s with
        grpc := { s.grpc with podHashExpectation :=
          s.grpc.podHashExpectation.insert task.pod.uid task.newSpec.specMeta.hash }
        reconcile := .sending todo none }

theorem reconcileStep_scanPod {env : Env} {scan : Scan} {pod : Pod} {todo : List Pod}
    (h : s.reconcile = .scanning scan) (htodo : scan.todo = pod :: todo) :
    ReconcileStep lib specHash s { s with reconcile := s.scanPod env scan pod todo } := by
  have hreturns (res : ReconcileResult) :
      ReconcileStep lib specHash s { s with reconcile := .idle res } :=
    .returns res (by rw [h]; rfl)
  unfold scanPod
  split
  · split
    · exact hreturns _
    · exact .skips h htodo
  · split
    · exact hreturns _
    · split
      · exact .loads h htodo ‹_›
      · split
        · exact hreturns _
        · split
          · exact hreturns _
          · exact .ignores h htodo

theorem reconcileStep_of_eq_some {env : Env}
    (h : s.reconcileStep lib specHash env = some s') : ReconcileStep lib specHash s s' := by
  cases hr : s.reconcile with
  | idle res =>
    simp only [reconcileStep, hr, Option.some.injEq] at h
    subst h
    cases env.err with
    | some err => exact .returns _ (by rw [hr]; rfl)
    | none => exact .begins hr
  | scanning scan =>
    cases htodo : scan.todo with
    | cons pod todo =>
      simp only [reconcileStep, hr, htodo, Option.some.injEq] at h
      subst h
      exact reconcileStep_scanPod hr htodo
    | nil =>
      cases herr : env.err with
      | some err =>
        simp only [reconcileStep, hr, htodo, herr, Option.some.injEq] at h
        subst h
        exact .returns _ (by rw [hr]; rfl)
      | none =>
        simp only [reconcileStep, hr, htodo, herr, Option.some.injEq] at h
        subst h
        exact .acts hr
  | loaded scan pod conn =>
    cases hst : s.grpc.streams[conn]? with
    | none => simp [reconcileStep, hr, hst] at h
    | some st =>
      simp only [reconcileStep, hr, hst, Option.some.injEq] at h
      subst h
      split
      · exact .returns _ (by rw [hr]; rfl)
      · exact .reads hr hst
  | checking scan sp =>
    simp only [reconcileStep, hr, Option.some.injEq] at h
    subst h
    split
    · exact .checks hr
    · split
      · exact .meets hr
      · exact .returns _ (by rw [hr]; rfl)
  | satisfied scan sp =>
    simp only [reconcileStep, hr, Option.some.injEq] at h
    subst h
    exact .forgets hr
  | deleting todo err =>
    cases todo with
    | nil =>
      simp only [reconcileStep, hr, Option.some.injEq] at h
      subst h
      exact .returns _ (by rw [hr]; rfl)
    | cons task todo =>
      simp only [reconcileStep, hr, Option.some.injEq] at h
      subst h
      exact .deletes hr _
  | sending todo err =>
    cases todo with
    | nil =>
      simp only [reconcileStep, hr, Option.some.injEq] at h
      subst h
      exact .returns _ (by rw [hr]; rfl)
    | cons task todo =>
      simp only [reconcileStep, hr, Option.some.injEq] at h
      subst h
      cases env.err with
      | none => exact .sends hr
      | some err => exact .fails hr err
  | expecting task todo =>
    simp only [reconcileStep, hr, Option.some.injEq] at h
    subst h
    exact .expects hr

/-- The steps of the server. -/
inductive Step (lib : Lib) (specHash : RouteV1 → List EndpointV1 → String) (s : Server) :
    Event → Server → Prop where
  | apply (vApp : VirtualApp) : Step lib specHash s (.apply vApp) { s with vApp := vApp }
  | setNamespaces (namespaces : List Namespace) :
      Step lib specHash s (.setNamespaces namespaces) { s with namespaces := namespaces }
  | setPods {pods : List Pod} (h : (pods.map (·.uid)).Nodup) :
      Step lib specHash s (.setPods pods) { s with pods := pods }
  | podDeleted (uid : String) :
      Step lib specHash s (.podDeleted uid) { s with
        pods := s.pods.filter (·.uid != uid)
        podDeletionExpectation := s.podDeletionExpectation.erase uid
        grpc := { s.grpc with podHashExpectation := s.grpc.podHashExpectation.erase uid } }
  | grpc {e : GrpcServer.Event} {grpc : GrpcServer} (h : s.grpc.step e = some grpc) :
      Step lib specHash s (.grpc e) { s with grpc := grpc }
  | reconcile {env : Env} {s' : Server} (h : ReconcileStep lib specHash s s') :
      Step lib specHash s (.reconcile env) s'

theorem step_of_eq_some {e : Event} (h : s.step lib specHash e = some s') :
    Step lib specHash s e s' := by
  cases e with
  | apply vApp =>
    simp only [step] at h
    split at h
    · obtain rfl := Option.some.inj h
      exact .apply vApp
    · cases h
  | setNamespaces namespaces =>
    obtain rfl := Option.some.inj h
    exact .setNamespaces namespaces
  | setPods pods =>
    simp only [step] at h
    split at h
    · obtain rfl := Option.some.inj h
      exact .setPods ‹_›
    · cases h
  | podDeleted uid =>
    obtain rfl := Option.some.inj h
    exact .podDeleted uid
  | grpc e =>
    simp only [step] at h
    split at h
    · split at h
      · obtain ⟨grpc, hg, rfl⟩ := Option.map_eq_some_iff.mp h
        exact .grpc hg
      · cases h
    · obtain ⟨grpc, hg, rfl⟩ := Option.map_eq_some_iff.mp h
      exact .grpc hg
  | reconcile env => exact .reconcile (reconcileStep_of_eq_some h)

end Server

/-! ## Connections that are held -/

namespace GrpcServer

variable {g g' : GrpcServer} {uid : String} {conn : Nat}

/-- `conn` was cached for the pod at some time; nothing has been sent on a
connection cached since. -/
structure Holds (g : GrpcServer) (uid : String) (conn : Nat) : Prop where
  own : ∃ st, g.streams[conn]? = some st ∧ st.uid = uid ∧ st.handler.hasStored = true
  cached : ∃ (i : Nat) (st : Stream), g.cachedGrpcSrvConnection[uid]? = some i ∧
    g.streams[i]? = some st ∧ (i = conn ∨ st.sent = [])

theorem Inv.holds (hg : g.Inv) (hc : g.cachedGrpcSrvConnection[uid]? = some conn) :
    g.Holds uid conn := by
  obtain ⟨st, hst, huid, hstored⟩ := hg.cached hc
  exact ⟨⟨st, hst, huid, hstored⟩, conn, st, hc, hst, .inl rfl⟩

theorem Holds.connect (h : g.Holds uid conn) {uid' : String}
    (hstep : g.step (.connect uid') = some g') : g'.Holds uid conn := by
  obtain ⟨-, rfl⟩ := step_connect hstep
  obtain ⟨⟨st, hst, hown⟩, i, t, hc, ht, hi⟩ := h
  exact ⟨⟨st, getElem?_append_stream.mpr (.inl hst), hown⟩,
    i, t, hc, getElem?_append_stream.mpr (.inl ht), hi⟩

/-- A stream before a step, as it is after. -/
theorem stream_after {i : Nat} {e : Stream.Event} (h : g.step (.stream i e) = some g') {j : Nat}
    {t : Stream} (hj : g.streams[j]? = some t) :
    ∃ t', g'.streams[j]? = some t' ∧ t'.uid = t.uid ∧ t'.sent = t.sent ∧
      (t.handler.hasStored = true → t'.handler.hasStored = true) ∧
      (t.Ok → t.conn.disconnected = true → t'.conn.disconnected = true) := by
  obtain ⟨st, st', hst, hstep, rfl⟩ := step_stream h
  rw [streams_effect, getElem?_set_stream hst st']
  by_cases hij : i = j
  · obtain rfl : st = t := Option.some.inj (hst.symm.trans (hij ▸ hj))
    exact ⟨st', if_pos hij, hstep.uid_eq, hstep.sent_eq, hstep.hasStored_mono,
      fun hok => hok.disconnected hstep⟩
  · exact ⟨t, (if_neg hij).trans hj, rfl, rfl, id, fun _ => id⟩

theorem Holds.stream (hg : g.Inv) (h : g.Holds uid conn) {i : Nat} {e : Stream.Event}
    (hstep : g.step (.stream i e) = some g') : g'.Holds uid conn := by
  obtain ⟨⟨st, hst, huid, hstored⟩, k, t, hc, ht, hk⟩ := h
  obtain ⟨st', hst', huid', -, hstored', -⟩ := stream_after hstep hst
  refine ⟨⟨st', hst', huid'.trans huid, hstored' hstored⟩, ?_⟩
  obtain ⟨u, u', hu, hstep', rfl⟩ := step_stream hstep
  by_cases hnew : e = .store ∧ u.uid = uid
  · -- What is stored now has not been sent on.
    obtain ⟨rfl, huuid⟩ := hnew
    refine ⟨i, u', ?_, ?_, .inr ?_⟩
    · rw [cached_effect, if_pos ⟨rfl, huuid⟩]
    · rw [streams_effect, getElem?_set_stream hu u', if_pos rfl]
    · rw [hstep'.sent_eq]
      exact (hg.ok hu).fresh hstep'.hasStored_store.1
  · obtain ⟨t', ht', -, hsent, -⟩ := stream_after hstep ht
    refine ⟨k, t', ?_, ht', hk.imp_right (hsent.trans ·)⟩
    rw [cached_effect, if_neg hnew]
    exact hc

theorem Holds.step (hg : g.Inv) (h : g.Holds uid conn) {e : Event} (hstep : g.step e = some g') :
    g'.Holds uid conn := by
  cases e with
  | connect uid' => exact h.connect hstep
  | stream i e => exact h.stream hg hstep

/-! ## Sending -/

variable {spec : ProxySpecV1} {err : Option String}

theorem getElem?_send (i j : Nat) :
    (g.send i spec err).streams[j]? =
      if i = j then g.streams[j]?.map (·.send spec err) else g.streams[j]? := by
  rw [send, List.getElem?_modify]
  split_ifs <;> simp

/-- What `send` leaves as it was. -/
theorem stream_of_send {i j : Nat} {t : Stream} (hj : (g.send i spec err).streams[j]? = some t) :
    ∃ t₀, g.streams[j]? = some t₀ ∧ t₀.uid = t.uid ∧ t₀.broken = t.broken ∧
      t₀.handler = t.handler ∧ t₀.conn.disconnected = t.conn.disconnected ∧
      (i ≠ j → t₀ = t) := by
  rw [getElem?_send] at hj
  split_ifs at hj with hij
  · obtain ⟨t₀, ht₀, rfl⟩ := Option.map_eq_some_iff.mp hj
    exact ⟨t₀, ht₀, rfl, rfl, rfl, rfl, fun hne => absurd hij hne⟩
  · exact ⟨t, hj, rfl, rfl, rfl, rfl, fun _ => rfl⟩

/-- A stream after `send`. -/
theorem send_of_stream {i j : Nat} {t : Stream} (hj : g.streams[j]? = some t) :
    (g.send i spec err).streams[j]? = some (if i = j then t.send spec err else t) := by
  rw [getElem?_send, hj]
  split_ifs <;> rfl

theorem Inv.send (hg : g.Inv) {i : Nat} {st : Stream} (hst : g.streams[i]? = some st)
    (hstored : st.handler.hasStored = true) : (g.send i spec err).Inv where
  unique hi hj huid hb hb' := by
    obtain ⟨t, ht, hu, hbt, -⟩ := stream_of_send hi
    obtain ⟨t', ht', hu', hbt', -⟩ := stream_of_send hj
    exact hg.unique ht ht' (hu.trans (huid.trans hu'.symm)) (hbt.trans hb) (hbt'.trans hb')
  cached {uid k} hc := by
    obtain ⟨t, ht, huid, hs⟩ := hg.cached hc
    refine ⟨_, send_of_stream ht, ?_⟩
    split_ifs <;> exact ⟨huid, hs⟩
  ok {j t} hj := by
    obtain ⟨t₀, ht₀, -, hb, hh, hd, hsame⟩ := stream_of_send hj
    have hok := hg.ok ht₀
    by_cases hij : i = j
    · refine ⟨fun h => hb ▸ hok.ended (hh ▸ h), fun h => hh ▸ hok.marked (hd ▸ h), fun h => ?_⟩
      obtain rfl : st = t₀ := Option.some.inj (hst.symm.trans (hij ▸ ht₀))
      rw [← hh, hstored] at h
      cases h
    · exact hsame hij ▸ hok

/-- What is held for one pod is not affected by sending to another. -/
theorem Holds.send (hg : g.Inv) (h : g.Holds uid conn) {uid' : String} {i : Nat}
    (hi : g.Holds uid' i) (hne : uid = uid' → conn = i) : (g.send i spec err).Holds uid conn := by
  obtain ⟨⟨st, hst, hown⟩, k, t, hc, ht, hk⟩ := h
  refine ⟨⟨_, send_of_stream hst, ?_⟩, k, _, hc, send_of_stream ht, ?_⟩
  · split_ifs <;> exact hown
  · by_cases hik : i = k
    · -- Then both are for the same pod.
      obtain ⟨t', ht', htuid, -⟩ := hg.cached hc
      obtain ⟨⟨u, hu, huuid, -⟩, -⟩ := hi
      obtain rfl : t' = u := Option.some.inj (ht'.symm.trans (hik ▸ hu))
      exact .inl (hik.symm.trans (hne (htuid.symm.trans huuid)).symm)
    · rw [if_neg hik]
      exact hk

end GrpcServer

/-! ## What Reconcile holds -/

/-- The pod and its connection. -/
def SyncPod.ref (sp : SyncPod) : String × Nat := (sp.pod.uid, sp.conn)

namespace Reconcile

/-- The connections that `Reconcile` holds, with their pods. -/
def refs : Reconcile → List (String × Nat)
  | idle _ => []
  | scanning scan => scan.syncPods.map (·.ref)
  | loaded scan pod conn => (pod.uid, conn) :: scan.syncPods.map (·.ref)
  | checking scan sp => sp.ref :: scan.syncPods.map (·.ref)
  | satisfied scan sp => sp.ref :: scan.syncPods.map (·.ref)
  | deleting _ _ => []
  | sending todo _ => todo.map (·.ref)
  | expecting task todo => task.ref :: todo.map (·.ref)

/-- The pods that its loop has not come to. -/
def waiting : Reconcile → List String
  | scanning scan => scan.todo.map (·.uid)
  | loaded scan _ _ => scan.todo.map (·.uid)
  | checking scan _ => scan.todo.map (·.uid)
  | satisfied scan _ => scan.todo.map (·.uid)
  | _ => []

end Reconcile

namespace Server

variable {lib : Lib} {specHash : RouteV1 → List EndpointV1 → String} {s s' : Server}

theorem map_ref_tasksFor (action : Action) (scan : Scan) (namespaces : List Namespace) :
    ((tasksFor action (classified lib specHash scan namespaces)).map (·.ref)).Sublist
      (scan.syncPods.map (·.ref)) := by
  have h : (classified lib specHash scan namespaces).map (fun t => t.2.ref) =
      scan.syncPods.map (·.ref) := by
    rw [classified, List.map_map]
    rfl
  rw [← h, tasksFor, List.map_map]
  exact List.filter_sublist.map _

theorem refs_act (lib : Lib) (specHash : RouteV1 → List EndpointV1 → String) (scan : Scan)
    (namespaces : List Namespace) :
    (act (classified lib specHash scan namespaces)).refs.Sublist (scan.syncPods.map (·.ref)) := by
  unfold act
  split_ifs
  · exact List.nil_sublist _
  · exact List.nil_sublist _
  · exact map_ref_tasksFor _ scan namespaces
  · exact map_ref_tasksFor _ scan namespaces

theorem waiting_act (tasks : List (Action × SyncTask)) : (act tasks).waiting = [] := by
  unfold act
  split_ifs <;> rfl

theorem isExpecting_act (tasks : List (Action × SyncTask)) : (act tasks).isExpecting = false := by
  unfold act
  split_ifs <;> rfl

/-! ## What holds in every run -/

structure Inv (s : Server) : Prop where
  grpc : s.grpc.Inv
  pods : (s.pods.map (·.uid)).Nodup
  held : ∀ r ∈ s.reconcile.refs, s.grpc.Holds r.1 r.2
  /-- No pod is held twice. -/
  distinct : (s.reconcile.refs.map (·.1) ++ s.reconcile.waiting).Nodup
  /-- What is to be expected has been sent. -/
  sent {task : SyncTask} {todo : List SyncTask} (h : s.reconcile = .expecting task todo) :
    ∃ st, s.grpc.streams[task.conn]? = some st ∧ task.newSpec ∈ st.sent

theorem inv_start (vApp : VirtualApp) : Inv (start vApp) where
  grpc := GrpcServer.inv_start
  pods := List.nodup_nil
  held _ h := by cases h
  distinct := List.nodup_nil
  sent h := by cases h

/-- The invariant reads the streams, the cached connections, the pods and where
`Reconcile` is. -/
theorem Inv.of_eq (hs : s.Inv) (hstreams : s'.grpc.streams = s.grpc.streams)
    (hcached : s'.grpc.cachedGrpcSrvConnection = s.grpc.cachedGrpcSrvConnection)
    (hpods : s'.pods = s.pods)
    (hrefs : ∀ r ∈ s'.reconcile.refs, s.grpc.Holds r.1 r.2)
    (hdistinct : (s'.reconcile.refs.map (·.1) ++ s'.reconcile.waiting).Nodup)
    (hexp : s'.reconcile.isExpecting = false) : s'.Inv where
  grpc :=
    { unique := by rw [hstreams]; exact hs.grpc.unique
      cached := by rw [hstreams, hcached]; exact hs.grpc.cached
      ok := by rw [hstreams]; exact hs.grpc.ok }
  pods := hpods ▸ hs.pods
  held r h :=
    { own := by rw [hstreams]; exact (hrefs r h).own
      cached := by rw [hstreams, hcached]; exact (hrefs r h).cached }
  distinct := hdistinct
  sent h := by rw [h] at hexp; cases hexp

theorem nodup_getPodsForVApp {pods : List Pod} (h : (pods.map (·.uid)).Nodup) :
    ((getPodsForVApp pods).map (·.uid)).Nodup :=
  ((List.perm_insertionSort _ pods).map _).nodup_iff.mpr h

/-- The pod that has been checked is held like those before it. -/
theorem distinct_sync {scan : Scan} {sp : SyncPod} {uids : List String} :
    (((scan.sync sp).syncPods.map (·.ref)).map (·.1) ++ uids).Nodup ↔
      ((sp.ref :: scan.syncPods.map (·.ref)).map (·.1) ++ uids).Nodup := by
  rw [Scan.sync, List.map_append, List.map_append, List.append_assoc]
  exact List.nodup_middle

theorem held_sync {g : GrpcServer} {scan : Scan} {sp : SyncPod}
    (h : ∀ r ∈ sp.ref :: scan.syncPods.map (·.ref), g.Holds r.1 r.2) :
    ∀ r ∈ (scan.sync sp).syncPods.map (·.ref), g.Holds r.1 r.2 := by
  intro r hr
  rw [Scan.sync, List.map_append, List.mem_append, or_comm] at hr
  exact h r (by simpa using hr)

/-- `send` on the connection of the first task keeps what is held for the
others. -/
theorem Inv.held_send (hs : s.Inv) {task : SyncTask} {todo : List SyncTask} {err : Option String}
    (hr : s.reconcile = .sending (task :: todo) err) (err' : Option String) :
    (s.grpc.send task.conn task.newSpec err').Inv ∧
      ∀ r ∈ task.ref :: todo.map (·.ref),
        (s.grpc.send task.conn task.newSpec err').Holds r.1 r.2 := by
  have hheld := hs.held
  have hdistinct := hs.distinct
  rw [hr] at hheld hdistinct
  simp only [Reconcile.waiting, List.append_nil] at hdistinct
  have htask := hheld task.ref List.mem_cons_self
  obtain ⟨st, hst, -, hstored⟩ := htask.own
  refine ⟨hs.grpc.send hst hstored, fun r hmem => (hheld r hmem).send hs.grpc htask fun huid => ?_⟩
  exact congrArg Prod.snd (List.inj_on_of_nodup_map hdistinct hmem List.mem_cons_self huid)

theorem Inv.reconcile (hs : s.Inv) (h : ReconcileStep lib specHash s s') : s'.Inv := by
  have hheld := hs.held
  have hdistinct := hs.distinct
  cases h with
  | returns res =>
    exact hs.of_eq rfl rfl rfl (fun _ h => absurd h List.not_mem_nil) List.nodup_nil rfl
  | begins =>
    exact hs.of_eq rfl rfl rfl (fun _ h => absurd h List.not_mem_nil)
      (nodup_getPodsForVApp hs.pods) rfl
  | skips hr htodo =>
    rw [hr] at hheld hdistinct
    simp only [Reconcile.waiting, htodo, List.map_cons] at hdistinct
    exact hs.of_eq rfl rfl rfl hheld (List.nodup_middle.mp hdistinct).of_cons rfl
  | ignores hr htodo =>
    rw [hr] at hheld hdistinct
    simp only [Reconcile.waiting, htodo, List.map_cons] at hdistinct
    exact hs.of_eq rfl rfl rfl hheld (List.nodup_middle.mp hdistinct).of_cons rfl
  | loads hr htodo hconn =>
    rw [hr] at hheld hdistinct
    simp only [Reconcile.waiting, htodo, List.map_cons] at hdistinct
    refine hs.of_eq rfl rfl rfl (List.forall_mem_cons.mpr ⟨hs.grpc.holds hconn, hheld⟩) ?_ rfl
    exact List.nodup_middle.mp hdistinct
  | reads hr =>
    rw [hr] at hheld hdistinct
    exact hs.of_eq rfl rfl rfl hheld hdistinct rfl
  | checks hr =>
    rw [hr] at hheld hdistinct
    exact hs.of_eq rfl rfl rfl (held_sync hheld) (distinct_sync.mpr hdistinct) rfl
  | meets hr =>
    rw [hr] at hheld hdistinct
    exact hs.of_eq rfl rfl rfl hheld hdistinct rfl
  | forgets hr =>
    rw [hr] at hheld hdistinct
    exact hs.of_eq rfl rfl rfl (held_sync hheld) (distinct_sync.mpr hdistinct) rfl
  | @acts scan hr =>
    rw [hr] at hheld hdistinct
    have hsub := refs_act lib specHash scan s.namespaces
    refine hs.of_eq rfl rfl rfl (fun r h => hheld r (hsub.subset h)) ?_ (isExpecting_act _)
    rw [waiting_act, List.append_nil]
    exact hdistinct.of_append_left.sublist (hsub.map _)
  | deletes =>
    exact hs.of_eq rfl rfl rfl (fun _ h => absurd h List.not_mem_nil) List.nodup_nil rfl
  | @sends task todo err hr =>
    obtain ⟨hgrpc, hheld'⟩ := hs.held_send hr none
    rw [hr] at hheld hdistinct
    refine ⟨hgrpc, hs.pods, hheld', hdistinct, fun h => ?_⟩
    obtain ⟨rfl, rfl⟩ := Reconcile.expecting.inj h
    obtain ⟨st, hst, -⟩ := (hheld task.ref List.mem_cons_self).own
    refine ⟨_, GrpcServer.send_of_stream hst, ?_⟩
    rw [if_pos rfl]
    exact List.mem_append_right _ List.mem_cons_self
  | fails hr err' =>
    obtain ⟨hgrpc, hheld'⟩ := hs.held_send hr (some err')
    rw [hr] at hdistinct
    exact ⟨hgrpc, hs.pods, fun r h => hheld' r (List.mem_cons_of_mem _ h),
      (List.nodup_cons.mp hdistinct).2, nofun⟩
  | expects hr =>
    rw [hr] at hheld hdistinct
    exact hs.of_eq rfl rfl rfl (fun r h => hheld r (List.mem_cons_of_mem _ h))
      (List.nodup_cons.mp hdistinct).2 rfl

/-- What the handlers do keeps what is held. -/
theorem Inv.grpcStep (hs : s.Inv) {e : GrpcServer.Event} {grpc : GrpcServer}
    (h : s.grpc.step e = some grpc) : ({ s with grpc := grpc } : Server).Inv := by
  refine ⟨hs.grpc.step h, hs.pods, fun r hr => (hs.held r hr).step hs.grpc h, hs.distinct,
    fun hexp => ?_⟩
  obtain ⟨st, hst, hsent⟩ := hs.sent hexp
  cases e with
  | connect uid =>
    obtain ⟨-, rfl⟩ := GrpcServer.step_connect h
    exact ⟨st, getElem?_append_stream.mpr (.inl hst), hsent⟩
  | stream i e =>
    obtain ⟨st', hst', -, hsent', -⟩ := GrpcServer.stream_after h hst
    exact ⟨st', hst', hsent' ▸ hsent⟩

theorem Inv.step (hs : s.Inv) {e : Event} (h : s.step lib specHash e = some s') : s'.Inv := by
  cases step_of_eq_some h with
  | apply => exact ⟨hs.grpc, hs.pods, hs.held, hs.distinct, hs.sent⟩
  | setNamespaces => exact ⟨hs.grpc, hs.pods, hs.held, hs.distinct, hs.sent⟩
  | setPods hpods => exact ⟨hs.grpc, hpods, hs.held, hs.distinct, hs.sent⟩
  | podDeleted =>
    exact ⟨⟨hs.grpc.unique, hs.grpc.cached, hs.grpc.ok⟩, hs.pods.sublist (List.filter_sublist.map _),
      fun r hr => ⟨(hs.held r hr).own, (hs.held r hr).cached⟩, hs.distinct, hs.sent⟩
  | grpc hg => exact hs.grpcStep hg
  | reconcile hr => exact hs.reconcile hr

end Server

end CtrlMesh
