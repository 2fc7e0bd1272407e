import ControllerMesh.Impl.ManagerState

/-!
# Where proxies look for the leader

`leaderAddr_of_run`: whatever the managers do at the same time and however old their
caches are, a status that has ever been stored is empty or was compiled and then sent by one
call, with the manager of this call as its only leader. A proxy that reads it, now or later,
connects to that manager's pod.
-/

namespace CtrlMesh

open Framework

namespace Manager

variable {m : Manager} {pods : List Pod}

theorem mem_endpoints {e : ManagerStateEndpoint} : e ∈ m.endpoints pods ↔
    ∃ pod ∈ pods, pod.isActive = true ∧ e = ⟨pod.name, pod.podIP, pod.name == m.localName⟩ := by
  simp only [endpoints, List.mem_insertionSort, List.mem_map, List.mem_filter, and_assoc, eq_comm]

theorem endpoints_ne_nil (h : m.hasLeader pods = true) : m.endpoints pods ≠ [] := by
  rw [hasLeader, List.any_eq_true] at h
  obtain ⟨pod, hpod, h⟩ := h
  rw [Bool.and_eq_true] at h
  exact List.ne_nil_of_mem (mem_endpoints.mpr ⟨pod, hpod, h.1, rfl⟩)

/-- What is read back is what was sent, so the next call finds nothing to do. -/
theorem readBack_newStatus (h : m.hasLeader pods = true) :
    (m.newStatus pods).readBack = m.newStatus pods := by
  rw [ManagerStateStatus.readBack, newStatus, if_neg]
  simpa using endpoints_ne_nil h

/-- Pods have different names, so the manager is the only leader. -/
theorem countP_leader (h : m.hasLeader pods = true) (hnames : (pods.map (·.name)).Nodup) :
    (m.endpoints pods).countP (·.leader) = 1 := by
  rw [hasLeader, List.any_eq_true] at h
  obtain ⟨pod, hpod, h⟩ := h
  rw [Bool.and_eq_true] at h
  have hpos : 0 < (m.endpoints pods).countP (·.leader) :=
    List.countP_pos_iff.mpr ⟨_, mem_endpoints.mpr ⟨pod, hpod, h.1, rfl⟩, h.2⟩
  have hle : (m.endpoints pods).countP (·.leader) ≤ (pods.map (·.name)).count m.localName := by
    rw [endpoints, (List.perm_insertionSort _ _).countP_eq, List.countP_map, List.count,
      List.countP_map]
    exact (List.filter_sublist).countP_le
  have hone := List.nodup_iff_count_le_one.mp hnames m.localName
  omega

theorem leaderAddr_newStatus {addr : String} (h : (m.newStatus pods).leaderAddr = some addr) :
    ∃ pod ∈ pods, pod.isActive = true ∧ pod.name = m.localName ∧
      addr = pod.podIP ++ ":" ++ toString m.ports.grpcLeaderElectionPort := by
  simp only [ManagerStateStatus.leaderAddr, newStatus, Option.getD_some] at h
  split at h
  · simp at h
  split at h
  · simp at h
  next leader hfind =>
  obtain ⟨pod, hpod, hactive, rfl⟩ := mem_endpoints.mp (List.mem_of_find?_eq_some hfind)
  have hname := List.find?_some hfind
  dsimp only at hname h
  exact ⟨pod, hpod, hactive, beq_iff_eq.mp hname, (Option.some.inj h).symm⟩

end Manager

namespace ManagerStates

variable {s s' : ManagerStates} {e : Event} {es : List Event}

/-- The call `i`, of the manager `m`, has compiled the status from the pods of its cache. -/
def Compiled (es : List Event) (i : Nat) (m : Manager) (status : ManagerStateStatus) : Prop :=
  ∃ pods, .request i (.pods pods) ∈ es ∧
    m.hasLeader (pods.filter (m.podSelector ·.labels)) = true ∧
    status = m.newStatus (pods.filter (m.podSelector ·.labels))

/-- A call is going to send only what it has compiled. -/
def CallInv (es : List Event) (i : Nat) (m : Manager) : ManagerReconcile → Prop
  | .getting status => Compiled es i m status
  | .creating status => Compiled es i m status
  | .updating _ status => Compiled es i m status
  | _ => True

def CallsInv (es : List Event) (s : ManagerStates) : Prop :=
  ∀ i call, s.calls[i]? = some call → CallInv es i call.manager call.pc

/-- What a request of the call `i` may store: an empty status, or what the call has compiled. -/
def Adds (es : List Event) (i : Nat) (m : Manager) (answer : ManagerAnswer)
    (o : Versioned ManagerStateStatus) : Prop :=
  o.value = {} ∨ ∃ failure, answer = .sent failure o.version ∧ Compiled es i m o.value

/-- The event stores the object. -/
def Stores (s : ManagerStates) (e : Event) (o : Versioned ManagerStateStatus) : Prop :=
  o ∉ s.store.history ∧ ∃ s', step s e = some s' ∧ o ∈ s'.store.history

theorem Compiled.append {i : Nat} {m : Manager} {status : ManagerStateStatus}
    (h : Compiled es i m status) (fs : List Event) : Compiled (es ++ fs) i m status := by
  obtain ⟨pods, hmem, h⟩ := h
  exact ⟨pods, List.mem_append_left _ hmem, h⟩

theorem CallInv.append {i : Nat} {m : Manager} {pc : ManagerReconcile} (h : CallInv es i m pc)
    (fs : List Event) : CallInv (es ++ fs) i m pc := by
  cases pc with
  | getting status => exact Compiled.append h fs
  | creating status => exact Compiled.append h fs
  | updating resourceVersion status => exact Compiled.append h fs
  | listing => trivial
  | returned err => trivial

section requests

variable {store store' : ObjectStore ManagerStateStatus} {answer : ManagerAnswer}

theorem request_compiled {m : Manager} {pc pc' : ManagerReconcile} {i : Nat}
    (hpc : CallInv es i m pc) (hr : request store m answer pc = some (pc', store')) :
    CallInv (es ++ [.request i answer]) i m pc' ∧
      ∀ o ∈ store'.history, Adds es i m answer o ∨ o ∈ store.history := by
  have hkept : ∀ o ∈ store.history, Adds es i m answer o ∨ o ∈ store.history := fun _ ho => .inr ho
  unfold request at hr
  cases pc with
  | listing =>
    dsimp only at hr
    split at hr
    · next pods =>
      split at hr
      · next hleader =>
        simp only [Option.some.injEq, Prod.mk.injEq] at hr
        obtain ⟨rfl, rfl⟩ := hr
        exact ⟨⟨pods, List.mem_append_right _ List.mem_cons_self, hleader, rfl⟩, hkept⟩
      · simp only [Option.some.injEq, Prod.mk.injEq] at hr
        obtain ⟨rfl, rfl⟩ := hr
        exact ⟨trivial, hkept⟩
    · simp only [Option.some.injEq, Prod.mk.injEq] at hr
      obtain ⟨rfl, rfl⟩ := hr
      exact ⟨trivial, hkept⟩
    · simp at hr
  | getting status =>
    have hcompiled : Compiled (es ++ [.request i answer]) i m status := Compiled.append hpc _
    dsimp only at hr
    repeat' split at hr
    all_goals simp only [Option.some.injEq, Prod.mk.injEq, reduceCtorEq] at hr
    all_goals obtain ⟨rfl, rfl⟩ := hr
    all_goals first | exact ⟨hcompiled, hkept⟩ | exact ⟨trivial, hkept⟩
  | creating status =>
    have hcreate {failure version err store₁} : store.send failure (store.create ⟨{}, version⟩) =
        (err, store₁) → ∀ o ∈ store₁.history, Adds es i m answer o ∨ o ∈ store.history := by
      intro hsend o ho
      refine (ObjectStore.mem_history_of_send (fun hok => (ObjectStore.create_eq_ok hok).2)
        hsend ho).imp_left ?_
      rintro rfl
      exact .inl rfl
    dsimp only at hr
    repeat' split at hr
    all_goals simp only [Option.some.injEq, Prod.mk.injEq, reduceCtorEq] at hr
    all_goals obtain ⟨rfl, rfl⟩ := hr
    all_goals exact ⟨trivial, hcreate (by assumption)⟩
  | updating resourceVersion status =>
    have hstatus : Compiled es i m status.readBack := by
      obtain ⟨pods, hmem, hleader, rfl⟩ := hpc
      exact ⟨pods, hmem, hleader, Manager.readBack_newStatus hleader⟩
    dsimp only at hr
    split at hr
    swap
    · simp at hr
    next failure version =>
    have hupdate {err store₁} :
        store.send failure (store.update resourceVersion ⟨status.readBack, version⟩) =
          (err, store₁) →
        ∀ o ∈ store₁.history, Adds es i m (.sent failure version) o ∨ o ∈ store.history := by
      intro hsend o ho
      refine (ObjectStore.mem_history_of_send (fun hok => ObjectStore.eq_put_of_update hok)
        hsend ho).imp_left ?_
      rintro rfl
      exact .inr ⟨failure, rfl, hstatus⟩
    repeat' split at hr
    all_goals simp only [Option.some.injEq, Prod.mk.injEq, reduceCtorEq] at hr
    all_goals obtain ⟨rfl, rfl⟩ := hr
    all_goals exact ⟨trivial, hupdate (by assumption)⟩
  | returned err => simp at hr

end requests

theorem step_request {i : Nat} {answer : ManagerAnswer} (hs : step s (.request i answer) = some s') :
    ∃ call pc store', s.calls[i]? = some call ∧
      request s.store call.manager answer call.pc = some (pc, store') ∧
      s' = ⟨store', s.calls.set i { call with pc }⟩ := by
  rw [step] at hs
  split at hs
  · simp at hs
  next call hcall =>
  obtain ⟨⟨pc, store'⟩, hr, rfl⟩ := Option.map_eq_some_iff.mp hs
  exact ⟨call, pc, store', hcall, hr, rfl⟩

theorem CallsInv.step (h : CallsInv es s) (hs : step s e = some s') : CallsInv (es ++ [e]) s' := by
  intro j c hc
  cases e with
  | reconcile manager =>
    obtain rfl := Option.some.inj hs
    rw [List.getElem?_append] at hc
    split at hc
    · exact (h j c hc).append _
    · obtain rfl := List.mem_singleton.mp (List.mem_of_getElem? hc)
      trivial
  | request i answer =>
    obtain ⟨call, pc, store', hcall, hr, rfl⟩ := step_request hs
    rw [List.getElem?_set] at hc
    split at hc
    · next hij =>
      split at hc
      · obtain rfl := Option.some.inj hc
        exact hij ▸ (request_compiled (h i call hcall) hr).1
      · simp at hc
    · exact (h j c hc).append _

/-- An object with a status is stored by a call that has compiled the status. -/
theorem CallsInv.compiled_of_stores {o : Versioned ManagerStateStatus} (h : CallsInv es s)
    (hstores : Stores s e o) (ho : o.value ≠ {}) : ∃ i failure call,
      e = .request i (.sent failure o.version) ∧ s.calls[i]? = some call ∧
      Compiled es i call.manager o.value := by
  obtain ⟨hnew, s', hs, hmem⟩ := hstores
  cases e with
  | reconcile manager =>
    obtain rfl := Option.some.inj hs
    exact absurd hmem hnew
  | request i answer =>
    obtain ⟨call, pc, store', hcall, hr, rfl⟩ := step_request hs
    obtain hadds | hold := (request_compiled (h i call hcall) hr).2 o hmem
    · obtain ⟨failure, rfl, hcompiled⟩ := hadds.resolve_left ho
      exact ⟨i, failure, call, rfl, hcall, hcompiled⟩
    · exact absurd hold hnew

/-- In every run of any number of managers that begins without the object, and in which pods have
different names: what a proxy finds in any version of it, also in an old one, is the address of
the pod of a manager, which the call that stored the version had found before, active and
selected; the version has that manager as its only leader, and a call of the manager that finds
the same pods and this version changes nothing. -/
theorem leaderAddr_of_run {o : Versioned ManagerStateStatus} {addr : String}
    (hpods : ∀ i pods, Event.request i (.pods pods) ∈ es → (pods.map (·.name)).Nodup)
    (hrun : (system none).run es = some s) (ho : o ∈ s.store.history)
    (haddr : o.value.leaderAddr = some addr) :
    ∃ es₁ es₂ s₁ i failure call pods pod,
      es = es₁ ++ .request i (.sent failure o.version) :: es₂ ∧
      (system none).run es₁ = some s₁ ∧ s₁.calls[i]? = some call ∧
      Stores s₁ (.request i (.sent failure o.version)) o ∧
      .request i (.pods pods) ∈ es₁ ∧ pod ∈ pods ∧
      call.manager.podSelector pod.labels = true ∧ pod.isActive = true ∧
      pod.name = call.manager.localName ∧
      addr = pod.podIP ++ ":" ++ toString call.manager.ports.grpcLeaderElectionPort ∧
      (o.value.endpoints.getD []).countP (·.leader) = 1 ∧
      ∃ status, request s.store call.manager (.pods pods) .listing =
          some (.getting status, s.store) ∧
        request s.store call.manager (.cached (some o)) (.getting status) =
          some (.returned none, s.store) := by
  obtain ⟨es₁, e, es₂, s₁, s₂, rfl, hrun₁, hs, hnew, hmem⟩ := (system none).runFrom_becomes hrun
    (P := fun s => o ∈ s.store.history) (by simp [system, ObjectStore.start]) ho
  have hinit : CallsInv [] (system none).init := by simp [CallsInv, system]
  have hinv : CallsInv es₁ s₁ :=
    (system none).runFrom_history (I := CallsInv) (fun h hs => h.step hs) hinit hrun₁
  have hne : o.value ≠ {} := by
    intro hempty
    rw [hempty] at haddr
    simp [ManagerStateStatus.leaderAddr] at haddr
  have hstores : Stores s₁ e o := ⟨hnew, s₂, hs, hmem⟩
  obtain ⟨i, failure, call, rfl, hcall, pods, hi, hleader, hvalue⟩ :=
    hinv.compiled_of_stores hstores hne
  obtain ⟨pod, hpod, hactive, hname, rfl⟩ := Manager.leaderAddr_newStatus (hvalue ▸ haddr)
  obtain ⟨hpod, hselected⟩ := List.mem_filter.mp hpod
  have hnames : ((pods.filter (call.manager.podSelector ·.labels)).map (·.name)).Nodup :=
    ((List.filter_sublist).map _).nodup (hpods i pods (List.mem_append_left _ hi))
  refine ⟨es₁, es₂, s₁, i, failure, call, pods, pod, rfl, hrun₁, hcall, hstores, hi, hpod,
    hselected, hactive, hname, rfl, ?_, o.value, ?_, ?_⟩
  · rw [hvalue]
    exact Manager.countP_leader hleader hnames
  · rw [request, if_pos hleader, hvalue]
  · rw [request, if_pos ho, if_pos rfl]

def sampleManager : Manager := ⟨"m-0", "mesh", fun _ => true, ⟨8071, 8072⟩⟩

def sampleManagerPods : List Pod :=
  [⟨"u1", "m-1", ∅, false, .running, "10.0.0.2", true, []⟩,
    ⟨"u0", "m-0", ∅, false, .running, "10.0.0.1", true, []⟩]

/-- A call that creates the object, and one that fills in its status. -/
def sampleReconciles : List Event :=
  [.reconcile sampleManager, .request 0 (.pods sampleManagerPods), .request 0 (.cached none),
    .request 0 (.sent none "1"), .reconcile sampleManager, .request 1 (.pods sampleManagerPods),
    .request 1 (.cached (some ⟨{}, "1"⟩)), .request 1 (.sent none "2")]

theorem sampleReconciles_leader : ∃ s o, (system none).run sampleReconciles = some s ∧
    s.store.object = some o ∧ o.value.leaderAddr = some "10.0.0.1:8071" ∧
    (o.value.endpoints.getD []).countP (·.leader) = 1 := by
  have hrun : ((system none).run sampleReconciles).map (·.store) = some
      ((ObjectStore.start none).put ⟨{}, "1"⟩ |>.put ⟨sampleManager.newStatus sampleManagerPods, "2"⟩) := by
    decide +kernel
  obtain ⟨s, hs, hstore⟩ := Option.map_eq_some_iff.mp hrun
  have hpods : ∀ i pods, Event.request i (.pods pods) ∈ sampleReconciles →
      (pods.map (·.name)).Nodup := by
    intro i pods hi
    simp only [sampleReconciles, List.mem_cons, Event.request.injEq, ManagerAnswer.pods.injEq,
      reduceCtorEq, and_false, false_or, or_false, List.not_mem_nil] at hi
    obtain ⟨-, rfl⟩ | ⟨-, rfl⟩ := hi <;> decide +kernel
  have haddr : (sampleManager.newStatus sampleManagerPods).leaderAddr = some "10.0.0.1:8071" := by
    decide +kernel
  refine ⟨s, ⟨sampleManager.newStatus sampleManagerPods, "2"⟩, hs, by rw [hstore]; rfl, haddr, ?_⟩
  obtain ⟨-, -, -, -, -, -, -, -, -, -, -, -, -, -, -, -, -, -, hone, -⟩ := leaderAddr_of_run hpods hs
    (o := ⟨sampleManager.newStatus sampleManagerPods, "2"⟩) (by rw [hstore]; simp [ObjectStore.put])
    haddr
  exact hone

end ManagerStates

end CtrlMesh
