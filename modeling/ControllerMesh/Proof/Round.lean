import ControllerMesh.Framework.Replace
import ControllerMesh.Proof.Phases
import ControllerMesh.Proof.Reconcile

/-!
# A round of operations

What a call of `Reconcile` leaves and returns once it has begun to delete pods or to
send specs. Every operation is attempted; one variable holds the error of the last
one, and each that succeeds stores an expectation (`Attempt.store`). So a failure
that a later success follows is not returned (`round_reportsFailures_iff`).

What a call computes does not depend on the order in which the pods and the namespaces
are listed (`call_relisted`).
-/

namespace CtrlMesh

open Framework

/-- `podDeletionExpectation` and `podHashExpectation`. -/
structure Expectations where
  podDeletion : StringSet
  podHash : StringMap String

def Server.expectations (s : Server) : Expectations :=
  ⟨s.podDeletionExpectation, s.grpc.podHashExpectation⟩

/-- An attempt that succeeds stores an expectation. -/
def Attempt.store (e : Expectations) (a : Attempt) : Expectations :=
  if a.err.isSome then e
  else
    match a.operation with
    | .delete task => { e with podDeletion := e.podDeletion.insert task.pod.uid }
    | .send task => { e with podHash := e.podHash.insert task.pod.uid task.newSpec.specMeta.hash }

/-- The operations that `Reconcile` has still to attempt. -/
def Reconcile.operations : Reconcile → List Operation
  | deleting todo _ => todo.map .delete
  | sending todo _ | expecting _ todo => todo.map .send
  | _ => []

/-! ## The expectations stored -/

/-- What is expected after the attempts is what was before, and that of the pods whose operation
succeeded. -/
structure Expectations.StoredFor (before : Expectations) (attempts : List Attempt)
    (after : Expectations) : Prop where
  podDeletion (uid : String) : uid ∈ after.podDeletion ↔
    uid ∈ before.podDeletion ∨ ∃ task, ⟨.delete task, none⟩ ∈ attempts ∧ task.pod.uid = uid
  podHash_sent (uid : String) (h : ∃ task, ⟨.send task, none⟩ ∈ attempts ∧ task.pod.uid = uid) :
    ∃ task, ⟨.send task, none⟩ ∈ attempts ∧ task.pod.uid = uid ∧
      after.podHash[uid]? = some task.newSpec.specMeta.hash
  podHash_kept (uid : String) (h : ∀ task, ⟨.send task, none⟩ ∈ attempts → task.pod.uid ≠ uid) :
    after.podHash[uid]? = before.podHash[uid]?

namespace Attempt

@[simp] theorem store_delete (e : Expectations) (task : SyncTask) :
    store e ⟨.delete task, none⟩ =
      { e with podDeletion := e.podDeletion.insert task.pod.uid } := rfl

@[simp] theorem store_send (e : Expectations) (task : SyncTask) :
    store e ⟨.send task, none⟩ =
      { e with podHash := e.podHash.insert task.pod.uid task.newSpec.specMeta.hash } := rfl

@[simp] theorem store_failed (e : Expectations) (op : Operation) (err : String) :
    store e ⟨op, some err⟩ = e := rfl

theorem mem_store_iff (uid : String) (e : Expectations) (a : Attempt) :
    uid ∈ (store e a).podDeletion ↔
      uid ∈ e.podDeletion ∨ ∃ task, a = ⟨.delete task, none⟩ ∧ task.pod.uid = uid := by
  obtain ⟨op, err⟩ := a
  cases err with
  | some err => simp
  | none =>
    cases op with
    | delete task =>
      rw [store_delete, StringSet.mem_insert_iff, or_comm]
      simp [eq_comm]
    | send task => simp

theorem podHash_foldl_store (uid : String) (attempts : List Attempt) (e : Expectations) :
    (∃ task, ⟨.send task, none⟩ ∈ attempts ∧ task.pod.uid = uid ∧
        (attempts.foldl store e).podHash[uid]? = some task.newSpec.specMeta.hash) ∨
      (∀ task, ⟨.send task, none⟩ ∈ attempts → task.pod.uid ≠ uid) ∧
        (attempts.foldl store e).podHash[uid]? = e.podHash[uid]? := by
  induction attempts generalizing e with
  | nil => simp
  | cons a attempts ih =>
    rw [List.foldl_cons]
    rcases ih (store e a) with ⟨task, htask, huid, hhash⟩ | ⟨hnone, hkept⟩
    · exact .inl ⟨task, List.mem_cons_of_mem a htask, huid, hhash⟩
    · -- no later attempt counts for the pod, so it is what this one leaves
      rw [hkept]
      by_cases ha : ∃ task, a = ⟨.send task, none⟩ ∧ task.pod.uid = uid
      · obtain ⟨task, rfl, rfl⟩ := ha
        exact .inl ⟨task, List.mem_cons_self, rfl, by simp⟩
      · refine .inr ⟨?_, ?_⟩
        · intro task htask huid
          rcases List.mem_cons.mp htask with heq | htask
          · exact ha ⟨task, heq.symm, huid⟩
          · exact hnone task htask huid
        · obtain ⟨op, err⟩ := a
          cases err with
          | some err => rfl
          | none =>
            cases op with
            | delete task => rfl
            | send task =>
              have hne : task.pod.uid ≠ uid := fun huid => ha ⟨task, rfl, huid⟩
              simp [Std.ExtTreeMap.getElem?_insert, hne]

theorem storedFor_foldl_store (attempts : List Attempt) (e : Expectations) :
    e.StoredFor attempts (attempts.foldl store e) where
  podDeletion uid := by
    rw [foldl_gains (P := fun e : Expectations => uid ∈ e.podDeletion) (mem_store_iff uid)]
    refine or_congr_right ⟨?_, ?_⟩
    · rintro ⟨_, ha, task, rfl, huid⟩
      exact ⟨task, ha, huid⟩
    · rintro ⟨task, ha, huid⟩
      exact ⟨_, ha, task, rfl, huid⟩
  podHash_sent uid h := by
    rcases podHash_foldl_store uid attempts e with hsent | ⟨hnone, -⟩
    · exact hsent
    · obtain ⟨task, htask, huid⟩ := h
      exact absurd huid (hnone task htask)
  podHash_kept uid h := by
    rcases podHash_foldl_store uid attempts e with ⟨task, htask, huid, -⟩ | ⟨-, hkept⟩
    · exact absurd huid (h task htask)
    · exact hkept

end Attempt

/-! ## The loops -/

namespace Server

section

variable {lib : Lib} {specHash : RouteV1 → List EndpointV1 → String} {s s' : Server}
  {err : Option String} {tasks : List SyncTask} {envs : List Env}

/-- The call has attempted the operations, one after the other, and returned. -/
structure Completes (s : Server) (err : Option String) (ops : List Operation)
    (attempts : List Attempt) (t : Server) : Prop where
  operations : attempts.map (·.operation) = ops
  reconcile : t.reconcile = .idle ⟨0, attempts.foldl (fun _ a => a.err) err⟩
  expectations : t.expectations = attempts.foldl Attempt.store s.expectations

theorem Completes.cons {op : Operation} {err' : Option String} {ops : List Operation}
    {attempts : List Attempt} {t : Server} (h : Completes s' err' ops attempts t)
    (hstore : s'.expectations = Attempt.store s.expectations ⟨op, err'⟩) :
    Completes s err (op :: ops) (⟨op, err'⟩ :: attempts) t :=
  ⟨by rw [List.map_cons, h.operations], h.reconcile, by rw [h.expectations, hstore]; rfl⟩

theorem step_delete {task : SyncTask} (h : s.reconcile = .deleting (task :: tasks) err) (env : Env) :
    ∃ s', s.reconcileStep lib specHash env = some s' ∧ s'.reconcile = .deleting tasks env.err ∧
      s'.expectations = Attempt.store s.expectations ⟨.delete task, env.err⟩ := by
  cases herr : env.err with
  | none =>
    exact ⟨{ s with
      podDeletionExpectation := s.podDeletionExpectation.insert task.pod.uid
      reconcile := .deleting tasks none }, by simp [reconcileStep, h, herr], rfl, rfl⟩
  | some e =>
    exact ⟨{ s with reconcile := .deleting tasks (some e) },
      by simp [reconcileStep, h, herr], rfl, rfl⟩

theorem step_send_failed {task : SyncTask} {e : String} {env : Env}
    (h : s.reconcile = .sending (task :: tasks) err) (herr : env.err = some e) :
    ∃ s', s.reconcileStep lib specHash env = some s' ∧ s'.reconcile = .sending tasks (some e) ∧
      s'.expectations = Attempt.store s.expectations ⟨.send task, some e⟩ :=
  ⟨{ s with
    grpc := s.grpc.send task.conn task.newSpec (some e)
    reconcile := .sending tasks (some e) }, by simp [reconcileStep, h, herr], rfl, rfl⟩

theorem step_send {task : SyncTask} {env : Env}
    (h : s.reconcile = .sending (task :: tasks) err) (herr : env.err = none) :
    ∃ s', s.reconcileStep lib specHash env = some s' ∧ s'.reconcile = .expecting task tasks ∧
      s'.expectations = s.expectations :=
  ⟨{ s with
    grpc := s.grpc.send task.conn task.newSpec none
    reconcile := .expecting task tasks }, by simp [reconcileStep, h, herr], rfl, rfl⟩

theorem step_expect {task : SyncTask} (h : s.reconcile = .expecting task tasks) (env : Env) :
    ∃ s', s.reconcileStep lib specHash env = some s' ∧ s'.reconcile = .sending tasks none ∧
      s'.expectations = Attempt.store s.expectations ⟨.send task, none⟩ :=
  ⟨{ s with
    grpc := { s.grpc with podHashExpectation :=
      s.grpc.podHashExpectation.insert task.pod.uid task.newSpec.specMeta.hash }
    reconcile := .sending tasks none }, by simp [reconcileStep, h], rfl, rfl⟩

/-- The end of a loop. -/
theorem continueCall_end (hidle : s.reconcile.isIdle = false) (hop : s.operation = none)
    (hstep : ∀ env, s.reconcileStep lib specHash env = some { s with reconcile := .idle ⟨0, err⟩ })
    (hlen : 0 < envs.length) :
    Completes s err [] (s.continueCall lib specHash envs).1
      (s.continueCall lib specHash envs).2 := by
  obtain ⟨env, envs, rfl⟩ := List.exists_cons_of_length_pos hlen
  rw [continueCall_of_some hidle (hstep env), continueCall_of_idle rfl, hop]
  exact ⟨rfl, rfl, rfl⟩

theorem continueCall_deleting (h : s.reconcile = .deleting tasks err)
    (hlen : tasks.length < envs.length) :
    Completes s err (tasks.map .delete) (s.continueCall lib specHash envs).1
      (s.continueCall lib specHash envs).2 := by
  induction tasks generalizing s err envs with
  | nil =>
    exact continueCall_end (by rw [h]; rfl) (by simp [operation, h])
      (fun env => by simp [reconcileStep, h]) hlen
  | cons task tasks ih =>
    obtain ⟨env, envs, rfl⟩ := List.exists_cons_of_length_pos (Nat.zero_lt_of_lt hlen)
    obtain ⟨s', hstep, hr, hstore⟩ := step_delete h env
    rw [continueCall_of_some (by rw [h]; rfl) hstep]
    have hrest : Completes s' env.err (tasks.map .delete)
        (s'.continueCall lib specHash envs).1 (s'.continueCall lib specHash envs).2 :=
      ih hr (by simpa using hlen)
    simpa [operation, h] using hrest.cons hstore

/-- A `send` that succeeds is followed by the expectation for it, in a step of its own. -/
theorem continueCall_sending (h : s.reconcile = .sending tasks err)
    (hlen : 2 * tasks.length < envs.length) :
    Completes s err (tasks.map .send) (s.continueCall lib specHash envs).1
      (s.continueCall lib specHash envs).2 := by
  induction tasks generalizing s err envs with
  | nil =>
    exact continueCall_end (by rw [h]; rfl) (by simp [operation, h])
      (fun env => by simp [reconcileStep, h]) hlen
  | cons task tasks ih =>
    rw [List.length_cons] at hlen
    obtain ⟨env, envs, rfl⟩ := List.exists_cons_of_length_pos (Nat.zero_lt_of_lt hlen)
    rw [List.length_cons] at hlen
    cases herr : env.err with
    | some e =>
      obtain ⟨s', hstep, hr, hstore⟩ := step_send_failed h herr
      rw [continueCall_of_some (by rw [h]; rfl) hstep]
      have hrest : Completes s' (some e) (tasks.map .send)
          (s'.continueCall lib specHash envs).1 (s'.continueCall lib specHash envs).2 :=
        ih hr (by omega)
      simpa [operation, h, herr] using hrest.cons hstore
    | none =>
      obtain ⟨env', envs, rfl⟩ : ∃ env' envs', envs = env' :: envs' :=
        List.exists_cons_of_length_pos (by omega)
      obtain ⟨s', hstep, hr, hexp⟩ := step_send h herr
      obtain ⟨s'', hstep', hr', hstore⟩ := step_expect hr env'
      rw [hexp] at hstore
      rw [continueCall_of_some (by rw [h]; rfl) hstep,
        continueCall_of_some (by rw [hr]; rfl) hstep']
      rw [List.length_cons] at hlen
      have hrest : Completes s'' none (tasks.map .send)
          (s''.continueCall lib specHash envs).1 (s''.continueCall lib specHash envs).2 :=
        ih hr' (by omega)
      simpa [operation, h, hr, herr] using hrest.cons hstore

theorem length_tasksFor_le (action : Action) (plan : List (Action × SyncTask)) :
    (tasksFor action plan).length ≤ plan.length := by
  rw [tasksFor, List.length_map]
  exact List.length_filter_le _ _

/-- `Reconcile` goes on with a list of pods to delete, or with one to send specs to. -/
theorem act_cases (plan : List (Action × SyncTask)) : ∃ tasks, tasks.length ≤ plan.length ∧
    (act plan = .deleting tasks none ∨ act plan = .sending tasks none) := by
  unfold act
  split_ifs
  · exact ⟨_, length_tasksFor_le _ _, .inl rfl⟩
  · exact ⟨_, length_tasksFor_le _ _, .inl rfl⟩
  · exact ⟨_, length_tasksFor_le _ _, .inr rfl⟩
  · exact ⟨_, length_tasksFor_le _ _, .inr rfl⟩

theorem continueCall_act {plan : List (Action × SyncTask)} (h : s.reconcile = act plan)
    (hlen : 2 * plan.length < envs.length) :
    Completes s none s.reconcile.operations (s.continueCall lib specHash envs).1
      (s.continueCall lib specHash envs).2 := by
  obtain ⟨tasks, hle, hdel | hsend⟩ := act_cases plan
  · rw [hdel] at h
    rw [h]
    exact continueCall_deleting h (by omega)
  · rw [hsend] at h
    rw [h]
    exact continueCall_sending h (by omega)

end

/-- An error is returned if an attempt failed, and only then. -/
def ReportsFailures (attempts : List Attempt) (err : Option String) : Prop :=
  err ≠ none ↔ ∃ a ∈ attempts, a.err ≠ none

/-- If an attempt failed, then the last one did. -/
def FailsLast (attempts : List Attempt) : Prop :=
  (∃ a ∈ attempts, a.err ≠ none) → ∃ a, attempts.getLast? = some a ∧ a.err ≠ none

theorem reportsFailures_iff (attempts : List Attempt) :
    ReportsFailures attempts (attempts.foldl (fun _ a => a.err) none) ↔ FailsLast attempts := by
  induction attempts using List.reverseRecOn with
  | nil => simp [ReportsFailures, FailsLast]
  | append_singleton attempts a _ =>
    rw [ReportsFailures, FailsLast, List.foldl_concat, List.getLast?_concat]
    constructor
    · exact fun h hfailed => ⟨a, rfl, h.mpr hfailed⟩
    · intro h
      refine ⟨fun ha => ⟨a, by simp, ha⟩, fun hfailed => ?_⟩
      obtain ⟨_, hlast, ha⟩ := h hfailed
      rwa [← Option.some.inj hlast] at ha

/-- A round of deletions or of specs sent, whatever the pods are and whatever the operations are
answered: all of them are attempted, `Reconcile` returns, and it stores expectations for the pods
whose operation succeeded. It returns an error where an operation failed exactly if the last one
did. -/
theorem round_reportsFailures_iff (lib : Lib) (specHash : RouteV1 → List EndpointV1 → String)
    {s : Server} {plan : List (Action × SyncTask)} (h : s.reconcile = act plan) {envs : List Env}
    (hlen : 2 * plan.length < envs.length) :
    ∃ attempts t err, s.continueCall lib specHash envs = (attempts, t) ∧
      attempts.map (·.operation) = s.reconcile.operations ∧ t.reconcile = .idle ⟨0, err⟩ ∧
      s.expectations.StoredFor attempts t.expectations ∧
      (ReportsFailures attempts err ↔ FailsLast attempts) := by
  have hcall : Completes s none s.reconcile.operations (s.continueCall lib specHash envs).1
      (s.continueCall lib specHash envs).2 := continueCall_act h hlen
  refine ⟨_, _, _, rfl, hcall.operations, hcall.reconcile, ?_, reportsFailures_iff _⟩
  rw [hcall.expectations]
  exact Attempt.storedFor_foldl_store _ _

/-- Two pods to which a spec is to be sent. -/
def samplePlan : List (Action × SyncTask) :=
  classified sampleLib (fun _ _ => "h")
    ⟨sampleVApp "canary", [], [], [⟨sampleRunningPod "a", 0, false, ⟨none, none⟩⟩,
      ⟨sampleRunningPod "b", 1, false, ⟨none, none⟩⟩]⟩ sampleNamespaces

def sampleRound : Server :=
  { sampleConnected [sampleRunningPod "a", sampleRunningPod "b"] with reconcile := act samplePlan }

/-- The ninth step fails. -/
def sampleFailure : List Env :=
  List.flatten [List.replicate 8 {}, [{ err := some "unavailable" }], List.replicate 3 {}]

theorem round_reportsFailures_sampleRound :
    ∃ attempts t err, sampleRound.continueCall sampleLib (fun _ _ => "h") sampleFailure =
        (attempts, t) ∧
      attempts.map (·.operation) = sampleRound.reconcile.operations ∧
      t.reconcile = .idle ⟨0, err⟩ ∧ sampleRound.expectations.StoredFor attempts t.expectations ∧
      (ReportsFailures attempts err ↔ FailsLast attempts) := by
  have h : sampleRound.reconcile = act samplePlan := rfl
  exact round_reportsFailures_iff sampleLib (fun _ _ => "h") h (by decide)

/-- Two pods connect. The spec cannot be sent to the first, it is sent to the second, and
`Reconcile` returns no error. -/
theorem not_reportsFailures_sampleConnected :
    ∃ attempts t, (sampleConnected [sampleRunningPod "a", sampleRunningPod "b"]).call sampleLib
        (fun _ _ => "h") sampleFailure = (attempts, t) ∧
      attempts.map (·.err) = [some "unavailable", none] ∧ t.reconcile = .idle ⟨0, none⟩ ∧
      ¬ReportsFailures attempts none := by
  have hcall : (fun r : List Attempt × Server => (r.1.map (·.err), r.2.reconcile))
      ((sampleConnected [sampleRunningPod "a", sampleRunningPod "b"]).call sampleLib
        (fun _ _ => "h") sampleFailure) =
      ([some "unavailable", none], .idle ⟨0, none⟩) := by decide +kernel
  generalize (sampleConnected _).call _ _ _ = r at hcall ⊢
  obtain ⟨attempts, t⟩ := r
  obtain ⟨herrs, hr⟩ := Prod.mk.inj hcall
  refine ⟨attempts, t, rfl, herrs, hr, fun h => ?_⟩
  have hmem : some "unavailable" ∈ attempts.map (·.err) := by simp [herrs]
  obtain ⟨a, ha, herr⟩ := List.mem_map.mp hmem
  exact h.mpr ⟨a, ha, by simp [herr]⟩ rfl

/-! ## Listing again -/

/-- The API reader lists the pods and the namespaces so. -/
def relist (s : Server) (pods : List Pod) (namespaces : List Namespace) : Server :=
  { s with pods := pods, namespaces := namespaces }

/-- What `Reconcile` reads of the lists. -/
structure SameLists (s : Server) (pods : List Pod) (namespaces : List Namespace) : Prop where
  pods : getPodsForVApp pods = getPodsForVApp s.pods
  namespaces : getActiveNamespaces namespaces = getActiveNamespaces s.namespaces

section

variable {lib : Lib} {specHash : RouteV1 → List EndpointV1 → String} {s s' : Server} {pods : List Pod}
  {namespaces : List Namespace} {env : Env}

theorem sameLists_of_perm (hpods : s.pods.Perm pods) (hpodNames : (s.pods.map (·.name)).Nodup)
    (hnamespaces : s.namespaces.Perm namespaces)
    (hnamespaceNames : (s.namespaces.map (·.name)).Nodup) : SameLists s pods namespaces where
  pods := (insertionSort_eq_of_perm Pod.name hpods hpodNames).symm
  namespaces := by
    have hnodup : ((s.namespaces.filter (!·.deleting)).map (·.name)).Nodup :=
      hnamespaceNames.sublist (List.filter_sublist.map _)
    exact (insertionSort_eq_of_perm Namespace.name (hnamespaces.filter _) hnodup).symm

theorem SameLists.step (h : SameLists s pods namespaces)
    (hstep : s.reconcileStep lib specHash env = some s') : SameLists s' pods namespaces := by
  cases reconcileStep_of_eq_some hstep <;> exact ⟨h.pods, h.namespaces⟩

/-- A step does the same. -/
theorem SameLists.reconcileStep_relist (h : SameLists s pods namespaces) (env : Env) :
    (s.relist pods namespaces).reconcileStep lib specHash env =
      (s.reconcileStep lib specHash env).map (·.relist pods namespaces) := by
  obtain ⟨hpods, hnamespaces⟩ := h
  obtain ⟨grpc, deletion, vApp, pods', namespaces', reconcile, hashed⟩ := s
  -- the pods are listed in the first step, the namespaces behind the last pod
  cases reconcile with
  | idle res =>
    simp only [reconcileStep, relist, Option.map_some, hpods]
  | scanning scan =>
    obtain ⟨vApp', todo, activePods, syncPods⟩ := scan
    cases todo with
    | cons pod todo => rfl
    | nil =>
      cases herr : env.err with
      | some err => simp only [reconcileStep, relist, Option.map_some, herr]
      | none =>
        simp only [reconcileStep, relist, classified, Option.map_some, herr, hnamespaces]
  | loaded scan pod conn =>
    simp only [reconcileStep, relist]
    cases grpc.streams[conn]? <;> rfl
  | checking scan sp => rfl
  | satisfied scan sp => rfl
  | deleting tasks err => cases tasks <;> rfl
  | sending tasks err => cases tasks <;> rfl
  | expecting task tasks => rfl

/-- The rest of a call does the same. -/
theorem SameLists.continueCall_relist (h : SameLists s pods namespaces) (envs : List Env) :
    (s.relist pods namespaces).continueCall lib specHash envs =
      ((s.continueCall lib specHash envs).1,
        (s.continueCall lib specHash envs).2.relist pods namespaces) := by
  induction envs generalizing s with
  | nil => rfl
  | cons env envs ih =>
    have hstep : (s.relist pods namespaces).reconcileStep lib specHash env =
        (s.reconcileStep lib specHash env).map (·.relist pods namespaces) :=
      h.reconcileStep_relist env
    cases hidle : s.reconcile.isIdle with
    | true =>
      have hidle' : (s.relist pods namespaces).reconcile.isIdle = true := hidle
      rw [continueCall_of_idle hidle, continueCall_of_idle hidle']
    | false =>
      have hidle' : (s.relist pods namespaces).reconcile.isIdle = false := hidle
      cases hs : s.reconcileStep lib specHash env with
      | none =>
        rw [hs, Option.map_none] at hstep
        rw [continueCall_of_none hs, continueCall_of_none hstep]
      | some s' =>
        rw [hs, Option.map_some] at hstep
        rw [continueCall_of_some hidle hs, continueCall_of_some hidle' hstep, ih (h.step hs)]
        rfl

theorem SameLists.call_relist (h : SameLists s pods namespaces) (envs : List Env) :
    (s.relist pods namespaces).call lib specHash envs =
      ((s.call lib specHash envs).1, (s.call lib specHash envs).2.relist pods namespaces) := by
  cases envs with
  | nil => rfl
  | cons env envs =>
    cases herr : env.err with
    | some err =>
      rw [call_of_err s herr, call_of_err _ herr]
      rfl
    | none =>
      have hbegin : SameLists { s with
          reconcile := .scanning ⟨s.vApp, getPodsForVApp s.pods, [], []⟩ } pods namespaces :=
        ⟨h.pods, h.namespaces⟩
      rw [call_of_none s herr, call_of_none _ herr, ← hbegin.continueCall_relist]
      simp only [relist, h.pods]

end

/-- The pods and the namespaces in another order, with distinct names: the same route, the same
endpoints, the same hash, and the same call. -/
theorem call_relisted (lib : Lib) (specHash : RouteV1 → List EndpointV1 → String) (s : Server)
    {pods : List Pod} {namespaces : List Namespace} (hpods : s.pods.Perm pods)
    (hpodNames : (s.pods.map (·.name)).Nodup) (hnamespaces : s.namespaces.Perm namespaces)
    (hnamespaceNames : (s.namespaces.map (·.name)).Nodup) :
    generateProtoRoute lib s.vApp (getActiveNamespaces namespaces) =
        generateProtoRoute lib s.vApp (getActiveNamespaces s.namespaces) ∧
      generateProtoEndpoints s.vApp ((getPodsForVApp pods).filter (·.isActive)) =
        generateProtoEndpoints s.vApp ((getPodsForVApp s.pods).filter (·.isActive)) ∧
      (s.relist pods namespaces).currentHash lib specHash = s.currentHash lib specHash ∧
      ∀ envs, (s.relist pods namespaces).call lib specHash envs =
        ((s.call lib specHash envs).1,
          (s.call lib specHash envs).2.relist pods namespaces) := by
  have hsame := sameLists_of_perm hpods hpodNames hnamespaces hnamespaceNames
  refine ⟨?_, ?_, ?_, fun envs => hsame.call_relist envs⟩
  · rw [hsame.namespaces]
  · rw [hsame.pods]
  · simp only [currentHash, relist, hsame.pods, hsame.namespaces]

theorem call_relisted_sampleConnected :
    ((sampleConnected [sampleRunningPod "a", sampleRunningPod "b"]).relist
        [sampleRunningPod "b", sampleRunningPod "a"] sampleNamespaces.reverse).currentHash sampleLib
        (fun _ endpoints => ",".intercalate (endpoints.map (·.name))) =
      (sampleConnected [sampleRunningPod "a", sampleRunningPod "b"]).currentHash sampleLib
        (fun _ endpoints => ",".intercalate (endpoints.map (·.name))) :=
  (call_relisted sampleLib _ (sampleConnected [sampleRunningPod "a", sampleRunningPod "b"])
    (List.Perm.swap _ _ []) (by decide) (List.reverse_perm _).symm (by decide)).2.2.1

end Server

end CtrlMesh
