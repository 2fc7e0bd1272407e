import ControllerMesh.Proof.Status

/-!
# When the unload reason is accurate

`UpdateSpec` sets `unloadReason` when it rejects a spec, and nothing ever clears
it: a spec that is accepted after a rejection is reported together with the
reason of that rejection. So between updates, a status has a reason exactly if
the expected spec is not the loaded one, as long as no spec is accepted after
one has been rejected (`unloadReason_accurate_iff`). The other direction has no
such condition: a rejected spec leaves the current one in force, and its reason
is reported.

The runs start from any files (`restarted`). What `newSpecManager` itself rejects
there counts as a rejection (`startRejected`).
-/

namespace CtrlMesh

open Framework

/-! ## No reason is empty -/

namespace RequestsPack

theorem rangeLoop_ne {fn : ResourceRequest → Option String} {e : String}
    (hfn : ∀ req, fn req ≠ some e) :
    ∀ {reqs : List ResourceRequest} {err : Option String}, err ≠ some e →
      rangeLoop fn reqs err ≠ some e
  | [], _, herr => herr
  | req :: reqs, err, herr => by
    cases hreq : fn req with
    | none =>
      simp only [rangeLoop, hreq]
      exact rangeLoop_ne hfn herr
    | some e' =>
      simp only [rangeLoop, hreq]
      exact hreq ▸ hfn req

/-- An error that no record has is not reported. -/
theorem rangeRequests_ne {order : RangeOrder} {pack : RequestsPack}
    {fn : ResourceRequest → Option String} {e : String} (hfn : ∀ req, fn req ≠ some e) :
    pack.rangeRequests order fn ≠ some e :=
  rangeLoop_ne hfn (rangeLoop_ne hfn (rangeLoop_ne hfn (by simp)))

end RequestsPack

theorem checkUserAgents_ne_empty (spec : InternalSpec) (req : ResourceRequest) :
    checkUserAgents spec req ≠ some "" := by
  unfold checkUserAgents
  split <;> simp [toString]

theorem checkObjectSelector_ne_empty (spec : InternalSpec) (req : ResourceRequest) :
    checkObjectSelector spec req ≠ some "" := by
  simp only [checkObjectSelector]
  split <;> simp [toString]

theorem checkNamespaces_ne_empty (order : RangeOrder) (spec : InternalSpec) (req : ResourceRequest) :
    checkNamespaces order spec req ≠ some "" := by
  simp only [checkNamespaces]
  split <;> simp [toString]

theorem checkRequest_ne_empty (order : RangeOrder) (spec : InternalSpec) (req : ResourceRequest) :
    checkRequest order spec req ≠ some "" := by
  have hua := checkUserAgents_ne_empty spec req
  have hsel := checkObjectSelector_ne_empty spec req
  unfold checkRequest
  cases hcheck : checkUserAgents spec req with
  | some err =>
    rw [hcheck] at hua
    exact hua
  | none =>
    dsimp only
    split
    · simp
    · cases hcheck' : checkObjectSelector spec req with
      | some err =>
        rw [hcheck'] at hsel
        exact hsel
      | none => exact checkNamespaces_ne_empty order spec req

theorem checkLoadable_ne_empty (order : RangeOrder) (pack : RequestsPack)
    (current : Option InternalSpec) (expected : InternalSpec) :
    checkLoadable order pack current expected ≠ some "" := by
  unfold checkLoadable
  cases current with
  | none => simp
  | some current =>
    dsimp only
    split
    · simp
    · split
      · simp
      · split
        · simp
        · exact RequestsPack.rangeRequests_ne fun req => checkRequest_ne_empty order expected req

/-- The current spec is not rejected. -/
theorem checkLoadable_self (order : RangeOrder) (pack : RequestsPack) (spec : InternalSpec) :
    checkLoadable order pack (some spec) spec = none := by
  simp [checkLoadable]

/-! ## Runs -/

namespace Proxy

variable (unmarshal : String → LabelSelector)

/-- What the `UpdateSpec` of `newSpecManager` rejects: the expected spec of the files,
if it cannot replace their current one. -/
def startRejected (order : RangeOrder) (disk : Disk) : List InternalSpec :=
  match ((newStorage disk).loadData .empty).1 with
  | .error _ => []
  | .ok loaded =>
    match loaded.expectedSpec.bind (·.check) with
    | none => []
    | some spec =>
      let expectedSpec := convertProtoSpecToInternal unmarshal spec
      match checkLoadable order loaded.history
          ((loaded.currentSpec.bind (·.check)).map (convertProtoSpecToInternal unmarshal))
          expectedSpec with
      | none => []
      | some _ => [expectedSpec]

/-- A proxy that starts with the files of `disk`. -/
def restarted (order : RangeOrder) (disk : Disk) : System Proxy Event :=
  ⟨{ start with
      specManager := .newSpecManager unmarshal order disk
      rejected := startRejected unmarshal order disk }, step unmarshal⟩

variable {unmarshal} {p p' : Proxy}

/-- Between updates, a status has no reason if and only if the expected spec is
the loaded one. -/
def ReasonAccurate (p : Proxy) : Prop :=
  p.updating = false → ∀ status metaState, p.specManager.getStatus = some status →
    status.metaState = some metaState →
      (metaState.hashUnloadReason = "" ↔ p.specManager.expectedSpec = p.specManager.currentSpec)

/-- An update that is rejected leaves the current spec, and its reason is what
is reported. -/
def RejectionReported (p : Proxy) (e : Event) : Prop :=
  ∀ order expected err, e = .finishUpdate order → p.specManager.expectedSpec = some expected →
    checkLoadable order p.specManager.requestsStore p.specManager.currentSpec expected = some err →
      (p.finishUpdate order).specManager.currentSpec = p.specManager.currentSpec ∧
        ∀ status metaState, (p.finishUpdate order).specManager.getStatus = some status →
          status.metaState = some metaState → metaState.hashUnloadReason = err

/-- A spec is accepted only if none was rejected before. -/
def AcceptsFirst (p : Proxy) (e : Event) : Prop :=
  ∀ order expected, e = .finishUpdate order → p.specManager.expectedSpec = some expected →
    checkLoadable order p.specManager.requestsStore p.specManager.currentSpec expected = none →
      p.rejected = []

theorem rejectionReported (p : Proxy) (e : Event) : p.RejectionReported e := by
  intro order expected err _ he herr
  rcases SpecManager.loadExpectedSpec_cases order he with ⟨err', herr', hs⟩ | ⟨hnone, -⟩
  · obtain rfl : err = err' := Option.some.inj (herr.symm.trans herr')
    constructor
    · simp only [Proxy.finishUpdate, hs]
    · intro status metaState hstatus hmeta
      simp only [Proxy.finishUpdate, hs] at hstatus
      obtain ⟨current, expected', -, -, rfl⟩ := getStatus_eq_some.mp hstatus
      obtain rfl := Option.some.inj hmeta
      rfl
  · simp [hnone] at herr

/-- An `UpdateSpec` between its steps has an expected spec. -/
def Expecting (p : Proxy) : Prop := p.updating = true → ∃ s, p.specManager.expectedSpec = some s

theorem Expecting.step (hp : p.Expecting) {e : Event} (h : Proxy.step unmarshal p e = some p') :
    p'.Expecting := by
  cases step_of_eq_some h with
  | beginUpdate => exact fun _ => ⟨_, rfl⟩
  | finishUpdate => exact fun hu => by simp [Proxy.finishUpdate] at hu
  | acquire => exact hp
  | release => exact hp
  | getStatus => exact hp
  | updateLeaderElection => exact hp

/-- There is a reason from the first rejection on. -/
def ReasonKept (p : Proxy) : Prop := p.specManager.unloadReason = "" ↔ p.rejected = []

theorem ReasonKept.finishUpdate (hp : p.ReasonKept) (order : RangeOrder) :
    (p.finishUpdate order).ReasonKept := by
  cases he : p.specManager.expectedSpec with
  | none =>
    unfold ReasonKept
    simp only [Proxy.finishUpdate, SpecManager.loadExpectedSpec, he]
    exact hp
  | some expected =>
    unfold ReasonKept
    rcases SpecManager.loadExpectedSpec_cases order he with ⟨err, herr, hs⟩ | ⟨hnone, hs⟩
    · simp only [Proxy.finishUpdate, hs, he, herr]
      refine iff_of_false ?_ (List.cons_ne_nil _ _)
      rintro rfl
      exact checkLoadable_ne_empty _ _ _ _ herr
    · simp only [Proxy.finishUpdate, hs, he, hnone]
      exact hp

theorem ReasonKept.step (hp : p.ReasonKept) {e : Event} (h : Proxy.step unmarshal p e = some p') :
    p'.ReasonKept := by
  cases step_of_eq_some h with
  | beginUpdate => exact hp
  | finishUpdate => exact hp.finishUpdate _
  | acquire => exact hp
  | release => exact hp
  | getStatus => exact hp
  | updateLeaderElection => exact hp

theorem reasonKept_restarted (order : RangeOrder) (disk : Disk) :
    (restarted unmarshal order disk).init.ReasonKept := by
  unfold ReasonKept restarted SpecManager.newSpecManager startRejected
  dsimp only
  cases ((newStorage disk).loadData .empty).1 with
  | error _ => exact iff_of_true rfl rfl
  | ok loaded =>
    dsimp only
    cases loaded.expectedSpec.bind (·.check) with
    | none => exact iff_of_true rfl rfl
    | some spec =>
      -- the `UpdateSpec` is that of a proxy that has rejected nothing
      have hempty : ReasonKept
          ⟨.assignExpectedSpec unmarshal ⟨((newStorage disk).loadData .empty).2, none,
            (loaded.currentSpec.bind (·.check)).map (convertProtoSpecToInternal unmarshal), "",
            loaded.history, none⟩ spec, true, [], [], []⟩ :=
        iff_of_true rfl rfl
      exact hempty.finishUpdate order

theorem reasonAccurate_iff :
    p.ReasonAccurate ↔ (p.updating = false → ∀ current expected,
      p.specManager.currentSpec = some current → p.specManager.expectedSpec = some expected →
        (p.specManager.unloadReason = "" ↔ expected = current)) := by
  refine imp_congr_right fun _ => ⟨fun h current expected hc he => ?_, ?_⟩
  · have hreport := h _ _ (getStatus_eq_some.mpr ⟨current, expected, hc, he, rfl⟩) rfl
    rw [hreport, hc, he, Option.some.injEq]
  · intro h status metaState hstatus hmeta
    obtain ⟨current, expected, hc, he, rfl⟩ := getStatus_eq_some.mp hstatus
    obtain rfl := Option.some.inj hmeta
    rw [hc, he, Option.some.injEq]
    exact h current expected hc he

/-- A step that leaves the specs and the reason leaves the report. -/
theorem ReasonAccurate.congr (hp : p.ReasonAccurate) (hupdating : p'.updating = p.updating)
    (hexpected : p'.specManager.expectedSpec = p.specManager.expectedSpec)
    (hcurrent : p'.specManager.currentSpec = p.specManager.currentSpec)
    (hreason : p'.specManager.unloadReason = p.specManager.unloadReason) : p'.ReasonAccurate := by
  rw [reasonAccurate_iff] at hp ⊢
  rwa [hupdating, hexpected, hcurrent, hreason]

/-- At the end of an update: a rejected spec is not the current one and has a
reason; an accepted one is reported with the reason kept from before. -/
theorem reasonAccurate_finishUpdate {order : RangeOrder} {expected : InternalSpec}
    (hkept : p.ReasonKept) (he : p.specManager.expectedSpec = some expected) :
    (p.finishUpdate order).ReasonAccurate ↔ p.AcceptsFirst (.finishUpdate order) := by
  rw [reasonAccurate_iff]
  rcases SpecManager.loadExpectedSpec_cases order he with ⟨err, herr, hs⟩ | ⟨hnone, hs⟩
  · simp only [Proxy.finishUpdate, hs]
    refine iff_of_true ?_ ?_
    · intro _ current expected' hc he'
      obtain rfl : expected = expected' := Option.some.inj (he.symm.trans he')
      refine iff_of_false ?_ ?_
      · rintro rfl
        exact checkLoadable_ne_empty _ _ _ _ herr
      · rintro rfl
        rw [hc, checkLoadable_self] at herr
        cases herr
    · intro order' expected' horder he' hnone'
      obtain rfl : order = order' := Event.finishUpdate.inj horder
      obtain rfl : expected = expected' := Option.some.inj (he.symm.trans he')
      rw [herr] at hnone'
      cases hnone'
  · simp only [Proxy.finishUpdate, hs]
    constructor
    · intro h order' expected' _ he' _
      obtain rfl : expected = expected' := Option.some.inj (he.symm.trans he')
      exact hkept.mp ((h trivial expected expected rfl he).mpr rfl)
    · intro h _ current expected' hc he'
      obtain rfl : expected = current := Option.some.inj hc
      obtain rfl : expected = expected' := Option.some.inj (he.symm.trans he')
      exact iff_of_true (hkept.mpr (h order expected rfl he hnone)) rfl

theorem reasonAccurate_step (hp : p.Expecting) (hkept : p.ReasonKept) (hr : p.ReasonAccurate) {e : Event}
    (h : Proxy.step unmarshal p e = some p') : p'.ReasonAccurate ↔ p.AcceptsFirst e := by
  have hother (hne : ∀ order, e ≠ .finishUpdate order) : p.AcceptsFirst e :=
    fun order _ he => absurd he (hne order)
  cases step_of_eq_some h with
  | beginUpdate =>
    refine iff_of_true (fun hu => ?_) (hother fun _ => Event.noConfusion)
    cases hu
  | finishUpdate hu =>
    obtain ⟨expected, he⟩ := hp hu
    exact reasonAccurate_finishUpdate hkept he
  | acquire => exact iff_of_true (hr.congr rfl rfl rfl rfl) (hother fun _ => Event.noConfusion)
  | release => exact iff_of_true (hr.congr rfl rfl rfl rfl) (hother fun _ => Event.noConfusion)
  | getStatus => exact iff_of_true hr (hother fun _ => Event.noConfusion)
  | updateLeaderElection =>
    exact iff_of_true (hr.congr rfl rfl rfl rfl) (hother fun _ => Event.noConfusion)

/-- An `UpdateSpec` without a reason from before leaves an accurate one. -/
theorem reasonAccurate_updateSpec (order : RangeOrder) (sm : SpecManager)
    (hreason : sm.unloadReason = "") (spec : ProxySpecV1) :
    ReasonAccurate { start with specManager := sm.updateSpec unmarshal order spec } := by
  have hfinish : (finishUpdate ⟨sm.assignExpectedSpec unmarshal spec, true, [], [], []⟩
      order).ReasonAccurate :=
    (reasonAccurate_finishUpdate (iff_of_true hreason rfl) rfl).mpr fun _ _ _ _ _ => rfl
  exact hfinish.congr rfl rfl rfl rfl

/-- A proxy that starts has found no expected spec, or has updated to it. -/
theorem reasonAccurate_restarted (order : RangeOrder) (disk : Disk) :
    (restarted unmarshal order disk).init.ReasonAccurate := by
  have hnone {sm : SpecManager} (h : sm.expectedSpec = none) :
      ReasonAccurate { start with specManager := sm } := by
    rw [reasonAccurate_iff]
    intro _ current expected _ he
    rw [h] at he
    cases he
  unfold restarted SpecManager.newSpecManager
  dsimp only
  split
  · exact hnone rfl
  · split
    · exact hnone rfl
    · exact reasonAccurate_updateSpec order _ rfl _

/-- In every run from any files: between updates a status has no reason if and
only if the expected spec is the loaded one, and a rejection leaves the current
spec and is reported with its reason, exactly when no spec is accepted after
another was rejected, at the start or since. -/
theorem unloadReason_accurate_iff {order : RangeOrder} {disk : Disk} {es : List Event}
    (h : (restarted unmarshal order disk).run es = some p) :
    (restarted unmarshal order disk).States ReasonAccurate
          (restarted unmarshal order disk).init es ∧
        (restarted unmarshal order disk).Steps RejectionReported
          (restarted unmarshal order disk).init es ↔
      (restarted unmarshal order disk).Steps AcceptsFirst
        (restarted unmarshal order disk).init es := by
  rw [and_iff_left ((restarted unmarshal order disk).steps_of_forall rejectionReported _ _)]
  exact (restarted unmarshal order disk).states_iff_steps
    (I := fun p => p.Expecting ∧ p.ReasonKept)
    (fun _ hs hstep => ⟨hs.1.step hstep, hs.2.step hstep⟩)
    (fun hs hr hstep => reasonAccurate_step hs.1 hs.2 hr hstep)
    (fun _ _ => trivial) ⟨fun hu => (by cases hu), reasonKept_restarted order disk⟩
    (reasonAccurate_restarted order disk) h

/-- An update that is accepted, then one that is rejected for its name, with a
report after each. -/
def sampleRejectedRun : List Event :=
  [.beginUpdate (sampleSpec "h1"), .finishUpdate .sorted, .getStatus,
    .beginUpdate { sampleSpec "h2" with specMeta := ⟨"other", "h2"⟩ }, .finishUpdate .sorted,
    .getStatus]

/-- No update is finished after a rejection. -/
def finishesCleanly (p : Proxy) : Event → Bool
  | .finishUpdate _ => p.rejected = []
  | _ => true

theorem unloadReason_accurate_sampleRejectedRun :
    (restarted (fun _ => ⟨none, none⟩) .sorted .empty).States ReasonAccurate
        (restarted (fun _ => ⟨none, none⟩) .sorted .empty).init sampleRejectedRun ∧
      (restarted (fun _ => ⟨none, none⟩) .sorted .empty).Steps RejectionReported
        (restarted (fun _ => ⟨none, none⟩) .sorted .empty).init sampleRejectedRun := by
  have hrun : ((restarted (fun _ => ⟨none, none⟩) .sorted .empty).run sampleRejectedRun).isSome := by
    decide +kernel
  obtain ⟨p, hp⟩ := Option.isSome_iff_exists.mp hrun
  refine (unloadReason_accurate_iff hp).mpr ?_
  refine (restarted _ _ _).steps_of_checkSteps finishesCleanly ?_ (by decide +kernel)
  rintro p e ht order expected rfl - -
  simpa [finishesCleanly] using ht

/-- The rejected update of the sample is followed by one that is accepted: the
loaded spec is the expected one, and the old reason is still reported. -/
theorem unloadReason_stale_sampleRejectedRun :
    ((restarted (fun _ => ⟨none, none⟩) .sorted .empty).run (sampleRejectedRun ++
        [.beginUpdate (sampleSpec "h2"), .finishUpdate .sorted])).map
      (fun p => (decide (p.specManager.expectedSpec = p.specManager.currentSpec),
        p.specManager.getStatus.bind (·.metaState))) =
      some (true, some ⟨"a", "h2", "h2", "VAppName changed from app to other"⟩) := by
  decide +kernel

end Proxy

end CtrlMesh
