import ControllerMesh.Proof.Proxy

/-!
# When a status report is accurate

`UpdateSpec` assigns the expected spec before it takes the lock, so a
`GetStatus` in between reports an expected hash that nothing has been decided
about. Outside that window the report is right: the hashes differ only if
`checkLoadable` has rejected the expected spec (`Settled`). Over whole runs,
`getStatus_accurate_iff`: all reports are right exactly when none is made in
the window of an update to a new spec.
-/

namespace CtrlMesh

open Framework

namespace Proxy

variable {unmarshal : String → LabelSelector} {p p' : Proxy}

/-- A report shows different hashes only if the expected spec was rejected. -/
def StatusAccurate (p : Proxy) : Prop :=
  ∀ status metaState, p.specManager.getStatus = some status → status.metaState = some metaState →
    metaState.expectedHash ≠ metaState.currentHash →
      ∃ expected, p.specManager.expectedSpec = some expected ∧ expected ∈ p.rejected

/-- An `UpdateSpec` is between its steps, and its spec is new: it has not the
hash of the current spec, and was not rejected before. -/
def InUpdateWindow (p : Proxy) : Prop :=
  p.updating = true ∧ ∃ current expected,
    p.specManager.currentSpec = some current ∧ p.specManager.expectedSpec = some expected ∧
      expected.proxySpecV1.specMeta.hash ≠ current.proxySpecV1.specMeta.hash ∧
        expected ∉ p.rejected

/-- Between updates, the expected spec has the hash of the current one or was
rejected. -/
structure Settled (p : Proxy) : Prop where
  updating (h : p.updating = true) : ∃ s, p.specManager.expectedSpec = some s
  settled (h : p.updating = false) {current : InternalSpec}
    (hc : p.specManager.currentSpec = some current) :
    ∃ expected, p.specManager.expectedSpec = some expected ∧
      (expected.proxySpecV1.specMeta.hash = current.proxySpecV1.specMeta.hash ∨
        expected ∈ p.rejected)

theorem settled_start : start.Settled :=
  ⟨fun h => by simp [start] at h, fun _ _ h => by simp [start, SpecManager.start] at h⟩

theorem Settled.finishUpdate (hp : p.Settled) (hu : p.updating = true) (order : RangeOrder) :
    (p.finishUpdate order).Settled := by
  obtain ⟨expected, he⟩ := hp.updating hu
  refine ⟨fun h => by simp [Proxy.finishUpdate] at h, fun _ current hc => ⟨expected, ?_, ?_⟩⟩
  · simpa [Proxy.finishUpdate] using he
  · rcases SpecManager.loadExpectedSpec_cases order he with ⟨err, hl, hs⟩ | ⟨hl, hs⟩
    · exact .inr (by simp [Proxy.finishUpdate, he, hl])
    · simp only [Proxy.finishUpdate, hs, Option.some.injEq] at hc
      exact .inl (by rw [hc])

theorem Settled.step (hp : p.Settled) {e : Event} (h : Proxy.step unmarshal p e = some p') :
    p'.Settled := by
  cases step_of_eq_some h with
  | beginUpdate => exact ⟨fun _ => ⟨_, rfl⟩, fun h => by simp at h⟩
  | finishUpdate hu hr => exact hp.finishUpdate hu _
  | acquire => exact ⟨fun h => hp.updating h, fun h _ hc => hp.settled h hc⟩
  | release => exact ⟨fun h => hp.updating h, fun h _ hc => hp.settled h hc⟩
  | getStatus => exact hp
  | updateLeaderElection => exact ⟨fun h => hp.updating h, fun h _ hc => hp.settled h hc⟩

theorem getStatus_eq_some {sm : SpecManager} {status : ProxyStatusV1} :
    sm.getStatus = some status ↔ ∃ current expected, sm.currentSpec = some current ∧ sm.expectedSpec = some expected ∧
      status =
        { metaState := some
            { subset := current.proxySpecV1.route.subset
              expectedHash := expected.proxySpecV1.specMeta.hash
              currentHash := current.proxySpecV1.specMeta.hash
              hashUnloadReason := sm.unloadReason }
          leaderElectionState := sm.leaderElectionState } := by
  simp only [SpecManager.getStatus, Option.bind_eq_bind, Option.bind_eq_some_iff, Option.some.injEq]
  constructor
  · rintro ⟨current, hc, expected, he, rfl⟩
    exact ⟨current, expected, hc, he, rfl⟩
  · rintro ⟨current, expected, hc, he, rfl⟩
    exact ⟨current, hc, expected, he, rfl⟩

/-- A report is accurate exactly outside the window of an update to a new
spec. -/
theorem Settled.statusAccurate_iff (hp : p.Settled) : p.StatusAccurate ↔ ¬p.InUpdateWindow := by
  constructor
  · rintro h ⟨-, current, expected, hc, he, hne, hnot⟩
    obtain ⟨expected', he', hmem⟩ :=
      h _ _ (getStatus_eq_some.mpr ⟨current, expected, hc, he, rfl⟩) rfl hne
    obtain rfl : expected = expected' := Option.some.inj (he.symm.trans he')
    exact hnot hmem
  · intro h status metaState hs hm hne
    obtain ⟨current, expected, hc, he, rfl⟩ := getStatus_eq_some.mp hs
    cases hm
    refine ⟨expected, he, ?_⟩
    by_contra hnot
    cases hu : p.updating with
    | true => exact h ⟨hu, current, expected, hc, he, hne, hnot⟩
    | false =>
      obtain ⟨expected', he', hor⟩ := hp.settled hu hc
      obtain rfl : expected = expected' := Option.some.inj (he.symm.trans he')
      exact hor.elim hne hnot

/-- In every run, all status reports are accurate exactly when none is made in
the window of an update to a new spec. -/
theorem getStatus_accurate_iff {es : List Event} (h : (system unmarshal).run es = some p) :
    (system unmarshal).Steps (fun p e => e = .getStatus → p.StatusAccurate) start es ↔
      (system unmarshal).Steps (fun p e => e = .getStatus → ¬p.InUpdateWindow) start es :=
  (system unmarshal).steps_congr (I := Settled) (fun _ hs hstep => hs.step hstep)
    (fun _ hs _ => imp_congr_right fun _ => hs.statusAccurate_iff) (fun _ _ => trivial)
    settled_start h

/-- Reports before, between and after two updates of the sample spec. -/
def sampleStatusRun : List Event :=
  [.getStatus, .beginUpdate (sampleSpec "h1"), .finishUpdate .sorted, .getStatus,
    .beginUpdate (sampleSpec "h2"), .finishUpdate .sorted, .getStatus]

/-- No report is made while an `UpdateSpec` is between its steps. -/
def reportsQuietly (p : Proxy) : Event → Bool
  | .getStatus => !p.updating
  | _ => true

theorem getStatus_accurate_sampleStatusRun :
    (system fun _ => ⟨none, none⟩).Steps (fun p e => e = .getStatus → p.StatusAccurate) start
      sampleStatusRun := by
  have hrun : ((system fun _ => ⟨none, none⟩).run sampleStatusRun).isSome := by decide +kernel
  obtain ⟨p, hp⟩ := Option.isSome_iff_exists.mp hrun
  refine (getStatus_accurate_iff hp).mpr ?_
  refine (system _).steps_of_checkSteps reportsQuietly ?_ (by decide +kernel)
  rintro p e ht rfl ⟨hu, -⟩
  simp [reportsQuietly, hu] at ht

/-- A run up to the window of the second update. -/
def sampleWindowRun : List Event :=
  [.beginUpdate (sampleSpec "h1"), .finishUpdate .sorted, .beginUpdate (sampleSpec "h2")]

/-- A report in that window shows the second hash as expected and the first as
current, while nothing was rejected. -/
theorem getStatus_inaccurate :
    ¬∀ (es : List Event) (p : Proxy), (system fun _ => ⟨none, none⟩).run es = some p →
      (system fun _ => ⟨none, none⟩).Steps (fun p e => e = .getStatus → p.StatusAccurate) start
        es := by
  intro h
  have hrun : ((system fun _ => ⟨none, none⟩).run sampleWindowRun).map
      (fun p => (p.specManager.getStatus.bind (·.metaState), p.rejected)) =
        some (some ⟨"a", "h2", "h1", ""⟩, []) := by
    decide +kernel
  have hall : ((system fun _ => ⟨none, none⟩).run (sampleWindowRun ++ [.getStatus])).isSome := by
    decide +kernel
  obtain ⟨p, hp, hpe⟩ := Option.map_eq_some_iff.mp hrun
  obtain ⟨p', hp'⟩ := Option.isSome_iff_exists.mp hall
  simp only [Prod.mk.injEq] at hpe
  obtain ⟨status, hs, hm⟩ := Option.bind_eq_some_iff.mp hpe.1
  obtain ⟨expected, -, hmem⟩ := (h _ p' hp').at _ hp rfl status _ hs hm (by decide)
  simp [hpe.2] at hmem

end Proxy

end CtrlMesh
