import ControllerMesh.Impl.GrpcClient

/-!
# What a manager knows of a proxy

A proxy reports its status when something has triggered that. Triggers are not counted
out to streams: the goroutine of a stream that has ended may take one, and then the
goroutine of the open stream does not hear of the change.

* `reported_of_quiet`: if no goroutine of an ended stream takes a trigger, then the last
  status on the stream is the current one, whenever nothing is under way.
* `hung_iff`: the states from which the lock of the spec manager is never released again.
* `elections_hang`: there are such states, however large the channel of the triggers is.
-/

namespace CtrlMesh.GrpcClient

open Framework

variable {unmarshal : String → LabelSelector} {cap : Nat} {sm : SpecManager}
  {s s' : GrpcClient} {g : Sender} {e : Event} {es : List Event}

/-! ## Reports -/

theorem specManager_acquire {p p' : Proxy} {req : Request}
    (h : p.step unmarshal (.acquire req) = some p') : p'.specManager = p.specManager := by
  rw [Proxy.step] at h
  split at h
  · simp at h
  · obtain rfl := Option.some.inj h
    rfl

theorem getStatus_release {p p' : Proxy} {i : Nat} (h : p.step unmarshal (.release i) = some p') :
    p'.specManager.getStatus = p.specManager.getStatus := by
  rw [Proxy.step] at h
  split at h
  · simp at h
  · obtain rfl := Option.some.inj h
    rfl

/-- Nothing changes if the leader election state is the old one. -/
theorem proxy_updateLeaderElection {p p' : Proxy}
    (h : p.step unmarshal (.updateLeaderElection p.specManager.leaderElectionState) = some p') :
    p' = p := by
  rw [Proxy.step] at h
  split at h
  · exact (Option.some.inj h).symm
  · simp at h

theorem triggers_of_senderStep {ev : SenderEvent} {r : Sender × Nat} (hev : ev ≠ .takeTrigger)
    (hr : s.senderStep g ev = some r) : r.2 = s.triggers := by
  unfold senderStep at hr
  cases ev with
  | takeTrigger => exact absurd rfl hev
  | _ =>
    dsimp only at hr
    repeat' split at hr
    all_goals simp only [Option.some.injEq, reduceCtorEq] at hr
    all_goals rw [← hr]

/-- A trigger is in the channel, or going to be sent. -/
def Pending (s : GrpcClient) : Prop :=
  0 < s.triggers ∨ s.electing = true ∨ s.pc = .updating ∨ s.pc = .triggering

/-- The goroutine has sent the status, sends it, or is going to look at it. -/
def UpToDate (status : Option ProxyStatusV1) (g : Sender) : SenderPc → Prop
  | .checking => True
  | .sending st => status = some st
  | .waiting => ∀ st, status = some st → g.sent = st
  | .selecting => ∀ st, status = some st → g.sent = st

/-- `syncing` receives messages. -/
def streaming : ConnectPc → Bool
  | .receiving => true
  | .updating => true
  | .triggering => true
  | _ => false

structure ReportInv (s : GrpcClient) : Prop where
  streams {g : Sender} : s.sender = some g → streaming s.pc = true
  first {status : ProxyStatusV1} : s.pc = .sendingFirst status →
    s.Pending ∨ ∀ st, s.getStatus = some st → status = st
  /-- What a status is compared with is what was sent. -/
  prev {g : Sender} {status : ProxyStatusV1} : s.sender = some g →
    g.prevStatus = some status → g.sent = status
  informed {g : Sender} : s.sender = some g → g.failed = false →
    s.Pending ∨ UpToDate s.getStatus g g.pc

/-- The goroutine of an ended stream takes a trigger. -/
def Event.steals : Event → Bool
  | .stale _ .takeTrigger => true
  | _ => false

theorem ReportInv.of_pending (h : s.ReportInv) (hp : s'.Pending) (hsender : s'.sender = s.sender)
    (hpc : streaming s.pc = true → streaming s'.pc = true) : s'.ReportInv where
  streams hg := hpc (h.streams (hsender ▸ hg))
  first _ := .inl hp
  prev hg := h.prev (hsender ▸ hg)
  informed _ _ := .inl hp

/-- A step that has nothing to do with reports. -/
theorem ReportInv.congr (h : s.ReportInv) (hstatus : s'.getStatus = s.getStatus)
    (htriggers : s'.triggers = s.triggers) (helecting : s'.electing = s.electing)
    (hsender : s'.sender = s.sender) (hpc : s'.pc = s.pc) : s'.ReportInv where
  streams hg := by
    rw [hpc]
    exact h.streams (hsender ▸ hg)
  first hs := by
    rw [Pending, hstatus, htriggers, helecting, hpc]
    exact h.first (hpc ▸ hs)
  prev hg := h.prev (hsender ▸ hg)
  informed hg hok := by
    rw [Pending, hstatus, htriggers, helecting, hpc]
    exact h.informed (hsender ▸ hg) hok

/-- A step of the goroutine of the open stream. -/
theorem ReportInv.of_sender {g' : Sender} {n : Nat} (h : s.ReportInv) (hg : s.sender = some g)
    (hprev : ∀ status, g'.prevStatus = some status → g'.sent = status)
    (hinformed : g'.failed = false →
      { s with sender := some g', triggers := n : GrpcClient }.Pending ∨
        UpToDate s.getStatus g' g'.pc) :
    { s with sender := some g', triggers := n : GrpcClient }.ReportInv where
  streams _ := h.streams hg
  first hs := by
    have hpc := h.streams hg
    dsimp only at hs
    rw [hs] at hpc
    simp [streaming] at hpc
  prev hg' := by
    obtain rfl := Option.some.inj hg'
    exact hprev _
  informed hg' hok := by
    obtain rfl := Option.some.inj hg'
    exact hinformed hok

theorem ReportInv.senderStep (h : s.ReportInv) (hg : s.sender = some g) {ev : SenderEvent}
    {r : Sender × Nat} (hr : s.senderStep g ev = some r) :
    { s with sender := some r.1, triggers := r.2 : GrpcClient }.ReportInv := by
  have hprev : ∀ status, g.prevStatus = some status → g.sent = status := fun _ => h.prev hg
  have hinformed := h.informed hg
  unfold GrpcClient.senderStep at hr
  cases ev with
  | start =>
    dsimp only at hr
    split at hr
    · next hpc =>
      obtain rfl := Option.some.inj hr
      rw [hpc.1] at hinformed
      exact h.of_sender hg hprev hinformed
    · simp at hr
  | takeTrigger =>
    dsimp only at hr
    split at hr
    · obtain rfl := Option.some.inj hr
      exact h.of_sender hg hprev fun _ => .inr trivial
    · simp at hr
  | takeTimer =>
    dsimp only at hr
    split at hr
    · obtain rfl := Option.some.inj hr
      exact h.of_sender hg hprev fun _ => .inr trivial
    · simp at hr
  | fire =>
    dsimp only at hr
    split at hr
    · obtain rfl := Option.some.inj hr
      refine h.of_sender hg hprev fun hok => ?_
      obtain hp | hup := hinformed hok
      · exact .inl hp
      · right
        show UpToDate s.getStatus _ g.pc
        cases hpc : g.pc <;> rw [hpc] at hup <;> exact hup
    · simp at hr
  | getStatus =>
    dsimp only at hr
    split at hr
    swap
    · simp at hr
    split at hr
    · next hnone =>
      obtain rfl := Option.some.inj hr
      refine h.of_sender hg hprev fun _ => .inr fun st hst => ?_
      rw [hnone] at hst
      simp at hst
    · next status hst =>
      split at hr
      · next hsame =>
        -- it has been sent before
        obtain rfl := Option.some.inj hr
        refine h.of_sender hg hprev fun _ => .inr fun st hst' => ?_
        rw [← Option.some.inj (hst.symm.trans hst')]
        exact hprev status hsame
      · obtain rfl := Option.some.inj hr
        exact h.of_sender hg hprev fun _ => .inr hst
  | send ok =>
    dsimp only at hr
    split at hr
    swap
    · simp at hr
    next status hpc =>
    split at hr
    · obtain rfl := Option.some.inj hr
      refine h.of_sender hg (fun st hst => Option.some.inj hst) fun hok => ?_
      rw [hpc] at hinformed
      refine (hinformed hok).imp_right fun hst st hst' => ?_
      exact Option.some.inj (hst.symm.trans hst')
    · obtain rfl := Option.some.inj hr
      exact h.of_sender hg hprev fun hok => absurd hok (by simp)

theorem ReportInv.sender_eq_none (h : s.ReportInv) (hpc : streaming s.pc = false) :
    s.sender = none := by
  cases hg : s.sender with
  | none => rfl
  | some g => exact absurd (h.streams hg) (by simp [hpc])

theorem ReportInv.of_none (hnone : s.sender = none) (hfirst : ∀ status, s.pc = .sendingFirst status →
    s.Pending ∨ ∀ st, s.getStatus = some st → status = st) : s.ReportInv where
  streams hg := by simp [hnone] at hg
  first := hfirst _
  prev hg := by simp [hnone] at hg
  informed hg := by simp [hnone] at hg

theorem ReportInv.step (hsteals : e.steals = false) (h : s.ReportInv)
    (hs : step unmarshal cap s e = some s') : s'.ReportInv := by
  unfold GrpcClient.step at hs
  cases e with
  | informed managerState =>
    obtain rfl := Option.some.inj hs
    exact h.congr rfl rfl rfl rfl rfl
  | connect =>
    dsimp only at hs
    split at hs
    · next hpc _ =>
      obtain rfl := Option.some.inj hs
      exact .of_none (h.sender_eq_none (by rw [hpc]; rfl)) (by simp)
    · simp at hs
  | getFirstStatus =>
    dsimp only at hs
    split at hs
    · next hpc =>
      obtain rfl := Option.some.inj hs
      refine .of_none (h.sender_eq_none (by rw [hpc.1]; rfl)) fun status hfirst => .inr fun st hst => ?_
      have hst : s.getStatus = some st := hst
      rw [← ConnectPc.sendingFirst.inj hfirst, hst, Option.getD_some]
    · simp at hs
  | sendFirst ok =>
    dsimp only at hs
    split at hs
    swap
    · simp at hs
    next status hpc =>
    split at hs
    · obtain rfl := Option.some.inj hs
      refine ⟨fun _ => rfl, by simp, fun hg => ?_, fun hg _ => ?_⟩ <;>
        obtain rfl := Option.some.inj hg
      · simp
      · obtain hp | hst := h.first hpc
        · rw [Pending, hpc] at hp
          exact .inl (by simpa [Pending] using hp)
        · exact .inr hst
    · obtain rfl := Option.some.inj hs
      exact .of_none (h.sender_eq_none (by rw [hpc]; rfl)) (by simp)
  | recv spec =>
    dsimp only at hs
    split at hs
    swap
    · simp at hs
    next hpc =>
    split at hs
    · obtain rfl := Option.some.inj hs
      exact h.of_pending (.inr (.inr (.inr rfl))) rfl fun _ => rfl
    · obtain ⟨proxy, -, rfl⟩ := Option.map_eq_some_iff.mp hs
      exact h.of_pending (.inr (.inr (.inl rfl))) rfl fun _ => rfl
  | recvFails =>
    dsimp only at hs
    split at hs
    · obtain rfl := Option.some.inj hs
      exact .of_none rfl (by simp)
    · simp at hs
  | finishUpdate order =>
    dsimp only at hs
    split at hs
    · obtain ⟨proxy, -, rfl⟩ := Option.map_eq_some_iff.mp hs
      exact h.of_pending (.inr (.inr (.inr rfl))) rfl fun _ => rfl
    · simp at hs
  | trigger =>
    dsimp only at hs
    split at hs
    · obtain rfl := Option.some.inj hs
      exact h.of_pending (.inl (Nat.succ_pos _)) rfl fun _ => rfl
    · simp at hs
  | sender ev =>
    dsimp only at hs
    split at hs
    · simp at hs
    · next g hg =>
      obtain ⟨r, hr, rfl⟩ := Option.map_eq_some_iff.mp hs
      exact h.senderStep hg hr
  | stale i ev =>
    dsimp only at hs
    split at hs
    · simp at hs
    · obtain ⟨r, hr, rfl⟩ := Option.map_eq_some_iff.mp hs
      have hev : ev ≠ .takeTrigger := by
        rintro rfl
        simp [Event.steals] at hsteals
      exact h.congr rfl (triggers_of_senderStep hev hr) rfl rfl rfl
  | stop i =>
    dsimp only at hs
    split at hs
    · simp at hs
    · split at hs
      · obtain rfl := Option.some.inj hs
        exact h.congr rfl rfl rfl rfl rfl
      · simp at hs
  | updateLeaderElection le =>
    dsimp only at hs
    split at hs
    swap
    · simp at hs
    next hfree =>
    obtain ⟨proxy, hproxy, rfl⟩ := Option.map_eq_some_iff.mp hs
    by_cases hchanged : s.proxy.specManager.leaderElectionState = le
    · subst hchanged
      have helecting : s.electing = false := by
        have hlock := hfree.2
        rw [lockFree, Bool.and_eq_true, Bool.not_eq_true'] at hlock
        exact hlock.1
      exact h.congr (by rw [getStatus, proxy_updateLeaderElection hproxy]; rfl) rfl
        (by rw [helecting]; simp) rfl rfl
    · exact h.of_pending (.inr (.inl (decide_eq_true hchanged))) rfl id
  | triggerElection =>
    dsimp only at hs
    split at hs
    · obtain rfl := Option.some.inj hs
      exact h.of_pending (.inl (Nat.succ_pos _)) rfl id
    · simp at hs
  | acquire req =>
    dsimp only at hs
    split at hs
    · obtain ⟨proxy, hproxy, rfl⟩ := Option.map_eq_some_iff.mp hs
      exact h.congr (congrArg SpecManager.getStatus (specManager_acquire hproxy)) rfl rfl rfl rfl
    · simp at hs
  | release i =>
    obtain ⟨proxy, hproxy, rfl⟩ := Option.map_eq_some_iff.mp hs
    exact h.congr (getStatus_release hproxy) rfl rfl rfl rfl

/-- In every run in which no goroutine of an ended stream takes a trigger: when a stream is
open on which no `Send` has failed, `syncing` waits for a message, there is no trigger and
the goroutine of the stream waits, then the last status that was sent on the stream is the
current one. -/
theorem reported_of_quiet {status : ProxyStatusV1} (hes : ∀ e ∈ es, e.steals = false)
    (hrun : (system unmarshal cap sm).run es = some s) (hpc : s.pc = .receiving)
    (helecting : s.electing = false) (htriggers : s.triggers = 0) (hg : s.sender = some g)
    (hwaits : g.pc = .waiting ∨ g.pc = .selecting) (hok : g.failed = false)
    (hstatus : s.getStatus = some status) : g.sent = status := by
  have hinv := (system unmarshal cap sm).runFrom_invariant (fun he h hs => ReportInv.step he h hs)
    hes (s := (system unmarshal cap sm).init) (.of_none rfl (by simp [system])) hrun
  obtain hp | hup := hinv.informed hg hok
  · simp [Pending, hpc, helecting, htriggers] at hp
  · obtain hwaits | hwaits := hwaits <;> rw [hwaits] at hup <;> exact hup status hstatus

def sampleReportSpec : ProxySpecV1 := ⟨⟨"app", "h1"⟩, ⟨"", [], [], [], []⟩, []⟩

/-- A stream on which a first spec is received. -/
def sampleFirstSpec : List Event :=
  [.informed (some ⟨"", some [⟨"m", "10.0.0.1", true⟩], some ⟨8071, 8072⟩⟩), .connect,
    .getFirstStatus, .sendFirst true, .recv sampleReportSpec.msg, .finishUpdate .sorted, .trigger]

theorem sampleFirstSpec_reported : ∃ s g status,
    (system LabelSelector.ofJSON 1000 .start).run (sampleFirstSpec ++
      [.sender .start, .sender .takeTrigger, .sender .getStatus, .sender (.send true)]) = some s ∧
    s.sender = some g ∧ s.getStatus = some status ∧ g.sent = status := by
  obtain ⟨s, g, status, hrun, hpc, helecting, htriggers, hg, hwaits, hok, hstatus⟩ :
      ∃ s g status, (system LabelSelector.ofJSON 1000 .start).run (sampleFirstSpec ++
        [.sender .start, .sender .takeTrigger, .sender .getStatus, .sender (.send true)]) = some s ∧
      s.pc = .receiving ∧ s.electing = false ∧ s.triggers = 0 ∧ s.sender = some g ∧
      g.pc = .selecting ∧ g.failed = false ∧ s.getStatus = some status :=
    ⟨_, _, _, rfl, rfl, rfl, rfl, rfl, rfl, rfl, rfl⟩
  exact ⟨s, g, status, hrun, hg, hstatus, reported_of_quiet (by decide) hrun hpc helecting htriggers
    hg (.inr hwaits) hok hstatus⟩

/-- The goroutine of an ended stream takes the trigger of a change, which it cannot send. -/
example : ((system LabelSelector.ofJSON 1000 .start).run (sampleFirstSpec ++
    [.recvFails, .connect, .getFirstStatus, .sendFirst true, .sender .start, .sender .takeTrigger,
      .sender .getStatus, .sender (.send true), .updateLeaderElection (some ⟨"a", true⟩),
      .triggerElection, .stale 0 .start, .stale 0 .takeTrigger, .stale 0 .getStatus,
      .stale 0 (.send false), .stop 0])).map
      (fun s => (s.triggers, s.sender.map fun g => decide (some g.sent = s.getStatus))) =
    some (0, some false) := by
  rfl

/-! ## The lock -/

/-- A call of `UpdateLeaderElection` waits for room in the channel, with the lock, and all
goroutines that could make room wait for the lock. -/
structure Hung (cap : Nat) (s : GrpcClient) : Prop where
  electing : s.electing = true
  full : cap ≤ s.triggers
  not_first (status : ProxyStatusV1) : s.pc ≠ .sendingFirst status
  sender {g : Sender} : s.sender = some g → g.pc = .checking
  stale {g : Sender} : g ∈ s.stale → g.pc = .checking

/-- A goroutine that waits for the lock can do nothing but see its timer fire. -/
theorem senderStep_of_electing {ev : SenderEvent} {r : Sender × Nat} (helecting : s.electing = true)
    (hpc : g.pc = .checking) (hr : s.senderStep g ev = some r) :
    r.1.pc = .checking ∧ r.2 = s.triggers := by
  have hlock : s.lockFree = false := by simp [lockFree, helecting]
  unfold senderStep at hr
  cases ev with
  | fire =>
    dsimp only at hr
    split at hr
    · obtain rfl := Option.some.inj hr
      exact ⟨hpc, rfl⟩
    · simp at hr
  | _ => simp [hpc, hlock] at hr

theorem Hung.step (h : s.Hung cap) (hs : step unmarshal cap s e = some s') :
    s'.Hung cap ∧ s'.proxy.specManager.currentSpec = s.proxy.specManager.currentSpec := by
  have hlock : s.lockFree = false := by simp [lockFree, h.electing]
  have hfull := h.full
  unfold GrpcClient.step at hs
  cases e with
  | informed managerState =>
    obtain rfl := Option.some.inj hs
    exact ⟨⟨h.electing, h.full, h.not_first, h.sender, h.stale⟩, rfl⟩
  | connect =>
    dsimp only at hs
    split at hs
    · obtain rfl := Option.some.inj hs
      exact ⟨⟨h.electing, h.full, by simp, h.sender, h.stale⟩, rfl⟩
    · simp at hs
  | getFirstStatus => simp [hlock] at hs
  | sendFirst ok =>
    dsimp only at hs
    split at hs
    · next status hpc => exact absurd hpc (h.not_first status)
    · simp at hs
  | recv spec =>
    dsimp only at hs
    split at hs
    swap
    · simp at hs
    split at hs
    · obtain rfl := Option.some.inj hs
      exact ⟨⟨h.electing, h.full, by simp, h.sender, h.stale⟩, rfl⟩
    · obtain ⟨proxy, hproxy, rfl⟩ := Option.map_eq_some_iff.mp hs
      refine ⟨⟨h.electing, h.full, by simp, h.sender, h.stale⟩, ?_⟩
      rw [Proxy.step] at hproxy
      split at hproxy
      · simp at hproxy
      · obtain rfl := Option.some.inj hproxy
        rfl
  | recvFails =>
    dsimp only at hs
    split at hs
    · obtain rfl := Option.some.inj hs
      refine ⟨⟨h.electing, h.full, by simp, by simp, fun hg => ?_⟩, rfl⟩
      obtain hg | hg := List.mem_append.mp hg
      · exact h.stale hg
      · exact h.sender (Option.mem_toList.mp hg)
    · simp at hs
  | finishUpdate order => simp [hlock] at hs
  | trigger =>
    dsimp only at hs
    split at hs
    · omega
    · simp at hs
  | sender ev =>
    dsimp only at hs
    split at hs
    · simp at hs
    · next g hg =>
      obtain ⟨r, hr, rfl⟩ := Option.map_eq_some_iff.mp hs
      obtain ⟨hpc, htriggers⟩ := senderStep_of_electing h.electing (h.sender hg) hr
      refine ⟨⟨h.electing, ?_, h.not_first, fun hg' => ?_, h.stale⟩, rfl⟩
      · dsimp only
        omega
      · obtain rfl := Option.some.inj hg'
        exact hpc
  | stale i ev =>
    dsimp only at hs
    split at hs
    · simp at hs
    · next g hg =>
      obtain ⟨r, hr, rfl⟩ := Option.map_eq_some_iff.mp hs
      obtain ⟨hpc, htriggers⟩ :=
        senderStep_of_electing h.electing (h.stale (List.mem_of_getElem? hg)) hr
      refine ⟨⟨h.electing, ?_, h.not_first, h.sender, fun hg' => ?_⟩, rfl⟩
      · dsimp only
        omega
      · obtain hg' | rfl := List.mem_or_eq_of_mem_set hg'
        · exact h.stale hg'
        · exact hpc
  | stop i =>
    dsimp only at hs
    split at hs
    · simp at hs
    · next g hg =>
      rw [h.stale (List.mem_of_getElem? hg)] at hs
      simp at hs
  | updateLeaderElection le => simp [hlock] at hs
  | triggerElection =>
    dsimp only at hs
    split at hs
    · omega
    · simp at hs
  | acquire req => simp [h.electing] at hs
  | release i =>
    obtain ⟨proxy, hproxy, rfl⟩ := Option.map_eq_some_iff.mp hs
    refine ⟨⟨h.electing, h.full, h.not_first, h.sender, h.stale⟩, ?_⟩
    rw [Proxy.step] at hproxy
    split at hproxy
    · simp at hproxy
    · obtain rfl := Option.some.inj hproxy
      rfl

theorem Hung.run {es' : List Event} (h : s.Hung cap)
    (hrun : (system unmarshal cap sm).runFrom s es' = some s') :
    s'.Hung cap ∧ s'.proxy.specManager.currentSpec = s.proxy.specManager.currentSpec :=
  (system unmarshal cap sm).runFrom_invariant
    (I := fun u => u.Hung cap ∧ u.proxy.specManager.currentSpec = s.proxy.specManager.currentSpec)
    (fun {u e u'} (_ : True) hu hs => by
      obtain ⟨hhung, hspec⟩ := hu.1.step hs
      exact ⟨hhung, hspec.trans hu.2⟩)
    (fun _ _ => trivial) ⟨h, rfl⟩ hrun

structure ChannelInv (cap : Nat) (s : GrpcClient) : Prop where
  room : s.triggers ≤ cap
  /-- Handlers run once `Start` has returned. -/
  started : s.electing = true → s.initialized = true

theorem triggers_senderStep_le {ev : SenderEvent} {r : Sender × Nat}
    (hr : s.senderStep g ev = some r) : r.2 ≤ s.triggers := by
  by_cases hev : ev = .takeTrigger
  · subst hev
    rw [senderStep] at hr
    split at hr
    · obtain rfl := Option.some.inj hr
      exact Nat.sub_le _ _
    · simp at hr
  · exact (triggers_of_senderStep hev hr).le

theorem ChannelInv.step (h : s.ChannelInv cap) (hs : step unmarshal cap s e = some s') :
    s'.ChannelInv cap := by
  have hroom := h.room
  have hstarted := h.started
  unfold GrpcClient.step at hs
  cases e with
  | sender ev =>
    dsimp only at hs
    split at hs
    · simp at hs
    · obtain ⟨r, hr, rfl⟩ := Option.map_eq_some_iff.mp hs
      exact ⟨(triggers_senderStep_le hr).trans hroom, hstarted⟩
  | stale i ev =>
    dsimp only at hs
    split at hs
    · simp at hs
    · obtain ⟨r, hr, rfl⟩ := Option.map_eq_some_iff.mp hs
      exact ⟨(triggers_senderStep_le hr).trans hroom, hstarted⟩
  | trigger =>
    dsimp only at hs
    split at hs
    · next hpc =>
      obtain rfl := Option.some.inj hs
      exact ⟨hpc.2, hstarted⟩
    · simp at hs
  | triggerElection =>
    dsimp only at hs
    split at hs
    · next hpc =>
      obtain rfl := Option.some.inj hs
      exact ⟨hpc.2, by simp⟩
    · simp at hs
  | updateLeaderElection le =>
    dsimp only at hs
    split at hs
    · next hfree =>
      obtain ⟨proxy, -, rfl⟩ := Option.map_eq_some_iff.mp hs
      exact ⟨hroom, fun _ => hfree.1⟩
    · simp at hs
  | _ =>
    dsimp only at hs
    repeat' split at hs
    all_goals first
      | (obtain rfl := Option.some.inj hs; exact ⟨hroom, fun hel => by first | rfl | exact hstarted hel⟩)
      | (obtain ⟨proxy, -, rfl⟩ := Option.map_eq_some_iff.mp hs; exact ⟨hroom, fun hel => by first | rfl | exact hstarted hel⟩)
      | simp at hs

/-- A goroutine that does not wait for the lock comes to its `select`. -/
theorem exists_selecting (hinit : s.initialized = true) (hpc : g.pc ≠ .checking) :
    g.pc = .selecting ∨
      ∃ ev g', s.senderStep g ev = some (g', s.triggers) ∧ g'.pc = .selecting := by
  cases hg : g.pc with
  | waiting => exact .inr ⟨.start, { g with pc := .selecting, armed := true }, by simp [senderStep, hg, hinit], rfl⟩
  | selecting => exact .inl rfl
  | checking => exact absurd hg hpc
  | sending status =>
    exact .inr ⟨.send false, { g with pc := .selecting, failed := true }, by simp [senderStep, hg], rfl⟩

theorem reaches_step {s₁ : GrpcClient} (hs : step unmarshal cap s e = some s₁)
    (h : (system unmarshal cap sm).Reaches s₁ s') : (system unmarshal cap sm).Reaches s s' :=
  .head (e := e) hs h

/-- Some run from the state releases the lock. -/
def Releases (unmarshal : String → LabelSelector) (cap : Nat) (sm : SpecManager)
    (s : GrpcClient) : Prop :=
  ∃ s', (system unmarshal cap sm).Reaches s s' ∧ s'.electing = false

theorem Releases.head (h : Releases unmarshal cap sm s') (hs : step unmarshal cap s e = some s') :
    Releases unmarshal cap sm s := by
  obtain ⟨s₂, hreaches, helecting⟩ := h
  exact ⟨s₂, reaches_step hs hreaches, helecting⟩

theorem releases_of_room (hroom : s.triggers < cap) : Releases unmarshal cap sm s := by
  by_cases helecting : s.electing = true
  · have hs : step unmarshal cap s .triggerElection =
        some { s with electing := false, triggers := s.triggers + 1 } := by
      rw [GrpcClient.step, if_pos ⟨helecting, hroom⟩]
    exact ⟨_, reaches_step hs (.refl _), rfl⟩
  · exact ⟨s, .refl s, by simpa using helecting⟩

/-- The goroutine of the open stream, or one of an ended stream. -/
def goroutine (s : GrpcClient) : Option Nat → Option Sender
  | none => s.sender
  | some i => s.stale[i]?

/-- A step of a goroutine is a step of the client. -/
theorem exists_step_goroutine {k : Option Nat} {ev : SenderEvent} {r : Sender × Nat}
    (hg : s.goroutine k = some g) (hr : s.senderStep g ev = some r) :
    ∃ e s', step unmarshal cap s e = some s' ∧ s'.goroutine k = some r.1 ∧ s'.triggers = r.2 := by
  cases k with
  | none =>
    have hg : s.sender = some g := hg
    refine ⟨.sender ev, { s with sender := some r.1, triggers := r.2 }, ?_, rfl, rfl⟩
    rw [GrpcClient.step, hg]
    dsimp only
    rw [hr]
    rfl
  | some i =>
    have hg : s.stale[i]? = some g := hg
    have hlt : i < s.stale.length := (List.getElem?_eq_some_iff.mp hg).1
    refine ⟨.stale i ev, { s with stale := s.stale.set i r.1, triggers := r.2 }, ?_, ?_, rfl⟩
    · rw [GrpcClient.step, hg]
      dsimp only
      rw [hr]
      rfl
    · show (s.stale.set i r.1)[i]? = some r.1
      rw [List.getElem?_set_self hlt]

theorem releases_of_selecting {k : Option Nat} (hcap : 0 < cap) (hroom : s.triggers ≤ cap)
    (hg : s.goroutine k = some g) (hpc : g.pc = .selecting) : Releases unmarshal cap sm s := by
  by_cases hempty : s.triggers = 0
  · exact releases_of_room (by omega)
  · have htake : s.senderStep g .takeTrigger =
        some ({ g with pc := .checking, armed := false }, s.triggers - 1) := by
      rw [senderStep, if_pos ⟨hpc, by omega⟩]
    obtain ⟨e, s', hs, -, htriggers⟩ := exists_step_goroutine hg htake
    exact Releases.head (releases_of_room (by omega)) hs

theorem releases_of_goroutine {k : Option Nat} (hcap : 0 < cap) (hroom : s.triggers ≤ cap)
    (hinit : s.initialized = true) (hg : s.goroutine k = some g) (hpc : g.pc ≠ .checking) :
    Releases unmarshal cap sm s := by
  obtain hselecting | ⟨ev, g', hev, hselecting⟩ := exists_selecting hinit hpc
  · exact releases_of_selecting hcap hroom hg hselecting
  · obtain ⟨e, s', hs, hg', htriggers⟩ := exists_step_goroutine hg hev
    have hroom' : s'.triggers ≤ cap := htriggers ▸ hroom
    exact Releases.head (releases_of_selecting hcap hroom' hg' hselecting) hs

/-- In every reachable state: the lock is never released again exactly if the state is
hung, and then no spec is loaded any more. -/
theorem hung_iff (hcap : 0 < cap) (hrun : (system unmarshal cap sm).run es = some s) :
    s.Hung cap ↔ ∀ es' s', (system unmarshal cap sm).runFrom s es' = some s' →
      s'.electing = true ∧
        s'.proxy.specManager.currentSpec = s.proxy.specManager.currentSpec := by
  refine ⟨fun h es' s' hrun' => ?_, fun h => ?_⟩
  · obtain ⟨hhung, hspec⟩ := h.run hrun'
    exact ⟨hhung.electing, hspec⟩
  · have hinv := (system unmarshal cap sm).runFrom_invariant
      (fun {u e u'} (_ : True) hu hs => ChannelInv.step hu hs) (fun _ _ => trivial)
      (s := (system unmarshal cap sm).init) ⟨Nat.zero_le _, by simp [system]⟩ hrun
    have hnot : ¬ Releases unmarshal cap sm s := by
      rintro ⟨s', ⟨es', hrun'⟩, helecting⟩
      rw [(h es' s' hrun').1] at helecting
      simp at helecting
    have helecting : s.electing = true := (h [] s rfl).1
    have hinit := hinv.started helecting
    refine ⟨helecting, ?_, fun status hpc => ?_, fun {g} hg => ?_, fun {g} hg => ?_⟩
    · by_contra hlt
      exact hnot (releases_of_room (by omega))
    · have hs : step unmarshal cap s (.sendFirst true) =
          some { s with pc := .receiving, sender := some { sent := status } } := by
        rw [GrpcClient.step, hpc]
        rfl
      have hreleases : Releases unmarshal cap sm
          { s with pc := .receiving, sender := some { sent := status } } :=
        releases_of_goroutine (k := none) (g := { sent := status }) hcap hinv.room hinit rfl (by simp)
      exact hnot (hreleases.head hs)
    · by_contra hpc
      exact hnot (releases_of_goroutine (k := none) hcap hinv.room hinit hg hpc)
    · by_contra hpc
      obtain ⟨i, hi⟩ := List.getElem?_of_mem hg
      exact hnot (releases_of_goroutine (k := some i) hcap hinv.room hinit hi hpc)

/-- A channel for one trigger, which is not taken, and a change of the leader. -/
theorem sampleFirstSpec_hung : ∃ s,
    (system LabelSelector.ofJSON 1 .start).run (sampleFirstSpec ++
      [.recvFails, .stale 0 .start, .stop 0, .updateLeaderElection (some ⟨"a", true⟩)]) = some s ∧
    ∀ es' s', (system LabelSelector.ofJSON 1 .start).runFrom s es' = some s' → s'.electing = true := by
  obtain ⟨s, hrun, helecting, htriggers, hpc, hsender, hstale⟩ :
      ∃ s, (system LabelSelector.ofJSON 1 .start).run (sampleFirstSpec ++
        [.recvFails, .stale 0 .start, .stop 0, .updateLeaderElection (some ⟨"a", true⟩)]) = some s ∧
      s.electing = true ∧ s.triggers = 1 ∧ s.pc = .connecting ∧ s.sender = none ∧ s.stale = [] :=
    ⟨_, rfl, rfl, rfl, rfl, rfl, rfl⟩
  have hhung : s.Hung 1 :=
    ⟨helecting, htriggers.ge, by simp [hpc], by simp [hsender], by simp [hstale]⟩
  exact ⟨s, hrun, fun es' s' hrun' => ((hung_iff (by decide) hrun).mp hhung es' s' hrun').1⟩

/-! ## Hung states are reachable -/

/-- A client without goroutines, whose connection is down. -/
structure Down (n : Nat) (s : GrpcClient) : Prop where
  triggers : s.triggers = n
  electing : s.electing = false
  initialized : s.initialized = true
  readers : s.proxy.readers = []
  pc : s.pc = .connecting
  sender : s.sender = none
  stale : s.stale = []

/-- Another manager becomes the leader, of two. -/
def otherElection (le : Option LeaderElectionStateV1) : Option LeaderElectionStateV1 :=
  if le = some ⟨"a", true⟩ then some ⟨"b", true⟩ else some ⟨"a", true⟩

theorem ne_otherElection (le : Option LeaderElectionStateV1) : le ≠ otherElection le := by
  unfold otherElection
  split
  · next h =>
    rw [h]
    decide
  · assumption

/-- A change of the leader takes the lock. -/
theorem Down.elect (unmarshal : String → LabelSelector) (cap : Nat) {n : Nat} (h : Down n s) :
    ∃ proxy : Proxy, proxy.readers = [] ∧
    step unmarshal cap s
      (.updateLeaderElection (otherElection s.proxy.specManager.leaderElectionState)) =
      some { s with proxy, electing := true } := by
  have hlock : s.lockFree = true := by simp [lockFree, h.electing, h.readers]
  obtain ⟨proxy, hproxy⟩ : ∃ proxy, proxy = { s.proxy with
      specManager := s.proxy.specManager.updateLeaderElection
        (otherElection s.proxy.specManager.leaderElectionState) } := ⟨_, rfl⟩
  refine ⟨proxy, by rw [hproxy]; exact h.readers, ?_⟩
  rw [GrpcClient.step, if_pos ⟨h.initialized, hlock⟩, Proxy.step, if_pos (by rw [h.readers]; rfl)]
  simp [ne_otherElection, hproxy]

/-- While the connection is down, every change of the leader leaves a trigger. -/
theorem exists_down {n k : Nat} (h : Down n s) (hroom : n + k ≤ cap) :
    ∃ s', (system unmarshal cap sm).Reaches s s' ∧ Down (n + k) s' := by
  induction k generalizing n s with
  | zero => exact ⟨s, .refl s, h⟩
  | succ k ih =>
    obtain ⟨proxy, hreaders, hs⟩ := h.elect unmarshal cap
    have hlt : s.triggers < cap := by
      have hn := h.triggers
      omega
    have hs' : step unmarshal cap { s with proxy, electing := true } .triggerElection =
        some { s with proxy, electing := false, triggers := s.triggers + 1 } := by
      rw [GrpcClient.step, if_pos ⟨rfl, hlt⟩]
    have hdown : Down (n + 1) { s with proxy, electing := false, triggers := s.triggers + 1 } :=
      ⟨by rw [← h.triggers], rfl, h.initialized, hreaders, h.pc, h.sender, h.stale⟩
    obtain ⟨s', hreaches, hdown'⟩ := ih hdown (by omega)
    refine ⟨s', reaches_step hs (reaches_step hs' hreaches), ?_⟩
    rwa [Nat.add_right_comm] at hdown'

/-- A stream that receives one spec and ends. -/
theorem exists_down_one (hcap : 0 < cap) :
    ∃ s, (system unmarshal cap sm).Reaches (system unmarshal cap sm).init s ∧ Down 1 s := by
  obtain ⟨s, hrun, hpc, htriggers, helecting, hinit, hreaders, hsender, hstale⟩ :
      ∃ s, (system unmarshal cap sm).run [
        .informed (some ⟨"", some [⟨"", "", true⟩], some ⟨1, 0⟩⟩), .connect, .getFirstStatus,
        .sendFirst true, .recv sampleReportSpec.msg, .finishUpdate .sorted] = some s ∧
      s.pc = .triggering ∧
      s.triggers = 0 ∧ s.electing = false ∧ s.initialized = true ∧ s.proxy.readers = [] ∧
      (∃ status, s.sender = some { sent := status }) ∧ s.stale = [] :=
    ⟨_, rfl, rfl, rfl, rfl, rfl, rfl, ⟨_, rfl⟩, rfl⟩
  obtain ⟨status, hsender⟩ := hsender
  have htrigger : step unmarshal cap s .trigger = some { s with pc := .receiving, triggers := 1 } := by
    rw [GrpcClient.step, if_pos ⟨hpc, by omega⟩, htriggers]
  have hafter : ∃ s', (system unmarshal cap sm).runFrom { s with pc := .receiving, triggers := 1 }
      [.recvFails, .stale 0 .start, .stop 0] = some s' ∧ Down 1 s' := by
    obtain ⟨proxy, _, _, _, _, _, _, _⟩ := s
    dsimp only at helecting hinit hreaders hsender hstale
    subst helecting hinit hsender hstale
    exact ⟨_, rfl, rfl, rfl, rfl, hreaders, rfl, rfl, rfl⟩
  obtain ⟨s', hrun', hdown⟩ := hafter
  exact ⟨s', .trans ⟨_, hrun⟩ (reaches_step htrigger ⟨_, hrun'⟩), hdown⟩

/-- Whatever the capacity of the channel and the specs the proxy starts with: with the
connection down, enough changes of the leader lead to a state from which on no lock is released
and no spec loaded. -/
theorem elections_hang (hcap : 0 < cap) :
    ∃ s, (system unmarshal cap sm).Reaches (system unmarshal cap sm).init s ∧
      ∀ es' s', (system unmarshal cap sm).runFrom s es' = some s' → s'.electing = true ∧
        s'.proxy.specManager.currentSpec = s.proxy.specManager.currentSpec := by
  have hone : ∃ s, (system unmarshal cap sm).Reaches (system unmarshal cap sm).init s ∧ Down 1 s :=
    exists_down_one hcap
  obtain ⟨s₁, hreaches₁, hdown₁⟩ := hone
  have hfull : ∃ s, (system unmarshal cap sm).Reaches s₁ s ∧ Down (1 + (cap - 1)) s :=
    exists_down hdown₁ (by omega)
  obtain ⟨s₂, hreaches₂, hdown₂⟩ := hfull
  obtain ⟨proxy, -, hs⟩ := hdown₂.elect unmarshal cap
  have htriggers := hdown₂.triggers
  have hhung : Hung cap { s₂ with proxy, electing := true } := by
    refine ⟨rfl, ?_, by simp [hdown₂.pc], by simp [hdown₂.sender], by simp [hdown₂.stale]⟩
    dsimp only
    omega
  refine ⟨_, hreaches₁.trans (hreaches₂.trans (reaches_step hs (.refl _))), fun es' s' hrun' => ?_⟩
  obtain ⟨hhung', hspec⟩ := hhung.run hrun'
  exact ⟨hhung'.electing, hspec⟩

theorem elections_hang_cap : ∃ s, (system LabelSelector.ofJSON reportTriggerCap .start).Reaches
      (system LabelSelector.ofJSON reportTriggerCap .start).init s ∧
    ∀ es' s', (system LabelSelector.ofJSON reportTriggerCap .start).runFrom s es' = some s' →
      s'.electing = true := by
  have hcap : 0 < reportTriggerCap := by decide
  obtain ⟨s, hreaches, h⟩ := elections_hang hcap
  exact ⟨s, hreaches, fun es' s' hrun' => (h es' s' hrun').1⟩

end CtrlMesh.GrpcClient
