import ControllerMesh.Proof.WebhookController

/-!
# No edit of a webhook configuration is lost

A `sync` sends back what it has read, with some fields set. It names the version that it has
read, so it replaces nothing else: apart from the fields that `sync` sets, a configuration is
always as it was last edited (`target_of_run`).
-/

namespace CtrlMesh

open Framework

/-- Where a webhook is called, apart from what `sync` sets: the URL and the path at the service,
or with a host the URL that the path becomes. -/
def WebhookEnv.target (env : WebhookEnv) (config : WebhookClientConfig) :
    Option String × Option (Option String) :=
  if env.host.isEmpty then (config.url, config.service.map (·.path))
  else
    match config.service with
    | none => (config.url, none)
    | some service =>
      (service.path.map fun path => "https://" ++ env.host ++ ":" ++ toString env.port ++ path, none)

section webhooks

variable {env : WebhookEnv} {caBundle : Option (List UInt8)} {config config' : WebhookClientConfig}
  {webhooks new : Webhooks}

theorem target_readBack : env.target config.readBack = env.target config := rfl

theorem map_target_readBack :
    (webhooks.map (·.readBack)).map env.target = webhooks.map env.target := by
  rw [List.map_map]
  exact List.map_congr_left fun config _ => target_readBack

theorem target_ensureWebhook (h : env.ensureWebhook caBundle config = some config') :
    env.target config' = env.target config := by
  unfold WebhookEnv.ensureWebhook at h
  split at h
  · next hnone =>
    obtain rfl := Option.some.inj h
    simp only [WebhookEnv.target, hnone]
  · next service hservice =>
    dsimp only at h
    split at h
    · next hhost =>
      obtain rfl := Option.some.inj h
      simp only [WebhookEnv.target, hhost, hservice, if_true, Option.map_some]
    · next hhost =>
      obtain ⟨path, hpath, rfl⟩ := Option.map_eq_some_iff.mp h
      dsimp only at hpath
      simp [WebhookEnv.target, hhost, hservice, hpath]

theorem target_ensureWebhooks (h : env.ensureWebhooks caBundle webhooks = some new) :
    new.map env.target = webhooks.map env.target := by
  unfold WebhookEnv.ensureWebhooks at h
  induction webhooks generalizing new with
  | nil =>
    obtain rfl := Option.some.inj h
    rfl
  | cons config webhooks ih =>
    rw [List.mapM_cons] at h
    obtain ⟨config', hconfig, h⟩ := Option.bind_eq_some_iff.mp h
    obtain ⟨rest, hrest, h⟩ := Option.bind_eq_some_iff.mp h
    obtain rfl := Option.some.inj h
    rw [List.map_cons, List.map_cons, target_ensureWebhook hconfig, ih hrest]

end webhooks

namespace WebhookController

variable {lib : CertLib} {env : WebhookEnv} {s s' : WebhookController} {pc pc' : Sync} {e : Event}
  {es : List Event} {store store' : ObjectStore Webhooks} {answer : Answer}
  {seen : Versioned Webhooks} {new : Webhooks}

/-- A configuration that was read, and what it is to be. -/
def SentBack (env : WebhookEnv) (store : ObjectStore Webhooks) (seen : Versioned Webhooks)
    (new : Webhooks) : Prop :=
  seen ∈ store.history ∧ new.map env.target = seen.value.map env.target

/-- What a call has read has been stored. -/
def SeenInv (env : WebhookEnv) (s : WebhookController) : Sync → Prop
  | .gettingValidating _ mutating => mutating ∈ s.mutating.history
  | .updatingMutating mutating validating newMutating newValidating =>
    SentBack env s.mutating mutating newMutating ∧
      SentBack env s.validating validating newValidating
  | .updatingValidating validating newValidating =>
    SentBack env s.validating validating newValidating
  | _ => True

structure EditInv (env : WebhookEnv) (s : WebhookController) : Prop where
  mutating : s.mutating.Inv
  validating : s.validating.Inv
  seen {pc : Sync} : pc ∈ s.syncs → SeenInv env s pc

/-- The targets of the webhooks that are stored. -/
def targets (env : WebhookEnv) (store : ObjectStore Webhooks) :
    Option (List (Option String × Option (Option String))) :=
  store.object.map fun o => o.value.map env.target

/-- A request that keeps the targets and what has been stored. -/
structure Keeps (env : WebhookEnv) (store store' : ObjectStore Webhooks) : Prop where
  inv : store.Inv → store'.Inv
  history {o : Versioned Webhooks} : o ∈ store.history → o ∈ store'.history
  targets : targets env store' = targets env store

theorem Keeps.refl : Keeps env store store := ⟨id, id, rfl⟩

theorem update_keeps {err : Option ApiError} (hinv : store.Inv) (hfresh : store.Fresh answer.version)
    (hseen : SentBack env store seen new) (h : update store answer seen new = (err, store')) :
    Keeps env store store' := by
  obtain hok | ⟨rfl, -⟩ := ObjectStore.send_cases _ h
  · -- it has replaced what it had read
    obtain ⟨hobject, rfl⟩ := ObjectStore.update_eq_ok hinv hseen.1 hok
    refine ⟨fun h => h.put hfresh, fun ho => List.mem_cons_of_mem _ ho, ?_⟩
    rw [WebhookController.targets, WebhookController.targets, hobject]
    simp only [ObjectStore.put, Option.map_some, map_target_readBack, hseen.2]
  · exact .refl

/-- What has been read stays known. -/
theorem SeenInv.mono (h : SeenInv env s pc)
    (hm : ∀ {o}, o ∈ s.mutating.history → o ∈ s'.mutating.history)
    (hv : ∀ {o}, o ∈ s.validating.history → o ∈ s'.validating.history) : SeenInv env s' pc := by
  cases pc with
  | gettingValidating ca mutating => exact hm h
  | updatingMutating mutating validating newMutating newValidating =>
    exact ⟨⟨hm h.1.1, h.1.2⟩, hv h.2.1, h.2.2⟩
  | updatingValidating validating newValidating => exact ⟨hv h.1, h.2⟩
  | ensuring => trivial
  | writing certs => trivial
  | gettingMutating ca => trivial
  | returned err => trivial
  | panicked => trivial

theorem afterMutating_seen {validating : Versioned Webhooks} {newValidating : Webhooks}
    (h : SentBack env s.validating validating newValidating) :
    SeenInv env s (.afterMutating validating newValidating) := by
  rw [Sync.afterMutating]
  split
  · exact h
  · trivial

theorem ensureConfigurations_seen {caBundle : Option (List UInt8)}
    {mutating validating : Versioned Webhooks} (hm : mutating ∈ s.mutating.history)
    (hv : validating ∈ s.validating.history) :
    SeenInv env s (.ensureConfigurations env caBundle mutating validating) := by
  rw [Sync.ensureConfigurations]
  split
  · next newMutating newValidating hmutating hvalidating =>
    split
    · exact ⟨⟨hm, target_ensureWebhooks hmutating⟩, hv, target_ensureWebhooks hvalidating⟩
    · exact afterMutating_seen ⟨hv, target_ensureWebhooks hvalidating⟩
  · trivial

theorem mem_history_of_get (hinv : store.Inv) {o : Versioned Webhooks}
    (h : get store answer = some o) : o ∈ store.history := by
  unfold get at h
  split at h
  · simp at h
  · exact hinv.current o h

theorem configure_keeps {mutating' validating' : ObjectStore Webhooks} {syncs : List Sync}
    (h : s.EditInv env) (hpc : SeenInv env s pc)
    (hr : configure env s answer pc = some (pc', mutating', validating')) :
    Keeps env s.mutating mutating' ∧ Keeps env s.validating validating' ∧
      SeenInv env ⟨s.managers, mutating', validating', syncs⟩ pc' := by
  unfold configure at hr
  cases pc with
  | gettingMutating ca =>
    dsimp only at hr
    split at hr <;> simp only [Option.some.injEq, Prod.mk.injEq] at hr <;>
      obtain ⟨rfl, rfl, rfl⟩ := hr
    · exact ⟨.refl, .refl, trivial⟩
    · next hget => exact ⟨.refl, .refl, mem_history_of_get h.mutating hget⟩
  | gettingValidating ca mutating =>
    dsimp only at hr
    split at hr <;> simp only [Option.some.injEq, Prod.mk.injEq] at hr <;>
      obtain ⟨rfl, rfl, rfl⟩ := hr
    · exact ⟨.refl, .refl, trivial⟩
    · next hget =>
      exact ⟨.refl, .refl, ensureConfigurations_seen hpc (mem_history_of_get h.validating hget)⟩
  | updatingMutating mutating validating newMutating newValidating =>
    dsimp only at hr
    split at hr
    swap
    · simp at hr
    next hfresh =>
    split at hr <;> simp only [Option.some.injEq, Prod.mk.injEq] at hr <;>
      obtain ⟨rfl, rfl, rfl⟩ := hr
    · next hupdate =>
      exact ⟨update_keeps h.mutating hfresh hpc.1 hupdate, .refl, afterMutating_seen hpc.2⟩
    · next hupdate => exact ⟨update_keeps h.mutating hfresh hpc.1 hupdate, .refl, trivial⟩
  | updatingValidating validating newValidating =>
    dsimp only at hr
    split at hr
    swap
    · simp at hr
    next hfresh =>
    split at hr <;> simp only [Option.some.injEq, Prod.mk.injEq] at hr <;>
      obtain ⟨rfl, rfl, rfl⟩ := hr
    · next hupdate => exact ⟨.refl, update_keeps h.validating hfresh hpc hupdate, trivial⟩
    · next hupdate => exact ⟨.refl, update_keeps h.validating hfresh hpc hupdate, trivial⟩
  | ensuring => simp at hr
  | writing certs => simp at hr
  | returned err => simp at hr
  | panicked => simp at hr

/-! ## Runs -/

/-- The configurations by their kind. -/
def configuration (s : WebhookController) : ConfigKind → ObjectStore Webhooks
  | .mutating => s.mutating
  | .validating => s.validating

/-- What an event leaves of a configuration, apart from what `sync` sets. -/
def Event.edited (kind : ConfigKind) (webhooks : Option Webhooks) : Event → Option Webhooks
  | .edit kind' new _ => if kind' = kind then some new else webhooks
  | _ => webhooks

/-- A step that keeps both configurations, and in which a call may go on. -/
theorem EditInv.of_keeps (h : s.EditInv env) (hm : Keeps env s.mutating s'.mutating)
    (hv : Keeps env s.validating s'.validating)
    (hsyncs : ∀ pc ∈ s'.syncs, pc ∈ s.syncs ∨ SeenInv env s' pc) :
    s'.EditInv env ∧
      ∀ kind, targets env (s'.configuration kind) = targets env (s.configuration kind) := by
  refine ⟨⟨hm.inv h.mutating, hv.inv h.validating, fun {pc} hpc => ?_⟩, fun kind => ?_⟩
  · exact (hsyncs pc hpc).elim (fun hpc => (h.seen hpc).mono hm.history hv.history) id
  · cases kind
    · exact hm.targets
    · exact hv.targets

/-- An edit of one configuration. -/
theorem EditInv.edit (h : s.EditInv env) {kind : ConfigKind} {webhooks : Webhooks} {version : String}
    (hs : step lib env s (.edit kind webhooks version) = some s') :
    s'.EditInv env ∧ targets env (s'.configuration kind) = some (webhooks.map env.target) ∧
      ∀ kind', kind ≠ kind' → s'.configuration kind' = s.configuration kind' := by
  have hput : ∀ {store : ObjectStore Webhooks},
      targets env (store.put ⟨webhooks.map (·.readBack), version⟩) = some (webhooks.map env.target) := by
    intro store
    rw [targets, ObjectStore.put, Option.map_some, map_target_readBack]
  cases kind with
  | mutating =>
    rw [WebhookController.step] at hs
    split at hs
    swap
    · simp at hs
    next hfresh =>
    obtain rfl := Option.some.inj hs
    refine ⟨⟨h.mutating.put hfresh, h.validating, fun {pc} hpc => ?_⟩, hput, fun kind' hkind => ?_⟩
    · exact (h.seen hpc).mono (fun ho => List.mem_cons_of_mem _ ho) id
    · cases kind'
      · exact absurd rfl hkind
      · rfl
  | validating =>
    rw [WebhookController.step] at hs
    split at hs
    swap
    · simp at hs
    next hfresh =>
    obtain rfl := Option.some.inj hs
    refine ⟨⟨h.mutating, h.validating.put hfresh, fun {pc} hpc => ?_⟩, hput, fun kind' hkind => ?_⟩
    · exact (h.seen hpc).mono id fun ho => List.mem_cons_of_mem _ ho
    · cases kind'
      · rfl
      · exact absurd rfl hkind

theorem EditInv.step (h : s.EditInv env) (hs : step lib env s e = some s') :
    s'.EditInv env ∧ ∀ kind webhooks,
      targets env (s.configuration kind) = webhooks.map (·.map env.target) →
      targets env (s'.configuration kind) = (e.edited kind webhooks).map (·.map env.target) := by
  -- all but edits keep both configurations
  have hkept : (∀ kind webhooks, e.edited kind webhooks = webhooks) →
      (∀ pc ∈ s'.syncs, pc ∈ s.syncs ∨ SeenInv env s' pc) → Keeps env s.mutating s'.mutating →
      Keeps env s.validating s'.validating → s'.EditInv env ∧ ∀ kind webhooks,
        targets env (s.configuration kind) = webhooks.map (·.map env.target) →
        targets env (s'.configuration kind) = (e.edited kind webhooks).map (·.map env.target) := by
    intro he hsyncs hm hv
    obtain ⟨hinv, htargets⟩ := h.of_keeps hm hv hsyncs
    refine ⟨hinv, fun kind webhooks hwebhooks => ?_⟩
    rw [he, htargets kind, hwebhooks]
  have hset {i : Nat} {pc' : Sync} (hpc' : SeenInv env s' pc') :
      ∀ pc ∈ s.syncs.set i pc', pc ∈ s.syncs ∨ SeenInv env s' pc := by
    intro pc hpc
    obtain hpc | rfl := List.mem_or_eq_of_mem_set hpc
    · exact .inl hpc
    · exact .inr hpc'
  cases e with
  | sync =>
    rw [WebhookController.step] at hs
    obtain ⟨managers, -, rfl⟩ := Option.map_eq_some_iff.mp hs
    refine hkept (fun _ _ => rfl) (fun pc hpc => ?_) .refl .refl
    obtain hpc | hpc := List.mem_append.mp hpc
    · exact .inl hpc
    · obtain rfl := List.mem_singleton.mp hpc
      exact .inr trivial
  | ensureCert i answer =>
    rw [WebhookController.step] at hs
    split at hs
    swap
    · simp at hs
    obtain ⟨managers, -, rfl⟩ := Option.map_eq_some_iff.mp hs
    exact hkept (fun _ _ => rfl) (fun pc hpc => .inl hpc) .refl .refl
  | ensured i =>
    rw [WebhookController.step] at hs
    split at hs
    swap
    · simp at hs
    split at hs
    · obtain rfl := Option.some.inj hs
      exact hkept (fun _ _ => rfl) (hset trivial) .refl .refl
    · obtain rfl := Option.some.inj hs
      exact hkept (fun _ _ => rfl) (hset trivial) .refl .refl
    · simp at hs
  | writeCerts i failure =>
    unfold WebhookController.step at hs
    dsimp only at hs
    split at hs
    · obtain rfl := Option.some.inj hs
      exact hkept (fun _ _ => rfl) (hset trivial) .refl .refl
    · obtain rfl := Option.some.inj hs
      exact hkept (fun _ _ => rfl) (hset trivial) .refl .refl
    · simp at hs
  | request i answer =>
    rw [WebhookController.step] at hs
    split at hs
    · simp at hs
    next pc hi =>
    obtain ⟨⟨pc', mutating', validating'⟩, hr, rfl⟩ := Option.map_eq_some_iff.mp hs
    obtain ⟨hm, hv, hpc'⟩ := configure_keeps h (h.seen (List.mem_of_getElem? hi)) hr
    exact hkept (fun _ _ => rfl) (hset hpc') hm hv
  | edit kind webhooks version =>
    obtain ⟨hinv, hedited, hother⟩ := h.edit hs
    refine ⟨hinv, fun kind' old hold => ?_⟩
    by_cases hkind : kind = kind'
    · subst hkind
      rw [hedited, Event.edited, if_pos rfl, Option.map_some]
    · rw [hother kind' hkind, hold, Event.edited, if_neg hkind]

theorem targets_of_runFrom {secret : Option (Versioned SecretData)}
    {mutating validating : Option (Versioned Webhooks)} {kind : ConfigKind}
    {webhooks : Option Webhooks} (h : s.EditInv env)
    (hwebhooks : targets env (s.configuration kind) = webhooks.map (·.map env.target))
    (hrun : (system lib env secret mutating validating).runFrom s es = some s') :
    targets env (s'.configuration kind) =
      (es.foldl (fun webhooks e => e.edited kind webhooks) webhooks).map (·.map env.target) := by
  induction es generalizing s webhooks with
  | nil =>
    obtain rfl := Option.some.inj hrun
    exact hwebhooks
  | cons e es ih =>
    obtain ⟨s₁, hs, hrun⟩ := System.runFrom_cons_eq_some _ |>.mp hrun
    obtain ⟨h₁, htargets⟩ := h.step hs
    rw [List.foldl_cons]
    exact ih h₁ (htargets kind webhooks hwebhooks) hrun

/-- In every run of any number of managers, with any failures and edits: the webhooks of a
configuration and where they are called are those of its last edit, or of the configuration at
the beginning, apart from what `sync` sets. -/
theorem target_of_run {secret : Option (Versioned SecretData)}
    (initial : ConfigKind → Option (Versioned Webhooks))
    (hversion : ∀ kind o, initial kind = some o → o.version ≠ "")
    (hrun : (system lib env secret (initial .mutating) (initial .validating)).run es = some s)
    (kind : ConfigKind) :
    targets env (s.configuration kind) =
      (es.foldl (fun webhooks e => e.edited kind webhooks) ((initial kind).map (·.value))).map
        (·.map env.target) := by
  have hinit : (system lib env secret (initial .mutating) (initial .validating)).init.EditInv env :=
    ⟨ObjectStore.inv_start (hversion .mutating), ObjectStore.inv_start (hversion .validating),
      by simp [system]⟩
  refine targets_of_runFrom hinit ?_ hrun
  rw [Option.map_map]
  cases kind <;> rfl

/-- A `sync` between whose requests the configuration is edited. -/
def sampleOvertaken : List Event :=
  [.sync, .ensureCert 0 { version := "1" }, .ensureCert 0 { seed := 7, version := "1" }, .ensured 0,
    .writeCerts 0 none, .request 0 { version := "2" },
    .edit .mutating [⟨none, some ⟨"", "", some "/v2"⟩, none⟩] "2", .request 0 { version := "3" },
    .request 0 { version := "3" }]

theorem sampleOvertaken_target : ∃ s,
    (system Managers.sampleCertLib sampleWebhookEnv none (some sampleWebhooks)
      (some sampleWebhooks)).run sampleOvertaken = some s ∧
    targets sampleWebhookEnv s.mutating = some [(none, some (some "/v2"))] := by
  obtain ⟨s, hrun⟩ : ∃ s, (system Managers.sampleCertLib sampleWebhookEnv none
      (some sampleWebhooks) (some sampleWebhooks)).run sampleOvertaken = some s := ⟨_, rfl⟩
  have hversion : ∀ (kind : ConfigKind) (o : Versioned Webhooks),
      some sampleWebhooks = some o → o.version ≠ "" := by
    intro _ o ho
    obtain rfl := Option.some.inj ho
    decide
  exact ⟨s, hrun,
    (target_of_run (fun _ => some sampleWebhooks) hversion hrun .mutating).trans (by decide)⟩

end WebhookController

end CtrlMesh
