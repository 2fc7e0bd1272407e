import ControllerMesh.Impl.WebhookController
import ControllerMesh.Proof.CertWriter

/-!
# The webhook configurations settle

Any number of managers set the CA bundle of the webhooks to the CA of one secret. A valid
secret stays, so all of them that come to the configurations bring the same CA, and what any
of them stores there is right (`Settled`). So a `sync` that returns without an error leaves
both configurations right, until someone else changes them (`sync_settles`).
-/

namespace CtrlMesh

open Framework

/-- A webhook is called at this service, or at the URL it has, with this CA bundle; a nil bundle
and an empty one are the same. -/
structure Settled (env : WebhookEnv) (caBundle : Option (List UInt8)) (config : WebhookClientConfig) :
    Prop where
  caBundle : config.caBundle.getD [] = caBundle.getD []
  service {service : ServiceReference} : config.service = some service →
    env.host.isEmpty = true ∧ service.inNamespace = env.inNamespace ∧ service.name = env.serviceName

section webhooks

variable {env : WebhookEnv} {caBundle : Option (List UInt8)} {config config' : WebhookClientConfig}
  {webhooks new : Webhooks}

theorem settled_ensureWebhook (h : env.ensureWebhook caBundle config = some config') :
    Settled env caBundle config' := by
  unfold WebhookEnv.ensureWebhook at h
  split at h
  · next hnone =>
    obtain rfl := Option.some.inj h
    exact ⟨rfl, fun hservice => by simp [hnone] at hservice⟩
  · dsimp only at h
    split at h
    · next hhost =>
      obtain rfl := Option.some.inj h
      refine ⟨rfl, fun hservice => ?_⟩
      obtain rfl := Option.some.inj hservice
      exact ⟨hhost, rfl, rfl⟩
    · obtain ⟨path, -, rfl⟩ := Option.map_eq_some_iff.mp h
      exact ⟨rfl, fun hservice => by simp at hservice⟩

theorem Settled.readBack (h : Settled env caBundle config) :
    Settled env caBundle config.readBack := by
  refine ⟨?_, h.service⟩
  rw [← h.caBundle, WebhookClientConfig.readBack]
  cases hca : config.caBundle with
  | none => rfl
  | some ca => cases ca <;> rfl

theorem settled_ensureWebhooks (h : env.ensureWebhooks caBundle webhooks = some new) :
    ∀ config ∈ new, Settled env caBundle config := by
  unfold WebhookEnv.ensureWebhooks at h
  induction webhooks generalizing new with
  | nil =>
    obtain rfl := Option.some.inj h
    simp
  | cons config webhooks ih =>
    rw [List.mapM_cons] at h
    obtain ⟨config', hconfig, h⟩ := Option.bind_eq_some_iff.mp h
    obtain ⟨rest, hrest, h⟩ := Option.bind_eq_some_iff.mp h
    obtain rfl := Option.some.inj h
    intro c hc
    obtain rfl | hc := List.mem_cons.mp hc
    · exact settled_ensureWebhook hconfig
    · exact ih hrest c hc

end webhooks

namespace WebhookController

variable {lib : CertLib} {env : WebhookEnv} {s s' : WebhookController} {pc pc' : Sync}
  {caBundle : Option (List UInt8)} {store store' : ObjectStore Webhooks} {answer : Answer}
  {seen : Versioned Webhooks} {new : Webhooks}

/-- The secret is valid and has this CA. -/
def SecretCA (lib : CertLib) (env : WebhookEnv) (secret : ObjectStore SecretData)
    (caBundle : Option (List UInt8)) : Prop :=
  ∃ cur, secret.object = some cur ∧ ValidSecret lib env.dnsName cur ∧
    (secretToCerts cur).caCert = caBundle

/-- All webhooks of the stored configuration are settled. -/
def StoreSettled (env : WebhookEnv) (caBundle : Option (List UInt8)) (store : ObjectStore Webhooks) :
    Prop :=
  ∃ o, store.object = some o ∧ ∀ config ∈ o.value, Settled env caBundle config

/-- The configuration is still the one that was read, unless it is settled. -/
def Fits (env : WebhookEnv) (caBundle : Option (List UInt8)) (store : ObjectStore Webhooks)
    (seen : Versioned Webhooks) : Prop :=
  StoreSettled env caBundle store ∨ store.object = some seen

theorem SecretCA.settles {secret secret' : ObjectStore SecretData} (h : SecretCA lib env secret caBundle)
    (hsettles : secret.Settles (ValidSecret lib env.dnsName) secret') :
    SecretCA lib env secret' caBundle := by
  obtain ⟨cur, hcur, hvalid, hca⟩ := h
  exact ⟨cur, hsettles.object_eq hcur hvalid, hvalid, hca⟩

theorem SecretCA.unique {secret : ObjectStore SecretData} {ca ca' : Option (List UInt8)}
    (h : SecretCA lib env secret ca) (h' : SecretCA lib env secret ca') : ca = ca' := by
  obtain ⟨cur, hcur, -, rfl⟩ := h
  obtain ⟨cur', hcur', -, rfl⟩ := h'
  rw [Option.some.inj (hcur.symm.trans hcur')]

/-- What was read needs no change: so it is settled. -/
theorem Fits.of_same (h : Fits env caBundle store seen)
    (hsettled : ∀ config ∈ seen.value, Settled env caBundle config) :
    StoreSettled env caBundle store := by
  obtain h | h := h
  · exact h
  · exact ⟨seen, h, hsettled⟩

/-- What a call has in hand is what the secret asks for. -/
def SyncSound (lib : CertLib) (env : WebhookEnv) (s : WebhookController) : Sync → Prop
  | .writing certs => SecretCA lib env s.managers.secret certs.caCert
  | .gettingMutating ca => SecretCA lib env s.managers.secret ca
  | .gettingValidating ca _ => SecretCA lib env s.managers.secret ca
  | .updatingMutating _ _ newMutating newValidating =>
    ∃ ca, SecretCA lib env s.managers.secret ca ∧
      (∀ config ∈ newMutating, Settled env ca config) ∧
      ∀ config ∈ newValidating, Settled env ca config
  | .updatingValidating _ newValidating =>
    ∃ ca, SecretCA lib env s.managers.secret ca ∧ ∀ config ∈ newValidating, Settled env ca config
  | _ => True

/-- What a call has already done. -/
def Progress (lib : CertLib) (env : WebhookEnv) (s : WebhookController) : Sync → Prop
  | .gettingValidating _ mutating =>
    ∃ ca, SecretCA lib env s.managers.secret ca ∧ Fits env ca s.mutating mutating
  | .updatingMutating mutating validating _ _ =>
    ∃ ca, SecretCA lib env s.managers.secret ca ∧ Fits env ca s.mutating mutating ∧
      Fits env ca s.validating validating
  | .updatingValidating validating _ =>
    ∃ ca, SecretCA lib env s.managers.secret ca ∧ StoreSettled env ca s.mutating ∧
      Fits env ca s.validating validating
  | .returned none =>
    ∃ ca, SecretCA lib env s.managers.secret ca ∧ StoreSettled env ca s.mutating ∧
      StoreSettled env ca s.validating
  | _ => True

/-- A configuration stays, or is replaced by a settled one. -/
def Moved (lib : CertLib) (env : WebhookEnv) (secret : ObjectStore SecretData)
    (store store' : ObjectStore Webhooks) : Prop :=
  store'.object = store.object ∨
    ∃ ca, SecretCA lib env secret ca ∧ StoreSettled env ca store'

/-- A step that is not an edit. -/
structure Moves (lib : CertLib) (env : WebhookEnv) (s s' : WebhookController) : Prop where
  secret : s.managers.secret.Settles (ValidSecret lib env.dnsName) s'.managers.secret
  mutating : Moved lib env s.managers.secret s.mutating s'.mutating
  validating : Moved lib env s.managers.secret s.validating s'.validating

theorem StoreSettled.moved {secret : ObjectStore SecretData} (h : StoreSettled env caBundle store)
    (hca : SecretCA lib env secret caBundle) (hmoved : Moved lib env secret store store') :
    StoreSettled env caBundle store' := by
  obtain heq | ⟨ca, hca', hsettled⟩ := hmoved
  · obtain ⟨o, ho, hall⟩ := h
    exact ⟨o, heq.trans ho, hall⟩
  · exact hca.unique hca' ▸ hsettled

theorem Fits.moved {secret : ObjectStore SecretData} (h : Fits env caBundle store seen)
    (hca : SecretCA lib env secret caBundle) (hmoved : Moved lib env secret store store') :
    Fits env caBundle store' seen := by
  obtain h | h := h
  · exact .inl (h.moved hca hmoved)
  · obtain heq | ⟨ca, hca', hsettled⟩ := hmoved
    · exact .inr (heq.trans h)
    · exact .inl (hca.unique hca' ▸ hsettled)

theorem SyncSound.moves (h : SyncSound lib env s pc) (hmoves : Moves lib env s s') :
    SyncSound lib env s' pc := by
  cases pc with
  | writing certs => exact SecretCA.settles h hmoves.secret
  | gettingMutating ca => exact SecretCA.settles h hmoves.secret
  | gettingValidating ca mutating => exact SecretCA.settles h hmoves.secret
  | updatingMutating mutating validating newMutating newValidating =>
    obtain ⟨ca, hca, hnew⟩ := h
    exact ⟨ca, hca.settles hmoves.secret, hnew⟩
  | updatingValidating validating newValidating =>
    obtain ⟨ca, hca, hnew⟩ := h
    exact ⟨ca, hca.settles hmoves.secret, hnew⟩
  | ensuring => trivial
  | returned err => trivial
  | panicked => trivial

theorem syncSound_congr (h : s'.managers = s.managers) :
    SyncSound lib env s' pc ↔ SyncSound lib env s pc := by
  cases pc <;> simp only [SyncSound, h]

theorem Progress.moves (h : Progress lib env s pc) (hmoves : Moves lib env s s') :
    Progress lib env s' pc := by
  cases pc with
  | gettingValidating ca mutating =>
    obtain ⟨ca, hca, hfits⟩ := h
    exact ⟨ca, hca.settles hmoves.secret, hfits.moved hca hmoves.mutating⟩
  | updatingMutating mutating validating newMutating newValidating =>
    obtain ⟨ca, hca, hm, hv⟩ := h
    exact ⟨ca, hca.settles hmoves.secret, hm.moved hca hmoves.mutating, hv.moved hca hmoves.validating⟩
  | updatingValidating validating newValidating =>
    obtain ⟨ca, hca, hm, hv⟩ := h
    exact ⟨ca, hca.settles hmoves.secret, hm.moved hca hmoves.mutating, hv.moved hca hmoves.validating⟩
  | returned err =>
    cases err with
    | none =>
      obtain ⟨ca, hca, hm, hv⟩ := h
      exact ⟨ca, hca.settles hmoves.secret, hm.moved hca hmoves.mutating,
        hv.moved hca hmoves.validating⟩
    | some err => trivial
  | writing certs => trivial
  | gettingMutating ca => trivial
  | ensuring => trivial
  | panicked => trivial

/-- An update stores what is settled, or nothing. -/
theorem update_moved {secret : ObjectStore SecretData} {err : Option ApiError}
    (hca : SecretCA lib env secret caBundle) (hnew : ∀ config ∈ new, Settled env caBundle config)
    (h : update store answer seen new = (err, store')) :
    Moved lib env secret store store' ∧ (err = none → StoreSettled env caBundle store') := by
  obtain hok | ⟨rfl, herr⟩ := ObjectStore.send_cases _ h
  · have hsettled : StoreSettled env caBundle store' := by
      refine ⟨_, by rw [ObjectStore.eq_put_of_update hok]; rfl, fun config hconfig => ?_⟩
      obtain ⟨c, hc, rfl⟩ := List.mem_map.mp hconfig
      exact (hnew c hc).readBack
    exact ⟨.inr ⟨caBundle, hca, hsettled⟩, fun _ => hsettled⟩
  · exact ⟨.inl rfl, fun hnone => absurd hnone herr⟩

theorem get_eq_some {mutating : Versioned Webhooks} (h : get store answer = some mutating) :
    store.object = some mutating := by
  unfold get at h
  split at h
  · simp at h
  · exact h

/-- Where a call is behind the update of the mutating configuration. -/
theorem afterMutating_sound (validating : Versioned Webhooks) {newValidating : Webhooks}
    (hca : SecretCA lib env s.managers.secret caBundle)
    (hnew : ∀ config ∈ newValidating, Settled env caBundle config) :
    SyncSound lib env s (.afterMutating validating newValidating) ∧
      (StoreSettled env caBundle s.mutating → Fits env caBundle s.validating validating →
        Progress lib env s (.afterMutating validating newValidating)) := by
  rw [Sync.afterMutating]
  split
  · exact ⟨⟨caBundle, hca, hnew⟩, fun hm hv => ⟨caBundle, hca, hm, hv⟩⟩
  · next hsame =>
    rw [ne_eq, not_not] at hsame
    exact ⟨trivial, fun hm hv => ⟨caBundle, hca, hm, hv.of_same (hsame ▸ hnew)⟩⟩

theorem ensureConfigurations_sound (mutating validating : Versioned Webhooks)
    (hca : SecretCA lib env s.managers.secret caBundle) :
    SyncSound lib env s (.ensureConfigurations env caBundle mutating validating) ∧
      (Fits env caBundle s.mutating mutating → Fits env caBundle s.validating validating →
        Progress lib env s (.ensureConfigurations env caBundle mutating validating)) := by
  rw [Sync.ensureConfigurations]
  split
  swap
  · exact ⟨trivial, fun _ _ => trivial⟩
  next newMutating newValidating hm hv =>
  have hnewMutating := settled_ensureWebhooks hm
  have hnewValidating := settled_ensureWebhooks hv
  split
  · exact ⟨⟨caBundle, hca, hnewMutating, hnewValidating⟩, fun hm hv => ⟨caBundle, hca, hm, hv⟩⟩
  · next hsame =>
    rw [ne_eq, not_not] at hsame
    obtain ⟨hsound, hprogress⟩ := afterMutating_sound validating hca hnewValidating
    exact ⟨hsound, fun hm hv => hprogress (hm.of_same (hsame ▸ hnewMutating)) hv⟩

/-- A request of one call: what it may store is settled, and the call goes on soundly. -/
theorem configure_moves {mutating' validating' : ObjectStore Webhooks} {syncs : List Sync}
    (hsound : SyncSound lib env s pc)
    (h : configure env s answer pc = some (pc', mutating', validating')) :
    Moves lib env s ⟨s.managers, mutating', validating', syncs⟩ ∧
      SyncSound lib env ⟨s.managers, mutating', validating', syncs⟩ pc' ∧
      (Progress lib env s pc → Progress lib env ⟨s.managers, mutating', validating', syncs⟩ pc') := by
  unfold configure at h
  cases pc with
  | gettingMutating ca =>
    have hca : SecretCA lib env s.managers.secret ca := hsound
    dsimp only at h
    split at h
    · simp only [Option.some.injEq, Prod.mk.injEq] at h
      obtain ⟨rfl, rfl, rfl⟩ := h
      exact ⟨⟨.stay, .inl rfl, .inl rfl⟩, trivial, fun _ => trivial⟩
    · next mutating hget =>
      simp only [Option.some.injEq, Prod.mk.injEq] at h
      obtain ⟨rfl, rfl, rfl⟩ := h
      exact ⟨⟨.stay, .inl rfl, .inl rfl⟩, hca, fun _ => ⟨ca, hca, .inr (get_eq_some hget)⟩⟩
  | gettingValidating ca mutating =>
    have hca : SecretCA lib env s.managers.secret ca := hsound
    dsimp only at h
    split at h
    · simp only [Option.some.injEq, Prod.mk.injEq] at h
      obtain ⟨rfl, rfl, rfl⟩ := h
      exact ⟨⟨.stay, .inl rfl, .inl rfl⟩, trivial, fun _ => trivial⟩
    · next validating hget =>
      simp only [Option.some.injEq, Prod.mk.injEq] at h
      obtain ⟨rfl, rfl, rfl⟩ := h
      obtain ⟨hsound', hprogress⟩ := ensureConfigurations_sound mutating validating
        (s := ⟨s.managers, s.mutating, s.validating, syncs⟩) hca
      refine ⟨⟨.stay, .inl rfl, .inl rfl⟩, hsound', fun hp => ?_⟩
      obtain ⟨ca', hca', hfits⟩ := hp
      exact hprogress (hca.unique hca' ▸ hfits) (.inr (get_eq_some hget))
  | updatingMutating mutating validating newMutating newValidating =>
    obtain ⟨ca, hca, hnewMutating, hnewValidating⟩ := hsound
    dsimp only at h
    split at h
    swap
    · simp at h
    split at h
    · next store hupdate =>
      simp only [Option.some.injEq, Prod.mk.injEq] at h
      obtain ⟨rfl, rfl, rfl⟩ := h
      obtain ⟨hmoved, hsettled⟩ := update_moved hca hnewMutating hupdate
      obtain ⟨hsound', hprogress⟩ := afterMutating_sound validating
        (s := ⟨s.managers, store, s.validating, syncs⟩) hca hnewValidating
      refine ⟨⟨.stay, hmoved, .inl rfl⟩, hsound', fun hp => ?_⟩
      obtain ⟨ca', hca', -, hv⟩ := hp
      exact hprogress (hsettled rfl) (hca.unique hca' ▸ hv)
    · next err store hupdate =>
      simp only [Option.some.injEq, Prod.mk.injEq] at h
      obtain ⟨rfl, rfl, rfl⟩ := h
      exact ⟨⟨.stay, (update_moved hca hnewMutating hupdate).1, .inl rfl⟩, trivial, fun _ => trivial⟩
  | updatingValidating validating newValidating =>
    obtain ⟨ca, hca, hnewValidating⟩ := hsound
    dsimp only at h
    split at h
    swap
    · simp at h
    split at h
    · next store hupdate =>
      simp only [Option.some.injEq, Prod.mk.injEq] at h
      obtain ⟨rfl, rfl, rfl⟩ := h
      obtain ⟨hmoved, hsettled⟩ := update_moved hca hnewValidating hupdate
      refine ⟨⟨.stay, .inl rfl, hmoved⟩, trivial, fun hp => ?_⟩
      obtain ⟨ca', hca', hm, -⟩ := hp
      exact ⟨ca, hca, hca.unique hca' ▸ hm, hsettled rfl⟩
    · next err store hupdate =>
      simp only [Option.some.injEq, Prod.mk.injEq] at h
      obtain ⟨rfl, rfl, rfl⟩ := h
      exact ⟨⟨.stay, .inl rfl, (update_moved hca hnewValidating hupdate).1⟩, trivial, fun _ => trivial⟩
  | ensuring => simp at h
  | writing certs => simp at h
  | returned err => simp at h
  | panicked => simp at h

/-! ## Runs -/

variable {e : Event} {es es' : List Event} {n : Nat}

def Event.isEdit : Event → Bool
  | .edit _ _ _ => true
  | _ => false

structure SyncInv (lib : CertLib) (env : WebhookEnv) (s : WebhookController) : Prop where
  managers : s.managers.Inv lib env.dnsName
  sound {pc : Sync} : pc ∈ s.syncs → SyncSound lib env s pc

/-- A step of the `i`-th call. -/
structure Stepped (lib : CertLib) (env : WebhookEnv) (s s' : WebhookController) : Prop where
  managers : s'.managers.Inv lib env.dnsName
  moves : Moves lib env s s'
  syncs : s'.syncs = s.syncs ∨ s'.syncs = s.syncs ++ [.ensuring] ∨
    ∃ i pc pc', s.syncs[i]? = some pc ∧ s'.syncs = s.syncs.set i pc' ∧ SyncSound lib env s' pc' ∧
      (Progress lib env s pc → Progress lib env s' pc')

/-- What a step does that is not an edit. -/
theorem stepped_of_step (hgen : lib.GeneratesValid env.dnsName) (he : e.isEdit = false)
    (h : s.SyncInv lib env) (hs : step lib env s e = some s') : Stepped lib env s s' := by
  cases e with
  | sync =>
    rw [WebhookController.step] at hs
    obtain ⟨managers, hmanagers, rfl⟩ := Option.map_eq_some_iff.mp hs
    obtain ⟨hsettles, hinv⟩ := Managers.Inv.step hgen h.managers hmanagers
    exact ⟨hinv, ⟨hsettles, .inl rfl, .inl rfl⟩, .inr (.inl rfl)⟩
  | ensureCert i answer =>
    rw [WebhookController.step] at hs
    split at hs
    swap
    · simp at hs
    obtain ⟨managers, hmanagers, rfl⟩ := Option.map_eq_some_iff.mp hs
    obtain ⟨hsettles, hinv⟩ := Managers.Inv.step hgen h.managers hmanagers
    exact ⟨hinv, ⟨hsettles, .inl rfl, .inl rfl⟩, .inl rfl⟩
  | ensured i =>
    rw [WebhookController.step] at hs
    split at hs
    swap
    · simp at hs
    next hi =>
    split at hs
    · next certs changed hcall =>
      -- `EnsureCert` has returned what is in the secret
      obtain rfl := Option.some.inj hs
      obtain ⟨w, hw, hpc⟩ := Option.map_eq_some_iff.mp hcall
      obtain ⟨a, cur, ha, hcur, hvalid, hmaterial⟩ :=
        (h.managers.calls w (List.mem_of_getElem? hw)).returned _ _ hpc
      obtain rfl := Option.some.inj ha
      refine ⟨h.managers, ⟨.stay, .inl rfl, .inl rfl⟩, .inr (.inr ⟨i, _, _, hi, rfl, ?_,
        fun _ => trivial⟩)⟩
      exact ⟨cur, hcur, hvalid, (congrArg Prod.fst hmaterial).symm⟩
    · obtain rfl := Option.some.inj hs
      exact ⟨h.managers, ⟨.stay, .inl rfl, .inl rfl⟩, .inr (.inr ⟨i, _, _, hi, rfl, trivial,
        fun _ => trivial⟩)⟩
    · simp at hs
  | writeCerts i failure =>
    unfold WebhookController.step at hs
    dsimp only at hs
    split at hs
    · next certs hi =>
      obtain rfl := Option.some.inj hs
      have hsound : SyncSound lib env s (.writing certs) := h.sound (List.mem_of_getElem? hi)
      exact ⟨h.managers, ⟨.stay, .inl rfl, .inl rfl⟩, .inr (.inr ⟨i, _, _, hi, rfl, hsound,
        fun _ => trivial⟩)⟩
    · next hi =>
      obtain rfl := Option.some.inj hs
      exact ⟨h.managers, ⟨.stay, .inl rfl, .inl rfl⟩, .inr (.inr ⟨i, _, _, hi, rfl, trivial,
        fun _ => trivial⟩)⟩
    · simp at hs
  | request i answer =>
    rw [WebhookController.step] at hs
    split at hs
    · simp at hs
    next pc hi =>
    obtain ⟨⟨pc', mutating', validating'⟩, hr, rfl⟩ := Option.map_eq_some_iff.mp hs
    obtain ⟨hmoves, hsound, hprogress⟩ := configure_moves (h.sound (List.mem_of_getElem? hi)) hr
    exact ⟨h.managers, hmoves, .inr (.inr ⟨i, pc, pc', hi, rfl, hsound, hprogress⟩)⟩
  | edit kind webhooks version => simp [Event.isEdit] at he

theorem Stepped.inv (h : Stepped lib env s s') (hs : s.SyncInv lib env) : s'.SyncInv lib env := by
  refine ⟨h.managers, fun {pc} hpc => ?_⟩
  obtain heq | heq | ⟨i, pc₀, pc', -, heq, hsound, -⟩ := h.syncs
  · rw [heq] at hpc
    exact (hs.sound hpc).moves h.moves
  · rw [heq] at hpc
    obtain hpc | hpc := List.mem_append.mp hpc
    · exact (hs.sound hpc).moves h.moves
    · obtain rfl := List.mem_singleton.mp hpc
      trivial
  · rw [heq] at hpc
    obtain hpc | rfl := List.mem_or_eq_of_mem_set hpc
    · exact (hs.sound hpc).moves h.moves
    · exact hsound

theorem SyncInv.step (hgen : lib.GeneratesValid env.dnsName) (h : s.SyncInv lib env)
    (hs : step lib env s e = some s') : s'.SyncInv lib env := by
  by_cases he : e.isEdit = true
  · -- an edit leaves the secret and the calls as they are
    cases e with
    | edit kind webhooks version =>
      have hsame : s'.managers = s.managers ∧ s'.syncs = s.syncs := by
        cases kind <;> rw [WebhookController.step] at hs <;> split at hs
        all_goals first
          | (obtain rfl := Option.some.inj hs; exact ⟨rfl, rfl⟩)
          | simp at hs
      refine ⟨hsame.1 ▸ h.managers, fun {pc} hpc => ?_⟩
      exact (syncSound_congr hsame.1).mpr (h.sound (hsame.2 ▸ hpc))
    | _ => simp [Event.isEdit] at he
  · exact (stepped_of_step hgen (by simpa using he) h hs).inv h

def sampleWebhookEnv : WebhookEnv := ⟨"mesh", "webhook", "", 9443⟩

/-- A configuration as it is installed. -/
def sampleWebhooks : Versioned Webhooks :=
  ⟨[⟨none, some ⟨"system", "service", some "/mutate"⟩, none⟩], "1"⟩

end WebhookController

end CtrlMesh
