import ControllerMesh.Impl.CertWriter

/-!
# The webhook configurations

`sync` of `webhook/util/controller/webhook_controller.go`, by any number of managers and
request by request: it ensures the certificate in the secret (`CertWriter`), writes it to the
manager's directory, and sets the CA bundle, the service and the URL of every webhook of the
two configurations. Others may change the configurations at any time.

Of a webhook the client configuration is modelled; what `sync` does not touch it sends back as
it has read it. The certificate writer is the one for secrets.
-/

namespace CtrlMesh

open Framework

structure ServiceReference where
  inNamespace : String
  name : String
  path : Option String
  deriving DecidableEq

structure WebhookClientConfig where
  url : Option String
  service : Option ServiceReference
  /-- `none` is a nil slice. -/
  caBundle : Option (List UInt8)
  deriving DecidableEq

/-- The client configurations of the webhooks of a configuration. -/
abbrev Webhooks := List WebhookClientConfig

/-- What `webhook/util/util.go` reads from the environment. -/
structure WebhookEnv where
  inNamespace : String
  serviceName : String
  host : String
  port : Nat

namespace WebhookEnv

variable (env : WebhookEnv)

def serviceToCommonName (serviceNamespace serviceName : String) : String :=
  serviceName ++ "." ++ serviceNamespace ++ ".svc"

def dnsName : String :=
  if env.host.isEmpty then serviceToCommonName env.inNamespace env.serviceName else env.host

/-- `convertClientConfig`; `none` if it dereferences a nil `Path`. -/
def convertClientConfig (config : WebhookClientConfig) (service : ServiceReference) :
    Option WebhookClientConfig :=
  service.path.map fun path =>
    { config with
      url := some ("https://" ++ env.host ++ ":" ++ toString env.port ++ path)
      service := none }

/-- What the loops of `ensureConfigurations` do to a webhook. -/
def ensureWebhook (caBundle : Option (List UInt8)) (config : WebhookClientConfig) :
    Option WebhookClientConfig :=
  match config.service with
  | none => some { config with caBundle }
  | some service =>
    let service := { service with inNamespace := env.inNamespace, name := env.serviceName }
    let config := { config with caBundle, service := some service }
    if env.host.isEmpty then some config else env.convertClientConfig config service

def ensureWebhooks (caBundle : Option (List UInt8)) (webhooks : Webhooks) : Option Webhooks :=
  webhooks.mapM (env.ensureWebhook caBundle)

end WebhookEnv

/-- What is read back of a client configuration that was sent: an empty slice is omitted. -/
def WebhookClientConfig.readBack (config : WebhookClientConfig) : WebhookClientConfig :=
  { config with caBundle := config.caBundle.filter (!·.isEmpty) }

inductive ConfigKind where
  | mutating
  | validating
  deriving DecidableEq

namespace ConfigKind

def configurationName : ConfigKind → String
  | .mutating => "ctrlmesh-mutating-webhook-configuration"
  | .validating => "ctrlmesh-validating-webhook-configuration"

def kindName : ConfigKind → String
  | .mutating => "MutatingWebhookConfiguration"
  | .validating => "ValidatingWebhookConfiguration"

end ConfigKind

/-- Why `sync` returns an error; what it wraps is an argument. -/
inductive SyncError where
  /-- "failed to ensure certs". -/
  | ensureCerts (err : Option CertError)
  /-- "failed to write certs to dir". -/
  | writeCerts (text : String)
  /-- "failed to ensure configuration". -/
  | notFound (text : String)
  | update (text : String) (err : ApiError)
  deriving DecidableEq

def notFoundError (kind : ConfigKind) : SyncError :=
  .notFound ("not found " ++ kind.kindName ++ " " ++ kind.configurationName)

def updateError (kind : ConfigKind) (err : ApiError) : SyncError :=
  .update ("failed to update " ++ kind.configurationName) err

/-- Where a call of `sync` is. -/
inductive Sync where
  | ensuring
  | writing (certs : Artifacts)
  | gettingMutating (caBundle : Option (List UInt8))
  | gettingValidating (caBundle : Option (List UInt8)) (mutating : Versioned Webhooks)
  /-- The configurations that were read, and what they are to be. -/
  | updatingMutating (mutating validating : Versioned Webhooks) (newMutating newValidating : Webhooks)
  | updatingValidating (validating : Versioned Webhooks) (newValidating : Webhooks)
  | returned (err : Option SyncError)
  /-- A nil dereference. -/
  | panicked
  deriving DecidableEq

namespace Sync

/-- The update of the validating configuration, if it has changed. -/
def afterMutating (validating : Versioned Webhooks) (newValidating : Webhooks) : Sync :=
  if newValidating ≠ validating.value then .updatingValidating validating newValidating
  else .returned none

/-- `ensureConfigurations` behind the two `Get`s, up to the next request. -/
def ensureConfigurations (env : WebhookEnv) (caBundle : Option (List UInt8))
    (mutating validating : Versioned Webhooks) : Sync :=
  match env.ensureWebhooks caBundle mutating.value, env.ensureWebhooks caBundle validating.value with
  | some newMutating, some newValidating =>
    if newMutating ≠ mutating.value then
      .updatingMutating mutating validating newMutating newValidating
    else afterMutating validating newValidating
  | _, _ => .panicked

end Sync

structure WebhookController where
  /-- The secret, and the calls of `EnsureCert`: that of the `i`-th `sync` is the `i`-th. -/
  managers : Managers
  mutating : ObjectStore Webhooks
  validating : ObjectStore Webhooks
  syncs : List Sync

namespace WebhookController

inductive Event where
  | sync
  /-- The next request of `EnsureCert` in the `i`-th `sync`. -/
  | ensureCert (i : Nat) (answer : Answer)
  /-- `EnsureCert` returns in the `i`-th `sync`. -/
  | ensured (i : Nat)
  /-- `WriteCertsToDir` in the `i`-th `sync`. -/
  | writeCerts (i : Nat) (failure : Option String)
  /-- The next request of `ensureConfigurations` in the `i`-th `sync`. -/
  | request (i : Nat) (answer : Answer)
  /-- Someone else stores a configuration. -/
  | edit (kind : ConfigKind) (webhooks : Webhooks) (version : String)

section

variable (lib : CertLib) (env : WebhookEnv)

/-- A `Get`. -/
def get (store : ObjectStore Webhooks) (answer : Answer) : Option (Versioned Webhooks) :=
  match answer.failure with
  | some _ => none
  | none => store.object

/-- An `Update` of what was read. -/
def update (store : ObjectStore Webhooks) (answer : Answer) (seen : Versioned Webhooks)
    (new : Webhooks) : Option ApiError × ObjectStore Webhooks :=
  store.send answer.failure
    (store.update seen.version ⟨new.map (·.readBack), answer.version⟩)

/-- One request of `ensureConfigurations`, with what follows up to the next one. -/
def configure (s : WebhookController) (answer : Answer) :
    Sync → Option (Sync × ObjectStore Webhooks × ObjectStore Webhooks)
  | .gettingMutating caBundle =>
    match get s.mutating answer with
    | none => some (.returned (some (notFoundError .mutating)), s.mutating, s.validating)
    | some mutating => some (.gettingValidating caBundle mutating, s.mutating, s.validating)
  | .gettingValidating caBundle mutating =>
    match get s.validating answer with
    | none => some (.returned (some (notFoundError .validating)), s.mutating, s.validating)
    | some validating =>
      some (.ensureConfigurations env caBundle mutating validating, s.mutating, s.validating)
  | .updatingMutating mutating validating newMutating newValidating =>
    if s.mutating.Fresh answer.version then
      match update s.mutating answer mutating newMutating with
      | (none, store) => some (.afterMutating validating newValidating, store, s.validating)
      | (some err, store) => some (.returned (some (updateError .mutating err)), store, s.validating)
    else none
  | .updatingValidating validating newValidating =>
    if s.validating.Fresh answer.version then
      match update s.validating answer validating newValidating with
      | (none, store) => some (.returned none, s.mutating, store)
      | (some err, store) => some (.returned (some (updateError .validating err)), s.mutating, store)
    else none
  | _ => none

def step (s : WebhookController) : Event → Option WebhookController
  | .sync =>
    (s.managers.step lib env.dnsName .ensureCert).map fun managers =>
      { s with managers, syncs := s.syncs ++ [.ensuring] }
  | .ensureCert i answer =>
    if s.syncs[i]? = some .ensuring then
      (s.managers.step lib env.dnsName (.request i answer)).map fun managers => { s with managers }
    else none
  | .ensured i =>
    if s.syncs[i]? = some .ensuring then
      match s.managers.calls[i]?.map CertWriter.pc with
      | some (.returned (some certs) _ none) => some { s with syncs := s.syncs.set i (.writing certs) }
      | some (.returned _ _ err) =>
        some { s with syncs := s.syncs.set i (.returned (some (.ensureCerts err))) }
      | _ => none
    else none
  | .writeCerts i failure =>
    match s.syncs[i]?, failure with
    | some (.writing certs), none =>
      some { s with syncs := s.syncs.set i (.gettingMutating certs.caCert) }
    | some (.writing _), some text =>
      some { s with syncs := s.syncs.set i (.returned (some (.writeCerts text))) }
    | _, _ => none
  | .request i answer =>
    match s.syncs[i]? with
    | none => none
    | some pc =>
      (configure env s answer pc).map fun r =>
        { s with syncs := s.syncs.set i r.1, mutating := r.2.1, validating := r.2.2 }
  | .edit .mutating webhooks version =>
    if s.mutating.Fresh version then
      some { s with mutating := s.mutating.put ⟨webhooks.map (·.readBack), version⟩ }
    else none
  | .edit .validating webhooks version =>
    if s.validating.Fresh version then
      some { s with validating := s.validating.put ⟨webhooks.map (·.readBack), version⟩ }
    else none

/-- Managers that begin with a secret and the two configurations, or without. -/
def system (secret : Option (Versioned SecretData)) (mutating validating : Option (Versioned Webhooks)) :
    System WebhookController Event :=
  ⟨⟨⟨.start secret, []⟩, .start mutating, .start validating, []⟩, step lib env⟩

end

end WebhookController

end CtrlMesh
