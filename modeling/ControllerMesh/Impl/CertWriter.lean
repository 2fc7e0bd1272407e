import ControllerMesh.Framework.Container
import ControllerMesh.Framework.ObjectStore
import ControllerMesh.Framework.System

/-!
# The certificate of the webhooks

`EnsureCert` of `webhook/util/writer` with a secret (`certwriter.go`, `secret.go`),
called by any number of managers, request by request: `createIfNotExists` reads the
secret, writes one if there is none, and reads again if another manager was first;
`handleCommon` overwrites a certificate that is not valid.

`crypto/tls`, `crypto/x509` and the generator of certificates are parameters
(`CertLib`), as is the time at which validity is checked. The API server answers a
request, or the request fails on the way, before or after the server has done it
(`Answer`).
-/

namespace CtrlMesh

open Framework

/-- `generator.Artifacts`; `none` is a nil slice. -/
structure Artifacts where
  key : Option (List UInt8)
  cert : Option (List UInt8)
  caKey : Option (List UInt8)
  caCert : Option (List UInt8)
  resourceVersion : String
  deriving DecidableEq

/-- `Data` of a secret, which may be nil, as may its values. -/
abbrev SecretData := Option (StringMap (Option (List UInt8)))

structure CertLib where
  /-- `tls.X509KeyPair` accepts them. -/
  x509KeyPair (cert key : List UInt8) : Bool
  appendCertsFromPEM (caCert : List UInt8) : Bool
  pemDecode (cert : List UInt8) : Option (List UInt8)
  /-- `x509.ParseCertificate` accepts the block. -/
  parseCertificate (block : List UInt8) : Bool
  /-- The certificate is good for a name, with the roots, in six months. -/
  verify (block : List UInt8) (dnsName : String) (roots : List UInt8) : Bool
  /-- `Generate`, with the CA key and certificate that were set and a seed. -/
  generate (ca : Option (List UInt8 × List UInt8)) (dnsName : String) (seed : Nat) :
    Except String Artifacts

def CAKeyName : String := "ca-key.pem"
def CACertName : String := "ca-cert.pem"
def ServerKeyName : String := "key.pem"
def ServerKeyName2 : String := "tls.key"
def ServerCertName : String := "cert.pem"
def ServerCertName2 : String := "tls.crt"

def secretToCerts (secret : Versioned SecretData) : Artifacts :=
  match secret.value with
  | none => ⟨none, none, none, none, secret.version⟩
  | some data =>
    { caKey := data[CAKeyName]?.join
      caCert := data[CACertName]?.join
      cert := data[ServerCertName]?.join
      key := data[ServerKeyName]?.join
      resourceVersion := secret.version }

/-- `certsToSecret`, the data of it. -/
def certsToSecret (certs : Artifacts) : SecretData :=
  some (.ofList [
    (CAKeyName, certs.caKey),
    (CACertName, certs.caCert),
    (ServerKeyName, certs.key),
    (ServerKeyName2, certs.key),
    (ServerCertName, certs.cert),
    (ServerCertName2, certs.cert)])

def validCert (lib : CertLib) (certs : Artifacts) (dnsName : String) : Bool :=
  match certs.cert, certs.key, certs.caCert with
  | some cert, some key, some caCert =>
    lib.x509KeyPair cert key && lib.appendCertsFromPEM caCert &&
      match lib.pemDecode cert with
      | none => false
      | some block => lib.parseCertificate block && lib.verify block dnsName caCert
  | _, _, _ => false

inductive CertError where
  | api (err : ApiError)
  | generate (text : String)
  | invalid (text : String)
  deriving DecidableEq

/-- Where a call of `EnsureCert` is. -/
inductive EnsureCert where
  | reading
  | writing
  /-- It reads after `write` has returned that the secret exists. -/
  | rereading
  | overwriting (resourceVersion : String)
  | returned (certs : Option Artifacts) (changed : Bool) (err : Option CertError)
  deriving DecidableEq

/-- What a step of a call is answered. -/
structure Answer where
  /-- The request fails on the way, and whether it has been done all the same. -/
  failure : Option (String × Bool) := none
  seed : Nat := 0
  /-- The resource version that the API server assigns if it stores something. -/
  version : String

/-- A `secretCertWriter` in a call. -/
structure CertWriter where
  /-- What `SetCA` has set. -/
  ca : Option (List UInt8 × List UInt8) := none
  pc : EnsureCert
  deriving DecidableEq

namespace CertWriter

/-- The answer to a `Get`. -/
def get (store : ObjectStore SecretData) (answer : Answer) :
    Except ApiError (Versioned SecretData) :=
  match answer.failure with
  | some failure => .error (.other failure.1)
  | none => store.get

section

variable (lib : CertLib) (dnsName : String)

/-- `handleCommon` behind `createIfNotExists`. -/
def handle (certs : Artifacts) (changed : Bool) : EnsureCert :=
  -- Recreate the cert if it's invalid.
  if validCert lib certs dnsName then .returned (some certs) changed none
  else .overwriting certs.resourceVersion

/-- `read` has got the secret, and stores the CA for next usage. -/
def read (w : CertWriter) (secret : Versioned SecretData) (changed : Bool) : CertWriter :=
  let certs := secretToCerts secret
  { ca :=
      match certs.caKey, certs.caCert with
      | some caKey, some caCert => some (caKey, caCert)
      | _, _ => w.ca
    pc := handle lib dnsName certs changed }

/-- One request of a call, with what follows up to the next one. -/
def step (store : ObjectStore SecretData) (answer : Answer) (w : CertWriter) :
    Option (CertWriter × ObjectStore SecretData) :=
  match w.pc with
  | .reading =>
    some (match get store answer with
      | .ok secret => w.read lib dnsName secret false
      | .error .notFound => { w with pc := .writing }
      | .error err => { w with pc := .returned none false (some (.api err)) }, store)
  | .writing =>
    some (match lib.generate w.ca dnsName answer.seed with
      | .error text => ({ w with pc := .returned none true (some (.generate text)) }, store)
      | .ok certs =>
        match store.send answer.failure
            (store.create ⟨certsToSecret certs, answer.version⟩) with
        | (none, store') => ({ w with pc := handle lib dnsName certs true }, store')
        -- This may happen if there is another racer.
        | (some .alreadyExists, store') => ({ w with pc := .rereading }, store')
        | (some err, store') => ({ w with pc := .returned none true (some (.api err)) }, store'))
  | .rereading =>
    some (match get store answer with
      | .ok secret => w.read lib dnsName secret true
      | .error err => { w with pc := .returned none true (some (.api err)) }, store)
  | .overwriting resourceVersion =>
    some (match lib.generate w.ca dnsName answer.seed with
      | .error text => ({ w with pc := .returned none false (some (.generate text)) }, store)
      | .ok certs =>
        match store.send answer.failure
            (store.update resourceVersion ⟨certsToSecret certs, answer.version⟩) with
        | (none, store') => ({ w with pc := .returned (some certs) true none }, store')
        | (some err, store') => ({ w with pc := .returned none false (some (.api err)) }, store'))
  | .returned _ _ _ => none

/-- `EnsureCert`, called. -/
def call : CertWriter where
  pc :=
    if dnsName.isEmpty then .returned none false (some (.invalid "dnsName should not be empty"))
    else .reading

end

end CertWriter

/-- The secret, and the calls of all managers so far. -/
structure Managers where
  secret : ObjectStore SecretData
  calls : List CertWriter

namespace Managers

inductive Event where
  | ensureCert
  /-- The next request of the `i`-th call. -/
  | request (i : Nat) (answer : Answer)

section

variable (lib : CertLib) (dnsName : String)

def step (s : Managers) : Event → Option Managers
  | .ensureCert => some { s with calls := s.calls ++ [CertWriter.call dnsName] }
  | .request i answer =>
    match s.calls[i]? with
    | none => none
    | some w =>
      if s.secret.Fresh answer.version then
        (w.step lib dnsName s.secret answer).map fun r => ⟨r.2, s.calls.set i r.1⟩
      else none

/-- Managers that begin with a secret, or without one. -/
def system (secret : Option (Versioned SecretData)) : System Managers Event :=
  ⟨⟨.start secret, []⟩, step lib dnsName⟩

end

end Managers

end CtrlMesh
