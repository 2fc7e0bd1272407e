import ControllerMesh.Impl.AtomicWriter
import ControllerMesh.Impl.CertWriter

/-!
# Certificates in a directory

`webhook/util/writer/fs.go`: the certificate and its keys as the files of a
directory, which the atomic writer writes (`WriteCertsToDir`) and `read` reads
back. `prepareToWrite` removes plain files that are in the way of the writer's
links, and only logs what fails then.
-/

namespace CtrlMesh

open Framework Wire

/-- The files of a certificate. -/
def certFilenames : List String :=
  [CAKeyName, CACertName, ServerCertName, ServerCertName2, ServerKeyName, ServerKeyName2]

/-- `certToProjectionMap`; a nil slice is written as an empty file. -/
def certToProjectionMap (cert : Artifacts) : Payload where
  entries := [
    (CAKeyName, ⟨cert.caKey.getD [], 0o666⟩),
    (CACertName, ⟨cert.caCert.getD [], 0o666⟩),
    (ServerCertName, ⟨cert.cert.getD [], 0o666⟩),
    (ServerCertName2, ⟨cert.cert.getD [], 0o666⟩),
    (ServerKeyName, ⟨cert.key.getD [], 0o666⟩),
    (ServerKeyName2, ⟨cert.key.getD [], 0o666⟩)]
  nodup := by
    show certFilenames.Nodup
    decide

/-- Which calls of `prepareToWrite` for a file fail, for a reason outside the tree. -/
structure PrepareOutcome where
  statFails : Bool := false
  readlinkFails : Bool := false
  removeFails : Bool := false

/-- One round of the loop of `prepareToWrite`. -/
def prepareFile (tree : FileTree FileData) (f : String) (o : PrepareOutcome) : FileTree FileData :=
  match o.statFails, tree.stat [f] with
  | false, .error .notExist => tree
  | _, _ =>
    match o.readlinkFails, tree.readlink [f] with
    | false, .ok _ => tree
    | _, _ =>
      match o.removeFails, tree.remove [f] with
      | false, .ok tree' => tree'
      | _, _ => tree

/-- `prepareToWrite`, on a directory that exists. -/
def prepareToWrite (tree : FileTree FileData) (outcome : String → PrepareOutcome) :
    FileTree FileData :=
  certFilenames.foldl (fun tree f => prepareFile tree f (outcome f)) tree

inductive CertReadError where
  /-- `notFoundError`. -/
  | notFound
  | sys (err : Errno)
  deriving DecidableEq

/-- The loop of `ensureExist`. -/
def ensureFilesExist (tree : FileTree FileData) : List String → Except CertReadError Unit
  | [] => .ok ()
  | filename :: filenames =>
    match tree.stat [filename] with
    | .ok () => ensureFilesExist tree filenames
    | .error .notExist => .error .notFound
    | .error err => .error (.sys err)

def ensureExist (tree : FileTree FileData) : Except CertReadError Unit :=
  ensureFilesExist tree certFilenames

def readCertFile (tree : FileTree FileData) (filename : String) : Except CertReadError Bytes :=
  match tree.readFile [filename] with
  | .ok f => .ok f.data
  | .error err => .error (.sys err)

/-- `fsCertWriter.read`. -/
def readCerts (tree : FileTree FileData) : Except CertReadError Artifacts := do
  ensureExist tree
  let caKeyBytes ← readCertFile tree CAKeyName
  let caCertBytes ← readCertFile tree CACertName
  let certBytes ← readCertFile tree ServerCertName
  let keyBytes ← readCertFile tree ServerKeyName
  return {
    caKey := some caKeyBytes
    caCert := some caCertBytes
    cert := some certBytes
    key := some keyBytes
    resourceVersion := "" }

inductive CertsEvent where
  /-- A call of `WriteCertsToDir`, up to the `Write` of the atomic writer. If the process
  ends before that, the files that are left are as if their removal had failed. -/
  | writeCertsToDir (certs : Artifacts) (outcome : String → PrepareOutcome)
  /-- The call goes on. -/
  | step (o : Outcome)
  /-- The process ends. -/
  | crash

def writeCertsStep (umask : UInt32) (w : AtomicWriter) : CertsEvent → Option AtomicWriter
  | .writeCertsToDir certs outcome =>
    match w.pc with
    | .idle _ => some ⟨prepareToWrite w.tree outcome, .called (certToProjectionMap certs)⟩
    | _ => none
  | .step o => w.step umask (.step o)
  | .crash => w.step umask .crash

/-- The calls of `WriteCertsToDir` on a directory, one after the other. -/
def certsSystem (umask : UInt32) (tree : FileTree FileData) : System AtomicWriter CertsEvent :=
  ⟨⟨tree, .idle none⟩, writeCertsStep umask⟩

end CtrlMesh
