import ControllerMesh.Impl.AtomicWriter
import ControllerMesh.Impl.CertWriter

/-!
# The certificate watcher of a proxy

`util/certwatcher/certwatcher.go`: `New` reads a certificate and its key, `Start`
watches the two files, and every event of one of them makes the watcher read both
again; after a `Remove` it watches the file again first. The directory is one that
an atomic writer writes while the watcher runs.

A watch is on the file that the path leads to when it is added (inotify follows the
links). When that file is removed, its watch ends, with a change of its attributes
and a removal as the last events.
-/

namespace CtrlMesh

open Framework Wire

/-- The `Op` of an `fsnotify.Event`, as far as files have them here. -/
inductive FsOp where
  | write
  | create
  | remove
  | rename
  | chmod
  deriving DecidableEq

structure FsEvent where
  name : String
  op : FsOp
  deriving DecidableEq

/-- Where the watcher is. -/
inductive WatcherPc where
  /-- In `New`: before the certificate is read. -/
  | new
  /-- In `New`: before the key is read. -/
  | newKey (cert : Bytes)
  /-- In `Start`: the files that are still to be watched. -/
  | adding (files : List String)
  /-- In `Watch`: before the next event. -/
  | watching
  /-- In `handleEvent`: before the watch is added again. -/
  | rewatching (name : String)
  /-- In `handleEvent`: before the certificate is read. -/
  | reading
  /-- In `handleEvent`: before the key is read. -/
  | readingKey (cert : Bytes)
  /-- `New` or `Start` has returned an error. -/
  | stopped
  deriving DecidableEq

structure CertWatcher where
  certPath : String
  keyPath : String
  /-- The certificate and the key that are loaded. -/
  currentCert : Option (Bytes × Bytes) := none
  /-- The file that is watched under a path. -/
  watches : StringMap FsPath := ∅
  /-- The events that wait in the channel. -/
  events : List FsEvent := []
  pc : WatcherPc := .new

namespace CertWatcher

/-- `watcher.Add`. -/
def add (w : CertWatcher) (tree : FileTree FileData) (name : String) : Except Errno CertWatcher :=
  match tree.resolve FileTree.maxLinks [] [name] with
  | .error e => .error e
  | .ok path => .ok { w with watches := w.watches.insert name path }

/-- What inotify says of a file, when the tree changes. -/
def fileOps (old new : FileTree FileData) (path : FsPath) : List FsOp :=
  if new[path]? = old[path]? then []
  else if new[path]? = none then [.chmod, .remove]
  else [.write]

/-- The events of a change of the tree; `order` is that of the files. -/
def notify (w : CertWatcher) (old new : FileTree FileData) (order : List Nat) : CertWatcher :=
  { w with
    watches := w.watches.filter fun _ path => new[path]?.isSome
    events := w.events ++ (visitIn order w.watches.toList).flatMap fun np =>
      (fileOps old new np.2).map fun op => ⟨np.1, op⟩ }

/-- The next step of the watcher. `fails` if a read, or the `Add`, fails for a reason
outside the tree. -/
def step (lib : CertLib) (w : CertWatcher) (tree : FileTree FileData) (fails : Bool) :
    Option CertWatcher :=
  match w.pc with
  | .new =>
    match fails, tree.readFile [w.certPath] with
    | false, .ok cert => some { w with pc := .newKey cert.data }
    | _, _ => some { w with pc := .stopped }
  | .newKey cert =>
    match fails, tree.readFile [w.keyPath] with
    | false, .ok key =>
      if lib.x509KeyPair cert key.data then
        some { w with currentCert := some (cert, key.data), pc := .adding [w.certPath, w.keyPath] }
      else some { w with pc := .stopped }
    | _, _ => some { w with pc := .stopped }
  | .adding [] => some { w with pc := .watching }
  | .adding (name :: files) =>
    match fails, w.add tree name with
    | false, .ok w' => some { w' with pc := .adding files }
    | _, _ => some { w with pc := .stopped }
  | .watching =>
    match w.events with
    | [] => none
    | event :: events =>
      match event.op with
      | .remove => some { w with events, pc := .rewatching event.name }
      | .write | .create => some { w with events, pc := .reading }
      | .rename | .chmod => some { w with events }
  | .rewatching name =>
    match fails, w.add tree name with
    | false, .ok w' => some { w' with pc := .reading }
    | _, _ => some { w with pc := .reading }
  | .reading =>
    match fails, tree.readFile [w.certPath] with
    | false, .ok cert => some { w with pc := .readingKey cert.data }
    | _, _ => some { w with pc := .watching }
  | .readingKey cert =>
    match fails, tree.readFile [w.keyPath] with
    | false, .ok key =>
      if lib.x509KeyPair cert key.data then
        some { w with currentCert := some (cert, key.data), pc := .watching }
      else some { w with pc := .watching }
    | _, _ => some { w with pc := .watching }
  | .stopped => none

end CertWatcher

/-- A directory with its writer and a watcher. -/
structure CertDir where
  writer : AtomicWriter
  watcher : CertWatcher

inductive CertDirEvent where
  | writer (e : WriterEvent) (order : List Nat)
  | watcher (fails : Bool)

namespace CertDir

def step (lib : CertLib) (umask : UInt32) (s : CertDir) : CertDirEvent → Option CertDir
  | .writer e order =>
    (s.writer.step umask e).map fun writer =>
      ⟨writer, s.watcher.notify s.writer.tree writer.tree order⟩
  | .watcher fails => (s.watcher.step lib s.writer.tree fails).map fun watcher => ⟨s.writer, watcher⟩

/-- A writer that has not been called and a watcher in front of `New`. -/
def system (lib : CertLib) (umask : UInt32) (tree : FileTree FileData) (certPath keyPath : String) :
    System CertDir CertDirEvent :=
  ⟨⟨⟨tree, .idle none⟩, { certPath, keyPath }⟩, step lib umask⟩

end CertDir

end CtrlMesh
