import ControllerMesh.Framework.Container
import ControllerMesh.Framework.FileTree
import ControllerMesh.Framework.System
import ControllerMesh.Framework.Wire

/-!
# The atomic writer

`Writer.Write` of `webhook/util/writer/atomic/atomic_writer.go`, system call by
system call, on the tree of its target directory. Every call may fail for a
reason outside the tree, a write or a removal after a part of it, and the process
may end between any two calls (`crash`). The writer is the only one that changes
the directory, so what `Write` reads before its first change is one step.
-/

namespace CtrlMesh

open Framework Wire

def maxFileNameLength : Nat := 255
def maxPathLength : Nat := 4096

structure FileProjection where
  data : Bytes
  mode : Int32
  deriving DecidableEq

/-- A file on disk. -/
structure FileData where
  data : Bytes
  mode : UInt32
  deriving DecidableEq

/-- A `map[string]FileProjection`, in the order in which a loop visits it. -/
structure Payload where
  entries : List (String × FileProjection)
  nodup : (entries.map Prod.fst).Nodup

/-- A payload whose keys are clean; `[]` is the path `.`. -/
abbrev CleanPayload := Std.ExtTreeMap FsPath FileProjection

def dataDirName : String := "..data"
def newDataDirName : String := "..data_tmp"

/-! ## Paths -/

/-- `strings.Split(targetPath, "/")`. -/
def pathItems (targetPath : String) : List String :=
  (targetPath.toList.splitOn '/').map String.ofList

/-- `strings.HasPrefix(item, "..")`. -/
def hasDotDot (item : String) : Bool := ['.', '.'].isPrefixOf item.toList

def validateItems (targetPath : String) : List String → Except String Unit
  | [] => .ok ()
  | item :: items =>
    if item = ".." then
      .error s!"invalid path: must not contain '..': {targetPath}"
    else if item.utf8ByteSize > maxFileNameLength then
      .error s!"invalid path: filenames must be less than or equal to {maxFileNameLength} characters"
    else validateItems targetPath items

def validatePath (targetPath : String) : Except String Unit :=
  if targetPath = "" then
    .error "invalid path: must not be empty: \"\""
  else if targetPath.toList.head? = some '/' then
    .error s!"invalid path: must be relative path: {targetPath}"
  else if targetPath.utf8ByteSize > maxPathLength then
    .error s!"invalid path: must be less than or equal to {maxPathLength} characters"
  else
    match validateItems targetPath (pathItems targetPath) with
    | .error text => .error text
    | .ok () =>
      let first := (pathItems targetPath).headD ""
      if hasDotDot first && first.utf8ByteSize > 2 then
        .error s!"invalid path: must not start with '..': {targetPath}"
      else .ok ()

/-- `filepath.Clean` of a relative path without the element `..`. -/
def cleanPath (targetPath : String) : FsPath :=
  (pathItems targetPath).filter fun item => item ≠ "" ∧ item ≠ "."

/-- The loop of `validatePayload`. -/
def validateEntries (cleanPayload : CleanPayload) :
    List (String × FileProjection) → Except String CleanPayload
  | [] => .ok cleanPayload
  | (k, content) :: entries =>
    match validatePath k with
    | .error text => .error text
    | .ok () => validateEntries (cleanPayload.insert (cleanPath k) content) entries

def validatePayload (payload : Payload) : Except String CleanPayload :=
  validateEntries ∅ payload.entries

/-! ## What is on disk -/

def shouldWriteFile (tree : FileTree FileData) (path : FsPath) (content : Bytes) :
    Except Errno Bool :=
  match tree.lstat path with
  | .error .notExist => .ok true
  | _ =>
    match tree.readFile path with
    | .error e => .error e
    | .ok contentOnFs => .ok (content ≠ contentOnFs.data)

def shouldWritePayload (tree : FileTree FileData) (oldTsDir : FsPath) :
    List (FsPath × FileProjection) → Except Errno Bool
  | [] => .ok false
  | (userVisiblePath, fileProjection) :: payload =>
    match shouldWriteFile tree (oldTsDir ++ userVisiblePath) fileProjection.data with
    | .error e => .error e
    | .ok true => .ok true
    | .ok false => shouldWritePayload tree oldTsDir payload

/-- `pathsToRemove`: what the walk of the old version comes to, except the paths of the
payload and those on the way to them. The visitor ignores every error: where the walk
cannot look into a directory (`unread`), it goes on without what is below it. -/
def pathsToRemove (tree : FileTree FileData) (payload : CleanPayload) (oldTsDir : FsPath)
    (unread : List FsPath) : List FsPath :=
  (tree.below oldTsDir).filter fun path =>
    !unread.any (fun dir => dir.isPrefixOf path && dir ≠ path) &&
      !payload.keys.any fun file => path.isPrefixOf file

inductive WriteError where
  | invalid (text : String)
  | sys (err : Errno)
  deriving DecidableEq

/-- What `Write` has found out before it changes anything. -/
structure WriteJob where
  cleanPayload : CleanPayload
  oldTsDir : Option FsPath
  pathsToRemove : List FsPath

/-- How the system answers the calls of a step. -/
structure Outcome where
  /-- The call of the step fails, for a reason outside the tree. -/
  failure : Option String := none
  /-- The `Chmod` behind it fails. -/
  chmodFailure : Option String := none
  /-- The `Readlink` before a `Symlink` fails. -/
  readlinkFailure : Option String := none
  /-- The paths in the old version at which the walk fails: the `Lstat` of one of its
  entries, or of the version itself (`[]`), or the reading of a directory. -/
  unread : List FsPath := []
  /-- The name that `TempDir` has found. -/
  name : String := ""
  /-- The order of the loop that starts. -/
  order : List Nat := []
  /-- How many directories and how much of a file have been written when a write fails. -/
  made : Nat := 0
  written : Option Nat := none
  /-- What is left when a removal fails. -/
  keep : FsPath → Bool := fun _ => true

/-- Steps (1) to (4) of `Write`; `none` if no update is required. A failure is that of
`os.Readlink` or `ioutil.ReadFile`; an `Lstat` that fails in `shouldWriteFile` is
followed by the `ReadFile`. -/
def prepareWrite (tree : FileTree FileData) (payload : Payload) (o : Outcome) :
    Except WriteError (Option WriteJob) :=
  match validatePayload payload with
  | .error text => .error (.invalid text)
  | .ok cleanPayload =>
    match o.failure with
    | some text => .error (.sys (.other text))
    | none =>
      match tree.readlink [dataDirName] with
      | .error .notExist => .ok (some ⟨cleanPayload, none, []⟩)
      | .error e => .error (.sys e)
      | .ok oldTsDir =>
        match shouldWritePayload tree oldTsDir (visitIn o.order cleanPayload.toList) with
        | .error e => .error (.sys e)
        | .ok should =>
          let pathsToRemove := pathsToRemove tree cleanPayload oldTsDir o.unread
          if !should && pathsToRemove.isEmpty then .ok none
          else .ok (some ⟨cleanPayload, some oldTsDir, pathsToRemove⟩)

/-! ## The steps of a call -/

/-- Where a call of `Write` is. -/
inductive WritePc where
  /-- No call; what the last one has returned, if it was not cut short. -/
  | idle (result : Option (Except WriteError Unit))
  /-- Before (1). -/
  | called (payload : Payload)
  /-- Before (5), `newTimestampDir`. -/
  | making (job : WriteJob)
  /-- In (6), `writePayloadToDir`. -/
  | writing (job : WriteJob) (tsDir : String) (todo : List (FsPath × FileProjection))
  /-- In (7), `createUserVisibleFiles`. -/
  | linking (job : WriteJob) (tsDir : String) (todo : List (FsPath × FileProjection))
  /-- Before (8). -/
  | symlinking (job : WriteJob) (tsDir : String)
  /-- Before (9). -/
  | moving (job : WriteJob) (tsDir : String)
  /-- Before `os.Remove(newDataDirPath)`, after (9) has failed. -/
  | unlinking (job : WriteJob) (tsDir : String) (err : Errno)
  /-- Before `os.RemoveAll(tsDir)`, after (8) or (9) has failed. -/
  | cleaning (job : WriteJob) (tsDir : String) (err : Errno)
  /-- In (10), `removeUserVisiblePaths`. -/
  | pruning (job : WriteJob) (todo : List FsPath) (lasterr : Option Errno)
  /-- Before (11). -/
  | discarding (job : WriteJob) (oldTsDir : FsPath)

structure AtomicWriter where
  tree : FileTree FileData
  pc : WritePc

inductive WriterEvent where
  /-- A call of `Write`. -/
  | write (payload : Payload)
  /-- The call goes on. -/
  | step (o : Outcome)
  /-- The process ends. -/
  | crash

namespace AtomicWriter

/-- The call returns. -/
def returns (tree : FileTree FileData) (result : Except WriteError Unit) : AtomicWriter :=
  ⟨tree, .idle (some result)⟩

/-- The name begins as `time.Now().UTC().Format("..2006_01_02_15_04_05.")` does. -/
def isTsDirName (name : String) : Bool :=
  hasDotDot name && (name.toList.drop 2).head?.any Char.isDigit

/-- `ioutil.TempDir` takes a name that no entry has. -/
def isFreshTsDir (tree : FileTree FileData) (name : String) : Bool :=
  isTsDirName name && tree.keys.all fun path => path.head? ≠ some name

/-- What a write that fails has left. -/
def writePart (tree : FileTree FileData) (umask : UInt32) (tsDir : String) (path : FsPath)
    (f : FileProjection) (o : Outcome) : FileTree FileData :=
  match tree.mkdirAll [tsDir] (path.dropLast.take o.made), o.written with
  | .error _, _ => tree
  | .ok tree', none => tree'
  | .ok tree', some n =>
    match tree'.writeFile (tsDir :: path) ⟨f.data.take n, f.mode.toUInt32 &&& ~~~umask⟩ with
    | .error _ => tree'
    | .ok tree'' => tree''

/-- One round of `writePayloadToDir`. A `Chmod` that fails is only logged. -/
def writeFileToDir (tree : FileTree FileData) (umask : UInt32) (tsDir : String) (path : FsPath)
    (f : FileProjection) (o : Outcome) : FileTree FileData × Option Errno :=
  match o.failure with
  | some text => (writePart tree umask tsDir path f o, some (.other text))
  | none =>
    match tree.mkdirAll [tsDir] path.dropLast with
    | .error e => (tree, some e)
    | .ok tree' =>
      let mode :=
        if o.chmodFailure.isSome then f.mode.toUInt32 &&& ~~~umask else f.mode.toUInt32
      match tree'.writeFile (tsDir :: path) ⟨f.data, mode⟩ with
      | .error e => (tree', some e)
      | .ok tree'' => (tree'', none)

/-- One round of `createUserVisibleFiles`. A `Readlink` that fails for another
reason than that the link does not exist counts as a link. -/
def createUserVisibleFile (tree : FileTree FileData) (userVisiblePath : FsPath) (o : Outcome) :
    Except Errno (FileTree FileData) :=
  match userVisiblePath with
  | [] => .ok tree
  | linkname :: _ =>
    if o.readlinkFailure.isSome then .ok tree
    else
      match tree.readlink [linkname] with
      | .error .notExist =>
        match o.failure with
        | some text => .error (.other text)
        | none => tree.symlink [dataDirName, linkname] [linkname]
      | _ => .ok tree

/-- One round of `removeUserVisiblePaths`, which skips what is not in the volume
root directory. -/
def removeUserVisiblePath (tree : FileTree FileData) (path : FsPath) (lasterr : Option Errno)
    (o : Outcome) : FileTree FileData × Option Errno :=
  match path with
  | [name] =>
    match o.failure with
    | some text => (tree, some (.other text))
    | none =>
      match tree.remove [name] with
      | .error e => (tree, some e)
      | .ok tree' => (tree', lasterr)
  | _ => (tree, lasterr)

/-- `os.RemoveAll`, and its error. -/
def removeDir (tree : FileTree FileData) (dir : FsPath) (o : Outcome) :
    FileTree FileData × Except WriteError Unit :=
  match o.failure with
  | some text => (tree.removeSome dir o.keep, .error (.sys (.other text)))
  | none => (tree.removeAll dir, .ok ())

/-- The next system calls of a call of `Write`. -/
def next (umask : UInt32) (tree : FileTree FileData) (o : Outcome) :
    WritePc → Option AtomicWriter
  | .idle _ => none
  | .called payload =>
    match prepareWrite tree payload o with
    | .error err => some (returns tree (.error err))
    | .ok none => some (returns tree (.ok ()))
    | .ok (some job) => some ⟨tree, .making job⟩
  | .making job =>
    match o.failure with
    | some text => some (returns tree (.error (.sys (.other text))))
    | none =>
      if isFreshTsDir tree o.name then
        let tree' := tree.insert [o.name] .dir
        match o.chmodFailure with
        | some text => some (returns tree' (.error (.sys (.other text))))
        | none => some ⟨tree', .writing job o.name (visitIn o.order job.cleanPayload.toList)⟩
      else none
  | .writing job tsDir [] =>
    some ⟨tree, .linking job tsDir (visitIn o.order job.cleanPayload.toList)⟩
  | .writing job tsDir ((path, f) :: todo) =>
    match writeFileToDir tree umask tsDir path f o with
    | (tree', some e) => some (returns tree' (.error (.sys e)))
    | (tree', none) => some ⟨tree', .writing job tsDir todo⟩
  | .linking job tsDir [] => some ⟨tree, .symlinking job tsDir⟩
  | .linking job tsDir ((path, _) :: todo) =>
    match createUserVisibleFile tree path o with
    | .error e => some (returns tree (.error (.sys e)))
    | .ok tree' => some ⟨tree', .linking job tsDir todo⟩
  | .symlinking job tsDir =>
    match o.failure with
    | some text => some ⟨tree, .cleaning job tsDir (.other text)⟩
    | none =>
      match tree.symlink [tsDir] [newDataDirName] with
      | .error e => some ⟨tree, .cleaning job tsDir e⟩
      | .ok tree' => some ⟨tree', .moving job tsDir⟩
  | .moving job tsDir =>
    match o.failure with
    | some text => some ⟨tree, .unlinking job tsDir (.other text)⟩
    | none =>
      match tree.rename [newDataDirName] [dataDirName] with
      | .error e => some ⟨tree, .unlinking job tsDir e⟩
      | .ok tree' => some ⟨tree', .pruning job (visitIn o.order job.pathsToRemove) none⟩
  | .unlinking job tsDir err =>
    match o.failure, tree.remove [newDataDirName] with
    | none, .ok tree' => some ⟨tree', .cleaning job tsDir err⟩
    | _, _ => some ⟨tree, .cleaning job tsDir err⟩
  | .cleaning _ tsDir err =>
    some (returns (removeDir tree [tsDir] o).1 (.error (.sys err)))
  | .pruning job [] lasterr =>
    match lasterr, job.oldTsDir with
    | some e, _ => some (returns tree (.error (.sys e)))
    | none, none => some (returns tree (.ok ()))
    | none, some oldTsDir => some ⟨tree, .discarding job oldTsDir⟩
  | .pruning job (path :: todo) lasterr =>
    let (tree', lasterr') := removeUserVisiblePath tree path lasterr o
    some ⟨tree', .pruning job todo lasterr'⟩
  | .discarding _ oldTsDir =>
    let (tree', result) := removeDir tree oldTsDir o
    some (returns tree' result)

def step (umask : UInt32) (w : AtomicWriter) : WriterEvent → Option AtomicWriter
  | .write payload =>
    match w.pc with
    | .idle _ => some ⟨w.tree, .called payload⟩
    | _ => none
  | .step o => next umask w.tree o w.pc
  | .crash => some ⟨w.tree, .idle none⟩

/-- The writer from a tree of its target directory on. -/
def system (umask : UInt32) (tree : FileTree FileData) : System AtomicWriter WriterEvent :=
  ⟨⟨tree, .idle none⟩, step umask⟩

end AtomicWriter

end CtrlMesh
