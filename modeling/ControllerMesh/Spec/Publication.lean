import ControllerMesh.Impl.AtomicWriter

/-!
# Publishing one version after another

What the atomic writer is for: readers see one published version, which changes
as a whole, to the version of the call in progress. A call may fail or be cut
short before or after that, but it succeeds only when the published version serves
for its own.

`AtomicWriter.abs` is what a state of the writer stands for: the files that are
read through `..data`, and the call.
-/

namespace CtrlMesh

open Framework Wire

/-- A call that is to publish a version; one that is not valid has none. -/
inductive Publisher (γ : Type) where
  | idle
  | running (version : Option γ)
  | succeeded
  | failed

structure Publication (γ : Type) where
  published : γ
  publisher : Publisher γ

namespace Publication

variable {γ : Type}

/-- What can happen to a publication, where `serves g c` says that a published `g` is as
good as `c`. -/
inductive Next (serves : γ → γ → Prop) : Publication γ → Publication γ → Prop
  | begin {p : Publication γ} (version : Option γ) : (∀ v, p.publisher ≠ .running v) →
      Next serves p ⟨p.published, .running version⟩
  | goOn {p : Publication γ} : Next serves p p
  | publish {g c : γ} : Next serves ⟨g, .running (some c)⟩ ⟨c, .running (some c)⟩
  | succeed {g c : γ} : serves g c → Next serves ⟨g, .running (some c)⟩ ⟨g, .succeeded⟩
  | fail {g : γ} {v : Option γ} : Next serves ⟨g, .running v⟩ ⟨g, .failed⟩
  | crash {p : Publication γ} : Next serves p ⟨p.published, .idle⟩

end Publication

/-- The contents of files, by path. -/
abbrev Files := FsPath → Option Bytes

/-- The files of a payload. -/
def CleanPayload.files (payload : CleanPayload) : Files := fun p => payload[p]?.map (·.data)

/-- The published files `g` have every file of `c`, and no others if `strict`. -/
structure Serves (strict : Prop) (g c : Files) : Prop where
  has {p : FsPath} {b : Bytes} : c p = some b → g p = some b
  only : strict → g = c

theorem Serves.rfl {strict : Prop} {g : Files} : Serves strict g g := ⟨id, fun _ => Eq.refl g⟩

/-- What is read at a path of the directory. -/
def visibleFiles (tree : FileTree FileData) : Files := fun p => (tree.readFile p).toOption.map (·.data)

/-- What is read through `..data`. -/
def publishedFiles (tree : FileTree FileData) : Files := fun p => visibleFiles tree (dataDirName :: p)

def WritePc.publisher : WritePc → Publisher Files
  | .idle none => .idle
  | .idle (some (.ok ())) => .succeeded
  | .idle (some (.error _)) => .failed
  | .called payload => .running ((validatePayload payload).toOption.map (·.files))
  | .making job => .running (some job.cleanPayload.files)
  | .writing job _ _ => .running (some job.cleanPayload.files)
  | .linking job _ _ => .running (some job.cleanPayload.files)
  | .symlinking job _ => .running (some job.cleanPayload.files)
  | .moving job _ => .running (some job.cleanPayload.files)
  | .unlinking job _ _ => .running (some job.cleanPayload.files)
  | .cleaning job _ _ => .running (some job.cleanPayload.files)
  | .pruning job _ _ => .running (some job.cleanPayload.files)
  | .discarding job _ => .running (some job.cleanPayload.files)

def AtomicWriter.abs (w : AtomicWriter) : Publication Files :=
  ⟨publishedFiles w.tree, w.pc.publisher⟩

end CtrlMesh
