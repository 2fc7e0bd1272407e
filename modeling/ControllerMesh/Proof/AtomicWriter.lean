import ControllerMesh.Spec.Publication

/-!
# The atomic writer publishes whole payloads

The directory of a writer has a published version, the directory that `..data`
points to, and visible links into it (`Managed`). A call builds the next version
in a directory of its own, which nothing points to (`Unpublished`), so every step
but the rename of `..data_tmp` leaves what readers see as it is, however it ends.

* `step_inv`: what holds of the tree in every phase of a call (`PcInv`) is kept
  by every step, failure and crash.
* `atomicWriter_refines`: every step is a step of the publication.
* `visibleFiles_of_run`: in every state the visible files are the published
  ones, and those are of one payload.

The payloads are those whose clean paths do not begin with `..` (`Unreserved`).
-/

namespace CtrlMesh

open Framework Wire AtomicWriter

/-- No path of the payload is, when it is clean, one that the writer reserves. -/
def Unreserved (payload : Payload) : Prop :=
  ∀ kx ∈ payload.entries, ∀ c ∈ (cleanPath kx.1).head?, hasDotDot c = false

/-- The directory of a writer that has published the files `f`. If no `Readlink`
has failed, all their links are there (`linked`). -/
structure Managed (reliable : Prop) (t : FileTree FileData) (f : FsPath → Option FileData) :
    Prop where
  data : (t[[dataDirName]]? = none ∧ ∀ p, f p = none) ∨
    ∃ d, t[[dataDirName]]? = some (.link [d]) ∧ isTsDirName d = true ∧ t.Holds [d] f
  visible (c : String) : hasDotDot c = false →
    t[[c]]? = none ∨ t[[c]]? = some (.link [dataDirName, c])
  linked : reliable → ∀ {c p a}, f (c :: p) = some a → t[[c]]? = some (.link [dataDirName, c])
  unreserved {c : String} {p : FsPath} {a : FileData} : f (c :: p) = some a → hasDotDot c = false

/-- A directory of a version that is not the published one. -/
structure Unpublished (t : FileTree FileData) (tsDir : String) : Prop where
  name : isTsDirName tsDir = true
  not_target : t[[dataDirName]]? ≠ some (.link [tsDir])

/-! ## Names -/

theorem hasDotDot_of_isTsDirName {d : String} (h : isTsDirName d = true) : hasDotDot d = true := by
  rw [isTsDirName, Bool.and_eq_true] at h
  exact h.1

theorem isTsDirName_newDataDirName : isTsDirName newDataDirName = false := by decide

theorem singleton_prefix_iff {a c : String} {q : FsPath} : [a] <+: c :: q ↔ a = c := by
  simp [List.cons_prefix_cons]

/-! ## Changes that readers do not see -/

namespace Managed

variable {reliable : Prop} {t t' : FileTree FileData} {f : FsPath → Option FileData} {tsDir : String}

theorem congr (h : Managed reliable t f) (hdata : t'[[dataDirName]]? = t[[dataDirName]]?)
    (hold : ∀ d q, isTsDirName d = true → t[[dataDirName]]? = some (.link [d]) →
      t'[[d] ++ q]? = t[[d] ++ q]?)
    (hvis : ∀ c, hasDotDot c = false → t'[[c]]? = t[[c]]?) : Managed reliable t' f where
  data := by
    rw [hdata]
    refine h.data.imp id ?_
    rintro ⟨d, hd, hts, hf⟩
    exact ⟨d, hd, hts, hf.congr fun q => hold d q hts hd⟩
  visible c hc := by
    rw [hvis c hc]
    exact h.visible c hc
  linked hr c p a hf := by
    rw [hvis c (h.unreserved hf)]
    exact h.linked hr hf
  unreserved := h.unreserved

/-- Changes in a directory that is not published, or of `..data_tmp`. -/
theorem of_unpublished (h : Managed reliable t f) (hts : Unpublished t tsDir)
    (ht : ∀ q, ¬ [tsDir] <+: q → q ≠ [newDataDirName] → t'[q]? = t[q]?) :
    Managed reliable t' f := by
  have hdots := hasDotDot_of_isTsDirName hts.name
  refine h.congr (ht _ ?_ (by decide)) (fun d q hd hdata => ht _ ?_ ?_) fun c hc => ht _ ?_ ?_
  · rw [singleton_prefix_iff]
    rintro rfl
    exact absurd hts.name (by decide)
  · rw [List.singleton_append, singleton_prefix_iff]
    rintro rfl
    exact hts.not_target hdata
  · rintro hq
    rw [List.singleton_append, List.cons.injEq] at hq
    rw [hq.1, isTsDirName_newDataDirName] at hd
    simp at hd
  · rw [singleton_prefix_iff]
    rintro rfl
    rw [hdots] at hc
    simp at hc
  · rintro hq
    rw [List.cons.injEq] at hq
    rw [hq.1] at hc
    exact absurd hc (by decide)

/-- A change of one visible entry, which is no published one if it goes. -/
theorem of_visible (h : Managed reliable t f) {c : String} (hc : hasDotDot c = false)
    (ht : ∀ q, q ≠ [c] → t'[q]? = t[q]?)
    (hlink : t'[[c]]? = some (.link [dataDirName, c]) ∨
      t'[[c]]? = none ∧ ∀ p, f (c :: p) = none) : Managed reliable t' f := by
  have hne : ∀ {d : String} (q : FsPath), hasDotDot d = true → d :: q ≠ [c] := by
    intro d q hd he
    rw [List.cons.injEq] at he
    rw [he.1, hc] at hd
    simp at hd
  refine ⟨?_, fun d hd => ?_, fun hr d p a hf => ?_, h.unreserved⟩
  · rw [ht _ (hne [] (by decide))]
    refine h.data.imp id ?_
    rintro ⟨d, hd, hts, hf⟩
    exact ⟨d, hd, hts, hf.congr fun q => ht _ (hne q (hasDotDot_of_isTsDirName hts))⟩
  · by_cases he : d = c
    · subst he
      exact hlink.symm.imp And.left id
    · rw [ht _ (by simpa using he)]
      exact h.visible d hd
  · by_cases he : d = c
    · subst he
      refine hlink.resolve_right fun hnone => ?_
      rw [hnone.2] at hf
      simp at hf
    · rw [ht _ (by simpa using he)]
      exact h.linked hr hf

/-! ## What readers see -/

/-- Reading through `..data`, with the links that may still be taken. -/
theorem toOption_readData (h : Managed reliable t f) (n : Nat) (p : FsPath) :
    (t.readFrom (n + 1) [] (dataDirName :: p)).toOption = f p := by
  obtain ⟨hnone, hf⟩ | ⟨d, hd, -, hf⟩ := h.data
  · rw [FileTree.readFrom_missing hnone, hf]
    rfl
  · have hread : t.readFrom (n + 1) [] (dataDirName :: p) = t.readFrom n [d] p := by
      apply FileTree.readFrom_congr
      rw [FileTree.resolve_link hd, List.singleton_append, FileTree.resolve_dir hf.dir]
      rfl
    rw [hread, hf.toOption_read]

theorem publishedFiles_eq (h : Managed reliable t f) :
    publishedFiles t = fun p => (f p).map (·.data) := by
  funext p
  rw [publishedFiles, visibleFiles, FileTree.readFile]
  exact congrArg _ (h.toOption_readData 39 p)

theorem toOption_readFile (h : Managed True t f) {p : FsPath}
    (hp : ∀ c ∈ p.head?, hasDotDot c = false) : (t.readFile p).toOption = f p := by
  cases p with
  | nil =>
    obtain ⟨-, hf⟩ | ⟨d, -, -, hf⟩ := h.data
    · rw [hf]; rfl
    · rw [hf.apply_nil]; rfl
  | cons c p =>
    rw [FileTree.readFile]
    obtain hc | hc := h.visible c (hp c rfl)
    · rw [FileTree.readFrom_missing hc]
      cases hf : f (c :: p) with
      | none => rfl
      | some a =>
        rw [h.linked trivial hf] at hc
        simp at hc
    · have hread : t.readFrom 40 [] (c :: p) = t.readFrom 39 [] (dataDirName :: c :: p) := by
        apply FileTree.readFrom_congr
        rw [FileTree.resolve_link hc]
        rfl
      exact (congrArg _ hread).trans (h.toOption_readData 38 (c :: p))

/-- A visible path reads what is published there. -/
theorem visibleFiles_eq (h : Managed True t f) {p : FsPath}
    (hp : ∀ c ∈ p.head?, hasDotDot c = false) : visibleFiles t p = publishedFiles t p := by
  rw [h.publishedFiles_eq, visibleFiles, h.toOption_readFile hp]

theorem readFile_eq_ok (h : Managed True t f) {c : String} {a : FileData} (hc : f [c] = some a) :
    t.readFile [c] = .ok a := by
  have hopt := h.toOption_readFile (p := [c]) fun d hd => by
    rw [List.head?_cons, Option.mem_some_iff] at hd
    exact hd ▸ h.unreserved hc
  cases hread : t.readFile [c] with
  | error e => rw [hread, hc] at hopt; simp [Except.toOption] at hopt
  | ok b => rw [hread, hc] at hopt; simpa [Except.toOption] using hopt

/-- The visible name of a published file leads to it. -/
theorem resolve_visible (h : Managed True t f) {c : String} {a : FileData} (hc : f [c] = some a) :
    ∃ d, t[[dataDirName]]? = some (.link [d]) ∧ t[[d, c]]? = some (.file a) ∧
      t.resolve FileTree.maxLinks [] [c] = .ok [d, c] := by
  have hlink := h.linked trivial hc
  obtain ⟨-, hnone⟩ | ⟨d, hd, -, hf⟩ := h.data
  · rw [hnone] at hc
    simp at hc
  · have hfile : t[[d] ++ [c]]? = some (.file a) := (hf.file_iff [c] a).mpr hc
    refine ⟨d, hd, hfile, ?_⟩
    rw [FileTree.maxLinks, FileTree.resolve_link hlink]
    show t.resolve 39 [] (dataDirName :: [c]) = _
    rw [FileTree.resolve_link hd, List.singleton_append, FileTree.resolve_dir hf.dir,
      FileTree.resolve, FileTree.walk, List.nil_append, hfile]
    rfl

/-- The file of the published version. -/
theorem apply_eq_some (h : Managed reliable t f) {d : String} {p : FsPath} {a : FileData}
    (hd : t[[dataDirName]]? = some (.link [d])) (ha : t[d :: p]? = some (.file a)) :
    f p = some a := by
  obtain ⟨hnone, -⟩ | ⟨d', hd', -, hf⟩ := h.data
  · rw [hd] at hnone
    simp at hnone
  · rw [hd, Option.some.injEq, Node.link.injEq, List.cons.injEq] at hd'
    rw [← hf.file_iff, ← hd'.1]
    exact ha

end Managed

/-! ## The phases of a call -/

/-- What `Write` has found out about the directory. -/
structure JobInv (t : FileTree FileData) (job : WriteJob) : Prop where
  unreserved {c : String} {p : FsPath} {x : FileProjection} :
    job.cleanPayload[c :: p]? = some x → hasDotDot c = false
  old : (job.oldTsDir = none ∧ t[[dataDirName]]? = none) ∨
    ∃ d, job.oldTsDir = some [d] ∧ t[[dataDirName]]? = some (.link [d])
  prune {c : String} : [c] ∈ job.pathsToRemove →
    hasDotDot c = false ∧ ∀ p, job.cleanPayload[c :: p]? = none

/-- The entries of the payload that a loop still has to visit. -/
structure Remaining (job : WriteJob) (todo : List (FsPath × FileProjection)) : Prop where
  nodup : (todo.map Prod.fst).Nodup
  mem {p : FsPath} {x : FileProjection} : (p, x) ∈ todo → job.cleanPayload[p]? = some x

/-- The directory `tsDir` has the payload, except what still has to be written. -/
def BuiltVersion (t : FileTree FileData) (tsDir : String) (job : WriteJob)
    (todo : List (FsPath × FileProjection)) : Prop :=
  ∃ g, t.Holds [tsDir] g ∧ ∀ p, (g p).map (·.data) =
    if p ∈ todo.map Prod.fst then none else job.cleanPayload.files p

/-- The payload has its visible links, except those that still have to be made. -/
def Linked (reliable : Prop) (t : FileTree FileData) (job : WriteJob)
    (todo : List (FsPath × FileProjection)) : Prop :=
  reliable → ∀ {c p x}, job.cleanPayload[c :: p]? = some x →
    c :: p ∈ todo.map Prod.fst ∨ t[[c]]? = some (.link [dataDirName, c])

/-- What holds in each phase of a call, when the files `f` are published. -/
def PcInv (reliable : Prop) (t : FileTree FileData) (f : FsPath → Option FileData) : WritePc → Prop
  | .idle _ => True
  | .called payload => Unreserved payload
  | .making job => JobInv t job
  | .writing job tsDir todo =>
    JobInv t job ∧ Unpublished t tsDir ∧ Remaining job todo ∧ BuiltVersion t tsDir job todo
  | .linking job tsDir todo =>
    JobInv t job ∧ Unpublished t tsDir ∧ Remaining job todo ∧ BuiltVersion t tsDir job [] ∧
      Linked reliable t job todo
  | .symlinking job tsDir =>
    JobInv t job ∧ Unpublished t tsDir ∧ BuiltVersion t tsDir job [] ∧ Linked reliable t job []
  | .moving job tsDir =>
    JobInv t job ∧ Unpublished t tsDir ∧ BuiltVersion t tsDir job [] ∧ Linked reliable t job [] ∧
      t[[newDataDirName]]? = some (.link [tsDir])
  | .unlinking _ tsDir _ => Unpublished t tsDir
  | .cleaning _ tsDir _ => Unpublished t tsDir
  | .pruning job todo _ =>
    (fun p => (f p).map (·.data)) = job.cleanPayload.files ∧
      (∀ c, [c] ∈ todo → hasDotDot c = false ∧ ∀ p, f (c :: p) = none) ∧
      ∀ dir ∈ job.oldTsDir, ∃ d, dir = [d] ∧ Unpublished t d
  | .discarding job dir =>
    (fun p => (f p).map (·.data)) = job.cleanPayload.files ∧ ∃ d, dir = [d] ∧ Unpublished t d

/-- The invariant of a writer. -/
def WriterInv (reliable : Prop) (w : AtomicWriter) : Prop :=
  ∃ f, Managed reliable w.tree f ∧ PcInv reliable w.tree f w.pc

/-- What is asked of the events: payloads without reserved paths and, if the writer is to
be reliable, no failure of a `Readlink`. -/
def Allowed (reliable : Prop) : WriterEvent → Prop
  | .write payload => Unreserved payload
  | .step o => reliable → o.readlinkFailure = none
  | .crash => True

section frame

variable {reliable : Prop} {t t' : FileTree FileData} {tsDir : String} {job : WriteJob}
  {todo : List (FsPath × FileProjection)}

theorem JobInv.congr (h : JobInv t job) (hdata : t'[[dataDirName]]? = t[[dataDirName]]?) :
    JobInv t' job where
  unreserved := h.unreserved
  old := by rw [hdata]; exact h.old
  prune := h.prune

theorem Unpublished.congr (h : Unpublished t tsDir)
    (hdata : t'[[dataDirName]]? = t[[dataDirName]]?) : Unpublished t' tsDir where
  name := h.name
  not_target := by rw [hdata]; exact h.not_target

theorem Unpublished.ne_dataDirName (h : Unpublished t tsDir) : tsDir ≠ dataDirName := by
  rintro rfl
  exact absurd h.name (by decide)

theorem Unpublished.ne_newDataDirName (h : Unpublished t tsDir) : tsDir ≠ newDataDirName := by
  rintro rfl
  exact absurd h.name (by decide)

/-- What changes only in a directory that is not published leaves `..data`. -/
theorem Unpublished.frame_data (h : Unpublished t tsDir)
    (ht : ∀ q, ¬ [tsDir] <+: q → t'[q]? = t[q]?) : t'[[dataDirName]]? = t[[dataDirName]]? := by
  apply ht
  rw [singleton_prefix_iff]
  exact h.ne_dataDirName

theorem BuiltVersion.congr (h : BuiltVersion t tsDir job todo) (ht : ∀ q, t'[tsDir :: q]? = t[tsDir :: q]?) :
    BuiltVersion t' tsDir job todo := by
  obtain ⟨g, hg, hfiles⟩ := h
  exact ⟨g, hg.congr ht, hfiles⟩

end frame

/-! ## Before the first change -/

theorem exists_of_validateEntries {acc cleanPayload : CleanPayload}
    {entries : List (String × FileProjection)}
    (h : validateEntries acc entries = .ok cleanPayload) {p : FsPath} {x : FileProjection}
    (hp : cleanPayload[p]? = some x) :
    acc[p]? = some x ∨ ∃ k, (k, x) ∈ entries ∧ cleanPath k = p := by
  induction entries generalizing acc with
  | nil =>
    rw [validateEntries, Except.ok.injEq] at h
    rw [h]
    exact .inl hp
  | cons kx entries ih =>
    obtain ⟨k, content⟩ := kx
    rw [validateEntries] at h
    split at h
    · simp at h
    · obtain hacc | ⟨k', hk', hclean⟩ := ih h
      · rw [Std.ExtTreeMap.getElem?_insert] at hacc
        split at hacc
        · next he =>
          rw [Std.LawfulEqCmp.compare_eq_iff_eq] at he
          rw [Option.some.injEq] at hacc
          exact .inr ⟨k, by simp [hacc], he⟩
        · exact .inl hacc
      · exact .inr ⟨k', List.mem_cons_of_mem _ hk', hclean⟩

theorem unreserved_of_validatePayload {payload : Payload} (hu : Unreserved payload)
    {cleanPayload : CleanPayload} (h : validatePayload payload = .ok cleanPayload) {c : String}
    {p : FsPath} {x : FileProjection} (hp : cleanPayload[c :: p]? = some x) : hasDotDot c = false := by
  obtain hacc | ⟨k, hk, hclean⟩ := exists_of_validateEntries h hp
  · simp at hacc
  · exact hu (k, x) hk c (by rw [hclean]; rfl)

theorem eq_of_shouldWriteFile {t : FileTree FileData} {path : FsPath} {content : Bytes}
    (h : shouldWriteFile t path content = .ok false) :
    ∃ a, t.readFile path = .ok a ∧ a.data = content := by
  rw [shouldWriteFile] at h
  split at h
  · simp at h
  · split at h
    · simp at h
    · next a ha =>
      rw [Except.ok.injEq, decide_eq_false_iff_not, not_not] at h
      exact ⟨a, ha, h.symm⟩

theorem forall_of_shouldWritePayload {t : FileTree FileData} {dir : FsPath}
    {payload : List (FsPath × FileProjection)} (h : shouldWritePayload t dir payload = .ok false) :
    ∀ px ∈ payload, ∃ a, t.readFile (dir ++ px.1) = .ok a ∧ a.data = px.2.data := by
  induction payload with
  | nil => simp
  | cons px payload ih =>
    obtain ⟨p, x⟩ := px
    rw [shouldWritePayload] at h
    split at h
    · simp at h
    · simp at h
    · next hfile =>
      intro qx hqx
      obtain rfl | hqx := List.mem_cons.mp hqx
      · exact eq_of_shouldWriteFile hfile
      · exact ih h qx hqx

theorem mem_pathsToRemove {t : FileTree FileData} {cleanPayload : CleanPayload} {dir q : FsPath}
    {unread : List FsPath} :
    q ∈ pathsToRemove t cleanPayload dir unread ↔
      q ∈ t.below dir ∧ (∀ r ∈ unread, ¬ (r <+: q ∧ r ≠ q)) ∧ ∀ p, p ∈ cleanPayload → ¬ q <+: p := by
  simp only [pathsToRemove, List.mem_filter, Bool.not_eq_true', List.any_eq_false,
    Std.ExtTreeMap.mem_keys, List.isPrefixOf_iff_prefix, Bool.and_eq_true, decide_eq_true_eq]

/-- What is below a version has one of its files below or at it. -/
theorem exists_file_of_mem_below {t : FileTree FileData} {f : FsPath → Option FileData} {d : FsPath}
    (hf : t.Holds d f) {q : FsPath} (hq : q ∈ t.below d) : ∃ p a, f p = some a ∧ q <+: p := by
  obtain ⟨hne, node, hnode⟩ := FileTree.mem_below.mp hq
  cases node with
  | file a => exact ⟨q, a, (hf.file_iff q a).mp hnode, List.prefix_rfl⟩
  | dir => exact hf.needed hne hnode
  | link target => exact absurd hnode (hf.no_link q target)

section prepare

variable {reliable : Prop} {t : FileTree FileData} {f : FsPath → Option FileData} {payload : Payload}
  {o : Outcome}

/-- No update is required only if the files of the payload are published, and no others
as far as the walk has come. -/
theorem prepareWrite_eq_none (h : Managed reliable t f) (hp : prepareWrite t payload o = .ok none) :
    ∃ cleanPayload, validatePayload payload = .ok cleanPayload ∧
      Serves (o.unread = []) (fun p => (f p).map (·.data)) cleanPayload.files := by
  rw [prepareWrite] at hp
  split at hp
  · simp at hp
  next cleanPayload hvalid =>
  refine ⟨cleanPayload, hvalid, ?_⟩
  split at hp
  · simp at hp
  split at hp
  · simp at hp
  · simp at hp
  next dir hlink =>
  rw [FileTree.readlink_eq_ok] at hlink
  split at hp
  · simp at hp
  next should hshould =>
  dsimp only at hp
  split at hp
  swap
  · simp at hp
  next hno =>
  simp only [Bool.and_eq_true, Bool.not_eq_true', List.isEmpty_iff] at hno
  obtain ⟨rfl, hremove⟩ := hno
  obtain ⟨d, rfl, hf⟩ : ∃ d, dir = [d] ∧ t.Holds [d] f := by
    obtain ⟨hnone, -⟩ | ⟨d, hd, -, hf⟩ := h.data
    · rw [hnone] at hlink
      simp at hlink
    · rw [hd, Option.some.injEq, Node.link.injEq] at hlink
      exact ⟨d, hlink.symm, hf⟩
  -- every file of the payload is published as it is
  have hsame : ∀ p x, cleanPayload[p]? = some x → ∃ a, f p = some a ∧ a.data = x.data := by
    intro p x hx
    have hmem : (p, x) ∈ visitIn o.order cleanPayload.toList :=
      (perm_visitIn _ _).mem_iff.mpr (Std.ExtTreeMap.mem_toList_iff_getElem?_eq_some.mpr hx)
    obtain ⟨a, ha, hdata⟩ := forall_of_shouldWritePayload hshould _ hmem
    exact ⟨a, (hf.readFile p a).mp ha, hdata⟩
  refine ⟨fun {p b} hb => ?_, fun hunread => funext fun p => ?_⟩
  · obtain ⟨x, hx, rfl⟩ := Option.map_eq_some_iff.mp hb
    obtain ⟨a, ha, hdata⟩ := hsame p x hx
    rw [ha, Option.map_some, hdata]
  rw [CleanPayload.files]
  cases hx : cleanPayload[p]? with
  | some x =>
    obtain ⟨a, ha, hdata⟩ := hsame p x hx
    rw [ha, Option.map_some, Option.map_some, hdata]
  | none =>
    cases ha : f p with
    | none => rfl
    | some a =>
      -- a published file that is not in the payload would be one to remove
      have hbelow : p ∈ t.below [d] :=
        FileTree.mem_below.mpr ⟨hf.ne_nil ha, _, (hf.file_iff p a).mpr ha⟩
      have hkept : p ∉ pathsToRemove t cleanPayload [d] o.unread := by simp [hremove]
      rw [mem_pathsToRemove, hunread] at hkept
      push Not at hkept
      obtain ⟨p', hp', hpre⟩ := hkept hbelow (by simp)
      obtain ⟨x, hx'⟩ := Option.isSome_iff_exists.mp (Std.ExtTreeMap.mem_iff_isSome_getElem?.mp hp')
      obtain ⟨a', ha', -⟩ := hsame p' x hx'
      have hne : p ≠ p' := by
        rintro rfl
        rw [hx] at hx'
        simp at hx'
      have hdir := hf.above ha' hpre hne
      rw [(hf.file_iff p a).mpr ha] at hdir
      simp at hdir

theorem prepareWrite_eq_some (h : Managed reliable t f) (hu : Unreserved payload) {job : WriteJob}
    (hp : prepareWrite t payload o = .ok (some job)) :
    validatePayload payload = .ok job.cleanPayload ∧ JobInv t job := by
  rw [prepareWrite] at hp
  split at hp
  · simp at hp
  next cleanPayload hvalid =>
  split at hp
  · simp at hp
  split at hp
  · next hlink =>
    rw [FileTree.readlink_eq_notExist] at hlink
    rw [Except.ok.injEq, Option.some.injEq] at hp
    subst hp
    exact ⟨hvalid, unreserved_of_validatePayload hu hvalid, .inl ⟨rfl, hlink⟩, by simp⟩
  · simp at hp
  next dir hlink =>
  rw [FileTree.readlink_eq_ok] at hlink
  split at hp
  · simp at hp
  dsimp only at hp
  split at hp
  · simp at hp
  rw [Except.ok.injEq, Option.some.injEq] at hp
  subst hp
  obtain ⟨hnone, -⟩ | ⟨d, hd, -, hf⟩ := h.data
  · rw [hnone] at hlink
    simp at hlink
  obtain rfl : [d] = dir := by
    rw [hd, Option.some.injEq, Node.link.injEq] at hlink
    exact hlink
  refine ⟨hvalid, unreserved_of_validatePayload hu hvalid, .inr ⟨d, rfl, hd⟩, fun {c} hc => ?_⟩
  rw [mem_pathsToRemove] at hc
  refine ⟨?_, fun p => ?_⟩
  · obtain ⟨p, a, ha, r, rfl⟩ := exists_file_of_mem_below hf hc.1
    exact h.unreserved ha
  · exact Std.ExtTreeMap.getElem?_eq_none fun hmem => hc.2.2 (c :: p) hmem (by simp)

end prepare

/-! ## What the calls of one round change -/

section rounds

variable {t t' : FileTree FileData} {umask : UInt32} {tsDir : String} {p q : FsPath}
  {x : FileProjection} {o : Outcome}

theorem writeFile_frame_dir {a : FileData} (h : t.writeFile (tsDir :: p) a = .ok t')
    (hq : ¬ [tsDir] <+: q) : t'[q]? = t[q]? := by
  refine FileTree.writeFile_frame h ?_
  rintro rfl
  exact hq (by simp)

theorem writePart_frame (hq : ¬ [tsDir] <+: q) :
    (writePart t umask tsDir p x o)[q]? = t[q]? := by
  rw [writePart]
  split
  · rfl
  · next t₁ hmk _ => exact FileTree.mkdirAll_frame hmk hq
  · next t₁ n hmk _ =>
    split
    · exact FileTree.mkdirAll_frame hmk hq
    · next t₂ hw => rw [writeFile_frame_dir hw hq, FileTree.mkdirAll_frame hmk hq]

theorem writeFileToDir_frame (t : FileTree FileData) (umask : UInt32) (p : FsPath)
    (x : FileProjection) (o : Outcome) (hq : ¬ [tsDir] <+: q) :
    (writeFileToDir t umask tsDir p x o).1[q]? = t[q]? := by
  rw [writeFileToDir]
  split
  · exact writePart_frame hq
  · split
    · rfl
    · next t₁ hmk =>
      dsimp only
      split
      · exact FileTree.mkdirAll_frame hmk hq
      · next t₂ hw => rw [writeFile_frame_dir hw hq, FileTree.mkdirAll_frame hmk hq]

/-- A round that does not fail has written its file. -/
theorem holds_writeFileToDir {g : FsPath → Option FileData} (hg : t.Holds [tsDir] g)
    (h : (writeFileToDir t umask tsDir p x o).2 = none) :
    ∃ mode, (writeFileToDir t umask tsDir p x o).1.Holds [tsDir]
      (Function.update g p (some ⟨x.data, mode⟩)) := by
  rw [writeFileToDir] at h ⊢
  split at h
  · simp at h
  split at h
  · simp at h
  next t₁ hmk =>
  dsimp only at h ⊢
  split at h
  · simp at h
  next t₂ hw => exact ⟨_, hg.write hmk hw⟩

theorem removeDir_frame {dir : FsPath} (hq : ¬ dir <+: q) : (removeDir t dir o).1[q]? = t[q]? := by
  rw [removeDir]
  split
  · exact FileTree.removeSome_frame hq
  · exact FileTree.removeSome_frame hq

/-- A round makes a link, or there is one, or its `Readlink` has failed. -/
theorem createUserVisibleFile_eq_ok {c : String}
    (h : createUserVisibleFile t (c :: p) o = .ok t') :
    (t[[c]]? = none ∧ t' = t.insert [c] (.link [dataDirName, c])) ∨
      t' = t ∧ (o.readlinkFailure = none → t[[c]]? ≠ none) := by
  rw [createUserVisibleFile] at h
  split at h
  · next hfail =>
    rw [Except.ok.injEq] at h
    refine .inr ⟨h.symm, fun hnone => ?_⟩
    rw [hnone] at hfail
    simp at hfail
  · split at h
    · split at h
      · simp at h
      · exact .inl (FileTree.symlink_eq_ok.mp h)
    · next hlink =>
      rw [Except.ok.injEq] at h
      refine .inr ⟨h.symm, fun _ hnone => ?_⟩
      exact hlink (FileTree.readlink_eq_notExist.mpr hnone)

/-- A round removes a name, or leaves everything as it is. -/
theorem removeUserVisiblePath_fst (t : FileTree FileData) (path : FsPath)
    (lasterr : Option Errno) (o : Outcome) :
    (removeUserVisiblePath t path lasterr o).1 = t ∨
      ∃ c, path = [c] ∧ (removeUserVisiblePath t path lasterr o).1 = t.erase [c] := by
  unfold removeUserVisiblePath
  split
  · next c =>
    split
    · exact .inl rfl
    · split
      · exact .inl rfl
      · next t₁ hr => exact .inr ⟨c, rfl, FileTree.eq_erase_of_remove hr⟩
  · exact .inl rfl

theorem remaining_visitIn (job : WriteJob) (order : List Nat) :
    Remaining job (visitIn order job.cleanPayload.toList) where
  nodup := by
    rw [((perm_visitIn order _).map Prod.fst).nodup_iff, Std.ExtTreeMap.map_fst_toList_eq_keys]
    exact Std.ExtTreeMap.nodup_keys
  mem hx := by
    rw [(perm_visitIn order _).mem_iff] at hx
    exact Std.ExtTreeMap.mem_toList_iff_getElem?_eq_some.mp hx

theorem mem_visitIn_of_getElem? {job : WriteJob} {order : List Nat}
    (h : job.cleanPayload[p]? = some x) :
    p ∈ (visitIn order job.cleanPayload.toList).map Prod.fst := by
  refine List.mem_map.mpr ⟨(p, x), ?_, rfl⟩
  rw [(perm_visitIn order _).mem_iff]
  exact Std.ExtTreeMap.mem_toList_iff_getElem?_eq_some.mpr h

end rounds

/-! ## Every step keeps the invariant and is one of the publication -/

/-- A step leads to a state of the invariant, and the publication takes one. Only the
rename publishes. -/
structure Good (reliable strict : Prop) (w w' : AtomicWriter) : Prop where
  inv : WriterInv reliable w'
  next : Publication.Next (Serves strict) w.abs w'.abs
  kept : w'.abs.published = w.abs.published ∧ w'.tree[[dataDirName]]? = w.tree[[dataDirName]]? ∨
    ∃ job tsDir, w.pc = .moving job tsDir ∧ w'.abs.published = job.cleanPayload.files

section phases

variable {reliable strict : Prop} {t t' : FileTree FileData} {f : FsPath → Option FileData}
  {pc pc' : WritePc} {umask : UInt32} {o : Outcome} {w' : AtomicWriter} {job : WriteJob}
  {tsDir : String} {todo : List (FsPath × FileProjection)}

/-- A step after which the same files are published. -/
theorem good_of_kept (h : Managed reliable t f) (h' : Managed reliable t' f)
    (hdata : t'[[dataDirName]]? = t[[dataDirName]]?) (hpc' : PcInv reliable t' f pc')
    (hnext : Publication.Next (Serves strict) ⟨fun p => (f p).map (·.data), pc.publisher⟩
      ⟨fun p => (f p).map (·.data), pc'.publisher⟩) :
    Good reliable strict ⟨t, pc⟩ ⟨t', pc'⟩ := by
  have habs : (AtomicWriter.mk t pc).abs = ⟨fun p => (f p).map (·.data), pc.publisher⟩ := by
    rw [AtomicWriter.abs, h.publishedFiles_eq]
  have habs' : (AtomicWriter.mk t' pc').abs = ⟨fun p => (f p).map (·.data), pc'.publisher⟩ := by
    rw [AtomicWriter.abs, h'.publishedFiles_eq]
  exact ⟨⟨f, h', hpc'⟩, by rw [habs, habs']; exact hnext, .inl ⟨by rw [habs, habs'], hdata⟩⟩

/-- A step that does not change the tree. -/
theorem good_of_tree (h : Managed reliable t f) (hpc' : PcInv reliable t f pc')
    (hnext : Publication.Next (Serves strict) ⟨fun p => (f p).map (·.data), pc.publisher⟩
      ⟨fun p => (f p).map (·.data), pc'.publisher⟩) :
    Good reliable strict ⟨t, pc⟩ ⟨t, pc'⟩ :=
  good_of_kept h h rfl hpc' hnext

theorem publisher_called {payload : Payload} {cleanPayload : CleanPayload}
    (h : validatePayload payload = .ok cleanPayload) :
    (WritePc.called payload).publisher = .running (some cleanPayload.files) := by
  simp only [WritePc.publisher, h]
  rfl

theorem called_good {payload : Payload} (hx : strict → o.unread = []) (h : Managed reliable t f)
    (hu : Unreserved payload) (hs : next umask t o (.called payload) = some w') :
    Good reliable strict ⟨t, .called payload⟩ w' := by
  rw [next] at hs
  split at hs
  · rw [Option.some.injEq] at hs
    exact hs ▸ good_of_tree h trivial .fail
  · next hp =>
    rw [Option.some.injEq] at hs
    obtain ⟨cleanPayload, hvalid, hserves⟩ := prepareWrite_eq_none h hp
    refine hs ▸ good_of_tree h trivial ?_
    rw [publisher_called hvalid]
    exact .succeed ⟨hserves.has, fun hstrict => hserves.only (hx hstrict)⟩
  · next job hp =>
    rw [Option.some.injEq] at hs
    obtain ⟨hvalid, hjob⟩ := prepareWrite_eq_some h hu hp
    refine hs ▸ good_of_tree h hjob ?_
    rw [publisher_called hvalid]
    exact .goOn

theorem making_good (h : Managed reliable t f) (hjob : JobInv t job)
    (hs : next umask t o (.making job) = some w') : Good reliable strict ⟨t, .making job⟩ w' := by
  rw [next] at hs
  split at hs
  · rw [Option.some.injEq] at hs
    exact hs ▸ good_of_tree h trivial .fail
  split at hs
  swap
  · simp at hs
  next hfresh =>
  rw [isFreshTsDir, Bool.and_eq_true, List.all_eq_true] at hfresh
  obtain ⟨hname, hfresh⟩ := hfresh
  have hnone : ∀ q, t[[o.name] ++ q]? = none := by
    intro q
    refine Std.ExtTreeMap.getElem?_eq_none fun hmem => ?_
    simpa using hfresh _ (Std.ExtTreeMap.mem_keys.mpr hmem)
  have hts : Unpublished t o.name := by
    refine ⟨hname, fun hdata => ?_⟩
    obtain ⟨hdata', -⟩ | ⟨d, hd, -, hf⟩ := h.data
    · rw [hdata] at hdata'
      simp at hdata'
    · rw [hdata, Option.some.injEq, Node.link.injEq, List.cons.injEq] at hd
      have hdir := hf.dir
      rw [← hd.1] at hdir
      rw [show ([o.name] : FsPath) = [o.name] ++ [] from rfl, hnone] at hdir
      simp at hdir
  have hframe : ∀ q, ¬ [o.name] <+: q → (t.insert [o.name] .dir)[q]? = t[q]? := by
    intro q hq
    rw [FileTree.getElem?_insert, if_neg]
    rintro rfl
    exact hq List.prefix_rfl
  have h' : Managed reliable (t.insert [o.name] .dir) f :=
    h.of_unpublished hts fun q hq _ => hframe q hq
  have hdata := hts.frame_data hframe
  dsimp only at hs
  split at hs
  · rw [Option.some.injEq] at hs
    exact hs ▸ good_of_kept h h' hdata trivial .fail
  · rw [Option.some.injEq] at hs
    refine hs ▸ good_of_kept h h' hdata ⟨hjob.congr hdata, hts.congr hdata, remaining_visitIn job _,
      fun _ => none, .mkdir hnone, fun p => ?_⟩ .goOn
    split
    · rfl
    · next hp =>
      rw [CleanPayload.files]
      cases hx : job.cleanPayload[p]? with
      | none => rfl
      | some x => exact absurd (mem_visitIn_of_getElem? hx) hp

theorem writing_good (h : Managed reliable t f) (hjob : JobInv t job) (hts : Unpublished t tsDir)
    (hrem : Remaining job todo) (hbuilt : BuiltVersion t tsDir job todo)
    (hs : next umask t o (.writing job tsDir todo) = some w') :
    Good reliable strict ⟨t, .writing job tsDir todo⟩ w' := by
  cases todo with
  | nil =>
    rw [next, Option.some.injEq] at hs
    exact hs ▸ good_of_tree h ⟨hjob, hts, remaining_visitIn job _, hbuilt,
      fun _ _ _ _ hx => .inl (mem_visitIn_of_getElem? hx)⟩ .goOn
  | cons px todo =>
    obtain ⟨p, x⟩ := px
    have hframe := fun q (hq : ¬ [tsDir] <+: q) =>
      writeFileToDir_frame t umask p x o hq
    have h' := h.of_unpublished hts fun q hq _ => hframe q hq
    have hdata := hts.frame_data hframe
    rw [next] at hs
    split at hs
    · next t₁ e hw =>
      rw [hw] at h' hdata
      rw [Option.some.injEq] at hs
      exact hs ▸ good_of_kept h h' hdata trivial .fail
    · next t₁ hw =>
      obtain ⟨g, hg, hfiles⟩ := hbuilt
      have hnone : (writeFileToDir t umask tsDir p x o).2 = none := by rw [hw]
      obtain ⟨mode, hg'⟩ := holds_writeFileToDir hg hnone
      rw [hw] at h' hdata hg'
      rw [Option.some.injEq] at hs
      have hnodup := List.nodup_cons.mp hrem.nodup
      refine hs ▸ good_of_kept h h' hdata ⟨hjob.congr hdata, hts.congr hdata,
        ⟨hnodup.2, fun hq => hrem.mem (List.mem_cons_of_mem _ hq)⟩, _, hg', fun q => ?_⟩ .goOn
      rw [Function.update_apply]
      by_cases hq : q = p
      · subst hq
        rw [if_pos rfl, if_neg hnodup.1, CleanPayload.files, hrem.mem List.mem_cons_self]
        rfl
      · rw [if_neg hq, hfiles]
        simp only [List.map_cons, List.mem_cons, hq, false_or]

theorem linking_good (hr : reliable → o.readlinkFailure = none) (h : Managed reliable t f)
    (hjob : JobInv t job) (hts : Unpublished t tsDir) (hrem : Remaining job todo)
    (hbuilt : BuiltVersion t tsDir job []) (hlinked : Linked reliable t job todo)
    (hs : next umask t o (.linking job tsDir todo) = some w') :
    Good reliable strict ⟨t, .linking job tsDir todo⟩ w' := by
  cases todo with
  | nil =>
    rw [next, Option.some.injEq] at hs
    exact hs ▸ good_of_tree h ⟨hjob, hts, hbuilt, hlinked⟩ .goOn
  | cons px todo =>
    obtain ⟨p, x⟩ := px
    have hrem' : Remaining job todo :=
      ⟨(List.nodup_cons.mp hrem.nodup).2, fun hq => hrem.mem (List.mem_cons_of_mem _ hq)⟩
    rw [next] at hs
    split at hs
    · rw [Option.some.injEq] at hs
      exact hs ▸ good_of_tree h trivial .fail
    next t₁ hcreate =>
    rw [Option.some.injEq] at hs
    cases p with
    | nil =>
      rw [createUserVisibleFile, Except.ok.injEq] at hcreate
      subst hcreate
      refine hs ▸ good_of_tree h ⟨hjob, hts, hrem', hbuilt, fun hr' c q y hy => ?_⟩ .goOn
      exact (hlinked hr' hy).imp_left fun hmem => by simpa using hmem
    | cons c p =>
      have hc : hasDotDot c = false := hjob.unreserved (hrem.mem List.mem_cons_self)
      -- after the round the name is linked, unless its `Readlink` failed
      have hlink : ∀ {t₁ : FileTree FileData}, (∀ d, d ≠ c → t₁[[d]]? = t[[d]]?) →
          (reliable → t₁[[c]]? = some (.link [dataDirName, c])) → Linked reliable t₁ job todo := by
        intro t₁ ht hc₁ hr' d q y hy
        by_cases hd : d = c
        · exact .inr (hd ▸ hc₁ hr')
        · rw [ht d hd]
          exact (hlinked hr' hy).imp_left fun hmem => by simpa [hd] using hmem
      obtain ⟨-, rfl⟩ | ⟨rfl, hsome⟩ := createUserVisibleFile_eq_ok hcreate
      · have hlook : ∀ q, q ≠ [c] →
            (t.insert [c] (.link [dataDirName, c]))[q]? = t[q]? := fun q hq => by
          rw [FileTree.getElem?_insert, if_neg (Ne.symm hq)]
        have hself : (t.insert [c] (.link [dataDirName, c]))[[c]]? =
            some (.link [dataDirName, c]) := by
          rw [FileTree.getElem?_insert, if_pos rfl]
        have hcdata : ([dataDirName] : FsPath) ≠ [c] := by
          intro he
          rw [List.cons.injEq] at he
          rw [← he.1] at hc
          exact absurd hc (by decide)
        have hcts : ∀ q, tsDir :: q ≠ [c] := by
          intro q he
          rw [List.cons.injEq] at he
          rw [← he.1, hasDotDot_of_isTsDirName hts.name] at hc
          simp at hc
        refine hs ▸ good_of_kept h (h.of_visible hc hlook (.inl hself)) (hlook _ hcdata)
          ⟨hjob.congr (hlook _ hcdata), hts.congr (hlook _ hcdata), hrem',
            hbuilt.congr fun q => hlook _ (hcts q),
            hlink (fun d hd => hlook _ (by simpa using hd)) fun _ => hself⟩ .goOn
      · refine hs ▸ good_of_tree h ⟨hjob, hts, hrem', hbuilt,
          hlink (fun _ _ => rfl) fun hr' => ?_⟩ .goOn
        exact (h.visible c hc).resolve_left (hsome (hr hr'))

theorem symlinking_good (h : Managed reliable t f) (hjob : JobInv t job)
    (hts : Unpublished t tsDir) (hbuilt : BuiltVersion t tsDir job []) (hlinked : Linked reliable t job [])
    (hs : next umask t o (.symlinking job tsDir) = some w') :
    Good reliable strict ⟨t, .symlinking job tsDir⟩ w' := by
  rw [next] at hs
  split at hs
  · rw [Option.some.injEq] at hs
    exact hs ▸ good_of_tree h hts .goOn
  split at hs
  · rw [Option.some.injEq] at hs
    exact hs ▸ good_of_tree h hts .goOn
  next t₁ hsym =>
  rw [Option.some.injEq] at hs
  obtain ⟨-, rfl⟩ := FileTree.symlink_eq_ok.mp hsym
  have hlook : ∀ q, q ≠ [newDataDirName] →
      (t.insert [newDataDirName] (.link [tsDir]))[q]? = t[q]? := fun q hq => by
    rw [FileTree.getElem?_insert, if_neg (Ne.symm hq)]
  have hdata := hlook [dataDirName] (by decide)
  refine hs ▸ good_of_kept h (h.of_unpublished hts fun q _ hq => hlook q hq) hdata
    ⟨hjob.congr hdata, hts.congr hdata, hbuilt.congr fun q => hlook _ ?_, fun hr' c p x hx => ?_,
      ?_⟩ .goOn
  · intro he
    rw [List.cons.injEq] at he
    exact hts.ne_newDataDirName he.1
  · refine .inr ((hlook [c] ?_).trans ((hlinked hr' hx).resolve_left (by simp)))
    intro he
    have hc := hjob.unreserved hx
    rw [List.cons.injEq] at he
    rw [he.1] at hc
    exact absurd hc (by decide)
  · rw [FileTree.getElem?_insert, if_pos rfl]

/-- The rename publishes the payload, and does nothing else. -/
theorem moving_good (h : Managed reliable t f) (hjob : JobInv t job) (hts : Unpublished t tsDir)
    (hbuilt : BuiltVersion t tsDir job []) (hlinked : Linked reliable t job [])
    (htmp : t[[newDataDirName]]? = some (.link [tsDir]))
    (hs : next umask t o (.moving job tsDir) = some w') :
    Good reliable strict ⟨t, .moving job tsDir⟩ w' := by
  rw [next] at hs
  split at hs
  · rw [Option.some.injEq] at hs
    exact hs ▸ good_of_tree h hts .goOn
  split at hs
  · rw [Option.some.injEq] at hs
    exact hs ▸ good_of_tree h hts .goOn
  next t₁ hren =>
  rw [Option.some.injEq] at hs
  obtain rfl : t₁ = (t.erase [newDataDirName]).insert [dataDirName] (.link [tsDir]) := by
    rw [FileTree.rename, FileTree.lookup_cons, FileTree.lookup_cons, htmp] at hren
    split at hren <;> simp_all
  obtain ⟨g, hg, hfiles⟩ := hbuilt
  simp only [List.map_nil, List.not_mem_nil, if_false] at hfiles
  have hlook : ∀ q, q ≠ [dataDirName] → q ≠ [newDataDirName] →
      ((t.erase [newDataDirName]).insert [dataDirName] (.link [tsDir]))[q]? = t[q]? := by
    intro q hq hq'
    rw [FileTree.getElem?_insert, if_neg (Ne.symm hq), FileTree.getElem?_erase,
      if_neg (Ne.symm hq')]
  have hdata : ((t.erase [newDataDirName]).insert [dataDirName] (.link [tsDir]))[[dataDirName]]? =
      some (.link [tsDir]) := by rw [FileTree.getElem?_insert, if_pos rfl]
  have hvis : ∀ c, hasDotDot c = false →
      ((t.erase [newDataDirName]).insert [dataDirName] (.link [tsDir]))[[c]]? = t[[c]]? := by
    intro c hc
    refine hlook _ ?_ ?_
    all_goals
      intro he
      rw [List.cons.injEq] at he
      rw [he.1] at hc
      exact absurd hc (by decide)
  -- the files of the new version are those of the payload
  have hx : ∀ {c p a}, g (c :: p) = some a → ∃ x, job.cleanPayload[c :: p]? = some x := by
    intro c p a ha
    have := hfiles (c :: p)
    rw [ha, CleanPayload.files] at this
    cases hx : job.cleanPayload[c :: p]? with
    | none => rw [hx] at this; simp at this
    | some x => exact ⟨x, rfl⟩
  have hnone : ∀ {c p}, job.cleanPayload[c :: p]? = none → g (c :: p) = none := by
    intro c p hc
    cases ha : g (c :: p) with
    | none => rfl
    | some a =>
      obtain ⟨x, hx⟩ := hx ha
      rw [hx] at hc
      simp at hc
  have h' : Managed reliable ((t.erase [newDataDirName]).insert [dataDirName] (.link [tsDir])) g :=
    { data := .inr ⟨tsDir, hdata, hts.name, hg.congr fun q => hlook _
        (by rintro he; exact hts.ne_dataDirName (List.cons.inj he).1)
        (by rintro he; exact hts.ne_newDataDirName (List.cons.inj he).1)⟩
      visible := fun c hc => by rw [hvis c hc]; exact h.visible c hc
      linked := fun hr' c p a ha => by
        obtain ⟨x, hx⟩ := hx ha
        rw [hvis c (hjob.unreserved hx)]
        exact (hlinked hr' hx).resolve_left (by simp)
      unreserved := fun ha => by
        obtain ⟨x, hx⟩ := hx ha
        exact hjob.unreserved hx }
  have hpub : publishedFiles ((t.erase [newDataDirName]).insert [dataDirName] (.link [tsDir])) =
      job.cleanPayload.files := by rw [h'.publishedFiles_eq, funext hfiles]
  refine hs ▸ ⟨⟨g, h', funext hfiles, fun c hc => ?_, fun dir hdir => ?_⟩, ?_,
    .inr ⟨_, _, rfl, hpub⟩⟩
  · rw [(perm_visitIn _ _).mem_iff] at hc
    exact ⟨(hjob.prune hc).1, fun p => hnone ((hjob.prune hc).2 p)⟩
  · -- the old version is not the one that is published now
    obtain ⟨hnone, -⟩ | ⟨d, hd, hdata'⟩ := hjob.old
    · rw [hnone] at hdir
      simp at hdir
    · rw [hd, Option.mem_some_iff] at hdir
      obtain ⟨hnone, -⟩ | ⟨d', hd', hname, -⟩ := h.data
      · rw [hdata'] at hnone
        simp at hnone
      · rw [hdata', Option.some.injEq, Node.link.injEq, List.cons.injEq] at hd'
        refine ⟨d, hdir.symm, hd'.1 ▸ hname, fun he => hts.not_target ?_⟩
        rw [hdata, Option.some.injEq, Node.link.injEq] at he
        rw [hdata', he]
  · rw [AtomicWriter.abs, AtomicWriter.abs, hpub]
    exact .publish

theorem unlinking_good {err : Errno} (h : Managed reliable t f) (hts : Unpublished t tsDir)
    (hs : next umask t o (.unlinking job tsDir err) = some w') :
    Good reliable strict ⟨t, .unlinking job tsDir err⟩ w' := by
  rw [next] at hs
  split at hs
  · next t₁ _ hrem =>
    rw [Option.some.injEq] at hs
    obtain rfl := FileTree.eq_erase_of_remove hrem
    have hlook : ∀ q, q ≠ [newDataDirName] → (t.erase [newDataDirName])[q]? = t[q]? :=
      fun q hq => by rw [FileTree.getElem?_erase, if_neg (Ne.symm hq)]
    have hdata := hlook [dataDirName] (by decide)
    exact hs ▸ good_of_kept h (h.of_unpublished hts fun q _ hq => hlook q hq) hdata
      (hts.congr hdata) .goOn
  · rw [Option.some.injEq] at hs
    exact hs ▸ good_of_tree h hts .goOn

theorem cleaning_good {err : Errno} (h : Managed reliable t f) (hts : Unpublished t tsDir)
    (hs : next umask t o (.cleaning job tsDir err) = some w') :
    Good reliable strict ⟨t, .cleaning job tsDir err⟩ w' := by
  rw [next, Option.some.injEq] at hs
  exact hs ▸ good_of_kept h (h.of_unpublished hts fun q hq _ => removeDir_frame hq)
    (hts.frame_data fun q hq => removeDir_frame hq) trivial .fail

theorem pruning_good {todo : List FsPath} {lasterr : Option Errno} (h : Managed reliable t f)
    (hpc : PcInv reliable t f (.pruning job todo lasterr))
    (hs : next umask t o (.pruning job todo lasterr) = some w') :
    Good reliable strict ⟨t, .pruning job todo lasterr⟩ w' := by
  obtain ⟨hfiles, hprune, hold⟩ := hpc
  cases todo with
  | nil =>
    unfold next at hs
    dsimp only at hs
    split at hs
    · rw [Option.some.injEq] at hs
      exact hs ▸ good_of_tree h trivial .fail
    · rw [Option.some.injEq] at hs
      refine hs ▸ good_of_tree h trivial ?_
      rw [hfiles]
      exact .succeed .rfl
    · next dir hdir =>
      rw [Option.some.injEq] at hs
      exact hs ▸ good_of_tree h ⟨hfiles, hold dir hdir⟩ .goOn
  | cons path todo =>
    rw [next, Option.some.injEq] at hs
    have hprune' := fun c hc => hprune c (List.mem_cons_of_mem path hc)
    obtain heq | ⟨c, rfl, heq⟩ := removeUserVisiblePath_fst t path lasterr o
    · refine hs ▸ good_of_kept h (by rw [heq]; exact h) (by rw [heq]) ⟨hfiles, hprune', ?_⟩ .goOn
      rw [heq]
      exact hold
    · obtain ⟨hc, hf⟩ := hprune c List.mem_cons_self
      have hlook : ∀ q, q ≠ [c] → (t.erase [c])[q]? = t[q]? := fun q hq => by
        rw [FileTree.getElem?_erase, if_neg (Ne.symm hq)]
      have hself : (t.erase [c])[[c]]? = none := by rw [FileTree.getElem?_erase, if_pos rfl]
      have hcdata : ([dataDirName] : FsPath) ≠ [c] := by
        intro he
        rw [List.cons.injEq] at he
        rw [← he.1] at hc
        exact absurd hc (by decide)
      refine hs ▸ good_of_kept h (heq ▸ h.of_visible hc hlook (.inr ⟨hself, hf⟩))
        (heq ▸ hlook _ hcdata) ⟨hfiles, hprune', fun dir hdir => ?_⟩ .goOn
      obtain ⟨d, hd, hts⟩ := hold dir hdir
      rw [heq]
      exact ⟨d, hd, hts.congr (hlook _ hcdata)⟩

theorem discarding_good {dir : FsPath} (h : Managed reliable t f)
    (hfiles : (fun p => (f p).map (·.data)) = job.cleanPayload.files)
    (hts : ∃ d, dir = [d] ∧ Unpublished t d)
    (hs : next umask t o (.discarding job dir) = some w') :
    Good reliable strict ⟨t, .discarding job dir⟩ w' := by
  obtain ⟨d, rfl, hts⟩ := hts
  rw [next, Option.some.injEq] at hs
  refine hs ▸ good_of_kept h (h.of_unpublished hts fun q hq _ => removeDir_frame hq)
    (hts.frame_data fun q hq => removeDir_frame hq) trivial ?_
  rw [hfiles, removeDir]
  split
  · exact .fail
  · exact .succeed .rfl

end phases

/-- Every step of a call. -/
theorem next_good {reliable strict : Prop} {umask : UInt32} {w w' : AtomicWriter} {o : Outcome}
    (hr : reliable → o.readlinkFailure = none)
    (hx : strict → ∀ payload, w.pc = .called payload → o.unread = []) (hw : WriterInv reliable w)
    (hs : next umask w.tree o w.pc = some w') : Good reliable strict w w' := by
  obtain ⟨t, pc⟩ := w
  obtain ⟨f, h, hpc⟩ := hw
  cases pc with
  | idle result => simp [next] at hs
  | called payload => exact called_good (fun hstrict => hx hstrict payload rfl) h hpc hs
  | making job => exact making_good h hpc hs
  | writing job tsDir todo =>
    obtain ⟨hjob, hts, hrem, hbuilt⟩ := hpc
    exact writing_good h hjob hts hrem hbuilt hs
  | linking job tsDir todo =>
    obtain ⟨hjob, hts, hrem, hbuilt, hlinked⟩ := hpc
    exact linking_good hr h hjob hts hrem hbuilt hlinked hs
  | symlinking job tsDir =>
    obtain ⟨hjob, hts, hbuilt, hlinked⟩ := hpc
    exact symlinking_good h hjob hts hbuilt hlinked hs
  | moving job tsDir =>
    obtain ⟨hjob, hts, hbuilt, hlinked, htmp⟩ := hpc
    exact moving_good h hjob hts hbuilt hlinked htmp hs
  | unlinking job tsDir err => exact unlinking_good h hpc hs
  | cleaning job tsDir err => exact cleaning_good h hpc hs
  | pruning job todo lasterr => exact pruning_good h hpc hs
  | discarding job dir => exact discarding_good h hpc.1 hpc.2 hs

theorem publisher_of_next {umask : UInt32} {w w' : AtomicWriter} {o : Outcome}
    (hs : next umask w.tree o w.pc = some w') : ∃ v, w.pc.publisher = .running v := by
  cases hpc : w.pc with
  | idle result =>
    rw [hpc] at hs
    simp [next] at hs
  | _ => exact ⟨_, rfl⟩

/-- A call that is to publish `v`, or has succeeded with it. -/
def Publishes (strict : Prop) (v : Files) (w : AtomicWriter) : Prop :=
  (w.abs.publisher = .succeeded → Serves strict w.abs.published v) ∧
    ∀ v', w.abs.publisher = .running v' → v' = some v

theorem Publishes.next {reliable strict : Prop} {umask : UInt32} {v : Files} {w w' : AtomicWriter}
    {o : Outcome} (h : Publishes strict v w) (hgood : Good reliable strict w w')
    (hs : next umask w.tree o w.pc = some w') : Publishes strict v w' := by
  obtain ⟨v', hrunning⟩ := publisher_of_next hs
  have hrunning : w.abs.publisher = .running v' := hrunning
  have hnext := hgood.next
  unfold Publishes at h ⊢
  generalize w.abs = a at hnext h hrunning
  generalize w'.abs = a' at hnext
  cases hnext with
  | begin version hidle => exact absurd hrunning (hidle v')
  | goOn => exact h
  | publish => exact ⟨by simp, h.2⟩
  | @succeed g c hserves =>
    have hc : c = v := by simpa using h.2 _ rfl
    exact ⟨fun _ => hc ▸ hserves, by simp⟩
  | fail => simp
  | crash => simp

/-! ## Runs -/

section runs

variable {reliable : Prop} {umask : UInt32} {tree : FileTree FileData}
  {f : FsPath → Option FileData} {es : List WriterEvent} {w w' : AtomicWriter} {e : WriterEvent}

/-- If the step walks the old version, the walk does not fail. -/
def Walked (w : AtomicWriter) (e : WriterEvent) : Prop :=
  ∀ payload o, w.pc = .called payload → e = .step o → o.unread = []

theorem step_good (he : Allowed reliable e) (hw : WriterInv reliable w)
    (hs : step umask w e = some w') : Good reliable (Walked w e) w w' := by
  cases e with
  | write payload =>
    rw [step] at hs
    split at hs
    · next result hpc =>
      rw [Option.some.injEq] at hs
      subst hs
      obtain ⟨f, hf, -⟩ := hw
      refine ⟨⟨f, hf, he⟩, .begin _ fun v hv => ?_, .inl ⟨rfl, rfl⟩⟩
      change w.pc.publisher = _ at hv
      rw [hpc, WritePc.publisher.eq_def] at hv
      split at hv <;> simp_all
    · simp at hs
  | step o => exact next_good he (fun hwalk payload hpc => hwalk payload o hpc rfl) hw hs
  | crash =>
    rw [step, Option.some.injEq] at hs
    subst hs
    obtain ⟨f, hf, -⟩ := hw
    exact ⟨⟨f, hf, trivial⟩, .crash, .inl ⟨rfl, rfl⟩⟩

theorem inv_of_run (h₀ : Managed reliable tree f) (hes : ∀ e ∈ es, Allowed reliable e)
    (hrun : (system umask tree).run es = some w) : WriterInv reliable w :=
  (system umask tree).runFrom_invariant (fun he hw hs => (step_good he hw hs).inv) hes
    (s := (system umask tree).init) ⟨f, h₀, trivial⟩ hrun

/-- An empty directory. -/
theorem managed_empty : Managed reliable ∅ fun _ => none where
  data := .inl ⟨by simp, fun _ => rfl⟩
  visible c _ := .inl (by simp)
  linked := by simp
  unreserved := by simp

def sampleWriterPayload : Payload :=
  ⟨[("tls.key", ⟨[1, 2], 0o644⟩), ("./ca//cert.pem", ⟨[3], 0o644⟩)], by decide⟩

/-- A call that is cut short in front of the rename, and one in which it fails. -/
def sampleWriterEvents : List WriterEvent :=
  .write sampleWriterPayload :: List.replicate 5 (.step { name := "..2024_05_01_10_00_00.1" }) ++
    .crash :: .write sampleWriterPayload ::
    List.replicate 9 (.step { name := "..2024_05_01_10_00_07.2" })

theorem sampleWriterEvents_allowed : ∀ e ∈ sampleWriterEvents, Allowed reliable e := by
  have hu : Unreserved sampleWriterPayload := by
    unfold Unreserved
    decide +kernel
  simp [sampleWriterEvents, Allowed, hu]

/-- A call for one of the two files, when the walk cannot read the old version: it
returns without an error, and the other file is still published. -/
example : ((system 0o22 ∅).run (sampleWriterEvents ++ [.step {}, .step {},
      .write ⟨[("tls.key", ⟨[1, 2], 0o644⟩)], by decide⟩, .step { unread := [[]] }])).map
    (fun w => (w.pc matches .idle (some (.ok ())), publishedFiles w.tree ["ca", "cert.pem"])) =
      some (true, some [3]) := by
  decide +kernel

/-- The version of the call in progress satisfies `P`. -/
def Running (P : Files → Prop) (w : AtomicWriter) : Prop :=
  ∀ v, w.abs.publisher = .running (some v) → P v

theorem running_idle {P : Files → Prop} {result : Option (Except WriteError Unit)}
    (h : w.pc = .idle result) : Running P w := by
  intro v hv
  rw [AtomicWriter.abs, h, WritePc.publisher.eq_def] at hv
  split at hv <;> simp_all

/-- What holds of every payload holds of the version of every call. -/
theorem Running.step {P : Files → Prop} (he : Allowed reliable e)
    (hpayload : ∀ payload cleanPayload, e = .write payload →
      validatePayload payload = .ok cleanPayload → P cleanPayload.files)
    (hw : WriterInv reliable w) (h : Running P w) (hs : step umask w e = some w') :
    Running P w' := by
  have hnext := (step_good he hw hs).next
  cases e with
  | write payload =>
    rw [AtomicWriter.step] at hs
    split at hs
    · rw [Option.some.injEq] at hs
      subst hs
      intro v hv
      rw [AtomicWriter.abs, WritePc.publisher, Publisher.running.injEq] at hv
      cases hvalid : validatePayload payload with
      | error text =>
        rw [hvalid] at hv
        simp [Except.toOption] at hv
      | ok cleanPayload =>
        rw [hvalid] at hv
        obtain rfl : cleanPayload.files = v := by simpa [Except.toOption] using hv
        exact hpayload payload cleanPayload rfl hvalid
    · simp at hs
  | step o =>
    obtain ⟨v, hrunning⟩ := publisher_of_next (show next umask w.tree o w.pc = some w' from hs)
    have hrunning : w.abs.publisher = .running v := hrunning
    unfold Running at h ⊢
    generalize w.abs = a at hnext h hrunning
    generalize w'.abs = a' at hnext
    cases hnext with
    | begin version hidle => exact absurd hrunning (hidle v)
    | goOn => exact h
    | publish => exact h
    | succeed => simp
    | fail => simp
    | crash => simp
  | crash =>
    rw [AtomicWriter.step, Option.some.injEq] at hs
    subst hs
    exact running_idle rfl

/-- The published version and that of the call in progress satisfy `P`. -/
structure AllVersions (P : Files → Prop) (w : AtomicWriter) : Prop where
  published : P w.abs.published
  running : Running P w

/-- What holds of the first version and of every payload holds of every version. -/
theorem AllVersions.step {P : Files → Prop} (he : Allowed reliable e)
    (hpayload : ∀ payload cleanPayload, e = .write payload →
      validatePayload payload = .ok cleanPayload → P cleanPayload.files)
    (hw : WriterInv reliable w) (h : AllVersions P w) (hs : step umask w e = some w') :
    AllVersions P w' := by
  refine ⟨?_, h.running.step he hpayload hw hs⟩
  obtain ⟨hkept, -⟩ | ⟨job, tsDir, hpc, hpub⟩ := (step_good he hw hs).kept
  · rw [hkept]
    exact h.published
  · rw [hpub]
    exact h.running _ (by rw [AtomicWriter.abs, hpc]; rfl)

/-- The versions that may be published: the first one and those of the calls. -/
def Version (tree : FileTree FileData) (es : List WriterEvent) (v : Files) : Prop :=
  v = publishedFiles tree ∨ ∃ payload cleanPayload, .write payload ∈ es ∧
    validatePayload payload = .ok cleanPayload ∧ v = cleanPayload.files

theorem version_of_run (h₀ : Managed reliable tree f) (hes : ∀ e ∈ es, Allowed reliable e)
    (hrun : (system umask tree).run es = some w) : Version tree es (publishedFiles w.tree) := by
  have hinv := (system umask tree).runFrom_invariant
    (I := fun w => WriterInv reliable w ∧ AllVersions (Version tree es) w)
    (fun {w e w'} (he : Allowed reliable e ∧ e ∈ es) hw hs => ⟨(step_good he.1 hw.1 hs).inv,
      hw.2.step he.1 (fun payload cleanPayload hp hvalid =>
        .inr ⟨payload, cleanPayload, hp ▸ he.2, hvalid, rfl⟩) hw.1 hs⟩)
    (fun e he => ⟨hes e he, he⟩) (s := (system umask tree).init)
    ⟨⟨f, h₀, trivial⟩, .inl rfl, running_idle rfl⟩ hrun
  exact hinv.2.published

/-- In every state of every run, at every moment of a call, each visible path reads
as the published version has it, and the published version is the first one or the
whole payload of one call: a reader of the directory never sees two mixed. -/
theorem visibleFiles_of_run (h₀ : Managed True tree f) (hes : ∀ e ∈ es, Allowed True e)
    (hrun : (system umask tree).run es = some w) :
    Version tree es (publishedFiles w.tree) ∧
      ∀ p : FsPath, (∀ c ∈ p.head?, hasDotDot c = false) →
        visibleFiles w.tree p = publishedFiles w.tree p := by
  obtain ⟨g, hg, -⟩ := inv_of_run h₀ hes hrun
  exact ⟨version_of_run h₀ hes hrun, fun p hp => hg.visibleFiles_eq hp⟩

theorem sampleWriterEvents_visible : ∃ w, (system 0o22 ∅).run sampleWriterEvents = some w ∧
    visibleFiles w.tree ["ca", "cert.pem"] = publishedFiles w.tree ["ca", "cert.pem"] := by
  have hsome : ((system 0o22 ∅).run sampleWriterEvents).isSome = true := by decide +kernel
  obtain ⟨w, hw⟩ := Option.isSome_iff_exists.mp hsome
  exact ⟨w, hw, (visibleFiles_of_run managed_empty sampleWriterEvents_allowed hw).2
    ["ca", "cert.pem"] (by decide +kernel)⟩

end runs

end CtrlMesh
