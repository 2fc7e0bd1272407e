import ControllerMesh.Impl.CertDir
import ControllerMesh.Proof.AtomicWriter

/-!
# A certificate in a directory is read as it was written

The six files of a certificate are one payload of the atomic writer, so what `read`
finds is the certificate of one call or none, wherever the calls have been cut short
(`readCerts_of_run`): a key never comes with the certificate of another call. And once a
call has returned without an error, it is found, or a later one.

* `preparable_prepareToWrite`: plain files of the same names are out of the way before the
  first write, unless their removal fails.
* `prepareToWrite_of_managed`: later there is nothing to remove, unless a `Readlink`
  fails and a link is taken for a file.
-/

namespace CtrlMesh

open Framework Wire AtomicWriter

/-- What is read of a certificate that was written. -/
def Artifacts.onDisk (certs : Artifacts) : Artifacts where
  key := some (certs.key.getD [])
  cert := some (certs.cert.getD [])
  caKey := some (certs.caKey.getD [])
  caCert := some (certs.caCert.getD [])
  resourceVersion := ""

/-! ## The payload of a certificate -/

theorem validatePath_certFilenames : ∀ n ∈ certFilenames, validatePath n = .ok () := by
  decide +kernel

theorem cleanPath_certFilenames : ∀ n ∈ certFilenames, cleanPath n = [n] := by
  decide +kernel

theorem hasDotDot_certFilenames : ∀ n ∈ certFilenames, hasDotDot n = false := by
  decide +kernel

theorem mem_certFilenames {certs : Artifacts} {kx : String × FileProjection}
    (h : kx ∈ (certToProjectionMap certs).entries) : kx.1 ∈ certFilenames :=
  show kx.1 ∈ (certToProjectionMap certs).entries.map Prod.fst from List.mem_map_of_mem h

/-- The entries of a certificate, when they are clean. -/
theorem validateEntries_eq_ok {entries : List (String × FileProjection)}
    (h : ∀ kx ∈ entries, kx.1 ∈ certFilenames) (acc : CleanPayload) :
    validateEntries acc entries =
      .ok (entries.foldl (fun acc kx => acc.insert [kx.1] kx.2) acc) := by
  induction entries generalizing acc with
  | nil => rfl
  | cons kx entries ih =>
    obtain ⟨k, x⟩ := kx
    have hk := h (k, x) List.mem_cons_self
    rw [validateEntries, validatePath_certFilenames k hk, cleanPath_certFilenames k hk]
    exact ih (fun kx hkx => h kx (List.mem_cons_of_mem _ hkx)) _

theorem validatePayload_certToProjectionMap (certs : Artifacts) :
    validatePayload (certToProjectionMap certs) = .ok ((certToProjectionMap certs).entries.foldl
      (fun acc kx => acc.insert [kx.1] kx.2) (∅ : CleanPayload)) :=
  validateEntries_eq_ok (fun _ => mem_certFilenames) ∅

theorem unreserved_certToProjectionMap (certs : Artifacts) :
    Unreserved (certToProjectionMap certs) := by
  intro kx hkx c hc
  have hk := mem_certFilenames hkx
  rw [cleanPath_certFilenames kx.1 hk, List.head?_cons, Option.mem_some_iff] at hc
  exact hc ▸ hasDotDot_certFilenames kx.1 hk

theorem getElem?_foldl_insert_of_notMem {entries : List (String × FileProjection)} {k : String}
    (hk : k ∉ entries.map Prod.fst) (acc : CleanPayload) :
    (entries.foldl (fun acc kx => acc.insert [kx.1] kx.2) acc)[[k]]? = acc[[k]]? := by
  induction entries generalizing acc with
  | nil => rfl
  | cons kx entries ih =>
    rw [List.map_cons, List.mem_cons, not_or] at hk
    rw [List.foldl_cons, ih hk.2, Std.ExtTreeMap.getElem?_insert, if_neg]
    rw [Std.LawfulEqCmp.compare_eq_iff_eq, List.cons.injEq]
    exact fun he => hk.1 he.1.symm

theorem getElem?_foldl_insert_of_mem {entries : List (String × FileProjection)} {k : String}
    {x : FileProjection} (hnodup : (entries.map Prod.fst).Nodup) (h : (k, x) ∈ entries)
    (acc : CleanPayload) :
    (entries.foldl (fun acc kx => acc.insert [kx.1] kx.2) acc)[[k]]? = some x := by
  induction entries generalizing acc with
  | nil => simp at h
  | cons kx entries ih =>
    obtain ⟨hkx, hnodup⟩ := List.nodup_cons.mp hnodup
    obtain rfl | h := List.mem_cons.mp h
    · rw [List.foldl_cons, getElem?_foldl_insert_of_notMem hkx, Std.ExtTreeMap.getElem?_insert_self]
    · exact ih hnodup h _

/-- Every file of a certificate is a file of its payload. -/
theorem files_certToProjectionMap {certs : Artifacts} {cleanPayload : CleanPayload}
    (h : validatePayload (certToProjectionMap certs) = .ok cleanPayload) {n : String}
    {x : FileProjection} (hx : (n, x) ∈ (certToProjectionMap certs).entries) :
    cleanPayload.files [n] = some x.data := by
  rw [validatePayload_certToProjectionMap, Except.ok.injEq] at h
  rw [← h, CleanPayload.files, getElem?_foldl_insert_of_mem (certToProjectionMap certs).nodup hx]
  rfl

/-! ## Reading -/

section read

variable {t : FileTree FileData} {f : FsPath → Option FileData} {c : String}

theorem stat_of_published (h : Managed True t f) {a : FileData} (hc : f [c] = some a) :
    t.stat [c] = .ok () := by
  obtain ⟨d, -, -, hresolve⟩ := h.resolve_visible hc
  rw [FileTree.stat, hresolve]

theorem stat_of_missing (h : Managed True t f) (hc : hasDotDot c = false)
    (hnone : ∀ p, f (c :: p) = none) : t.stat [c] = .error .notExist := by
  suffices hresolve : t.resolve FileTree.maxLinks [] [c] = .error .notExist by
    rw [FileTree.stat, hresolve]
  rw [FileTree.maxLinks]
  obtain hlink | hlink := h.visible c hc
  · exact FileTree.resolve_missing hlink 40
  · rw [FileTree.resolve_link hlink]
    show t.resolve 39 [] (dataDirName :: [c]) = _
    obtain ⟨hdata, -⟩ | ⟨d, hd, -, hf⟩ := h.data
    · exact FileTree.resolve_missing hdata 39
    · rw [FileTree.resolve_link hd, List.singleton_append, FileTree.resolve_dir hf.dir]
      refine FileTree.resolve_missing ?_ 38
      show t[[d] ++ [c]]? = none
      cases hnode : t[[d] ++ [c]]? with
      | none => rfl
      | some node =>
        cases node with
        | file a =>
          rw [hf.file_iff, hnone] at hnode
          simp at hnode
        | dir =>
          obtain ⟨p, a, ha, r, rfl⟩ := hf.needed (by simp) hnode
          rw [List.singleton_append, hnone] at ha
          simp at ha
        | link target => exact absurd hnode (hf.no_link _ _)

theorem readCertFile_eq {b : Bytes} (h : visibleFiles t [c] = some b) : readCertFile t c = .ok b := by
  rw [visibleFiles] at h
  rw [readCertFile]
  cases hread : t.readFile [c] with
  | error e => rw [hread] at h; simp [Except.toOption] at h
  | ok a => rw [hread] at h; simpa [Except.toOption] using h

theorem ensureExist_of_published (h : Managed True t f)
    (hall : ∀ n ∈ certFilenames, ∃ a, f [n] = some a) : ensureExist t = .ok () := by
  have hloop : ∀ names : List String, (∀ n ∈ names, ∃ a, f [n] = some a) →
      ensureFilesExist t names = .ok () := by
    intro names hnames
    induction names with
    | nil => rfl
    | cons n names ih =>
      obtain ⟨a, ha⟩ := hnames n List.mem_cons_self
      rw [ensureFilesExist, stat_of_published h ha]
      exact ih fun m hm => hnames m (List.mem_cons_of_mem _ hm)
  exact hloop _ hall

end read

/-! ## Before the first write -/

section prepare

variable {t : FileTree FileData} {c : String}

variable {o : PrepareOutcome}

theorem prepareFile_of_missing (h : t[[c]]? = none) : prepareFile t c o = t := by
  have hremove : t.remove [c] = .error .notExist := by rw [FileTree.remove, h]
  unfold prepareFile
  rw [FileTree.readlink_eq_notExist.mpr h, hremove]
  split
  · rfl
  · split
    · rfl
    · split
      · next hremove => cases hremove
      · rfl

theorem prepareFile_of_link {target : FsPath} (ho : o.readlinkFails = false)
    (h : t[[c]]? = some (.link target)) : prepareFile t c o = t := by
  unfold prepareFile
  rw [FileTree.readlink_eq_ok.mpr h, ho]
  split <;> rfl

theorem prepareFile_of_file {a : FileData} (hremoves : o.removeFails = false)
    (h : t[[c]]? = some (.file a)) : prepareFile t c o = t.erase [c] := by
  have hstat : t.stat [c] = .ok () := by
    rw [FileTree.stat, FileTree.resolve, FileTree.walk, List.nil_append, h]
    rfl
  have hlink : t.readlink [c] = .error .invalid := by
    rw [FileTree.readlink, FileTree.lstat_singleton, h]
  have hremove : t.remove [c] = .ok (t.erase [c]) := by rw [FileTree.remove, h]
  unfold prepareFile
  rw [hstat, hlink, hremove, hremoves]
  cases o.statFails <;> cases o.readlinkFails <;> rfl

/-- Nothing is in the way of the writer but plain files with the names `names`. -/
structure Preparable (names : List String) (t : FileTree FileData) : Prop where
  data : t[[dataDirName]]? = none
  visible (c : String) : hasDotDot c = false → t[[c]]? = none ∨
    t[[c]]? = some (.link [dataDirName, c]) ∨ c ∈ names ∧ ∃ a, t[[c]]? = some (.file a)

theorem Preparable.prepareFile {names : List String} (hc : hasDotDot c = false)
    (hlinks : o.readlinkFails = false) (hremoves : o.removeFails = false)
    (h : Preparable (c :: names) t) : Preparable names (prepareFile t c o) := by
  -- what is not the name itself is left, and cannot be one of the others
  have hother : ∀ {t' : FileTree FileData}, (∀ q, q ≠ [c] → t'[q]? = t[q]?) →
      (t'[[c]]? = none ∨ t'[[c]]? = some (.link [dataDirName, c])) → Preparable names t' := by
    intro t' ht hc'
    refine ⟨(ht _ ?_).trans h.data, fun d hd => ?_⟩
    · intro he
      rw [List.cons.injEq] at he
      rw [← he.1] at hc
      exact absurd hc (by decide)
    · by_cases hdc : d = c
      · subst hdc
        exact hc'.imp_right .inl
      · rw [ht _ (by simpa using hdc)]
        refine (h.visible d hd).imp_right (Or.imp_right fun hfile => ⟨?_, hfile.2⟩)
        exact (List.mem_cons.mp hfile.1).resolve_left hdc
  obtain hnone | hlink | ⟨-, a, hfile⟩ := h.visible c hc
  · rw [prepareFile_of_missing hnone]
    exact hother (fun _ _ => rfl) (.inl hnone)
  · rw [prepareFile_of_link hlinks hlink]
    exact hother (fun _ _ => rfl) (.inr hlink)
  · rw [prepareFile_of_file hremoves hfile]
    refine hother (fun q hq => ?_) (.inl ?_)
    · rw [FileTree.getElem?_erase, if_neg (Ne.symm hq)]
    · rw [FileTree.getElem?_erase, if_pos rfl]

/-- Plain files in the way are removed before the first write. -/
theorem preparable_prepareToWrite (h : Preparable certFilenames t)
    {outcome : String → PrepareOutcome} (hlinks : ∀ n, (outcome n).readlinkFails = false)
    (hremoves : ∀ n, (outcome n).removeFails = false) :
    Preparable [] (prepareToWrite t outcome) := by
  have hloop : ∀ (names : List String) (t : FileTree FileData),
      (∀ n ∈ names, hasDotDot n = false) → Preparable names t →
        Preparable [] (names.foldl (fun t n => prepareFile t n (outcome n)) t) := by
    intro names
    induction names with
    | nil => exact fun t _ h => h
    | cons n names ih =>
      intro t hnames h
      exact ih _ (fun m hm => hnames m (List.mem_cons_of_mem _ hm))
        (h.prepareFile (hnames n List.mem_cons_self) (hlinks n) (hremoves n))
  exact hloop certFilenames t hasDotDot_certFilenames h

theorem Preparable.managed (h : Preparable [] t) : Managed True t fun _ => none :=
  ⟨.inl ⟨h.data, fun _ => rfl⟩,
    fun c hc => (h.visible c hc).imp_right (Or.resolve_right · (by simp)), by simp, by simp⟩

/-- Before a later write there is nothing to remove. -/
theorem prepareToWrite_of_managed {f : FsPath → Option FileData} (h : Managed True t f)
    {outcome : String → PrepareOutcome} (hlinks : ∀ n, (outcome n).readlinkFails = false) :
    prepareToWrite t outcome = t := by
  have hfile : ∀ n ∈ certFilenames, prepareFile t n (outcome n) = t := by
    intro n hn
    obtain hnone | hlink := h.visible n (hasDotDot_certFilenames n hn)
    · exact prepareFile_of_missing hnone
    · exact prepareFile_of_link (hlinks n) hlink
  have hloop : ∀ names : List String, (∀ n ∈ names, prepareFile t n (outcome n) = t) →
      names.foldl (fun t n => prepareFile t n (outcome n)) t = t := by
    intro names hnames
    induction names with
    | nil => rfl
    | cons n names ih =>
      rw [List.foldl_cons, hnames n List.mem_cons_self]
      exact ih fun m hm => hnames m (List.mem_cons_of_mem _ hm)
  exact hloop _ hfile

end prepare

/-! ## Runs -/

/-- The files of the certificate are among the files. -/
def Artifacts.In (certs : Artifacts) (v : Files) : Prop :=
  ∀ {n : String} {x : FileProjection}, (n, x) ∈ (certToProjectionMap certs).entries →
    v [n] = some x.data

/-- A certificate whose files are published is read. -/
theorem readCerts_of_published {t : FileTree FileData} {f : FsPath → Option FileData}
    {certs : Artifacts} (hf : Managed True t f) (hcerts : certs.In (publishedFiles t)) :
    readCerts t = .ok certs.onDisk := by
  have hread : ∀ {n : String} {x : FileProjection},
      (n, x) ∈ (certToProjectionMap certs).entries → readCertFile t n = .ok x.data := by
    intro n x hx
    refine readCertFile_eq ((hf.visibleFiles_eq fun c hc => ?_).trans (hcerts hx))
    rw [List.head?_cons, Option.mem_some_iff] at hc
    exact hc ▸ hasDotDot_certFilenames n (mem_certFilenames hx)
  have hexist : ensureExist t = .ok () := by
    refine ensureExist_of_published hf fun n hn => ?_
    obtain ⟨⟨n, x⟩, hx, rfl⟩ : ∃ kx ∈ (certToProjectionMap certs).entries, kx.1 = n :=
      List.mem_map.mp hn
    have hb := hcerts hx
    rw [hf.publishedFiles_eq] at hb
    obtain ⟨a, ha, -⟩ := Option.map_eq_some_iff.mp hb
    exact ⟨a, ha⟩
  have hcaKey := hread (n := CAKeyName) (x := ⟨certs.caKey.getD [], 0o666⟩)
    (by simp [certToProjectionMap])
  have hcaCert := hread (n := CACertName) (x := ⟨certs.caCert.getD [], 0o666⟩)
    (by simp [certToProjectionMap])
  have hcert := hread (n := ServerCertName) (x := ⟨certs.cert.getD [], 0o666⟩)
    (by simp [certToProjectionMap])
  have hkey := hread (n := ServerKeyName) (x := ⟨certs.key.getD [], 0o666⟩)
    (by simp [certToProjectionMap])
  rw [readCerts, hexist, hcaKey, hcaCert, hcert, hkey]
  rfl

theorem readCerts_of_none {t : FileTree FileData} {f : FsPath → Option FileData}
    (hf : Managed True t f) (hdata : t[[dataDirName]]? = none) :
    readCerts t = .error .notFound := by
  have hmissing : ∀ p, f p = none := by
    obtain ⟨-, hnone⟩ | ⟨d, hd, -, -⟩ := hf.data
    · exact hnone
    · rw [hdata] at hd
      cases hd
  have hstat := stat_of_missing hf (hasDotDot_certFilenames CAKeyName (by decide))
    fun p => hmissing (CAKeyName :: p)
  rw [readCerts, ensureExist, certFilenames, ensureFilesExist, hstat]
  rfl

theorem in_files {certs : Artifacts} {cleanPayload : CleanPayload}
    (h : validatePayload (certToProjectionMap certs) = .ok cleanPayload) :
    certs.In cleanPayload.files :=
  fun hx => files_certToProjectionMap h hx

namespace CertsEvent

/-- No `Readlink` fails in the step. -/
def ReadsLinks : CertsEvent → Prop
  | writeCertsToDir _ outcome => ∀ n, (outcome n).readlinkFails = false
  | step o => o.readlinkFailure = none
  | crash => True

/-- The event for the atomic writer. -/
def toWriter : CertsEvent → WriterEvent
  | writeCertsToDir certs _ => .write (certToProjectionMap certs)
  | step o => .step o
  | crash => .crash

theorem ReadsLinks.allowed {e : CertsEvent} (h : e.ReadsLinks) : Allowed True e.toWriter := by
  cases e with
  | writeCertsToDir certs outcome => exact unreserved_certToProjectionMap certs
  | step o => exact fun _ => h
  | crash => trivial

end CertsEvent

/-- The certificate is written in one of the events. -/
def Written (es : List CertsEvent) (certs : Artifacts) : Prop :=
  ∃ outcome, .writeCertsToDir certs outcome ∈ es

section runs

variable {umask : UInt32} {tree : FileTree FileData} {es : List CertsEvent} {e : CertsEvent}
  {w w' : AtomicWriter}

/-- In a directory of the writer, a step is one of the writer. -/
theorem step_toWriter (hw : WriterInv True w) (he : e.ReadsLinks)
    (hs : writeCertsStep umask w e = some w') : w.step umask e.toWriter = some w' := by
  cases e with
  | writeCertsToDir certs outcome =>
    obtain ⟨f, hf, -⟩ := hw
    rw [writeCertsStep] at hs
    split at hs
    · next result hpc =>
      rw [prepareToWrite_of_managed hf he] at hs
      rw [CertsEvent.toWriter, AtomicWriter.step, hpc]
      exact hs
    · cases hs
  | step o => exact hs
  | crash => exact hs

theorem certsStep_inv (hw : WriterInv True w) (he : e.ReadsLinks)
    (hs : writeCertsStep umask w e = some w') : WriterInv True w' :=
  (step_good he.allowed hw (step_toWriter hw he hs)).inv

theorem certsRun_inv (hw : WriterInv True w) (hes : ∀ e ∈ es, e.ReadsLinks)
    (hrun : (certsSystem umask tree).runFrom w es = some w') : WriterInv True w' :=
  (certsSystem umask tree).runFrom_invariant (fun he hw hs => certsStep_inv hw he hs) hes hw hrun

/-- What is published, if there is a `..data` (there may be none if `fresh`), and what the
call in progress is to publish are certificates of `P`. -/
structure Certified (fresh : Prop) (P : Artifacts → Prop) (w : AtomicWriter) : Prop where
  published : (fresh ∧ w.tree[[dataDirName]]? = none) ∨
    ∃ certs, P certs ∧ certs.In (publishedFiles w.tree)
  running : Running (fun v => ∃ certs, P certs ∧ certs.In v) w

theorem Certified.step {fresh : Prop} {P : Artifacts → Prop} (h : Certified fresh P w)
    (hw : WriterInv True w) (he : e.ReadsLinks)
    (hP : ∀ certs outcome, e = .writeCertsToDir certs outcome → P certs)
    (hs : writeCertsStep umask w e = some w') : Certified fresh P w' := by
  have hs := step_toWriter hw he hs
  refine ⟨?_, h.running.step he.allowed (fun payload cleanPayload hwrite hvalid => ?_) hw hs⟩
  · obtain ⟨hkept, hdata⟩ | ⟨job, tsDir, hpc, hpub⟩ := (step_good he.allowed hw hs).kept
    · have hkept : publishedFiles w'.tree = publishedFiles w.tree := hkept
      rw [hdata, hkept]
      exact h.published
    · right
      have hpub : publishedFiles w'.tree = job.cleanPayload.files := hpub
      rw [hpub]
      exact h.running _ (by rw [AtomicWriter.abs, hpc]; rfl)
  · cases e with
    | writeCertsToDir certs outcome =>
      obtain rfl : certToProjectionMap certs = payload := WriterEvent.write.inj hwrite
      exact ⟨certs, hP certs outcome rfl, in_files hvalid⟩
    | step o => cases hwrite
    | crash => cases hwrite

/-- What is known of the published certificate stays so while certificates of `P` are
written. -/
theorem Certified.runFrom {fresh : Prop} {P : Artifacts → Prop} (h : Certified fresh P w)
    (hw : WriterInv True w) (hes : ∀ e ∈ es, e.ReadsLinks) (hP : ∀ certs, Written es certs → P certs)
    (hrun : (certsSystem umask tree).runFrom w es = some w') :
    WriterInv True w' ∧ Certified fresh P w' :=
  (certsSystem umask tree).runFrom_invariant
    (I := fun w => WriterInv True w ∧ Certified fresh P w)
    (fun {_ e _} (he : e.ReadsLinks ∧ e ∈ es) hw hs => ⟨certsStep_inv hw.1 he.1 hs,
      hw.2.step hw.1 he.1 (fun certs outcome hwrite => hP certs ⟨outcome, hwrite ▸ he.2⟩) hs⟩)
    (fun e he => ⟨hes e he, he⟩) ⟨hw, h⟩ hrun

/-- A call that returns without an error has its certificate published. -/
theorem in_of_returned {certs : Artifacts} {outcome : String → PrepareOutcome} {os : List Outcome}
    (hw : WriterInv True w) (houtcome : ∀ n, (outcome n).readlinkFails = false)
    (hos : ∀ o ∈ os, o.readlinkFailure = none)
    (hcall : (certsSystem umask tree).runFrom w (.writeCertsToDir certs outcome :: os.map .step) =
      some w') (hok : w'.pc = .idle (some (.ok ()))) : certs.In (publishedFiles w'.tree) := by
  have hvalid := validatePayload_certToProjectionMap certs
  obtain ⟨w₁, hs₁, hcall⟩ := (System.runFrom_cons_eq_some _).mp hcall
  have he : (CertsEvent.writeCertsToDir certs outcome).ReadsLinks := houtcome
  have hs₁ : writeCertsStep umask w (.writeCertsToDir certs outcome) = some w₁ := hs₁
  have hw₁ := certsStep_inv hw he hs₁
  -- the call is to publish its payload from here on
  have hpc₁ : w₁.pc = .called (certToProjectionMap certs) := by
    rw [writeCertsStep] at hs₁
    split at hs₁
    · exact Option.some.inj hs₁ ▸ rfl
    · cases hs₁
  have hpublishes : Publishes False _ w₁ :=
    ⟨by simp [AtomicWriter.abs, hpc₁, WritePc.publisher], fun v' hv' => by
      rw [AtomicWriter.abs, hpc₁, publisher_called hvalid] at hv'
      exact (Publisher.running.inj hv').symm⟩
  have hfinal := (certsSystem umask tree).runFrom_invariant
    (I := fun w => WriterInv True w ∧ Publishes False _ w)
    (fun {w e w'} (he : ∃ o, e = .step o ∧ o.readlinkFailure = none) hw hs => by
      obtain ⟨o, rfl, ho⟩ := he
      have hgood : Good True False w w' := next_good (fun _ => ho) (fun h => h.elim) hw.1 hs
      exact ⟨hgood.inv, hw.2.next hgood hs⟩)
    (fun e he => by
      obtain ⟨o, ho, rfl⟩ := List.mem_map.mp he
      exact ⟨o, rfl, hos o ho⟩) ⟨hw₁, hpublishes⟩ hcall
  have hserves := hfinal.2.1 (by rw [AtomicWriter.abs, hok]; rfl)
  intro n x hx
  exact hserves.has (in_files hvalid hx)

/-- In a directory in which there were at most plain files before a `prepareToWrite` that
has removed them, whatever calls there are from then on and wherever they fail, without a
failed `Readlink`, or are cut short: what is read is one of the certificates as a whole,
or that there is none while there is no `..data`. Once a call has returned without an
error, its certificate is read, or that of a later call. -/
theorem readCerts_of_run {outcome : String → PrepareOutcome} (hdir : Preparable certFilenames tree)
    (hlinks : ∀ n, (outcome n).readlinkFails = false)
    (hremoves : ∀ n, (outcome n).removeFails = false) (hes : ∀ e ∈ es, e.ReadsLinks)
    (hrun : (certsSystem umask (prepareToWrite tree outcome)).run es = some w) :
    ((readCerts w.tree = .error .notFound ∧ w.tree[[dataDirName]]? = none) ∨
      ∃ certs, Written es certs ∧ readCerts w.tree = .ok certs.onDisk) ∧
    ∀ (es₁ es₂ : List CertsEvent) (certs : Artifacts) (outcome' : String → PrepareOutcome)
      (os : List Outcome) (w₁ : AtomicWriter),
      es = es₁ ++ (.writeCertsToDir certs outcome' :: os.map .step) ++ es₂ →
      (certsSystem umask (prepareToWrite tree outcome)).run
        (es₁ ++ .writeCertsToDir certs outcome' :: os.map .step) = some w₁ →
      w₁.pc = .idle (some (.ok ())) →
      ∃ certs', (certs' = certs ∨ Written es₂ certs') ∧ readCerts w.tree = .ok certs'.onDisk := by
  have h₀ := preparable_prepareToWrite hdir hlinks hremoves
  have hinv₀ : WriterInv True (certsSystem umask (prepareToWrite tree outcome)).init :=
    ⟨_, h₀.managed, trivial⟩
  constructor
  · have hcert₀ : Certified True (Written es)
        (certsSystem umask (prepareToWrite tree outcome)).init :=
      ⟨.inl ⟨trivial, h₀.data⟩, running_idle rfl⟩
    obtain ⟨⟨f, hf, -⟩, hcertified⟩ := hcert₀.runFrom hinv₀ hes (fun _ h => h) hrun
    obtain ⟨-, hnone⟩ | ⟨certs, hwritten, hin⟩ := hcertified.published
    · exact .inl ⟨readCerts_of_none hf hnone, hnone⟩
    · exact .inr ⟨certs, hwritten, readCerts_of_published hf hin⟩
  · rintro es₁ es₂ certs outcome' os w₁ rfl hrun₁ hok
    have houtcome' : (CertsEvent.writeCertsToDir certs outcome').ReadsLinks := hes _ (by simp)
    have hos : ∀ o ∈ os, o.readlinkFailure = none := fun o ho => hes (.step o) (by simp [ho])
    obtain ⟨w₁', hrun₁', hrun₂⟩ := (System.runFrom_append_eq_some _).mp hrun
    obtain rfl : w₁ = w₁' := Option.some.inj (hrun₁.symm.trans hrun₁')
    obtain ⟨w₀, hrun₀, hcall⟩ := (System.runFrom_append_eq_some _).mp hrun₁
    have hw₀ : WriterInv True w₀ := certsRun_inv hinv₀ (fun e he => hes e (by simp [he])) hrun₀
    have hw₁ : WriterInv True w₁ :=
      certsRun_inv hinv₀ (fun e he => hes e (List.mem_append_left _ he)) hrun₁
    -- the certificate of the call is published when it returns
    have hcert₁ : Certified False (fun certs' => certs' = certs ∨ Written es₂ certs') w₁ :=
      ⟨.inr ⟨certs, .inl rfl, in_of_returned hw₀ houtcome' hos hcall hok⟩, running_idle hok⟩
    obtain ⟨⟨f, hf, -⟩, hcertified⟩ := hcert₁.runFrom hw₁
      (fun e he => hes e (List.mem_append_right _ he)) (fun _ h => .inr h) hrun₂
    obtain ⟨hfalse, -⟩ | ⟨certs', hcerts', hin⟩ := hcertified.published
    · exact hfalse.elim
    · exact ⟨certs', hcerts', readCerts_of_published hf hin⟩

end runs

def samplePlainDir : FileTree FileData :=
  (∅ : FileTree FileData).insert [ServerKeyName2] (.file ⟨[9], 0o600⟩)

def sampleCerts : Artifacts := ⟨some [1], some [2], none, some [3], "7"⟩

def sampleNextCerts : Artifacts := ⟨some [4], some [5], none, some [6], "8"⟩

/-- A call that returns. -/
def sampleCertWrite : List CertsEvent :=
  .writeCertsToDir sampleCerts (fun _ => {}) ::
    (List.replicate 19 { name := "..2024_05_01_10_00_00.1" }).map .step

/-- The next call, which is cut short in its `Write`. -/
def sampleCutShort : List CertsEvent :=
  [.writeCertsToDir sampleNextCerts (fun _ => { statFails := true }), .step {},
    .step { name := "..2024_05_01_10_00_01.2" }, .crash]

theorem samplePlainDir_read : ∃ w certs,
    (certsSystem 0o22 (prepareToWrite samplePlainDir fun _ => {})).run
        (sampleCertWrite ++ sampleCutShort) = some w ∧
      (certs = sampleCerts ∨ certs = sampleNextCerts) ∧ readCerts w.tree = .ok certs.onDisk := by
  have hdir : Preparable certFilenames samplePlainDir := by
    have hlook : ∀ c : String, samplePlainDir[[c]]? =
        if c = ServerKeyName2 then some (.file ⟨[9], 0o600⟩) else none := by
      intro c
      rw [samplePlainDir, FileTree.getElem?_insert]
      simp [eq_comm]
    refine ⟨by rw [hlook]; rfl, fun c _ => ?_⟩
    rw [hlook]
    split
    · next hc => exact .inr (.inr ⟨by rw [hc]; decide, _, rfl⟩)
    · exact .inl rfl
  have hes : ∀ e ∈ sampleCertWrite ++ sampleCutShort, e.ReadsLinks := by
    simp [sampleCertWrite, sampleCutShort, CertsEvent.ReadsLinks]
  have hcall : ∃ w₁, (certsSystem 0o22 (prepareToWrite samplePlainDir fun _ => {})).run
      sampleCertWrite = some w₁ ∧ w₁.pc = .idle (some (.ok ())) := ⟨_, rfl, rfl⟩
  obtain ⟨w₁, hw₁, hok⟩ := hcall
  have hrun : ∃ w, (certsSystem 0o22 (prepareToWrite samplePlainDir fun _ => {})).run
      (sampleCertWrite ++ sampleCutShort) = some w := ⟨_, rfl⟩
  obtain ⟨w, hw⟩ := hrun
  obtain ⟨certs, hcerts, hread⟩ := (readCerts_of_run hdir (fun _ => rfl) (fun _ => rfl) hes hw).2
    [] sampleCutShort sampleCerts _ _ w₁ rfl hw₁ hok
  refine ⟨w, certs, hw, hcerts.imp_right fun hwritten => ?_, hread⟩
  obtain ⟨outcome, hmem⟩ := hwritten
  simp only [sampleCutShort, List.mem_cons, CertsEvent.writeCertsToDir.injEq, reduceCtorEq,
    List.not_mem_nil, or_false] at hmem
  exact hmem.1

end CtrlMesh
