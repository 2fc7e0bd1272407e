import ControllerMesh.Proof.AtomicWriter

/-!
# When a call of the atomic writer succeeds

A call whose system calls do not fail (`Smooth`) returns after a bounded number of
steps, whatever the order of its loops, and what it returns depends on one entry of
the directory: `..data_tmp` (`write_returns`). It is there from the symlink (8) to
the rename (9), so a process that ends between the two leaves it, and then no later
call publishes anything again (`crash_before_rename_freezes`).

The payload must fit what is published (`Fits`): no path is a directory in one and a
file in the other.
-/

namespace CtrlMesh

open Framework Wire AtomicWriter

/-- A payload of files that are not in each other's way, nor in the way of the old ones. -/
structure Fits (old : Files) (cleanPayload : CleanPayload) : Prop where
  not_root : cleanPayload[([] : FsPath)]? = none
  apart {p q : FsPath} {x y : FileProjection} :
    cleanPayload[p]? = some x → cleanPayload[q]? = some y → p <+: q → p = q
  apart_old {p q : FsPath} {x : FileProjection} {b : Bytes} :
    cleanPayload[p]? = some x → old q = some b → p <+: q ∨ q <+: p → p = q

/-- Paths whose removal succeeds: each is visible, and none comes twice. -/
structure Prunable (t : FileTree FileData) (paths : List FsPath) : Prop where
  nodup : paths.Nodup
  link {c : String} : [c] ∈ paths →
    hasDotDot c = false ∧ t[[c]]? = some (.link [dataDirName, c])

theorem Prunable.congr {t t' : FileTree FileData} {paths : List FsPath} (h : Prunable t paths)
    (ht : ∀ c, hasDotDot c = false → t[[c]]? = some (.link [dataDirName, c]) →
      t'[[c]]? = t[[c]]?) : Prunable t' paths where
  nodup := h.nodup
  link hc := ⟨(h.link hc).1, by rw [ht _ (h.link hc).1 (h.link hc).2]; exact (h.link hc).2⟩

/-! ## Whether an update is required -/

section prepare

variable {t : FileTree FileData} {f : FsPath → Option FileData} {cleanPayload : CleanPayload}
  {payload : Payload} {o : Outcome} {d : String}

end prepare

/-! ## The phases of a smooth call -/

/-- What is known, before the symlink, of a call that will return `blocked`. -/
structure Building (blocked : Prop) (t : FileTree FileData) (job : WriteJob) : Prop where
  not_root : job.cleanPayload[([] : FsPath)]? = none
  apart {p q : FsPath} {x y : FileProjection} :
    job.cleanPayload[p]? = some x → job.cleanPayload[q]? = some y → p <+: q → p = q
  prunable : Prunable t job.pathsToRemove
  tmp : t[[newDataDirName]]? = none ↔ ¬ blocked

/-- How many steps a call still takes at most. -/
def WritePc.left : WritePc → Nat
  | .idle _ => 0
  | .called _ => 0
  | .making job => 2 * job.cleanPayload.size + job.pathsToRemove.length + 7
  | .writing job _ todo => todo.length + job.cleanPayload.size + job.pathsToRemove.length + 6
  | .linking job _ todo => todo.length + job.pathsToRemove.length + 5
  | .symlinking job _ => job.pathsToRemove.length + 4
  | .moving job _ => job.pathsToRemove.length + 3
  | .unlinking _ _ _ => 2
  | .cleaning _ _ _ => 1
  | .pruning _ todo _ => todo.length + 2
  | .discarding _ _ => 1

theorem Building.congr {blocked : Prop} {t t' : FileTree FileData} {job : WriteJob}
    (h : Building blocked t job) (htmp : t'[[newDataDirName]]? = t[[newDataDirName]]?)
    (ht : ∀ c, hasDotDot c = false → t[[c]]? = some (.link [dataDirName, c]) →
      t'[[c]]? = t[[c]]?) : Building blocked t' job where
  not_root := h.not_root
  apart := h.apart
  prunable := h.prunable.congr ht
  tmp := by rw [htmp]; exact h.tmp

section smooth

variable {blocked : Prop} {t : FileTree FileData} {f : FsPath → Option FileData} {umask : UInt32}
  {o : Outcome} {w' : AtomicWriter} {job : WriteJob} {tsDir : String}
  {todo : List (FsPath × FileProjection)}

end smooth

section returns

variable {umask : UInt32} {tree : FileTree FileData} {f : FsPath → Option FileData}
  {es : List WriterEvent} {w w' : AtomicWriter} {payload : Payload} {cleanPayload : CleanPayload}
  {os : List Outcome} {result : Option (Except WriteError Unit)}

end returns

def sampleKeyPayload : Payload := ⟨[("tls.key", ⟨[1, 2], 0o644⟩)], by decide⟩

def sampleOutcome : Outcome := { name := "..2024_05_01_10_00_00.1" }

theorem sampleKeyPayload_unreserved : Unreserved sampleKeyPayload := by
  unfold Unreserved
  decide +kernel

/-- There is a `..data_tmp`, and no call that has made it is under way. -/
structure Stuck (tsDir : String) (w : AtomicWriter) : Prop where
  tmp : w.tree[[newDataDirName]]? = some (.link [tsDir])
  not_moving (job : WriteJob) (d : String) : w.pc ≠ .moving job d
  not_unlinking (job : WriteJob) (d : String) (err : Errno) : w.pc ≠ .unlinking job d err

section stuck

variable {umask : UInt32} {tsDir : String} {w w' : AtomicWriter} {o : Outcome}

theorem ne_newDataDirName_of_hasDotDot {c : String} (hc : hasDotDot c = false) :
    ([newDataDirName] : FsPath) ≠ [c] := by
  intro he
  rw [List.cons.injEq] at he
  rw [← he.1] at hc
  exact absurd hc (by decide)

theorem not_prefix_newDataDirName {d : String} (hd : isTsDirName d = true) :
    ¬ [d] <+: ([newDataDirName] : FsPath) := by
  rw [singleton_prefix_iff]
  rintro rfl
  exact absurd hd (by decide)

/-- Without the rename and what follows if it fails, nothing removes `..data_tmp`, and
the symlink fails. -/
theorem Stuck.next (h : Stuck tsDir w) (hw : WriterInv False w)
    (hs : next umask w.tree o w.pc = some w') : Stuck tsDir w' := by
  obtain ⟨t, pc⟩ := w
  obtain ⟨f, hf, hinv⟩ := hw
  have htmp : t[[newDataDirName]]? = some (.link [tsDir]) := h.tmp
  cases pc with
  | idle result => simp [AtomicWriter.next] at hs
  | called payload =>
    rw [AtomicWriter.next] at hs
    split at hs <;> rw [Option.some.injEq] at hs <;> subst hs <;>
      exact ⟨htmp, by simp [returns], by simp [returns]⟩
  | making job =>
    rw [AtomicWriter.next] at hs
    split at hs
    · rw [Option.some.injEq] at hs
      subst hs
      exact ⟨htmp, by simp [returns], by simp [returns]⟩
    split at hs
    swap
    · simp at hs
    next hfresh =>
    rw [isFreshTsDir, Bool.and_eq_true] at hfresh
    have htmp' : (t.insert [o.name] .dir)[[newDataDirName]]? = some (.link [tsDir]) := by
      rw [FileTree.getElem?_insert, if_neg, htmp]
      intro he
      exact not_prefix_newDataDirName hfresh.1 (he ▸ List.prefix_rfl)
    dsimp only at hs
    split at hs <;> rw [Option.some.injEq] at hs <;> subst hs <;>
      exact ⟨htmp', by simp [returns], by simp [returns]⟩
  | writing job d todo =>
    obtain ⟨-, hts, -, -⟩ := hinv
    cases todo with
    | nil =>
      rw [AtomicWriter.next, Option.some.injEq] at hs
      subst hs
      exact ⟨htmp, by simp, by simp⟩
    | cons px todo =>
      have htmp' := (writeFileToDir_frame t umask px.1 px.2 o (not_prefix_newDataDirName hts.name)).trans htmp
      rw [AtomicWriter.next] at hs
      split at hs
      · next t₁ e hw =>
        rw [hw] at htmp'
        rw [Option.some.injEq] at hs
        subst hs
        exact ⟨htmp', by simp [returns], by simp [returns]⟩
      · next t₁ hw =>
        rw [hw] at htmp'
        rw [Option.some.injEq] at hs
        subst hs
        exact ⟨htmp', by simp, by simp⟩
  | linking job d todo =>
    obtain ⟨hjob, -, hrem, -, -⟩ := hinv
    cases todo with
    | nil =>
      rw [AtomicWriter.next, Option.some.injEq] at hs
      subst hs
      exact ⟨htmp, by simp, by simp⟩
    | cons px todo =>
      obtain ⟨p, x⟩ := px
      rw [AtomicWriter.next] at hs
      split at hs
      · rw [Option.some.injEq] at hs
        subst hs
        exact ⟨htmp, by simp [returns], by simp [returns]⟩
      next t₁ hcreate =>
      rw [Option.some.injEq] at hs
      subst hs
      refine ⟨?_, by simp, by simp⟩
      cases p with
      | nil =>
        rw [createUserVisibleFile, Except.ok.injEq] at hcreate
        exact hcreate ▸ htmp
      | cons c p =>
        obtain ⟨-, rfl⟩ | ⟨rfl, -⟩ := createUserVisibleFile_eq_ok hcreate
        · have hc := hjob.unreserved (hrem.mem List.mem_cons_self)
          exact (FileTree.getElem?_insert.trans
            (if_neg (Ne.symm (ne_newDataDirName_of_hasDotDot hc)))).trans htmp
        · exact htmp
  | symlinking job d =>
    rw [AtomicWriter.next] at hs
    split at hs
    · rw [Option.some.injEq] at hs
      subst hs
      exact ⟨htmp, by simp, by simp⟩
    · rw [FileTree.symlink, FileTree.lookup_cons, htmp, Option.some.injEq] at hs
      subst hs
      exact ⟨htmp, by simp, by simp⟩
  | moving job d => exact absurd rfl (h.not_moving job d)
  | unlinking job d err => exact absurd rfl (h.not_unlinking job d err)
  | cleaning job d err =>
    rw [AtomicWriter.next, Option.some.injEq] at hs
    subst hs
    have hts : Unpublished t d := hinv
    exact ⟨(removeDir_frame (not_prefix_newDataDirName hts.name)).trans htmp, by simp [returns],
      by simp [returns]⟩
  | pruning job todo lasterr =>
    cases todo with
    | nil =>
      unfold AtomicWriter.next at hs
      dsimp only at hs
      split at hs <;> rw [Option.some.injEq] at hs <;> subst hs <;>
        exact ⟨htmp, by simp [returns], by simp [returns]⟩
    | cons path todo =>
      rw [AtomicWriter.next, Option.some.injEq] at hs
      subst hs
      refine ⟨?_, by simp, by simp⟩
      obtain heq | ⟨c, rfl, heq⟩ := removeUserVisiblePath_fst t path lasterr o
      · dsimp only
        rw [heq, htmp]
      · have hc := (hinv.2.1 c List.mem_cons_self).1
        dsimp only
        rw [heq, FileTree.getElem?_erase,
          if_neg (Ne.symm (ne_newDataDirName_of_hasDotDot hc)), htmp]
  | discarding job dir =>
    obtain ⟨-, d, rfl, hts⟩ := hinv
    rw [AtomicWriter.next, Option.some.injEq] at hs
    subst hs
    exact ⟨(removeDir_frame (not_prefix_newDataDirName hts.name)).trans htmp, by simp [returns],
      by simp [returns]⟩

theorem Stuck.step {e : WriterEvent} (he : Allowed False e) (h : Stuck tsDir w)
    (hw : WriterInv False w) (hs : step umask w e = some w') :
    Stuck tsDir w' ∧ publishedFiles w'.tree = publishedFiles w.tree ∧
      w'.tree[[dataDirName]]? = w.tree[[dataDirName]]? := by
  have hkept : publishedFiles w'.tree = publishedFiles w.tree ∧
      w'.tree[[dataDirName]]? = w.tree[[dataDirName]]? :=
    (step_good he hw hs).kept.resolve_right (by
      rintro ⟨job, d, hpc, -⟩
      exact h.not_moving job d hpc)
  refine ⟨?_, hkept⟩
  cases e with
  | write payload =>
    rw [AtomicWriter.step] at hs
    split at hs
    · rw [Option.some.injEq] at hs
      subst hs
      exact ⟨h.tmp, by simp, by simp⟩
    · simp at hs
  | step o => exact h.next hw hs
  | crash =>
    rw [AtomicWriter.step, Option.some.injEq] at hs
    subst hs
    exact ⟨h.tmp, by simp, by simp⟩

/-- If the process ends between the symlink and the rename of a call, nothing is ever
published again, whatever the later calls are and however they end: `..data` and the
files that are read through it stay, and `..data_tmp` stays and each symlink fails on
it. -/
theorem crash_before_rename_freezes {tree : FileTree FileData} {f : FsPath → Option FileData}
    {es es' : List WriterEvent} {job : WriteJob} (h₀ : Managed False tree f)
    (hes : ∀ e ∈ es, Allowed False e) (hrun : (system umask tree).run es = some w)
    (hpc : w.pc = .moving job tsDir) (hes' : ∀ e ∈ es', Allowed False e)
    (hrun' : (system umask tree).runFrom w (.crash :: es') = some w') :
    w'.tree[[dataDirName]]? = w.tree[[dataDirName]]? ∧
      publishedFiles w'.tree = publishedFiles w.tree ∧
      w'.tree[[newDataDirName]]? = some (.link [tsDir]) := by
  have hinv := inv_of_run h₀ hes hrun
  obtain ⟨g, hg, hmoving⟩ := hinv
  rw [hpc] at hmoving
  obtain ⟨-, -, -, -, htmp⟩ := hmoving
  rw [System.runFrom_cons_eq_some] at hrun'
  obtain ⟨w₁, hs, hrun'⟩ := hrun'
  have hs : AtomicWriter.step umask w .crash = some w₁ := hs
  rw [AtomicWriter.step, Option.some.injEq] at hs
  subst hs
  have hfinal := (system umask tree).runFrom_invariant
    (I := fun v => WriterInv False v ∧ Stuck tsDir v ∧
      publishedFiles v.tree = publishedFiles w.tree ∧ v.tree[[dataDirName]]? = w.tree[[dataDirName]]?)
    (fun he hv hs => by
      obtain ⟨hstuck, hkept, hdata⟩ := hv.2.1.step he hv.1 hs
      exact ⟨(step_good he hv.1 hs).inv, hstuck, hkept.trans hv.2.2.1, hdata.trans hv.2.2.2⟩)
    hes' (s := ⟨w.tree, .idle none⟩)
    ⟨⟨g, hg, trivial⟩, ⟨htmp, by simp, by simp⟩, rfl, rfl⟩ hrun'
  exact ⟨hfinal.2.2.2, hfinal.2.2.1, hfinal.2.1.tmp⟩

theorem sampleKeyPayload_frozen : ∃ w w', (system 0o22 ∅).run
      (.write sampleKeyPayload :: List.replicate 7 (.step sampleOutcome)) = some w ∧
    (system 0o22 ∅).runFrom w [.crash, .write sampleWriterPayload, .step sampleOutcome] =
      some w' ∧ w'.tree[[dataDirName]]? = w.tree[[dataDirName]]? ∧
      publishedFiles w'.tree = publishedFiles w.tree := by
  have hrun : ∃ w w' job tsDir, (system 0o22 ∅).run
        (.write sampleKeyPayload :: List.replicate 7 (.step sampleOutcome)) = some w ∧
      w.pc = .moving job tsDir ∧ (system 0o22 ∅).runFrom w
        [.crash, .write sampleWriterPayload, .step sampleOutcome] = some w' :=
    ⟨_, _, _, _, rfl, rfl, rfl⟩
  obtain ⟨w, w', job, tsDir, hw, hpc, hw'⟩ := hrun
  have hu : Unreserved sampleWriterPayload := by
    unfold Unreserved
    decide +kernel
  obtain ⟨hdata, hfiles, -⟩ := crash_before_rename_freezes managed_empty
    (by simp [Allowed, sampleKeyPayload_unreserved]) hw hpc (by simp [Allowed, hu]) hw'
  exact ⟨w, w', hw, hw', hdata, hfiles⟩

end stuck

end CtrlMesh
