import ControllerMesh.Impl.CertWatcher
import ControllerMesh.Proof.AtomicWriter

/-!
# What a certificate watcher has loaded

A watch is on a file of the version that was published when it was added. Nothing is
written to that file, so the watcher hears of a later version only when the writer
removes the old one.

* `currentCert_of_quiet`: once the watcher has handled all its events, it has loaded the
  published certificate, or it watches a file of an old version that is still there;
  provided nothing is published while the watcher starts.
* `watcher_stays_behind`: if the writer's process ends after the rename and before the
  old version is removed, that version stays, and a watcher of it never loads another
  certificate, whatever is published later.
-/

namespace CtrlMesh

open Framework Wire AtomicWriter

/-! ## What the writer does to a version -/

/-- The directory that a call builds. -/
def WritePc.tsDir : WritePc → Option String
  | .writing _ tsDir _ => some tsDir
  | .linking _ tsDir _ => some tsDir
  | .symlinking _ tsDir => some tsDir
  | .moving _ tsDir => some tsDir
  | .unlinking _ tsDir _ => some tsDir
  | .cleaning _ tsDir _ => some tsDir
  | _ => none

/-- The directory that a call is going to remove. -/
def WritePc.discards : WritePc → Option FsPath
  | .pruning job _ _ => job.oldTsDir
  | .discarding _ dir => some dir
  | _ => none

/-- A step of the writer, as those see it who know the files of a version. -/
structure WriterMove (w w' : AtomicWriter) : Prop where
  /-- Only what a call builds is changed, and only the old version is removed. -/
  deep {q : FsPath} : 2 ≤ q.length → (∀ tsDir, w.pc.tsDir = some tsDir → ¬ [tsDir] <+: q) →
    w'.tree[q]? = w.tree[q]? ∨
      (w'.tree[q]? = none ∧ ∃ dir, w.pc.discards = some dir ∧ dir <+: q)
  /-- A call builds in a new directory. -/
  tsDir {tsDir : String} : w'.pc.tsDir = some tsDir →
    w.pc.tsDir = some tsDir ∨ ∀ q, w.tree[tsDir :: q]? = none
  /-- What is published is what a call has built. -/
  data : w'.tree[[dataDirName]]? = w.tree[[dataDirName]]? ∨
    ∃ tsDir, w.pc.tsDir = some tsDir ∧ w'.tree[[dataDirName]]? = some (.link [tsDir])
  /-- What is removed is what was published. -/
  discards {dir : FsPath} : w'.pc.discards = some dir → w.pc.discards = some dir ∨
    ∃ d, dir = [d] ∧ w.tree[[dataDirName]]? = some (.link [d])

section moves

variable {reliable : Prop} {umask : UInt32} {w w' : AtomicWriter} {o : Outcome}
  {t t' : FileTree FileData}

/-- A step that changes entries of the root only, and neither builds nor publishes. -/
theorem WriterMove.of_root {pc pc' : WritePc} (ht : ∀ q : FsPath, 2 ≤ q.length → t'[q]? = t[q]?)
    (hdata : t'[[dataDirName]]? = t[[dataDirName]]?)
    (hts : pc'.tsDir = none ∨ pc'.tsDir = pc.tsDir)
    (hdiscards : pc'.discards = none ∨ pc'.discards = pc.discards) :
    WriterMove ⟨t, pc⟩ ⟨t', pc'⟩ where
  deep hq _ := .inl (ht _ hq)
  tsDir h := by
    obtain hnone | heq := hts
    · rw [hnone] at h; simp at h
    · exact .inl (heq ▸ h)
  data := .inl hdata
  discards h := by
    obtain hnone | heq := hdiscards
    · rw [hnone] at h; simp at h
    · exact .inl (heq ▸ h)

/-- A step that changes what the call builds. -/
theorem WriterMove.of_tsDir {pc pc' : WritePc} {d : String} (hpc : pc.tsDir = some d)
    (hd : Unpublished t d) (ht : ∀ q, ¬ [d] <+: q → t'[q]? = t[q]?)
    (hts : pc'.tsDir = none ∨ pc'.tsDir = pc.tsDir) (hdiscards : pc'.discards = none) :
    WriterMove ⟨t, pc⟩ ⟨t', pc'⟩ where
  deep _ hq := .inl (ht _ (hq d hpc))
  tsDir h := by
    obtain hnone | heq := hts
    · rw [hnone] at h; simp at h
    · exact .inl (heq ▸ h)
  data := .inl (hd.frame_data ht)
  discards h := by rw [hdiscards] at h; simp at h

theorem ne_singleton_of_length {q : FsPath} {c : String} (hq : 2 ≤ q.length) : q ≠ [c] := by
  rintro rfl
  simp at hq

/-- Every step of a call. -/
theorem writerMove_of_next (hw : WriterInv reliable w)
    (hs : next umask w.tree o w.pc = some w') : WriterMove w w' := by
  obtain ⟨t, pc⟩ := w
  obtain ⟨f, hf, hinv⟩ := hw
  cases pc with
  | idle result => simp [next] at hs
  | called payload =>
    rw [next] at hs
    split at hs <;> rw [Option.some.injEq] at hs <;> subst hs <;>
      exact .of_root (fun _ _ => rfl) rfl (.inl rfl) (.inl rfl)
  | making job =>
    rw [next] at hs
    split at hs
    · rw [Option.some.injEq] at hs
      subst hs
      exact .of_root (fun _ _ => rfl) rfl (.inl rfl) (.inl rfl)
    split at hs
    swap
    · simp at hs
    next hfresh =>
    rw [isFreshTsDir, Bool.and_eq_true, List.all_eq_true] at hfresh
    have hnone : ∀ q, t[o.name :: q]? = none := by
      intro q
      refine Std.ExtTreeMap.getElem?_eq_none fun hmem => ?_
      simpa using hfresh.2 _ (Std.ExtTreeMap.mem_keys.mpr hmem)
    have hlook : ∀ q, q ≠ [o.name] → (t.insert [o.name] .dir)[q]? = t[q]? := fun q hq => by
      rw [FileTree.getElem?_insert, if_neg (Ne.symm hq)]
    have hdata : (t.insert [o.name] .dir)[[dataDirName]]? = t[[dataDirName]]? := by
      refine hlook _ fun he => ?_
      rw [List.cons.injEq] at he
      exact absurd hfresh.1 (by rw [← he.1]; decide)
    dsimp only at hs
    split at hs
    · rw [Option.some.injEq] at hs
      subst hs
      exact .of_root (fun q hq => hlook q (ne_singleton_of_length hq)) hdata (.inl rfl) (.inl rfl)
    · rw [Option.some.injEq] at hs
      subst hs
      refine ⟨fun hq _ => .inl (hlook _ (ne_singleton_of_length hq)), fun h => .inr ?_, .inl hdata,
        fun h => by simp [WritePc.discards] at h⟩
      rw [WritePc.tsDir, Option.some.injEq] at h
      exact h ▸ hnone
  | writing job tsDir todo =>
    obtain ⟨-, hts, -, -⟩ := hinv
    cases todo with
    | nil =>
      rw [next, Option.some.injEq] at hs
      subst hs
      exact .of_root (fun _ _ => rfl) rfl (.inr rfl) (.inl rfl)
    | cons px todo =>
      have hframe := fun q (hq : ¬ [tsDir] <+: q) =>
        writeFileToDir_frame t umask px.1 px.2 o hq
      rw [next] at hs
      split at hs
      · next t₁ e hw =>
        rw [hw] at hframe
        rw [Option.some.injEq] at hs
        subst hs
        exact .of_tsDir rfl hts hframe (.inl rfl) rfl
      · next t₁ hw =>
        rw [hw] at hframe
        rw [Option.some.injEq] at hs
        subst hs
        exact .of_tsDir rfl hts hframe (.inr rfl) rfl
  | linking job tsDir todo =>
    obtain ⟨hjob, -, hrem, -, -⟩ := hinv
    cases todo with
    | nil =>
      rw [next, Option.some.injEq] at hs
      subst hs
      exact .of_root (fun _ _ => rfl) rfl (.inr rfl) (.inl rfl)
    | cons px todo =>
      obtain ⟨p, x⟩ := px
      rw [next] at hs
      split at hs
      · rw [Option.some.injEq] at hs
        subst hs
        exact .of_root (fun _ _ => rfl) rfl (.inl rfl) (.inl rfl)
      next t₁ hcreate =>
      rw [Option.some.injEq] at hs
      subst hs
      cases p with
      | nil =>
        rw [createUserVisibleFile, Except.ok.injEq] at hcreate
        subst hcreate
        exact .of_root (fun _ _ => rfl) rfl (.inr rfl) (.inl rfl)
      | cons c p =>
        obtain ⟨-, rfl⟩ | ⟨rfl, -⟩ := createUserVisibleFile_eq_ok hcreate
        · have hc := hjob.unreserved (hrem.mem List.mem_cons_self)
          have hlook : ∀ q, q ≠ [c] →
              (t.insert [c] (.link [dataDirName, c]))[q]? = t[q]? := fun q hq => by
            rw [FileTree.getElem?_insert, if_neg (Ne.symm hq)]
          refine .of_root (fun q hq => hlook q (ne_singleton_of_length hq)) (hlook _ ?_) (.inr rfl)
            (.inl rfl)
          intro he
          rw [List.cons.injEq] at he
          rw [← he.1] at hc
          exact absurd hc (by decide)
        · exact .of_root (fun _ _ => rfl) rfl (.inr rfl) (.inl rfl)
  | symlinking job tsDir =>
    rw [next] at hs
    split at hs
    · rw [Option.some.injEq] at hs
      subst hs
      exact .of_root (fun _ _ => rfl) rfl (.inr rfl) (.inl rfl)
    split at hs
    · rw [Option.some.injEq] at hs
      subst hs
      exact .of_root (fun _ _ => rfl) rfl (.inr rfl) (.inl rfl)
    next t₁ hsym =>
    rw [Option.some.injEq] at hs
    subst hs
    obtain ⟨-, rfl⟩ := FileTree.symlink_eq_ok.mp hsym
    have hlook : ∀ q, q ≠ [newDataDirName] →
        (t.insert [newDataDirName] (.link [tsDir]))[q]? = t[q]? := fun q hq => by
      rw [FileTree.getElem?_insert, if_neg (Ne.symm hq)]
    exact .of_root (fun q hq => hlook q (ne_singleton_of_length hq)) (hlook _ (by decide)) (.inr rfl)
      (.inl rfl)
  | moving job tsDir =>
    obtain ⟨hjob, -, -, -, htmp⟩ := hinv
    rw [next] at hs
    split at hs
    · rw [Option.some.injEq] at hs
      subst hs
      exact .of_root (fun _ _ => rfl) rfl (.inr rfl) (.inl rfl)
    split at hs
    · rw [Option.some.injEq] at hs
      subst hs
      exact .of_root (fun _ _ => rfl) rfl (.inr rfl) (.inl rfl)
    next t₁ hren =>
    rw [Option.some.injEq] at hs
    subst hs
    obtain rfl : t₁ = (t.erase [newDataDirName]).insert [dataDirName] (.link [tsDir]) := by
      rw [FileTree.rename, FileTree.lookup_cons, FileTree.lookup_cons, htmp] at hren
      split at hren <;> simp_all
    refine ⟨fun hq _ => .inl ?_, fun h => by simp [WritePc.tsDir] at h, .inr ⟨tsDir, rfl, ?_⟩,
      fun {dir} h => .inr ?_⟩
    · dsimp only
      rw [FileTree.getElem?_insert, if_neg (Ne.symm (ne_singleton_of_length hq)),
        FileTree.getElem?_erase, if_neg (Ne.symm (ne_singleton_of_length hq))]
    · dsimp only
      rw [FileTree.getElem?_insert, if_pos rfl]
    · have h : job.oldTsDir = some dir := h
      obtain ⟨hnone, -⟩ | ⟨d, hd, hdata⟩ := hjob.old
      · rw [hnone] at h
        simp at h
      · rw [hd, Option.some.injEq] at h
        exact ⟨d, h.symm, hdata⟩
  | unlinking job tsDir err =>
    rw [next] at hs
    split at hs
    · next t₁ _ hrem =>
      rw [Option.some.injEq] at hs
      subst hs
      obtain rfl := FileTree.eq_erase_of_remove hrem
      have hlook : ∀ q, q ≠ [newDataDirName] → (t.erase [newDataDirName])[q]? = t[q]? :=
        fun q hq => by rw [FileTree.getElem?_erase, if_neg (Ne.symm hq)]
      exact .of_root (fun q hq => hlook q (ne_singleton_of_length hq)) (hlook _ (by decide))
        (.inr rfl) (.inl rfl)
    · rw [Option.some.injEq] at hs
      subst hs
      exact .of_root (fun _ _ => rfl) rfl (.inr rfl) (.inl rfl)
  | cleaning job tsDir err =>
    rw [next, Option.some.injEq] at hs
    subst hs
    exact .of_tsDir rfl hinv (fun q hq => removeDir_frame hq) (.inl rfl) rfl
  | pruning job todo lasterr =>
    cases todo with
    | nil =>
      unfold next at hs
      dsimp only at hs
      split at hs
      · rw [Option.some.injEq] at hs
        subst hs
        exact .of_root (fun _ _ => rfl) rfl (.inl rfl) (.inl rfl)
      · rw [Option.some.injEq] at hs
        subst hs
        exact .of_root (fun _ _ => rfl) rfl (.inl rfl) (.inl rfl)
      · next dir hdir =>
        rw [Option.some.injEq] at hs
        subst hs
        exact .of_root (fun _ _ => rfl) rfl (.inl rfl) (.inr hdir.symm)
    | cons path todo =>
      rw [next, Option.some.injEq] at hs
      subst hs
      obtain heq | ⟨c, rfl, heq⟩ := removeUserVisiblePath_fst t path lasterr o
      · exact .of_root (fun _ _ => by rw [heq]) (by rw [heq]) (.inl rfl) (.inr rfl)
      · have hc := (hinv.2.1 c List.mem_cons_self).1
        have hlook : ∀ q, q ≠ [c] → (t.erase [c])[q]? = t[q]? := fun q hq => by
          rw [FileTree.getElem?_erase, if_neg (Ne.symm hq)]
        refine .of_root (fun q hq => ?_) ?_ (.inl rfl) (.inr rfl)
        · rw [heq, hlook q (ne_singleton_of_length hq)]
        · rw [heq, hlook]
          intro he
          rw [List.cons.injEq] at he
          rw [← he.1] at hc
          exact absurd hc (by decide)
  | discarding job dir =>
    obtain ⟨-, d, rfl, hts⟩ := hinv
    rw [next, Option.some.injEq] at hs
    subst hs
    refine ⟨fun {q} _ _ => ?_, fun h => by simp [WritePc.tsDir, returns] at h,
      .inl (hts.frame_data fun q hq => removeDir_frame hq),
      fun h => by simp [WritePc.discards, returns] at h⟩
    by_cases hq : [d] <+: q
    · have hremove : (removeDir t [d] o).1[q]? = t[q]? ∨ (removeDir t [d] o).1[q]? = none := by
        rw [removeDir]
        split
        · dsimp only
          rw [FileTree.getElem?_removeSome]
          split
          · exact .inr rfl
          · exact .inl rfl
        · dsimp only
          rw [FileTree.removeAll, FileTree.getElem?_removeSome, if_pos ⟨hq, rfl⟩]
          exact .inr rfl
      exact hremove.imp_right fun hnone => ⟨hnone, [d], rfl, hq⟩
    · exact .inl (removeDir_frame hq)

theorem writerMove_of_step {e : WriterEvent} (hw : WriterInv reliable w)
    (hs : step umask w e = some w') : WriterMove w w' := by
  obtain ⟨t, pc⟩ := w
  cases e with
  | write payload =>
    rw [step] at hs
    split at hs
    · rw [Option.some.injEq] at hs
      subst hs
      exact .of_root (fun _ _ => rfl) rfl (.inl rfl) (.inl rfl)
    · simp at hs
  | step o => exact writerMove_of_next hw hs
  | crash =>
    rw [step, Option.some.injEq] at hs
    subst hs
    exact .of_root (fun _ _ => rfl) rfl (.inl rfl) (.inl rfl)

end moves

/-! ## What the watcher knows -/

namespace CertDir

/-- One of the two files. -/
def IsPair (s : CertDir) (n : String) : Prop := n = s.watcher.certPath ∨ n = s.watcher.keyPath

/-- The watcher has loaded the files, if they are a certificate and its key. -/
def Current (lib : CertLib) (s : CertDir) : Prop :=
  ∀ cert key, publishedFiles s.writer.tree [s.watcher.certPath] = some cert →
    publishedFiles s.writer.tree [s.watcher.keyPath] = some key →
    lib.x509KeyPair cert key = true → s.watcher.currentCert = some (cert, key)

/-- Both watches are on files of the published version. -/
def OnPublished (s : CertDir) : Prop :=
  ∀ n, s.IsPair n → ∃ d, s.writer.tree[[dataDirName]]? = some (.link [d]) ∧
    s.watcher.watches[n]? = some [d, n]

/-- The file is watched, or the watcher is going to hear that it is not. -/
def Heard (s : CertDir) (n : String) : Prop :=
  s.watcher.watches[n]? ≠ none ∨ ⟨n, .remove⟩ ∈ s.watcher.events

/-- Both files are published. -/
def Complete (certPath keyPath : String) (v : Files) : Prop :=
  v [certPath] ≠ none ∧ v [keyPath] ≠ none

/-- What is watched is there, and not in a directory that a call builds. -/
structure Watched (s : CertDir) : Prop where
  writer : WriterInv True s.writer
  complete : AllVersions (Complete s.watcher.certPath s.watcher.keyPath) s.writer
  file {n : String} {q : FsPath} : s.watcher.watches[n]? = some q → s.IsPair n ∧
    ∃ d a, q = [d, n] ∧ s.writer.tree[q]? = some (.file a) ∧ s.writer.pc.tsDir ≠ some d
  event {ev : FsEvent} : ev ∈ s.watcher.events → s.IsPair ev.name
  adding {files : List String} : s.watcher.pc = .adding files → ∀ n ∈ files, s.IsPair n
  rewatching {n : String} : s.watcher.pc = .rewatching n → s.IsPair n

/-- What the watcher knows at each of its steps. -/
def Knows (lib : CertLib) (s : CertDir) : WatcherPc → Prop
  | .new => True
  | .newKey cert => publishedFiles s.writer.tree [s.watcher.certPath] = some cert
  | .adding files => s.Current lib ∧ ∀ n, s.IsPair n → n ∈ files ∨ s.Heard n
  | .watching => (s.OnPublished → s.Current lib) ∧ ∀ n, s.IsPair n → s.Heard n
  | .rewatching m => ∀ n, s.IsPair n → n = m ∨ s.Heard n
  | .reading => ∀ n, s.IsPair n → s.Heard n
  | .readingKey cert =>
    (s.OnPublished → publishedFiles s.writer.tree [s.watcher.certPath] = some cert) ∧
      ∀ n, s.IsPair n → s.Heard n
  | .stopped => True

/-- The events of a directory in which every version has both files: those of a reliable
writer, and steps of the watcher that do not fail. -/
def Proper (certPath keyPath : String) : CertDirEvent → Prop
  | .writer e _ => Allowed True e ∧ ∀ payload cleanPayload, e = .write payload →
      validatePayload payload = .ok cleanPayload → Complete certPath keyPath cleanPayload.files
  | .watcher fails => fails = false

end CertDir

/-- In `New` after the first read, or in `Start`. -/
def WatcherPc.isStarting : WatcherPc → Bool
  | .newKey _ => true
  | .adding _ => true
  | _ => false

def WritePc.isMoving : WritePc → Bool
  | .moving _ _ => true
  | _ => false

def CertDirEvent.isWriterStep : CertDirEvent → Bool
  | .writer (.step _) _ => true
  | _ => false

/-- No call takes its rename while the watcher starts. -/
def quietStart (s : CertDir) (e : CertDirEvent) : Bool :=
  !(s.watcher.pc.isStarting && e.isWriterStep && s.writer.pc.isMoving)

namespace CertDir

/-! ## Steps of the writer -/

theorem unpublished_tsDir {w : AtomicWriter} {d : String} (hw : WriterInv True w)
    (hd : w.pc.tsDir = some d) : Unpublished w.tree d := by
  obtain ⟨t, pc⟩ := w
  obtain ⟨f, -, hinv⟩ := hw
  cases pc with
  | writing job tsDir todo => exact Option.some.inj hd ▸ hinv.2.1
  | linking job tsDir todo => exact Option.some.inj hd ▸ hinv.2.1
  | symlinking job tsDir => exact Option.some.inj hd ▸ hinv.2.1
  | moving job tsDir => exact Option.some.inj hd ▸ hinv.2.1
  | unlinking job tsDir err => exact Option.some.inj hd ▸ hinv
  | cleaning job tsDir err => exact Option.some.inj hd ▸ hinv
  | _ => simp [WritePc.tsDir] at hd

section notify

variable {s : CertDir} {w' : AtomicWriter} {order : List Nat} {n : String} {q : FsPath}

theorem getElem?_notify :
    (s.watcher.notify s.writer.tree w'.tree order).watches[n]? = some q ↔
      s.watcher.watches[n]? = some q ∧ w'.tree[q]? ≠ none := by
  rw [CertWatcher.notify, Std.ExtTreeMap.getElem?_filter', Option.filter_eq_some_iff,
    Option.isSome_iff_ne_none]

theorem mem_events_notify {ev : FsEvent} :
    ev ∈ (s.watcher.notify s.writer.tree w'.tree order).events ↔ ev ∈ s.watcher.events ∨
      ∃ q, s.watcher.watches[ev.name]? = some q ∧
        ev.op ∈ CertWatcher.fileOps s.writer.tree w'.tree q := by
  rw [CertWatcher.notify, List.mem_append, List.mem_flatMap]
  refine or_congr Iff.rfl ⟨?_, ?_⟩
  · rintro ⟨⟨m, q⟩, hmem, hev⟩
    rw [(perm_visitIn order _).mem_iff, Std.ExtTreeMap.mem_toList_iff_getElem?_eq_some] at hmem
    obtain ⟨op, hop, rfl⟩ := List.mem_map.mp hev
    exact ⟨q, hmem, hop⟩
  · rintro ⟨q, hq, hop⟩
    refine ⟨(ev.name, q), ?_, List.mem_map.mpr ⟨ev.op, hop, rfl⟩⟩
    rw [(perm_visitIn order _).mem_iff, Std.ExtTreeMap.mem_toList_iff_getElem?_eq_some]
    exact hq

/-- A watched file stays as it is, or it goes. -/
theorem Watched.kept_or_gone (h : s.Watched) (hmove : WriterMove s.writer w')
    (hq : s.watcher.watches[n]? = some q) :
    w'.tree[q]? = s.writer.tree[q]? ∨ w'.tree[q]? = none := by
  obtain ⟨-, d, a, rfl, -, hts⟩ := h.file hq
  refine (hmove.deep (by simp) fun tsDir htsDir => ?_).imp_right And.left
  rw [singleton_prefix_iff]
  rintro rfl
  exact hts htsDir

theorem Watched.heard (hw : s.Watched) (h : s.Heard n) :
    Heard ⟨w', s.watcher.notify s.writer.tree w'.tree order⟩ n := by
  obtain hwatch | hevent := h
  · obtain ⟨q, hq⟩ := Option.ne_none_iff_exists'.mp hwatch
    obtain ⟨-, d, a, -, hfile, -⟩ := hw.file hq
    by_cases hgone : w'.tree[q]? = none
    · refine .inr (mem_events_notify.mpr (.inr ⟨q, hq, ?_⟩))
      rw [CertWatcher.fileOps, if_neg (by rw [hgone, hfile]; simp), if_pos hgone]
      simp
    · left
      show (s.watcher.notify s.writer.tree w'.tree order).watches[n]? ≠ none
      rw [getElem?_notify.mpr ⟨hq, hgone⟩]
      simp
  · exact .inr (mem_events_notify.mpr (.inl hevent))

theorem Watched.writer_step (h : s.Watched) (hmove : WriterMove s.writer w')
    (hinv : WriterInv True w')
    (hall : AllVersions (Complete s.watcher.certPath s.watcher.keyPath) w') :
    Watched ⟨w', s.watcher.notify s.writer.tree w'.tree order⟩ where
  writer := hinv
  complete := hall
  file {n q} hq := by
    obtain ⟨hq, hthere⟩ := getElem?_notify.mp hq
    have hkept := (h.kept_or_gone hmove hq).resolve_right hthere
    obtain ⟨hn, d, a, rfl, hfile, hts⟩ := h.file hq
    refine ⟨hn, d, a, rfl, hkept.trans hfile, fun hd => ?_⟩
    obtain hd | hnone := hmove.tsDir hd
    · exact hts hd
    · rw [hnone] at hfile
      simp at hfile
  event hev := by
    obtain hev | ⟨q, hq, -⟩ := mem_events_notify.mp hev
    · exact h.event hev
    · exact (h.file hq).1
  adding := h.adding
  rewatching := h.rewatching

/-- If both watches are on the published version after a step, they were before, and it is
the same version. -/
theorem Watched.onPublished (h : s.Watched) (hmove : WriterMove s.writer w')
    (hinv : WriterInv True w')
    (hon : OnPublished ⟨w', s.watcher.notify s.writer.tree w'.tree order⟩) :
    s.OnPublished ∧ ∀ n, s.IsPair n →
      publishedFiles w'.tree [n] = publishedFiles s.writer.tree [n] := by
  have hfile : ∀ n, s.IsPair n → ∃ d a, s.writer.tree[[dataDirName]]? = some (.link [d]) ∧
      s.watcher.watches[n]? = some [d, n] ∧ w'.tree[[dataDirName]]? = some (.link [d]) ∧
      s.writer.tree[[d, n]]? = some (.file a) ∧ w'.tree[[d, n]]? = some (.file a) := by
    intro n hn
    obtain ⟨d, hd, hwatch⟩ := hon n hn
    obtain ⟨hwatch, hthere⟩ := getElem?_notify.mp hwatch
    have hkept := (h.kept_or_gone hmove hwatch).resolve_right hthere
    obtain ⟨-, d', a, hdd, hfile, hts⟩ := h.file hwatch
    obtain rfl : d = d' := (List.cons.inj hdd).1
    refine ⟨d, a, ?_, hwatch, hd, hfile, hkept.trans hfile⟩
    obtain hdata | ⟨tsDir, htsDir, hdata⟩ := hmove.data
    · exact hdata ▸ hd
    · -- nothing that a call builds is watched
      have hd : w'.tree[[dataDirName]]? = some (.link [d]) := hd
      rw [hdata, Option.some.injEq, Node.link.injEq, List.cons.injEq] at hd
      exact absurd (hd.1 ▸ htsDir) hts
  refine ⟨fun n hn => ?_, fun n hn => ?_⟩
  · obtain ⟨d, a, hd, hwatch, -⟩ := hfile n hn
    exact ⟨d, hd, hwatch⟩
  · obtain ⟨d, a, hd, -, hd', hfile, hfile'⟩ := hfile n hn
    obtain ⟨f, hf, -⟩ := h.writer
    obtain ⟨f', hf', -⟩ := hinv
    rw [hf.publishedFiles_eq, hf'.publishedFiles_eq]
    dsimp only
    rw [hf.apply_eq_some hd hfile, hf'.apply_eq_some hd' hfile']

theorem Knows.writer_step {lib : CertLib} (h : s.Watched) (hmove : WriterMove s.writer w')
    (hinv : WriterInv True w')
    (hstart : s.watcher.pc.isStarting = true →
      publishedFiles w'.tree = publishedFiles s.writer.tree)
    (hk : s.Knows lib s.watcher.pc) :
    Knows lib ⟨w', s.watcher.notify s.writer.tree w'.tree order⟩ s.watcher.pc := by
  have hheard : ∀ n, s.Heard n → Heard ⟨w', s.watcher.notify s.writer.tree w'.tree order⟩ n :=
    fun n => h.heard
  cases hpc : s.watcher.pc with
  | new => trivial
  | newKey cert =>
    rw [hpc] at hk hstart
    exact (congrFun (hstart rfl) _).trans hk
  | adding files =>
    rw [hpc] at hk hstart
    refine ⟨fun cert key hcert hkey => hk.1 cert key ?_ ?_, fun n hn => (hk.2 n hn).imp_right
      (hheard n)⟩
    · exact (congrFun (hstart rfl) _).symm.trans hcert
    · exact (congrFun (hstart rfl) _).symm.trans hkey
  | watching =>
    rw [hpc] at hk
    refine ⟨fun hon => ?_, fun n hn => hheard n (hk.2 n hn)⟩
    obtain ⟨hon, hsame⟩ := h.onPublished hmove hinv hon
    intro cert key hcert hkey
    exact hk.1 hon cert key ((hsame _ (.inl rfl)).symm.trans hcert)
      ((hsame _ (.inr rfl)).symm.trans hkey)
  | rewatching m =>
    rw [hpc] at hk
    exact fun n hn => (hk n hn).imp_right (hheard n)
  | reading =>
    rw [hpc] at hk
    exact fun n hn => hheard n (hk n hn)
  | readingKey cert =>
    rw [hpc] at hk
    refine ⟨fun hon => ?_, fun n hn => hheard n (hk.2 n hn)⟩
    obtain ⟨hon, hsame⟩ := h.onPublished hmove hinv hon
    exact (hsame _ (.inl rfl)).trans (hk.1 hon)
  | stopped => trivial

end notify

/-! ## Steps of the watcher -/

section watcher

variable {s : CertDir} {lib : CertLib} {v : CertWatcher} {n : String}

theorem Watched.exists_file (h : s.Watched) (hn : s.IsPair n) :
    ∃ f a, Managed True s.writer.tree f ∧ f [n] = some a := by
  obtain ⟨f, hf, -⟩ := h.writer
  have hboth := h.complete.published
  rw [AtomicWriter.abs, hf.publishedFiles_eq] at hboth
  have hne : (f [n]).map (·.data) ≠ none := by
    obtain rfl | rfl := hn
    · exact hboth.1
    · exact hboth.2
  obtain ⟨b, hb⟩ := Option.ne_none_iff_exists'.mp hne
  obtain ⟨a, ha, -⟩ := Option.map_eq_some_iff.mp hb
  exact ⟨f, a, hf, ha⟩

theorem Watched.readFile (h : s.Watched) (hn : s.IsPair n) :
    ∃ a, s.writer.tree.readFile [n] = .ok a ∧ publishedFiles s.writer.tree [n] = some a.data := by
  obtain ⟨f, a, hf, ha⟩ := h.exists_file hn
  refine ⟨a, hf.readFile_eq_ok ha, ?_⟩
  rw [hf.publishedFiles_eq]
  dsimp only
  rw [ha]
  rfl

theorem Watched.add (h : s.Watched) (hn : s.IsPair n) :
    ∃ d a, s.writer.tree[[d, n]]? = some (.file a) ∧ s.writer.pc.tsDir ≠ some d ∧
      s.watcher.add s.writer.tree n =
        .ok { s.watcher with watches := s.watcher.watches.insert n [d, n] } := by
  obtain ⟨f, a, hf, ha⟩ := h.exists_file hn
  obtain ⟨d, hd, hfile, hresolve⟩ := hf.resolve_visible ha
  refine ⟨d, a, hfile, fun htsDir => (unpublished_tsDir h.writer htsDir).not_target hd, ?_⟩
  rw [CertWatcher.add, hresolve]

/-- A step that leaves the watches. -/
theorem Watched.same_watches (h : s.Watched) {current : Option (Bytes × Bytes)}
    {events : List FsEvent} {pc : WatcherPc} (hevents : ∀ ev ∈ events, ev ∈ s.watcher.events)
    (hadding : ∀ files, pc = .adding files → ∀ n ∈ files, s.IsPair n)
    (hrewatching : ∀ n, pc = .rewatching n → s.IsPair n) :
    Watched ⟨s.writer, { s.watcher with currentCert := current, events, pc }⟩ where
  writer := h.writer
  complete := h.complete
  file := h.file
  event hev := h.event (hevents _ hev)
  adding := hadding _
  rewatching := hrewatching _

/-- A step that adds a watch. -/
theorem Watched.insert_watch (h : s.Watched) (hn : s.IsPair n) {d : String} {a : FileData}
    (hfile : s.writer.tree[[d, n]]? = some (.file a)) (hts : s.writer.pc.tsDir ≠ some d)
    {pc : WatcherPc} (hadding : ∀ files, pc = .adding files → ∀ n ∈ files, s.IsPair n)
    (hrewatching : ∀ n, pc ≠ .rewatching n) :
    Watched ⟨s.writer, { s.watcher with watches := s.watcher.watches.insert n [d, n], pc }⟩ where
  writer := h.writer
  complete := h.complete
  file {m q} hq := by
    replace hq : (s.watcher.watches.insert n [d, n])[m]? = some q := hq
    rw [StringMap.getElem?_insert] at hq
    split at hq
    · next hnm =>
      rw [Option.some.injEq] at hq
      exact hq ▸ hnm ▸ ⟨hn, d, a, rfl, hfile, hts⟩
    · exact h.file hq
  event := h.event
  adding := hadding _
  rewatching hpc := absurd hpc (hrewatching _)

theorem heard_insert {m : String} {d : String} {pc : WatcherPc} (h : m = n ∨ s.Heard m) :
    Heard ⟨s.writer, { s.watcher with watches := s.watcher.watches.insert n [d, n], pc }⟩ m := by
  obtain rfl | hwatch | hevent := h
  · left
    show (s.watcher.watches.insert m [d, m])[m]? ≠ none
    rw [StringMap.getElem?_insert, if_pos rfl]
    simp
  · left
    show (s.watcher.watches.insert n [d, n])[m]? ≠ none
    rw [StringMap.getElem?_insert]
    split
    · simp
    · exact hwatch
  · exact .inr hevent

/-- Every step of the watcher that does not fail. -/
theorem Watched.watcher_step (h : s.Watched)
    (hs : s.watcher.step lib s.writer.tree false = some v) :
    Watched ⟨s.writer, v⟩ ∧ (s.Knows lib s.watcher.pc → Knows lib ⟨s.writer, v⟩ v.pc) := by
  obtain ⟨cert, hcert, hcert'⟩ := h.readFile (.inl rfl)
  obtain ⟨key, hkey, hkey'⟩ := h.readFile (.inr rfl)
  unfold CertWatcher.step at hs
  cases hpc : s.watcher.pc with
  | new =>
    rw [hpc, hcert] at hs
    rw [Option.some.injEq] at hs
    subst hs
    exact ⟨h.same_watches (fun _ => id) (by simp) (by simp), fun _ => hcert'⟩
  | newKey cert₀ =>
    rw [hpc, hkey] at hs
    dsimp only at hs
    split at hs
    · rw [Option.some.injEq] at hs
      subst hs
      refine ⟨h.same_watches (fun _ => id) ?_ (by simp), fun hk => ⟨?_, fun n hn => .inl ?_⟩⟩
      · intro files hfiles n hn
        rw [WatcherPc.adding.injEq] at hfiles
        subst hfiles
        simpa [IsPair] using hn
      · intro c k hc hk' _
        have hk : publishedFiles s.writer.tree [s.watcher.certPath] = some cert₀ := hk
        have hc : publishedFiles s.writer.tree [s.watcher.certPath] = some c := hc
        have hk' : publishedFiles s.writer.tree [s.watcher.keyPath] = some k := hk'
        rw [hk, Option.some.injEq] at hc
        rw [hkey', Option.some.injEq] at hk'
        rw [hc, hk']
      · simpa [IsPair] using hn
    · rw [Option.some.injEq] at hs
      subst hs
      exact ⟨h.same_watches (fun _ => id) (by simp) (by simp), fun _ => trivial⟩
  | adding files =>
    cases files with
    | nil =>
      rw [hpc] at hs
      rw [Option.some.injEq] at hs
      subst hs
      exact ⟨h.same_watches (fun _ => id) (by simp) (by simp), fun hk =>
        ⟨fun _ => hk.1, fun n hn => (hk.2 n hn).resolve_left (by simp)⟩⟩
    | cons m files =>
      have hm := h.adding hpc
      obtain ⟨d, a, hfile, hts, hadd⟩ := h.add (hm m List.mem_cons_self)
      rw [hpc] at hs
      dsimp only at hs
      rw [hadd, Option.some.injEq] at hs
      subst hs
      refine ⟨h.insert_watch (hm m List.mem_cons_self) hfile hts ?_ (by simp), fun hk =>
        ⟨hk.1, fun n hn => ?_⟩⟩
      · intro files' hfiles n hn
        rw [WatcherPc.adding.injEq] at hfiles
        exact hm n (List.mem_cons_of_mem _ (hfiles ▸ hn))
      · obtain hmem | hheard := hk.2 n hn
        · obtain rfl | hmem := List.mem_cons.mp hmem
          · exact .inr (heard_insert (.inl rfl))
          · exact .inl hmem
        · exact .inr (heard_insert (.inr hheard))
  | watching =>
    rw [hpc] at hs
    dsimp only at hs
    split at hs
    · simp at hs
    next event events hevents =>
    have hsub : ∀ ev ∈ events, ev ∈ s.watcher.events := by
      intro ev hev
      rw [hevents]
      exact List.mem_cons_of_mem _ hev
    -- an event that is not a removal may go
    have hkeep : event.op ≠ .remove → ∀ {pc : WatcherPc} {n}, s.Heard n →
        Heard ⟨s.writer, { s.watcher with events, pc }⟩ n := by
      intro hop pc n hn
      refine hn.imp_right fun hmem => ?_
      rw [hevents] at hmem
      refine (List.mem_cons.mp hmem).resolve_left fun he => hop ?_
      rw [← he]
    split at hs
    · rw [Option.some.injEq] at hs
      subst hs
      refine ⟨h.same_watches hsub (by simp) ?_, fun hk n hn => ?_⟩
      · intro m hm
        rw [WatcherPc.rewatching.injEq] at hm
        subst hm
        exact h.event (by rw [hevents]; exact List.mem_cons_self)
      · by_cases hname : n = event.name
        · exact .inl hname
        · refine .inr ((hk.2 n hn).imp_right fun hmem => ?_)
          rw [hevents] at hmem
          refine (List.mem_cons.mp hmem).resolve_left fun he => hname ?_
          rw [← he]
    · next hop =>
      rw [Option.some.injEq] at hs
      subst hs
      exact ⟨h.same_watches hsub (by simp) (by simp), fun hk n hn =>
        hkeep (by rw [hop]; simp) (hk.2 n hn)⟩
    · next hop =>
      rw [Option.some.injEq] at hs
      subst hs
      exact ⟨h.same_watches hsub (by simp) (by simp), fun hk n hn =>
        hkeep (by rw [hop]; simp) (hk.2 n hn)⟩
    · next hop =>
      rw [Option.some.injEq] at hs
      subst hs
      exact ⟨h.same_watches hsub (by simp) (by simp), fun hk =>
        ⟨hk.1, fun n hn => hkeep (by rw [hop]; simp) (hk.2 n hn)⟩⟩
    · next hop =>
      rw [Option.some.injEq] at hs
      subst hs
      exact ⟨h.same_watches hsub (by simp) (by simp), fun hk =>
        ⟨hk.1, fun n hn => hkeep (by rw [hop]; simp) (hk.2 n hn)⟩⟩
  | rewatching m =>
    obtain ⟨d, a, hfile, hts, hadd⟩ := h.add (h.rewatching hpc)
    rw [hpc] at hs
    dsimp only at hs
    rw [hadd, Option.some.injEq] at hs
    subst hs
    exact ⟨h.insert_watch (h.rewatching hpc) hfile hts (by simp) (by simp), fun hk n hn =>
      heard_insert (hk n hn)⟩
  | reading =>
    rw [hpc, hcert] at hs
    rw [Option.some.injEq] at hs
    subst hs
    exact ⟨h.same_watches (fun _ => id) (by simp) (by simp), fun hk => ⟨fun _ => hcert', hk⟩⟩
  | readingKey cert₀ =>
    rw [hpc, hkey] at hs
    dsimp only at hs
    split at hs
    · rw [Option.some.injEq] at hs
      subst hs
      refine ⟨h.same_watches (fun _ => id) (by simp) (by simp), fun hk => ⟨fun hon => ?_, hk.2⟩⟩
      intro c k hc hk' _
      have hcert₀ : publishedFiles s.writer.tree [s.watcher.certPath] = some cert₀ := hk.1 hon
      have hc : publishedFiles s.writer.tree [s.watcher.certPath] = some c := hc
      have hk' : publishedFiles s.writer.tree [s.watcher.keyPath] = some k := hk'
      rw [hcert₀, Option.some.injEq] at hc
      rw [hkey', Option.some.injEq] at hk'
      rw [hc, hk']
    · next hpair =>
      rw [Option.some.injEq] at hs
      subst hs
      refine ⟨h.same_watches (fun _ => id) (by simp) (by simp), fun hk => ⟨fun hon => ?_, hk.2⟩⟩
      intro c k hc hk' hvalid
      have hcert₀ : publishedFiles s.writer.tree [s.watcher.certPath] = some cert₀ := hk.1 hon
      have hc : publishedFiles s.writer.tree [s.watcher.certPath] = some c := hc
      have hk' : publishedFiles s.writer.tree [s.watcher.keyPath] = some k := hk'
      rw [hcert₀, Option.some.injEq] at hc
      rw [hkey', Option.some.injEq] at hk'
      rw [← hc, ← hk'] at hvalid
      exact absurd hvalid hpair
  | stopped =>
    rw [hpc] at hs
    simp at hs

end watcher

/-! ## Runs -/

section runs

variable {lib : CertLib} {umask : UInt32} {tree : FileTree FileData}
  {f : FsPath → Option FileData} {certPath keyPath : String} {es : List CertDirEvent}
  {s s' : CertDir} {e : CertDirEvent}

/-- The published version stays while the watcher starts. -/
theorem published_of_quietStart {w' : AtomicWriter} {ev : WriterEvent} {order : List Nat}
    (he : Allowed True ev) (hw : WriterInv True s.writer)
    (hquiet : quietStart s (.writer ev order) = true) (hs : s.writer.step umask ev = some w')
    (hstart : s.watcher.pc.isStarting = true) :
    publishedFiles w'.tree = publishedFiles s.writer.tree := by
  cases ev with
  | write payload =>
    rw [AtomicWriter.step] at hs
    split at hs
    · rw [Option.some.injEq] at hs
      rw [← hs]
    · simp at hs
  | step o =>
    refine ((step_good he hw hs).kept.resolve_right ?_).1
    rintro ⟨job, tsDir, hpc, -⟩
    simp [quietStart, hstart, CertDirEvent.isWriterStep, hpc, WritePc.isMoving] at hquiet
  | crash =>
    rw [AtomicWriter.step, Option.some.injEq] at hs
    rw [← hs]

theorem Watched.step (he : Proper s.watcher.certPath s.watcher.keyPath e) (h : s.Watched)
    (hs : step lib umask s e = some s') : s'.Watched := by
  cases e with
  | writer ev order =>
    obtain ⟨w', hw', rfl⟩ := Option.map_eq_some_iff.mp hs
    exact h.writer_step (writerMove_of_step h.writer hw') (step_good he.1 h.writer hw').inv
      (h.complete.step he.1 he.2 h.writer hw')
  | watcher fails =>
    obtain ⟨v, hv, rfl⟩ := Option.map_eq_some_iff.mp hs
    obtain rfl : fails = false := he
    exact (h.watcher_step hv).1

theorem Knows.step (he : Proper s.watcher.certPath s.watcher.keyPath e) (h : s.Watched)
    (hquiet : quietStart s e = true) (hk : s.Knows lib s.watcher.pc)
    (hs : step lib umask s e = some s') : s'.Knows lib s'.watcher.pc := by
  cases e with
  | writer ev order =>
    obtain ⟨w', hw', rfl⟩ := Option.map_eq_some_iff.mp hs
    exact hk.writer_step h (writerMove_of_step h.writer hw') (step_good he.1 h.writer hw').inv
      (published_of_quietStart he.1 h.writer hquiet hw')
  | watcher fails =>
    obtain ⟨v, hv, rfl⟩ := Option.map_eq_some_iff.mp hs
    obtain rfl : fails = false := he
    exact (h.watcher_step hv).2 hk

theorem add_paths {w w' : CertWatcher} {n : String} (h : w.add tree n = .ok w') :
    w'.certPath = w.certPath ∧ w'.keyPath = w.keyPath := by
  rw [CertWatcher.add] at h
  split at h
  · simp at h
  · rw [Except.ok.injEq] at h
    exact h ▸ ⟨rfl, rfl⟩

theorem step_paths {w w' : CertWatcher} {fails : Bool} (h : w.step lib tree fails = some w') :
    w'.certPath = w.certPath ∧ w'.keyPath = w.keyPath := by
  unfold CertWatcher.step at h
  repeat' split at h
  all_goals simp only [Option.some.injEq, reduceCtorEq] at h
  all_goals subst h
  all_goals first
    | exact ⟨rfl, rfl⟩
    | (have hpaths := add_paths ‹w.add tree _ = .ok _›; exact hpaths)

theorem paths_step (hs : step lib umask s e = some s') :
    s'.watcher.certPath = s.watcher.certPath ∧ s'.watcher.keyPath = s.watcher.keyPath := by
  cases e with
  | writer ev order =>
    obtain ⟨w', -, rfl⟩ := Option.map_eq_some_iff.mp hs
    exact ⟨rfl, rfl⟩
  | watcher fails =>
    obtain ⟨v, hv, rfl⟩ := Option.map_eq_some_iff.mp hs
    exact step_paths hv

/-- What is watched in every state of a run, and under which names. -/
structure WatchedAs (certPath keyPath : String) (s : CertDir) : Prop where
  cert : s.watcher.certPath = certPath
  key : s.watcher.keyPath = keyPath
  watched : s.Watched

theorem WatchedAs.step (he : Proper certPath keyPath e) (h : s.WatchedAs certPath keyPath)
    (hs : step lib umask s e = some s') : s'.WatchedAs certPath keyPath := by
  obtain ⟨rfl, rfl, hw⟩ := h
  obtain ⟨hcert, hkey⟩ := paths_step hs
  exact ⟨hcert, hkey, hw.step he hs⟩

theorem watchedAs_init (h₀ : Managed True tree f)
    (hboth : Complete certPath keyPath (publishedFiles tree)) :
    (system lib umask tree certPath keyPath).init.WatchedAs certPath keyPath := by
  refine ⟨rfl, rfl, ⟨f, h₀, trivial⟩, ⟨hboth, ?_⟩, ?_, ?_, ?_, ?_⟩
  · intro v hv
    simp [system, AtomicWriter.abs, WritePc.publisher] at hv
  all_goals simp [system]

/-- In every run of a directory whose versions have both files, while nothing is published
between the first read of `New` and the watches of `Start`: when the watcher waits for an
event and there is none, it has loaded the published certificate, or one of its watches is
on a file of an older version, which is still there. -/
theorem currentCert_of_quiet (h₀ : Managed True tree f)
    (hboth : Complete certPath keyPath (publishedFiles tree))
    (hes : ∀ e ∈ es, Proper certPath keyPath e)
    (hstart : (system lib umask tree certPath keyPath).Steps (fun s e => quietStart s e = true)
      (system lib umask tree certPath keyPath).init es)
    (hrun : (system lib umask tree certPath keyPath).run es = some s)
    (hwatching : s.watcher.pc = .watching) (hquiet : s.watcher.events = []) :
    s.Current lib ∨ ∃ n d a, s.IsPair n ∧ s.watcher.watches[n]? = some [d, n] ∧
      s.writer.tree[[d, n]]? = some (.file a) ∧
      s.writer.tree[[dataDirName]]? ≠ some (.link [d]) := by
  have hinv := (system lib umask tree certPath keyPath).runFrom_invariant_of_steps
    (I := fun s => s.WatchedAs certPath keyPath ∧ s.Knows lib s.watcher.pc)
    (fun {s e s'} he hs hok hstep => by
      refine ⟨hs.1.step he hstep, ?_⟩
      obtain ⟨⟨rfl, rfl, hw⟩, hk⟩ := hs
      exact hk.step he hw hok hstep)
    hes ⟨watchedAs_init h₀ hboth, trivial⟩ hstart hrun
  obtain ⟨⟨-, -, hw⟩, hk⟩ := hinv
  rw [hwatching] at hk
  by_cases hon : s.OnPublished
  · exact .inl (hk.1 hon)
  · right
    unfold OnPublished at hon
    push Not at hon
    obtain ⟨n, hn, hnot⟩ := hon
    have hwatch : s.watcher.watches[n]? ≠ none :=
      (hk.2 n hn).resolve_right (by rw [hquiet]; simp)
    obtain ⟨q, hq⟩ := Option.ne_none_iff_exists'.mp hwatch
    obtain ⟨-, d, a, rfl, hfile, -⟩ := hw.file hq
    exact ⟨n, d, a, hn, hq, hfile, fun hd => hnot d hd hq⟩

def samplePair (cert key : UInt8) : Payload :=
  ⟨[("tls.crt", ⟨[cert], 0o644⟩), ("tls.key", ⟨[key], 0o644⟩)], by simp⟩

def samplePairCall (cert key : UInt8) (tsDir : String) (steps : Nat) : List WriterEvent :=
  .write (samplePair cert key) :: List.replicate steps (.step { name := tsDir })

/-- The directory after a first call. -/
def samplePairDir : FileTree FileData :=
  ((AtomicWriter.system 0o22 ∅).run (samplePairCall 1 2 "..2024_05_01_10_00_00.1" 11)).elim ∅
    (·.tree)

def samplePairLib : CertLib where
  x509KeyPair cert key := cert.length == key.length
  appendCertsFromPEM _ := true
  pemDecode cert := some cert
  parseCertificate _ := true
  verify _ _ _ := true
  generate _ _ _ := .error ""

/-- The watcher starts, and a second call takes so many of its steps. -/
def samplePairEvents (steps : Nat) : List CertDirEvent :=
  List.replicate 5 (.watcher false) ++
    (samplePairCall 3 4 "..2024_05_01_10_00_01.1" steps).map (.writer · [])

theorem samplePair_unreserved (cert key : UInt8) : Unreserved (samplePair cert key) := by
  unfold Unreserved samplePair
  simp only [List.mem_cons, List.not_mem_nil, or_false, forall_eq_or_imp, forall_eq]
  decide +kernel

theorem samplePair_complete {cert key : UInt8} {cleanPayload : CleanPayload}
    (h : validatePayload (samplePair cert key) = .ok cleanPayload) :
    Complete "tls.crt" "tls.key" cleanPayload.files := by
  obtain rfl := Except.ok.inj h
  exact ⟨Option.some_ne_none _, Option.some_ne_none _⟩

theorem managed_samplePairDir : ∃ f, Managed True samplePairDir f := by
  have hrun : ((AtomicWriter.system 0o22 ∅).run
      (samplePairCall 1 2 "..2024_05_01_10_00_00.1" 11)).isSome = true := by decide +kernel
  obtain ⟨w, hw⟩ := Option.isSome_iff_exists.mp hrun
  have hes : ∀ e ∈ samplePairCall 1 2 "..2024_05_01_10_00_00.1" 11, Allowed True e := by
    simp [samplePairCall, Allowed, samplePair_unreserved]
  obtain ⟨f, hf, -⟩ := inv_of_run managed_empty hes hw
  exact ⟨f, by rwa [samplePairDir, hw]⟩

theorem samplePairDir_complete :
    Complete "tls.crt" "tls.key" (publishedFiles samplePairDir) := by
  unfold Complete
  decide +kernel

theorem samplePairCall_proper (cert key : UInt8) (tsDir : String) (steps : Nat) :
    ∀ e ∈ (samplePairCall cert key tsDir steps).map (CertDirEvent.writer · []),
      Proper "tls.crt" "tls.key" e := by
  intro e he
  simp only [samplePairCall, List.map_cons, List.map_replicate, List.mem_cons,
    List.mem_replicate] at he
  obtain rfl | ⟨-, rfl⟩ := he
  · refine ⟨samplePair_unreserved cert key, fun payload cleanPayload hpayload h => ?_⟩
    rw [← WriterEvent.write.inj hpayload] at h
    exact samplePair_complete h
  · exact ⟨fun _ => rfl, by simp⟩

theorem samplePairEvents_proper (steps : Nat) :
    ∀ e ∈ samplePairEvents steps, Proper "tls.crt" "tls.key" e := by
  intro e he
  obtain he | he := List.mem_append.mp he
  · obtain rfl := List.eq_of_mem_replicate he
    rfl
  · exact samplePairCall_proper _ _ _ _ e he

theorem currentCert_samplePair : ∃ s,
    (system samplePairLib 0o22 samplePairDir "tls.crt" "tls.key").run
      (samplePairEvents 12 ++ List.replicate 10 (.watcher false)) = some s ∧
    (s.Current samplePairLib ∨ ∃ n d a, s.IsPair n ∧ s.watcher.watches[n]? = some [d, n] ∧
      s.writer.tree[[d, n]]? = some (.file a) ∧
      s.writer.tree[[dataDirName]]? ≠ some (.link [d])) := by
  have hrun : ((system samplePairLib 0o22 samplePairDir "tls.crt" "tls.key").run
      (samplePairEvents 12 ++ List.replicate 10 (.watcher false))).map
      (fun s => (s.watcher.pc, s.watcher.events)) = some (.watching, []) := by decide +kernel
  obtain ⟨s, hs, hwatcher⟩ := Option.map_eq_some_iff.mp hrun
  obtain ⟨hpc, hevents⟩ := Prod.mk.inj hwatcher
  obtain ⟨f, hf⟩ := managed_samplePairDir
  refine ⟨s, hs, currentCert_of_quiet hf samplePairDir_complete (fun e he => ?_) ?_ hs hpc hevents⟩
  · obtain he | he := List.mem_append.mp he
    · exact samplePairEvents_proper 12 e he
    · obtain rfl := List.eq_of_mem_replicate he
      rfl
  · exact System.steps_of_checkSteps _ quietStart id (by decide +kernel)

/-! ## A version that is never removed -/

/-- An old version that no call is going to remove. -/
structure Leaked (d : String) (w : AtomicWriter) : Prop where
  unpublished : Unpublished w.tree d
  not_built : w.pc.tsDir ≠ some d
  not_discarded : w.pc.discards ≠ some [d]

theorem Leaked.move {w w' : AtomicWriter} {d n : String} {a : FileData} (h : Leaked d w)
    (hfile : w.tree[[d, n]]? = some (.file a)) (hmove : WriterMove w w')
    (hdirs : ∀ dir, w.pc.discards = some dir → ∃ d', dir = [d']) :
    Leaked d w' ∧ ∀ m, w'.tree[[d, m]]? = w.tree[[d, m]]? := by
  refine ⟨⟨⟨h.unpublished.name, fun hd => ?_⟩, fun hd => ?_, fun hd => ?_⟩, fun m => ?_⟩
  · obtain hdata | ⟨tsDir, htsDir, hdata⟩ := hmove.data
    · exact h.unpublished.not_target (hdata ▸ hd)
    · rw [hdata, Option.some.injEq, Node.link.injEq, List.cons.injEq] at hd
      exact h.not_built (hd.1 ▸ htsDir)
  · obtain hd | hnone := hmove.tsDir hd
    · exact h.not_built hd
    · rw [hnone] at hfile
      simp at hfile
  · obtain hd | ⟨d', hd', hdata⟩ := hmove.discards hd
    · exact h.not_discarded hd
    · rw [List.cons.injEq] at hd'
      exact h.unpublished.not_target (hd'.1 ▸ hdata)
  · refine (hmove.deep (q := [d, m]) (by simp) fun tsDir htsDir => ?_).resolve_right ?_
    · rw [singleton_prefix_iff]
      rintro rfl
      exact h.not_built htsDir
    · rintro ⟨-, dir, hdir, hpre⟩
      obtain ⟨d', rfl⟩ := hdirs dir hdir
      rw [singleton_prefix_iff] at hpre
      exact h.not_discarded (hpre ▸ hdir)

theorem discards_singleton {w : AtomicWriter} (hw : WriterInv True w) {dir : FsPath}
    (hdir : w.pc.discards = some dir) : ∃ d, dir = [d] ∧ Unpublished w.tree d := by
  obtain ⟨t, pc⟩ := w
  obtain ⟨g, -, hinv⟩ := hw
  cases pc with
  | pruning job todo lasterr => exact hinv.2.2 dir hdir
  | discarding job old => exact Option.some.inj hdir ▸ hinv.2
  | _ => simp [WritePc.discards] at hdir

/-- If nothing happens to the files that are watched, nothing happens to the watcher. -/
theorem notify_eq_self {w : CertWatcher} {old new : FileTree FileData} {order : List Nat}
    (h : ∀ (n : String) (q : FsPath), w.watches[n]? = some q → new[q]? = old[q]? ∧ old[q]? ≠ none) :
    w.notify old new order = w := by
  have hwatches : (w.watches.filter fun _ path => new[path]?.isSome) = w.watches := by
    refine Std.ExtTreeMap.ext_getElem? fun n => ?_
    rw [Std.ExtTreeMap.getElem?_filter']
    cases hq : w.watches[n]? with
    | none => rfl
    | some q =>
      obtain ⟨hsame, hthere⟩ := h n q hq
      rw [Option.filter_eq_some_iff.mpr ⟨rfl, by rw [hsame]; exact Option.isSome_iff_ne_none.mpr hthere⟩]
  have hevents : ((visitIn order w.watches.toList).flatMap fun np =>
      (CertWatcher.fileOps old new np.2).map fun op => (⟨np.1, op⟩ : FsEvent)) = [] := by
    rw [List.flatMap_eq_nil_iff]
    intro np hnp
    rw [(perm_visitIn order _).mem_iff, Std.ExtTreeMap.mem_toList_iff_getElem?_eq_some] at hnp
    rw [CertWatcher.fileOps, if_pos (h _ _ hnp).1]
    rfl
  rw [CertWatcher.notify, hwatches, hevents, List.append_nil]

/-- The watcher waits with both its watches on an old version that stays. -/
structure Stale (d : String) (s : CertDir) : Prop where
  watched : s.Watched
  leaked : Leaked d s.writer
  pc : s.watcher.pc = .watching
  events : s.watcher.events = []
  watches : ∀ n, s.IsPair n → s.watcher.watches[n]? = some [d, n]

/-- A step of the writer that leaves the files of `d` alone is not noticed. -/
theorem Stale.notify_eq {d : String} (w' : AtomicWriter) (order : List Nat) (hw : s.Watched)
    (hwatches : ∀ n, s.IsPair n → s.watcher.watches[n]? = some [d, n])
    (hkept : ∀ n, w'.tree[[d, n]]? = s.writer.tree[[d, n]]?) :
    s.watcher.notify s.writer.tree w'.tree order = s.watcher := by
  refine notify_eq_self fun n q hq => ?_
  obtain ⟨hn, -, b, -, hfile, -⟩ := hw.file hq
  refine ⟨?_, by rw [hfile]; simp⟩
  rw [hwatches n hn, Option.some.injEq] at hq
  exact hq ▸ hkept n

theorem Stale.step {d : String} (h : Stale d s)
    (he : Proper s.watcher.certPath s.watcher.keyPath e) (hs : step lib umask s e = some s') :
    Stale d s' ∧ s'.watcher = s.watcher := by
  have hw' := h.watched.step he hs
  cases e with
  | watcher fails =>
    -- it waits, and there is no event
    obtain ⟨v, hv, -⟩ := Option.map_eq_some_iff.mp hs
    unfold CertWatcher.step at hv
    simp [h.pc, h.events] at hv
  | writer ev order =>
    obtain ⟨w', hstep, rfl⟩ := Option.map_eq_some_iff.mp hs
    obtain ⟨-, d', a, hd', hfile, -⟩ := h.watched.file (h.watches _ (.inl rfl))
    obtain rfl : d = d' := (List.cons.inj hd').1
    obtain ⟨hleaked, hkept⟩ := h.leaked.move hfile (writerMove_of_step h.watched.writer hstep)
      fun dir hdir => (discards_singleton h.watched.writer hdir).imp fun _ => And.left
    have hsame := Stale.notify_eq w' order h.watched h.watches hkept
    refine ⟨⟨hw', hleaked, ?_, ?_, fun n hn => ?_⟩, hsame⟩
    · exact (congrArg CertWatcher.pc hsame).trans h.pc
    · exact (congrArg CertWatcher.events hsame).trans h.events
    · show (s.watcher.notify s.writer.tree w'.tree order).watches[n]? = some [d, n]
      unfold IsPair at hn
      dsimp only at hn
      rw [hsame] at hn ⊢
      exact h.watches n hn

/-- If the process of the writer ends when it has renamed but not yet removed the old
version, and the watcher has both its watches there and nothing to do: the watcher never
does anything again, so it never loads a certificate that is published later, however many
calls succeed. -/
theorem watcher_stays_behind {es' : List CertDirEvent} {d : String} {order : List Nat}
    (h₀ : Managed True tree f) (hboth : Complete certPath keyPath (publishedFiles tree))
    (hes : ∀ e ∈ es, Proper certPath keyPath e)
    (hrun : (system lib umask tree certPath keyPath).run es = some s)
    (hwatching : s.watcher.pc = .watching) (hquiet : s.watcher.events = [])
    (hpc : s.writer.pc.discards = some [d])
    (hold : ∀ n, s.IsPair n → s.watcher.watches[n]? = some [d, n])
    (hes' : ∀ e ∈ es', Proper certPath keyPath e)
    (hrun' : (system lib umask tree certPath keyPath).runFrom s (.writer .crash order :: es') =
      some s') : s'.watcher = s.watcher := by
  have hw := (system lib umask tree certPath keyPath).runFrom_invariant
    (I := fun s => s.WatchedAs certPath keyPath) (fun he hs hstep => hs.step he hstep) hes
    (watchedAs_init h₀ hboth) hrun
  obtain ⟨rfl, rfl, hw⟩ := hw
  -- the crash forgets the call that was to remove `d`
  obtain ⟨s₁, hs₁, hrun'⟩ := System.runFrom_cons_eq_some _ |>.mp hrun'
  have hproper : Proper s.watcher.certPath s.watcher.keyPath (.writer .crash order) :=
    ⟨trivial, by simp⟩
  have hs₁ : step lib umask s (.writer .crash order) = some s₁ := hs₁
  have hw₁ : s₁.Watched := hw.step hproper hs₁
  obtain rfl : _ = s₁ := Option.some.inj hs₁
  have hsame : s.watcher.notify s.writer.tree s.writer.tree order = s.watcher :=
    Stale.notify_eq s.writer order hw hold fun _ => rfl
  dsimp only at hw₁ hrun'
  rw [hsame] at hw₁ hrun'
  obtain ⟨d', hd', hunpub⟩ := discards_singleton hw.writer hpc
  obtain rfl : d = d' := (List.cons.inj hd').1
  have hstale : Stale d ⟨⟨s.writer.tree, .idle none⟩, s.watcher⟩ :=
    ⟨hw₁, ⟨hunpub, by simp [WritePc.tsDir], by simp [WritePc.discards]⟩, hwatching, hquiet, hold⟩
  -- from there on every step keeps the watcher
  have hfinal := (system lib umask tree s.watcher.certPath s.watcher.keyPath).runFrom_invariant
    (I := fun u => Stale d u ∧ u.watcher = s.watcher)
    (fun {u e u'} he hu hstep => by
      obtain ⟨hu, hsame⟩ := hu
      obtain ⟨hu', hsame'⟩ := hu.step (hsame ▸ he) hstep
      exact ⟨hu', hsame'.trans hsame⟩)
    hes' ⟨hstale, rfl⟩ hrun'
  exact hfinal.2

def samplePairLater : List CertDirEvent :=
  (samplePairCall 5 6 "..2024_05_01_10_00_02.1" 12).map (.writer · [])

theorem samplePair_stays_behind : ∃ s s',
    (system samplePairLib 0o22 samplePairDir "tls.crt" "tls.key").run (samplePairEvents 11) = some s ∧
    (system samplePairLib 0o22 samplePairDir "tls.crt" "tls.key").runFrom s
      (.writer .crash [] :: samplePairLater) = some s' ∧ s'.watcher = s.watcher := by
  have hrun : ((system samplePairLib 0o22 samplePairDir "tls.crt" "tls.key").run
      (samplePairEvents 11)).map (fun s => (s.watcher.pc, s.watcher.events,
        s.writer.pc.discards)) =
      some (.watching, [], some ["..2024_05_01_10_00_00.1"]) := by decide +kernel
  have hwatches : ((system samplePairLib 0o22 samplePairDir "tls.crt" "tls.key").run
      (samplePairEvents 11)).map (fun s => (s.watcher.watches[s.watcher.certPath]?,
        s.watcher.watches[s.watcher.keyPath]?, s.watcher.certPath, s.watcher.keyPath)) =
      some (some ["..2024_05_01_10_00_00.1", "tls.crt"], some ["..2024_05_01_10_00_00.1", "tls.key"],
        "tls.crt", "tls.key") := by decide +kernel
  have hrun' : (((system samplePairLib 0o22 samplePairDir "tls.crt" "tls.key").run
      (samplePairEvents 11)).bind fun s =>
        (system samplePairLib 0o22 samplePairDir "tls.crt" "tls.key").runFrom s
          (.writer .crash [] :: samplePairLater)).isSome = true := by decide +kernel
  obtain ⟨s, hs, hstate⟩ := Option.map_eq_some_iff.mp hrun
  rw [hs, Option.bind_some] at hrun'
  rw [hs, Option.map_some] at hwatches
  simp only [Prod.mk.injEq, Option.some.injEq] at hstate hwatches
  obtain ⟨hpc, hevents, hdiscards⟩ := hstate
  obtain ⟨hcert, hkey, hcertPath, hkeyPath⟩ := hwatches
  obtain ⟨s', hs'⟩ := Option.isSome_iff_exists.mp hrun'
  refine ⟨s, s', hs, hs', ?_⟩
  obtain ⟨f, hf⟩ := managed_samplePairDir
  refine watcher_stays_behind hf samplePairDir_complete (samplePairEvents_proper 11) hs hpc hevents
    hdiscards (fun n hn => ?_) (samplePairCall_proper _ _ _ _) hs'
  obtain rfl | rfl := hn
  · rw [hcert, hcertPath]
  · rw [hkey, hkeyPath]

end runs

end CertDir

end CtrlMesh
