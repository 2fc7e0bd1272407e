import ControllerMesh.Impl.Serializer

/-!
# Releasing a serializer

`Release` hands the array of the buffer to the pool and closes the `gzip.Writer`.
The whole array can only be had of a buffer that no bytes have been read from since
it was last empty (`releases_iff`), and a writer of the pool, which has nothing
below it, can only be closed if it has been closed before
(`close_pooled_isSome_iff`). So `Release` is safe after a list has been decoded and
`Encode` has failed, but neither after a copy that was cut short nor, with a new
writer, after an error of `Decode` (`release_safe_iff`).
-/

namespace CtrlMesh

open Framework

namespace ResponseSerializer

variable {σ : Type} (c : Compressor σ)

/-! ## Writing to the buffer -/

theorem contents_foldl_write (pieces : List (List UInt8)) (buf : Buffer) :
    (pieces.foldl Buffer.write buf).contents = buf.contents ++ pieces.flatten := by
  induction pieces generalizing buf with
  | nil => simp
  | cons p pieces ih => rw [List.foldl_cons, ih, Buffer.contents_write, List.flatten_cons,
      List.append_assoc]

theorem off_foldl_write (pieces : List (List UInt8)) {buf : Buffer} (h : buf.off = 0) :
    (pieces.foldl Buffer.write buf).off = 0 := by
  induction pieces generalizing buf with
  | nil => exact h
  | cons p pieces ih => exact ih (Buffer.off_write h p)

/-- The body that `EncodeList` gives for the writes of `Encode`. -/
def encodedBody (gzip : Bool) (writes : List (List UInt8)) : List UInt8 :=
  if gzip then (GzipWriter.output c writes).flatten else writes.flatten

/-- What `EncodeList` leaves for `Release`: a buffer that nothing has been read
from, and a writer on it. -/
structure Encoded (s : ResponseSerializer σ) (buf : Buffer) : Prop where
  buf_eq : s.buf = some buf
  off : buf.off = 0
  dest : ∀ w ∈ s.gzipWriter, w.2 = .buffer

theorem emit_buffer (buf : Buffer) (p : List UInt8) : emit id .buffer buf p = some (buf.write p) := rfl

/-- An error of `Encode`. -/
theorem encodeList_error (pooled : List UInt8) (writes : List (List UInt8)) (err : String)
    (s : ResponseSerializer σ) :
    ∃ s' buf, s.encodeList c pooled (writes, some err) = some (.error err, s') ∧ Encoded s' buf := by
  cases hgzip : s.gzipWriter with
  | none =>
    refine ⟨{ s with buf := some (writes.foldl Buffer.write (s.resetBuf pooled)) }, _, ?_,
      rfl, off_foldl_write _ rfl, ?_⟩
    · simp [encodeList, hgzip]
    · simp [hgzip]
  | some w =>
    have hoff : (((GzipWriter.new c).passAll c writes).1.foldl Buffer.write (s.resetBuf pooled)).off =
        0 := off_foldl_write _ rfl
    have hencode : s.encodeList c pooled (writes, some err) = some (.error err,
        ⟨some (((GzipWriter.new c).passAll c writes).1.foldl Buffer.write (s.resetBuf pooled)),
          some (((GzipWriter.new c).passAll c writes).2, .buffer)⟩) := by
      simp only [encodeList, hgzip, GzipWriter.writes_of_total c emit_buffer]
      rfl
    exact ⟨_, _, hencode, rfl, hoff, by simp⟩

/-- The length that `EncodeList` returns is that of the body, which is in the
buffer. -/
theorem encodeList_ok (pooled : List UInt8) (writes : List (List UInt8))
    (s : ResponseSerializer σ) :
    ∃ s' buf, s.encodeList c pooled (writes, none) =
        some (.ok (encodedBody c s.gzipWriter.isSome writes).length, s') ∧
      Encoded s' buf ∧ buf.contents = encodedBody c s.gzipWriter.isSome writes := by
  cases hgzip : s.gzipWriter with
  | none =>
    have hcontents : (writes.foldl Buffer.write (s.resetBuf pooled)).contents =
        encodedBody c false writes := contents_foldl_write _ _
    have hlength := Buffer.length_contents (writes.foldl Buffer.write (s.resetBuf pooled))
    rw [hcontents] at hlength
    refine ⟨{ s with buf := some (writes.foldl Buffer.write (s.resetBuf pooled)) }, _, ?_,
      ⟨rfl, off_foldl_write _ rfl, ?_⟩, hcontents⟩
    · simp [encodeList, hgzip, hlength]
    · simp [hgzip]
  | some w =>
    have hcontents : ((GzipWriter.output c writes).foldl Buffer.write (s.resetBuf pooled)).contents =
        encodedBody c true writes := contents_foldl_write _ _
    have hlength := Buffer.length_contents
      ((GzipWriter.output c writes).foldl Buffer.write (s.resetBuf pooled))
    have hoff : ((GzipWriter.output c writes).foldl Buffer.write (s.resetBuf pooled)).off = 0 :=
      off_foldl_write _ rfl
    rw [hcontents] at hlength
    have hencode : s.encodeList c pooled (writes, none) = some (.ok (encodedBody c true writes).length,
        ⟨some ((GzipWriter.output c writes).foldl Buffer.write (s.resetBuf pooled)),
          some ((((GzipWriter.new c).passAll c writes).2.finish c).2, .buffer)⟩) := by
      rw [hlength]
      simp only [encodeList, hgzip, GzipWriter.writes_of_total c emit_buffer, GzipWriter.output,
        List.foldl_append, Option.bind_eq_bind, Option.bind_some,
        GzipWriter.close_of_total c emit_buffer]
    exact ⟨_, _, hencode, ⟨rfl, hoff, by simp⟩, hcontents⟩

/-! ## Releasing -/

/-- `Release` does not panic, and it hands the whole array of the buffer to the
pool. -/
def Releases (s : ResponseSerializer σ) : Prop :=
  ∃ r, s.release c = some r ∧ r.bytes = s.buf.map (·.array)

/-- The whole array can be had of a buffer at the offset 0, and then the writer is
closed. -/
theorem releases_iff (s : ResponseSerializer σ) :
    s.Releases c ↔ (∀ buf ∈ s.buf, buf.off = 0) ∧
      ∀ w ∈ s.gzipWriter,
        (w.1.close c (emit id w.2) (s.buf.getD .empty)).isSome = true := by
  have hget : ∀ buf : Buffer, buf.get ⟨0, buf.cap, buf.cap⟩ = buf.array := fun buf =>
    List.take_length
  obtain ⟨buf, gzipWriter⟩ := s
  cases buf with
  | none =>
    cases gzipWriter with
    | none => simp [Releases, release]
    | some w =>
      cases hclose : w.1.close c (emit id w.2) Buffer.empty <;>
        simp [Releases, release, hclose]
  | some buf =>
    by_cases hoff : buf.off = 0
    · cases gzipWriter with
      | none => simp [Releases, release, Buffer.reslice_bytes_cap, hoff, hget]
      | some w =>
        cases hclose : w.1.close c (emit id w.2) buf <;>
          simp [Releases, release, Buffer.reslice_bytes_cap, hoff, hget, hclose]
    · simp [Releases, release, Buffer.reslice_bytes_cap, hoff]

/-- A writer of the pool can be closed only if it is closed already. -/
theorem close_pooled_isSome_iff (w : PooledWriter c) (buf : Buffer) :
    (w.writer.close c (emit id w.dest) buf).isSome = true ↔ w.writer.closed = true := by
  rcases w.unused with hclosed | ⟨hdest, hnew⟩
  · rw [GzipWriter.close_of_closed c hclosed]
    exact iff_of_true rfl hclosed
  · have hclose : (GzipWriter.new c).close c (emit id .nil) buf = none :=
      GzipWriter.close_new_of_none c buf
    rw [hdest, hnew, hclose]
    exact iff_of_false Bool.false_ne_true Bool.false_ne_true

/-- Before a list is encoded, the writer is that of the pool. -/
theorem releases_pooled_iff (gzip : Option (PooledWriter c)) {buf : Option Buffer}
    (hoff : ∀ b ∈ buf, b.off = 0) :
    Releases c { new c gzip with buf := buf } ↔ ∀ w ∈ gzip, w.writer.closed = true := by
  rw [releases_iff, and_iff_right hoff]
  cases gzip with
  | none => simp [new]
  | some w => simpa [new] using close_pooled_isSome_iff c w _

theorem Encoded.close_isSome {s : ResponseSerializer σ} {buf : Buffer} (h : Encoded s buf)
    (b : Buffer) : ∀ w ∈ s.gzipWriter, (w.1.close c (emit id w.2) b).isSome = true := by
  intro w hw
  rw [h.dest w hw, GzipWriter.close_of_total c emit_buffer]
  rfl

theorem Encoded.releases {s : ResponseSerializer σ} {buf : Buffer} (h : Encoded s buf) :
    s.Releases c := by
  rw [releases_iff, h.buf_eq]
  refine ⟨fun b hb => ?_, h.close_isSome c _⟩
  rw [← Option.mem_some_iff.mp hb]
  exact h.off

/-- After reads of the body, it depends on where they stop. -/
theorem Encoded.releases_reads_iff {s : ResponseSerializer σ} {buf : Buffer} (h : Encoded s buf)
    (reads : List Nat) :
    Releases c { s with buf := s.buf.map (·.reads reads) } ↔
      reads.sum = 0 ∨ buf.contents.length ≤ reads.dropLast.sum := by
  have hoff := Buffer.off_reads_eq_zero_iff h.off reads
  rw [← Buffer.length_contents] at hoff
  rw [releases_iff, and_iff_left (h.close_isSome c _), h.buf_eq, ← hoff]
  simp

/-- Where handling stops, `Release` is safe: after an error of `Decode` if the
writer taken from the pool is a closed one, always after an error of `Encode`, and
else if no byte of the body has been read or a read has come to its end. -/
def SafeToRelease {α : Type} (gzip : Option (PooledWriter c))
    (decode : List UInt8 → Except String α) (encode : α → List (List UInt8) × Option String)
    (body : Except String (List UInt8 × List UInt8)) (reads : List Nat) : Prop :=
  match body.bind fun b => decode b.1 with
  | .error _ => ∀ w ∈ gzip, w.writer.closed = true
  | .ok obj => (encode obj).2 = none →
    reads.sum = 0 ∨ (encodedBody c gzip.isSome (encode obj).1).length ≤ reads.dropLast.sum

section

variable {α : Type} (gzip : Option (PooledWriter c)) (pooled : List UInt8)
  (decode : List UInt8 → Except String α) (encode : α → List (List UInt8) × Option String)
  (reads : List Nat)

/-- `Release` after a body that cannot be read or decoded. -/
theorem handleList_of_decode_error {body : Except String (List UInt8 × List UInt8)} {err : String}
    (h : (body.bind fun b => decode b.1) = .error err) :
    ∃ s, (new c gzip).handleList c pooled decode encode body reads = some s ∧
      (s.Releases c ↔ ∀ w ∈ gzip, w.writer.closed = true) := by
  rcases body with err' | ⟨bytes, spare⟩
  · exact ⟨new c gzip, rfl, releases_pooled_iff c gzip (by simp)⟩
  · have hdecode : decode bytes = .error err := h
    refine ⟨{ new c gzip with
      buf := some (Buffer.new (bytes ++ spare) bytes.length (by simp)).reset }, ?_,
      releases_pooled_iff c gzip (by simp [Buffer.reset])⟩
    simp [handleList, decodeList, hdecode]

/-- `Release` after a list that has been decoded. -/
theorem handleList_of_decode_ok {body : Except String (List UInt8 × List UInt8)} {obj : α}
    (h : (body.bind fun b => decode b.1) = .ok obj) :
    ∃ s, (new c gzip).handleList c pooled decode encode body reads = some s ∧
      (s.Releases c ↔ ((encode obj).2 = none → reads.sum = 0 ∨
        (encodedBody c gzip.isSome (encode obj).1).length ≤ reads.dropLast.sum)) := by
  rcases body with err | ⟨bytes, spare⟩
  · cases h
  · have hdecode : decode bytes = .ok obj := h
    have hisSome : (new c gzip).gzipWriter.isSome = gzip.isSome := Option.isSome_map
    rcases hencode : encode obj with ⟨writes, err⟩
    cases err with
    | some err =>
      obtain ⟨s, buf, hlist, hs⟩ := encodeList_error c pooled writes err { new c gzip with
        buf := some (Buffer.new (bytes ++ spare) bytes.length (by simp)).reset }
      refine ⟨s, ?_, iff_of_true (hs.releases c) (by simp)⟩
      simp [handleList, decodeList, hdecode, hencode, hlist]
    | none =>
      obtain ⟨s, buf, hlist, hs, hcontents⟩ := encodeList_ok c pooled writes { new c gzip with
        buf := some (Buffer.new (bytes ++ spare) bytes.length (by simp)).reset }
      refine ⟨{ s with buf := s.buf.map (·.reads reads) }, ?_, ?_⟩
      · simp [handleList, decodeList, hdecode, hencode, hlist]
      · rw [hs.releases_reads_iff c, hcontents, hisSome]
        simp

/-- `Release` is safe exactly where `SafeToRelease` says so. -/
theorem release_safe_iff (body : Except String (List UInt8 × List UInt8)) :
    (∃ s, (new c gzip).handleList c pooled decode encode body reads = some s ∧ s.Releases c) ↔
      SafeToRelease c gzip decode encode body reads := by
  cases hdecoded : body.bind fun b => decode b.1 with
  | error err =>
    obtain ⟨s, hs, hiff⟩ := handleList_of_decode_error c gzip pooled decode encode reads hdecoded
    simp only [hs, SafeToRelease, hdecoded, Option.some.injEq, exists_eq_left', hiff]
  | ok obj =>
    obtain ⟨s, hs, hiff⟩ := handleList_of_decode_ok c gzip pooled decode encode reads hdecoded
    simp only [hs, SafeToRelease, hdecoded, Option.some.injEq, exists_eq_left', hiff]

end

/-- A compressor that keeps all data to the end. -/
def sampleCompressor : Compressor (List UInt8) where
  header := [0x1f, 0x8b, 8]
  start := []
  write state data := ([], state ++ data)
  close state := [[UInt8.ofNat state.length], state]

/-- A body of three bytes of which two have been copied, and one that does not
decode, with a new `gzip.Writer`. -/
theorem not_releases_sampleCompressor :
    ((new sampleCompressor none).handleList sampleCompressor [] Except.ok (fun b => ([b], none))
      (.ok ([1, 2, 3], [])) [2]).map (fun s => (s.release sampleCompressor).isSome) = some false ∧
    ((new sampleCompressor (some (.fresh _))).handleList sampleCompressor []
      (fun _ => Except.error "invalid") (fun b : List UInt8 => ([b], none))
      (.ok ([1, 2, 3], [])) []).map (fun s => (s.release sampleCompressor).isSome) = some false := by
  decide +kernel

end ResponseSerializer

end CtrlMesh
