import ControllerMesh.Impl.Serializer

/-!
# Reading frames into a buffer

`readStreaming` reads into the spare capacity of an empty buffer and relies on
`Grow` for more of it. `Grow` of an empty buffer by its own capacity finds room
enough and does nothing, so a frame is read whole exactly if it fits the buffer as
it is (`readStreaming_whole_iff`); a longer one fails (`readStreaming_of_lt`), and
the next call, if there is one, drops the rest of a frame that was too large
(`readStreaming_drain`). With a buffer of the pool, frames of up to 32 KiB are read
whole (`readStreaming_pooled`).
-/

namespace CtrlMesh

open Framework

namespace Reading

theorem run_of_done {s : Reading} {read : StreamRead} (h : s.iterate = some (.inl read)) :
    s.run = some read := by
  rw [run]
  split
  · simp_all
  · simp_all
  · simp_all

theorem run_of_again {s s' : Reading} (h : s.iterate = some (.inr s')) : s.run = s'.run := by
  rw [run]
  split
  · simp_all
  · simp_all
  · simp_all

/-- What is left of the buffer behind `base`. -/
theorem reslice_bytes_base {buf : Buffer} {base : Nat} (hoff : buf.off = 0) (h : base ≤ buf.cap) :
    buf.bytes.reslice base buf.cap = some ⟨base, buf.cap - base, buf.cap - base⟩ := by
  have hbytes : buf.bytes = ⟨0, buf.length, buf.cap⟩ := by rw [Buffer.bytes, hoff, Nat.sub_zero]
  rw [hbytes, Slice.reslice, if_pos ⟨h, le_rfl⟩, Nat.zero_add]

section

variable (io : IoReader) {buf : Buffer} {base : Nat} {data : List UInt8} {reader : FrameReader}

/-- The end of a frame: it is returned, or dropped if it was too large. -/
theorem iterate_of_none (hoff : buf.off = 0) (hbase : base ≤ buf.cap)
    (hread : io.reader.read (buf.cap - base) = (data, none, reader)) :
    (⟨io, buf, base⟩ : Reading).iterate =
      if io.resetRead then
        some (.inr ⟨⟨reader, false⟩, buf.copy ⟨base, buf.cap - base, buf.cap - base⟩ data, base⟩)
      else some (.inl ⟨base + data.length, none, ⟨reader, io.resetRead⟩,
        buf.copy ⟨base, buf.cap - base, buf.cap - base⟩ data⟩) := by
  simp [iterate, reslice_bytes_base hoff hbase, hread]

/-- A part of a frame, but no byte of it. -/
theorem iterate_of_nil (hoff : buf.off = 0) (hbase : base ≤ buf.cap)
    (hread : io.reader.read (buf.cap - base) = ([], some .shortBuffer, reader)) :
    (⟨io, buf, base⟩ : Reading).iterate =
      some (.inl ⟨base, some (.other ("got short buffer with n=0, base=" ++ toString base ++
        ", cap=" ++ toString buf.cap)), ⟨reader, io.resetRead⟩,
        buf.copy ⟨base, buf.cap - base, buf.cap - base⟩ []⟩) := by
  simp [iterate, reslice_bytes_base hoff hbase, hread]

/-- An error behind the frames. -/
theorem iterate_of_other {err : ReadError} (hoff : buf.off = 0) (hbase : base ≤ buf.cap)
    (hread : io.reader.read (buf.cap - base) = (data, some (.other err), reader)) :
    (⟨io, buf, base⟩ : Reading).iterate =
      some (.inl ⟨base, some err, ⟨reader, io.resetRead⟩,
        buf.copy ⟨base, buf.cap - base, buf.cap - base⟩ data⟩) := by
  simp [iterate, reslice_bytes_base hoff hbase, hread]

/-- A part of a frame: `Grow` does nothing, for an empty buffer. -/
theorem iterate_of_short (hoff : buf.off = 0) (hlen : buf.len = 0) (hbase : base ≤ buf.cap)
    (hread : io.reader.read (buf.cap - base) = (data, some .shortBuffer, reader))
    (hdata : data ≠ []) :
    (⟨io, buf, base⟩ : Reading).iterate =
      if io.resetRead then
        some (.inr ⟨⟨reader, true⟩, buf.copy ⟨base, buf.cap - base, buf.cap - base⟩ data, base⟩)
      else if buf.cap < maxBufferBytes then
        some (.inr ⟨⟨reader, false⟩, buf.copy ⟨base, buf.cap - base, buf.cap - base⟩ data,
          base + data.length⟩)
      else some (.inl ⟨0, some ErrObjectTooLarge, ⟨reader, true⟩,
        buf.copy ⟨base, buf.cap - base, buf.cap - base⟩ data⟩) := by
  have hwhole : (buf.copy ⟨base, buf.cap - base, buf.cap - base⟩ data).bytes.reslice 0 buf.cap =
      some ⟨0, buf.cap, buf.cap⟩ := by
    have h := reslice_bytes_base
      ((buf.off_copy ⟨base, buf.cap - base, buf.cap - base⟩ data).trans hoff) (Nat.zero_le _)
    rwa [Buffer.cap_copy] at h
  have hgrow : (buf.copy ⟨base, buf.cap - base, buf.cap - base⟩ data).grow buf.cap =
      buf.copy ⟨base, buf.cap - base, buf.cap - base⟩ data :=
    Buffer.grow_of_le hoff (by rw [Buffer.cap_copy, Buffer.len_copy, hlen, Nat.sub_zero])
  cases hreset : io.resetRead <;>
    simp [iterate, reslice_bytes_base hoff hbase, hread, hdata, hreset, hwhole, hgrow]

/-- Without room behind `base` the loop ends with an error. -/
theorem run_of_full (hoff : buf.off = 0)
    (hread : io.reader.read 0 = ([], some .shortBuffer, reader)) :
    ∃ buf', (⟨io, buf, buf.cap⟩ : Reading).run =
      some ⟨buf.cap, some (.other ("got short buffer with n=0, base=" ++ toString buf.cap ++
        ", cap=" ++ toString buf.cap)), ⟨reader, io.resetRead⟩, buf'⟩ := by
  rw [← Nat.sub_self buf.cap] at hread
  exact ⟨_, run_of_done (iterate_of_nil io hoff le_rfl hread)⟩

end

end Reading

section

variable {buf : Buffer} {frame : List UInt8} (frames : List (List UInt8)) (fin : ReadError)

/-- A frame that fits the buffer is read in one go. -/
theorem readStreaming_of_le (h : frame.length ≤ buf.cap) :
    readStreaming ⟨⟨[], frame :: frames, fin⟩, false⟩ buf.reset =
      some ⟨frame.length, none, ⟨⟨[], frames, fin⟩, false⟩,
        buf.reset.copy ⟨0, buf.cap, buf.cap⟩ frame⟩ := by
  have hread : (⟨[], frame :: frames, fin⟩ : FrameReader).read (buf.reset.cap - 0) =
      (frame, none, ⟨[], frames, fin⟩) := if_neg (Nat.not_lt.mpr h)
  have hiterate := Reading.iterate_of_none ⟨⟨[], frame :: frames, fin⟩, false⟩ rfl (Nat.zero_le _)
    hread
  rw [readStreaming, Reading.run_of_done hiterate, Nat.zero_add]
  rfl

/-- What has been read is in the spare capacity of the buffer. -/
theorem get_copy_reset (h : frame.length ≤ buf.cap) :
    ((buf.reset.copy ⟨0, buf.cap, buf.cap⟩ frame).bytes.reslice 0 frame.length).map
      (buf.reset.copy ⟨0, buf.cap, buf.cap⟩ frame).get = some frame := by
  have hcap : frame.length ≤ (buf.reset.copy ⟨0, buf.cap, buf.cap⟩ frame).bytes.cap := by
    show frame.length ≤ (buf.reset.copy ⟨0, buf.cap, buf.cap⟩ frame).cap - 0
    rw [Buffer.cap_copy]
    exact h
  rw [Slice.reslice, if_pos ⟨Nat.zero_le _, hcap⟩, Option.map_some]
  show some ((overlay buf.array 0 (frame.take buf.cap)).take frame.length) = some frame
  have hfits : 0 + frame.length ≤ buf.array.length := by rw [Nat.zero_add]; exact h
  have htake := take_overlay hfits
  rw [Nat.zero_add, List.take_zero, List.nil_append] at htake
  rw [List.take_of_length_le h, htake]

theorem read_frame_of_lt {n : Nat} (h : n < frame.length) :
    (⟨[], frame :: frames, fin⟩ : FrameReader).read n =
      (frame.take n, some .shortBuffer, ⟨frame.drop n, frames, fin⟩) := if_pos h

theorem read_remaining_of_lt {n : Nat} (h : n < frame.length) :
    (⟨frame, frames, fin⟩ : FrameReader).read n =
      (frame.take n, some .shortBuffer, ⟨frame.drop n, frames, fin⟩) := by
  cases frame with
  | nil => simp at h
  | cons b frame => exact if_pos h

/-- The first read of a frame that does not fit, with a part of it. -/
theorem iterate_of_lt (h : buf.cap < frame.length) (hcap : buf.cap ≠ 0) :
    (⟨⟨⟨[], frame :: frames, fin⟩, false⟩, buf.reset, 0⟩ : Reading).iterate =
      if buf.cap < maxBufferBytes then
        some (.inr ⟨⟨⟨frame.drop buf.cap, frames, fin⟩, false⟩,
          buf.reset.copy ⟨0, buf.cap, buf.cap⟩ (frame.take buf.cap), buf.cap⟩)
      else some (.inl ⟨0, some ErrObjectTooLarge, ⟨⟨frame.drop buf.cap, frames, fin⟩, true⟩,
        buf.reset.copy ⟨0, buf.cap, buf.cap⟩ (frame.take buf.cap)⟩) := by
  have hlen : (frame.take buf.cap).length = buf.cap := by
    rw [List.length_take, Nat.min_eq_left h.le]
  have hdata : frame.take buf.cap ≠ [] :=
    List.ne_nil_of_length_pos (by rw [hlen]; exact Nat.pos_of_ne_zero hcap)
  have hiterate := Reading.iterate_of_short ⟨⟨[], frame :: frames, fin⟩, false⟩ rfl rfl
    (Nat.zero_le buf.reset.cap) (read_frame_of_lt frames fin h) hdata
  simp only [Nat.sub_zero, Nat.zero_add, Buffer.cap_reset, hlen, Bool.false_eq_true,
    if_false] at hiterate
  exact hiterate

/-- A frame that does not fit is not read: the buffer does not grow, and there is
no room for a second read. -/
theorem readStreaming_of_lt (h : buf.cap < frame.length) (hmax : buf.cap < maxBufferBytes) :
    ∃ buf', readStreaming ⟨⟨[], frame :: frames, fin⟩, false⟩ buf.reset =
      some ⟨buf.cap, some (.other ("got short buffer with n=0, base=" ++ toString buf.cap ++
        ", cap=" ++ toString buf.cap)), ⟨⟨frame.drop buf.cap, frames, fin⟩, false⟩, buf'⟩ := by
  by_cases hcap : buf.cap = 0
  · -- There is no room for the first read either.
    have hread : (⟨[], frame :: frames, fin⟩ : FrameReader).read 0 =
        ([], some .shortBuffer, ⟨frame.drop buf.cap, frames, fin⟩) := by
      rw [hcap]
      exact read_frame_of_lt frames fin (hcap ▸ h)
    have hoff : buf.reset.off = 0 := rfl
    have hbase : (⟨⟨⟨[], frame :: frames, fin⟩, false⟩, buf.reset, 0⟩ : Reading) =
        ⟨⟨⟨[], frame :: frames, fin⟩, false⟩, buf.reset, buf.reset.cap⟩ :=
      congrArg _ hcap.symm
    rw [readStreaming, hbase]
    exact Reading.run_of_full _ hoff hread
  · have hiterate := iterate_of_lt frames fin h hcap
    rw [if_pos hmax] at hiterate
    rw [readStreaming, Reading.run_of_again hiterate]
    -- The second read is into an empty slice.
    have hrest : 0 < (frame.drop buf.cap).length := by rw [List.length_drop]; omega
    have hfull := Reading.run_of_full ⟨⟨frame.drop buf.cap, frames, fin⟩, false⟩
      (buf.reset.off_copy ⟨0, buf.cap, buf.cap⟩ (frame.take buf.cap)) (read_remaining_of_lt frames fin hrest)
    rw [Buffer.cap_copy] at hfull
    exact hfull

/-- A frame that does not fit the largest buffer. -/
theorem readStreaming_of_tooLarge (h : buf.cap < frame.length) (hmax : ¬ buf.cap < maxBufferBytes) :
    ∃ buf', readStreaming ⟨⟨[], frame :: frames, fin⟩, false⟩ buf.reset =
      some ⟨0, some ErrObjectTooLarge, ⟨⟨frame.drop buf.cap, frames, fin⟩, true⟩, buf'⟩ := by
  have hcap : buf.cap ≠ 0 := fun h0 => hmax (h0 ▸ by decide)
  have hiterate := iterate_of_lt frames fin h hcap
  rw [if_neg hmax] at hiterate
  exact ⟨_, Reading.run_of_done hiterate⟩

end

/-- A frame is read whole exactly if it fits the buffer as it is. -/
theorem readStreaming_whole_iff (buf : Buffer) (frame : List UInt8) (frames : List (List UInt8))
    (fin : ReadError) :
    (∃ read, readStreaming ⟨⟨[], frame :: frames, fin⟩, false⟩ buf.reset = some read ∧
      read.n = frame.length ∧ read.err = none ∧
      (read.buf.bytes.reslice 0 read.n).map read.buf.get = some frame) ↔
      frame.length ≤ buf.cap := by
  constructor
  · rintro ⟨read, hread, -, herr, -⟩
    by_contra hlt
    by_cases hmax : buf.cap < maxBufferBytes
    · obtain ⟨buf', h⟩ := readStreaming_of_lt frames fin (Nat.lt_of_not_le hlt) hmax
      rw [hread, Option.some.injEq] at h
      rw [h] at herr
      simp at herr
    · obtain ⟨buf', h⟩ := readStreaming_of_tooLarge frames fin
        (Nat.lt_of_not_le hlt) hmax
      rw [hread, Option.some.injEq] at h
      rw [h] at herr
      simp at herr
  · intro h
    exact ⟨_, readStreaming_of_le frames fin h, rfl, rfl, get_copy_reset h⟩

/-- A frame of two bytes, and a buffer with room for one. -/
theorem readStreaming_twoBytes :
    (readStreaming ⟨⟨[], [[1, 2]], .eof⟩, false⟩ (Buffer.new [0] 1 le_rfl).reset).map
      (fun read => (read.n, read.err)) =
        some (1, some (.other "got short buffer with n=0, base=1, cap=1")) := by
  decide +kernel

/-- An array of the pool has room for 32 KiB. -/
theorem BytesPool.baseWidth_le_get (bp : BytesPool) : baseWidth ≤ bp.get.1.length := by
  obtain ⟨pool, hpool⟩ := bp
  cases pool with
  | nil => exact (List.length_replicate ..).ge
  | cons b pool => exact hpool b List.mem_cons_self

/-- Frames of up to 32 KiB are read whole into a buffer of the pool. -/
theorem readStreaming_pooled (bp : BytesPool) {frame : List UInt8}
    (h : frame.length ≤ BytesPool.baseWidth) (frames : List (List UInt8)) (fin : ReadError) :
    ∃ buf, readStreaming ⟨⟨[], frame :: frames, fin⟩, false⟩
        (Buffer.new bp.get.1 bp.get.1.length le_rfl).reset =
      some ⟨frame.length, none, ⟨⟨[], frames, fin⟩, false⟩, buf⟩ :=
  ⟨_, readStreaming_of_le frames fin (h.trans bp.baseWidth_le_get)⟩

/-- The call after a frame that was too large drops the rest of it and reads the
next one. -/
theorem readStreaming_drain (frames : List (List UInt8)) (fin : ReadError) {rest : List UInt8}
    (hrest : rest ≠ []) {buf : Buffer} (hcap : buf.cap ≠ 0) :
    ∃ buf' : Buffer, buf'.cap = buf.cap ∧
      readStreaming ⟨⟨rest, frames, fin⟩, true⟩ buf.reset =
        readStreaming ⟨⟨[], frames, fin⟩, false⟩ buf'.reset := by
  -- By the bytes that are left: each read but the last fills the buffer.
  induction hn : rest.length using Nat.strong_induction_on generalizing rest buf with
  | _ n ih =>
    by_cases hfits : rest.length ≤ buf.cap
    · have hread : (⟨rest, frames, fin⟩ : FrameReader).read (buf.reset.cap - 0) =
          (rest, none, ⟨[], frames, fin⟩) := by
        cases rest with
        | nil => exact absurd rfl hrest
        | cons b rest => exact if_neg (Nat.not_lt.mpr hfits)
      have hiterate := Reading.iterate_of_none ⟨⟨rest, frames, fin⟩, true⟩ rfl (Nat.zero_le _) hread
      rw [if_pos rfl] at hiterate
      refine ⟨buf.reset.copy ⟨0, buf.cap, buf.cap⟩ rest, Buffer.cap_copy _ _ _, ?_⟩
      rw [readStreaming, Reading.run_of_again hiterate]
      rfl
    · have hlt := Nat.lt_of_not_le hfits
      have hlen : (rest.take buf.cap).length = buf.cap := by
        rw [List.length_take, Nat.min_eq_left hlt.le]
      have hdata : rest.take buf.cap ≠ [] :=
        List.ne_nil_of_length_pos (by rw [hlen]; exact Nat.pos_of_ne_zero hcap)
      have hiterate := Reading.iterate_of_short ⟨⟨rest, frames, fin⟩, true⟩ rfl rfl
        (Nat.zero_le buf.reset.cap) (read_remaining_of_lt frames fin hlt) hdata
      rw [if_pos rfl] at hiterate
      have hdrop : (rest.drop buf.cap).length < n := by
        rw [List.length_drop]
        omega
      have hleft : rest.drop buf.cap ≠ [] :=
        List.ne_nil_of_length_pos (by rw [List.length_drop]; omega)
      obtain ⟨buf', hcap', hrun⟩ := ih _ hdrop hleft
        ((Buffer.cap_copy buf.reset ⟨0, buf.cap, buf.cap⟩ (rest.take buf.cap)).trans_ne hcap) rfl
      refine ⟨buf', hcap'.trans (Buffer.cap_copy _ _ _), ?_⟩
      rw [readStreaming, Reading.run_of_again hiterate]
      exact hrun

end CtrlMesh
