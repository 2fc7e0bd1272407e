import ControllerMesh.Framework.Buffer
import ControllerMesh.Framework.Compress
import ControllerMesh.Impl.Response

/-!
# Reading and writing responses

`proxy/apiserver/router/reader.go` and `serializer.go`, with the pools of
`util/pool`: how the body of a response is read into a buffer, and how what
replaces it is written to the same buffer, with or without gzip.

A function that may panic returns an `Option`. The codec of the objects and of the
events, the framer of the events and gzip are parameters.
-/

namespace CtrlMesh

open Framework

/-! ## Reading frames -/

def maxBufferBytes : Nat := 16 * 1024 * 1024

def ErrObjectTooLarge : ReadError :=
  .other "object to decode was longer than maximum allowed size"

/-- The reader of a framer: what is left of the frame that is being read, the
frames behind it, and the error behind those. -/
structure FrameReader where
  remaining : List UInt8
  frames : List (List UInt8)
  fin : ReadError
  deriving DecidableEq

/-- The error of a read of a frame. -/
inductive FrameError where
  | shortBuffer
  | other (err : ReadError)
  deriving DecidableEq

namespace FrameReader

/-- As much of `frame` as `n` bytes can hold, with the rest for the next read. -/
def readFrame (frame : List UInt8) (r : FrameReader) (n : Nat) :
    List UInt8 × Option FrameError × FrameReader :=
  if n < frame.length then (frame.take n, some .shortBuffer, { r with remaining := frame.drop n })
  else (frame, none, { r with remaining := [] })

/-- `Read` into a slice of length `n`. -/
def read (r : FrameReader) (n : Nat) : List UInt8 × Option FrameError × FrameReader :=
  match r.remaining, r.frames with
  | [], [] => ([], some (.other r.fin), r)
  | [], frame :: frames => readFrame frame { r with frames := frames } n
  | remaining, _ => readFrame remaining r n

/-- The bytes and the frames still to be read. -/
def size (r : FrameReader) : Nat := r.remaining.length + (r.frames.map (·.length + 1)).sum

/-- A read that gets a byte or comes to the end of a frame. -/
theorem size_read {r : FrameReader} {n : Nat} (h : (r.read n).2.1 = none ∨
    (r.read n).2.1 = some .shortBuffer ∧ (r.read n).1.length ≠ 0) :
    (r.read n).2.2.size < r.size := by
  obtain ⟨remaining, frames, fin⟩ := r
  cases remaining with
  | nil =>
    cases frames with
    | nil => simp [read] at h
    | cons frame frames =>
      simp only [read, readFrame] at h ⊢
      split
      · simp only [size, List.length_drop, List.length_nil, List.map_cons, List.sum_cons]
        omega
      · simp only [size, List.length_nil, List.map_cons, List.sum_cons]
        omega
  | cons b bytes =>
    simp only [read, readFrame] at h ⊢
    split
    · rename_i hlt
      rw [if_pos hlt] at h
      have hn : ((b :: bytes).take n).length ≠ 0 := by simpa using h
      rw [List.length_take] at hn
      simp only [size, List.length_drop]
      omega
    · simp only [size, List.length_nil, List.length_cons]
      omega

end FrameReader

/-- An `ioReader`. -/
structure IoReader where
  reader : FrameReader
  resetRead : Bool := false
  deriving DecidableEq

/-- What `readStreaming` returns, and the state that it leaves. -/
structure StreamRead where
  n : Nat
  err : Option ReadError
  io : IoReader
  buf : Buffer
  deriving DecidableEq

/-- The state of the loop of `readStreaming`. -/
structure Reading where
  io : IoReader
  buf : Buffer
  base : Nat
  deriving DecidableEq

namespace Reading

/-- The body of the loop: what the function returns, or the state it goes on
with. -/
def iterate (s : Reading) : Option (StreamRead ⊕ Reading) := do
  let slice ← s.buf.bytes.reslice s.base s.buf.cap
  let (data, err, reader) := s.io.reader.read slice.len
  let io := { s.io with reader := reader }
  let buf := s.buf.copy slice data
  match err with
  | some .shortBuffer =>
    if data.length = 0 then
      some (.inl ⟨s.base, some (.other ("got short buffer with n=0, base=" ++ toString s.base ++
        ", cap=" ++ toString buf.cap)), io, buf⟩)
    else if io.resetRead then some (.inr ⟨io, buf, s.base⟩)
    else do
      -- double the buffer size up to maxBytes
      let whole ← buf.bytes.reslice 0 buf.cap
      if whole.len < maxBufferBytes then
        some (.inr ⟨io, buf.grow whole.len, s.base + data.length⟩)
      -- must read the rest of the frame (until we stop getting ErrShortBuffer)
      else some (.inl ⟨0, some ErrObjectTooLarge, { io with resetRead := true }, buf⟩)
  | some (.other err) => some (.inl ⟨s.base, some err, io, buf⟩)
  | none =>
    -- now that we have drained the large read, continue
    if io.resetRead then some (.inr ⟨{ io with resetRead := false }, buf, s.base⟩)
    else some (.inl ⟨s.base + data.length, none, io, buf⟩)

/-- Whenever the loop goes on it has read something. -/
theorem size_iterate {s s' : Reading} (h : s.iterate = some (.inr s')) :
    s'.io.reader.size < s.io.reader.size := by
  simp only [iterate, Option.bind_eq_bind, Option.bind_eq_some_iff] at h
  obtain ⟨slice, -, h⟩ := h
  split at h
  · rename_i herr
    split at h
    · simp at h
    · rename_i hdata
      have hsize := FrameReader.size_read (Or.inr ⟨herr, hdata⟩)
      split at h
      · cases h
        exact hsize
      · simp only [Option.bind_eq_some_iff] at h
        obtain ⟨whole, -, h⟩ := h
        split at h
        · cases h
          exact hsize
        · simp at h
  · simp at h
  · rename_i herr
    have hsize := FrameReader.size_read (Or.inl herr)
    split at h
    · cases h
      exact hsize
    · simp at h

/-- The loop of `readStreaming`. -/
def run (s : Reading) : Option StreamRead :=
  match _h : s.iterate with
  | none => none
  | some (.inl result) => some result
  | some (.inr s') => s'.run
termination_by s.io.reader.size
decreasing_by exact size_iterate ‹_›

end Reading

/-- `readStreaming`. -/
def readStreaming (io : IoReader) (buf : Buffer) : Option StreamRead := Reading.run ⟨io, buf, 0⟩

/-! ## Pools -/

/-- `bytesPool`: the arrays that have been put back, each of which is long
enough. -/
structure BytesPool where
  pool : List (List UInt8)
  baseWidth_le : ∀ b ∈ pool, 32 * 1024 ≤ b.length

namespace BytesPool

def baseWidth : Nat := 32 * 1024

/-- `Get`. -/
def get : BytesPool → List UInt8 × BytesPool
  | ⟨b :: pool, h⟩ => (b, ⟨pool, fun b' hb' => h b' (List.mem_cons_of_mem _ hb')⟩)
  | ⟨[], h⟩ => (List.replicate baseWidth 0, ⟨[], h⟩)

/-- `Put`. -/
def put (bp : BytesPool) (b : List UInt8) : BytesPool :=
  if h : b.length < baseWidth then bp
  else if bp.pool.length < 1000 then
    ⟨bp.pool ++ [b], fun b' hb' => (List.mem_append.mp hb').elim (bp.baseWidth_le b')
      fun hmem => List.mem_singleton.mp hmem ▸ Nat.le_of_not_lt h⟩
  else bp

end BytesPool

/-- Where a `gzip.Writer` writes to. -/
inductive Dest where
  | nil
  /-- The buffer of the serializer. -/
  | buffer
  /-- The frame writer on that buffer. -/
  | frames
  /-- A buffer that the serializer does not know. -/
  | elsewhere
  deriving DecidableEq

/-- A writer that `GzipWriterPool.Get` can give: a new one, or one after `Reset`,
with nothing below it, or one that `GzipReaderPool.New` has closed. -/
structure PooledWriter {σ : Type} (c : Compressor σ) where
  writer : GzipWriter σ
  dest : Dest
  unused : writer.closed = true ∨ dest = .nil ∧ writer = GzipWriter.new c

namespace PooledWriter

variable {σ : Type} (c : Compressor σ)

/-- `New` of `GzipWriterPool`, and what `Release` puts back. -/
def fresh : PooledWriter c := ⟨GzipWriter.new c, .nil, .inr ⟨rfl, rfl⟩⟩

/-- What `New` of `GzipReaderPool` puts back. -/
def closed : PooledWriter c := ⟨((GzipWriter.new c).finish c).2, .elsewhere, .inl rfl⟩

end PooledWriter

/-! ## Serializers -/

/-- A `metav1.WatchEvent`. -/
structure RawEvent where
  eventType : String
  raw : String
  deriving DecidableEq

/-- The serializer of a stream, and its framer. -/
structure StreamCodec where
  encode : RawEvent → Except String (List UInt8)
  decode : List UInt8 → Except String RawEvent
  /-- What a write of the frame writer writes. -/
  frame : List UInt8 → List UInt8
  /-- The frames that the frame reader reads, and the error behind them. -/
  unframe : List UInt8 → List (List UInt8) × ReadError

/-- The reader that `newResponseSerializer` builds for a stream: `gunzip` gives the
data of a complete gzip stream. -/
def newFrameReader (codec : StreamCodec) (gunzip : List UInt8 → Except String (List UInt8))
    (gzip : Bool) (body : List UInt8) : IoReader :=
  match if gzip then gunzip body else .ok body with
  | .error err => ⟨⟨[], [], .other err⟩, false⟩
  | .ok data => ⟨⟨[], (codec.unframe data).1, (codec.unframe data).2⟩, false⟩

/-- A `responseSerializer`, by what it reads and writes. It has a `gzip.Reader` if
it has a `gzip.Writer`. -/
structure ResponseSerializer (σ : Type) where
  buf : Option Buffer := none
  gzipWriter : Option (GzipWriter σ × Dest) := none

namespace ResponseSerializer

variable {σ : Type} (c : Compressor σ)

/-- The serializer that `newResponseSerializer` returns, with a writer of the pool
if the content is encoded with gzip. -/
def new (gzip : Option (PooledWriter c)) : ResponseSerializer σ :=
  { gzipWriter := gzip.map fun w => (w.writer, w.dest) }

/-- A write to the writer below a `gzip.Writer`. -/
def emit (frame : List UInt8 → List UInt8) : Dest → Buffer → List UInt8 → Option Buffer
  | .nil, _, _ => none
  | .buffer, buf, p => some (buf.write p)
  | .frames, buf, p => some (buf.write (frame p))
  | .elsewhere, buf, _ => some buf

/-- `resetBuf`, with the array that `BytesPool.Get` gives. -/
def resetBuf (pooled : List UInt8) (s : ResponseSerializer σ) : Buffer :=
  (s.buf.getD (Buffer.new pooled pooled.length le_rfl)).reset

/-- `DecodeList`, where `readOnce` gives a body, with the rest of its array, or an
error. -/
def decodeList {α : Type} (decode : List UInt8 → Except String α)
    (body : Except String (List UInt8 × List UInt8)) (s : ResponseSerializer σ) :
    Except String α × ResponseSerializer σ :=
  match body with
  | .error err => (.error err, s)
  | .ok (body, spare) =>
    (decode body, { s with
      buf := some (Buffer.new (body ++ spare) body.length (by simp)).reset })

/-- `EncodeList`, where `Encode` makes the writes of `encoded` and may fail after
them. -/
def encodeList (pooled : List UInt8) (encoded : List (List UInt8) × Option String)
    (s : ResponseSerializer σ) : Option (Except String Nat × ResponseSerializer σ) := do
  let buf := s.resetBuf pooled
  match s.gzipWriter with
  | none =>
    let buf := encoded.1.foldl Buffer.write buf
    let s := { s with buf := some buf }
    match encoded.2 with
    | some err => some (.error err, s)
    | none => some (.ok buf.length, s)
  | some _ =>
    let (z, buf) ← (GzipWriter.new c).writes c (emit id .buffer) buf encoded.1
    match encoded.2 with
    | some err => some (.error err, ⟨some buf, some (z, .buffer)⟩)
    | none =>
      let (z, buf) ← z.close c (emit id .buffer) buf
      some (.ok buf.length, ⟨some buf, some (z, .buffer)⟩)

/-- What `Release` puts back into the pools. -/
structure Released (σ : Type) where
  /-- The argument of `BytesPool.Put`. -/
  bytes : Option (List UInt8)
  gzipWriter : Option (GzipWriter σ × Dest)

/-- `Release`. To close the `gzip.Reader` does not write anything, and a writer of
frames has been closed before. -/
def release (s : ResponseSerializer σ) : Option (Released σ) := do
  let bytes ← s.buf.elim (some none) fun buf =>
    (buf.bytes.reslice 0 buf.cap).map fun slice => some (buf.get slice)
  let gzipWriter ← s.gzipWriter.elim (some none) fun w =>
    -- after the Close, Reset(nil)
    (w.1.close c (emit id w.2) (s.buf.getD .empty)).map fun _ =>
      some (GzipWriter.new c, Dest.nil)
  some ⟨bytes, gzipWriter⟩

/-- `listHandler.handle` and the copy of the body, by reads into slices of these
lengths, up to where `Release` is called. -/
def handleList {α : Type} (pooled : List UInt8) (decode : List UInt8 → Except String α)
    (encode : α → List (List UInt8) × Option String)
    (body : Except String (List UInt8 × List UInt8)) (reads : List Nat)
    (s : ResponseSerializer σ) : Option (ResponseSerializer σ) :=
  match s.decodeList decode body with
  | (.error _, s) => some s
  | (.ok obj, s) => do
    let (result, s) ← s.encodeList c pooled (encode obj)
    match result with
    | .error _ => some s
    | .ok _ => some { s with buf := s.buf.map (·.reads reads) }

/-! ### Watches -/

/-- `DecodeWatch`, up to where it has the event. -/
def decodeEvent (codec : StreamCodec) (pooled : List UInt8) (io : IoReader)
    (s : ResponseSerializer σ) :
    Option (Except ReadError RawEvent × IoReader × ResponseSerializer σ) := do
  let read ← readStreaming io (s.resetBuf pooled)
  let s := { s with buf := some read.buf }
  match read.err with
  | some err => some (.error err, read.io, s)
  | none => do
    let slice ← read.buf.bytes.reslice 0 read.n
    match codec.decode (read.buf.get slice) with
    | .error err => some (.error (.other err), read.io, s)
    | .ok e => some (.ok e, read.io, s)

/-- `DecodeWatch`: the event, and its object unless it is a bookmark or an
error. -/
def decodeWatch {α : Type} (codec : StreamCodec) (decode : String → Except String α)
    (pooled : List UInt8) (io : IoReader) (s : ResponseSerializer σ) :
    Option (Except ReadError (RawEvent × Option α) × IoReader × ResponseSerializer σ) := do
  let (result, io, s) ← s.decodeEvent codec pooled io
  match result with
  | .error err => some (.error err, io, s)
  | .ok e =>
    if hasObject e.eventType then
      match decode e.raw with
      | .error err => some (.error (.other err), io, s)
      | .ok obj => some (.ok (e, some obj), io, s)
    else some (.ok (e, none), io, s)

/-- `EncodeWatch`. -/
def encodeWatch (codec : StreamCodec) (pooled : List UInt8) (e : RawEvent)
    (s : ResponseSerializer σ) : Option (Except String (List UInt8) × ResponseSerializer σ) := do
  let buf := s.resetBuf pooled
  match s.gzipWriter, codec.encode e with
  | none, .error err => some (.error err, { s with buf := some buf })
  | none, .ok text =>
    let buf := buf.write (codec.frame text)
    some (.ok buf.contents, { s with buf := some buf })
  | some _, .error err =>
    let (z, buf) ← (GzipWriter.new c).close c (emit codec.frame .frames) buf
    some (.error err, ⟨some buf, some (z, .frames)⟩)
  | some _, .ok text =>
    let (z, buf) ← (GzipWriter.new c).writes c (emit codec.frame .frames) buf [text]
    let bytes := buf.contents
    -- the deferred Close, after the bytes have been taken
    let (z, buf) ← z.close c (emit codec.frame .frames) buf
    some (.ok bytes, ⟨some buf, some (z, .frames)⟩)

/-- `watchHandler.read` on the bytes of a stream, while the request's context is not
done. `Accessor` gives the namespace of an object. -/
def readWatch {α : Type} (h : HandlerConfig) (protoSpec : InternalSpec) (codec : StreamCodec)
    (decode : String → Except String α) (accessor : α → Except String String)
    (pooled : List UInt8) (io : IoReader) (s : ResponseSerializer σ) :
    Option (Except ReadError (List UInt8) × IoReader × ResponseSerializer σ) := do
  let (result, io, s) ← s.decodeWatch codec decode pooled io
  let encode (e : RawEvent) :=
    (s.encodeWatch c codec pooled e).map fun r => (r.1.mapError .other, io, r.2)
  match result with
  | .error err => some (.error err, io, s)
  -- the object is nil if the event type is BOOKMARK or ERROR
  | .ok (e, none) => encode e
  | .ok (e, some obj) =>
    match (filterEvent h protoSpec e.eventType (accessor obj)).eventType with
    | .error err => some (.error (.other err), io, s)
    | .ok eventType => encode { e with eventType := eventType }

end ResponseSerializer

end CtrlMesh
