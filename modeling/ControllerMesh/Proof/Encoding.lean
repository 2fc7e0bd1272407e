import ControllerMesh.Framework.Wire
import ControllerMesh.Proof.Frames
import ControllerMesh.Proof.Release

/-!
# Watch events, written and read again

Without gzip, what `EncodeWatch` returns for an event is one frame, which the reader
of a stream gives back if it fits its buffer. With gzip it returns what the
`gzip.Writer` has passed on before it is closed, in frames of its own, and that is
no gzip stream: `decodeEvent_encodeWatch_iff`.

A watch that is not compressed and whose frames fit the buffer is, on its bytes, the
`WatchReader` on its events (`readWatch_refines`), of which `WatchStream` shows what
the client gets.
-/

namespace CtrlMesh

open Framework Framework.Wire

/-- The codec and the framer round-trip for an event: written as a frame, with more
behind it, it is read as `payload e`, and that is decoded as the event. JSON does so
for events whose objects are JSON texts only. -/
structure StreamCodec.RoundTrips (codec : StreamCodec) (text payload : RawEvent → List UInt8)
    (e : RawEvent) : Prop where
  encode : codec.encode e = .ok (text e)
  unframe_nil : codec.unframe [] = ([], .eof)
  unframe_frame : ∀ rest, codec.unframe (codec.frame (text e) ++ rest) =
    (payload e :: (codec.unframe rest).1, (codec.unframe rest).2)
  decode : codec.decode (payload e) = .ok e

namespace ResponseSerializer

variable {σ : Type} {c : Compressor σ} {codec : StreamCodec} {text payload : RawEvent → List UInt8}
  {gunzip : List UInt8 → Except String (List UInt8)}

/-! ## Reading -/

/-- The next event of a stream, if its frame fits the buffer. -/
theorem decodeEvent_of_le {e : RawEvent} (hcodec : codec.RoundTrips text payload e)
    {pooled : List UInt8} {s : ResponseSerializer σ} (h : (payload e).length ≤ (s.resetBuf pooled).cap)
    (frames : List (List UInt8)) (fin : ReadError) :
    ∃ buf : Buffer, buf.cap = (s.resetBuf pooled).cap ∧
      s.decodeEvent codec pooled ⟨⟨[], payload e :: frames, fin⟩, false⟩ =
        some (.ok e, ⟨⟨[], frames, fin⟩, false⟩, { s with buf := some buf }) := by
  have hread := readStreaming_of_le frames fin h
  obtain ⟨slice, hslice, hget⟩ := Option.map_eq_some_iff.mp (get_copy_reset h)
  have hreset : (s.resetBuf pooled).reset = s.resetBuf pooled := rfl
  rw [hreset] at hread hslice hget
  refine ⟨(s.resetBuf pooled).copy ⟨0, (s.resetBuf pooled).cap, (s.resetBuf pooled).cap⟩ (payload e),
    Buffer.cap_copy _ _ _, ?_⟩
  rw [decodeEvent, hread]
  simp only [Option.bind_eq_bind, Option.bind_some, hslice, hget, hcodec.decode]

theorem decodeEvent_of_error {pooled : List UInt8} {s : ResponseSerializer σ} {io io' : IoReader}
    {n : Nat} {err : ReadError} {buf : Buffer}
    (h : readStreaming io (s.resetBuf pooled) = some ⟨n, some err, io', buf⟩) :
    s.decodeEvent codec pooled io = some (.error err, io', { s with buf := some buf }) := by
  rw [decodeEvent, h]
  rfl

/-- An event whose frame does not fit is not read. -/
theorem decodeEvent_of_lt (codec : StreamCodec) {pooled frame : List UInt8} {s : ResponseSerializer σ}
    (h : (s.resetBuf pooled).cap < frame.length) (frames : List (List UInt8)) (fin : ReadError) :
    ∃ err io s', s.decodeEvent codec pooled ⟨⟨[], frame :: frames, fin⟩, false⟩ =
      some (.error err, io, s') := by
  by_cases hmax : (s.resetBuf pooled).cap < maxBufferBytes
  · obtain ⟨buf, hread⟩ := readStreaming_of_lt frames fin h hmax
    exact ⟨_, _, _, decodeEvent_of_error hread⟩
  · obtain ⟨buf, hread⟩ := readStreaming_of_tooLarge frames fin h hmax
    exact ⟨_, _, _, decodeEvent_of_error hread⟩

/-- The end of a stream, or what cuts it off. -/
theorem decodeEvent_nil (codec : StreamCodec) (pooled : List UInt8) (s : ResponseSerializer σ)
    (fin : ReadError) :
    ∃ buf : Buffer, buf.cap = (s.resetBuf pooled).cap ∧
      s.decodeEvent codec pooled ⟨⟨[], [], fin⟩, false⟩ =
        some (.error fin, ⟨⟨[], [], fin⟩, false⟩, { s with buf := some buf }) := by
  have hread := Reading.run_of_done
    (Reading.iterate_of_other ⟨⟨[], [], fin⟩, false⟩ rfl (Nat.zero_le (s.resetBuf pooled).cap) rfl)
  exact ⟨_, Buffer.cap_copy _ _ _, decodeEvent_of_error hread⟩

/-! ## Writing -/

theorem encodeWatch_plain (c : Compressor σ) {e : RawEvent}
    (hcodec : codec.RoundTrips text payload e) (pooled : List UInt8) {s : ResponseSerializer σ}
    (hgzip : s.gzipWriter = none) :
    s.encodeWatch c codec pooled e = some (.ok (codec.frame (text e)),
      { s with buf := some ((s.resetBuf pooled).write (codec.frame (text e))) }) := by
  have hcontents : ((s.resetBuf pooled).write (codec.frame (text e))).contents =
      codec.frame (text e) := Buffer.contents_write _ _
  simp only [encodeWatch, hgzip, hcodec.encode, hcontents]

/-- With gzip, the bytes are those that have been passed on before the close. -/
theorem encodeWatch_gzip (c : Compressor σ) {e : RawEvent}
    (hcodec : codec.RoundTrips text payload e) (pooled : List UInt8) {s : ResponseSerializer σ}
    (hgzip : s.gzipWriter ≠ none) :
    ∃ s', s.encodeWatch c codec pooled e =
      some (.ok (((GzipWriter.new c).passAll c [text e]).1.flatMap codec.frame), s') := by
  have hemit : ∀ (b : Buffer) (p : List UInt8),
      emit codec.frame .frames b p = some (b.write (codec.frame p)) := fun _ _ => rfl
  obtain ⟨w, hw⟩ := Option.ne_none_iff_exists'.mp hgzip
  have hcontents : (((GzipWriter.new c).passAll c [text e]).1.foldl
      (fun b p => b.write (codec.frame p)) (s.resetBuf pooled)).contents =
        ((GzipWriter.new c).passAll c [text e]).1.flatMap codec.frame := by
    rw [← List.foldl_map, contents_foldl_write, List.flatMap_def]
    rfl
  simp only [encodeWatch, hw, hcodec.encode, GzipWriter.writes_of_total c hemit,
    GzipWriter.close_of_total c hemit, Option.bind_eq_bind, Option.bind_some, hcontents,
    Option.some.injEq, Prod.mk.injEq, true_and, exists_eq']

/-! ## Writing and reading -/

/-- The frames of a stream of events. -/
theorem newFrameReader_plain (gunzip : List UInt8 → Except String (List UInt8))
    (hnil : codec.unframe [] = ([], .eof)) {events : List RawEvent}
    (hcodec : ∀ e ∈ events, codec.RoundTrips text payload e) :
    newFrameReader codec gunzip false (events.flatMap fun e => codec.frame (text e)) =
      ⟨⟨[], events.map payload, .eof⟩, false⟩ := by
  have hunframe : codec.unframe (events.flatMap fun e => codec.frame (text e)) =
      (events.map payload, .eof) := by
    induction events with
    | nil => exact hnil
    | cons e events ih =>
      obtain ⟨he, hevents⟩ := List.forall_mem_cons.mp hcodec
      rw [List.flatMap_cons, he.unframe_frame, ih hevents, List.map_cons]
  simp [newFrameReader, hunframe]

/-- What `EncodeWatch` returns for an event is read as that event exactly if it is
not compressed and its frame fits the buffer of the reader. Of a `gzip.Writer` it is
assumed that what it has written before it is closed, in frames or not, is not yet
a gzip stream. -/
theorem decodeEvent_encodeWatch_iff {e : RawEvent} (hcodec : codec.RoundTrips text payload e)
    (hopen : ∀ data, ∃ err,
      gunzip (((GzipWriter.new c).passAll c [data]).1.flatMap codec.frame) = .error err)
    (s reader : ResponseSerializer σ) (pooled pooled' : List UInt8) :
    (∃ bytes s', s.encodeWatch c codec pooled e = some (.ok bytes, s') ∧
      ∃ io reader', reader.decodeEvent codec pooled'
        (newFrameReader codec gunzip s.gzipWriter.isSome bytes) = some (.ok e, io, reader')) ↔
      s.gzipWriter = none ∧ (payload e).length ≤ (reader.resetBuf pooled').cap := by
  by_cases hgzip : s.gzipWriter = none
  · have hencode := encodeWatch_plain c hcodec pooled hgzip
    have hreader := newFrameReader_plain gunzip hcodec.unframe_nil
      (List.forall_mem_singleton.mpr hcodec)
    rw [List.flatMap_singleton, List.map_singleton] at hreader
    rw [and_iff_right hgzip, hgzip]
    constructor
    · rintro ⟨bytes, s', hbytes, io, reader', hdecode⟩
      rw [hencode] at hbytes
      obtain ⟨rfl, -⟩ := hbytes
      rw [Option.isSome_none, hreader] at hdecode
      by_contra hlt
      obtain ⟨err, io', s', herr⟩ := decodeEvent_of_lt codec (Nat.lt_of_not_le hlt) [] .eof
      rw [herr] at hdecode
      simp at hdecode
    · intro hle
      obtain ⟨buf, -, hdecode⟩ := decodeEvent_of_le hcodec hle [] .eof
      rw [Option.isSome_none]
      exact ⟨_, _, hencode, _, _, hreader ▸ hdecode⟩
  · refine iff_of_false ?_ fun h => hgzip h.1
    rintro ⟨bytes, s', hbytes, io, reader', hdecode⟩
    obtain ⟨s₁, hencode⟩ := encodeWatch_gzip c hcodec pooled hgzip
    obtain ⟨err, hgunzip⟩ := hopen (text e)
    rw [hencode] at hbytes
    obtain ⟨rfl, -⟩ := hbytes
    -- The reader has no data, only the error of the stream that is cut off.
    have hreader : newFrameReader codec gunzip s.gzipWriter.isSome
        (((GzipWriter.new c).passAll c [text e]).1.flatMap codec.frame) =
          ⟨⟨[], [], .other err⟩, false⟩ := by
      simp [newFrameReader, hgunzip, Option.isSome_iff_ne_none.mpr hgzip]
    obtain ⟨buf, -, herr⟩ := decodeEvent_nil codec pooled' reader (.other err)
    rw [hreader, herr] at hdecode
    simp at hdecode

/-- A frame with a mark before each byte and another one at the end. -/
def sampleFrame (p : List UInt8) : List UInt8 := p.flatMap (fun b => [1, b]) ++ [0]

/-- The frames of a stream, of which the first has begun with `frame`. -/
def sampleUnframe (frame : List UInt8) : List UInt8 → List (List UInt8) × ReadError
  | [] => ([], .eof)
  | [mark] => if mark = 0 then ([frame], .eof) else ([], .other "unexpected EOF")
  | mark :: b :: rest =>
    if mark = 0 then
      (frame :: (sampleUnframe [] (b :: rest)).1, (sampleUnframe [] (b :: rest)).2)
    else sampleUnframe (frame ++ [b]) rest

theorem sampleUnframe_sampleFrame (frame p rest : List UInt8) :
    sampleUnframe frame (sampleFrame p ++ rest) =
      ((frame ++ p) :: (sampleUnframe [] rest).1, (sampleUnframe [] rest).2) := by
  induction p generalizing frame with
  | nil =>
    cases rest with
    | nil => simp [sampleFrame, sampleUnframe]
    | cons b rest => simp [sampleFrame, sampleUnframe]
  | cons b p ih =>
    have hunframe : sampleUnframe frame (sampleFrame (b :: p) ++ rest) =
        sampleUnframe (frame ++ [b]) (sampleFrame p ++ rest) := by
      simp [sampleFrame, sampleUnframe]
    rw [hunframe, ih, List.append_assoc, List.singleton_append]

/-- An event as two frames, the type and the object. -/
def sampleCodec : StreamCodec where
  encode e := .ok (sampleFrame (utf8 e.eventType) ++ sampleFrame (utf8 e.raw))
  decode bytes :=
    match (sampleUnframe [] bytes).1.map ofUtf8 with
    | [some eventType, some raw] => .ok ⟨eventType, raw⟩
    | _ => .error "not an event"
  frame := sampleFrame
  unframe := sampleUnframe []

theorem roundTrips_sampleCodec (e : RawEvent) :
    sampleCodec.RoundTrips (fun e => sampleFrame (utf8 e.eventType) ++ sampleFrame (utf8 e.raw))
      (fun e => sampleFrame (utf8 e.eventType) ++ sampleFrame (utf8 e.raw)) e where
  encode := rfl
  unframe_nil := rfl
  unframe_frame _ := sampleUnframe_sampleFrame _ _ _
  decode := by
    have hunframe : sampleUnframe [] (sampleFrame (utf8 e.eventType) ++ sampleFrame (utf8 e.raw)) =
        ([utf8 e.eventType, utf8 e.raw], .eof) := by
      rw [sampleUnframe_sampleFrame, ← List.append_nil (sampleFrame (utf8 e.raw)),
        sampleUnframe_sampleFrame]
      rfl
    simp [sampleCodec, hunframe]

/-- The data of what `sampleCompressor` writes, once it is complete. -/
def sampleGunzip : List UInt8 → Except String (List UInt8)
  | 0x1f :: 0x8b :: 8 :: n :: data =>
    if data.length = n.toNat then .ok data else .error "unexpected EOF"
  | [0x1f, 0x8b, 8] => .error "unexpected EOF"
  | _ => .error "gzip: invalid header"

/-- A pod, as JSON. -/
def samplePod : RawEvent := ⟨"ADDED", "\x7b\"kind\":\"Pod\"\x7d"⟩

theorem decodeEvent_encodeWatch_sampleCodec :
    ∃ bytes s', ({} : ResponseSerializer (List UInt8)).encodeWatch sampleCompressor sampleCodec []
        samplePod = some (.ok bytes, s') ∧
      ∃ io reader', ({} : ResponseSerializer (List UInt8)).decodeEvent sampleCodec
        (List.replicate 64 0) (newFrameReader sampleCodec sampleGunzip false bytes) =
          some (.ok samplePod, io, reader') :=
  (decodeEvent_encodeWatch_iff (roundTrips_sampleCodec samplePod) (fun _ => ⟨_, rfl⟩) {} {} []
    (List.replicate 64 0)).mpr ⟨rfl, by decide +kernel⟩

/-- With gzip, what is returned for the same event is the header of the stream in a
frame, which is not a gzip stream. -/
theorem not_decodeEvent_encodeWatch_sampleCodec :
    ((new sampleCompressor (some (.closed _))).encodeWatch sampleCompressor sampleCodec []
        samplePod).map (fun r => r.1.toOption) =
      some (some (sampleFrame sampleCompressor.header)) ∧
    (({} : ResponseSerializer (List UInt8)).decodeEvent sampleCodec (List.replicate 64 0)
        (newFrameReader sampleCodec sampleGunzip true (sampleFrame sampleCompressor.header))).map
      (fun r => r.1.toOption) = some none := by
  decide +kernel

/-! ## The bytes of a watch -/

section

variable {α : Type} (codec : StreamCodec) (text payload : RawEvent → List UInt8)
  (decode : String → Except String α) (accessor : α → Except String String)

/-- The event that a `WatchReader` has upstream for an event. -/
def watchEvent (e : RawEvent) : WatchEvent :=
  ⟨e.eventType, (decode e.raw).bind accessor, e.raw⟩

/-- The encoding of events that a `WatchReader` returns the bytes of. -/
def frameOf (e : WatchEvent) : List UInt8 := codec.frame (text ⟨e.eventType, e.raw⟩)

/-- A stream that is not compressed, with these events still to be read: their
frames fit the buffer and their objects decode. -/
structure Upstream (pooled : List UInt8) (io : IoReader) (s : ResponseSerializer σ)
    (events : List RawEvent) : Prop where
  io_eq : io = ⟨⟨[], events.map payload, .eof⟩, false⟩
  gzip : s.gzipWriter = none
  fits : ∀ e ∈ events, (payload e).length ≤ (s.resetBuf pooled).cap
  decodes : ∀ e ∈ events, hasObject e.eventType = true → ∃ obj, decode e.raw = .ok obj

variable {codec text payload decode accessor}

/-- An event has been read, into a buffer that is not smaller. -/
theorem Upstream.tail {pooled : List UInt8} {io : IoReader} {s : ResponseSerializer σ} {e : RawEvent}
    {events : List RawEvent} (hs : Upstream payload decode pooled io s (e :: events)) {buf : Buffer}
    (hcap : (s.resetBuf pooled).cap ≤ buf.cap) :
    Upstream payload decode pooled ⟨⟨[], events.map payload, .eof⟩, false⟩
      { s with buf := some buf } events where
  io_eq := rfl
  gzip := hs.gzip
  fits e' he' := (hs.fits e' (List.mem_cons_of_mem _ he')).trans hcap
  decodes e' he' := hs.decodes e' (List.mem_cons_of_mem _ he')

/-- Reading the bytes of a stream refines the `WatchReader` with its events. -/
theorem readWatch_refines (c : Compressor σ) (h : HandlerConfig) (protoSpec : InternalSpec)
    {pooled : List UInt8} {io : IoReader} {s : ResponseSerializer σ} {events : List RawEvent}
    (hcodec : ∀ e ∈ events, ∀ eventType,
      codec.RoundTrips text payload { e with eventType := eventType })
    (hs : Upstream payload decode pooled io s events) (remaining : List UInt8) :
    ∃ result io' s' events',
      s.readWatch c h protoSpec codec decode accessor pooled io = some (result, io', s') ∧
      (⟨events.map (watchEvent decode accessor), remaining⟩ : WatchReader).readEvent h protoSpec
        (frameOf codec text) =
          (result, ⟨events'.map (watchEvent decode accessor), remaining⟩) ∧
      Upstream payload decode pooled io' s' events' := by
  obtain rfl := hs.io_eq
  cases events with
  | nil =>
    obtain ⟨buf, -, hevent⟩ := decodeEvent_nil codec pooled s .eof
    refine ⟨.error .eof, ⟨⟨[], [], .eof⟩, false⟩, { s with buf := some buf }, [], ?_, rfl,
      rfl, hs.gzip, by simp, by simp⟩
    simp [readWatch, decodeWatch, hevent]
  | cons e events =>
    obtain ⟨buf, hcap, hevent⟩ :=
      decodeEvent_of_le (hcodec e List.mem_cons_self e.eventType) (hs.fits e List.mem_cons_self)
        (events.map payload) .eof
    -- Whatever the type of the event has become, it is written to the same buffer.
    have hwrite : ∀ eventType, ∃ buf' : Buffer, (s.resetBuf pooled).cap ≤ buf'.cap ∧
        encodeWatch c codec pooled { e with eventType := eventType } { s with buf := some buf } =
          some (.ok (codec.frame (text { e with eventType := eventType })),
            { s with buf := some buf' }) := fun eventType =>
      ⟨_, hcap.ge.trans (Buffer.cap_le_write buf.reset _),
        encodeWatch_plain (s := { s with buf := some buf }) c
          (hcodec e List.mem_cons_self eventType) pooled hs.gzip⟩
    cases hobject : hasObject e.eventType with
    | false =>
      obtain ⟨buf', hcap', hencode⟩ := hwrite e.eventType
      refine ⟨.ok (codec.frame (text e)), _, _, events, ?_, ?_, hs.tail hcap'⟩
      · simp [readWatch, decodeWatch, hevent, hobject, hencode, Except.mapError]
      · simp [WatchReader.readEvent, watchEvent, frameOf, hobject]
    | true =>
      obtain ⟨obj, hobj⟩ := hs.decodes e List.mem_cons_self hobject
      cases hfilter : (filterEvent h protoSpec e.eventType (accessor obj)).eventType with
      | error err =>
        refine ⟨.error (.other err), _, _, events, ?_, ?_, hs.tail hcap.ge⟩
        · simp [readWatch, decodeWatch, hevent, hobject, hobj, hfilter]
        · simp [WatchReader.readEvent, watchEvent, hobject, hobj, Except.bind, hfilter]
      | ok eventType =>
        obtain ⟨buf', hcap', hencode⟩ := hwrite eventType
        refine ⟨.ok (codec.frame (text { e with eventType := eventType })), _, _, events, ?_, ?_,
          hs.tail hcap'⟩
        · simp [readWatch, decodeWatch, hevent, hobject, hobj, hfilter, hencode, Except.mapError]
        · simp [WatchReader.readEvent, watchEvent, frameOf, hobject, hobj, Except.bind, hfilter]

end

end ResponseSerializer

end CtrlMesh
