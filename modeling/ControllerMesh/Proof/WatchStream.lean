import ControllerMesh.Impl.Response

/-!
# The bytes of a watch

What the client has read of a watch and what is still to come (`pending`) is,
at any time, the encoding of the filtered events: a `Read` moves bytes from the
one to the other (`read_spec`), so any number of them does (`reads_spec`). Reads with
buffers that are not empty get to the end of the stream (`eof_mem_reads`), and there
everything has been read (`reads_exact`).
-/

namespace CtrlMesh

open Framework

namespace WatchReader

variable (h : HandlerConfig) (spec : InternalSpec) (enc : WatchEvent → List UInt8)

/-- The object of an event must not be seen. -/
def hidden (e : WatchEvent) : Bool :=
  hasObject e.eventType &&
    (h.userAgentDenied || e.ns.toOption.any fun ns => !spec.isNamespaceMatch ns h.groupResource)

/-- The event that is sent for an event. -/
def forwarded (e : WatchEvent) : WatchEvent :=
  if hidden h spec e then { e with eventType := Bookmark } else e

/-- The encoding of the filtered events. -/
def encoded (events : List WatchEvent) : List UInt8 := events.flatMap fun e => enc (forwarded h spec e)

/-- The bytes that are still to be read. -/
def pending (r : WatchReader) : List UInt8 := r.remaining ++ encoded h spec enc r.upstream

/-- The objects of events have metadata, which all objects of the API have. -/
def HasMeta (events : List WatchEvent) : Prop :=
  ∀ e ∈ events, hasObject e.eventType = true → ∃ ns, e.ns = .ok ns

/-- The bytes that a `Read` returned. -/
def bytesOf : Except ReadError (List UInt8) → List UInt8
  | .ok bytes => bytes
  | .error _ => []

/-- A `Read` returns the first bytes of those pending, or the end of the stream
when none are. -/
structure ReadOk (r : WatchReader) (n : Nat) (result : Except ReadError (List UInt8))
    (r' : WatchReader) : Prop where
  split : bytesOf result ++ pending h spec enc r' = pending h spec enc r
  fits : (bytesOf result).length ≤ n
  upstream : r'.upstream <:+ r.upstream
  error : ∀ err, result = .error err → err = .eof ∧ pending h spec enc r = []
  /-- A buffer that is not empty gets a byte, or another event has been read. -/
  progress : 0 < n → ∀ bytes, result = .ok bytes →
    0 < bytes.length ∨ r'.upstream.length < r.upstream.length

variable {h spec enc}

theorem readEvent_nil {remaining : List UInt8} :
    (⟨[], remaining⟩ : WatchReader).readEvent h spec enc = (.error .eof, ⟨[], remaining⟩) := rfl

theorem readEvent_cons {e : WatchEvent} {upstream : List WatchEvent} {remaining : List UInt8}
    (he : hasObject e.eventType = true → ∃ ns, e.ns = .ok ns) :
    (⟨e :: upstream, remaining⟩ : WatchReader).readEvent h spec enc =
      (.ok (enc (forwarded h spec e)), ⟨upstream, remaining⟩) := by
  obtain ⟨eventType, ns, raw⟩ := e
  simp only at he
  rw [readEvent, forwarded, hidden]
  cases hobj : hasObject eventType with
  | false => simp [hobj]
  | true =>
    obtain ⟨ns, rfl⟩ := he hobj
    cases hu : h.userAgentDenied with
    | true => simp [filterEvent, hobj, hu]
    | false =>
      cases hm : spec.isNamespaceMatch ns h.groupResource <;>
        simp [filterEvent, hobj, hu, hm, Except.toOption]

theorem read_spec (r : WatchReader) (n : Nat) (hmeta : HasMeta r.upstream) :
    ReadOk h spec enc r n (r.read h spec enc n).1 (r.read h spec enc n).2 := by
  obtain ⟨upstream, remaining⟩ := r
  rw [read]
  by_cases hrem : 0 < remaining.length
  · rw [if_pos hrem]
    -- bytes of the event in progress
    by_cases hn : remaining.length ≤ n
    · rw [if_pos hn]
      exact ⟨rfl, hn, List.suffix_rfl, by simp, fun _ _ hb => .inl (by cases hb; exact hrem)⟩
    · rw [if_neg hn]
      refine ⟨?_, by simp [bytesOf], List.suffix_rfl, by simp, fun hpos _ hb => .inl ?_⟩
      · simp [bytesOf, pending, ← List.append_assoc]
      · cases hb
        rw [List.length_take]
        exact lt_min hpos hrem
  · rw [if_neg hrem]
    obtain rfl : remaining = [] := List.length_eq_zero_iff.mp (by omega)
    cases upstream with
    | nil =>
      rw [readEvent_nil]
      exact ⟨rfl, by simp [bytesOf], List.suffix_rfl, by simp [pending, encoded], by simp⟩
    | cons e upstream =>
      have hless : upstream.length < (e :: upstream).length := by simp
      rw [readEvent_cons (hmeta e List.mem_cons_self)]
      by_cases hn : n < (enc (forwarded h spec e)).length
      · simp only [if_pos hn]
        refine ⟨?_, by simp [bytesOf], List.suffix_cons _ _, by simp, fun _ _ _ => .inr hless⟩
        simp [bytesOf, pending, encoded, ← List.append_assoc]
      · simp only [if_neg hn]
        refine ⟨rfl, ?_, List.suffix_cons _ _, by simp, fun _ _ _ => .inr hless⟩
        simpa [bytesOf] using hn

theorem HasMeta.of_suffix {events rest : List WatchEvent} (hmeta : HasMeta events)
    (hsuffix : rest <:+ events) : HasMeta rest :=
  fun e he => hmeta e (hsuffix.mem he)

theorem reads_cons (r : WatchReader) (n : Nat) (ns : List Nat) :
    r.reads h spec enc (n :: ns) =
      ((r.read h spec enc n).1 :: ((r.read h spec enc n).2.reads h spec enc ns).1,
        ((r.read h spec enc n).2.reads h spec enc ns).2) := rfl

/-- Any number of reads, by induction on them. -/
theorem reads_spec (r : WatchReader) (ns : List Nat) (hmeta : HasMeta r.upstream) :
    (r.reads h spec enc ns).1.flatMap bytesOf ++ pending h spec enc (r.reads h spec enc ns).2 =
        pending h spec enc r ∧
      (.error .eof ∈ (r.reads h spec enc ns).1 →
        pending h spec enc (r.reads h spec enc ns).2 = []) := by
  induction ns generalizing r with
  | nil => exact ⟨rfl, by simp [reads]⟩
  | cons n ns ih =>
    have hread : ReadOk h spec enc r n _ _ := read_spec r n hmeta
    obtain ⟨hsplit, heof⟩ := ih (r.read h spec enc n).2 (hmeta.of_suffix hread.upstream)
    rw [reads_cons]
    refine ⟨?_, fun hmem => ?_⟩
    · rw [List.flatMap_cons, List.append_assoc, hsplit, hread.split]
    · rcases List.mem_cons.mp hmem with hhead | htail
      · -- nothing was pending at the end of the stream, so nothing is later
        have hempty := hread.split
        rw [(hread.error _ hhead.symm).2, List.append_eq_nil_iff] at hempty
        rw [hempty.2, List.append_eq_nil_iff] at hsplit
        exact hsplit.2
      · exact heof htail

/-- Reads with buffers that are not empty return the end of the stream after at
most as many of them as there are events and bytes. -/
theorem eof_mem_reads (r : WatchReader) (hmeta : HasMeta r.upstream) (ns : List Nat)
    (hpos : ∀ n ∈ ns, 0 < n)
    (hlen : (pending h spec enc r).length + r.upstream.length < ns.length) :
    .error .eof ∈ (r.reads h spec enc ns).1 := by
  induction ns generalizing r with
  | nil => simp at hlen
  | cons n ns ih =>
    obtain ⟨hn, hns⟩ := List.forall_mem_cons.mp hpos
    have hread : ReadOk h spec enc r n _ _ := read_spec r n hmeta
    rw [reads_cons, List.mem_cons]
    cases hres : (r.read h spec enc n).1 with
    | error err => exact .inl (by rw [(hread.error err hres).1])
    | ok bytes =>
      refine .inr (ih _ (hmeta.of_suffix hread.upstream) hns ?_)
      have hsplit := congrArg List.length hread.split
      rw [hres, List.length_append, bytesOf] at hsplit
      have hup := hread.upstream.length_le
      have hprog := hread.progress hn bytes hres
      rw [List.length_cons] at hlen
      omega

/-- The bytes read of a watch are a beginning of the encoding of the filtered
events, all of it once the end of the stream is returned, and the end is returned if
there are enough reads with buffers that are not empty. -/
theorem reads_exact (events : List WatchEvent) (hmeta : HasMeta events) (ns : List Nat) :
    ((⟨events, []⟩ : WatchReader).reads h spec enc ns).1.flatMap bytesOf <+: encoded h spec enc events ∧
      (.error .eof ∈ ((⟨events, []⟩ : WatchReader).reads h spec enc ns).1 →
        ((⟨events, []⟩ : WatchReader).reads h spec enc ns).1.flatMap bytesOf =
          encoded h spec enc events) ∧
      ((∀ n ∈ ns, 0 < n) → (encoded h spec enc events).length + events.length < ns.length →
        .error .eof ∈ ((⟨events, []⟩ : WatchReader).reads h spec enc ns).1) := by
  obtain ⟨hsplit, heof⟩ := reads_spec ⟨events, []⟩ ns hmeta
  refine ⟨⟨_, hsplit⟩, fun hmem => ?_, eof_mem_reads ⟨events, []⟩ hmeta ns⟩
  rw [heof hmem, List.append_nil] at hsplit
  exact hsplit

/-- Reads of an event that is passed on and one that is not, with small buffers, and
with one byte each until the end. -/
theorem reads_exact_sampleEvents :
    ∃ (events : List WatchEvent) (h : HandlerConfig) (spec : InternalSpec)
      (enc : WatchEvent → List UInt8),
      HasMeta events ∧ events.map (hidden h spec) = [false, true] ∧
      ((⟨events, []⟩ : WatchReader).reads h spec enc [0, 2, 5, 3, 1, 4]).1.flatMap bytesOf =
        encoded h spec enc events ∧
      .error .eof ∈ ((⟨events, []⟩ : WatchReader).reads h spec enc (List.replicate 9 1)).1 := by
  refine ⟨[⟨"ADDED", .ok "", "a"⟩, ⟨"DELETED", .ok "ns", "b"⟩], ⟨⟨"", "nodes"⟩, false⟩,
    ⟨⟨⟨"app", "h1"⟩, ⟨"", [], [], [], []⟩, []⟩, ⟨"", [], [], [], ∅⟩⟩,
    fun e => [0, if e.eventType = Bookmark then 1 else 2, 3], ?_, by decide +kernel,
    (reads_exact _ ?_ _).2.1 (by decide +kernel),
    (reads_exact _ ?_ _).2.2 (by decide) (by decide +kernel)⟩ <;>
  · intro e he _
    rcases List.mem_pair.mp he with rfl | rfl <;> exact ⟨_, rfl⟩

end WatchReader

end CtrlMesh
