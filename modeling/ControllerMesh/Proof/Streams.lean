import ControllerMesh.Impl.GrpcServer

/-!
# The streams of a pod

What one step of a stream can do (`Stream.Step`), what holds of a stream in
every run (`Stream.Ok`) and of all of them (`GrpcServer.Inv`). A pod has at most
one stream that is open, and the connection cached for it is one of its own.

The cached connection is the last one stored, and a handler may be late: one
that received its first message before its stream broke may store its
connection after the pod has opened another stream and that one has been
stored. Such a store, and nothing else, puts a broken connection in the place
of an open one (`unshadowed_iff`).
-/

namespace CtrlMesh

open Framework

namespace Stream

/-- The steps of a stream. -/
inductive Step (st : Stream) : Event → Stream → Prop where
  | report {status : ProxyStatusV1} (hb : st.broken = false) :
      Step st (.report status) { st with reports := st.reports ++ [status] }
  | recvFirst {pStatus : ProxyStatusV1} {reports : List ProxyStatusV1}
      (hh : st.handler = .receiving) (hr : st.reports = pStatus :: reports) :
      Step st .recvFirst { st with handler := .lookingUp pStatus, reports := reports }
  | recvFail (hh : st.handler = .receiving) (hb : st.broken = true) :
      Step st .recvFail { st with handler := .refused }
  | found {pStatus : ProxyStatusV1} (hh : st.handler = .lookingUp pStatus) :
      Step st (.lookupPod true) { st with handler := .storing pStatus }
  | notFound {pStatus : ProxyStatusV1} (hh : st.handler = .lookingUp pStatus) :
      Step st (.lookupPod false) { st with handler := .refused, broken := true }
  | store {pStatus : ProxyStatusV1} (hh : st.handler = .storing pStatus) :
      Step st .store { st with handler := .clearing, conn := ⟨pStatus, 0, false⟩ }
  | clear (hh : st.handler = .clearing) : Step st .clear { st with handler := .serving }
  | recv {pStatus : ProxyStatusV1} {reports : List ProxyStatusV1}
      (hh : st.handler.hasServed = true) (hr : st.reports = pStatus :: reports) :
      Step st .recv { st with conn := { st.conn with status := pStatus }, reports := reports }
  | deliver (hb : st.broken = false) (hd : st.delivered < st.sent.length) :
      Step st .deliver { st with delivered := st.delivered + 1 }
  | breakOff (hb : st.broken = false) : Step st .breakOff { st with broken := true }
  | teardown (hh : st.handler = .serving) (hb : st.broken = true) :
      Step st .teardown { st with handler := .closing }
  | disconnect (hh : st.handler = .closing) :
      Step st .disconnect
        { st with handler := .returned, conn := { st.conn with disconnected := true } }

theorem step_of_eq_some {st st' : Stream} {e : Event} (h : st.step e = some st') :
    Step st e st' := by
  cases e with
  | report status =>
    simp only [step] at h
    split at h
    · cases h
    · obtain rfl := Option.some.inj h
      exact .report (Bool.eq_false_iff.mpr ‹_›)
  | recvFirst =>
    simp only [step] at h
    split at h
    · obtain rfl := Option.some.inj h
      exact .recvFirst ‹_› ‹_›
    · cases h
  | recvFail =>
    simp only [step] at h
    split at h
    · rename_i hc
      obtain rfl := Option.some.inj h
      exact .recvFail hc.1 hc.2
    · cases h
  | lookupPod found =>
    simp only [step] at h
    split at h
    · cases found with
      | true => obtain rfl := Option.some.inj h; exact .found ‹_›
      | false => obtain rfl := Option.some.inj h; exact .notFound ‹_›
    · cases h
  | store =>
    simp only [step] at h
    split at h
    · obtain rfl := Option.some.inj h
      exact .store ‹_›
    · cases h
  | clear =>
    simp only [step] at h
    split at h
    · obtain rfl := Option.some.inj h
      exact .clear ‹_›
    · cases h
  | recv =>
    simp only [step] at h
    split at h
    · obtain rfl := Option.some.inj h
      exact .recv ‹_› ‹_›
    · cases h
  | deliver =>
    simp only [step] at h
    split at h
    · rename_i hc
      obtain rfl := Option.some.inj h
      exact .deliver ((Bool.not_eq_true' _).mp hc.1) hc.2
    · cases h
  | breakOff =>
    simp only [step] at h
    split at h
    · cases h
    · obtain rfl := Option.some.inj h
      exact .breakOff (Bool.eq_false_iff.mpr ‹_›)
  | teardown =>
    simp only [step] at h
    split at h
    · rename_i hc
      obtain rfl := Option.some.inj h
      exact .teardown hc.1 hc.2
    · cases h
  | disconnect =>
    simp only [step] at h
    split at h
    · obtain rfl := Option.some.inj h
      exact .disconnect ‹_›
    · cases h

namespace Step

variable {st st' : Stream} {e : Event}

theorem uid_eq (h : Step st e st') : st'.uid = st.uid := by cases h <;> rfl

theorem sent_eq (h : Step st e st') : st'.sent = st.sent := by cases h <;> rfl

/-- A broken stream stays broken. -/
theorem broken (h : Step st e st') (hb : st'.broken = false) : st.broken = false := by
  cases h <;> first | exact hb | cases hb

/-- What is stored stays stored, and only a `store` stores. -/
theorem hasStored (h : Step st e st') (he : e ≠ .store) :
    st'.handler.hasStored = st.handler.hasStored := by
  cases h with
  | store => exact absurd rfl he
  | recvFirst hh => rw [hh]; rfl
  | recvFail hh => rw [hh]; rfl
  | found hh => rw [hh]; rfl
  | notFound hh => rw [hh]; rfl
  | clear hh => rw [hh]; rfl
  | teardown hh => rw [hh]; rfl
  | disconnect hh => rw [hh]; rfl
  | _ => rfl

theorem hasStored_store (h : Step st .store st') :
    st.handler.hasStored = false ∧ st'.handler.hasStored = true ∧ st'.broken = st.broken := by
  cases h with
  | store hh => exact ⟨by rw [hh]; rfl, rfl, rfl⟩

theorem hasStored_mono (h : Step st e st') (hs : st.handler.hasStored = true) :
    st'.handler.hasStored = true := by
  by_cases he : e = .store
  · subst he
    exact h.hasStored_store.2.1
  · rw [h.hasStored he, hs]

end Step

/-- What holds of a stream in every run. -/
structure Ok (st : Stream) : Prop where
  /-- A handler whose stream is done has seen the end of it. -/
  ended (h : st.handler = .closing ∨ st.handler = .returned) : st.broken = true
  /-- Only the end of the handler marks the connection. -/
  marked (h : st.conn.disconnected = true) : st.handler = .returned
  /-- Nothing is sent on a connection that is not stored. -/
  fresh (h : st.handler.hasStored = false) : st.sent = []

theorem ok_new (uid : String) : Ok { uid := uid } where
  ended h := by rcases h with h | h <;> cases h
  marked h := by cases h
  fresh _ := rfl

/-- An open stream's connection is not marked. -/
theorem Ok.not_disconnected {st : Stream} (h : st.Ok) (hb : st.broken = false) :
    st.conn.disconnected = false := by
  by_contra hd
  have hret := h.marked (Bool.not_eq_false _ ▸ hd)
  rw [h.ended (.inr hret)] at hb
  cases hb

/-- Before it is stored, a connection is as it was made. -/
theorem Ok.unstored {st : Stream} (h : st.Ok) (hh : st.handler.hasStored = false) :
    st.sent = [] ∧ st.conn.disconnected = false := by
  refine ⟨h.fresh hh, ?_⟩
  by_contra hd
  rw [h.marked (Bool.not_eq_false _ ▸ hd)] at hh
  cases hh

theorem ok_of_unstored {st : Stream} (hh : st.handler.hasStored = false)
    (h : st.sent = [] ∧ st.conn.disconnected = false) : st.Ok where
  ended he := by rcases he with he | he <;> rw [he] at hh <;> cases hh
  marked hd := by rw [h.2] at hd; cases hd
  fresh _ := h.1

theorem Ok.step {st st' : Stream} {e : Event} (hok : st.Ok) (h : Step st e st') : st'.Ok := by
  cases h with
  | report => exact ⟨hok.ended, hok.marked, hok.fresh⟩
  | recvFirst hh => exact ok_of_unstored rfl (hok.unstored (by rw [hh]; rfl))
  | recvFail hh => exact ok_of_unstored rfl (hok.unstored (by rw [hh]; rfl))
  | found hh => exact ok_of_unstored rfl (hok.unstored (by rw [hh]; rfl))
  | notFound hh => exact ok_of_unstored rfl (hok.unstored (by rw [hh]; rfl))
  | store => exact ⟨by simp, nofun, nofun⟩
  | clear hh => exact ⟨by simp, fun hd => absurd (hok.marked hd) (by rw [hh]; decide), nofun⟩
  | recv => exact ⟨hok.ended, hok.marked, hok.fresh⟩
  | deliver => exact ⟨hok.ended, hok.marked, hok.fresh⟩
  | breakOff => exact ⟨fun _ => rfl, hok.marked, hok.fresh⟩
  | teardown hh hb =>
    exact ⟨fun _ => hb, fun hd => absurd (hok.marked hd) (by rw [hh]; decide), nofun⟩
  | disconnect hh => exact ⟨fun _ => hok.ended (.inl hh), fun _ => rfl, nofun⟩

/-- A connection that is marked stays so. -/
theorem Ok.disconnected {st st' : Stream} {e : Event} (hok : st.Ok) (h : Step st e st')
    (hd : st.conn.disconnected = true) : st'.conn.disconnected = true := by
  cases h with
  | store hh =>
    rw [(hok.unstored (by rw [hh]; rfl)).2] at hd
    cases hd
  | disconnect => rfl
  | _ => exact hd

end Stream

namespace GrpcServer

variable {s s' : GrpcServer}

/-- A step of a stream, and what it does to the shared maps. -/
theorem step_stream {i : Nat} {e : Stream.Event} (h : s.step (.stream i e) = some s') :
    ∃ st st', s.streams[i]? = some st ∧ Stream.Step st e st' ∧
      s' = effect { s with streams := s.streams.set i st' } i st.uid e := by
  simp only [step] at h
  split at h
  · cases h
  · rename_i st hst
    obtain ⟨st', hst', rfl⟩ := Option.map_eq_some_iff.mp h
    exact ⟨st, st', hst, Stream.step_of_eq_some hst', rfl⟩

theorem step_connect {uid : String} (h : s.step (.connect uid) = some s') :
    (∀ st ∈ s.streams, st.uid = uid → st.broken = true) ∧
      s' = { s with streams := s.streams ++ [{ uid := uid }] } := by
  simp only [step] at h
  split at h
  · cases h
  · rename_i hany
    refine ⟨fun st hst huid => ?_, (Option.some.inj h).symm⟩
    by_contra hb
    exact hany (List.any_eq_true.mpr ⟨st, hst, by simp [huid, Bool.eq_false_iff.mpr hb]⟩)

@[simp] theorem streams_effect (s : GrpcServer) (i : Nat) (uid : String) (e : Stream.Event) :
    (s.effect i uid e).streams = s.streams := by
  cases e <;> rfl

/-- Only a `store` changes what is cached. -/
theorem cached_effect (s : GrpcServer) (i : Nat) (uid : String) (e : Stream.Event) (k : String) :
    (s.effect i uid e).cachedGrpcSrvConnection[k]? =
      if e = .store ∧ uid = k then some i else s.cachedGrpcSrvConnection[k]? := by
  cases e with
  | store => simp only [effect, StringMap.getElem?_insert, true_and]
  | _ => simp [effect]

end GrpcServer

/-- Replacing a stream. -/
theorem getElem?_set_stream {streams : List Stream} {i : Nat} {st : Stream}
    (h : streams[i]? = some st) (st' : Stream) (j : Nat) :
    (streams.set i st')[j]? = if i = j then some st' else streams[j]? := by
  rw [List.getElem?_set]
  split_ifs with hij hlt
  · rfl
  · exact absurd (List.getElem?_eq_some_iff.mp h).1 hlt
  · rfl

/-- Adding a stream. -/
theorem getElem?_append_stream {streams : List Stream} {st st' : Stream} {j : Nat} :
    (streams ++ [st'])[j]? = some st ↔ streams[j]? = some st ∨ j = streams.length ∧ st' = st := by
  rcases Nat.lt_trichotomy j streams.length with hj | hj | hj
  · simp [List.getElem?_append_left hj, hj.ne]
  · simp [hj]
  · simp [hj.ne', Nat.le_of_lt hj, hj]

namespace GrpcServer

variable {s s' : GrpcServer}

/-! ## What holds in every run -/

/-- A pod has one open stream at most, and the connection cached for it was
stored by a stream of its own. -/
structure Inv (s : GrpcServer) : Prop where
  unique {i j : Nat} {st st' : Stream} (hi : s.streams[i]? = some st)
    (hj : s.streams[j]? = some st') (huid : st.uid = st'.uid) (hb : st.broken = false)
    (hb' : st'.broken = false) : i = j
  cached {uid : String} {i : Nat} (h : s.cachedGrpcSrvConnection[uid]? = some i) :
    ∃ st, s.streams[i]? = some st ∧ st.uid = uid ∧ st.handler.hasStored = true
  ok {i : Nat} {st : Stream} (h : s.streams[i]? = some st) : st.Ok

theorem inv_start : Inv start where
  unique hi := by simp [start] at hi
  cached h := by simp [start] at h
  ok h := by simp [start] at h

theorem Inv.connect (hs : s.Inv) {uid : String} (h : s.step (.connect uid) = some s') :
    s'.Inv := by
  obtain ⟨hbroken, rfl⟩ := step_connect h
  have hold {i : Nat} {st : Stream} (hi : s.streams[i]? = some st) (huid : st.uid = uid)
      (hb : st.broken = false) : False := by
    rw [hbroken st (List.mem_of_getElem? hi) huid] at hb
    cases hb
  refine ⟨fun hi hj huid hb hb' => ?_, fun hc => ?_, fun hi => ?_⟩
  · rcases getElem?_append_stream.mp hi with hi | ⟨rfl, rfl⟩
    · rcases getElem?_append_stream.mp hj with hj | ⟨rfl, rfl⟩
      · exact hs.unique hi hj huid hb hb'
      · exact (hold hi huid hb).elim
    · rcases getElem?_append_stream.mp hj with hj | ⟨rfl, rfl⟩
      · exact (hold hj huid.symm hb').elim
      · rfl
  · obtain ⟨st, hst, hrest⟩ := hs.cached hc
    exact ⟨st, getElem?_append_stream.mpr (.inl hst), hrest⟩
  · rcases getElem?_append_stream.mp hi with hi | ⟨-, rfl⟩
    · exact hs.ok hi
    · exact Stream.ok_new uid

/-- A stream after a step, as it was before. -/
theorem stream_before {i : Nat} {e : Stream.Event} (h : s.step (.stream i e) = some s') {j : Nat}
    {t : Stream} (hj : s'.streams[j]? = some t) :
    ∃ t₀, s.streams[j]? = some t₀ ∧ t₀.uid = t.uid ∧ t₀.sent = t.sent ∧
      (t.broken = false → t₀.broken = false) := by
  obtain ⟨st, st', hst, hstep, rfl⟩ := step_stream h
  rw [streams_effect, getElem?_set_stream hst st'] at hj
  split_ifs at hj with hij
  · obtain rfl := Option.some.inj hj
    exact ⟨st, hij ▸ hst, hstep.uid_eq.symm, hstep.sent_eq.symm, hstep.broken⟩
  · exact ⟨t, hj, rfl, rfl, id⟩

theorem Inv.stream (hs : s.Inv) {i : Nat} {e : Stream.Event}
    (h : s.step (.stream i e) = some s') : s'.Inv := by
  obtain ⟨st, st', hst, hstep, rfl⟩ := step_stream h
  have hget := getElem?_set_stream hst st'
  refine ⟨fun hi hj huid hb hb' => ?_, fun {uid j} hc => ?_, fun {j t} hj => ?_⟩
  · obtain ⟨t₀, ht₀, hu₀, -, hb₀⟩ := stream_before h hi
    obtain ⟨t₁, ht₁, hu₁, -, hb₁⟩ := stream_before h hj
    exact hs.unique ht₀ ht₁ (hu₀.trans (huid.trans hu₁.symm)) (hb₀ hb) (hb₁ hb')
  · rw [cached_effect] at hc
    simp only [streams_effect, hget]
    split_ifs at hc with hstore
    · obtain ⟨rfl, rfl⟩ := hstore
      obtain rfl := Option.some.inj hc
      exact ⟨st', if_pos rfl, hstep.uid_eq, hstep.hasStored_store.2.1⟩
    · obtain ⟨t, ht, huid, hstored⟩ := hs.cached hc
      by_cases hij : i = j
      · obtain rfl : st = t := Option.some.inj (hst.symm.trans (hij ▸ ht))
        exact ⟨st', if_pos hij, hstep.uid_eq.trans huid, hstep.hasStored_mono hstored⟩
      · exact ⟨t, (if_neg hij).trans ht, huid, hstored⟩
  · rw [streams_effect, hget] at hj
    split_ifs at hj with hij
    · obtain rfl := Option.some.inj hj
      exact (hs.ok hst).step hstep
    · exact hs.ok hj

theorem Inv.step (hs : s.Inv) {e : Event} (h : s.step e = some s') : s'.Inv := by
  cases e with
  | connect uid => exact hs.connect h
  | stream i e => exact hs.stream h

/-! ## Broken connections in the place of open ones -/

/-- Some stream of the pod has been stored and is still open. -/
def Live (s : GrpcServer) (uid : String) : Prop :=
  ∃ (i : Nat) (st : Stream), s.streams[i]? = some st ∧ st.uid = uid ∧
    st.handler.hasStored = true ∧ st.broken = false

/-- For every pod with such a stream, the cached connection is an open one. -/
def Unshadowed (s : GrpcServer) : Prop :=
  ∀ uid, s.Live uid → ∃ (i : Nat) (st : Stream), s.cachedGrpcSrvConnection[uid]? = some i ∧
    s.streams[i]? = some st ∧ st.broken = false ∧ st.conn.disconnected = false

/-- The handler of a broken stream stores its connection only while no other
stream of the pod has been stored and is open. -/
def StoresInTime (s : GrpcServer) : Event → Prop
  | .stream i .store => ∀ st, s.streams[i]? = some st → st.broken = true → ¬s.Live st.uid
  | _ => True

/-- A stream that has been stored and is open was so before, or is stored now. -/
theorem Live.of_step {i : Nat} {e : Stream.Event} {st st' : Stream} {uid : String}
    (hst : s.streams[i]? = some st) (hstep : Stream.Step st e st')
    (h : Live (effect { s with streams := s.streams.set i st' } i st.uid e) uid) :
    s.Live uid ∨ e = .store ∧ uid = st.uid ∧ st.broken = false := by
  obtain ⟨j, t, ht, huid, hstored, hb⟩ := h
  rw [streams_effect, getElem?_set_stream hst st'] at ht
  split_ifs at ht with hij
  · obtain rfl := Option.some.inj ht
    have hb' := hstep.broken hb
    by_cases he : e = .store
    · exact .inr ⟨he, huid.symm.trans hstep.uid_eq, hb'⟩
    · rw [hstep.hasStored he] at hstored
      exact .inl ⟨i, st, hst, hstep.uid_eq.symm.trans huid, hstored, hb'⟩
  · exact .inl ⟨j, t, ht, huid, hstored, hb⟩

theorem Unshadowed.connect (h : s.Unshadowed) {uid : String}
    (hstep : s.step (.connect uid) = some s') : s'.Unshadowed := by
  obtain ⟨-, rfl⟩ := step_connect hstep
  intro uid' ⟨j, t, ht, huid, hstored, hb⟩
  rcases getElem?_append_stream.mp ht with ht | ⟨-, rfl⟩
  · obtain ⟨i, st, hc, hst, hrest⟩ := h uid' ⟨j, t, ht, huid, hstored, hb⟩
    exact ⟨i, st, hc, getElem?_append_stream.mpr (.inl hst), hrest⟩
  · cases hstored

/-- The connection cached for a pod stays open while the pod has an open stream
and no other connection is stored. -/
theorem Unshadowed.keep (h : s.Unshadowed) (hs : s.Inv) {i : Nat} {e : Stream.Event}
    (hstep : s.step (.stream i e) = some s') {uid : String} (hlive : s'.Live uid)
    (hold : s.Live uid)
    (hcached : s'.cachedGrpcSrvConnection[uid]? = s.cachedGrpcSrvConnection[uid]?) :
    ∃ (j : Nat) (t : Stream), s'.cachedGrpcSrvConnection[uid]? = some j ∧
      s'.streams[j]? = some t ∧ t.broken = false ∧ t.conn.disconnected = false := by
  obtain ⟨j, t, hc, ht, hb, -⟩ := h uid hold
  obtain ⟨k, u, hu, huid, -, hbu⟩ := hlive
  obtain ⟨u₀, hu₀, huid₀, -, hb₀⟩ := stream_before hstep hu
  obtain ⟨t', ht', htuid, -⟩ := hs.cached hc
  obtain rfl : t = t' := Option.some.inj (ht.symm.trans ht')
  -- Both were open before the step, so they are one.
  obtain rfl : j = k := hs.unique ht hu₀ (htuid.trans (huid₀.trans huid).symm) hb (hb₀ hbu)
  exact ⟨j, u, hcached.trans hc, hu, hbu, ((hs.stream hstep).ok hu).not_disconnected hbu⟩

/-- A `store` puts a broken connection in the place of an open one exactly if it
comes too late. -/
theorem unshadowed_store (h : s.Unshadowed) (hs : s.Inv) {i : Nat}
    (hstep : s.step (.stream i .store) = some s') :
    s'.Unshadowed ↔ s.StoresInTime (.stream i .store) := by
  have hs' := hs.stream hstep
  obtain ⟨st, st', hst, hst', rfl⟩ := step_stream hstep
  have hget := getElem?_set_stream hst st'
  have hcached (k : String) := cached_effect { s with streams := s.streams.set i st' } i st.uid
    .store k
  have hbroken := hst'.hasStored_store.2.2
  constructor
  · intro h' t ht hb ⟨j, u, hu, huid, hstored, hbu⟩
    obtain rfl : st = t := Option.some.inj (hst.symm.trans ht)
    have hij : i ≠ j := by
      rintro rfl
      obtain rfl : st = u := Option.some.inj (hst.symm.trans hu)
      rw [hb] at hbu
      cases hbu
    obtain ⟨k, v, hk, hv, hbv, -⟩ := h' st.uid
      ⟨j, u, by rw [streams_effect, hget, if_neg hij, hu], huid, hstored, hbu⟩
    rw [hcached, if_pos ⟨rfl, rfl⟩] at hk
    obtain rfl := Option.some.inj hk
    rw [streams_effect, hget, if_pos rfl] at hv
    obtain rfl := Option.some.inj hv
    rw [hbroken, hb] at hbv
    cases hbv
  · intro hok uid hlive
    by_cases huid : st.uid = uid
    · have hopen : st'.broken = false := by
        rw [hbroken]
        by_contra hb
        rcases hlive.of_step hst hst' with hold | ⟨-, -, hb'⟩
        · exact hok st hst (Bool.not_eq_false _ ▸ hb) (huid ▸ hold)
        · exact hb hb'
      have hi : (effect { s with streams := s.streams.set i st' } i st.uid .store).streams[i]? =
          some st' := by rw [streams_effect, hget, if_pos rfl]
      exact ⟨i, st', by rw [hcached, if_pos ⟨rfl, huid⟩], hi, hopen, (hs'.ok hi).not_disconnected hopen⟩
    · have hsame := hcached uid
      rw [if_neg (fun hc => huid hc.2)] at hsame
      refine h.keep hs hstep hlive ?_ hsame
      exact (hlive.of_step hst hst').resolve_right fun hc => huid hc.2.1.symm

theorem unshadowed_step (hs : s.Inv) (h : s.Unshadowed) {e : Event} (hstep : s.step e = some s') :
    s'.Unshadowed ↔ s.StoresInTime e := by
  cases e with
  | connect uid => exact iff_of_true (h.connect hstep) trivial
  | stream i e =>
    by_cases he : e = .store
    · subst he
      exact unshadowed_store h hs hstep
    · obtain ⟨st, st', hst, hst', rfl⟩ := step_stream hstep
      refine iff_of_true (fun uid hlive => ?_) (by cases e <;> trivial)
      refine h.keep hs hstep hlive ((hlive.of_step hst hst').resolve_right fun hc => he hc.1) ?_
      rw [cached_effect, if_neg fun hc => he hc.1]

/-- In a run of the handlers every pod with a stored stream that is open has an
open connection cached, in every state, exactly if no handler of a broken stream
stores its connection while another stream of the pod has been stored and is
open. -/
theorem unshadowed_iff {es : List Event} (h : system.run es = some s) :
    system.States Unshadowed start es ↔ system.Steps StoresInTime start es := by
  have hstart : start.Unshadowed := by
    intro uid ⟨i, st, hst, _⟩
    simp [start] at hst
  exact system.states_iff_steps (fun _ hs hstep => hs.step hstep)
    (fun hs h hstep => unshadowed_step hs h hstep) (fun _ _ => trivial) inv_start hstart h

/-- The handler of the `i`-th stream receives the first message and finds the
pod. -/
def sampleRegister (i : Nat) : List Event :=
  [.stream i (.report ⟨none, none⟩), .stream i .recvFirst, .stream i (.lookupPod true)]

/-- A pod connects, its stream breaks, and it connects again. -/
def sampleReconnect : List Event :=
  List.flatten [[.connect "pod"], sampleRegister 0,
    [.stream 0 .store, .stream 0 .clear, .stream 0 .breakOff, .connect "pod"],
    sampleRegister 1,
    [.stream 1 .store, .stream 0 .teardown, .stream 0 .disconnect, .stream 1 .clear]]

theorem unshadowed_sampleReconnect :
    ∃ s, system.run sampleReconnect = some s ∧ s.Live "pod" ∧
      system.States Unshadowed start sampleReconnect := by
  have hrun : (system.run sampleReconnect).map (·.streams[1]?) =
      some (some { uid := "pod", handler := .serving }) := by
    decide +kernel
  obtain ⟨s, hs, hst⟩ := Option.map_eq_some_iff.mp hrun
  refine ⟨s, hs, ⟨1, _, hst, rfl, rfl, rfl⟩, (unshadowed_iff hs).mpr ?_⟩
  -- Here even every connection is stored while its stream is open.
  let test (s : GrpcServer) : Event → Bool
    | .stream i .store => s.streams[i]?.all (!·.broken)
    | _ => true
  refine system.steps_of_checkSteps test (fun {s e} htest => ?_) (by decide +kernel)
  unfold StoresInTime
  split
  · intro st hst hb
    simp only [test, hst, Option.all_some, hb] at htest
    cases htest
  · trivial

/-- The same, but the first handler is late. -/
def sampleLateStore : List Event :=
  List.flatten [[.connect "pod"], sampleRegister 0, [.stream 0 .breakOff, .connect "pod"],
    sampleRegister 1,
    [.stream 1 .store, .stream 1 .clear, .stream 0 .store, .stream 0 .clear, .stream 0 .teardown,
      .stream 0 .disconnect]]

/-- Then the pod's open stream is stored, and what is cached is the connection
of the broken one, marked as disconnected. -/
theorem shadowed_sampleLateStore :
    ∃ s, system.run sampleLateStore = some s ∧ s.Live "pod" ∧
      s.cachedGrpcSrvConnection["pod"]? = some 0 ∧
      s.streams[0]?.map (·.conn.disconnected) = some true := by
  have hrun : (system.run sampleLateStore).map (fun s => (s.streams[1]?,
      s.cachedGrpcSrvConnection["pod"]?, s.streams[0]?.map (·.conn.disconnected))) =
      some (some { uid := "pod", handler := .serving }, some 0, some true) := by
    decide +kernel
  obtain ⟨s, hs, hst⟩ := Option.map_eq_some_iff.mp hrun
  rw [Prod.mk.injEq, Prod.mk.injEq] at hst
  exact ⟨s, hs, ⟨1, _, hst.1, rfl, rfl, rfl⟩, hst.2.1, hst.2.2⟩

end GrpcServer

end CtrlMesh
