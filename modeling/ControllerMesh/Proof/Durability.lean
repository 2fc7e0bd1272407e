import ControllerMesh.Proof.Loadable

/-!
# What a restart finds

The files are never truncated and never read back before a write, so each
holds everything written to it. A spec file decodes to the merge of all specs
written (`SpecFile.load`), in which the repeated fields add up; a history file
with two texts does not decode at all (`HistoryFile.load`), and then nothing is
loaded. Over whole runs (`calls_durable_iff`), a restart finds what was last written
in every state exactly when every spec overrides the one before it
(`ProxySpecV1.Overrides`) and the history is written at most once.
-/

namespace CtrlMesh

open Framework

/-! ## Specs -/

/-- A spec that leaves nothing of the one before it in a merge: the old one has
no entries in repeated fields, and no string where the new one has none. -/
structure ProxySpecV1.Overrides (new old : ProxySpecV1) : Prop where
  vAppName : new.specMeta.vAppName = "" → old.specMeta.vAppName = ""
  hash : new.specMeta.hash = "" → old.specMeta.hash = ""
  subset : new.route.subset = "" → old.route.subset = ""
  globalLimits : old.route.globalLimits = []
  subsetLimits : old.route.subsetLimits = []
  subsetPublicResources : old.route.subsetPublicResources = []
  subsetDefaultOnlyUserAgents : old.route.subsetDefaultOnlyUserAgents = []
  endpoints : old.endpoints = []

/-- Merging a spec into an old one gives the spec exactly when it overrides the
old one. -/
theorem ProxySpecV1.merge_eq_right {old new : ProxySpecV1} :
    ProxySpecV1.Msg.codec.merge old.msg new.msg = new.msg ↔ new.Overrides old := by
  obtain ⟨⟨_, _⟩, ⟨_, _, _, _, _⟩, _⟩ := old
  obtain ⟨⟨_, _⟩, ⟨_, _, _, _, _⟩, _⟩ := new
  simp only [ProxySpecV1.msg, ProxySpecV1.Msg.codec, Wire.mergeMessage_some, SpecMetaV1.codec,
    RouteV1.codec, ProxySpecV1.Msg.mk.injEq, Option.some.injEq, SpecMetaV1.mk.injEq,
    RouteV1.mk.injEq, Wire.mergeString_eq_right, List.append_left_eq_self]
  constructor
  · rintro ⟨⟨h₁, h₂⟩, ⟨h₃, h₄, h₅, h₆, h₇⟩, h₈⟩
    exact ⟨h₁, h₂, h₃, h₄, h₅, h₆, h₇, h₈⟩
  · rintro ⟨h₁, h₂, h₃, h₄, h₅, h₆, h₇, h₈⟩
    exact ⟨⟨h₁, h₂⟩, ⟨h₃, h₄, h₅, h₆, h₇⟩, h₈⟩

instance (new old : ProxySpecV1) : Decidable (new.Overrides old) :=
  decidable_of_iff _ ProxySpecV1.merge_eq_right

/-- A spec is never encoded as nothing: it has `Meta` and `Route`. -/
theorem ProxySpecV1.marshal_msg_ne_nil (s : ProxySpecV1) :
    ProxySpecV1.Msg.codec.marshal s.msg ≠ [] := by
  simp [Wire.Codec.marshal, ProxySpecV1.Msg.codec, ProxySpecV1.msg, Wire.messageField,
    Wire.encodeFields_cons, Wire.Field.encode_ne_nil]

/-- A spec file to which `specs` were written, one after the other. -/
structure SpecFile (file : File UInt8) (specs : List ProxySpecV1) : Prop where
  atEnd : file.AtEnd
  data : file.data = (specs.map ProxySpecV1.msg).flatMap ProxySpecV1.Msg.codec.marshal

theorem SpecFile.write {file : File UInt8} {specs : List ProxySpecV1} (h : SpecFile file specs)
    (spec : ProxySpecV1) :
    SpecFile (file.write (ProxySpecV1.Msg.codec.marshal spec.msg)) (specs ++ [spec]) where
  atEnd := h.atEnd.write _
  data := by
    rw [File.write_data h.atEnd, h.data]
    simp

/-- What a file of these specs decodes to: nil if there are none, else their
merge. -/
def mergedSpec (specs : List ProxySpecV1) : Option ProxySpecV1.Msg :=
  if specs = [] then none
  else some ((specs.map ProxySpecV1.msg).foldl ProxySpecV1.Msg.codec.merge
    ProxySpecV1.Msg.codec.empty)

theorem SpecFile.load {file : File UInt8} {specs : List ProxySpecV1} (h : SpecFile file specs)
    (err : Storage.LoadError) : Storage.loadSpec file.data err = .ok (mergedSpec specs) := by
  rw [h.data]
  cases specs with
  | nil => rfl
  | cons s ss =>
    have hne : ((((s :: ss).map ProxySpecV1.msg).flatMap
        ProxySpecV1.Msg.codec.marshal).isEmpty) = false := by
      simp [s.marshal_msg_ne_nil]
    rw [Storage.loadSpec, hne, Wire.Codec.unmarshal_flatMap]
    rfl

/-- A file that decodes to its last spec does so after one more exactly when
the new one overrides the last. -/
theorem mergedSpec_concat {specs : List ProxySpecV1}
    (h : mergedSpec specs = specs.getLast?.map ProxySpecV1.msg) (spec : ProxySpecV1) :
    mergedSpec (specs ++ [spec]) = some spec.msg ↔
      ∀ old, specs.getLast? = some old → spec.Overrides old := by
  rw [mergedSpec, if_neg (by simp), List.map_append, List.map_cons, List.map_nil,
    List.foldl_concat, Option.some.injEq]
  rcases List.eq_nil_or_concat specs with rfl | ⟨ss, old, rfl⟩
  · simp [Wire.Codec.empty_merge]
  · have hlast : (ss.concat old).getLast? = some old := by simp
    rw [mergedSpec, if_neg (by simp), hlast, Option.map_some, Option.some.injEq] at h
    rw [h, ProxySpecV1.merge_eq_right, hlast]
    simp

/-! ## The history -/

/-- A history file to which `packs` were written, one after the other. -/
structure HistoryFile (file : File Char) (packs : List RequestsPack) : Prop where
  atEnd : file.AtEnd
  data : file.data = packs.flatMap RequestsPack.marshal

theorem HistoryFile.write {file : File Char} {packs : List RequestsPack}
    (h : HistoryFile file packs) (pack : RequestsPack) :
    HistoryFile (file.write pack.marshal) (packs ++ [pack]) where
  atEnd := h.atEnd.write _
  data := by
    rw [File.write_data h.atEnd, h.data]
    simp

/-- A history that was written is read back if it was written once, and is
what JSON makes of it. -/
theorem HistoryFile.load_eq_ok {file : File Char} {packs : List RequestsPack}
    (h : HistoryFile file packs) :
    Storage.loadHistory file.data .empty = .ok (packs.getLast?.getD .empty) ↔
      packs.length ≤ 1 ∧ ∀ pack ∈ packs, RequestsPack.jsonCodec.norm pack = pack := by
  have hne (pack : RequestsPack) (cs : List Char) : (pack.marshal ++ cs).isEmpty = false := by
    simp [RequestsPack.marshal, Json.render_ne_nil]
  rw [h.data]
  rcases packs with _ | ⟨pack, _ | ⟨pack', packs⟩⟩
  · simp [Storage.loadHistory]
  · simp [Storage.loadHistory, RequestsPack.unmarshal, RequestsPack.marshal, Json.render_ne_nil,
      Json.parse_render, RequestsPack.jsonCodec.ofJson_toJson]
  · have hrest : (pack' :: packs).flatMap RequestsPack.marshal ≠ [] := by
      intro he
      have := hne pack' (packs.flatMap RequestsPack.marshal)
      rw [← List.flatMap_cons, he] at this
      simp at this
    rw [List.flatMap_cons, Storage.loadHistory, hne, RequestsPack.unmarshal,
      RequestsPack.marshal, Json.parse_render_append _ hrest]
    simp

/-! ## Whole runs -/

theorem RequestsPack.norm_eq_self {pack : RequestsPack} :
    jsonCodec.norm pack = pack ↔
      ∀ (key : String) (req : ResourceRequest), pack.requestsByGR[key]? = some req →
        req.objectSelector.map LabelSelector.jsonCodec.norm = req.objectSelector := by
  have hnorm : jsonCodec.norm pack =
      { pack with
        requestsByGR := pack.requestsByGR.map fun _ req => ResourceRequest.jsonCodec.norm req } := rfl
  have hreq (req : ResourceRequest) : ResourceRequest.jsonCodec.norm req = req ↔
      req.objectSelector.map LabelSelector.jsonCodec.norm = req.objectSelector := by
    obtain ⟨gr, objectSelector, _, _, _, _⟩ := req
    simp [ResourceRequest.jsonCodec]
  rw [hnorm]
  constructor
  · intro h key req hr
    have hget := congrArg (·.requestsByGR[key]?) h
    simp only [Std.ExtTreeMap.getElem?_map, hr, Option.map_some, Option.some.injEq] at hget
    exact (hreq req).mp hget
  · intro h
    obtain ⟨m, _, _⟩ := pack
    simp only [mk.injEq, and_true]
    apply Std.ExtTreeMap.ext_getElem?
    intro key
    rw [Std.ExtTreeMap.getElem?_map]
    cases hr : m[key]? with
    | none => rfl
    | some req => rw [Option.map_some, (hreq req).mpr (h key req hr)]

/-- The first record of a history is read back from JSON if its selector is. -/
theorem RequestsPack.norm_add_empty (req : ResourceRequest) :
    jsonCodec.norm (empty.add (some req)).1 = (empty.add (some req)).1 ↔
      req.objectSelector.map LabelSelector.jsonCodec.norm = req.objectSelector := by
  rw [norm_eq_self]
  have hget (key : String) : (empty.add (some req)).1.requestsByGR[key]? =
      if records req = true ∧ req.gr.toStr = key then some req else none := by
    rw [getElem?_add]
    simp [recorded, empty]
  simp only [hget]
  constructor
  · intro h
    by_cases hr : records req = true
    · exact h req.gr.toStr req (by simp [hr])
    · simp [(records_eq_false.mp (by simpa using hr)).1]
  · intro h key r hr
    split at hr
    · cases hr; exact h
    · simp at hr

namespace SpecManager

variable {unmarshal : String → LabelSelector} {sm sm' : SpecManager}

/-- A restart finds the expected spec, the current spec and the history. -/
def Durable (sm : SpecManager) : Prop :=
  ((newStorage sm.storage.disk).loadData .empty).1 =
    .ok ⟨sm.expectedSpec.map (·.proxySpecV1.msg), sm.currentSpec.map (·.proxySpecV1.msg),
      sm.requestsStore⟩

instance (sm : SpecManager) : Decidable sm.Durable := inferInstanceAs (Decidable (_ = _))

/-- What was written to the files, oldest first: the last of each is what the
spec manager has. -/
structure Stored (sm : SpecManager) (expected current : List ProxySpecV1)
    (history : List RequestsPack) : Prop where
  expectedFile : SpecFile sm.storage.expectedSpecFile expected
  expectedLast : expected.getLast? = sm.expectedSpec.map (·.proxySpecV1)
  currentFile : SpecFile sm.storage.currentSpecFile current
  currentLast : current.getLast? = sm.currentSpec.map (·.proxySpecV1)
  historyFile : HistoryFile sm.storage.historyRequestsFile history
  historyLast : history.getLast?.getD .empty = sm.requestsStore
  historyEmpty : sm.requestsStore = .empty → history = []

theorem stored_start : start.Stored [] [] [] where
  expectedFile := ⟨rfl, rfl⟩
  expectedLast := rfl
  currentFile := ⟨rfl, rfl⟩
  currentLast := rfl
  historyFile := ⟨rfl, rfl⟩
  historyLast := rfl
  historyEmpty _ := rfl

theorem decodeData_eq_ok {disk : Disk} {loaded : Storage.Loaded} :
    Storage.decodeData disk .empty = .ok loaded ↔
      Storage.loadSpec disk.expectedSpec .expectedSpec = .ok loaded.expectedSpec ∧
      Storage.loadSpec disk.currentSpec .currentSpec = .ok loaded.currentSpec ∧
      Storage.loadHistory disk.historyRequests .empty = .ok loaded.history := by
  obtain ⟨e, c, h⟩ := loaded
  simp only [Storage.decodeData, bind, Except.bind, pure, Except.pure]
  cases Storage.loadSpec disk.expectedSpec .expectedSpec with
  | error => simp
  | ok e' =>
    cases Storage.loadSpec disk.currentSpec .currentSpec with
    | error => simp
    | ok c' => cases Storage.loadHistory disk.historyRequests .empty <;> simp

/-- In terms of what was written: each spec file decodes to its last spec, and
the history was written at most once. -/
theorem Stored.durable_iff {expected current : List ProxySpecV1} {history : List RequestsPack}
    (h : sm.Stored expected current history) :
    sm.Durable ↔
      mergedSpec expected = expected.getLast?.map ProxySpecV1.msg ∧
      mergedSpec current = current.getLast?.map ProxySpecV1.msg ∧
      history.length ≤ 1 ∧ ∀ pack ∈ history, RequestsPack.jsonCodec.norm pack = pack := by
  rw [← h.historyFile.load_eq_ok, h.historyLast, h.expectedLast, h.currentLast]
  simp only [Durable, Storage.loadData, newStorage, File.readAll, File.openRW, List.drop_zero,
    decodeData_eq_ok, Storage.disk, h.expectedFile.load, h.currentFile.load, Except.ok.injEq,
    Option.map_map, Function.comp_def]

/-- Storage after a record. -/
theorem Stored.releaseSpec {expected current : List ProxySpecV1} {history : List RequestsPack}
    (h : sm.Stored expected current history) (req : Option ResourceRequest) :
    (sm.releaseSpec req).Stored expected current
      (if (sm.requestsStore.add req).2 then history ++ [(sm.requestsStore.add req).1]
        else history) := by
  cases hc : (sm.requestsStore.add req).2 with
  | false =>
    have hsame : sm.releaseSpec req = sm := by
      simp [SpecManager.releaseSpec, hc, RequestsPack.add_of_not_changed hc]
    rw [hsame]
    exact h
  | true =>
    simp only [SpecManager.releaseSpec, hc, if_true]
    exact
      { h with
        historyFile := h.historyFile.write _
        historyLast := by simp
        historyEmpty := fun he => absurd he (RequestsPack.add_ne_empty hc) }

/-- Storage after an update. -/
theorem Stored.updateSpec {expected current : List ProxySpecV1} {history : List RequestsPack}
    (h : sm.Stored expected current history) (order : RangeOrder) (spec : ProxySpecV1) :
    (sm.updateSpec unmarshal order spec).Stored (expected ++ [spec])
      (if checkLoadable order sm.requestsStore sm.currentSpec
          (convertProtoSpecToInternal unmarshal spec) = none then current ++ [spec] else current)
      history := by
  have hassigned : (sm.assignExpectedSpec unmarshal spec).Stored (expected ++ [spec]) current
      history :=
    { h with
      expectedFile := h.expectedFile.write spec
      expectedLast := by simp [assignExpectedSpec, convertProtoSpecToInternal] }
  have hexpected : (sm.assignExpectedSpec unmarshal spec).expectedSpec =
      some (convertProtoSpecToInternal unmarshal spec) := rfl
  rcases loadExpectedSpec_cases order hexpected with ⟨err, hl, hs⟩ | ⟨hl, hs⟩
  · have hl' : checkLoadable order sm.requestsStore sm.currentSpec
        (convertProtoSpecToInternal unmarshal spec) = some err := hl
    rw [SpecManager.updateSpec, hs, hl', if_neg (by simp)]
    exact { hassigned with }
  · have hl' : checkLoadable order sm.requestsStore sm.currentSpec
        (convertProtoSpecToInternal unmarshal spec) = none := hl
    rw [SpecManager.updateSpec, hs, hl', if_pos rfl]
    exact
      { hassigned with
        currentFile := h.currentFile.write spec
        currentLast := by simp [convertProtoSpecToInternal] }

/-- A call after which a restart still finds everything. An update must
override the expected spec and, if it is loaded, the current spec. A record
that brings something new must be the first one, and have a selector without
empty members. -/
def KeepsDurable (unmarshal : String → LabelSelector) (sm : SpecManager) : Call → Prop
  | .updateSpec order spec =>
    (∀ old, sm.expectedSpec = some old → spec.Overrides old.proxySpecV1) ∧
      (checkLoadable order sm.requestsStore sm.currentSpec
          (convertProtoSpecToInternal unmarshal spec) = none →
        ∀ old, sm.currentSpec = some old → spec.Overrides old.proxySpecV1)
  | .releaseSpec req =>
    (sm.requestsStore.add req).2 = true →
      sm.requestsStore = .empty ∧
        ∀ rr, req = some rr →
          rr.objectSelector.map LabelSelector.jsonCodec.norm = rr.objectSelector

/-- A spec file after one more spec. -/
theorem mergedSpec_append_iff {specs : List ProxySpecV1} {last : Option InternalSpec}
    (hlast : specs.getLast? = last.map (·.proxySpecV1))
    (h : mergedSpec specs = specs.getLast?.map ProxySpecV1.msg) (spec : ProxySpecV1) :
    mergedSpec (specs ++ [spec]) = (specs ++ [spec]).getLast?.map ProxySpecV1.msg ↔
      ∀ old, last = some old → spec.Overrides old.proxySpecV1 := by
  rw [List.getLast?_concat, Option.map_some, mergedSpec_concat h, hlast]
  cases last <;> simp

theorem Stored.durable_updateSpec {expected current : List ProxySpecV1}
    {history : List RequestsPack} (h : sm.Stored expected current history) (hd : sm.Durable)
    (order : RangeOrder) (spec : ProxySpecV1) :
    (sm.updateSpec unmarshal order spec).Durable ↔
      sm.KeepsDurable unmarshal (.updateSpec order spec) := by
  obtain ⟨he, hc, hh⟩ := h.durable_iff.mp hd
  rw [(h.updateSpec order spec).durable_iff, mergedSpec_append_iff h.expectedLast he, KeepsDurable]
  refine and_congr_right fun _ => ?_
  split
  · rename_i hl
    rw [mergedSpec_append_iff h.currentLast hc]
    exact ⟨fun h' _ => h'.1, fun h' => ⟨h' hl, hh⟩⟩
  · rename_i hl
    exact iff_of_true ⟨hc, hh⟩ fun hl' => absurd hl' hl

theorem Stored.durable_releaseSpec {expected current : List ProxySpecV1}
    {history : List RequestsPack} (h : sm.Stored expected current history) (hd : sm.Durable)
    (req : Option ResourceRequest) :
    (sm.releaseSpec req).Durable ↔ sm.KeepsDurable unmarshal (.releaseSpec req) := by
  obtain ⟨he, hc, hh⟩ := h.durable_iff.mp hd
  rw [(h.releaseSpec req).durable_iff, KeepsDurable]
  cases hch : (sm.requestsStore.add req).2 with
  | false => exact iff_of_true ⟨he, hc, hh⟩ (by simp)
  | true =>
    have hlen : (history ++ [(sm.requestsStore.add req).1]).length ≤ 1 ↔
        sm.requestsStore = .empty := by
      constructor
      · intro hlen
        obtain rfl : history = [] := by
          cases history with
          | nil => rfl
          | cons => simp at hlen
        rw [← h.historyLast]
        rfl
      · intro hempty
        simp [h.historyEmpty hempty]
    simp only [if_true, true_implies, he, hc, true_and, hlen]
    refine and_congr_right fun hempty => ?_
    rw [h.historyEmpty hempty, hempty]
    cases req with
    | none => simp [RequestsPack.add] at hch
    | some rr => simpa using RequestsPack.norm_add_empty rr

/-- In every run of calls from empty files, a restart finds what was last
written in every state exactly when every call keeps it so. -/
theorem calls_durable_iff {cs : List Call} (h : (calls unmarshal).run cs = some sm) :
    (calls unmarshal).States Durable start cs ↔
      (calls unmarshal).Steps (KeepsDurable unmarshal) start cs := by
  have hcall {s : SpecManager} {c : Call} (hs : ∃ e cur hist, s.Stored e cur hist) :
      ∃ e cur hist, (s.call unmarshal c).Stored e cur hist := by
    obtain ⟨e, cur, hist, hs⟩ := hs
    cases c with
    | updateSpec order spec => exact ⟨_, _, _, hs.updateSpec order spec⟩
    | releaseSpec req => exact ⟨_, _, _, hs.releaseSpec req⟩
  refine (calls unmarshal).states_iff_steps (I := fun s => ∃ e cur hist, s.Stored e cur hist) ?_ ?_
    (fun _ _ => trivial) ⟨_, _, _, stored_start⟩ ?_ h
  · intro s c s' _ hs hstep
    obtain rfl := Option.some.inj hstep
    exact hcall hs
  · intro s c s' hs hd hstep
    obtain rfl := Option.some.inj hstep
    obtain ⟨e, cur, hist, hs⟩ := hs
    cases c with
    | updateSpec order spec => exact hs.durable_updateSpec hd order spec
    | releaseSpec req => exact hs.durable_releaseSpec hd req
  · exact stored_start.durable_iff.mpr ⟨rfl, rfl, by simp, by simp⟩

/-- A spec of nothing but its names, which the next one overrides. -/
def sampleBareSpec (hash : String) : ProxySpecV1 := ⟨⟨"app", hash⟩, ⟨"", [], [], [], []⟩, []⟩

def sampleRequest (ns : String) : ResourceRequest :=
  { gr := ⟨"", "pods"⟩, namespacePassed := .ofItems [ns] }

/-- Two bare specs and one record are found after a restart. -/
def sampleDurableCalls : List Call :=
  [.updateSpec .sorted (sampleBareSpec "h1"), .updateSpec .sorted (sampleBareSpec "h2"),
    .releaseSpec (some (sampleRequest "ns1"))]

/-- A test for `KeepsDurable`. -/
def keepsDurable (unmarshal : String → LabelSelector) (sm : SpecManager) : Call → Bool
  | .updateSpec order spec =>
    sm.expectedSpec.all (fun old => decide (spec.Overrides old.proxySpecV1)) &&
      ((checkLoadable order sm.requestsStore sm.currentSpec
          (convertProtoSpecToInternal unmarshal spec)).isSome ||
        sm.currentSpec.all (fun old => decide (spec.Overrides old.proxySpecV1)))
  | .releaseSpec req =>
    !(sm.requestsStore.add req).2 ||
      decide (sm.requestsStore = .empty) &&
        req.all fun rr => rr.objectSelector.map LabelSelector.jsonCodec.norm = rr.objectSelector

theorem keepsDurable_of_test {c : Call} (h : sm.keepsDurable unmarshal c = true) :
    sm.KeepsDurable unmarshal c := by
  cases c with
  | updateSpec order spec =>
    simp only [keepsDurable, Bool.and_eq_true, Bool.or_eq_true, Option.all_eq_true_iff_get,
      decide_eq_true_eq] at h
    refine ⟨fun old ho => ?_, fun hl old ho => ?_⟩
    · simpa [ho] using h.1
    · have h₂ := h.2
      simp only [hl, Option.isSome_none, Bool.false_eq_true, false_or] at h₂
      simpa [ho] using h₂
  | releaseSpec req =>
    intro hch
    simp only [keepsDurable, hch, Bool.not_true, Bool.false_or, Bool.and_eq_true,
      decide_eq_true_eq] at h
    refine ⟨h.1, fun rr hrr => ?_⟩
    simpa [hrr] using h.2

theorem durable_sampleDurableCalls :
    (calls fun _ => ⟨none, none⟩).States Durable start sampleDurableCalls :=
  (calls_durable_iff rfl).mpr ((calls _).steps_of_checkSteps (keepsDurable fun _ => ⟨none, none⟩)
    keepsDurable_of_test (by decide +kernel))

/-- A spec with a rule, as the server makes them. -/
def sampleRuleSpec (hash : String) : ProxySpecV1 :=
  { sampleBareSpec hash with route := ⟨"", [], [⟨"", [⟨["ns1"], "", []⟩]⟩], [], []⟩ }

/-- After two specs with rules a restart finds the rules of both, and after two
records it finds nothing at all. -/
theorem not_durable_sampleCalls :
    (∃ sm, (calls fun _ => ⟨none, none⟩).run
        [.updateSpec .sorted (sampleRuleSpec "h1"), .updateSpec .sorted (sampleRuleSpec "h2")] =
          some sm ∧
      (((newStorage sm.storage.disk).loadData .empty).1.toOption.bind (·.currentSpec)).bind
        (·.route) = some ⟨"", [], [⟨"", [⟨["ns1"], "", []⟩]⟩, ⟨"", [⟨["ns1"], "", []⟩]⟩], [], []⟩ ∧
      ¬sm.Durable) ∧
    (∃ sm, (calls fun _ => ⟨none, none⟩).run
        [.releaseSpec (some (sampleRequest "ns1")), .releaseSpec (some (sampleRequest "ns2"))] =
          some sm ∧
      ((newStorage sm.storage.disk).loadData .empty).1 = .error .historyRequests ∧ ¬sm.Durable) :=
  ⟨⟨_, rfl, by decide +kernel, by decide +kernel⟩, ⟨_, rfl, by decide +kernel, by decide +kernel⟩⟩

end SpecManager

end CtrlMesh
