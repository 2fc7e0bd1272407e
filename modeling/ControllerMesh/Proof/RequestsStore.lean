import ControllerMesh.Spec.History

/-!
# The history adds up

`add` keeps, for every group-resource, the union of what was reported
(`answers_add`), as long as no two group-resources share a string: they do not
when resource names are not empty and have no dot (`toStr_inj`).

* `getElem?_addRequest`, `mem_namespacePassed_mergeRequest`,
  `mem_namespaceDenied_mergeRequest`: what `add` does to the records;
* `mem_userAgentPassed_add`, `mem_userAgentDenied_add`: and to the user agents;
* `WellKeyed`, kept by `add`: every record stands under the string of its
  group-resource.
-/

namespace CtrlMesh

open Framework

/-! ## Strings of group-resources -/

private theorem takeWhile_dot {a : List Char} (ha : '.' ∉ a) (b : List Char) :
    (a ++ '.' :: b).takeWhile (· ≠ '.') = a := by
  have hpos : ∀ c ∈ a, decide (c ≠ '.') = true := by
    rintro c hc
    simp only [ne_eq, decide_not, Bool.not_eq_true', decide_eq_false_iff_not]
    rintro rfl
    exact ha hc
  rw [List.takeWhile_append_of_pos hpos]
  simp

theorem GroupResource.toList_toStr (gr : GroupResource) :
    gr.toStr.toList =
      if gr.group = "" then gr.resource.toList else gr.resource.toList ++ '.' :: gr.group.toList := by
  unfold toStr
  split <;> simp

theorem GroupResource.dot_mem_toStr {gr : GroupResource} (h : '.' ∉ gr.resource.toList) :
    '.' ∈ gr.toStr.toList ↔ gr.group ≠ "" := by
  rw [toList_toStr]
  split <;> simp_all

/-- Group-resources whose resource names have no dot have different strings. -/
theorem GroupResource.toStr_inj {gr gr' : GroupResource} (h : gr.WellNamed) (h' : gr'.WellNamed)
    (e : gr.toStr = gr'.toStr) : gr = gr' := by
  obtain ⟨-, hd⟩ := h
  obtain ⟨-, hd'⟩ := h'
  have el := congrArg String.toList e
  rw [toList_toStr, toList_toStr] at el
  have hmem := dot_mem_toStr hd
  rw [e, dot_mem_toStr hd'] at hmem
  by_cases hg : gr.group = ""
  · have hg' : gr'.group = "" := by simpa [hg] using hmem
    rw [if_pos hg, if_pos hg'] at el
    obtain ⟨group, resource⟩ := gr
    obtain ⟨group', resource'⟩ := gr'
    rw [String.toList_inj] at el
    simp_all
  · have hg' : gr'.group ≠ "" := by simpa [hg] using hmem
    rw [if_neg hg, if_neg hg'] at el
    have hres : gr.resource.toList = gr'.resource.toList := by
      have := congrArg (List.takeWhile (· ≠ '.')) el
      rwa [takeWhile_dot hd, takeWhile_dot hd'] at this
    rw [hres, List.append_cancel_left_eq, List.cons.injEq] at el
    obtain ⟨group, resource⟩ := gr
    obtain ⟨group', resource'⟩ := gr'
    simp only [GroupResource.mk.injEq]
    exact ⟨String.toList_inj.mp el.2, String.toList_inj.mp hres⟩

/-! ## Records -/

namespace RequestsPack

theorem mem_addNamespaces {recorded additional : StringSet} {ns : String} :
    ns ∈ (addNamespaces recorded additional).1 ↔ ns ∈ recorded ∨ ns ∈ additional := by
  by_cases h : 0 < (additional \ recorded).size
  · simp only [addNamespaces, if_pos h, Std.ExtTreeSet.mem_union_iff, Std.ExtTreeSet.mem_diff_iff]
    tauto
  · simp only [addNamespaces, if_neg h]
    have hns : ns ∉ additional \ recorded := fun hns => h (StringSet.size_pos_iff.mpr ⟨ns, hns⟩)
    rw [Std.ExtTreeSet.mem_diff_iff] at hns
    tauto

@[simp] theorem gr_mergeRequest (r req : ResourceRequest) : (mergeRequest r req).1.gr = r.gr := rfl

@[simp] theorem mem_namespacePassed_mergeRequest {r req : ResourceRequest} {ns : String} :
    ns ∈ (mergeRequest r req).1.namespacePassed ↔
      ns ∈ r.namespacePassed ∨ ns ∈ req.namespacePassed := mem_addNamespaces

@[simp] theorem mem_namespaceDenied_mergeRequest {r req : ResourceRequest} {ns : String} :
    ns ∈ (mergeRequest r req).1.namespaceDenied ↔
      ns ∈ r.namespaceDenied ∨ ns ∈ req.namespaceDenied := mem_addNamespaces

/-- A record that says nothing of its group-resource. -/
theorem records_eq_false {req : ResourceRequest} :
    records req = false ↔
      req.objectSelector = none ∧ req.namespacePassed = ∅ ∧ req.namespaceDenied = ∅ := by
  simp [records, and_assoc, StringSet.size_eq_zero_iff]

/-- The record that `add` leaves under its string. -/
def recorded (pack : RequestsPack) (req : ResourceRequest) : ResourceRequest :=
  match pack.requestsByGR[req.gr.toStr]? with
  | none => req
  | some reqByGR => (mergeRequest reqByGR req).1

theorem getElem?_addRequest (pack : RequestsPack) (req : ResourceRequest) (key : String) :
    (pack.addRequest req).1.requestsByGR[key]? =
      if records req = true ∧ req.gr.toStr = key then some (pack.recorded req)
      else pack.requestsByGR[key]? := by
  by_cases hr : records req = true
  · cases hk : pack.requestsByGR[req.gr.toStr]? <;>
      simp [addRequest, recorded, hr, hk, StringMap.getElem?_insert]
  · simp [addRequest, hr]

@[simp] theorem userAgentPassed_addRequest (pack : RequestsPack) (req : ResourceRequest) :
    (pack.addRequest req).1.userAgentPassed = pack.userAgentPassed := by
  unfold addRequest
  split
  · split <;> rfl
  · rfl

@[simp] theorem userAgentDenied_addRequest (pack : RequestsPack) (req : ResourceRequest) :
    (pack.addRequest req).1.userAgentDenied = pack.userAgentDenied := by
  unfold addRequest
  split
  · split <;> rfl
  · rfl

/-! ## User agents -/

@[simp] theorem requestsByGR_addUserAgent (pack : RequestsPack) (req : ResourceRequest) :
    (pack.addUserAgent req).1.requestsByGR = pack.requestsByGR := by
  unfold addUserAgent
  split
  · split <;> rfl
  · split <;> rfl
  · rfl

theorem mem_userAgentPassed_addUserAgent {pack : RequestsPack} {req : ResourceRequest}
    {userAgent : String} :
    userAgent ∈ (pack.addUserAgent req).1.userAgentPassed ↔
      userAgent ∈ pack.userAgentPassed ∨ req.userAgentPassed = some userAgent := by
  unfold addUserAgent
  split
  · rename_i ua _ hua
    split
    · rename_i hc
      rw [hua, Option.some.injEq]
      exact ⟨.inl, fun h => h.elim id fun e => e ▸ Std.ExtTreeSet.contains_iff_mem.mp hc⟩
    · rw [hua, Option.some.injEq, StringSet.mem_insert_iff]
      tauto
  · rename_i hua _
    split <;> simp [hua]
  · rename_i hua _
    simp [hua]

/-- A user agent that is reported as passed is not also noted as denied. -/
theorem mem_userAgentDenied_addUserAgent {pack : RequestsPack} {req : ResourceRequest}
    {userAgent : String} :
    userAgent ∈ (pack.addUserAgent req).1.userAgentDenied ↔
      userAgent ∈ pack.userAgentDenied ∨
        req.userAgentPassed = none ∧ req.userAgentDenied = some userAgent := by
  unfold addUserAgent
  split
  · rename_i hua
    split <;> simp [hua]
  · rename_i ua hp hd
    split
    · rename_i hc
      rw [hp, hd, Option.some.injEq]
      exact ⟨.inl, fun h => h.elim id fun e => e.2 ▸ Std.ExtTreeSet.contains_iff_mem.mp hc⟩
    · rw [hp, hd, Option.some.injEq, StringSet.mem_insert_iff]
      tauto
  · rename_i hp hd
    simp [hp, hd]

/-! ## Whether anything changed -/

theorem addNamespaces_of_not_changed {recorded additional : StringSet}
    (h : (addNamespaces recorded additional).2 = false) :
    (addNamespaces recorded additional).1 = recorded := by
  by_cases hd : 0 < (additional \ recorded).size
  · simp [addNamespaces, hd] at h
  · simp [addNamespaces, hd]

theorem addUserAgent_of_not_changed {pack : RequestsPack} {req : ResourceRequest}
    (h : (pack.addUserAgent req).2 = false) : (pack.addUserAgent req).1 = pack := by
  unfold addUserAgent at h ⊢
  split
  · split
    · rfl
    · simp_all
  · split
    · rfl
    · simp_all
  · rfl

theorem mergeRequest_of_not_changed {r req : ResourceRequest} (h : (mergeRequest r req).2 = false) :
    (mergeRequest r req).1 = r := by
  simp only [mergeRequest, ne_eq, decide_not, Bool.or_eq_false_iff, Bool.not_eq_false',
    decide_eq_true_eq] at h
  obtain ⟨⟨hs, hp⟩, hd⟩ := h
  simp only [mergeRequest, addNamespaces_of_not_changed hp, addNamespaces_of_not_changed hd, ← hs]

theorem addRequest_of_not_changed {pack : RequestsPack} {req : ResourceRequest}
    (h : (pack.addRequest req).2 = false) : (pack.addRequest req).1 = pack := by
  by_cases hr : records req = true
  · cases hk : pack.requestsByGR[req.gr.toStr]? with
    | none => simp [addRequest, hr, hk] at h
    | some r =>
      simp only [addRequest, hr, hk, if_true] at h ⊢
      rw [mergeRequest_of_not_changed h]
      have hins : pack.requestsByGR.insert req.gr.toStr r = pack.requestsByGR := by
        apply Std.ExtTreeMap.ext_getElem?
        intro k
        rw [StringMap.getElem?_insert]
        split
        · rename_i e; rw [← e, hk]
        · rfl
      rw [hins]
  · simp [addRequest, hr]

/-- A history that is not written has not changed. -/
theorem add_of_not_changed {pack : RequestsPack} {req : Option ResourceRequest}
    (h : (pack.add req).2 = false) : (pack.add req).1 = pack := by
  cases req with
  | none => rfl
  | some req =>
    simp only [add, Bool.or_eq_false_iff] at h
    have hua := addUserAgent_of_not_changed h.1
    rw [hua] at h
    simp only [add, hua, addRequest_of_not_changed h.2]

/-! ## The union of the answers -/

/-- Every record stands under the string of its group-resource. -/
def WellKeyed (pack : RequestsPack) : Prop :=
  ∀ {key : String} {req : ResourceRequest},
    pack.requestsByGR[key]? = some req → req.gr.toStr = key ∧ req.gr.WellNamed

theorem wellKeyed_empty : empty.WellKeyed := fun h => by simp [empty] at h

theorem objectSelector_recorded (pack : RequestsPack) (req : ResourceRequest) :
    (pack.recorded req).objectSelector = req.objectSelector := by
  unfold recorded
  cases pack.requestsByGR[req.gr.toStr]? with
  | none => rfl
  | some r => rfl

theorem gr_recorded {pack : RequestsPack} (hk : pack.WellKeyed) {req : ResourceRequest}
    (hgr : req.gr.WellNamed) : (pack.recorded req).gr = req.gr := by
  unfold recorded
  split
  · rfl
  · rename_i r hr
    obtain ⟨hkey, hw⟩ := hk hr
    exact GroupResource.toStr_inj hw hgr hkey

theorem getElem?_add (pack : RequestsPack) (req : ResourceRequest) (key : String) :
    (pack.add (some req)).1.requestsByGR[key]? =
      if records req = true ∧ req.gr.toStr = key then some (pack.recorded req)
      else pack.requestsByGR[key]? := by
  have h := getElem?_addRequest (pack.addUserAgent req).1 req key
  simp only [recorded, requestsByGR_addUserAgent] at h
  exact h

theorem wellKeyed_add {pack : RequestsPack} (hk : pack.WellKeyed) {req : ResourceRequest}
    (hgr : records req = true → req.gr.WellNamed) : (pack.add (some req)).1.WellKeyed := by
  intro key r hr
  rw [getElem?_add] at hr
  split at hr
  · rename_i h
    cases hr
    rw [gr_recorded hk (hgr h.1)]
    exact ⟨h.2, hgr h.1⟩
  · exact hk hr

theorem mem_userAgentPassed_add {pack : RequestsPack} {req : ResourceRequest} {userAgent : String} :
    userAgent ∈ (pack.add (some req)).1.userAgentPassed ↔
      userAgent ∈ pack.userAgentPassed ∨ req.userAgentPassed = some userAgent := by
  have h := userAgentPassed_addRequest (pack.addUserAgent req).1 req
  exact h ▸ mem_userAgentPassed_addUserAgent

theorem mem_userAgentDenied_add {pack : RequestsPack} {req : ResourceRequest} {userAgent : String} :
    userAgent ∈ (pack.add (some req)).1.userAgentDenied ↔
      userAgent ∈ pack.userAgentDenied ∨
        req.userAgentPassed = none ∧ req.userAgentDenied = some userAgent := by
  have h := userAgentDenied_addRequest (pack.addUserAgent req).1 req
  exact h ▸ mem_userAgentDenied_addUserAgent

/-- A record that changes the history leaves it not empty. -/
theorem add_ne_empty {pack : RequestsPack} {req : Option ResourceRequest}
    (h : (pack.add req).2 = true) : (pack.add req).1 ≠ .empty := by
  cases req with
  | none => simp [add] at h
  | some req =>
    intro he
    have hp : req.userAgentPassed = none := by
      cases hua : req.userAgentPassed with
      | none => rfl
      | some userAgent =>
        have hmem : userAgent ∈ (pack.add (some req)).1.userAgentPassed :=
          mem_userAgentPassed_add.mpr (.inr hua)
        simp [he, empty] at hmem
    have hd : req.userAgentDenied = none := by
      cases hua : req.userAgentDenied with
      | none => rfl
      | some userAgent =>
        have hmem : userAgent ∈ (pack.add (some req)).1.userAgentDenied :=
          mem_userAgentDenied_add.mpr (.inr ⟨hp, hua⟩)
        simp [he, empty] at hmem
    have hr : records req ≠ true := fun hr => by
      have hget := getElem?_add pack req req.gr.toStr
      simp [he, hr, empty] at hget
    simp [add, addUserAgent, hp, hd, addRequest, hr] at h

/-- The record that is left reports what the history or the new record did. -/
theorem answers_recorded {pack : RequestsPack} (hk : pack.WellKeyed) {req : ResourceRequest}
    (hgr : req.gr.WellNamed) {qa : Question × Bool} (h : (pack.recorded req).Answers qa) :
    pack.Answers qa ∨ req.Answers qa := by
  unfold recorded at h
  split at h
  · exact .inr h
  · rename_i r hr
    have hgr' : r.gr = req.gr := GroupResource.toStr_inj (hk hr).2 hgr (hk hr).1
    cases h with
    | namespacePassed h =>
      rcases mem_namespacePassed_mergeRequest.mp h with h | h
      · exact .inl (.request hr (.namespacePassed h))
      · rw [gr_mergeRequest, hgr']; exact .inr (.namespacePassed h)
    | namespaceDenied h =>
      rcases mem_namespaceDenied_mergeRequest.mp h with h | h
      · exact .inl (.request hr (.namespaceDenied h))
      · rw [gr_mergeRequest, hgr']; exact .inr (.namespaceDenied h)
    | userAgentPassed h => exact .inl (.request hr (.userAgentPassed h))
    | userAgentDenied h => exact .inl (.request hr (.userAgentDenied h))

/-- The record that is left reports what the one before it under its string
did. -/
theorem answers_recorded_of_old {pack : RequestsPack} {req r : ResourceRequest}
    (hr : pack.requestsByGR[req.gr.toStr]? = some r) {qa : Question × Bool} (h : r.Answers qa) :
    (pack.recorded req).Answers qa := by
  rw [recorded, hr]
  cases h with
  | namespacePassed h => exact .namespacePassed (mem_namespacePassed_mergeRequest.mpr (.inl h))
  | namespaceDenied h => exact .namespaceDenied (mem_namespaceDenied_mergeRequest.mpr (.inl h))
  | userAgentPassed h => exact .userAgentPassed h
  | userAgentDenied h => exact .userAgentDenied h

theorem mem_namespacePassed_recorded {pack : RequestsPack} {req : ResourceRequest} {ns : String}
    (h : ns ∈ req.namespacePassed) : ns ∈ (pack.recorded req).namespacePassed := by
  unfold recorded
  split
  · exact h
  · exact mem_namespacePassed_mergeRequest.mpr (.inr h)

theorem mem_namespaceDenied_recorded {pack : RequestsPack} {req : ResourceRequest} {ns : String}
    (h : ns ∈ req.namespaceDenied) : ns ∈ (pack.recorded req).namespaceDenied := by
  unfold recorded
  split
  · exact h
  · exact mem_namespaceDenied_mergeRequest.mpr (.inr h)

theorem records_of_mem_passed {req : ResourceRequest} {ns : String} (h : ns ∈ req.namespacePassed) :
    records req = true := by
  have : 0 < req.namespacePassed.size := StringSet.size_pos_iff.mpr ⟨ns, h⟩
  simp [records, this]

theorem records_of_mem_denied {req : ResourceRequest} {ns : String} (h : ns ∈ req.namespaceDenied) :
    records req = true := by
  have : 0 < req.namespaceDenied.size := StringSet.size_pos_iff.mpr ⟨ns, h⟩
  simp [records, this]

/-- The answers of a record and of the history before it are in the history
after it. -/
theorem answers_subset_add {pack : RequestsPack} (hk : pack.WellKeyed) {req : ResourceRequest}
    (hgr : records req = true → req.gr.WellNamed) (hua : req.userAgentPassed = none ∨ req.userAgentDenied = none) :
    pack.answers ∪ req.answers ⊆ (pack.add (some req)).1.answers := by
  -- The record under the string of the request, where it records anything.
  have hrec (hr : records req = true) :
      (pack.add (some req)).1.requestsByGR[req.gr.toStr]? = some (pack.recorded req) := by
    rw [getElem?_add, if_pos ⟨hr, rfl⟩]
  have hgr' (hr : records req = true) := gr_recorded hk (hgr hr)
  rintro qa (h | h)
  · cases h with
    | @request key r _ h ha =>
      by_cases hkey : records req = true ∧ req.gr.toStr = key
      · obtain ⟨hr, rfl⟩ := hkey
        exact .request (hrec hr) (answers_recorded_of_old h ha)
      · have h' := getElem?_add pack req key
        rw [if_neg hkey, h] at h'
        exact .request h' ha
    | userAgentPassed h => exact .userAgentPassed (mem_userAgentPassed_add.mpr (.inl h))
    | userAgentDenied h => exact .userAgentDenied (mem_userAgentDenied_add.mpr (.inl h))
  · cases h with
    | namespacePassed h =>
      exact hgr' (records_of_mem_passed h) ▸ .request (hrec (records_of_mem_passed h))
        (.namespacePassed (mem_namespacePassed_recorded h))
    | namespaceDenied h =>
      exact hgr' (records_of_mem_denied h) ▸ .request (hrec (records_of_mem_denied h))
        (.namespaceDenied (mem_namespaceDenied_recorded h))
    | userAgentPassed h => exact .userAgentPassed (mem_userAgentPassed_add.mpr (.inr h))
    | userAgentDenied h =>
      have hp : req.userAgentPassed = none := by simpa [h] using hua
      exact .userAgentDenied (mem_userAgentDenied_add.mpr (.inr ⟨hp, h⟩))

/-- `add` adds the answers of a record to those of the history. -/
theorem answers_add {pack : RequestsPack} (hk : pack.WellKeyed) {req : ResourceRequest}
    (hgr : records req = true → req.gr.WellNamed) (hua : req.userAgentPassed = none ∨ req.userAgentDenied = none) :
    (pack.add (some req)).1.answers = pack.answers ∪ req.answers := by
  refine Set.Subset.antisymm ?_ (answers_subset_add hk hgr hua)
  rintro qa h
  cases h with
  | @request key r _ h ha =>
    rw [getElem?_add] at h
    split at h
    · rename_i hkey
      cases h
      exact answers_recorded hk (hgr hkey.1) ha
    · exact .inl (.request h ha)
  | userAgentPassed h =>
    rcases mem_userAgentPassed_add.mp h with h | h
    · exact .inl (.userAgentPassed h)
    · exact .inr (.userAgentPassed h)
  | userAgentDenied h =>
    rcases mem_userAgentDenied_add.mp h with h | ⟨-, h⟩
    · exact .inl (.userAgentDenied h)
    · exact .inr (.userAgentDenied h)

theorem answers_empty : empty.answers = ∅ := by
  ext qa
  simp only [Set.mem_empty_iff_false, iff_false]
  intro h
  cases h with
  | request h => simp [empty] at h
  | userAgentPassed h => simp [empty] at h
  | userAgentDenied h => simp [empty] at h

end RequestsPack

end CtrlMesh
