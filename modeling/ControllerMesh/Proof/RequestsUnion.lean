import ControllerMesh.Proof.RequestsStore

/-!
# The history as a union

What calls of `add` leave, over whole sequences of them. Each call only adds
(`mem_userAgentPassed_add`, `mem_setAt_add`), so the sets in the end are unions of
what was reported, in any order (`history_union`). A user agent that is denied does
not count where the same request reports one that passed.

* `add_changed_iff`: `changed`, which decides about writing the history, is true if
  and only if the history has changed;
* `add_add`: the same call again changes nothing.
-/

namespace CtrlMesh.RequestsPack

open Framework

/-! ## What changed -/

theorem addNamespaces_changed_iff {recorded additional : StringSet} :
    (addNamespaces recorded additional).2 = true ↔
      (addNamespaces recorded additional).1 ≠ recorded := by
  constructor
  · intro hchanged heq
    have hdiff : 0 < (additional \ recorded).size := by
      by_contra hnone
      simp [addNamespaces, hnone] at hchanged
    obtain ⟨ns, hns⟩ := StringSet.size_pos_iff.mp hdiff
    rw [Std.ExtTreeSet.mem_diff_iff] at hns
    have hadded : ns ∈ (addNamespaces recorded additional).1 := mem_addNamespaces.mpr (.inr hns.1)
    rw [heq] at hadded
    exact hns.2 hadded
  · intro hne
    by_contra hsame
    exact hne (addNamespaces_of_not_changed (by simpa using hsame))

theorem mergeRequest_changed {r req : ResourceRequest} (h : (mergeRequest r req).2 = true) :
    (mergeRequest r req).1 ≠ r := by
  intro heq
  simp only [mergeRequest, Bool.or_eq_true, decide_eq_true_eq] at h
  rcases h with (hselector | hpassed) | hdenied
  · exact hselector (congrArg ResourceRequest.objectSelector heq).symm
  · exact addNamespaces_changed_iff.mp hpassed (congrArg ResourceRequest.namespacePassed heq)
  · exact addNamespaces_changed_iff.mp hdenied (congrArg ResourceRequest.namespaceDenied heq)

theorem addRequest_changed {pack : RequestsPack} {req : ResourceRequest}
    (h : (pack.addRequest req).2 = true) :
    (pack.addRequest req).1.requestsByGR ≠ pack.requestsByGR := by
  intro heq
  have hr : records req = true := by
    by_contra hr
    simp [addRequest, hr] at h
  have hrecord : pack.requestsByGR[req.gr.toStr]? = some (pack.recorded req) := by
    rw [← heq, getElem?_addRequest, if_pos ⟨hr, rfl⟩]
  have hself : pack.recorded req = (mergeRequest (pack.recorded req) req).1 := by
    conv_lhs => rw [recorded, hrecord]
  refine mergeRequest_changed ?_ hself.symm
  simpa [addRequest, hr, hrecord] using h

theorem addUserAgent_changed {pack : RequestsPack} {req : ResourceRequest}
    (h : (pack.addUserAgent req).2 = true) :
    (pack.addUserAgent req).1.userAgentPassed ≠ pack.userAgentPassed ∨
      (pack.addUserAgent req).1.userAgentDenied ≠ pack.userAgentDenied := by
  cases hp : req.userAgentPassed with
  | some userAgent =>
    refine .inl fun heq => ?_
    have hmem : userAgent ∈ pack.userAgentPassed :=
      heq ▸ mem_userAgentPassed_addUserAgent.mpr (.inr hp)
    simp [addUserAgent, hp, hmem] at h
  | none =>
    cases hd : req.userAgentDenied with
    | some userAgent =>
      refine .inr fun heq => ?_
      have hmem : userAgent ∈ pack.userAgentDenied :=
        heq ▸ mem_userAgentDenied_addUserAgent.mpr (.inr ⟨hp, hd⟩)
      simp [addUserAgent, hp, hd, hmem] at h
    | none => simp [addUserAgent, hp, hd] at h

/-- The history is written if and only if it has changed. -/
theorem add_changed_iff {pack : RequestsPack} {req : Option ResourceRequest} :
    (pack.add req).2 = true ↔ (pack.add req).1 ≠ pack := by
  constructor
  · intro h heq
    cases req with
    | none => simp [add] at h
    | some req =>
      have hpassed : (pack.add (some req)).1.userAgentPassed =
          (pack.addUserAgent req).1.userAgentPassed := userAgentPassed_addRequest _ _
      have hdenied : (pack.add (some req)).1.userAgentDenied =
          (pack.addUserAgent req).1.userAgentDenied := userAgentDenied_addRequest _ _
      simp only [add, Bool.or_eq_true] at h
      rcases h with h | h
      · rcases addUserAgent_changed h with hne | hne
        · exact hne (by rw [← hpassed, heq])
        · exact hne (by rw [← hdenied, heq])
      · refine addRequest_changed h ?_
        rw [requestsByGR_addUserAgent]
        exact congrArg requestsByGR heq
  · intro hne
    by_contra hsame
    exact hne (add_of_not_changed (by simpa using hsame))

/-! ## The same call again -/

theorem mergeRequest_self {r req : ResourceRequest} (hselector : r.objectSelector = req.objectSelector)
    (hpassed : ∀ ns ∈ req.namespacePassed, ns ∈ r.namespacePassed)
    (hdenied : ∀ ns ∈ req.namespaceDenied, ns ∈ r.namespaceDenied) : (mergeRequest r req).1 = r := by
  have hset {recorded additional : StringSet} (h : ∀ ns ∈ additional, ns ∈ recorded) :
      (addNamespaces recorded additional).1 = recorded := by
    refine Std.ExtTreeSet.ext_mem fun ns => ?_
    rw [mem_addNamespaces]
    exact ⟨fun hns => hns.elim id (h ns), .inl⟩
  simp only [mergeRequest, hset hpassed, hset hdenied, ← hselector]

/-- A record under which the same request is merged again stays. -/
theorem recorded_add (pack : RequestsPack) {req : ResourceRequest} (hr : records req = true) :
    (pack.add (some req)).1.recorded req = pack.recorded req := by
  have hrecord := getElem?_add pack req req.gr.toStr
  rw [if_pos ⟨hr, rfl⟩] at hrecord
  conv_lhs => rw [recorded, hrecord]
  exact mergeRequest_self (objectSelector_recorded pack req)
    (fun _ => mem_namespacePassed_recorded) fun _ => mem_namespaceDenied_recorded

theorem add_add (pack : RequestsPack) (req : Option ResourceRequest) :
    (pack.add req).1.add req = ((pack.add req).1, false) := by
  have hsame : ((pack.add req).1.add req).1 = (pack.add req).1 := by
    cases req with
    | none => rfl
    | some req =>
      have hpassed : ((pack.add (some req)).1.add (some req)).1.userAgentPassed =
          (pack.add (some req)).1.userAgentPassed := by
        refine Std.ExtTreeSet.ext_mem fun userAgent => ?_
        simp only [mem_userAgentPassed_add]
        tauto
      have hdenied : ((pack.add (some req)).1.add (some req)).1.userAgentDenied =
          (pack.add (some req)).1.userAgentDenied := by
        refine Std.ExtTreeSet.ext_mem fun userAgent => ?_
        simp only [mem_userAgentDenied_add]
        tauto
      have hrequests : ((pack.add (some req)).1.add (some req)).1.requestsByGR =
          (pack.add (some req)).1.requestsByGR := by
        refine Std.ExtTreeMap.ext_getElem? fun key => ?_
        rw [getElem?_add]
        by_cases hkey : records req = true ∧ req.gr.toStr = key
        · rw [if_pos hkey, recorded_add pack hkey.1, getElem?_add, if_pos hkey]
        · rw [if_neg hkey]
      generalize ((pack.add (some req)).1.add (some req)).1 = again at hpassed hdenied hrequests ⊢
      obtain ⟨requestsByGR, userAgentPassed, userAgentDenied⟩ := again
      dsimp only at hpassed hdenied hrequests
      rw [hpassed, hdenied, hrequests]
  refine Prod.ext hsame ?_
  by_contra hchanged
  exact add_changed_iff.mp (by simpa using hchanged) hsame

/-! ## Sequences of calls -/

/-- The history after calls of `add`. -/
def addAll (pack : RequestsPack) (reqs : List (Option ResourceRequest)) : RequestsPack :=
  reqs.foldl (fun pack req => (pack.add req).1) pack

/-- A namespace set of the record of a group-resource; without a record it is empty. -/
def setAt (f : ResourceRequest → StringSet) (pack : RequestsPack) (gr : GroupResource) : StringSet :=
  (pack.requestsByGR[gr.toStr]?.map f).getD ∅

/-- A namespace set that is merged as a union, and that a request with members is recorded
for. -/
structure MergedSet (f : ResourceRequest → StringSet) : Prop where
  merge (r req : ResourceRequest) (ns : String) : ns ∈ f (mergeRequest r req).1 ↔ ns ∈ f r ∨ ns ∈ f req
  records (req : ResourceRequest) (ns : String) (h : ns ∈ f req) : RequestsPack.records req = true

theorem mergedSet_passed : MergedSet (·.namespacePassed) :=
  ⟨fun _ _ _ => mem_namespacePassed_mergeRequest, fun _ _ => records_of_mem_passed⟩

theorem mergedSet_denied : MergedSet (·.namespaceDenied) :=
  ⟨fun _ _ _ => mem_namespaceDenied_mergeRequest, fun _ _ => records_of_mem_denied⟩

theorem mem_setAt_add {f : ResourceRequest → StringSet} (hf : MergedSet f) (gr : GroupResource)
    (ns : String) (pack : RequestsPack) (req : Option ResourceRequest) :
    ns ∈ setAt f (pack.add req).1 gr ↔
      ns ∈ setAt f pack gr ∨ ∃ r, req = some r ∧ r.gr.toStr = gr.toStr ∧ ns ∈ f r := by
  cases req with
  | none => simp [add]
  | some req =>
    simp only [Option.some.injEq, exists_eq_left']
    unfold setAt
    rw [getElem?_add]
    by_cases hkey : records req = true ∧ req.gr.toStr = gr.toStr
    · rw [if_pos hkey, recorded, hkey.2]
      cases pack.requestsByGR[gr.toStr]? with
      | none => simp
      | some r => simp [hf.merge]
    · rw [if_neg hkey]
      have hnone : ¬(req.gr.toStr = gr.toStr ∧ ns ∈ f req) :=
        fun h => hkey ⟨hf.records req ns h.2, h.1⟩
      simp [hnone]

/-- What calls from the empty history leave, if it is something that a call can only add
to. -/
theorem addAll_gains {P : RequestsPack → Prop} {Q : ResourceRequest → Prop} (hempty : ¬P empty)
    (hadd : ∀ pack req, P (pack.add req).1 ↔ P pack ∨ ∃ r, req = some r ∧ Q r)
    (reqs : List (Option ResourceRequest)) : P (empty.addAll reqs) ↔ ∃ r, some r ∈ reqs ∧ Q r := by
  rw [addAll, foldl_gains hadd, or_iff_right hempty]
  constructor
  · rintro ⟨req, hreq, r, rfl, hr⟩
    exact ⟨r, hreq, hr⟩
  · rintro ⟨r, hreq, hr⟩
    exact ⟨some r, hreq, r, rfl, hr⟩

theorem mem_setAt_addAll {f : ResourceRequest → StringSet} (hf : MergedSet f) (gr : GroupResource)
    (ns : String) (reqs : List (Option ResourceRequest)) :
    ns ∈ setAt f (empty.addAll reqs) gr ↔
      ∃ r, some r ∈ reqs ∧ r.gr.toStr = gr.toStr ∧ ns ∈ f r :=
  addAll_gains (P := (ns ∈ setAt f · gr)) (by simp [setAt, empty]) (mem_setAt_add hf gr ns) reqs

theorem mem_userAgentPassed_addAll (userAgent : String) (reqs : List (Option ResourceRequest)) :
    userAgent ∈ (empty.addAll reqs).userAgentPassed ↔
      ∃ r, some r ∈ reqs ∧ r.userAgentPassed = some userAgent := by
  refine addAll_gains (P := (userAgent ∈ ·.userAgentPassed)) (by simp [empty]) ?_ reqs
  intro pack req
  cases req with
  | none => simp [add]
  | some req => simp [mem_userAgentPassed_add]

theorem mem_userAgentDenied_addAll (userAgent : String) (reqs : List (Option ResourceRequest)) :
    userAgent ∈ (empty.addAll reqs).userAgentDenied ↔
      ∃ r, some r ∈ reqs ∧ r.userAgentPassed = none ∧ r.userAgentDenied = some userAgent := by
  refine addAll_gains (P := (userAgent ∈ ·.userAgentDenied)) (by simp [empty]) ?_ reqs
  intro pack req
  cases req with
  | none => simp [add]
  | some req => simp [mem_userAgentDenied_add]

/-- The history is the union of the requests. The strings of their group-resources have to
be distinct from that of another one. -/
structure IsUnionOf (pack : RequestsPack) (reqs : List (Option ResourceRequest)) : Prop where
  userAgentPassed (userAgent : String) : userAgent ∈ pack.userAgentPassed ↔
    ∃ r, some r ∈ reqs ∧ r.userAgentPassed = some userAgent
  /-- A user agent counts as denied if the request does not report one that passed. -/
  userAgentDenied (userAgent : String) : userAgent ∈ pack.userAgentDenied ↔
    ∃ r, some r ∈ reqs ∧ r.userAgentPassed = none ∧ r.userAgentDenied = some userAgent
  namespacePassed (gr : GroupResource)
    (hgr : ∀ r, some r ∈ reqs → r.gr.toStr = gr.toStr → r.gr = gr) (ns : String) :
    ns ∈ setAt (·.namespacePassed) pack gr ↔ ∃ r, some r ∈ reqs ∧ r.gr = gr ∧ ns ∈ r.namespacePassed
  namespaceDenied (gr : GroupResource)
    (hgr : ∀ r, some r ∈ reqs → r.gr.toStr = gr.toStr → r.gr = gr) (ns : String) :
    ns ∈ setAt (·.namespaceDenied) pack gr ↔ ∃ r, some r ∈ reqs ∧ r.gr = gr ∧ ns ∈ r.namespaceDenied

theorem mem_setAt_addAll_of_distinct {f : ResourceRequest → StringSet} (hf : MergedSet f)
    {gr : GroupResource} {reqs : List (Option ResourceRequest)}
    (hgr : ∀ r, some r ∈ reqs → r.gr.toStr = gr.toStr → r.gr = gr) (ns : String) :
    ns ∈ setAt f (empty.addAll reqs) gr ↔ ∃ r, some r ∈ reqs ∧ r.gr = gr ∧ ns ∈ f r := by
  rw [mem_setAt_addAll hf]
  constructor
  · rintro ⟨r, hr, hkey, hns⟩
    exact ⟨r, hr, hgr r hr hkey, hns⟩
  · rintro ⟨r, hr, rfl, hns⟩
    exact ⟨r, hr, rfl, hns⟩

theorem isUnionOf_addAll (reqs : List (Option ResourceRequest)) :
    (empty.addAll reqs).IsUnionOf reqs where
  userAgentPassed userAgent := mem_userAgentPassed_addAll userAgent reqs
  userAgentDenied userAgent := mem_userAgentDenied_addAll userAgent reqs
  namespacePassed _ hgr ns := mem_setAt_addAll_of_distinct mergedSet_passed hgr ns
  namespaceDenied _ hgr ns := mem_setAt_addAll_of_distinct mergedSet_denied hgr ns

/-- Any sequence of calls from the empty history, in any order, leaves the union of what
was reported. Whatever the history is, a call writes it if and only if it changes it,
and the same call again changes nothing. -/
theorem history_union {reqs reqs' : List (Option ResourceRequest)} (hperm : reqs.Perm reqs') :
    (empty.addAll reqs').IsUnionOf reqs ∧
      (∀ (sm : SpecManager) req, (sm.releaseSpec req).storage =
        if (sm.releaseSpec req).requestsStore = sm.requestsStore then sm.storage
        else sm.storage.writeHistoryRequests (sm.releaseSpec req).requestsStore) ∧
      ∀ (pack : RequestsPack) req, ((pack.add req).2 = true ↔ (pack.add req).1 ≠ pack) ∧
        (pack.add req).1.add req = ((pack.add req).1, false) := by
  refine ⟨?_, fun sm req => ?_, fun pack req => ⟨add_changed_iff, add_add pack req⟩⟩
  · have hunion := isUnionOf_addAll reqs'
    refine ⟨?_, ?_, ?_, ?_⟩
    · simpa only [hperm.mem_iff] using hunion.userAgentPassed
    · simpa only [hperm.mem_iff] using hunion.userAgentDenied
    · simpa only [hperm.mem_iff] using hunion.namespacePassed
    · simpa only [hperm.mem_iff] using hunion.namespaceDenied
  · show (if (sm.requestsStore.add req).2 then _ else _) = ite ((sm.requestsStore.add req).1 = _) _ _
    by_cases hchanged : (sm.requestsStore.add req).2 = true
    · rw [if_pos hchanged, if_neg (add_changed_iff.mp hchanged)]
      rfl
    · have hsame : (sm.requestsStore.add req).1 = sm.requestsStore :=
        add_of_not_changed (by simpa using hchanged)
      rw [if_neg hchanged, if_pos hsame]

/-- A request that passed in a namespace, after one that was denied another. -/
theorem history_union_sampleRequests :
    (empty.addAll [some { gr := ⟨"", "pods"⟩, namespaceDenied := {"ns-b"} },
      some { gr := ⟨"", "pods"⟩, namespacePassed := {"ns-a"} }]).IsUnionOf
        [some { gr := ⟨"", "pods"⟩, namespacePassed := {"ns-a"} },
          some { gr := ⟨"", "pods"⟩, namespaceDenied := {"ns-b"} }] :=
  (history_union (.swap _ _ [])).1

/-- A request with a user agent that passed and another one that was denied. -/
def sampleMixedRequest : ResourceRequest where
  gr := ⟨"", "pods"⟩
  userAgentPassed := some "manager"
  userAgentDenied := some "kubectl"

/-- The user agent that was denied is lost. -/
theorem userAgentDenied_lost_sampleMixedRequest :
    "kubectl" ∉ (empty.addAll [some sampleMixedRequest]).userAgentDenied := by
  decide +kernel

end CtrlMesh.RequestsPack
