import ControllerMesh.Proof.Ownership

/-!
# At most one owner, and when there is one

What follows from `Accepted.ownedBy` for the specs that one Reconcile builds,
which differ in their subset only:

* `determineNamespaceSubset_first_match`: which subset owns a namespace;
* `exists_isNamespaceMatch_iff`: when some spec matches it;
* `isNamespaceMatch_atMostOne_iff`: when no two do.
-/

namespace CtrlMesh

open Framework

namespace VirtualApp

variable {vApp : VirtualApp} {gr : GroupResource} {P Q : MatchLimitSelector → Prop}

/-! ## The owner is unique -/

theorem Takes.hasSelector {s : VirtualAppSubset} (h : vApp.Takes gr P s) :
    vApp.HasSelector gr s :=
  let ⟨ms, hms, happ, _⟩ := h
  ⟨ms, hms, happ⟩

theorem FirstTakes.mem {s : VirtualAppSubset} (h : vApp.FirstTakes gr P s) : s ∈ vApp.subsets := by
  obtain ⟨before, after, hsplit, -⟩ := h
  rw [hsplit]
  exact List.mem_append_right _ List.mem_cons_self

theorem FirstTakes.takes {s : VirtualAppSubset} (h : vApp.FirstTakes gr P s) : vApp.Takes gr P s :=
  let ⟨_, _, _, htake, _⟩ := h
  htake

theorem FirstTakes.unique {s t : VirtualAppSubset} (hs : vApp.FirstTakes gr P s)
    (ht : vApp.FirstTakes gr P t) : s = t := by
  classical
  have find {s : VirtualAppSubset} (h : vApp.FirstTakes gr P s) :
      vApp.subsets.find? (decide <| vApp.Takes gr P ·) = some s := by
    obtain ⟨before, after, hsplit, htake, hbefore⟩ := h
    exact List.find?_eq_some_iff_append.mpr
      ⟨decide_eq_true htake, before, after, hsplit, fun t ht => by simpa using hbefore t ht⟩
  exact Option.some.inj ((find hs).symm.trans (find ht))

/-- There is one owner. -/
theorem OwnedBy.unique {o o' : Option String} (h : vApp.OwnedBy gr P Q o)
    (h' : vApp.OwnedBy gr P Q o') : o = o' := by
  have habs {s : VirtualAppSubset} {c : Prop} (hs : vApp.FirstTakes gr P s)
      (hno : ∀ t ∈ vApp.subsets, ¬vApp.Takes gr P t) : c := absurd hs.takes (hno s hs.mem)
  cases h with
  | limited hl =>
    cases h' with
    | limited => rfl
    | nobody => rfl
    | declared ha => exact absurd ha hl
    | leftover ha => exact absurd ha hl
    | shared ha => exact absurd ha hl
  | declared ha s hs =>
    cases h' with
    | limited hl => exact absurd ha hl
    | declared _ t ht => rw [hs.unique ht]
    | leftover _ hP => exact habs hs hP
    | shared _ _ hno => exact absurd hs.takes.hasSelector (hno s hs.mem)
    | nobody _ hP => exact habs hs hP
  | leftover ha hP hQ =>
    obtain ⟨s, hs, htake⟩ := hQ
    cases h' with
    | limited hl => exact absurd ha hl
    | declared _ t ht => exact habs ht hP
    | leftover => rfl
    | shared _ _ hno => exact absurd htake.hasSelector (hno s hs)
    | nobody _ _ hQ' => exact absurd htake (hQ' s hs)
  | shared ha hpub hno =>
    cases h' with
    | limited hl => exact absurd ha hl
    | declared _ t ht => exact absurd ht.takes.hasSelector (hno t ht.mem)
    | leftover _ _ hQ =>
      obtain ⟨s, hs, htake⟩ := hQ
      exact absurd htake.hasSelector (hno s hs)
    | shared => rfl
    | nobody _ _ _ h =>
      obtain ⟨s, hs, hsel⟩ := h hpub
      exact absurd hsel (hno s hs)
  | nobody ha hP hQ hpub =>
    cases h' with
    | limited => rfl
    | declared _ t ht => exact habs ht hP
    | leftover _ _ hQ' =>
      obtain ⟨s, hs, htake⟩ := hQ'
      exact absurd htake (hQ s hs)
    | shared _ h hno =>
      obtain ⟨s, hs, hsel⟩ := hpub h
      exact absurd hsel (hno s hs)
    | nobody => rfl

end VirtualApp

/-! ## A namespace of the list -/

namespace MatchLimitSelector

variable {lib : Lib} {namespaces : List Namespace} {n : Namespace}

/-- Names tell namespaces apart, so a name is listed where its namespace is
matched. -/
theorem listed_iff (hnodup : (namespaces.map (·.name)).Nodup) (hn : n ∈ namespaces)
    (ms : MatchLimitSelector) :
    ms.Listed lib namespaces n.name ↔ isNamespaceMatched lib ms n = true := by
  refine ⟨fun ⟨ns, hns, hname, hm⟩ => ?_, fun hm => ⟨n, hn, rfl, hm⟩⟩
  rwa [List.inj_on_of_nodup_map hnodup hns hn hname] at hm

/-- Whatever the list, a name in it is listed or not. -/
theorem listed_or_unlisted (lib : Lib) (hn : n ∈ namespaces) (ms : MatchLimitSelector) :
    ms.Listed lib namespaces n.name ∨ ms.Unlisted lib namespaces n.name := by
  cases hm : isNamespaceMatched lib ms n with
  | true => exact .inl ⟨n, hn, rfl, hm⟩
  | false => exact .inr ⟨n, hn, rfl, hm⟩

end MatchLimitSelector

namespace VirtualApp

variable {vApp : VirtualApp} {gr : GroupResource} {P Q : MatchLimitSelector → Prop}

/-- A selector for `gr` takes or leaves. -/
theorem HasSelector.takes_or (hPQ : ∀ ms, P ms ∨ Q ms) {s : VirtualAppSubset}
    (h : vApp.HasSelector gr s) : vApp.Takes gr P s ∨ vApp.Takes gr Q s := by
  obtain ⟨ms, hms, happ⟩ := h
  exact (hPQ ms).imp (fun hm => ⟨ms, hms, happ, hm⟩) fun hm => ⟨ms, hms, happ, hm⟩

/-- What is matched or not is left to nobody only where no subset has a
selector. -/
theorem exists_takes_iff (hPQ : ∀ ms, P ms ∨ Q ms)
    (hP : ∀ s ∈ vApp.subsets, ¬vApp.Takes gr P s) :
    (∃ s ∈ vApp.subsets, vApp.Takes gr Q s) ↔ ∃ s ∈ vApp.subsets, vApp.HasSelector gr s := by
  refine exists_congr fun s => and_congr_right fun hs => ⟨Takes.hasSelector, fun h => ?_⟩
  exact (h.takes_or hPQ).resolve_left (hP s hs)

namespace OwnedBy

variable {o : Option String}

theorem eq_none_iff (hPQ : ∀ ms, P ms ∨ Q ms) (h : vApp.OwnedBy gr P Q o) :
    o = none ↔
      ¬vApp.Admits gr P ∨ ¬vApp.Public gr ∧ ∀ s ∈ vApp.subsets, ¬vApp.HasSelector gr s := by
  constructor
  · intro ho
    cases h with
    | limited hl => exact .inl hl
    | nobody _ hP hQ hpub =>
      have hno : ¬∃ s ∈ vApp.subsets, vApp.HasSelector gr s := by
        rw [← exists_takes_iff hPQ hP]
        intro h
        obtain ⟨s, hs, htake⟩ := h
        exact hQ s hs htake
      exact .inr ⟨fun hp => hno (hpub hp), fun s hs hsel => hno ⟨s, hs, hsel⟩⟩
    | declared => cases ho
    | leftover => cases ho
    | shared => cases ho
  · rintro (hl | ⟨hp, hno⟩)
    · exact h.unique (.limited hl)
    · by_cases ha : vApp.Admits gr P
      · exact h.unique (.nobody ha (fun s hs ht => hno s hs ht.hasSelector)
          (fun s hs ht => hno s hs ht.hasSelector) fun hpub => absurd hpub hp)
      · exact h.unique (.limited ha)

theorem eq_some_name_iff (hacc : vApp.Accepted)
    (hpublic : ∀ s ∈ vApp.subsets, s.name ≠ AllSubsetPublic) (h : vApp.OwnedBy gr P Q o)
    {s : VirtualAppSubset} (hs : s ∈ vApp.subsets) :
    o = some s.name ↔ vApp.Admits gr P ∧ vApp.FirstTakes gr P s := by
  constructor
  · intro ho
    cases h with
    | limited => cases ho
    | nobody => cases ho
    | declared ha t ht =>
      rw [← hacc.eq_of_name_eq ht.mem hs (Option.some.inj ho)]
      exact ⟨ha, ht⟩
    | leftover => exact absurd (Option.some.inj ho).symm (hacc.ne_empty s hs)
    | shared => exact absurd (Option.some.inj ho).symm (hpublic s hs)
  · intro ⟨ha, ht⟩
    exact h.unique (.declared ha s ht)

theorem eq_some_empty_iff (hacc : vApp.Accepted) (hPQ : ∀ ms, P ms ∨ Q ms)
    (h : vApp.OwnedBy gr P Q o) :
    o = some "" ↔
      vApp.Admits gr P ∧ (∀ s ∈ vApp.subsets, ¬vApp.Takes gr P s) ∧
        ∃ s ∈ vApp.subsets, vApp.HasSelector gr s := by
  constructor
  · intro ho
    cases h with
    | limited => cases ho
    | nobody => cases ho
    | declared _ t ht => exact absurd (Option.some.inj ho) (hacc.ne_empty t ht.mem)
    | leftover ha hP hQ => exact ⟨ha, hP, (exists_takes_iff hPQ hP).mp hQ⟩
    | shared => exact absurd (Option.some.inj ho) (by decide)
  · intro ⟨ha, hP, hsel⟩
    exact h.unique (.leftover ha hP ((exists_takes_iff hPQ hP).mpr hsel))

theorem eq_some_public_iff (hpublic : ∀ s ∈ vApp.subsets, s.name ≠ AllSubsetPublic)
    (h : vApp.OwnedBy gr P Q o) :
    o = some AllSubsetPublic ↔
      vApp.Admits gr P ∧ vApp.Public gr ∧ ∀ s ∈ vApp.subsets, ¬vApp.HasSelector gr s := by
  constructor
  · intro ho
    cases h with
    | limited => cases ho
    | nobody => cases ho
    | declared _ t ht => exact absurd (Option.some.inj ho) (hpublic t ht.mem)
    | leftover => exact absurd (Option.some.inj ho) (by decide)
    | shared ha hpub hno => exact ⟨ha, hpub, hno⟩
  · intro ⟨ha, hpub, hno⟩
    exact h.unique (.shared ha hpub hno)

end OwnedBy

end VirtualApp

/-! ## First-match ownership -/

section

variable {lib : Lib} {vApp : VirtualApp} {namespaces : List Namespace}

/-- The subset that a proxy determines for a namespace is the first declared
subset that takes it, or the default subset where the declared ones have
selectors for the resource that do not take it, or all subsets where the
resource is public and none has a selector for it. -/
theorem determineNamespaceSubset_first_match (hv : validate lib vApp = .ok ())
    (hpublic : ∀ s ∈ vApp.subsets, s.name ≠ AllSubsetPublic)
    (hnodup : (namespaces.map (·.name)).Nodup) (hne : ∀ ns ∈ namespaces, ns.name ≠ "")
    (unmarshal : String → LabelSelector) (hash : String) (endpoints : List EndpointV1)
    (subset : String) (gr : GroupResource) {n : Namespace} (hn : n ∈ namespaces) :
    let owner := (convertProtoSpecToInternal unmarshal (newSpec vApp hash
      (generateProtoRoute lib vApp namespaces) endpoints
        subset)).routeInternal.determineNamespaceSubset n.name gr
    let Matches := fun ms => isNamespaceMatched lib ms n = true
    (owner = none ↔
      ¬vApp.Admits gr Matches ∨ ¬vApp.Public gr ∧ ∀ s ∈ vApp.subsets, ¬vApp.HasSelector gr s) ∧
    (∀ s ∈ vApp.subsets, owner = some s.name ↔
      vApp.Admits gr Matches ∧ vApp.FirstTakes gr Matches s) ∧
    (owner = some "" ↔
      vApp.Admits gr Matches ∧ (∀ s ∈ vApp.subsets, ¬vApp.Takes gr Matches s) ∧
        ∃ s ∈ vApp.subsets, vApp.HasSelector gr s) ∧
    (owner = some AllSubsetPublic ↔
      vApp.Admits gr Matches ∧ vApp.Public gr ∧ ∀ s ∈ vApp.subsets, ¬vApp.HasSelector gr s) := by
  intro owner Matches
  have hacc := accepted_of_validate hv
  have hPQ (ms : MatchLimitSelector) : Matches ms ∨ ms.Unlisted lib namespaces n.name :=
    (ms.listed_or_unlisted lib hn).imp_left (ms.listed_iff hnodup hn).mp
  have howned : vApp.OwnedBy gr _ _ owner :=
    hacc.ownedBy lib namespaces unmarshal n.name gr (hne n hn) subset
  have hlisted : (fun ms : MatchLimitSelector => ms.Listed lib namespaces n.name) = Matches :=
    funext fun ms => propext (MatchLimitSelector.listed_iff hnodup hn ms)
  rw [hlisted] at howned
  exact ⟨howned.eq_none_iff hPQ, fun s hs => howned.eq_some_name_iff hacc hpublic hs,
    howned.eq_some_empty_iff hacc hPQ, howned.eq_some_public_iff hpublic⟩

end

/-- Library functions for selectors that parse. -/
def sampleLib : Lib where
  labelSelectorAsSelector := validatedLabelSelectorAsSelector
  regexpCompile text := .ok (· == text)

def sampleSelector (key value : String) : LabelSelector := ⟨some {(key, value)}, none⟩

/-- An application with a subset `name` for the namespaces of a team. -/
def sampleVApp (name : String) : VirtualApp where
  name := "app"
  selector := some (sampleSelector "app" "app")
  configuration := some ⟨some ⟨"app-leader"⟩, none⟩
  route := some
    { subRules := [⟨"team", [{ namespaceSelector := some (sampleSelector "team" "a") }]⟩] }
  subsets := [⟨name, {("version", "canary")}, ["team"]⟩]

def sampleNamespaces : List Namespace := [⟨"ns-a", {("team", "a")}, false⟩, ⟨"ns-b", ∅, false⟩]

def sampleConfigMaps : GroupResource := ⟨"", "configmaps"⟩

theorem takes_sampleVApp (name : String) :
    (sampleVApp name).FirstTakes sampleConfigMaps
      (isNamespaceMatched sampleLib · ⟨"ns-a", {("team", "a")}, false⟩ = true)
      ⟨name, {("version", "canary")}, ["team"]⟩ := by
  refine ⟨[], [], rfl, ?_, by simp⟩
  refine ⟨{ namespaceSelector := some (sampleSelector "team" "a") }, ?_, ?_, by decide +kernel⟩
  · exact ⟨_, List.mem_cons_self, List.mem_cons_self, List.mem_cons_self⟩
  · exact ⟨.inl rfl, .inr ⟨rfl, nofun⟩⟩

/-- The team's namespaces belong to the canary. -/
theorem determineNamespaceSubset_sampleVApp :
    (convertProtoSpecToInternal LabelSelector.ofJSON (newSpec (sampleVApp "canary") "h"
      (generateProtoRoute sampleLib (sampleVApp "canary") sampleNamespaces) []
        "")).routeInternal.determineNamespaceSubset "ns-a" sampleConfigMaps = some "canary" := by
  refine ((determineNamespaceSubset_first_match (by decide +kernel) ?_ ?_ ?_
    LabelSelector.ofJSON "h" [] "" sampleConfigMaps (n := ⟨"ns-a", {("team", "a")}, false⟩)
      List.mem_cons_self).2.1 _ List.mem_cons_self).mpr ⟨?_, takes_sampleVApp "canary"⟩
  · decide +kernel
  · decide +kernel
  · decide +kernel
  · exact fun ms hms => absurd hms (by simp [sampleVApp])

/-! ## Whether there is an owner -/

/-- A spec matches the namespaces of its own subset and those of all subsets. -/
theorem InternalSpec.isNamespaceMatch_eq (spec : InternalSpec) (name : String)
    (gr : GroupResource) :
    spec.isNamespaceMatch name gr = (spec.routeInternal.determineNamespaceSubset name gr).any
      fun owner => owner == AllSubsetPublic || owner == spec.routeInternal.subset := by
  rw [isNamespaceMatch]
  cases spec.routeInternal.determineNamespaceSubset name gr with
  | none => rfl
  | some owner => rfl

section

variable {lib : Lib} {vApp : VirtualApp} {namespaces : List Namespace}

/-- The specs of one Reconcile agree on the owner, and match if they are for its
subset. -/
theorem isNamespaceMatch_newSpec (lib : Lib) (vApp : VirtualApp) (namespaces : List Namespace)
    (unmarshal : String → LabelSelector) (hash : String) (endpoints : List EndpointV1)
    (name subset : String) (gr : GroupResource) :
    (convertProtoSpecToInternal unmarshal (newSpec vApp hash
        (generateProtoRoute lib vApp namespaces) endpoints subset)).isNamespaceMatch name gr =
      ((convertProtoRouteToInternal unmarshal { generateProtoRoute lib vApp namespaces with
        subset := "" }).determineNamespaceSubset name gr).any
          fun owner => owner == AllSubsetPublic || owner == subset := by
  exact InternalSpec.isNamespaceMatch_eq _ name gr

/-- A namespace that the global limits admit has an owner exactly if it is
unnamed, the resource is public or some declared subset has a selector for the
resource: where the rules say nothing about a resource, it is ignored and not
left to the default subset. -/
theorem exists_isNamespaceMatch_iff (hv : validate lib vApp = .ok ())
    (unmarshal : String → LabelSelector) (hash : String) (endpoints : List EndpointV1)
    (gr : GroupResource) {n : Namespace} (hn : n ∈ namespaces)
    (hadm : vApp.Admits gr (isNamespaceMatched lib · n = true)) :
    (∃ x ∈ vApp.subsetNames, (convertProtoSpecToInternal unmarshal (newSpec vApp hash
        (generateProtoRoute lib vApp namespaces) endpoints x)).isNamespaceMatch n.name gr = true) ↔
      n.name = "" ∨ vApp.Public gr ∨ ∃ s ∈ vApp.subsets, vApp.HasSelector gr s := by
  simp only [isNamespaceMatch_newSpec]
  by_cases hname : n.name = ""
  · have hdefault : "" ∈ vApp.subsetNames := List.mem_cons_self
    simp only [hname, InternalRoute.determineNamespaceSubset, if_true, Option.any_some, true_or,
      iff_true]
    exact ⟨"", hdefault, rfl⟩
  · have hacc := accepted_of_validate hv
    have hadm' : vApp.Admits gr (·.Listed lib namespaces n.name) :=
      fun ms hms happ => ⟨n, hn, rfl, hadm ms hms happ⟩
    have howned := hacc.ownedBy lib namespaces unmarshal n.name gr hname ""
    revert howned
    generalize InternalRoute.determineNamespaceSubset _ n.name gr = owner
    intro howned
    cases howned with
    | limited hl => exact absurd hadm' hl
    | declared _ s hs =>
      have hx : s.name ∈ vApp.subsetNames :=
        List.mem_cons_of_mem _ (List.mem_map_of_mem hs.mem)
      exact iff_of_true ⟨s.name, hx, by simp⟩ (.inr (.inr ⟨s, hs.mem, hs.takes.hasSelector⟩))
    | leftover _ _ hQ =>
      obtain ⟨s, hs, htake⟩ := hQ
      exact iff_of_true ⟨"", List.mem_cons_self, rfl⟩ (.inr (.inr ⟨s, hs, htake.hasSelector⟩))
    | shared _ hpub => exact iff_of_true ⟨"", List.mem_cons_self, rfl⟩ (.inr (.inl hpub))
    | nobody _ hP hQ hpub =>
      have hno : ¬∃ s ∈ vApp.subsets, vApp.HasSelector gr s := by
        rw [← VirtualApp.exists_takes_iff (MatchLimitSelector.listed_or_unlisted lib hn) hP]
        intro h
        obtain ⟨s, hs, htake⟩ := h
        exact hQ s hs htake
      refine iff_of_false (by simp) ?_
      rintro (h | h | h)
      · exact hname h
      · exact hno (hpub h)
      · exact hno h

end

/-- An application without subsets. -/
def samplePlainVApp : VirtualApp := { sampleVApp "" with route := none, subsets := [] }

/-- Without subsets the default one does not match. -/
theorem not_isNamespaceMatch_samplePlainVApp :
    validate sampleLib samplePlainVApp = .ok () ∧ sampleNamespaces ≠ [] ∧
      (∀ n ∈ sampleNamespaces,
        samplePlainVApp.Admits sampleConfigMaps (isNamespaceMatched sampleLib · n = true)) ∧
      ∀ n ∈ sampleNamespaces, ∀ x ∈ samplePlainVApp.subsetNames,
        (convertProtoSpecToInternal LabelSelector.ofJSON (newSpec samplePlainVApp "h"
          (generateProtoRoute sampleLib samplePlainVApp sampleNamespaces) [] x)).isNamespaceMatch
            n.name sampleConfigMaps = false := by
  refine ⟨by decide +kernel, by decide +kernel, fun n _ ms hms => ?_, by decide +kernel⟩
  exact absurd hms List.not_mem_nil

/-- With a subset for the namespaces of a team, the others go to the default
one. -/
theorem exists_isNamespaceMatch_sampleVApp :
    ∃ x ∈ (sampleVApp "canary").subsetNames,
      (convertProtoSpecToInternal LabelSelector.ofJSON (newSpec (sampleVApp "canary") "h"
        (generateProtoRoute sampleLib (sampleVApp "canary") sampleNamespaces) []
          x)).isNamespaceMatch "ns-b" sampleConfigMaps = true := by
  refine (exists_isNamespaceMatch_iff (by decide +kernel) LabelSelector.ofJSON "h" []
    sampleConfigMaps (n := ⟨"ns-b", ∅, false⟩) (by decide +kernel) ?_).mpr ?_
  · exact fun ms hms => absurd hms (by simp [sampleVApp])
  · exact .inr (.inr ⟨_, List.mem_cons_self, (takes_sampleVApp "canary").takes.hasSelector⟩)

/-! ## Whether there is only one -/

section

variable {lib : Lib} {vApp : VirtualApp} {namespaces : List Namespace}

/-- At most one of the subsets matches a named namespace of a resource that is
not public, unless the first declared subset that takes it has the name that
stands for all subsets. -/
theorem isNamespaceMatch_atMostOne_iff (hv : validate lib vApp = .ok ())
    (unmarshal : String → LabelSelector) (hash : String) (endpoints : List EndpointV1)
    {name : String} (hname : name ≠ "") {gr : GroupResource} (hpublic : ¬vApp.Public gr) :
    (∀ x ∈ vApp.subsetNames, ∀ y ∈ vApp.subsetNames,
      (convertProtoSpecToInternal unmarshal (newSpec vApp hash
        (generateProtoRoute lib vApp namespaces) endpoints x)).isNamespaceMatch name gr = true →
      (convertProtoSpecToInternal unmarshal (newSpec vApp hash
        (generateProtoRoute lib vApp namespaces) endpoints y)).isNamespaceMatch name gr = true →
      x = y) ↔
    ¬(vApp.Admits gr (·.Listed lib namespaces name) ∧
      ∃ s, vApp.FirstTakes gr (·.Listed lib namespaces name) s ∧ s.name = AllSubsetPublic) := by
  have howned := (accepted_of_validate hv).ownedBy lib namespaces unmarshal name gr hname ""
  simp only [isNamespaceMatch_newSpec]
  revert howned
  generalize InternalRoute.determineNamespaceSubset _ name gr = owner
  intro howned
  constructor
  · intro hone ⟨hadm, s, hs, hsname⟩
    obtain rfl := howned.unique (.declared hadm s hs)
    have hx : s.name ∈ vApp.subsetNames := List.mem_cons_of_mem _ (List.mem_map_of_mem hs.mem)
    have := hone "" List.mem_cons_self s.name hx (by simp [hsname]) (by simp)
    rw [hsname] at this
    exact absurd this (by decide)
  · intro hno x _ y _ hx hy
    have hne : owner ≠ some AllSubsetPublic := by
      intro ho
      cases howned with
      | limited => cases ho
      | nobody => cases ho
      | declared hadm s hs => exact hno ⟨hadm, s, hs, Option.some.inj ho⟩
      | leftover => exact absurd (Option.some.inj ho) (by decide)
      | shared _ hpub => exact hpublic hpub
    cases owner with
    | none => cases hx
    | some o =>
      have ho : o ≠ AllSubsetPublic := fun h => hne (h ▸ rfl)
      simp only [Option.any_some, Bool.or_eq_true, beq_iff_eq, ho, false_or] at hx hy
      exact hx.symm.trans hy

end

theorem isNamespaceMatch_atMostOne_sampleVApp :
    validate sampleLib (sampleVApp "canary") = .ok () ∧
      ∀ x ∈ (sampleVApp "canary").subsetNames, ∀ y ∈ (sampleVApp "canary").subsetNames,
        (convertProtoSpecToInternal LabelSelector.ofJSON (newSpec (sampleVApp "canary") "h"
          (generateProtoRoute sampleLib (sampleVApp "canary") sampleNamespaces) []
            x)).isNamespaceMatch "ns-a" sampleConfigMaps = true →
        (convertProtoSpecToInternal LabelSelector.ofJSON (newSpec (sampleVApp "canary") "h"
          (generateProtoRoute sampleLib (sampleVApp "canary") sampleNamespaces) []
            y)).isNamespaceMatch "ns-a" sampleConfigMaps = true → x = y := by
  have hvalid : validate sampleLib (sampleVApp "canary") = .ok () := by decide +kernel
  have hpublic : ¬(sampleVApp "canary").Public sampleConfigMaps := nofun
  refine ⟨hvalid, (isNamespaceMatch_atMostOne_iff hvalid LabelSelector.ofJSON "h" []
    (by decide) hpublic).mpr ?_⟩
  rintro ⟨-, s, hs, hname⟩
  obtain rfl : s = ⟨"canary", {("version", "canary")}, ["team"]⟩ := by
    simpa [sampleVApp] using hs.mem
  exact absurd hname (by decide)

/-- A subset with the name that stands for all subsets is accepted, and its
namespaces match in every subset. -/
theorem isNamespaceMatch_allSubsets_sampleVApp :
    validate sampleLib (sampleVApp AllSubsetPublic) = .ok () ∧
      ¬(sampleVApp AllSubsetPublic).Public sampleConfigMaps ∧
      (sampleVApp AllSubsetPublic).subsetNames = ["", AllSubsetPublic] ∧
      ∀ x ∈ (sampleVApp AllSubsetPublic).subsetNames,
        (convertProtoSpecToInternal LabelSelector.ofJSON (newSpec (sampleVApp AllSubsetPublic) "h"
          (generateProtoRoute sampleLib (sampleVApp AllSubsetPublic) sampleNamespaces) []
            x)).isNamespaceMatch "ns-a" sampleConfigMaps = true := by
  refine ⟨by decide +kernel, nofun, rfl, by decide +kernel⟩

end CtrlMesh
