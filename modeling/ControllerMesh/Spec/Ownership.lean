import ControllerMesh.Impl.Route

/-!
# Who owns a namespace

What the rules of a VirtualApp are for: of the subsets in the order they are
declared, the first that takes a namespace owns it for a resource; what none of
them takes is left to the default subset.

A subset takes what one of its selectors by namespaces matches, if the selector
applies to the resource. Which selectors match is a parameter `P`: the
selectors that match a given namespace (`isNamespaceMatched`), or those that
match some namespace of a given name (`Listed`).
-/

namespace CtrlMesh

open Framework

namespace MatchLimitSelector

/-- A selector by namespaces. -/
def ByNamespace (ms : MatchLimitSelector) : Prop :=
  ms.namespaceSelector.isSome ∨ ms.namespaceRegex.isSome

/-- The selector is for all resources. -/
def AllResources (ms : MatchLimitSelector) : Prop := ms.resources.getD [] = []

/-- The resources of the selector match `gr`. -/
def MatchesResource (gr : GroupResource) (ms : MatchLimitSelector) : Prop :=
  isGRMatchedAPIResources gr (generateAPIResources (ms.resources.getD []))

/-- A global limit by namespaces that is for `gr`. -/
def GlobalApplies (gr : GroupResource) (ms : MatchLimitSelector) : Prop :=
  ms.ByNamespace ∧ (ms.AllResources ∨ ms.MatchesResource gr)

/-- Some namespace of this name is matched. -/
def Listed (lib : Lib) (namespaces : List Namespace) (name : String) (ms : MatchLimitSelector) :
    Prop :=
  ∃ ns ∈ namespaces, ns.name = name ∧ isNamespaceMatched lib ms ns = true

/-- Some namespace of this name is not matched. -/
def Unlisted (lib : Lib) (namespaces : List Namespace) (name : String) (ms : MatchLimitSelector) :
    Prop :=
  ∃ ns ∈ namespaces, ns.name = name ∧ isNamespaceMatched lib ms ns = false

end MatchLimitSelector

namespace VirtualApp

variable (vApp : VirtualApp) (gr : GroupResource) (P : MatchLimitSelector → Prop)

/-- `gr` is one of the resources that all subsets share. -/
def Public : Prop :=
  isGRMatchedAPIResources gr
    (generateAPIResources (vApp.route.getD {}).subsetPublicResources) = true

/-- The selectors of a subset, through its rules. -/
def Selects (s : VirtualAppSubset) (ms : MatchLimitSelector) : Prop :=
  ∃ r ∈ (vApp.route.getD {}).subRules, r.name ∈ s.routeRules ∧ ms ∈ r.matchLimits

/-- A selector by namespaces that is for `gr`: one for all resources leaves
the public ones out. -/
def Applies (ms : MatchLimitSelector) : Prop :=
  ms.ByNamespace ∧ (ms.MatchesResource gr ∨ ms.AllResources ∧ ¬vApp.Public gr)

/-- The subset has a selector for `gr`. -/
def HasSelector (s : VirtualAppSubset) : Prop := ∃ ms, vApp.Selects s ms ∧ vApp.Applies gr ms

/-- The subset has a selector for `gr` that matches. -/
def Takes (s : VirtualAppSubset) : Prop := ∃ ms, vApp.Selects s ms ∧ vApp.Applies gr ms ∧ P ms

/-- The first subset that takes what `P` matches. -/
def FirstTakes (s : VirtualAppSubset) : Prop :=
  ∃ before after, vApp.subsets = before ++ s :: after ∧ vApp.Takes gr P s ∧
    ∀ t ∈ before, ¬vApp.Takes gr P t

/-- Every global limit for `gr` matches. -/
def Admits : Prop := ∀ ms ∈ (vApp.route.getD {}).globalLimits, ms.GlobalApplies gr → P ms

/-- The owner of what the selectors of `P` match and those of `Q` do not:
`none` for nobody, the empty name for the default subset. -/
inductive OwnedBy (Q : MatchLimitSelector → Prop) : Option String → Prop
  | limited (h : ¬vApp.Admits gr P) : OwnedBy Q none
  | declared (h : vApp.Admits gr P) (s : VirtualAppSubset) (hs : vApp.FirstTakes gr P s) :
      OwnedBy Q (some s.name)
  | leftover (h : vApp.Admits gr P) (hP : ∀ s ∈ vApp.subsets, ¬vApp.Takes gr P s)
      (hQ : ∃ s ∈ vApp.subsets, vApp.Takes gr Q s) : OwnedBy Q (some "")
  | shared (h : vApp.Admits gr P) (hpub : vApp.Public gr)
      (hno : ∀ s ∈ vApp.subsets, ¬vApp.HasSelector gr s) : OwnedBy Q (some AllSubsetPublic)
  | nobody (h : vApp.Admits gr P) (hP : ∀ s ∈ vApp.subsets, ¬vApp.Takes gr P s)
      (hQ : ∀ s ∈ vApp.subsets, ¬vApp.Takes gr Q s)
      (hpub : vApp.Public gr → ∃ s ∈ vApp.subsets, vApp.HasSelector gr s) : OwnedBy Q none

/-- The declared subsets' names and the default subset. -/
def subsetNames : List String := "" :: vApp.subsets.map (·.name)

end VirtualApp

end CtrlMesh
