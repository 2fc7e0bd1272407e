import ControllerMesh.Impl.VirtualApp
import ControllerMesh.Spec.Labels

/-!
# Valid VirtualApps

What a VirtualApp has to satisfy for its webhook, without the order in which the
checks are made. `VirtualApp.ValidWith` leaves open what is asked of the
resources of an object selector: there should be some (`HasResources`).

Whether a label selector or a regular expression is well-formed is what the
library functions say.
-/

namespace CtrlMesh

open Framework

section

variable (lib : Lib)

def Lib.SelectorWellFormed (sel : LabelSelector) : Prop :=
  ∃ selector, lib.labelSelectorAsSelector (some sel) = .ok selector

def Lib.RegexWellFormed (text : String) : Prop := ∃ regex, lib.regexpCompile text = .ok regex

/-- What `LabelSelectorAsSelector` returns: a selector of nothing for nil, and
otherwise one that has requirements if the label selector has. -/
structure Lib.BuildsSelectors : Prop where
  nil : lib.labelSelectorAsSelector none = .ok .nothing
  build {sel : LabelSelector} {selector : Selector}
    (h : lib.labelSelectorAsSelector (some sel) = .ok selector) :
    ∃ rs, selector = .requirements rs ∧ (rs ≠ [] ↔ sel.HasRequirement)

/-- Exactly one of the three selectors is set, and it is well-formed. -/
@[mk_iff]
structure MatchLimitSelector.WellFormed (m : MatchLimitSelector) : Prop where
  one : m.namespaceSelector.isSome.toNat + m.namespaceRegex.isSome.toNat +
    m.objectSelector.isSome.toNat = 1
  namespaceSelector (sel : LabelSelector) (h : m.namespaceSelector = some sel) :
    lib.SelectorWellFormed sel
  namespaceRegex (text : String) (h : m.namespaceRegex = some text) : lib.RegexWellFormed text
  objectSelector (sel : LabelSelector) (h : m.objectSelector = some sel) :
    lib.SelectorWellFormed sel

end

/-- There is a resource; a nil slice has none. -/
def HasResources (resources : Option (List APIGroupResource)) : Prop := resources.getD [] ≠ []

namespace VirtualApp

variable (obj : VirtualApp)

def subRules : List VirtualAppRouteSubRule := (obj.route.getD {}).subRules

/-- The match limit selectors: the global ones and those of the rules. -/
def selectors : List MatchLimitSelector :=
  (obj.route.getD {}).globalLimits ++ (obj.route.getD {}).subRules.flatMap (·.matchLimits)

variable (lib : Lib) (P : Option (List APIGroupResource) → Prop)

/-- The pod selector is well-formed, and it is not empty. -/
def SelectorValid : Prop :=
  ∃ sel, obj.selector = some sel ∧ lib.SelectorWellFormed sel ∧ sel.HasRequirement

@[mk_iff]
structure ConfigurationValid (conf : VirtualAppConfiguration) : Prop where
  controller (c : VirtualAppControllerConfiguration) (h : conf.controller = some c) :
    c.leaderElectionName ≠ ""
  webhook (w : VirtualAppWebhookConfiguration) (h : conf.webhook = some w) :
    w.certDir ≠ "" ∧ 0 < w.port

/-- A VirtualApp is valid, where the resources of an object selector satisfy `P`. -/
structure ValidWith : Prop where
  selector : obj.SelectorValid lib
  configured (h : obj.subsets ≠ []) :
    ∃ conf, obj.configuration = some conf ∧ (conf.controller ≠ none ∨ conf.webhook ≠ none)
  configuration (conf : VirtualAppConfiguration) (h : obj.configuration = some conf) :
    ConfigurationValid conf
  limits (m : MatchLimitSelector) (h : m ∈ obj.selectors) :
    m.WellFormed lib ∧ (m.objectSelector ≠ none → P m.resources)
  rules (r : VirtualAppRouteSubRule) (h : r ∈ obj.subRules) : r.name ≠ "" ∧ r.matchLimits ≠ []
  rule_names : (obj.subRules.map (·.name)).Nodup
  subsets (s : VirtualAppSubset) (h : s ∈ obj.subsets) :
    s.name ≠ "" ∧ s.labels ≠ ∅ ∧ s.routeRules ≠ []
  subset_names : (obj.subsets.map (·.name)).Nodup
  /-- A rule is used once, and it is there. -/
  uses : (obj.subsets.flatMap (·.routeRules)).Nodup
  uses_mem (name : String) (h : name ∈ obj.subsets.flatMap (·.routeRules)) :
    name ∈ obj.subRules.map (·.name)

/-- A valid VirtualApp. -/
abbrev Valid : Prop := obj.ValidWith lib HasResources

end VirtualApp

end CtrlMesh
