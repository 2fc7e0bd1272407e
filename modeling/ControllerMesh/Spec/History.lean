import ControllerMesh.Framework.Decisions
import ControllerMesh.Impl.Proxy

/-!
# What the history is for

A spec answers questions: may this namespace of a resource pass, may this user
agent. The history of a proxy, abstractly, is the set of answers that were
given (`RequestsPack.answers`), and a spec in force agrees with all of them
(`RequestsPack.ConsistentWith`). `Proxy.decisions` is the proxy seen as
`Framework.Decisions`: the current spec is the policy, and the answers are
those of the history and of every list and watch filtering.
-/

namespace CtrlMesh

open Framework

/-- What a proxy asks a spec. -/
inductive Question where
  | namespaceMatch (ns : String) (gr : GroupResource)
  | userAgentMatch (userAgent : String)
  deriving DecidableEq

/-- The answers of a spec. -/
def InternalSpec.policy (spec : InternalSpec) : Question → Bool
  | .namespaceMatch ns gr => spec.isNamespaceMatch ns gr
  | .userAgentMatch userAgent => spec.isUserAgentMatch userAgent

/-- The answers a record reports. -/
inductive ResourceRequest.Answers (req : ResourceRequest) : Question × Bool → Prop where
  | namespacePassed {ns : String} (h : ns ∈ req.namespacePassed) :
      Answers req (.namespaceMatch ns req.gr, true)
  | namespaceDenied {ns : String} (h : ns ∈ req.namespaceDenied) :
      Answers req (.namespaceMatch ns req.gr, false)
  | userAgentPassed {userAgent : String} (h : req.userAgentPassed = some userAgent) :
      Answers req (.userAgentMatch userAgent, true)
  | userAgentDenied {userAgent : String} (h : req.userAgentDenied = some userAgent) :
      Answers req (.userAgentMatch userAgent, false)

def ResourceRequest.answers (req : ResourceRequest) : Set (Question × Bool) := {qa | req.Answers qa}

/-- The answers the history holds. -/
inductive RequestsPack.Answers (pack : RequestsPack) : Question × Bool → Prop where
  | request {key : String} {req : ResourceRequest} {qa : Question × Bool}
      (h : pack.requestsByGR[key]? = some req) (ha : req.Answers qa) : Answers pack qa
  | userAgentPassed {userAgent : String} (h : userAgent ∈ pack.userAgentPassed) :
      Answers pack (.userAgentMatch userAgent, true)
  | userAgentDenied {userAgent : String} (h : userAgent ∈ pack.userAgentDenied) :
      Answers pack (.userAgentMatch userAgent, false)

def RequestsPack.answers (pack : RequestsPack) : Set (Question × Bool) := {qa | pack.Answers qa}

/-- A verdict as an answer. -/
def Verdict.answer (v : Verdict) : Question × Bool := (.namespaceMatch v.ns v.gr, v.passed)

/-- The proxy as a policy and the answers given under it. -/
def Proxy.decisions (p : Proxy) : Decisions Question Bool :=
  ⟨p.specManager.currentSpec.map InternalSpec.policy,
    p.specManager.requestsStore.answers ∪ {qa | ∃ v ∈ p.verdicts, v.answer = qa}⟩

/-- Everything in the history is decided by `spec` as it was recorded. -/
structure RequestsPack.ConsistentWith (pack : RequestsPack) (spec : InternalSpec) : Prop where
  namespacePassed {key : String} {req : ResourceRequest} {ns : String}
    (h : pack.requestsByGR[key]? = some req) (hns : ns ∈ req.namespacePassed) :
    spec.isNamespaceMatch ns req.gr = true
  namespaceDenied {key : String} {req : ResourceRequest} {ns : String}
    (h : pack.requestsByGR[key]? = some req) (hns : ns ∈ req.namespaceDenied) :
    spec.isNamespaceMatch ns req.gr = false
  requestUserAgentPassed {key : String} {req : ResourceRequest} {userAgent : String}
    (h : pack.requestsByGR[key]? = some req) (hua : req.userAgentPassed = some userAgent) :
    spec.isUserAgentMatch userAgent = true
  requestUserAgentDenied {key : String} {req : ResourceRequest} {userAgent : String}
    (h : pack.requestsByGR[key]? = some req) (hua : req.userAgentDenied = some userAgent) :
    spec.isUserAgentMatch userAgent = false
  userAgentPassed {userAgent : String} (h : userAgent ∈ pack.userAgentPassed) :
    spec.isUserAgentMatch userAgent = true
  userAgentDenied {userAgent : String} (h : userAgent ∈ pack.userAgentDenied) :
    spec.isUserAgentMatch userAgent = false

theorem RequestsPack.consistentWith_of_agrees {pack : RequestsPack} {spec : InternalSpec}
    (h : Decisions.Agrees spec.policy pack.answers) : pack.ConsistentWith spec where
  namespacePassed hr hns := h _ (.request hr (.namespacePassed hns))
  namespaceDenied hr hns := h _ (.request hr (.namespaceDenied hns))
  requestUserAgentPassed hr hua := h _ (.request hr (.userAgentPassed hua))
  requestUserAgentDenied hr hua := h _ (.request hr (.userAgentDenied hua))
  userAgentPassed hua := h _ (.userAgentPassed hua)
  userAgentDenied hua := h _ (.userAgentDenied hua)

/-- The object selectors in the history are those of `spec`. -/
def RequestsPack.SelectorsOf (pack : RequestsPack) (spec : InternalSpec) : Prop :=
  ∀ (key : String) (req : ResourceRequest),
    pack.requestsByGR[key]? = some req → req.objectSelector = spec.getObjectSelector req.gr

/-- A resource name that `GroupResource.String` does not confuse with another:
not empty and without a dot. -/
def GroupResource.WellNamed (gr : GroupResource) : Prop :=
  gr.resource ≠ "" ∧ '.' ∉ gr.resource.toList

instance (gr : GroupResource) : Decidable gr.WellNamed :=
  inferInstanceAs (Decidable (_ ∧ _))

/-- A request for a well named resource. A name that discovery does not know is
not recorded. -/
def Request.WellNamed : Request → Prop
  | .route discoverGVR _ _ reqInfo =>
    discoverGVR ⟨reqInfo.apiGroup, reqInfo.apiVersion, reqInfo.resource⟩ = .found →
      GroupResource.WellNamed ⟨reqInfo.apiGroup, reqInfo.resource⟩
  | .list h _ => h.groupResource.WellNamed
  | .watch h _ _ => h.groupResource.WellNamed
  | .unrecorded => True

/-- The history is consistent with the current spec, and empty before there is
one. -/
def Proxy.HistoryConsistent (p : Proxy) : Prop :=
  match p.specManager.currentSpec with
  | none => p.specManager.requestsStore = .empty
  | some spec => p.specManager.requestsStore.ConsistentWith spec

end CtrlMesh
